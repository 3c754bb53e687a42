import ClaimCells.Proofs.Texts

/-!
# Decoding a text is decoding the value it writes

A decoder has a reader for values and one for texts. They complain about different things: a text
that breaks off, or a value of the wrong shape that has a fault of its own. But where a text writes
a value, they agree on what they decode, and on whether they decode anything.

A document comes from somewhere (`Json.Source`): it is a value at hand, or a text that writes it.
`Agrees.decode` says that it does not matter which.

Main results: `agrees_record`, `Agrees.decode`.
-/

namespace ClaimCells.Json

open Cursor (skipBlanks nextElement nextMember)

/-! ## Brackets -/

namespace Cursor

variable {cs rest start : List Char} {first : Bool}

theorem nextMember_close (h : nextMember first cs = .ok (.close rest)) :
    skipBlanks cs = '}' :: rest := by
  unfold nextMember at h
  dsimp only at h
  split at h
  · cases h
  · next hc =>
    cases h
    exact hc
  · split at h
    · split at h <;> cases h
    · split at h
      · split at h <;> cases h
      · cases h

theorem nextMember_more (h : nextMember first cs = .ok (.more start)) :
    (∀ t, skipBlanks cs ≠ '}' :: t) ∧ (first → skipBlanks cs = '"' :: start) := by
  unfold nextMember at h
  dsimp only at h
  split at h
  · cases h
  · cases h
  · next c t hne hc =>
    rw [hc]
    refine ⟨fun t' ht => hne (List.cons.inj ht).1, fun hfirst => ?_⟩
    rw [if_pos hfirst] at h
    split at h
    · cases h
    · next heq =>
      cases h
      exact heq
    · cases h

theorem nextElement_close (h : nextElement first cs = .ok (.close rest)) :
    skipBlanks cs = ']' :: rest := by
  unfold nextElement at h
  split at h
  · cases h
  · next hc =>
    cases h
    exact hc
  · split at h
    · cases h
    · split at h
      · split at h <;> cases h
      · cases h

theorem nextElement_more (h : nextElement first cs = .ok (.more start)) :
    ∀ t, skipBlanks cs ≠ ']' :: t := by
  intro t ht
  rw [nextElement, ht] at h
  cases h

end Cursor

open Cursor (nextElement_close nextElement_more nextMember_close nextMember_more)

namespace Decoder

variable {α β ρ : Type} {d : Decoder α} {cs rest : List Char} {v : Json} {first : Bool}

/-! ## Agreement -/

/-- What comes of a text is what comes of a value, and these characters are left; or nothing comes
of either. -/
inductive Matches (rest : List Char) : Read α → Except Fault α → Prop
  | ok (a : α) : Matches rest (.ok (a, rest)) (.ok a)
  | error (f f' : Fault) : Matches rest (.error f) (.error f')

/-- Where a text writes a value, the decoder gets the same from both. -/
def Agrees (d : Decoder α) : Prop :=
  ∀ cs v rest, Reads cs v rest → Matches rest (d.ofText cs) (d.ofValue v)

theorem matches_map (rest : List Char) (x : Except Fault α) : Matches rest (x.map (·, rest)) x := by
  cases x with
  | error e => exact .error e e
  | ok a => exact .ok a

theorem Agrees.map (h : d.Agrees) (f : α → β) : (d.map f).Agrees := by
  intro cs v rest hr
  have hd := h cs v rest hr
  show Matches rest ((d.ofText cs).map _) ((d.ofValue v).map f)
  generalize d.ofText cs = x, d.ofValue v = y at hd
  cases hd with
  | ok a => exact .ok (f a)
  | error e e' => exact .error e e'

/-! ## Scalars -/

theorem agrees_bool : bool.Agrees := by
  intro cs v rest hr
  simp only [bool]
  cases hr.stands with
  | true h hw =>
    rw [h]
    show Matches _ ((Cursor.word _ _).map _) _
    rw [hw]
    exact .ok true
  | false h hw =>
    rw [h]
    show Matches _ ((Cursor.word _ _).map _) _
    rw [hw]
    exact .ok false
  | number h hc hn =>
    rw [h]
    split
    · next heq =>
      cases heq
      exact absurd hc (by decide)
    · next heq =>
      cases heq
      exact absurd hc (by decide)
    · exact .error _ _
  | null h | text h | array h | object h =>
    rw [h]
    exact .error _ _

theorem agrees_unit : unit.Agrees := by
  intro cs v rest hr
  simp only [unit]
  cases hr.stands with
  | null h hw =>
    rw [h]
    show Matches _ ((Cursor.word _ _).map _) _
    rw [hw]
    exact .ok ()
  | number h hc hn =>
    rw [h]
    split
    · next heq =>
      cases heq
      exact absurd hc (by decide)
    · exact .error _ _
  | true h | false h | text h | array h | object h =>
    rw [h]
    exact .error _ _

theorem Agrees.optional (hd : d.Agrees) : d.optional.Agrees := by
  intro cs v rest hr
  have hsome : Matches rest ((d.map some).ofText (skipBlanks cs)) ((d.map some).ofValue v) :=
    hd.map some _ v rest hr.skipBlanks
  simp only [Decoder.optional]
  cases hr.stands with
  | null h hw =>
    rw [h]
    show Matches _ ((Cursor.word _ _).map _) _
    rw [hw]
    exact .ok none
  | number h hc hn =>
    rw [h] at hsome ⊢
    split
    · next heq =>
      cases heq
      exact absurd hc (by decide)
    · exact hsome
  | true h | false h | text h | array h | object h =>
    rw [h] at hsome ⊢
    exact hsome

/-! ## Choices -/

/-- A choice in braces is read from a text as if it had one member, and fails if it has more. -/
theorem agrees_choice (choices : List (String × α)) : (choice choices).Agrees := by
  intro cs v rest hr
  simp only [choice]
  cases hr.stands with
  | text h hs =>
    rw [h]
    show Matches _ ((Cursor.string _).andThen _) _
    rw [hs]
    exact matches_map rest _
  | object h hms =>
    rw [h]
    show Matches _ (Read.andThen _ _) _
    cases hms with
    | close hc =>
      rw [nextMember_close hc]
      exact .error _ _
    | @more _ _ k start _ _ v mid ms rest hm hk hcolon hv hms =>
      rw [(nextMember_more hm).2 rfl]
      show Matches _ (Read.andThen (Cursor.string _) _) _
      rw [hk]
      simp only [Read.andThen, bind, Except.bind, hcolon]
      have hunit := agrees_unit _ v mid hv
      cases hms with
      | close hc =>
        show Matches _ _ (Except.bind _ _)
        cases variant choices k with
        | error e => exact .error e e
        | ok a =>
          show Matches _ _ (Except.bind _ _)
          dsimp only
          generalize unit.ofText _ = x, unit.ofValue v = y at hunit
          cases hunit with
          | error e e' => exact .error e e'
          | ok =>
            dsimp only
            rw [nextMember_close hc]
            exact .ok a
      | more hm' =>
        cases variant choices k with
        | error e => exact .error e _
        | ok a =>
          dsimp only
          generalize unit.ofText _ = x, unit.ofValue v = y at hunit
          cases hunit with
          | error e e' => exact .error e _
          | ok =>
            dsimp only
            split
            · next hc => exact absurd hc ((nextMember_more hm').1 _)
            · exact .error _ _
            · exact .error _ _
  | number h hc hn =>
    rw [h]
    split
    · next heq => cases heq
    · next heq =>
      cases heq
      exact absurd hc (by decide)
    · next heq =>
      cases heq
      exact absurd hc (by decide)
    · exact .error _ _
  | null h | true h | false h | array h =>
    rw [h]
    exact .error _ _

/-! ## Records -/

namespace Record

variable {r : Record ρ}

theorem members_matches (hr : ∀ f ∈ r.fields, f.update.Agrees) {ms : List (String × Json)}
    (hms : Members Reads first cs ms rest) {n : Nat} (hn : cs.length < n) (seen : List String)
    (value : ρ) :
    Matches rest (r.membersText n first seen value cs) (r.members ms seen value) := by
  induction hms generalizing n seen value with
  | close hc =>
    obtain ⟨n, rfl⟩ : ∃ k, n = k + 1 := ⟨n - 1, by omega⟩
    rw [membersText, hc]
    exact matches_map _ _
  | @more _ cs k start afterKey afterColon v mid ms rest hm hk hcolon hv hms ih =>
    obtain ⟨n, rfl⟩ : ∃ k, n = k + 1 := ⟨n - 1, by omega⟩
    have hmid : mid.length < n := by
      have hstart := Cursor.nextMember_length hm
      have hkey := Cursor.stringTail_length hk
      have hafter := Cursor.colon_length hcolon
      have hvalue := hv.length
      simp only [Cursor.Next.left] at hstart
      omega
    rw [membersText, hm, members]
    dsimp only
    rw [hk]
    simp only [Read.andThen, hcolon, Except.bind]
    cases hf : r.field? k with
    | none =>
      dsimp only
      rw [hv.skip]
      exact ih hmid seen value
    | some f =>
      dsimp only
      split
      · exact .error _ _
      · have hmatch := hr f (List.mem_of_find?_eq_some hf) _ v mid hv
        generalize f.update.ofText _ = x, f.update.ofValue v = y at hmatch
        cases hmatch with
        | error e e' => exact .error e e'
        | ok set => exact ih hmid _ _

theorem elements_matches {vs : List Json} (hvs : Elements Reads first cs vs rest) (total : Nat)
    {fs : List (Field ρ)} (hfs : ∀ f ∈ fs, f.update.Agrees) {count : Nat}
    (hfirst : first = decide (count = 0)) (value : ρ) :
    Matches rest (r.elementsText fs count value cs) (r.elements total fs vs value) := by
  induction hvs generalizing fs count value with
  | close hc =>
    cases fs with
    | nil =>
      rw [elementsText, nextElement_close hc, elements]
      exact .ok value
    | cons f fs =>
      rw [elementsText, ← hfirst, hc, elements]
      dsimp only
      split
      · exact .error _ _
      · exact .ok value
  | @more _ cs start v mid vs rest hm hv hvs ih =>
    cases fs with
    | nil =>
      rw [elementsText, elements]
      split
      · next hc => exact absurd hc (nextElement_more hm _)
      · exact .error _ _
      · exact .error _ _
    | cons f fs =>
      rw [elementsText, ← hfirst, hm, elements]
      dsimp only
      have hmatch := hfs f List.mem_cons_self _ v mid hv
      generalize f.update.ofText _ = x, f.update.ofValue v = y at hmatch
      cases hmatch with
      | error e e' => exact .error e e'
      | ok set => exact ih (fun f hf => hfs f (.tail _ hf)) (by simp) _

end Record

/-- A record decoder agrees on texts and values if the decoders of its fields do. -/
theorem agrees_record {r : Record ρ} (hr : ∀ f ∈ r.fields, f.update.Agrees) :
    (record r).Agrees := by
  intro cs v rest hread
  show Matches rest (r.ofText cs) (r.ofValue v)
  rw [Record.ofText]
  cases hread.stands with
  | object h hms =>
    rw [h]
    exact Record.members_matches hr hms (Nat.lt_succ_self _) [] r.start
  | array h hvs =>
    rw [h]
    exact Record.elements_matches hvs _ hr rfl r.start
  | number h hc hn =>
    rw [h]
    split
    · next heq =>
      cases heq
      exact absurd hc (by decide)
    · next heq =>
      cases heq
      exact absurd hc (by decide)
    · exact .error _ _
  | null h | true h | false h | text h =>
    rw [h]
    exact .error _ _

end Decoder

/-! ## Sources -/

/-- The document comes from the source: it is the value at hand, or the text writes it. -/
def Source.Holds : Source → Json → Prop
  | .value v, doc => v = doc
  | .text s, doc => Json.ofText s = .ok doc

theorem Source.holds_value (doc : Json) : (Source.value doc).Holds doc := rfl

/-- **It does not matter where a document comes from.** Whatever holds it, decoding gets what it
gets from the document itself, or fails if that does. -/
theorem Decoder.Agrees.decode {α : Type} {d : Decoder α} (hd : d.Agrees) {src : Source} {doc : Json}
    (h : src.Holds doc) :
    (∀ a, d.ofValue doc = .ok a → d.decode src = .ok a) ∧
      ∀ f, d.ofValue doc = .error f → ∃ f', d.decode src = .error f' := by
  cases src with
  | value v =>
    obtain rfl : v = doc := h
    exact ⟨fun a ha => ha, fun f hf => ⟨f, hf⟩⟩
  | text s =>
    unfold Source.Holds Json.ofText at h
    dsimp only at h
    split at h
    · cases h
    · next doc' rest hread =>
      obtain ⟨⟨⟩, hfinish, rfl⟩ := ok_of_map h
      have hmatch := hd _ _ rest ⟨_, hread⟩
      show (∀ a, _ → d.decodeText s = _) ∧ ∀ f, _ → ∃ f', d.decodeText s = _
      rw [Decoder.decodeText]
      generalize d.ofText s.toList = x, d.ofValue doc' = y at hmatch
      cases hmatch with
      | error e e' => exact ⟨nofun, fun _ _ => ⟨e, rfl⟩⟩
      | ok a =>
        refine ⟨fun a' ha => ?_, nofun⟩
        cases ha
        dsimp only
        rw [hfinish]
        rfl

end ClaimCells.Json
