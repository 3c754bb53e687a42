import ClaimCells.Codec
import Mathlib.Data.List.DropRight
import Mathlib.Tactic

/-!
# What stands in a text

Readers of JSON text are bounded by a number of calls. Here the values of a text are described
without it: `Stands` has one case for each kind of value and leaves open how what is in an array or
an object stands there, and `Reads` is the value that some number of calls reads.

**Skipping.** Whatever can be read can be skipped, and both take the same part of the text. Skipping
is more lenient: it takes half of a surrogate pair for a character, so where reading takes a whole
pair at once it takes two steps.

Main results: `Reads.stands`, by which a value that was read is taken apart, and `Reads.skip`.
-/

namespace ClaimCells.Json

namespace Cursor

variable {cs rest : List Char} {done : List Char} {s : String} {c : Char}

/-! ## Blanks and words -/

theorem skipBlanks_skipBlanks (cs : List Char) : skipBlanks (skipBlanks cs) = skipBlanks cs :=
  List.dropWhile_idempotent _ cs

theorem length_of_skipBlanks {tail : List Char} (h : skipBlanks cs = c :: tail) :
    tail.length < cs.length := by
  have hle := List.length_dropWhile_le isBlank cs
  rwa [← skipBlanks, h] at hle

theorem word_length {es : List Char} (h : word es cs = .ok rest) : rest.length ≤ cs.length := by
  induction es generalizing cs with
  | nil =>
    cases h
    exact le_rfl
  | cons e es ih =>
    cases cs with
    | nil => cases h
    | cons c cs =>
      rw [word] at h
      split at h
      · exact (ih h).trans (Nat.le_succ _)
      · cases h

/-! ## Strings -/

theorem stringTail_length {pairs : Bool} (h : stringTail pairs done cs = .ok (s, rest)) :
    rest.length < cs.length := by
  fun_induction stringTail pairs done cs with
  | case1 | case4 | case5 => cases h
  | case2 =>
    cases h
    exact Nat.lt_succ_self _
  | case3 done tail c left hleft he ih => exact (ih h).trans (hleft.trans (Nat.lt_succ_self _))
  | case6 done c tail _ _ _ ih => exact (ih h).trans (Nat.lt_succ_self _)

/-- The second half of a pair is an escaped character of its own. -/
theorem lowSurrogate_ok {high : Nat} {left : Shorter cs}
    (h : lowSurrogate high cs = .ok (c, left)) :
    ∃ mid n, ∃ hleft : left.1.length < mid.length, cs = '\\' :: 'u' :: mid ∧
      hex4 mid = .ok (n, ⟨left.1, hleft⟩) := by
  unfold lowSurrogate at h
  split at h
  · next mid =>
    split at h
    · next n left' hleft hn =>
      split at h
      · obtain ⟨-, rfl⟩ := Prod.mk.inj (Except.ok.inj h)
        exact ⟨mid, n, hleft, rfl, hn⟩
      · cases h
    · cases h
  all_goals cases h

/-- With pairs or without, four digits are taken. -/
theorem escape_u {left : Shorter cs} {n : Nat} (h : hex4 cs = .ok (n, left)) :
    ∃ d h, escape false ('u' :: cs) = .ok (d, ⟨left.1, h⟩) := by
  rw [escape, h]
  exact ⟨_, _, rfl⟩

/-- Pairs only matter to numbered characters. -/
theorem escape_of_ne (h : ∀ t, cs ≠ 'u' :: t) : escape true cs = escape false cs := by
  unfold escape
  split
  · rfl
  · exact absurd rfl (h _)
  · rfl

/-- An escaped character is skipped in one step, or in two if it is a pair. -/
theorem escape_lenient {left : Shorter cs} (h : escape true cs = .ok (c, left)) :
    ∃ d mid hmid, escape false cs = .ok (d, ⟨mid, hmid⟩) ∧
      (mid = left.1 ∨ ∃ next e hleft, mid = '\\' :: next ∧
        escape false next = .ok (e, ⟨left.1, hleft⟩)) := by
  cases cs with
  | nil => cases h
  | cons c' cs =>
    by_cases hu : c' = 'u'
    · subst hu
      rw [escape] at h
      split at h
      · next n mid hmid hn =>
        obtain ⟨d, hlt, hd⟩ := escape_u hn
        refine ⟨d, mid, hlt, hd, ?_⟩
        split at h
        · cases h
          exact .inl rfl
        · split at h
          · cases h
          · split at h
            · next c' left' hleft' hlow =>
              cases h
              obtain ⟨next, n', hnext, rfl, hn'⟩ := lowSurrogate_ok hlow
              obtain ⟨e, hlt', he⟩ := escape_u hn'
              exact .inr ⟨_, e, hlt', rfl, he⟩
            · cases h
      · cases h
    · have hne : ∀ t, c' :: cs ≠ 'u' :: t := by simp [hu]
      exact ⟨c, left.1, left.2, escape_of_ne hne ▸ h, .inl rfl⟩

theorem stringTail_escape {pairs : Bool} {left : List Char} {hleft : left.length < cs.length}
    (done : List Char) (h : escape pairs cs = .ok (c, ⟨left, hleft⟩)) :
    stringTail pairs done ('\\' :: cs) = stringTail pairs (c :: done) left := by
  rw [stringTail, h]

/-- Skipping a string takes as much of the text as reading it. -/
theorem stringTail_lenient (h : stringTail true done cs = .ok (s, rest)) (done' : List Char) :
    ∃ s', stringTail false done' cs = .ok (s', rest) := by
  fun_induction stringTail true done cs generalizing done' with
  | case1 | case4 | case5 => cases h
  | case2 =>
    cases h
    exact ⟨_, by rw [stringTail]⟩
  | case3 done tail c left hleft he ih =>
    obtain ⟨d, mid, hmid, hd, rfl | ⟨next, e, hnext, rfl, he'⟩⟩ := escape_lenient he
    · rw [stringTail_escape _ hd]
      exact ih h _
    · rw [stringTail_escape _ hd, stringTail_escape _ he']
      exact ih h _
  | case6 done c tail hq hb hc ih =>
    rw [stringTail, if_neg hc]
    · exact ih h _
    · exact hq
    · exact hb

/-! ## Numbers -/

variable {ended : Fault} {p q : Number.Parts} {ds : List Char} {negative : Bool}

theorem digits_ok (ended' : Fault) (h : digits ended cs = .ok (ds, rest)) :
    digits ended' cs = .ok (ds, rest) ∧ rest.length < cs.length := by
  unfold digits at h ⊢
  cases cs with
  | nil => cases h
  | cons c cs =>
    by_cases hc : c.isDigit
    · simp only [List.takeWhile_cons, List.dropWhile_cons, hc, if_true, Except.ok.injEq,
        Prod.mk.injEq] at h ⊢
      refine ⟨h, ?_⟩
      rw [← h.2]
      exact Nat.lt_succ_of_le (List.length_dropWhile_le _ _)
    · simp [hc] at h

theorem exponent_ok (ended' : Fault) (h : exponent ended p cs = .ok (q, rest)) :
    exponent ended' p cs = .ok (q, rest) ∧ rest.length ≤ cs.length := by
  have tail (sign : Bool) {tail : List Char} (ht : tail.length ≤ cs.length)
      (h : (digits ended tail).map (fun d =>
        ({ p with exponent := some (sign, d.1), floating := true }, d.2)) = .ok (q, rest)) :
      (digits ended' tail).map (fun d =>
        ({ p with exponent := some (sign, d.1), floating := true }, d.2)) = .ok (q, rest) ∧
        rest.length ≤ cs.length := by
    cases hd : digits ended tail with
    | error f =>
      rw [hd] at h
      cases h
    | ok d =>
      rw [hd] at h
      obtain ⟨hd', hlt⟩ := digits_ok ended' hd
      rw [hd']
      cases h
      exact ⟨rfl, (hlt.trans_le ht).le⟩
  unfold exponent at h ⊢
  dsimp only at h ⊢
  split at h
  case h_7 =>
    cases h
    exact ⟨rfl, le_rfl⟩
  all_goals exact tail _ (by simp only [List.length_cons]; omega) h

theorem numberParts_ok (ended' : Fault) (h : numberParts ended negative cs = .ok (q, rest)) :
    numberParts ended' negative cs = .ok (q, rest) ∧ rest.length < cs.length := by
  unfold numberParts at h ⊢
  split at h
  · cases h
  · next whole mid hwhole =>
    obtain ⟨hwhole', hmid⟩ := digits_ok ended' hwhole
    rw [hwhole']
    dsimp only at h ⊢
    split at h
    · cases h
    · next hzero =>
      rw [if_neg hzero]
      split at h
      · split at h
        · cases h
        · next fraction left hfraction =>
          obtain ⟨hfraction', hleft⟩ := digits_ok ended' hfraction
          obtain ⟨hexp, hrest⟩ := exponent_ok ended' h
          refine ⟨?_, ?_⟩
          · rw [hfraction']
            exact hexp
          · simp only [List.length_cons] at hmid
            omega
      · next hdot =>
        obtain ⟨hexp, hrest⟩ := exponent_ok ended' h
        refine ⟨?_, hrest.trans_lt hmid⟩
        exact hexp

/-- Skipping a number takes as much of the text as reading it. -/
theorem number_skips {n : Number} {t : List Char} (hc : c = '-' || c.isDigit)
    (h : number (c :: t) = .ok (n, rest)) :
    skipScalar (c :: t) = .ok rest ∧ rest.length ≤ t.length := by
  unfold number at h
  dsimp only at h
  split at h
  · cases h
  · next p left hp =>
    obtain rfl : left = rest := by
      split at h
      · exact (Prod.mk.inj (Except.ok.inj h)).2
      · cases h
    clear h
    split at hp
    · next heq =>
      cases heq
      obtain ⟨hskip, hlt⟩ := numberParts_ok .malformed hp
      refine ⟨?_, hlt.le⟩
      rw [skipScalar, hskip]
      rfl
    · next hsign =>
      obtain ⟨hskip, hlt⟩ := numberParts_ok .malformed hp
      refine ⟨?_, Nat.le_of_lt_succ hlt⟩
      have hdigit : c.isDigit := by
        simpa [show c ≠ '-' from fun hc => hsign t (by rw [hc])] using hc
      rw [skipScalar, if_pos hdigit, hskip]
      · rfl
      all_goals
        rintro rfl
        exact absurd hdigit (by decide)

/-! ## Between values -/

theorem colon_length (h : colon cs = .ok rest) : rest.length < cs.length := by
  have hle := List.length_dropWhile_le isBlank cs
  unfold colon skipBlanks at h
  split at h
  · next heq =>
    cases h
    rw [heq] at hle
    exact hle
  · cases h
  · cases h

/-- What is left where the next element or member was looked for. -/
def Next.left : Next → List Char
  | .close rest => rest
  | .more rest => rest

theorem nextElement_length {first : Bool} {next : Next} (h : nextElement first cs = .ok next) :
    next.left.length ≤ cs.length := by
  unfold nextElement at h
  split at h
  · cases h
  · next hc =>
    cases h
    exact (length_of_skipBlanks hc).le
  · next c tail _ hc =>
    have htail := length_of_skipBlanks hc
    split at h
    · cases h
      exact htail
    · split at h
      · split at h
        · cases h
        · cases h
        · cases h
          exact (List.length_dropWhile_le isBlank tail).trans htail.le
      · cases h

theorem nextMember_length {first : Bool} {next : Next} (h : nextMember first cs = .ok next) :
    next.left.length ≤ cs.length := by
  unfold nextMember at h
  dsimp only at h
  split at h
  · cases h
  · next hc =>
    cases h
    exact (length_of_skipBlanks hc).le
  · next c tail _ hc =>
    have htail := length_of_skipBlanks hc
    split at h
    · split at h
      · cases h
      · next hkey =>
        cases h
        cases hkey
        exact htail.le
      · cases h
    · split at h
      · split at h
        · cases h
        · next hkey =>
          cases h
          exact ((length_of_skipBlanks hkey).trans htail).le
        · cases h
      · cases h

end Cursor

open Cursor (skipBlanks nextElement nextMember)

/-! ## What stands in a text -/

/-- The elements of an array stand at the beginning of a text, each of them as `R` says. The last
argument is what is left of the text after the closing bracket. -/
inductive Elements (R : List Char → Json → List Char → Prop) :
    Bool → List Char → List Json → List Char → Prop
  | close {first cs rest} (h : nextElement first cs = .ok (.close rest)) :
    Elements R first cs [] rest
  | more {first cs start v mid vs rest} (h : nextElement first cs = .ok (.more start))
    (hv : R start v mid) (hvs : Elements R false mid vs rest) : Elements R first cs (v :: vs) rest

/-- The members of an object stand at the beginning of a text. -/
inductive Members (R : List Char → Json → List Char → Prop) :
    Bool → List Char → List (String × Json) → List Char → Prop
  | close {first cs rest} (h : nextMember first cs = .ok (.close rest)) :
    Members R first cs [] rest
  | more {first cs k start afterKey afterColon v mid ms rest}
    (h : nextMember first cs = .ok (.more start))
    (hk : Cursor.string start = .ok (k, afterKey)) (hcolon : Cursor.colon afterKey = .ok afterColon)
    (hv : R afterColon v mid) (hms : Members R false mid ms rest) :
    Members R first cs ((k, v) :: ms) rest

/-- A value stands at the beginning of a text. -/
inductive Stands (R : List Char → Json → List Char → Prop) (cs : List Char) :
    Json → List Char → Prop
  | null {t rest} (h : skipBlanks cs = 'n' :: t) (hw : Cursor.word "ull".toList t = .ok rest) :
    Stands R cs .null rest
  | true {t rest} (h : skipBlanks cs = 't' :: t) (hw : Cursor.word "rue".toList t = .ok rest) :
    Stands R cs (.bool true) rest
  | false {t rest} (h : skipBlanks cs = 'f' :: t) (hw : Cursor.word "alse".toList t = .ok rest) :
    Stands R cs (.bool false) rest
  | text {t s rest} (h : skipBlanks cs = '"' :: t) (hs : Cursor.string t = .ok (s, rest)) :
    Stands R cs (.text s) rest
  | number {c t n rest} (h : skipBlanks cs = c :: t) (hc : (c = '-' || c.isDigit) = true)
    (hn : Cursor.number (c :: t) = .ok (n, rest)) : Stands R cs (.number n) rest
  | array {t vs rest} (h : skipBlanks cs = '[' :: t) (hvs : Elements R true t vs rest) :
    Stands R cs (.array vs) rest
  | object {t ms rest} (h : skipBlanks cs = '{' :: t) (hms : Members R true t ms rest) :
    Stands R cs (.object ms) rest

variable {R R' : List Char → Json → List Char → Prop} {cs rest : List Char} {c : Char} {v : Json}
  {vs done : List Json} {first : Bool} {n : Nat}

theorem Elements.imp (h : ∀ cs v rest, R cs v rest → R' cs v rest)
    (hvs : Elements R first cs vs rest) : Elements R' first cs vs rest := by
  induction hvs with
  | close hc => exact .close hc
  | more hm hv _ ih => exact .more hm (h _ _ _ hv) ih

theorem Members.imp {ms : List (String × Json)} (h : ∀ cs v rest, R cs v rest → R' cs v rest)
    (hms : Members R first cs ms rest) : Members R' first cs ms rest := by
  induction hms with
  | close hc => exact .close hc
  | more hm hk hcolon hv _ ih => exact .more hm hk hcolon (h _ _ _ hv) ih

theorem Stands.imp (h : ∀ cs v rest, R cs v rest → R' cs v rest) (hv : Stands R cs v rest) :
    Stands R' cs v rest := by
  cases hv with
  | null h hw => exact .null h hw
  | true h hw => exact .true h hw
  | false h hw => exact .false h hw
  | text h hs => exact .text h hs
  | number h hc hn => exact .number h hc hn
  | array h hvs => exact .array h (hvs.imp ‹_›)
  | object h hms => exact .object h (hms.imp ‹_›)

theorem ok_of_map {α β : Type} {f : α → β} {x : Except Fault α} {b : β} (h : x.map f = .ok b) :
    ∃ a, x = .ok a ∧ f a = b := by
  cases x with
  | error e => cases h
  | ok a => exact ⟨a, rfl, Except.ok.inj h⟩

/-- The value is read at the beginning of a text by fewer calls than so many. -/
def Within (n : Nat) (cs : List Char) (v : Json) (rest : List Char) : Prop :=
  ∃ m < n, readValue m cs = .ok (v, rest)

theorem Within.mono {n' : Nat} (h : Within n cs v rest) (hn : n ≤ n') : Within n' cs v rest := by
  obtain ⟨m, hm, hread⟩ := h
  exact ⟨m, hm.trans_le hn, hread⟩

theorem elements_of_read (h : readElements n first done cs = .ok (v, rest)) :
    ∃ vs, v = .array (done.reverse ++ vs) ∧ Elements (Within n) first cs vs rest := by
  induction n generalizing first done cs with
  | zero => cases h
  | succ n ih =>
    rw [readElements] at h
    split at h
    · cases h
    · next hc =>
      cases h
      exact ⟨[], by rw [List.append_nil], .close hc⟩
    · next start hm =>
      split at h
      · cases h
      · next hv =>
        obtain ⟨vs, rfl, hvs⟩ := ih h
        refine ⟨_ :: vs, by simp, .more hm ⟨n, Nat.lt_succ_self n, hv⟩ ?_⟩
        exact hvs.imp fun _ _ _ hw => hw.mono (Nat.le_succ n)

theorem members_of_read {done : List (String × Json)}
    (h : readMembers n first done cs = .ok (v, rest)) :
    ∃ ms, v = .object (done.reverse ++ ms) ∧ Members (Within n) first cs ms rest := by
  induction n generalizing first done cs with
  | zero => cases h
  | succ n ih =>
    rw [readMembers] at h
    split at h
    · cases h
    · next hc =>
      cases h
      exact ⟨[], by rw [List.append_nil], .close hc⟩
    · next start hm =>
      split at h
      · cases h
      · next hk =>
        split at h
        · cases h
        · next hcolon =>
          split at h
          · cases h
          · next hv =>
            obtain ⟨ms, rfl, hms⟩ := ih h
            refine ⟨_ :: ms, by simp, .more hm hk hcolon ⟨n, Nat.lt_succ_self n, hv⟩ ?_⟩
            exact hms.imp fun _ _ _ hw => hw.mono (Nat.le_succ n)

theorem stands_of_read (h : readValue n cs = .ok (v, rest)) : Stands (Within n) cs v rest := by
  cases n with
  | zero => cases h
  | succ n =>
    rw [readValue] at h
    split at h
    · next hc =>
      obtain ⟨vs, rfl, hvs⟩ := elements_of_read h
      exact .array hc (hvs.imp fun _ _ _ hw => hw.mono (Nat.le_succ n))
    · next hc =>
      obtain ⟨ms, rfl, hms⟩ := members_of_read h
      exact .object hc (hms.imp fun _ _ _ hw => hw.mono (Nat.le_succ n))
    · generalize hc : skipBlanks cs = cs' at h
      unfold readScalar at h
      split at h
      · cases h
      · obtain ⟨rest, hw, hr⟩ := ok_of_map h
        cases hr
        exact .null hc hw
      · obtain ⟨rest, hw, hr⟩ := ok_of_map h
        cases hr
        exact .true hc hw
      · obtain ⟨rest, hw, hr⟩ := ok_of_map h
        cases hr
        exact .false hc hw
      · obtain ⟨⟨s, rest⟩, hs, hr⟩ := ok_of_map h
        cases hr
        exact .text hc hs
      · split at h
        · next hdigit =>
          obtain ⟨⟨n, rest⟩, hn, hr⟩ := ok_of_map h
          cases hr
          exact .number hc hdigit hn
        · cases h

/-! ## Skipping -/

/-- Skipping takes the value, and comes to the end of it within two calls for each character. Of
two calls in a row at least one takes a character. -/
def Skips (cs : List Char) (_v : Json) (rest : List Char) : Prop :=
  rest.length < cs.length ∧ ∀ n, 2 * cs.length + 2 ≤ n → Cursor.skipValue n cs = .ok rest

theorem Elements.skips (h : Elements Skips first cs vs rest) :
    rest.length ≤ cs.length ∧
      ∀ n, 2 * cs.length + 3 ≤ n → Cursor.skipElements n first cs = .ok rest := by
  induction h with
  | close hc =>
    refine ⟨Cursor.nextElement_length hc, fun n hn => ?_⟩
    obtain ⟨n, rfl⟩ : ∃ k, n = k + 1 := ⟨n - 1, by omega⟩
    rw [Cursor.skipElements, hc]
  | more hm hv hvs ih =>
    obtain ⟨hlt, hskip⟩ := hv
    obtain ⟨hle, ih⟩ := ih
    have hstart := Cursor.nextElement_length hm
    simp only [Cursor.Next.left] at hstart
    refine ⟨by omega, fun n hn => ?_⟩
    obtain ⟨n, rfl⟩ : ∃ k, n = k + 1 := ⟨n - 1, by omega⟩
    have hskip' := hskip n (by omega)
    simp only [Cursor.skipElements, hm, hskip']
    exact ih n (by omega)

theorem Members.skips {ms : List (String × Json)} (h : Members Skips first cs ms rest) :
    rest.length ≤ cs.length ∧
      ∀ n, 2 * cs.length + 3 ≤ n → Cursor.skipMembers n first cs = .ok rest := by
  induction h with
  | close hc =>
    refine ⟨Cursor.nextMember_length hc, fun n hn => ?_⟩
    obtain ⟨n, rfl⟩ : ∃ k, n = k + 1 := ⟨n - 1, by omega⟩
    rw [Cursor.skipMembers, hc]
  | more hm hk hcolon hv hms ih =>
    obtain ⟨hlt, hskip⟩ := hv
    obtain ⟨hle, ih⟩ := ih
    have hstart := Cursor.nextMember_length hm
    have hkey := Cursor.stringTail_length hk
    have hafter := Cursor.colon_length hcolon
    obtain ⟨s, hs⟩ := Cursor.stringTail_lenient hk []
    simp only [Cursor.Next.left] at hstart
    refine ⟨by omega, fun n hn => ?_⟩
    obtain ⟨n, rfl⟩ : ∃ k, n = k + 1 := ⟨n - 1, by omega⟩
    have hskip' := hskip n (by omega)
    simp only [Cursor.skipMembers, hm, hs, hcolon, hskip']
    exact ih n (by omega)

/-- It is enough to look behind the first character of a value. -/
theorem skips_of_tail {t : List Char} (tail : Nat → Except Fault (List Char))
    (hc : skipBlanks cs = c :: t) (htail : ∀ n, Cursor.skipValue (n + 1) cs = tail n)
    (h : rest.length ≤ t.length ∧ ∀ n, 2 * t.length + 3 ≤ n → tail n = .ok rest) :
    Skips cs v rest := by
  obtain ⟨hle, hskip⟩ := h
  have hlt := Cursor.length_of_skipBlanks hc
  refine ⟨by omega, fun n hn => ?_⟩
  obtain ⟨n, rfl⟩ : ∃ k, n = k + 1 := ⟨n - 1, by omega⟩
  rw [htail]
  exact hskip n (by omega)

theorem skips_scalar {t : List Char} (hc : skipBlanks cs = c :: t)
    (hskip : Cursor.skipScalar (c :: t) = .ok rest) (hrest : rest.length ≤ t.length) :
    Skips cs v rest := by
  refine skips_of_tail (fun _ => .ok rest) hc (fun n => ?_) ⟨hrest, fun _ _ => rfl⟩
  rw [Cursor.skipValue, hc]
  split
  · next heq =>
    cases heq
    cases hskip
  · next heq =>
    cases heq
    cases hskip
  · exact hskip

theorem Stands.skips (h : Stands Skips cs v rest) : Skips cs v rest := by
  cases h with
  | null hc hw => exact skips_scalar hc hw (Cursor.word_length hw)
  | true hc hw => exact skips_scalar hc hw (Cursor.word_length hw)
  | false hc hw => exact skips_scalar hc hw (Cursor.word_length hw)
  | text hc hs =>
    obtain ⟨s, hs'⟩ := Cursor.stringTail_lenient hs []
    exact skips_scalar hc (by rw [Cursor.skipScalar, hs']; rfl) (Cursor.stringTail_length hs).le
  | number hc hnumeric hn =>
    obtain ⟨hskip, hle⟩ := Cursor.number_skips hnumeric hn
    exact skips_scalar hc hskip hle
  | array hc hvs => exact skips_of_tail _ hc (fun n => by rw [Cursor.skipValue, hc]; rfl) hvs.skips
  | object hc hms => exact skips_of_tail _ hc (fun n => by rw [Cursor.skipValue, hc]; rfl) hms.skips

/-- What can be read can be skipped. -/
theorem skips_of_read (h : readValue n cs = .ok (v, rest)) : Skips cs v rest := by
  induction n using Nat.strong_induction_on generalizing cs v rest with
  | _ n ih =>
    refine ((stands_of_read h).imp fun _ _ _ hw => ?_).skips
    obtain ⟨m, hm, hread⟩ := hw
    exact ih m hm hread

/-! ## Reading -/

/-- The value is read at the beginning of a text. -/
def Reads (cs : List Char) (v : Json) (rest : List Char) : Prop :=
  ∃ n, readValue n cs = .ok (v, rest)

/-- A value that was read stands there, and so does everything in it. -/
theorem Reads.stands (h : Reads cs v rest) : Stands Reads cs v rest := by
  obtain ⟨n, hn⟩ := h
  refine (stands_of_read hn).imp fun _ _ _ hw => ?_
  obtain ⟨m, -, hm⟩ := hw
  exact ⟨m, hm⟩

/-- Skipping a value takes as much of the text as reading it. -/
theorem Reads.skip (h : Reads cs v rest) : Cursor.skip cs = .ok rest := by
  obtain ⟨n, hn⟩ := h
  exact (skips_of_read hn).2 _ le_rfl

theorem Reads.length (h : Reads cs v rest) : rest.length < cs.length := by
  obtain ⟨n, hn⟩ := h
  exact (skips_of_read hn).1

theorem Reads.skipBlanks (h : Reads cs v rest) : Reads (skipBlanks cs) v rest := by
  obtain ⟨n, hn⟩ := h
  refine ⟨n, ?_⟩
  cases n with
  | zero => cases hn
  | succ n => rwa [readValue, Cursor.skipBlanks_skipBlanks, ← readValue]

end ClaimCells.Json
