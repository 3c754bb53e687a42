import ClaimCells.Proofs.Strides

/-!
# Claims end once

A variable that gives up its claim has its new value, or none, before the claim is released, and the
release comes before anything else. So when it is refused, the claim is in no variable any more, and
nothing that comes later finds it there.

The journal tells of a variable that gives up its claim (`Journal.displaced?`), and that the next
thing that happens is the end of that claim (`Journal.Prompt`). No stride breaks this.

Main results: `Reached.prompt` and `claims_end_once`.
-/

namespace ClaimCells

variable {s t : State} {x : Claim} {G : Prop} {j : Journal} {e : Entry} {o : ObjectId}

/-! ## What follows at once -/

namespace Journal

/-- The claim that a variable has just given up, as the journal tells. -/
def displaced? : Journal → Option Claim
  | .event e _ :: .did d :: j =>
    if e.givesUp then (d.empties?.bind (Journal.variable j)).bind Slot.claim? else none
  | _ => none

/-- Every claim that a variable gives up ends before anything else happens. -/
def Prompt : Journal → Prop
  | [] => True
  | e :: j => (∀ x ∈ displaced? j, e.Ends x) ∧ Prompt j

theorem displaced?_calm (he : e.Calm G) (j : Journal) : displaced? (e :: j) = none := by
  cases e with
  | event e w =>
    cases j with
    | nil => rfl
    | cons e' j =>
      cases e' with
      | did d => exact if_neg (by rw [show e.givesUp = false from he]; exact Bool.false_ne_true)
      | _ => rfl
  | _ => rfl

theorem Prompt.cons (h : j.Prompt) (hj : j.displaced? = none) (e : Entry) : Prompt (e :: j) :=
  ⟨by simp [hj], h⟩

/-- Calm entries tell of no variable. -/
theorem variable_calm {es : Journal} (hes : ∀ e ∈ es, e.Calm G) (j : Journal) (id : SlotId) :
    Journal.variable (es ++ j) id = Journal.variable j id := by
  induction es with
  | nil => rfl
  | cons e es ih =>
    rw [← ih fun e' he' => hes e' (List.mem_cons_of_mem _ he')]
    have he := hes e List.mem_cons_self
    cases e with
    | did d =>
      cases d with
      | made | set | ended => exact absurd he Bool.false_ne_true
      | _ => rfl
    | _ => rfl

/-- Calm entries change nothing of that. -/
theorem Prompt.calm {es : Journal} (h : j.Prompt ∧ j.displaced? = none) (hes : ∀ e ∈ es, e.Calm G) :
    Prompt (es ++ j) ∧ displaced? (es ++ j) = none := by
  induction es with
  | nil => exact h
  | cons e es ih =>
    obtain ⟨hp, hn⟩ := ih fun e' he' => hes e' (List.mem_cons_of_mem _ he')
    exact ⟨hp.cons hn e, displaced?_calm (hes e List.mem_cons_self) _⟩

/-- Whatever claim has just been given up, it is the one that is met in the journal. -/
theorem Prompt.mem {newer : Journal} (h : Prompt (newer ++ e :: j)) (hx : j.displaced? = some x) :
    e.Ends x := by
  induction newer with
  | nil => exact h.1 x hx
  | cons _ _ ih => exact ih h.2

end Journal

/-- The slots are as the journal tells, and no variable has given up a claim that is still there. -/
structure State.Prompt (s : State) : Prop where
  told : s.Told
  prompt : s.journal.Prompt
  settled : s.journal.displaced? = none

/-- The journal tells of a deed what it does to the slots. -/
theorem Deed.update_told {d : Deed} (h : s.Told) (hs : t.slots = d.update s.slots)
    (hj : t.journal.deeds = d :: s.journal.deeds) : t.Told := by
  cases d with
  | made id v =>
    intro i
    rw [hs, Deed.update, Table.get?_insert, Journal.variable, hj]
    exact if_congr Iff.rfl rfl (h i)
  | set id value => exact h.set hj hs
  | ended id => exact h.ended hj hs
  | _ =>
    intro i
    rw [hs, Journal.variable, hj]
    exact h i

theorem Settles.calm {x? : Option Claim} {es : Journal} (h : Settles x? es) :
    es.deeds = [] := by
  cases h with
  | silent | told => rfl
  | @givenUp x e w e' _ _ he' =>
    obtain h | ⟨-, w', rfl⟩ := he'
    · cases e' <;> first | rfl | cases h
    · rfl

theorem Settles.prompt {es : Journal} {d : Deed} (h : s.Prompt)
    (hes : Settles ((d.empties?.bind s.slots.get?).bind Slot.claim?) es) :
    Journal.Prompt (es ++ .did d :: s.journal) ∧
      Journal.displaced? (es ++ .did d :: s.journal) = none := by
  have hdid := h.prompt.cons h.settled (.did d)
  cases hes with
  | silent => exact ⟨hdid, rfl⟩
  | told w he =>
    exact ⟨hdid.cons rfl _, Journal.displaced?_calm (G := True) (e := .event _ w) he _⟩
  | @givenUp x e w e' hx he he' =>
    refine ⟨⟨fun y hy => ?_, hdid.cons rfl _⟩, Journal.displaced?_calm (G := True) he'.calm _⟩
    have hslots : s.slots.get? = s.journal.variable := funext h.told
    change y ∈ Journal.displaced? (.event e w :: .did d :: s.journal) at hy
    rw [Journal.displaced?, if_pos he, ← hslots, hx] at hy
    cases hy
    exact he'

/-- **No stride leaves a claim behind that a variable gave up.** -/
theorem Stride.prompt (h : Stride G s t) (hs : s.Prompt) : t.Prompt := by
  cases h with
  | calm h =>
    obtain ⟨hslots, es, hj, hes⟩ := h
    obtain ⟨hp, hn⟩ := Journal.Prompt.calm ⟨hs.prompt, hs.settled⟩ hes
    rw [← hj] at hp hn
    refine ⟨fun id => ?_, hp, hn⟩
    rw [hslots, hj, Journal.variable_calm hes]
    exact hs.told id
  | deed d es hslots hj hes =>
    obtain ⟨hp, hn⟩ := hes.prompt hs
    rw [← hj] at hp hn
    refine ⟨Deed.update_told hs.told hslots ?_, hp, hn⟩
    rw [hj, Journal.deeds, List.filterMap_append]
    exact congrArg (· ++ _) hes.calm

theorem Strode.prompt (h : Strode G s t) (hs : s.Prompt) : t.Prompt := by
  induction h with
  | refl => exact hs
  | tail _ h ih => exact h.prompt ih

theorem State.Prompt.calm (h : s.Prompt) (hc : Calm G s t) : t.Prompt :=
  Stride.prompt (.calm hc) h

/-- Other threads are of no concern. -/
theorem State.Prompt.same (h : s.Prompt) (hs : t.slots = s.slots) (hj : t.journal = s.journal) :
    t.Prompt :=
  h.calm (G := True) (.silent hs hj)

theorem State.Prompt.aside (h : s.Prompt) (ha : Aside s t) : t.Prompt := by
  obtain ⟨es, hj, hes⟩ := ha.journal
  exact h.calm (G := True) ⟨ha.slots, es, hj, fun e he => e.calm_of_idle (hes e he)⟩

theorem prompt_upheld (p : Op → Prop) : Upheld p State.Prompt where
  course _ _ _ hs := (course_strides _ _).keeps (fun h => h.prompt) hs
  answered r h := h.aside (answered_aside r _)
  hooked g h := h.aside (hook_aside g _)
  startThread h := h.same rfl rfl
  endThread _ h := h.same rfl rfl
  switch _ h := h.same rfl rfl

mutual

/-- Every operation is of the class of all. -/
theorem Op.only_all : ∀ op : Op, op.Only fun _ => True
  | .hook _ body | .thread body => only_all body
  | .object _ | .cell _ | .settings _ | .manager .. | .process _ | .stats _ | .profiler ..
  | .native _ | .dump => trivial

theorem only_all : ∀ body : List Op, onlyOf (fun _ => True) body
  | [] => trivial
  | op :: ops => ⟨op.only_all, only_all ops⟩

end

/-- Every run is one of all operations. -/
theorem Reached.by_all (h : Reached s) : ReachedBy (fun _ => True) s := by
  induction h with
  | start => exact .start _ _ _ _
  | @ended _ _ _ op _ _ he ih => exact ih.ended op.only_all he
  | answered r _ ih => exact ih.answered r
  | @signalled s t n op g h hg ih =>
    refine ih.signalled op.only_all ?_ hg
    rintro body rfl
    cases hg
  | hooked g _ ih => exact ih.hooked g
  | threaded _ ih => exact ih.threaded

/-- **Every claim that a variable gives up ends before anything else happens**, in every state that
is reached. -/
theorem Reached.prompt (h : Reached s) : s.Prompt :=
  (h.by_all.upheld (prompt_upheld _) fun _ _ _ _ => ⟨fun _ => rfl, trivial, rfl⟩).1

/-! ## Every run -/

/-- What a deed leaves of a variable. -/
def Deed.leaves (d : Deed) (v : Slot) : Option Slot :=
  match d with
  | .set _ value => some { v with value }
  | .ended _ => none
  | _ => some v

/-- A variable that has given up its claim is what the deed has left of it. -/
theorem Journal.displaced?_eq_some (h : j.displaced? = some x) : ∃ d id v older,
    .did d :: older <:+ j ∧ d.empties? = some id ∧ Journal.variable older id = some v ∧
      v.claim? = some x ∧ Journal.variable j id = d.leaves v := by
  unfold Journal.displaced? at h
  split at h
  · next e w d older =>
    split at h
    · obtain ⟨v, hfound, hx⟩ := Option.bind_eq_some_iff.1 h
      obtain ⟨id, hd, hv⟩ := Option.bind_eq_some_iff.1 hfound
      refine ⟨d, id, v, older, List.suffix_cons _ _, hd, hv, hx, ?_⟩
      cases d with
      | set i value =>
        cases hd
        show (if id = id then (Journal.variable older id).map _ else _) = _
        rw [if_pos rfl, hv]
        rfl
      | ended i =>
        cases hd
        exact if_pos rfl
      | _ => cases hd
    · cases h
  · cases h

theorem Entry.Ends.drops (h : e.Ends ⟨.counted, o⟩) : e.drops? = some ⟨.counted, o⟩ := by
  obtain h | ⟨hr, -⟩ := h
  · exact h
  · cases hr

/-- **Claims end once.** Every claim that was made, by allocation, by taking it over from somebody or
by acquiring it, has ended in one release, successful or refused, or was handed to somebody, or is
in one place: a slot, a key, or somebody's hands. A variable that gives up its claim has its new
value, or none, when the claim is released, and that comes at once. From there on only claims that
are somewhere, or are made later, are released: one whose release was refused never is again. -/
theorem claims_end_once (h : Reached s) :
    (∀ o, s.journal.created ⟨.counted, o⟩ = s.journal.dropped ⟨.counted, o⟩ +
      s.journal.handedOut ⟨.counted, o⟩ + s.claimsOn ⟨.counted, o⟩) ∧
    (∀ id, s.slots.get? id = s.journal.variable id) ∧
    (∀ (newer j : Journal) (e : Entry) (o : ObjectId), s.journal = newer ++ e :: j →
      j.displaced? = some ⟨.counted, o⟩ → e.drops? = some ⟨.counted, o⟩ ∧
        ∃ d id v older, .did d :: older <:+ j ∧ d.empties? = some id ∧
          Journal.variable older id = some v ∧ v.claim? = some ⟨.counted, o⟩ ∧
          Journal.variable j id = d.leaves v) ∧
    ∀ (s' : State) (es : Journal) (o : ObjectId), Reached s' → s'.journal = es ++ s.journal →
      es.dropped ⟨.counted, o⟩ + es.handedOut ⟨.counted, o⟩ + s'.claimsOn ⟨.counted, o⟩ =
        s.claimsOn ⟨.counted, o⟩ + es.created ⟨.counted, o⟩ := by
  refine ⟨h.accounted, h.prompt.told, fun newer j e o hj hx => ?_, fun s' es o h' hj => ?_⟩
  · have hp := h.prompt.prompt
    rw [hj] at hp
    exact ⟨(hp.mem hx).drops, Journal.displaced?_eq_some hx⟩
  · have hbefore := h.accounted o
    have hafter := h'.accounted o
    rw [Accounted] at hbefore hafter
    rw [hj, Journal.created_append, Journal.dropped_append, Journal.handedOut_append] at hafter
    omega

/-- A cell is bound to another object after the claim on its first one was given up behind its back:
one of the two releases is refused, and the cell has the new object. -/
theorem claims_end_once_refused : ∃ s : State,
    s.slots.get? 0 = some ⟨.counted, .plain, "", some 2⟩ ∧
    s.journal.dropped ⟨.counted, 1⟩ = 2 ∧ s.thread.ledger.releases = 1 ∧
    s.journal.created ⟨.counted, 1⟩ = s.journal.dropped ⟨.counted, 1⟩ +
      s.journal.handedOut ⟨.counted, 1⟩ + s.claimsOn ⟨.counted, 1⟩ := by
  have hrun : ((runNested (step 1) [.object (.allocate (some "")),
        .cell (.make "" (.plain "" (some ""))), .object (.release 1), .object (.allocate (some "")),
        .cell (.use "" false (.assign ""))] (.start .plain false {} none)).toOption.map fun s =>
      (s.slots.get? 0, s.journal.dropped ⟨.counted, 1⟩, s.thread.ledger.releases)) =
        some (some ⟨.counted, .plain, "", some 2⟩, 2, 1) := by
    decide +kernel
  obtain ⟨s, hs, hseen⟩ := (Reached.start _ _ _ _).script_leaves hrun
  simp only [Prod.mk.injEq] at hseen
  exact ⟨s, hseen.1, hseen.2.1, hseen.2.2, (claims_end_once hs).1 1⟩

end ClaimCells
