import ClaimCells.Proofs.Claims

/-!
# Variables and handles at work

What the actions of `Variable`, `Lock` and `CellUse` do. Each says which deeds it does, which claims
it leaves in the hands, and what it answers, given the slot of the cell when it is begun.

A change of a variable is one deed, done before any claim is given up: whatever comes after it, a
failure included, finds it done.
-/

namespace ClaimCells

variable {α β : Type} {s s' : State} {l l' : List Cell} {ds ds' : List Deed} {H : List Claim}
  {id : SlotId} {v : Slot} {c : Cell} {o : ObjectId}

/-! ## Cells that stand -/

/-- What a cell says when its variable has no value. -/
def Cell.lacking (c : Cell) (v : Slot) (i : Invariant) : Failure :=
  match c with
  | .own .temporary _ => .panic (.invariant i)
  | c => .cell (.unbound c.access v.name)

/-- The deeds of emptying a variable. -/
def Cell.emptying (c : Cell) (v : Slot) : List Deed :=
  v.value.elim [] fun _ => [.set c.slot none]

theorem Cell.lacking_of_not_temporary (h : ∀ id, c ≠ .own .temporary id) (v : Slot)
    (i : Invariant) : c.lacking v i = .cell (.unbound c.access v.name) := by
  cases c with
  | handle id a => rfl
  | own f id =>
    cases f with
    | plain | parameter => rfl
    | temporary => exact absurd rfl (h id)

/-- The deeds of ending a cell: the last handle takes the slot with it. -/
def Cell.ending (s : State) : Cell → List Deed
  | .own _ id => [.ended id]
  | .handle id _ => if s.refcount id = 1 then [.dropped id, .ended id] else [.dropped id]

theorem Cell.ending_ne_nil (c : Cell) (s : State) : c.ending s ≠ [] := by
  cases c with
  | own => nofun
  | handle id =>
    rw [Cell.ending]
    split <;> nofun

/-- The cell has its slot, and its lock when it is shared. -/
structure Cell.Stands (s : State) (c : Cell) (v : Slot) : Prop where
  slot : s.slots.get? c.slot = some v
  shared : ∀ id a, c = .handle id a → ∃ sh, s.sharing.get? id = some sh

theorem Cell.Stands.binding (h : c.Stands s v) : c.binding.Stands s v := by
  cases c with
  | own f id => exact h
  | handle id a => exact ⟨h.slot, fun i a' he => h.shared i a (by cases he; rfl)⟩

theorem Sound.stands_of_kept (h : Sound l s) {k : KeptId} {e : Kept}
    (hk : s.thread.kept.get? k = some e) : ∃ v, e.cell.Stands s v ∧ v.realm = .counted := by
  obtain ⟨v, hv, hr⟩ := h.slot_of_kept hk
  exact ⟨v, ⟨hv, fun id a hc => h.sharing_of_kept hk hc⟩, hr⟩

theorem Sound.stands_of_handle (h : Sound l s) {i : HandleId}
    (hi : s.handles.get? i = some c) : ∃ v, c.Stands s v ∧ v.realm = .native := by
  obtain ⟨v, hv, hr⟩ := h.slot_of_handle hi
  refine ⟨v, ⟨hv, fun id a hc => h.sharing_of_le (a := a) ?_⟩, hr⟩
  exact hc ▸ (le_tally_handle hi _).trans (Nat.le_add_right _ _)

theorem Sound.stands_of_arms (h : Sound l s) (hc : c ∈ l) : ∃ v, c.Stands s v := by
  obtain ⟨v, hv⟩ := h.slot_of_arms hc
  exact ⟨v, hv, fun id a he => h.sharing_of_arms (a := a) (he ▸ hc)⟩

/-- A handle of a shared cell stands. -/
theorem Sound.stands_of_sharing (h : Sound l s) {sh : Sharing} (a : Access)
    (hs : s.sharing.get? id = some sh) : ∃ v, (Cell.handle id a).Stands s v := by
  obtain ⟨v, hv⟩ := Option.isSome_iff_exists.1 (h.shared id sh hs).2
  exact ⟨v, hv, fun i a' he => by cases he; exact ⟨sh, hs⟩⟩

namespace Action

open Act (Does)

/-! ## Counting and reading -/

theorem record_some {k : CellKind} {e : ClaimEvent} {p : Profiler}
    (h : s.profiler.record k e = some p) : record k e s = .done () { s with profiler := p } := by
  simp only [record, bind_apply, get_apply, done_bind, h, checked, pure_apply, modify_apply]

theorem record_none {k : CellKind} {e : ClaimEvent} (h : s.profiler.record k e = none) :
    record k e s = raise .overflow s := by
  simp only [record, bind_apply, get_apply, done_bind, h, checked, raise_bind]

/-- An event is counted, or its counter is full. -/
theorem record_does {k : CellKind} {e : ClaimEvent} {f : Unit → Action α} {Q : Post α}
    (hsome : ∀ p, s'.profiler.record k e = some p →
      (f () { s' with profiler := p }).Does Q ds l s)
    (hnone : s'.profiler.record k e = none → (raise .overflow s' : Act α).Does Q ds l s) :
    ((record k e s').bind f).Does Q ds l s := by
  cases h : s'.profiler.record k e with
  | some p => rw [record_some h]; exact hsome p h
  | none => rw [record_none h, raise_bind]; exact hnone h

theorem slot_some (h : s.slots.get? id = some v) : slot id s = .done v s := by
  simp only [slot, bind_apply, get_apply, done_bind, h, demand_some]

theorem slot_none (h : s.slots.get? id = none) : slot id s = .fail .noSuchCell s := by
  simp only [slot, bind_apply, get_apply, done_bind, h, demand_none]

theorem sharing_some {sh : Sharing} (h : s.sharing.get? id = some sh) :
    sharing id s = .done sh s := by
  simp only [sharing, bind_apply, get_apply, done_bind, h, demand_some]

theorem sharing_none (h : s.sharing.get? id = none) : sharing id s = .fail .noSuchCell s := by
  simp only [sharing, bind_apply, get_apply, done_bind, h, demand_none]

/-! ## Variables -/

section Making

variable {realm : Realm} {kind : CellKind} {name : String} {value : Option ObjectId} {p : Profiler}

theorem makeSlot_some (hp : s.profiler.recordMade kind value.isSome = some p) :
    makeSlot realm kind name value s = .done s.next (s.made ⟨realm, kind, name, value⟩ p) := by
  obtain ⟨p₁, h₁, h₂⟩ := Option.bind_eq_some_iff.1 hp
  rw [makeSlot, bind_apply, record_some h₁, done_bind]
  cases value with
  | none => cases h₂; rfl
  | some o =>
    rw [Option.isSome_some, if_pos rfl] at h₂
    change (record kind .bound { s with profiler := p₁ }).bind _ = _
    rw [record_some h₂]
    rfl

/-- When a counter is full no variable is made. -/
theorem makeSlot_full (hp : s.profiler.recordMade kind value.isSome = none) :
    ∃ p, makeSlot realm kind name value s = raise .overflow { s with profiler := p } := by
  cases h₁ : s.profiler.record kind .constructed with
  | none => exact ⟨s.profiler, by rw [makeSlot, bind_apply, record_none h₁, raise_bind]⟩
  | some p =>
    rw [Profiler.recordMade, h₁, Option.bind_some] at hp
    cases value with
    | none => cases hp
    | some o =>
      rw [Option.isSome_some, if_pos rfl] at hp
      refine ⟨p, ?_⟩
      rw [makeSlot, bind_apply, record_some h₁, done_bind]
      change (record kind .bound { s with profiler := p }).bind _ = _
      rw [record_none hp, raise_bind]

theorem makeShared_some {p : Profiler}
    (hp : s.profiler.recordMade .shared value.isSome = some p) :
    makeShared realm name value s =
      .done (.handle s.next .locally) ((s.made ⟨realm, .shared, name, value⟩ p).shared s.next) := by
  rw [makeShared, bind_apply, makeSlot_some hp]
  rfl

/-- How an action ends that finds a counter full before it does a deed. -/
def Overflows (s : State) (ds : List Deed) (l : List Cell) : Post α :=
  fun ds' l' r s' => ds' = ds ∧ l' = l ∧ r = .error (.panic .overflow) ∧ Came s s.thread.hands s'

theorem makeSlot_none (hp : s.profiler.recordMade kind value.isSome = none) :
    (makeSlot realm kind name value s).Does (Overflows s ds l) ds l s := by
  refine record_does (fun p₁ h₁ => ?_) fun _ => raise_does ⟨rfl, rfl, rfl, .refl s⟩
  rw [Profiler.recordMade, h₁, Option.bind_some] at hp
  cases value with
  | none => cases hp
  | some o =>
    rw [Option.isSome_some, if_pos rfl] at hp
    have m := Move.counted (l := l) h₁ (.inr ⟨_, _, hp⟩)
    refine .idle m ?_
    change ((record kind .bound { s with profiler := p₁ }).bind _).Does _ _ _ _
    rw [record_none hp, raise_bind]
    exact raise_does ⟨rfl, rfl, rfl, Move.came m rfl rfl⟩

/-- A new slot has the claim on its value, which is no longer in the hands. -/
theorem made_hands {v : Slot} (hh : s.thread.hands = v.claim?.toList ++ H) :
    (s.made v p).thread.hands = H := by
  show (v.claim?).elim s.thread.hands s.thread.hands.erase = H
  rw [hh]
  cases v.claim? with
  | none => rfl
  | some o => exact List.erase_cons_head _ _

end Making

/-! ## Changing a variable -/

theorem setValue_apply (id : SlotId) (value : Option ObjectId) (s : State) :
    setValue id value s = .done () (s.setValue id value) := rfl

/-- How binding a slot ends: the slot has the claim, and the old one is in the hands; or a counter
was full, before that or after. -/
theorem replace_does (hv : s.slots.get? id = some v) (hh : s.thread.hands = ⟨v.realm, o⟩ :: H) :
    (replace id o s).Does (fun ds' l' r s' => l' = l ∧ match r with
      | .ok old => old = v.claim? ∧ ds' = ds ++ [.set id (some o)] ∧ Came s (v.claim?.toList ++ H) s'
      | .error f => f = .panic .overflow ∧ (ds' = ds ∧ Came s s.thread.hands s' ∨
          ds' = ds ++ [.set id (some o)] ∧ Came s (v.claim?.toList ++ H) s')) ds l s := by
  have hmem : (⟨v.realm, o⟩ : Claim) ∈ s.thread.hands := by rw [hh]; exact List.mem_cons_self
  have hgo : v.claim?.toList ++ s.thread.hands.erase ⟨v.realm, o⟩ = v.claim?.toList ++ H := by
    rw [hh, List.erase_cons_head]
  rw [replace, bind_apply, slot_some hv, done_bind]
  refine record_does (fun p₁ h₁ => ?_) fun _ => raise_does ⟨rfl, rfl, .inl ⟨rfl, .refl s⟩⟩
  cases hval : v.value with
  | none =>
    have hclaim : v.claim? = none := by rw [Slot.claim?, hval]; rfl
    have hb : s.profiler.recordBound v.kind v.value.isSome = some p₁ := by
      rw [Profiler.recordBound, h₁, hval]; rfl
    have m := Move.bound (l := l) hv hmem hb
    rw [hval, hclaim] at m
    rw [hclaim] at hgo ⊢
    exact .move m (.done ⟨rfl, rfl, rfl, Move.came m rfl hgo⟩)
  | some o' =>
    have hclaim : v.claim? = some ⟨v.realm, o'⟩ := by rw [Slot.claim?, hval]; rfl
    rw [hclaim] at hgo ⊢
    refine record_does (fun p₂ h₂ => ?_) fun h₂ => ?_
    · have hb : s.profiler.recordBound v.kind v.value.isSome = some p₂ := by
        rw [Profiler.recordBound, h₁, hval]; exact h₂
      have m := Move.bound (l := l) hv hmem hb
      rw [hval, hclaim] at m
      exact .move m (.done ⟨rfl, rfl, rfl, Move.came m rfl hgo⟩)
    · have m := Move.boundFull (l := l) (p := p₁) hv hmem ⟨_, _, h₂⟩
      rw [hclaim] at m
      exact .move m (raise_does ⟨rfl, rfl, .inr ⟨rfl, Move.came m rfl hgo⟩⟩)

/-- How taking the claim out of a slot ends. -/
theorem unbind_does (reason : UnbindReason) (hv : s.slots.get? id = some v) :
    (unbind id reason s).Does (fun ds' l' r s' => l' = l ∧ match r with
      | .ok old => old = v.claim? ∧ Came s (v.claim?.toList ++ s.thread.hands) s' ∧
          ds' = (ds ++ v.value.elim [] fun _ => [.set id none]) ∧
          (v.value = none → s'.slots = s.slots)
      | .error f => f = .panic .overflow ∧ Came s (v.claim?.toList ++ s.thread.hands) s' ∧
          ds' = (ds ++ v.value.elim [] fun _ => [.set id none]) ∧
          (v.value = none → s.profiler.record v.kind .unboundAccess = none)) ds l s := by
  unfold unbind
  rw [bind_apply, slot_some hv, done_bind]
  cases hval : v.value with
  | none =>
    have hclaim : v.claim? = none := by rw [Slot.claim?, hval]; rfl
    rw [hclaim]
    refine record_does (fun p hp => ?_) fun h => ?_
    · have m := Move.counted (l := l) hp (.inl rfl)
      exact .idle m (.done ⟨rfl, rfl, Move.came m rfl rfl, (List.append_nil _).symm, fun _ => rfl⟩)
    · exact raise_does ⟨rfl, rfl, .refl s, (List.append_nil _).symm, fun _ => h⟩
  | some o =>
    have hclaim : v.claim? = some ⟨v.realm, o⟩ := by rw [Slot.claim?, hval]; rfl
    rw [hclaim]
    refine record_does (fun p h₁ => ?_) fun h₁ => ?_
    · have m := Move.emptied (l := l) reason hv hval h₁
      exact .move m (.done ⟨rfl, rfl, Move.came m rfl rfl, rfl, nofun⟩)
    · have m := Move.emptiedFull (l := l) hv hval ⟨_, _, h₁⟩
      exact .move m (raise_does ⟨rfl, rfl, Move.came m rfl rfl, rfl, nofun⟩)

/-! ## Ending a variable -/

/-- How an action ends that ends a cell: nothing is left in the arms, and what a failure leaves in
the hands is on top. -/
def Ends (s : State) (ds' : List Deed) : Post Unit := fun ds l r s' => l = [] ∧ ds = ds' ∧
  match r with
  | .ok _ => Came s s.thread.hands s'
  | .error f => (∃ p, f = .panic p) ∧ ∃ own, Came s (own ++ s.thread.hands) s'

theorem destroySlot_does {form : Form} (hv : s.slots.get? id = some v) :
    (destroySlot id s).Does (Ends s (ds ++ [.ended id])) ds [.own form id] s := by
  have hmem : .own form id ∈ [Cell.own form id] := List.mem_singleton_self _
  have hnil : [Cell.own form id].erase (.own form id) = [] := List.erase_cons_head _ _
  rw [destroySlot, bind_apply, slot_some hv, done_bind]
  cases hval : v.value with
  | none =>
    have m := Move.ended hmem hv hval
    rw [hnil] at m
    exact .move m (.done ⟨rfl, rfl, Move.came m rfl rfl⟩)
  | some o =>
    refine record_does (fun p h₁ => ?_) fun h₁ => ?_
    · have m := Move.endedBound hmem hv hval h₁
      rw [hnil] at m
      refine .move m ((release_does rfl).imp ?_)
      rintro ds' l' r s' ⟨rfl, rfl, hc, hf⟩
      refine ⟨rfl, rfl, ?_⟩
      have hc' := (Move.came m rfl rfl).trans hc
      cases r with
      | ok => exact hc'
      | error f => exact ⟨hf f rfl, [], hc'⟩
    · have m := Move.endedFull hmem hv hval ⟨_, _, h₁⟩
      rw [hnil] at m
      exact .move m (raise_does ⟨rfl, rfl, ⟨_, rfl⟩, [⟨v.realm, o⟩], Move.came m rfl rfl⟩)

/-! ## Looking -/

/-- How an action fails that needs the value of a variable: the cell says that there is none, or
the counter of such failures is full. -/
def Lacks (s : State) (c : Cell) (v : Slot) (i : Invariant) (f : Failure) : Prop :=
  v.value = none ∧
    (f = c.lacking v i ∨ s.profiler.record v.kind .unboundAccess = none ∧ f = .panic .overflow)

/-- How an action ends that changes nothing. -/
def Looks (s : State) (ds : List Deed) (l : List Cell) (P : Except Failure α → Prop) : Post α :=
  fun ds' l' r s' => ds' = ds ∧ l' = l ∧ s' = s ∧ P r

theorem slot_does (h : s.slots.get? id = some v) :
    (slot id s).Does (Looks s ds l (· = .ok v)) ds l s := by
  rw [slot_some h]
  exact .done ⟨rfl, rfl, rfl, rfl⟩

theorem lockForReading_does {sh : Sharing} (h : s.sharing.get? id = some sh) :
    (lockForReading id s).Does (Looks s ds l (· = .ok ())) ds l s := by
  simp only [lockForReading, bind_apply, sharing_some h, get_apply, done_bind, ite_apply,
    halt_apply, pure_apply]
  split
  · trivial
  · exact .done ⟨rfl, rfl, rfl, rfl⟩

theorem lockForChange_does {sh : Sharing} (h : s.sharing.get? id = some sh) :
    (lockForChange id s).Does (Looks s ds l fun r => r = .ok () ∨ r = .error (.panic .relocked) ∧
      sh.readers ≠ 0 ∧ s.build.mode = .plain) ds l s := by
  simp only [lockForChange, bind_apply, sharing_some h, get_apply, done_bind, ite_apply]
  split
  · next hr =>
    cases hm : s.build.mode with
    | plain => exact raise_does ⟨rfl, rfl, rfl, .inr ⟨rfl, hr, rfl⟩⟩
    | atomic => trivial
  · exact .done ⟨rfl, rfl, rfl, .inl rfl⟩

theorem look_does (hs : Sound l s) (h : c.Stands s v) :
    (look c s).Does (Looks s ds l (· = .ok v)) ds l s := by
  have hslot : (slot c.slot s).Does (Looks s ds l (· = .ok v)) ds l s := slot_does h.slot
  cases c with
  | own f id => exact hslot
  | handle id a =>
    obtain ⟨sh, hsh⟩ := h.shared id a rfl
    refine .seq hs (lockForReading_does hsh) ?_ ?_
    · rintro ds l _ s - ⟨rfl, rfl, rfl, -⟩
      exact hslot
    · rintro ds l f s - ⟨-, -, -, ⟨⟩⟩

theorem unboundError_does (hv : s.slots.get? c.slot = some v) :
    (unboundError c s : Act α).Does
      (Looks s ds l (· = .error (.cell (.unbound c.access v.name)))) ds l s := by
  rw [unboundError, bind_apply, slot_some hv]
  exact .fail ⟨rfl, rfl, rfl, rfl⟩

/-- How an action ends that gets at the object in a variable. -/
def Finds (s : State) (ds : List Deed) (l : List Cell) (c : Cell) (v : Slot) (i : Invariant) :
    Post ObjectId :=
  fun ds' l' r s' => ds' = ds ∧ l' = l ∧ match r with
    | .ok o => v.value = some o ∧ s' = s
    | .error f => Lacks s c v i f ∧ Came s s.thread.hands s'

theorem valueIn_does (hv : s.slots.get? c.slot = some v) :
    (valueIn c v s).Does (Finds s ds l c v .temporaryRead) ds l s := by
  have hrecord : v.value = none →
      c.lacking v .temporaryRead = .cell (.unbound c.access v.name) →
      ((record v.kind .unboundAccess >>= fun _ => unboundError c) s).Does
        (Finds s ds l c v .temporaryRead) ds l s := by
    intro hval hc
    rw [bind_apply]
    refine record_does (fun p hp => ?_) fun h => ?_
    · have m := Move.counted (l := l) hp (.inl rfl)
      refine .idle m ((unboundError_does (s := { s with profiler := p }) hv).imp ?_)
      rintro ds' l' r s' ⟨rfl, rfl, rfl, rfl⟩
      exact ⟨rfl, rfl, ⟨hval, .inl hc.symm⟩, Move.came m rfl rfl⟩
    · exact raise_does ⟨rfl, rfl, ⟨hval, .inr ⟨h, rfl⟩⟩, .refl s⟩
  unfold valueIn
  cases hval : v.value with
  | some o => exact .done ⟨rfl, rfl, hval, rfl⟩
  | none =>
    cases c with
    | handle id a => exact hrecord hval rfl
    | own f id =>
      cases f with
      | plain | parameter => exact hrecord hval rfl
      | temporary =>
        refine violate_does ⟨rfl, rfl, ⟨hval, .inl rfl⟩, ?_⟩
        exact (Aside.emit s _ fun _ => rfl).came

theorem read_does (hs : Sound l s) (h : c.Stands s v) :
    (read c s).Does (Finds s ds l c v .temporaryRead) ds l s := by
  refine .seq hs (look_does hs h) ?_ ?_
  · rintro ds l r s - ⟨rfl, rfl, rfl, ⟨⟩⟩
    exact valueIn_does h.slot
  · rintro ds l f s - ⟨-, -, -, ⟨⟩⟩

/-! ## Claims on the object in a variable -/

/-- How an action ends that acquires a claim on the object in a variable. -/
def Acquires (s : State) (ds : List Deed) (c : Cell) (v : Slot) : Post Claim :=
  fun ds' l' r s' => ds' = ds ∧ l' = [] ∧ match r with
    | .ok claim => v.claim? = some claim ∧ Came s (claim :: s.thread.hands) s'
    | .error f => Came s s.thread.hands s' ∧
        (Lacks s c v .temporaryRead f ∨ ∃ o, v.value = some o ∧ Gains s ⟨v.realm, o⟩ (.error f) ∧
          ∃ p, f = .panic p)

theorem acquireValue_does (hs : Sound [] s) (hv : s.slots.get? c.slot = some v) :
    (acquireValue c s).Does (Acquires s ds c v) ds [] s := by
  rw [acquireValue, bind_apply, slot_some hv, done_bind]
  refine .seq hs (valueIn_does hv) ?_ ?_
  · rintro ds l o s - ⟨rfl, rfl, ho, rfl⟩
    have hclaim : v.claim? = some ⟨v.realm, o⟩ := by rw [Slot.claim?, ho]; rfl
    refine .seq hs (acquire_does hs ⟨v.realm, o⟩) ?_ ?_
    · rintro ds l _ s' - ⟨⟨rfl, rfl, hc⟩, -⟩
      exact .done ⟨rfl, rfl, hclaim, hc⟩
    · rintro ds l f s' - ⟨⟨rfl, rfl, hp, hc⟩, hg⟩
      exact ⟨rfl, rfl, hc, .inr ⟨o, ho, hg, hp⟩⟩
  · rintro ds l f s - ⟨rfl, rfl, hl, hc⟩
    exact ⟨rfl, rfl, hc, .inl hl⟩

theorem setSharing_apply (f : Sharing → Sharing) (s : State) :
    setSharing id f s = .done () { s with sharing := s.sharing.modify id f } := rfl

/-- The lock is held while the action lasts. -/
theorem reading_does {a : Action α} {Q R : Post α} (hs : Sound [] s) {sh : Sharing}
    (hsh : s.sharing.get? id = some sh)
    (h : ∀ t, Sound [] t → Came s s.thread.hands t → t.slots = s.slots →
      t.thread.ledger = s.thread.ledger → t.profiler = s.profiler → (a t).Does Q ds [] t)
    (hr : ∀ ds l r s' s'', Q ds l r s' → Came s' s'.thread.hands s'' → R ds l r s'') :
    (reading id a s).Does R ds [] s := by
  refine .seq hs (lockForReading_does hsh) ?_ ?_
  · rintro ds l _ s - ⟨rfl, rfl, rfl, -⟩
    have m := Move.locked (l := []) (s := s) id
      (fun c : Sharing => { c with readers := c.readers + 1 }) fun _ _ => rfl
    have ht := m.sound hs
    rw [bind_apply, setSharing_apply, done_bind]
    refine .idle m (.tried ht (h _ ht (Move.came m rfl rfl) rfl rfl rfl) fun ds' l' r s' _ hq => ?_)
    have m' := Move.locked (l := l') (s := s') id
      (fun c : Sharing => { c with readers := c.readers - 1 }) fun _ _ => rfl
    rw [bind_apply, setSharing_apply, done_bind]
    refine .idle m' ?_
    cases r with
    | ok x => exact .done (hr _ _ _ _ _ hq (Move.came m' rfl rfl))
    | error f => exact .fail (hr _ _ _ _ _ hq (Move.came m' rfl rfl))
  · rintro ds l f s - ⟨-, -, -, ⟨⟩⟩

theorem readOwned_does (hs : Sound [] s) (h : c.Stands s v) :
    (readOwned c s).Does (Acquires s ds c v) ds [] s := by
  cases c with
  | own form id => exact acquireValue_does hs h.slot
  | handle id a =>
    obtain ⟨sh, hsh⟩ := h.shared id a rfl
    refine reading_does hs hsh (Q := fun ds' l' r s' => Acquires s ds (.handle id a) v ds' l' r s')
      (fun t ht hc hslots hledger hp => ?_) ?_
    · refine (acquireValue_does ht (hslots ▸ h.slot)).imp ?_
      rintro ds' l' r s' ⟨rfl, rfl, hr⟩
      refine ⟨rfl, rfl, ?_⟩
      cases r with
      | ok claim => exact ⟨hr.1, by rw [← hc.hands]; exact hc.trans hr.2⟩
      | error f =>
        obtain ⟨hc', hf⟩ := hr
        refine ⟨by rw [← hc.hands]; exact hc.trans hc', ?_⟩
        unfold Lacks Gains at hf ⊢
        rwa [hledger, hp] at hf
    · rintro ds' l' r s' s'' ⟨rfl, rfl, hr⟩ hc
      refine ⟨rfl, rfl, ?_⟩
      cases r with
      | ok claim => exact ⟨hr.1, hr.2.hands ▸ hr.2.trans hc⟩
      | error f => exact ⟨hr.1.hands ▸ hr.1.trans hc, hr.2⟩

/-! ## Assigning -/

/-- The lock of the cell refuses a change. -/
def Locked (s : State) (c : Cell) (f : Failure) : Prop :=
  f = .panic .relocked ∧ s.build.mode = .plain ∧ ∃ id a, c = .handle id a

theorem lockToChange_does (h : c.Stands s v) :
    (lockToChange c s).Does (Looks s ds l fun r => ∀ f, r = .error f → Locked s c f) ds l s := by
  cases c with
  | own f id => exact .done ⟨rfl, rfl, rfl, nofun⟩
  | handle id a =>
    obtain ⟨sh, hsh⟩ := h.shared id a rfl
    refine (lockForChange_does hsh).imp ?_
    rintro ds' l' r s' ⟨rfl, rfl, rfl, rfl | ⟨rfl, -, hm⟩⟩
    · exact ⟨rfl, rfl, rfl, nofun⟩
    · refine ⟨rfl, rfl, rfl, ?_⟩
      rintro _ ⟨⟩
      exact ⟨rfl, hm, id, a, rfl⟩

/-- How an assignment ends, with the claim on top of the hands `H`: once the variable is bound only
the release of its old claim, or a full counter, can break it off. -/
def Assigns (s : State) (ds : List Deed) (c : Cell) (o : ObjectId) (H : List Claim) : Post Unit :=
  fun ds' l' r s' => l' = [] ∧ match r with
    | .ok _ => ds' = ds ++ [.set c.slot (some o)] ∧ Came s H s'
    | .error f => (∃ own, Came s (own ++ H) s') ∧
        (ds' = ds ∧ (f = .panic .overflow ∨ Locked s c f) ∨
          ds' = ds ++ [.set c.slot (some o)] ∧ ∃ p, f = .panic p)

theorem assign_does (hs : Sound [] s) (h : c.Stands s v)
    (hh : s.thread.hands = ⟨v.realm, o⟩ :: H) :
    (assign c o s).Does (Assigns s ds c o H) ds [] s := by
  refine .seq hs (lockToChange_does h) ?_ ?_
  · rintro ds l _ s - ⟨rfl, rfl, rfl, -⟩
    refine .seq hs (replace_does h.slot hh) ?_ ?_
    · rintro ds' l' old s' hs' ⟨rfl, rfl, rfl, hc⟩
      refine (releaseAny_does hc.hands).imp ?_
      rintro ds'' l'' r s'' ⟨rfl, rfl, hc', hf⟩
      refine ⟨rfl, ?_⟩
      cases r with
      | ok => exact ⟨rfl, hc.trans hc'⟩
      | error f => exact ⟨⟨[], hc.trans hc'⟩, .inr ⟨rfl, hf f rfl⟩⟩
    · rintro ds' l' f s' - ⟨rfl, rfl, ⟨rfl, hc⟩ | ⟨rfl, hc⟩⟩
      · exact ⟨rfl, ⟨[_], hh ▸ hc⟩, .inl ⟨rfl, .inl rfl⟩⟩
      · exact ⟨rfl, ⟨_, hc⟩, .inr ⟨rfl, _, rfl⟩⟩
  · rintro ds l f s - ⟨rfl, rfl, rfl, hf⟩
    exact ⟨rfl, ⟨[_], ⟨.refl s, hh⟩⟩, .inl ⟨rfl, .inr (hf f rfl)⟩⟩

/-- A cell that does not stand is not assigned to. -/
theorem assign_gone (hs : Sound l s) (h : ¬ ∃ v, c.Stands s v) :
    assign c o s = .fail .noSuchCell s := by
  cases c with
  | own f id =>
    have hnone : s.slots.get? id = none := by
      cases hv : s.slots.get? id with
      | none => rfl
      | some v => exact absurd ⟨v, hv, nofun⟩ h
    rw [assign, bind_apply]
    change ((replace id o >>= releaseAny) s) = _
    rw [bind_apply, replace, bind_apply, slot_none hnone, fail_bind, fail_bind]
  | handle id a =>
    have hnone : s.sharing.get? id = none := by
      cases hsh : s.sharing.get? id with
      | none => rfl
      | some sh => exact absurd (hs.stands_of_sharing a hsh) h
    simp only [assign, lockToChange, lockForChange, bind_apply, sharing_none hnone, fail_bind]

/-- How an assignment ends that acquires its claim first. The cell may be gone after that. -/
def AssignsBorrowed (s : State) (ds : List Deed) (c : Cell) (o : ObjectId) (v : Slot) :
    Post Unit :=
  fun ds' l' r s' => Assigns s ds c o s.thread.hands ds' l' r s' ∨
    l' = [] ∧ ds' = ds ∧ ∃ f, r = .error f ∧
      (Gains s ⟨v.realm, o⟩ (.error f) ∧ (∃ p, f = .panic p) ∧ Came s s.thread.hands s' ∨
        f = .noSuchCell ∧ Came s (⟨v.realm, o⟩ :: s.thread.hands) s' ∧ ¬ ∃ v, c.Stands s' v)

theorem assignBorrowed_does (hs : Sound [] s) (h : c.Stands s v) :
    (assignBorrowed c o s).Does (AssignsBorrowed s ds c o v) ds [] s := by
  have hyoung := hs.youngSlots _ _ h.slot
  rw [assignBorrowed, bind_apply, slot_some h.slot, done_bind]
  refine .seq hs (acquire_does hs _) ?_ ?_
  · rintro ds l _ s' hs' ⟨⟨rfl, rfl, hc⟩, -⟩
    by_cases hst : ∃ v', c.Stands s' v'
    · obtain ⟨v', hst⟩ := hst
      have hrealm : v.realm = v'.realm := by
        obtain ⟨v₀, hv₀, hr, -⟩ := hc.lasting.slots _ v' hyoung hst.slot
        rw [h.slot] at hv₀
        cases hv₀
        exact hr
      refine (assign_does hs' hst (hrealm ▸ hc.hands)).imp ?_
      rintro ds' l' r s'' ⟨rfl, hr⟩
      refine .inl ⟨rfl, ?_⟩
      cases r with
      | ok => exact ⟨hr.1, hc.trans hr.2⟩
      | error f =>
        obtain ⟨⟨own, ho⟩, hf⟩ := hr
        refine ⟨⟨own, hc.trans ho⟩, hf.imp_left (And.imp_right (Or.imp_right ?_))⟩
        rintro ⟨hf, hm, hh⟩
        exact ⟨hf, hc.build ▸ hm, hh⟩
    · rw [assign_gone hs' hst]
      exact .fail (.inr ⟨rfl, rfl, _, rfl, .inr ⟨rfl, hc, hst⟩⟩)
  · rintro ds l f s' - ⟨⟨rfl, rfl, hp, hc⟩, hg⟩
    exact .inr ⟨rfl, rfl, f, rfl, .inl ⟨hg, hp, hc⟩⟩

/-! ## Clearing and taking -/

/-- What clearing a variable answers: a temporary says whether there was a value. -/
def Clears (s : State) (ds : List Deed) (c : Cell) (v : Slot) : Post Bool :=
  fun ds' l' r s' => l' = [] ∧ match r with
    | .ok b => ds' = ds ++ c.emptying v ∧ Came s s.thread.hands s' ∧ b = v.value.isSome ∧
        (b = false → ∃ id, c = .own .temporary id)
    | .error f =>
        (∃ own, Came s (own ++ s.thread.hands) s' ∧ (own = [] ∨ ∃ p, f = .panic p)) ∧
        (ds' = ds ∧ (Locked s c f ∨ Lacks s c v .temporaryTake f) ∨
          ds' = ds ++ c.emptying v ∧ v.value.isSome ∧ ∃ p, f = .panic p)

theorem clear_unassigned (hv : s.slots.get? id = some v) (hval : v.value = none) :
    clear (.own .temporary id) s = .done false s := by
  simp only [clear, bind_apply, slot_some hv, done_bind, hval, Option.isNone_none, if_true,
    pure_apply]

/-- Emptying a variable and giving up its claim. -/
theorem unbindRelease_does {k : Option Claim → Action Bool} (hs : Sound [] s) (h : c.Stands s v)
    (hsome : ∀ claim, k (some claim) = release claim >>= fun _ => pure true)
    (hnone : v.value = none → k none = unboundError c ∧ ∀ id, c ≠ .own .temporary id) :
    ((unbind c.slot .release >>= k) s).Does (Clears s ds c v) ds [] s := by
  refine .seq hs (unbind_does .release h.slot) ?_ ?_
  · rintro ds' l' old s' hs' ⟨rfl, rfl, hc, rfl, hslots⟩
    cases hval : v.value with
    | none =>
      obtain ⟨hk, hne⟩ := hnone hval
      have hclaim : v.claim? = none := by rw [Slot.claim?, hval]; rfl
      rw [hclaim] at hc ⊢
      rw [hk]
      have hv' : s'.slots.get? c.slot = some v := by rw [hslots hval]; exact h.slot
      refine (unboundError_does hv').imp ?_
      rintro ds'' l'' r s'' ⟨rfl, rfl, rfl, rfl⟩
      refine ⟨rfl, ⟨[], hc, .inl rfl⟩, .inl ⟨List.append_nil _, .inr ⟨hval, .inl ?_⟩⟩⟩
      rw [c.lacking_of_not_temporary hne]
    | some o =>
      have hclaim : v.claim? = some ⟨v.realm, o⟩ := by rw [Slot.claim?, hval]; rfl
      rw [hclaim] at hc ⊢
      rw [hsome]
      refine .seq hs' (release_does hc.hands) ?_ ?_
      · rintro ds'' l'' _ s'' - ⟨rfl, rfl, hc', -⟩
        refine .done ⟨rfl, ?_, hc.trans hc', by rw [hval]; rfl, nofun⟩
        rw [Cell.emptying, hval]
      · rintro ds'' l'' f s'' - ⟨rfl, rfl, hc', hf⟩
        refine ⟨rfl, ⟨[], hc.trans hc', .inl rfl⟩, .inr ⟨?_, by rw [hval]; rfl, hf f rfl⟩⟩
        rw [Cell.emptying, hval]
  · rintro ds' l' f s' - ⟨rfl, rfl, hc, rfl, hrec⟩
    refine ⟨rfl, ⟨_, hc, .inr ⟨_, rfl⟩⟩, ?_⟩
    cases hval : v.value with
    | none => exact .inl ⟨List.append_nil _, .inr ⟨hval, .inr ⟨hrec hval, rfl⟩⟩⟩
    | some o => exact .inr ⟨by rw [Cell.emptying, hval], rfl, _, rfl⟩

theorem clear_does (hs : Sound [] s) (h : c.Stands s v) :
    (clear c s).Does (Clears s ds c v) ds [] s := by
  have hother : (∀ id, c ≠ .own .temporary id) → ∃ k : Option Claim → Action Bool,
      clear c s = (lockToChange c >>= fun _ => unbind c.slot .release >>= k) s ∧
      (∀ claim, k (some claim) = release claim >>= fun _ => pure true) ∧ k none = unboundError c := by
    intro hc
    cases c with
    | handle id a => exact ⟨_, rfl, fun _ => rfl, rfl⟩
    | own f id =>
      cases f with
      | plain | parameter => exact ⟨_, rfl, fun _ => rfl, rfl⟩
      | temporary => exact absurd rfl (hc id)
  by_cases htemp : ∃ id, c = .own .temporary id
  · obtain ⟨id, rfl⟩ := htemp
    have hv : s.slots.get? id = some v := h.slot
    cases hval : v.value with
    | none =>
      rw [clear_unassigned hv hval]
      refine .done ⟨rfl, ?_, .refl s, by rw [hval]; rfl, fun _ => ⟨id, rfl⟩⟩
      rw [Cell.emptying, hval, Option.elim_none, List.append_nil]
    | some o =>
      have he : clear (.own .temporary id) s =
          (unbind id .release >>= fun old => releaseAny old >>= fun _ => pure true) s := by
        rw [clear, bind_apply, slot_some hv, done_bind, hval]
        rfl
      rw [he]
      exact unbindRelease_does hs h (fun _ => rfl) fun hn => absurd hn (by rw [hval]; simp)
  · have hne : ∀ id, c ≠ .own .temporary id := fun id he => htemp ⟨id, he⟩
    obtain ⟨k, hclear, hsome, hnone⟩ := hother hne
    rw [hclear]
    refine .seq hs (lockToChange_does h) ?_ ?_
    · rintro ds l _ s - ⟨rfl, rfl, rfl, -⟩
      exact unbindRelease_does hs h hsome fun _ => ⟨hnone, hne⟩
    · rintro ds l f s - ⟨rfl, rfl, rfl, hf⟩
      exact ⟨rfl, ⟨[], .refl s, .inl rfl⟩, .inl ⟨rfl, .inl (hf f rfl)⟩⟩

/-- How taking the claim out of a variable ends. -/
def Extracts (s : State) (ds : List Deed) (c : Cell) (v : Slot) : Post Claim :=
  fun ds' l' r s' => l' = [] ∧ match r with
    | .ok claim => v.claim? = some claim ∧ ds' = ds ++ [.set c.slot none] ∧
        Came s (claim :: s.thread.hands) s'
    | .error f => (∃ own, Came s (own ++ s.thread.hands) s') ∧
        (ds' = ds ∧ (Locked s c f ∨ Lacks s c v .temporaryTake f) ∨
          ds' = ds ++ c.emptying v ∧ v.value.isSome ∧ f = .panic .overflow)

theorem take_does (hs : Sound [] s) (h : c.Stands s v) :
    (take c s).Does (Extracts s ds c v) ds [] s := by
  refine .seq hs (lockToChange_does h) ?_ ?_
  · rintro ds l _ s - ⟨rfl, rfl, rfl, -⟩
    refine .seq hs (unbind_does .transfer h.slot) ?_ ?_
    · rintro ds' l' old s' hs' ⟨rfl, rfl, hc, rfl, hslots⟩
      cases hval : v.value with
      | none =>
        have hclaim : v.claim? = none := by rw [Slot.claim?, hval]; rfl
        rw [hclaim] at hc ⊢
        have hv' : s'.slots.get? c.slot = some v := by rw [hslots hval]; exact h.slot
        have herr : (∀ id, c ≠ .own .temporary id) → (unboundError c s' : Act Claim).Does
            (Extracts s ds c v) (ds ++ []) [] s' := by
          intro hne
          refine (unboundError_does hv').imp ?_
          rintro ds'' l'' r s'' ⟨rfl, rfl, rfl, rfl⟩
          refine ⟨rfl, ⟨[], hc⟩, .inl ⟨List.append_nil _, .inr ⟨hval, .inl ?_⟩⟩⟩
          rw [c.lacking_of_not_temporary hne]
        cases c with
        | handle id a => exact herr nofun
        | own f id =>
          cases f with
          | plain => exact herr nofun
          | parameter => exact herr nofun
          | temporary =>
            refine violate_does ⟨rfl, ⟨[], ?_⟩, .inl ⟨List.append_nil _, .inr ⟨hval, .inl rfl⟩⟩⟩
            have he := (Aside.emit s' (.violated .temporaryTake) fun _ => rfl).came
            exact ⟨hc.toOnward.trans he.toOnward, he.hands.trans hc.hands⟩
      | some o =>
        have hclaim : v.claim? = some ⟨v.realm, o⟩ := by rw [Slot.claim?, hval]; rfl
        rw [hclaim] at hc ⊢
        exact .done ⟨rfl, hclaim, rfl, hc⟩
    · rintro ds' l' f s' - ⟨rfl, rfl, hc, rfl, hrec⟩
      refine ⟨rfl, ⟨_, hc⟩, ?_⟩
      cases hval : v.value with
      | none => exact .inl ⟨List.append_nil _, .inr ⟨hval, .inr ⟨hrec hval, rfl⟩⟩⟩
      | some o => exact .inr ⟨by rw [Cell.emptying, hval], rfl, rfl⟩
  · rintro ds l f s - ⟨rfl, rfl, rfl, hf⟩
    exact ⟨rfl, ⟨[], .refl s⟩, .inl ⟨rfl, .inl (hf f rfl)⟩⟩

/-! ## Making cells -/

/-- The cell that a new slot is put behind: one that owns it, or the first handle of a shared
one. -/
def newCell (form : Option Form) (id : SlotId) : Cell :=
  match form with
  | some form => .own form id
  | none => .handle id .locally

@[simp] theorem slot_newCell (form : Option Form) (id : SlotId) : (newCell form id).slot = id := by
  cases form <;> rfl

/-- The deeds of making a cell. -/
def making (form : Option Form) (id : SlotId) (v : Slot) : List Deed :=
  .made id v :: if form.isNone then [.shared id] else []

/-- How making a cell ends: it is in the arms, and its claim is no longer in the hands. -/
def Makes (s : State) (ds : List Deed) (v : Slot) (H : List Claim) (form : Option Form) :
    Post Cell :=
  fun ds' l' r s' => match r with
    | .ok c => ds' = ds ++ making form s.next v ∧ l' = [c] ∧ c = newCell form s.next ∧
        s'.slots.get? s.next = some v ∧ Came s H s' ∧ c.First s'
    | .error f => ds' = ds ∧ l' = [] ∧ f = .panic .overflow ∧ Came s s.thread.hands s'

/-- How making a cell ends when a counter is full. -/
theorem Overflows.makes {form : Option Form} {l : List Cell} {r : Except Failure α}
    {r' : Except Failure Cell} (h : Overflows s ds [] ds' l r s') (hr : r' = .error (.panic .overflow)) :
    Makes s ds v H form ds' l r' s' := by
  obtain ⟨rfl, rfl, -, hc⟩ := h
  subst hr
  exact ⟨rfl, rfl, rfl, hc⟩

theorem makeOwn_does (hs : Sound [] s) (form : Form) {name : String} (value : Option ObjectId)
    (hh : s.thread.hands = (value.map (⟨.counted, ·⟩ : ObjectId → Claim)).toList ++ H) :
    (makeOwn form name value s).Does
      (Makes s ds ⟨.counted, form.kind, name, value⟩ H (some form)) ds [] s := by
  have hkind : form.kind ≠ .shared := by cases form <;> exact nofun
  have hmem : ∀ c ∈ Slot.claim? ⟨.counted, form.kind, name, value⟩, c ∈ s.thread.hands :=
    fun c hc => by
      rw [hh]
      exact List.mem_append_left _ (Option.mem_toList.2 hc)
  cases hp : s.profiler.recordMade form.kind value.isSome with
  | some p =>
    have m := Move.made (l := []) form hkind hmem hp
    rw [makeOwn, bind_apply, makeSlot_some hp]
    exact .move m (.done ⟨rfl, rfl, rfl, Table.get?_insert_self _ _ _,
      Move.came m rfl (made_hands hh), nofun⟩)
  | none =>
    refine .seq hs (makeSlot_none hp) ?_ ?_
    · rintro ds' l' id s' - ⟨-, -, hr, -⟩
      cases hr
    · rintro ds' l' f s' - h
      exact h.makes (congrArg Except.error (Except.error.inj h.2.2.1))

theorem makeShared_does (hs : Sound [] s) {realm : Realm} {name : String}
    {value : Option ObjectId}
    (hh : s.thread.hands = (value.map (⟨realm, ·⟩ : ObjectId → Claim)).toList ++ H) :
    (makeShared realm name value s).Does
      (Makes s ds ⟨realm, .shared, name, value⟩ H none) ds [] s := by
  have hmem : ∀ c ∈ Slot.claim? ⟨realm, .shared, name, value⟩, c ∈ s.thread.hands :=
    fun c hc => by
      rw [hh]
      exact List.mem_append_left _ (Option.mem_toList.2 hc)
  cases hp : s.profiler.recordMade .shared value.isSome with
  | some p =>
    have m := Move.madeShared (l := []) (v := ⟨realm, .shared, name, value⟩) rfl hmem hp
    rw [makeShared, bind_apply, makeSlot_some hp]
    refine .move m (.done ⟨rfl, rfl, rfl, Table.get?_insert_self _ _ _,
      Move.came m rfl (made_hands hh), ?_⟩)
    rintro id a ⟨⟩
    exact ⟨rfl, _, Table.get?_insert_self _ _ _, rfl⟩
  | none =>
    refine .seq hs (makeSlot_none hp) ?_ ?_
    · rintro ds' l' id s' - ⟨-, -, hr, -⟩
      cases hr
    · rintro ds' l' f s' - h
      exact h.makes (congrArg Except.error (Except.error.inj h.2.2.1))

/-! ## Handles -/

/-- A handle more, which is in the arms. -/
theorem retain_does {sh : Sharing} (hsh : s.sharing.get? id = some sh)
    (hv : s.slots.get? id = some v) :
    (retain id s).Does (fun ds' l' r s' => ds' = ds ++ [.retained id] ∧
      l' = .handle id .free :: l ∧ r = .ok (.handle id .free) ∧ Came s s.thread.hands s' ∧
      s'.slots = s.slots ∧ s'.thread = s.thread ∧ s'.handles = s.handles ∧
      s'.handleKeys = s.handleKeys) ds l s := by
  have hsh' : (s.sharing.modify id fun c => { c with handles := c.handles + 1 }).get? id =
      some { sh with handles := sh.handles + 1 } := by
    rw [Table.get?_modify_self, hsh, Option.map_some]
  have m := Move.retained (l := l) hsh hv
  rw [retain, bind_apply, setSharing_apply, done_bind, bind_apply, did_apply, done_bind, bind_apply]
  generalize ht : State.did _ _ = t
  have hslot : t.slots.get? id = some v := by rw [← ht]; exact hv
  have hsharing : t.sharing.get? id = some { sh with handles := sh.handles + 1 } := by
    rw [← ht]; exact hsh'
  rw [slot_some hslot, done_bind, bind_apply, sharing_some hsharing, done_bind, ← ht]
  exact .move m (.done ⟨rfl, rfl, rfl, Move.came m rfl rfl, rfl, rfl, rfl, rfl⟩)

section Dropping

variable {sh : Sharing} (aloud : Bool)

/-- The state after a handle was given up. -/
def lessHandle (s : State) (id : SlotId) : State :=
  { s with sharing := s.sharing.modify id fun c => { c with handles := c.handles - 1 } }.did
    (.dropped id)

/-- The state after the last handle was given up, before the slot is ended. -/
def unshared (s : State) (id : SlotId) : State :=
  { lessHandle s id with sharing := (lessHandle s id).sharing.erase id }

theorem dropHandle_many (hsh : s.sharing.get? id = some sh) (hn : sh.handles - 1 ≠ 0) :
    dropHandle id s = .done () (lessHandle s id) := by
  have hsh' : (lessHandle s id).sharing.get? id = some { sh with handles := sh.handles - 1 } := by
    show (s.sharing.modify id _).get? id = _
    rw [Table.get?_modify_self, hsh, Option.map_some]
  rw [dropHandle, bind_apply, setSharing_apply, done_bind, bind_apply, did_apply, done_bind,
    bind_apply]
  change (sharing id (lessHandle s id)).bind _ = _
  rw [sharing_some hsh', done_bind, ite_apply, if_neg hn]
  rfl

theorem dropHandle_last (hsh : s.sharing.get? id = some sh) (hn : sh.handles = 1)
    (hv : s.slots.get? id = some v) :
    dropHandle id s =
      (attempt (reportFreed v) >>= fun r => conclude r (destroySlot id)) (unshared s id) := by
  have hsh' : (lessHandle s id).sharing.get? id = some { sh with handles := sh.handles - 1 } := by
    show (s.sharing.modify id _).get? id = _
    rw [Table.get?_modify_self, hsh, Option.map_some]
  have hv' : (lessHandle s id).slots.get? id = some v := hv
  rw [dropHandle, bind_apply, setSharing_apply, done_bind, bind_apply, did_apply, done_bind,
    bind_apply]
  change (sharing id (lessHandle s id)).bind _ = _
  rw [sharing_some hsh', done_bind, ite_apply, if_pos (by rw [hn]), bind_apply, slot_some hv',
    done_bind]
  rfl

theorem reportFreed_some {p : Profiler} (h : s.profiler.record .shared .cellFreed = some p) :
    reportFreed v s = .done () ({ s with profiler := p }.emit (.freed v.name v.value.isSome)) := by
  rw [reportFreed, bind_apply, record_some h]
  rfl

theorem reportFreed_none (h : s.profiler.record .shared .cellFreed = none) :
    reportFreed v s = raise .overflow s := by
  rw [reportFreed, bind_apply, record_none h, raise_bind]

/-- A handle is given up, and with the last one the cell. -/
theorem dropHandle_does {a : Access} (hs : Sound [.handle id a] s)
    (hsh : s.sharing.get? id = some sh) (hv : s.slots.get? id = some v) :
    (dropHandle id (s.announce aloud v.name sh.handles)).Does
      (Ends s (ds ++ (Cell.handle id a).ending s)) ds [.handle id a] s := by
  have hmem := List.mem_singleton_self (Cell.handle id a)
  have hnil : [Cell.handle id a].erase (.handle id a) = [] := List.erase_cons_head _ _
  obtain ⟨hcount, hpos⟩ := hs.refcount_pos hsh
  have hsh' : (s.announce aloud v.name sh.handles).sharing.get? id = some sh := hsh
  have hv' : (s.announce aloud v.name sh.handles).slots.get? id = some v := hv
  by_cases hn : sh.handles = 1
  · have hend : (Cell.handle id a).ending s = [.dropped id, .ended id] := by
      rw [Cell.ending, hcount, if_pos hn]
    rw [dropHandle_last hsh' hn hv', hend, bind_apply, attempt_apply]
    generalize hu : unshared (s.announce aloud v.name sh.handles) id = u
    have hvu : u.slots.get? id = some v := by rw [← hu]; exact hv
    have hpu : u.profiler = s.profiler := by rw [← hu]; rfl
    cases hp : s.profiler.record .shared .cellFreed with
    | some p =>
      have m := Move.freed aloud hmem hsh hn hv hp
      have hc := Move.came m rfl rfl
      rw [hnil] at m
      rw [reportFreed_some (hpu ▸ hp), done_attempt, done_bind, ← hu]
      refine .move m (.seq (m.sound hs) (destroySlot_does hv) ?_ ?_)
      · rintro ds' l' _ s' - ⟨rfl, rfl, hc'⟩
        exact .done ⟨rfl, List.append_assoc _ _ _, hc.trans hc'⟩
      · rintro ds' l' f s' - ⟨rfl, rfl, hf, own, hc'⟩
        exact ⟨rfl, List.append_assoc _ _ _, hf, own, hc.trans hc'⟩
    | none =>
      have m : Move [.handle id a] s [.dropped id] [.own .plain id] u := by
        have h := Move.freedFull aloud hmem hsh hn hv ⟨_, _, hp⟩
        rw [hnil] at h
        rw [← hu]
        exact h
      have hc : Came s s.thread.hands u := Move.came m (by rw [← hu]; rfl) (by rw [← hu]; rfl)
      have hreport : (reportFreed v u).Does (fun ds' l' r s' => ds' = ds ++ [.dropped id] ∧
          l' = [.own .plain id] ∧ r = .error (.panic .overflow) ∧ s' = u)
          (ds ++ [.dropped id]) [.own .plain id] u := by
        rw [reportFreed_none (hpu ▸ hp)]
        exact raise_does ⟨rfl, rfl, rfl, rfl⟩
      refine .move m ?_
      change ((attempt (reportFreed v) >>= fun r => conclude r (destroySlot id)) u).Does _ _ _ _
      refine .tried (m.sound hs) hreport ?_
      rintro ds' l' r s' hs' ⟨rfl, rfl, rfl, rfl⟩
      refine .seq hs' (cleanUp_does hs' (destroySlot_does hvu)) ?_ ?_
      · rintro ds' l' _ s' - ⟨-, rfl, rfl, hc'⟩
        exact .fail ⟨rfl, List.append_assoc _ _ _, ⟨_, rfl⟩, [], hc.stay hc'⟩
      · rintro ds' l' f s' - ⟨⟨⟩, -⟩
  · have hend : (Cell.handle id a).ending s = [.dropped id] := by
      rw [Cell.ending, hcount, if_neg hn]
    have m := Move.dropped aloud hmem hsh hv hn
    rw [hnil] at m
    rw [dropHandle_many hsh' (by omega), hend]
    exact .move m (.done ⟨rfl, rfl, Move.came m rfl rfl⟩)

end Dropping

theorem releaseHandle_does {a : Access} (hs : Sound [.handle id a] s) :
    (releaseHandle id s).Does (Ends s (ds ++ (Cell.handle id a).ending s)) ds [.handle id a] s := by
  obtain ⟨v, hv, hshared⟩ := hs.stands_of_arms (List.mem_singleton_self _)
  obtain ⟨sh, hsh⟩ := hshared id a rfl
  replace hv : s.slots.get? id = some v := hv
  have he : releaseHandle id s = dropHandle id (s.announce true v.name sh.handles) := by
    rw [releaseHandle, bind_apply, slot_some hv, done_bind, bind_apply, sharing_some hsh, done_bind]
    rfl
  rw [he]
  exact dropHandle_does true hs hsh hv

/-- Ending a cell that is in the arms. -/
theorem destroy_does (hs : Sound [c] s) :
    (destroy c s).Does (Ends s (ds ++ c.ending s)) ds [c] s := by
  obtain ⟨v, hv, hshared⟩ := hs.stands_of_arms (List.mem_singleton_self _)
  cases c with
  | own f id => exact destroySlot_does hv
  | handle id a =>
    obtain ⟨sh, hsh⟩ := hshared id a rfl
    exact dropHandle_does false hs hsh hv

/-! ## Texts -/

theorem debugText_does (hs : Sound l s) (h : c.Stands s v) (bound : Bool) :
    (debugText c bound s).Does (Looks s ds l fun r => ∃ t, r = .ok t) ds l s := by
  refine .seq hs (look_does hs h) ?_ ?_
  · rintro ds l v' s - ⟨rfl, rfl, rfl, ⟨⟩⟩
    cases c with
    | own f id => exact .done ⟨rfl, rfl, rfl, _, rfl⟩
    | handle id a =>
      obtain ⟨sh, hsh⟩ := h.shared id a rfl
      simp only [bind_apply, sharing_some hsh, done_bind, pure_apply]
      exact .done ⟨rfl, rfl, rfl, _, rfl⟩
  · rintro ds l f s - ⟨-, -, -, ⟨⟩⟩

end Action

end ClaimCells
