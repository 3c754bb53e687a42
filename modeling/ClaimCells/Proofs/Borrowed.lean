import ClaimCells.Proofs.Undisturbed

/-!
# Storing borrowed objects

A cell that is bound to a borrowed object acquires its claim before it gives up the one that it had.
So the object is not freed on the way, even when the only claim on it is the one that the cell has.

Main results: `assignBorrowed_runs`, and `borrowed_survives` for the operations.
-/

namespace ClaimCells

open Act (Outcome)

variable {α : Type} {s t u : State} {c : Cell} {v : Slot} {o x : ObjectId} {old : Option ObjectId}
  {k k₁ k' : Ledger} {p : Profiler} {id : SlotId} {key name : String} {n : Nat}

/-! ## The ledger -/

namespace Ledger

/-- The ledger after a claim was given up, if there was one. -/
structure Loses (k : Ledger) (old : Option ObjectId) (k' : Ledger) : Prop where
  lost : ∀ x, old = some x → k'.count x + 1 = k.count x ∧ (k'.isFreed x = true ↔ k.count x = 1)
  others : ∀ x, old ≠ some x → k'.count x = k.count x ∧ k'.isFreed x = k.isFreed x
  last : k'.last = k.last
  acquires : k'.acquires = k.acquires
  releases : k'.releases = k.releases + if old.isSome then 1 else 0

/-- The ledger after a cell was bound to an object for which a claim was acquired. -/
structure Rebinds (k : Ledger) (old : Option ObjectId) (o : ObjectId) (k' : Ledger) : Prop where
  alive : 0 < k'.count o ∧ k'.isFreed o = false
  same : old = some o → k'.count o = k.count o
  gained : old ≠ some o → k'.count o = k.count o + 1
  lost : ∀ x, old = some x → x ≠ o →
    k'.count x + 1 = k.count x ∧ (k'.isFreed x = true ↔ k.count x = 1)
  others : ∀ x, x ≠ o → old ≠ some x → k'.count x = k.count x ∧ k'.isFreed x = k.isFreed x
  last : k'.last = k.last
  acquires : k'.acquires = k.acquires + 1
  releases : k'.releases = k.releases + if old.isSome then 1 else 0

theorem Loses.none (k : Ledger) : k.Loses none k :=
  ⟨fun _ h => (by cases h), fun _ _ => ⟨rfl, rfl⟩, rfl, rfl, rfl⟩

theorem Sound.loses (hk : k.Sound) (h : k.release x = .ok k') : k.Loses (some x) k' := by
  have halive := hk.alive h
  obtain ⟨k'', h', -, hcount⟩ := hk.release halive
  obtain rfl : k' = k'' := Except.ok.inj (h.symm.trans h')
  obtain ⟨hlast, hacq, hrel, hfreed⟩ := release_rest h
  refine ⟨fun y hy => ?_, fun y hy => ?_, hlast, hacq, hrel⟩
  · cases hy
    refine ⟨by rw [← hcount x, if_pos rfl], ?_⟩
    rw [hfreed, hk.not_freed halive, iff_comm]
    exact ⟨fun h => .inr ⟨rfl, h.le⟩,
      fun h => (h.resolve_left Bool.false_ne_true).2.antisymm halive⟩
  · have hne : y ≠ x := fun he => hy (he ▸ rfl)
    refine ⟨by rw [← hcount y, if_neg hne, Nat.add_zero], Bool.eq_iff_iff.2 ?_⟩
    rw [hfreed]
    exact or_iff_left fun h => hne h.1

theorem acquire_ok (hk : k.Sound) (ho : 0 < k.count o) : ∃ k', k.acquire o = .ok k' := by
  cases hn : k.claims.get? o with
  | none => rw [count, hn] at ho; exact absurd ho (lt_irrefl _)
  | some n =>
    have hfree : ¬ k.isFreed o = true := by rw [hk.not_freed ho]; exact Bool.false_ne_true
    exact ⟨_, by rw [acquire, if_neg hfree, hn]⟩

theorem acquire_rest (h : k.acquire o = .ok k') : k'.last = k.last ∧ k'.freed = k.freed ∧
    k'.acquires = k.acquires + 1 ∧ k'.releases = k.releases := by
  obtain ⟨n, -, -, rfl⟩ := acquire_eq h
  exact ⟨rfl, rfl, rfl, rfl⟩

/-- The claim that is acquired first keeps the object alive, whichever claim is given up then. -/
theorem Sound.rebinds (hk : k.Sound) (ho : 0 < k.count o) (h₁ : k.acquire o = .ok k₁)
    (h₂ : k₁.Loses old k') : k.Rebinds old o k' := by
  have hcount := count_acquire h₁
  obtain ⟨hlast, hfreed, hacq, hrel⟩ := acquire_rest h₁
  have hfreed' : ∀ x, k₁.isFreed x = k.isFreed x := fun x => by rw [isFreed, isFreed, hfreed]
  have hself : k₁.count o = k.count o + 1 := by rw [hcount, if_pos rfl]
  refine
    { alive := ?_
      same := fun he => ?_
      gained := fun hne => by rw [(h₂.others o hne).1, hself]
      lost := fun x hx hne => ?_
      others := fun x hne hx => ?_
      last := h₂.last.trans hlast
      acquires := h₂.acquires.trans hacq
      releases := by rw [h₂.releases, hrel] }
  · by_cases hold : old = some o
    · obtain ⟨h, hf⟩ := h₂.lost o hold
      exact ⟨by omega, Bool.eq_false_iff.2 fun hfree => by have := hf.1 hfree; omega⟩
    · obtain ⟨h, hf⟩ := h₂.others o hold
      rw [h, hf, hself, hfreed', hk.not_freed ho]
      exact ⟨Nat.succ_pos _, rfl⟩
  · have h := (h₂.lost o he).1
    omega
  · have h := h₂.lost x hx
    rwa [hcount, if_neg hne, Nat.add_zero] at h
  · have h := h₂.others x hx
    rwa [hcount, if_neg hne, Nat.add_zero, hfreed'] at h

/-- A claim that was acquired and is given up again leaves no trace in the counts. -/
theorem Rebinds.undone (h : k.Rebinds none o k₁) (hk : k.Sound) (ho : 0 < k.count o)
    (h' : k₁.Loses (some o) k') (x : ObjectId) :
    k'.count x = k.count x ∧ k'.isFreed x = k.isFreed x := by
  by_cases hx : x = o
  · subst hx
    have hgained := h.gained (Option.some_ne_none _).symm
    obtain ⟨hcount, hfreed⟩ := h'.lost x rfl
    refine ⟨by omega, ?_⟩
    rw [hk.not_freed ho]
    exact Bool.eq_false_iff.2 fun hf => by have := hfreed.1 hf; omega
  · obtain ⟨hcount, hfreed⟩ := h.others x hx (Option.some_ne_none x).symm
    obtain ⟨hcount', hfreed'⟩ := h'.others x fun he => hx (Option.some.inj he).symm
    exact ⟨hcount'.trans hcount, hfreed'.trans hfreed⟩

end Ledger

/-! ## Storing -/

/-- The lock of the cell is free, if it has one. -/
def Cell.Open (s : State) (c : Cell) : Prop :=
  ∀ id a sh, c = .handle id a → s.sharing.get? id = some sh → sh.readers = 0

/-- The object has a claim, and the signal does not say that it is freed. -/
def Endures (o : ObjectId) (g : Signal) (t : State) : Prop :=
  g ≠ ⟨.counted, .freed, o⟩ ∧ 0 < t.thread.ledger.count o ∧ t.thread.ledger.isFreed o = false

namespace Action

theorem lockToChange_open (hst : c.Stands s v) (hopen : c.Open s) :
    lockToChange c s = .done () s := by
  cases c with
  | own => rfl
  | handle id a =>
    obtain ⟨sh, hsh⟩ := hst.shared id a rfl
    exact lockForChange_free hsh (hopen id a sh rfl hsh)

/-- The state after a claim in hand was stored, and the old one taken into the hands. -/
def stored (s : State) (id : SlotId) (v : Slot) (o : ObjectId) (p : Profiler) : State :=
  ((({ s with profiler := p }.letGo ⟨v.realm, o⟩).setValue id (some o)).holdAny v.claim?).emit
    (.assigned v.kind v.name v.value.isSome)

theorem replace_some (hv : s.slots.get? id = some v)
    (hp : s.profiler.recordBound v.kind v.value.isSome = some p) :
    replace id o s = .done v.claim? (stored s id v o p) := by
  obtain ⟨p₁, h₁, h₂⟩ := Option.bind_eq_some_iff.1 hp
  rw [replace, bind_apply, slot_some hv, done_bind, bind_apply, record_some h₁, done_bind]
  obtain ⟨realm, kind, name, value⟩ := v
  cases value with
  | none =>
    cases h₂
    rfl
  | some o' =>
    have hrecord : ∀ w : State, w.profiler = p₁ →
        record kind .released w = .done () { w with profiler := p } :=
      fun w hw => record_some (hw ▸ h₂)
    simp only [bind_apply, letGo_apply, setValue_apply, done_bind, Option.map_some, hold_apply]
    rw [hrecord]
    · rfl
    · rfl

/-- **Binding a cell to an object**, while nothing disturbs it. -/
theorem assign_runs {Q : Signal → State → Prop} (hk : s.thread.ledger.Sound) (hq : s.Undisturbed)
    (hst : c.Stands s v) (hr : v.realm = .counted) (hopen : c.Open s)
    (hp : s.profiler.recordBound v.kind v.value.isSome = some p)
    (hbacked : ∀ x, v.value = some x → 0 < s.thread.ledger.count x)
    (hQ : ∀ m x t, s.thread.ledger.Loses v.value t.thread.ledger →
      (m = .freed → t.thread.ledger.isFreed x = true) → Q ⟨.counted, m, x⟩ t) :
    (assign c o s).Runs Q fun r t => r = .ok () ∧ t.thread.cells = s.thread.cells ∧
      s.thread.ledger.Loses v.value t.thread.ledger ∧
      t.slots = s.slots.modify c.slot ({ · with value := some o }) := by
  have hledger : (stored s c.slot v o p).thread.ledger = s.thread.ledger := rfl
  have hcells : (stored s c.slot v o p).thread.cells = s.thread.cells := rfl
  have hslots : (stored s c.slot v o p).slots =
      s.slots.modify c.slot ({ · with value := some o }) := rfl
  have hq' : (stored s c.slot v o p).Undisturbed := hq.same rfl rfl
  rw [assign, bind_apply, lockToChange_open hst hopen, done_bind, bind_apply,
    replace_some hst.slot hp, done_bind]
  generalize stored s c.slot v o p = w at hledger hcells hslots hq'
  cases hval : v.value with
  | none =>
    rw [Slot.claim?, hval]
    exact ⟨rfl, hcells, hledger ▸ .none _, hslots⟩
  | some x =>
    obtain ⟨k₂, h₂, -⟩ := hk.release (hbacked x hval)
    have hloses := hk.loses h₂
    have hQ' := fun m t => hQ m x t
    rw [hval] at hQ'
    rw [Slot.claim?, hval, hr]
    exact release_runs (hledger ▸ h₂) rfl hq' (hQ' _ _ hloses fun h => by cases h)
      (fun hf => hQ' _ _ hloses fun _ => hf) ⟨rfl, hcells, hloses, hslots⟩

/-- **Binding a cell to a borrowed object**, while nothing disturbs it. -/
theorem assignBorrowed_runs (hk : s.thread.ledger.Sound) (hq : s.Undisturbed)
    (hst : c.Stands s v) (hr : v.realm = .counted) (hopen : c.Open s) (hroom : ¬ s.profiler.Full)
    (ho : 0 < s.thread.ledger.count o)
    (hbacked : ∀ x, v.value = some x → 0 < s.thread.ledger.count x) :
    (assignBorrowed c o s).Runs (Endures o) fun r t => r = .ok () ∧
      t.thread.cells = s.thread.cells ∧ s.thread.ledger.Rebinds v.value o t.thread.ledger ∧
      t.slots = s.slots.modify c.slot ({ · with value := some o }) := by
  obtain ⟨k₁, h₁⟩ := Ledger.acquire_ok hk ho
  have hk₁ := hk.acquire h₁
  have hmore : ∀ x, s.thread.ledger.count x ≤ k₁.count x := fun x => by
    rw [Ledger.count_acquire h₁]
    exact Nat.le_add_right _ _
  have halive₁ : 0 < k₁.count o := ho.trans_le (hmore o)
  obtain ⟨p, hp⟩ := Profiler.recordBound_room hroom v.kind v.value.isSome
  rw [assignBorrowed, bind_apply, slot_some hst.slot, done_bind, hr]
  have hacquire : (acquire ⟨.counted, o⟩ s).Runs (Endures o) fun r w => r = .ok () ∧
      w = ((s.setLedger k₁).hold ⟨.counted, o⟩).note (.acquired o) :=
    acquire_runs h₁ rfl hq ⟨fun h => (by cases h), halive₁, hk₁.not_freed halive₁⟩ ⟨rfl, rfl⟩
  refine hacquire.bind ?_ (fun f w h => by cases h.1)
  rintro - w ⟨-, hw⟩
  have hledger : w.thread.ledger = k₁ := hw ▸ rfl
  have hcells : w.thread.cells = s.thread.cells := hw ▸ rfl
  have hslots : w.slots = s.slots := hw ▸ rfl
  have hsharing : w.sharing = s.sharing := hw ▸ rfl
  have hprofiler : w.profiler = s.profiler := hw ▸ rfl
  have hq' : w.Undisturbed := hq.same (hw ▸ rfl) (hw ▸ rfl)
  have hst' : c.Stands w v := ⟨hslots ▸ hst.slot, fun id a he => hsharing ▸ hst.shared id a he⟩
  have hopen' : c.Open w := fun id a sh he hsh => hopen id a sh he (hsharing ▸ hsh)
  have hrebinds : ∀ k', w.thread.ledger.Loses v.value k' → s.thread.ledger.Rebinds v.value o k' :=
    fun k' h => hk.rebinds ho h₁ (hledger ▸ h)
  refine (assign_runs (hledger ▸ hk₁) hq' hst' hr hopen' (hprofiler ▸ hp) ?_ ?_).imp ?_
  · rw [hledger]
    exact fun x hx => (hbacked x hx).trans_le (hmore x)
  · intro m x t ht hm
    obtain ⟨hcount, hfree⟩ := (hrebinds _ ht).alive
    refine ⟨?_, hcount, hfree⟩
    rintro ⟨⟩
    exact Bool.false_ne_true (hfree.symm.trans (hm rfl))
  · rintro r t ⟨rfl, hcells', hloses, hslots'⟩
    exact ⟨rfl, hcells'.trans hcells, hrebinds _ hloses, hslots ▸ hslots'⟩

/-! ## Adopting -/

/-- **Adopting a borrowed argument**, while nothing disturbs it. -/
theorem adoptBorrowed_runs (hk : s.thread.ledger.Sound) (hq : s.Undisturbed)
    (hp : s.profiler.recordMade .parameter true = some p) (ho : 0 < s.thread.ledger.count o) :
    (adoptBorrowed name o s).Runs (Endures o) fun r t => r = .ok (.own .parameter s.next) ∧
      t.Undisturbed ∧ t.thread.cells = s.thread.cells ∧
      s.thread.ledger.Rebinds none o t.thread.ledger ∧ t.next = s.next + 1 ∧ t.profiler = p ∧
      t.slots = s.slots.insert s.next ⟨.counted, .parameter, name, some o⟩ := by
  obtain ⟨k₁, h₁⟩ := Ledger.acquire_ok hk ho
  have halive₁ : 0 < k₁.count o := by
    rw [Ledger.count_acquire h₁]
    exact Nat.add_pos_left ho _
  have hacquire : (acquire ⟨.counted, o⟩ s).Runs (Endures o) fun r w => r = .ok () ∧
      w = ((s.setLedger k₁).hold ⟨.counted, o⟩).note (.acquired o) :=
    acquire_runs h₁ rfl hq
      ⟨fun h => (by cases h), halive₁, (hk.acquire h₁).not_freed halive₁⟩ ⟨rfl, rfl⟩
  rw [adoptBorrowed, bind_apply]
  refine hacquire.bind ?_ fun f w h => by cases h.1
  rintro - w ⟨-, rfl⟩
  rw [makeOwn, bind_apply, makeSlot_some (p := p) hp]
  exact ⟨rfl, hq.same rfl rfl, rfl, hk.rebinds ho h₁ (.none k₁), rfl, rfl, rfl⟩

/-- A cell is kept under a key that stands for nothing yet. -/
theorem keepCell_free (c : Cell) (hkey : s.thread.cells.get? key = none) : keepCell key c none s =
    .done () (({ s with next := s.next + 1 }.inThread fun t => { t with
      cells := t.cells.insert key s.next, kept := t.kept.insert s.next { cell := c } }).note
        (.opened s.next none)) := by
  simp only [keepCell, bind_apply, fresh_apply, done_bind, thread_apply, inThread_apply, note_apply,
    hkey]
  rfl

/-! ## Ending -/

/-- **Ending a cell that has its slot to itself**, while nothing disturbs it. -/
theorem destroyOwn_runs (form : Form) (hk : s.thread.ledger.Sound) (hq : s.Undisturbed)
    (hv : s.slots.get? id = some v) (hr : v.realm = .counted) (hval : v.value = some o)
    (hp : s.profiler.record v.kind .released = some p) (ho : 0 < s.thread.ledger.count o) :
    (destroy (.own form id) s).Runs (fun _ _ => True) fun r t => r = .ok () ∧
      s.thread.ledger.Loses (some o) t.thread.ledger ∧ t.slots = s.slots.erase id := by
  obtain ⟨k', h', -⟩ := hk.release ho
  rw [destroy, destroySlot_bound hv hval hp, hr]
  exact release_runs h' rfl (hq.same rfl rfl) trivial (fun _ => trivial) ⟨rfl, hk.loses h', rfl⟩

end Action

/-! ## Operations -/

/-- The key stands for the cell, which no operation keeps from being changed. -/
def State.Offers (s : State) (key : String) (c : Cell) : Prop :=
  ∃ k e, s.thread.cells.get? key = some k ∧ s.thread.kept.get? k = some e ∧ e.cell = c ∧
    ¬ Action.Busy e

/-- The name and the object of a parameter cell for a borrowed argument. -/
def Making.borrows? : Making → Option (String × ObjectId)
  | .parameterBorrowed name o => some (name, o)
  | .parameterAdopt name o mode =>
    match OwnershipMode.decoder.decode (.value mode) with
    | .ok .borrowed => some (name, o)
    | _ => none
  | _ => none

section Operations

open Action

theorem Cell.Open.binding (h : c.Open s) : c.binding.Open s := by
  cases c with
  | own => exact h
  | handle id a =>
    rintro i a' sh ⟨⟩ hsh
    exact h id a sh rfl hsh

theorem assignBorrowed_course (bound : Bool) (h : Reached s) (hq : s.Undisturbed)
    (hroom : ¬ s.profiler.Full) (ho : 0 < s.thread.ledger.count o) (hc : s.Offers key c)
    (hv : s.slots.get? c.slot = some v) (hopen : c.Open s)
    (hbacked : ∀ x, v.value = some x → 0 < s.thread.ledger.count x) :
    ((Op.cell (.use key bound (.assignBorrowed o))).course s).Runs (Endures o) fun r t =>
      ∃ x, r = .ok x ∧ x = .nothing ∧ t.thread.cells = s.thread.cells ∧
        s.thread.ledger.Rebinds v.value o t.thread.ledger ∧
        t.slots = s.slots.modify c.slot ({ · with value := some o }) := by
  obtain ⟨k, e, hkey, hk, rfl, hfree⟩ := hc
  obtain ⟨v', hst, hr⟩ := h.sound.stands_of_kept hk
  obtain rfl : v' = v := Option.some.inj (hst.slot.symm.trans hv)
  obtain ⟨c, hside, hst', hopen', hslot⟩ : ∃ c, (if bound then e.cell.binding else e.cell) = c ∧
      c.Stands s v' ∧ c.Open s ∧ c.slot = e.cell.slot := by
    cases bound with
    | false => exact ⟨_, rfl, hst, hopen, rfl⟩
    | true => exact ⟨_, rfl, hst.binding, hopen.binding, by cases e.cell <;> rfl⟩
  refine unwinding_runs ?_
  show (useCell key bound (.assignBorrowed o) s).Runs _ _
  refine withCell_runs hkey hk (fun x t f h => h) (fun x t h => h.2.1) ?_
  have hk' : (s.flag k Kept.entered).thread.kept.get? k = some e.entered := by
    rw [State.flag_kept, if_pos rfl, hk, Option.map_some]
  refine changing_runs hk' hfree (fun x t f h => h) fun f => ?_
  -- the cell is used in a state that differs from the first in its flags
  generalize hw : (s.flag k Kept.entered).flag k f = w
  have hknown : o ∈ w.thread.known := hw ▸ h.reckons.running.known o ho
  have hassign : (assignBorrowed c o w).Runs (Endures o) fun r t => r = .ok () ∧
      t.thread.cells = s.thread.cells ∧ s.thread.ledger.Rebinds v'.value o t.thread.ledger ∧
      t.slots = s.slots.modify c.slot ({ · with value := some o }) := by
    have hassign := assignBorrowed_runs (s := (s.flag k Kept.entered).flag k f) (v := v')
      h.reckons.running.ledger (hq.same rfl rfl) ⟨hst'.slot, hst'.shared⟩ hr hopen' hroom ho hbacked
    subst hw
    exact hassign
  rw [hside, bind_apply, requireKnown_some hknown, done_bind, bind_apply]
  refine hassign.bind ?_ fun f t h => by cases h.1
  rintro - t ⟨-, hcells, hrebinds, hslots⟩
  exact ⟨.nothing, rfl, rfl, hcells, hrebinds, hslot ▸ hslots⟩

/-- A parameter cell for a borrowed argument is made in two ways. -/
theorem make_borrowed {how : Making} (hhow : how.borrows? = some (name, o))
    (ho : o ∈ s.thread.known) : make how s = adoptBorrowed name o s := by
  cases how with
  | parameterBorrowed name' o' =>
    cases hhow
    rw [make, bind_apply, requireKnown_some ho, done_bind]
  | parameterAdopt name' o' mode =>
    rw [Making.borrows?] at hhow
    split at hhow
    · next hmode =>
      cases hhow
      rw [make, bind_apply, decoded, hmode]
      dsimp only
      rw [pure_apply, done_bind, bind_apply, requireKnown_some ho, done_bind]
      rfl
    · cases hhow
  | _ => cases hhow

theorem adoptBorrowed_course {how : Making} (h : Reached s) (hq : s.Undisturbed)
    (hp : s.profiler.recordMade .parameter true = some p) (ho : 0 < s.thread.ledger.count o)
    (hhow : how.borrows? = some (name, o)) (hkey : s.thread.cells.get? key = none) :
    ((Op.cell (.make key how)).course s).Runs (Endures o) fun r t =>
      ∃ x, r = .ok x ∧ x = .nothing ∧ t.Undisturbed ∧ t.Rests key (.own .parameter s.next) ∧
        s.thread.ledger.Rebinds none o t.thread.ledger ∧ t.profiler = p ∧
        t.slots = s.slots.insert s.next ⟨.counted, .parameter, name, some o⟩ := by
  refine unwinding_runs ?_
  show ((make how s).bind fun c => keepCell key c >>= fun _ => pure Answer.nothing).Runs _ _
  rw [make_borrowed hhow (h.reckons.running.known o ho)]
  refine (adoptBorrowed_runs h.reckons.running.ledger hq hp ho).bind ?_ fun f t h => by cases h.1
  rintro c t ⟨hc, hq', hcells, hrebinds, -, hprofiler, hslots⟩
  obtain rfl := Except.ok.inj hc
  rw [bind_apply, keepCell_free _ (hcells ▸ hkey)]
  have hrests : State.Rests (({ t with next := t.next + 1 }.inThread fun t' => { t' with
      cells := t'.cells.insert key t.next
      kept := t'.kept.insert t.next { cell := .own .parameter s.next } }).note
        (.opened t.next none)) key (.own .parameter s.next) :=
    ⟨t.next, { cell := .own .parameter s.next }, Table.get?_insert_self _ _ _,
      Table.get?_insert_self _ _ _, rfl, rfl⟩
  exact ⟨.nothing, rfl, rfl, hq'.same rfl rfl, hrests, hrebinds, hprofiler, hslots⟩

theorem dropOwn_course {form : Form} (h : Reached s) (hq : s.Undisturbed)
    (hc : s.Rests key (.own form id)) (hv : s.slots.get? id = some v) (hval : v.value = some o)
    (hp : s.profiler.record v.kind .released = some p) (ho : 0 < s.thread.ledger.count o) :
    ((Op.cell (.drop key)).course s).Runs (fun _ _ => True) fun r t =>
      ∃ x, r = .ok x ∧ x = .nothing ∧ s.thread.ledger.Loses (some o) t.thread.ledger ∧
        t.slots = s.slots.erase id := by
  obtain ⟨k, e, hkey, hk, hcell, husers⟩ := hc
  obtain ⟨v', hst, hr⟩ := h.sound.stands_of_kept hk
  obtain rfl : v' = v := by
    rw [hcell] at hst
    exact Option.some.inj (hst.slot.symm.trans hv)
  refine unwinding_runs ?_
  show ((takeCell key s).bind fun c => destroy c >>= fun _ => pure Answer.nothing).Runs _ _
  rw [takeCell_free hkey hk husers, done_bind, bind_apply, hcell]
  have hdestroy := destroyOwn_runs (s := s.inThread fun t => { t with
    cells := t.cells.erase key, kept := t.kept.erase k }) form h.reckons.running.ledger
    (hq.same rfl rfl) hv hr hval hp ho
  refine hdestroy.bind ?_ fun f t h => by cases h.1
  rintro - t ⟨-, hloses, hslots⟩
  exact ⟨.nothing, rfl, rfl, hloses, hslots⟩

end Operations

/-! ## Every run -/

/-- **Storing a borrowed object is safe.** It has a claim all the while, also when the only one was
that of the cell that it is stored in. Of the claims that the ledger counts, the object's go up by
one, unless the cell held the object before, and those of another object that the cell held go down
by one. A parameter cell that adopts a borrowed object adds one claim to it, and takes it along when
it ends. -/
theorem borrowed_survives (h : Reached s) (hq : s.Undisturbed) (hroom : ¬ s.profiler.Full)
    (ho : 0 < s.thread.ledger.count o) (n : Nat) :
    (∀ key bound c v, s.Offers key c → s.slots.get? c.slot = some v → c.Open s →
      (∀ x, v.value = some x → 0 < s.thread.ledger.count x) →
      ∃ t, step (n + 1) (.cell (.use key bound (.assignBorrowed o))) s = .ended (.ok .nothing) t ∧
        t.slots = s.slots.modify c.slot ({ · with value := some o }) ∧
        s.thread.ledger.Rebinds v.value o t.thread.ledger ∧
        ∀ g u, (Op.course (.cell (.use key bound (.assignBorrowed o))) s).Sends (react (step n)) g
          u → Endures o g u) ∧
    (∀ key name how, how.borrows? = some (name, o) → s.thread.cells.get? key = none →
      ∃ t id, step (n + 1) (.cell (.make key how)) s = .ended (.ok .nothing) t ∧
        t.Rests key (.own .parameter id) ∧ s.slots.get? id = none ∧
        t.slots = s.slots.insert id ⟨.counted, .parameter, name, some o⟩ ∧
        s.thread.ledger.Rebinds none o t.thread.ledger ∧
        (∀ g u, (Op.course (.cell (.make key how)) s).Sends (react (step n)) g u → Endures o g u) ∧
        ∃ u, step (n + 1) (.cell (.drop key)) t = .ended (.ok .nothing) u ∧
          u.slots = t.slots.erase id ∧ t.thread.ledger.Loses (some o) u.thread.ledger ∧
          ∀ x, u.thread.ledger.count x = s.thread.ledger.count x ∧
            u.thread.ledger.isFreed x = s.thread.ledger.isFreed x) ∧
    ∀ key id v, s.Rests key (.own .parameter id) → s.slots.get? id = some v → v.value = some o →
      ∃ t, step (n + 1) (.cell (.drop key)) s = .ended (.ok .nothing) t ∧
        t.slots = s.slots.erase id ∧ s.thread.ledger.Loses (some o) t.thread.ledger := by
  refine ⟨fun key bound c v hc hv hopen hbacked => ?_, fun key name how hhow hkey => ?_,
    fun key id v hc hv hval => ?_⟩
  · obtain ⟨⟨r, t, he, x, rfl, rfl, -, hrebinds, hslots⟩, hsends⟩ :=
      step_runs (fun _ h => by cases h)
        (assignBorrowed_course bound h hq hroom ho hc hv hopen hbacked) n
    exact ⟨t, he, hslots, hrebinds, hsends⟩
  · obtain ⟨p, hp⟩ := Profiler.recordMade_room hroom .parameter true
    obtain ⟨⟨r, t, he, x, rfl, rfl, hq', hrests, hrebinds, hprofiler, hslots⟩, hsends⟩ :=
      step_runs (fun _ h => by cases h) (adoptBorrowed_course h hq hp ho hhow hkey) n
    have hv : t.slots.get? s.next = some ⟨.counted, .parameter, name, some o⟩ := by
      rw [hslots, Table.get?_insert_self]
    obtain ⟨p', hp'⟩ : ∃ p', t.profiler.record .parameter .released = some p' := by
      rw [hprofiler]
      exact Profiler.record_room _ _ hroom (Profiler.recordMade_counts hp) (by simp)
        (Profiler.recordMade_enabled hp)
    obtain ⟨⟨r, u, he', x, rfl, rfl, hloses, hslots'⟩, -⟩ := step_runs (fun _ h => by cases h)
      (dropOwn_course (h.ended he) hq' hrests hv rfl hp' hrebinds.alive.1) n
    exact ⟨t, s.next, he, hrests, h.sound.fresh, hslots, hrebinds, hsends, u, he', hslots', hloses,
      hrebinds.undone h.reckons.running.ledger ho hloses⟩
  · obtain ⟨p, hp⟩ : ∃ p, s.profiler.record v.kind .released = some p :=
      Profiler.record_room _ _ hroom (.refl _) List.not_mem_nil rfl
    obtain ⟨⟨r, t, he, x, rfl, rfl, hloses, hslots⟩, -⟩ := step_runs (fun _ h => by cases h)
      (dropOwn_course h hq hc hv hval hp ho) n
    exact ⟨t, he, hslots, hloses⟩

/-- A cell that has the only claim on an object is bound to the object again. -/
theorem borrowed_survives_alone : ∃ s t : State, s.thread.ledger.count 1 = 1 ∧
    (s.slots.get? 0).bind Slot.value = some 1 ∧
    step 1 (.cell (.use "" false (.assignBorrowed 1))) s = .ended (.ok .nothing) t ∧
    t.thread.ledger.count 1 = 1 := by
  have h0 : Reached (.start .plain false {} none) := .start _ _ _ _
  have h1 := h0.ended (show step 1 (.object (.allocate (some ""))) _ = .ended _ _ from rfl)
  have h2 := h1.ended (show step 1 (.cell (.make "" (.plain "" (some "")))) _ = .ended _ _ from rfl)
  have hroom : ¬ Profiler.Full .disabled := fun ⟨_, _, h⟩ => by cases h
  obtain ⟨hassign, -⟩ := borrowed_survives (o := 1) h2 (fun ⟨r, _, _⟩ => by cases r <;> rfl) hroom
    (by decide) 0
  obtain ⟨t, he, -, hrebinds, -⟩ := hassign "" false (.own .plain 0) ⟨.counted, .plain, "", some 1⟩
    ⟨1, { cell := .own .plain 0 }, rfl, rfl, rfl, by simp [Action.Busy]⟩ rfl
    (fun _ _ _ h _ => by cases h)
    (fun x hx => by cases hx; decide)
  exact ⟨_, t, rfl, rfl, he, hrebinds.same rfl⟩

end ClaimCells
