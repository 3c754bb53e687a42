import ClaimCells.Proofs.Custody

/-!
# Who owns a cell

`Sound l s` ties the tables of cells together, with the cells `l` in the arms of the operation at
work. The handles that a shared cell counts are the handles there are: kept ones of any thread,
those in native code, and those in the arms. A slot that is not shared has one owner, and a slot
that does not exist has none.

Main result: `Move.sound`, every move keeps this.
-/

namespace ClaimCells

/-! ## Counting cells -/

/-- Counts the handles of a shared cell. -/
def Cell.handles (id : SlotId) : Cell → Nat
  | .handle i _ => if i = id then 1 else 0
  | .own .. => 0

/-- Counts the cells with this slot of their own. -/
def Cell.owns (id : SlotId) : Cell → Nat
  | .own _ i => if i = id then 1 else 0
  | .handle .. => 0

/-- The sum of a weight over the kept cells of a thread. -/
def Thread.tally (w : Cell → Nat) (t : Thread) : Nat :=
  t.kept.sum fun _ e => w e.cell

/-- The sum of a weight over all cells that are kept by a thread or out in native code. -/
def State.tally (w : Cell → Nat) (s : State) : Nat :=
  s.thread.tally w + ((s.waiting ++ s.ended).map (Thread.tally w)).sum + s.handles.sum fun _ => w

/-- How many handles of a shared cell there are. -/
def State.liveHandles (s : State) (id : SlotId) : Nat :=
  s.tally (Cell.handles id)

/-- How many handles a shared cell counts. -/
def State.refcount (s : State) (id : SlotId) : Nat :=
  (s.sharing.get? id).elim 0 Sharing.handles

/-- The sum of a weight over the cells in the arms. -/
def inArms (w : Cell → Nat) (l : List Cell) : Nat :=
  (l.map w).sum

@[simp] theorem inArms_nil (w : Cell → Nat) : inArms w [] = 0 := rfl

@[simp] theorem inArms_cons (w : Cell → Nat) (c : Cell) (l : List Cell) :
    inArms w (c :: l) = w c + inArms w l := rfl

theorem inArms_erase {c : Cell} {l : List Cell} (h : c ∈ l) (w : Cell → Nat) :
    inArms w l = w c + inArms w (l.erase c) := by
  rw [inArms, inArms, ← List.sum_cons, ← List.map_cons]
  exact ((List.perm_cons_erase h).map w).sum_eq

@[simp] theorem Cell.handles_own (id : SlotId) (f : Form) (i : SlotId) :
    (Cell.own f i).handles id = 0 := rfl

@[simp] theorem Cell.owns_handle (id i : SlotId) (a : Access) :
    (Cell.handle i a).owns id = 0 := rfl

@[simp] theorem Cell.handles_handle (id i : SlotId) (a : Access) :
    (Cell.handle i a).handles id = if i = id then 1 else 0 := rfl

@[simp] theorem Cell.owns_own (id : SlotId) (f : Form) (i : SlotId) :
    (Cell.own f i).owns id = if i = id then 1 else 0 := rfl

/-! ## The invariant -/

/-- What holds of the cells that a thread keeps. -/
structure Thread.Sound (s : State) (t : Thread) : Prop where
  young : ∀ k e, t.kept.get? k = some e → k < s.next
  placed : ∀ k e, t.kept.get? k = some e → e.cell.slot < s.next
  fits : ∀ k e v, t.kept.get? k = some e → s.slots.get? e.cell.slot = some v → e.cell.Fits v
  keyed : ∀ key k, t.cells.get? key = some k → (t.kept.get? k).isSome
  distinct : ∀ key key' k, t.cells.get? key = some k → t.cells.get? key' = some k → key = key'

/-- What holds of a handle in native code. -/
structure Cell.SoundNative (s : State) (h : HandleId) (c : Cell) : Prop where
  young : h < s.next
  handle : ∃ id a, c = .handle id a
  placed : c.slot < s.next
  native : ∀ v, s.slots.get? c.slot = some v → v.realm = .native

/-- The tables of cells agree, with `l` in the arms. -/
structure Sound (l : List Cell) (s : State) : Prop where
  handles : ∀ id, s.tally (Cell.handles id) + inArms (Cell.handles id) l = s.refcount id
  owners : ∀ id, s.tally (Cell.owns id) + inArms (Cell.owns id) l =
    if (s.slots.get? id).isSome ∧ s.sharing.get? id = none then 1 else 0
  shared : ∀ id sh, s.sharing.get? id = some sh →
    sh.handles ≠ 0 ∧ (s.slots.get? id).isSome
  youngSlots : ∀ id v, s.slots.get? id = some v → id < s.next
  native : ∀ h c, s.handles.get? h = some c → c.SoundNative s h
  thread : s.thread.Sound s
  others : ∀ t ∈ s.waiting ++ s.ended, t.Sound s

variable {l l' : List Cell} {s s' : State} {ds : List Deed}

/-! ## Reading the invariant -/

theorem le_tally_kept {k : KeptId} {e : Kept} (h : s.thread.kept.get? k = some e)
    (w : Cell → Nat) : w e.cell ≤ s.tally w := by
  have := Table.le_sum h fun _ e => w e.cell
  unfold State.tally Thread.tally
  omega

theorem le_tally_handle {h : HandleId} {c : Cell} (hh : s.handles.get? h = some c)
    (w : Cell → Nat) : w c ≤ s.tally w := by
  have := Table.le_sum hh fun _ => w
  unfold State.tally
  omega

theorem le_inArms {c : Cell} (h : c ∈ l) (w : Cell → Nat) : w c ≤ inArms w l := by
  rw [inArms_erase h]
  exact Nat.le_add_right _ _

namespace Sound

/-- A handle that is counted leads to a shared cell. -/
theorem sharing_of_le (h : Sound l s) {id : SlotId} {a : Access}
    (hc : (Cell.handle id a).handles id ≤ s.tally (Cell.handles id) + inArms (Cell.handles id) l) :
    ∃ sh, s.sharing.get? id = some sh := by
  rw [h.handles id, Cell.handles_handle, if_pos rfl, State.refcount] at hc
  cases hs : s.sharing.get? id with
  | none => rw [hs] at hc; exact absurd hc (by simp)
  | some sh => exact ⟨sh, rfl⟩

/-- A cell that is counted has its slot. -/
theorem slot_of_le (h : Sound l s) {c : Cell}
    (hc : ∀ w : Cell → Nat, w c ≤ s.tally w + inArms w l) : ∃ v, s.slots.get? c.slot = some v := by
  cases c with
  | own f id =>
    have h1 := hc (Cell.owns id)
    rw [h.owners id, Cell.owns_own, if_pos rfl] at h1
    split at h1
    · next hs => exact Option.isSome_iff_exists.1 hs.1
    · omega
  | handle id a =>
    obtain ⟨sh, hsh⟩ := h.sharing_of_le (a := a) (hc (Cell.handles id))
    exact Option.isSome_iff_exists.1 (h.shared id sh hsh).2

theorem slot_of_kept (h : Sound l s) {k : KeptId} {e : Kept}
    (hk : s.thread.kept.get? k = some e) :
    ∃ v, s.slots.get? e.cell.slot = some v ∧ v.realm = .counted := by
  obtain ⟨v, hv⟩ := h.slot_of_le fun w => (le_tally_kept hk w).trans (Nat.le_add_right _ _)
  exact ⟨v, hv, (h.thread.fits k e v hk hv).counted⟩

theorem sharing_of_kept (h : Sound l s) {k : KeptId} {e : Kept} {id : SlotId} {a : Access}
    (hk : s.thread.kept.get? k = some e) (hc : e.cell = .handle id a) :
    ∃ sh, s.sharing.get? id = some sh :=
  h.sharing_of_le (a := a) (hc ▸ (le_tally_kept hk _).trans (Nat.le_add_right _ _))

theorem slot_of_handle (h : Sound l s) {i : HandleId} {c : Cell}
    (hi : s.handles.get? i = some c) : ∃ v, s.slots.get? c.slot = some v ∧ v.realm = .native := by
  obtain ⟨v, hv⟩ := h.slot_of_le fun w => (le_tally_handle hi w).trans (Nat.le_add_right _ _)
  exact ⟨v, hv, (h.native i c hi).native v hv⟩

theorem slot_of_arms (h : Sound l s) {c : Cell} (hc : c ∈ l) :
    ∃ v, s.slots.get? c.slot = some v :=
  h.slot_of_le fun w => (le_inArms hc w).trans (Nat.le_add_left _ _)

theorem sharing_of_arms (h : Sound l s) {id : SlotId} {a : Access}
    (hc : .handle id a ∈ l) : ∃ sh, s.sharing.get? id = some sh :=
  h.sharing_of_le (a := a) ((le_inArms hc _).trans (Nat.le_add_left _ _))

theorem placed_of_arms (h : Sound l s) {c : Cell} (hc : c ∈ l) : c.slot < s.next := by
  obtain ⟨v, hv⟩ := h.slot_of_arms hc
  exact h.youngSlots _ v hv

/-- A slot with an owner is not shared. -/
theorem not_shared_of_arms (h : Sound l s) {f : Form} {id : SlotId} (hc : .own f id ∈ l) :
    s.sharing.get? id = none := by
  have h1 := le_inArms hc (Cell.owns id)
  have h2 := h.owners id
  rw [Cell.owns_own, if_pos rfl] at h1
  split at h2
  · next hs => exact hs.2
  · omega

theorem refcount_pos (h : Sound l s) {id : SlotId} {sh : Sharing}
    (hs : s.sharing.get? id = some sh) : s.refcount id = sh.handles ∧ 1 ≤ sh.handles := by
  refine ⟨by rw [State.refcount, hs, Option.elim_some], ?_⟩
  exact Nat.one_le_iff_ne_zero.2 (h.shared id sh hs).1

/-- The next number is no slot's. -/
theorem fresh (h : Sound l s) : s.slots.get? s.next = none := by
  cases hn : s.slots.get? s.next with
  | none => rfl
  | some v => exact absurd (h.youngSlots _ v hn) (lt_irrefl _)

theorem fresh_sharing (h : Sound l s) : s.sharing.get? s.next = none := by
  cases hn : s.sharing.get? s.next with
  | none => rfl
  | some sh =>
    have hslot := (h.shared _ sh hn).2
    rw [h.fresh] at hslot
    cases hslot

end Sound

/-! ## Moves that leave cells alone -/

theorem Thread.Sound.mono {t : Thread} (h : t.Sound s) (hl : Lasting s s') : t.Sound s' where
  young k e he := (h.young k e he).trans_le hl.next
  placed k e he := (h.placed k e he).trans_le hl.next
  fits k e v he hv := by
    obtain ⟨v', hv', hr, hk, -⟩ := hl.slots _ v (h.placed k e he) hv
    have hf := h.fits k e v' he hv'
    exact ⟨hr ▸ hf.counted, hk ▸ hf.unshared, hk ▸ hf.temporary⟩
  keyed := h.keyed
  distinct := h.distinct

theorem Cell.SoundNative.mono {i : HandleId} {c : Cell} (h : c.SoundNative s i)
    (hl : Lasting s s') : c.SoundNative s' i where
  young := h.young.trans_le hl.next
  handle := h.handle
  placed := h.placed.trans_le hl.next
  native v hv := by
    obtain ⟨v', hv', hr, -⟩ := hl.slots _ v h.placed hv
    exact hr ▸ h.native v' hv'

/-- Soundness speaks only of the tables of cells, and of no flags in them. -/
theorem Thread.Sound.congr {t t' : Thread} (h : t.Sound s)
    (hk : ∀ k, (t'.kept.get? k).map Kept.cell = (t.kept.get? k).map Kept.cell)
    (hc : t'.cells = t.cells) : t'.Sound s := by
  have hback : ∀ k e, t'.kept.get? k = some e →
      ∃ e', t.kept.get? k = some e' ∧ e'.cell = e.cell := fun k e he => by
    have h1 := hk k
    rw [he, Option.map_some, eq_comm, Option.map_eq_some_iff] at h1
    exact h1
  refine ⟨fun k e he => ?_, fun k e he => ?_, fun k e v he hv => ?_, fun key k hkey => ?_,
    fun key key' k h1 h2 => h.distinct key key' k (hc ▸ h1) (hc ▸ h2)⟩
  · obtain ⟨e', he', -⟩ := hback k e he
    exact h.young k e' he'
  · obtain ⟨e', he', hcell⟩ := hback k e he
    exact hcell ▸ h.placed k e' he'
  · obtain ⟨e', he', hcell⟩ := hback k e he
    exact hcell ▸ h.fits k e' v he' (hcell ▸ hv)
  · have h1 := h.keyed key k (hc ▸ hkey)
    rw [← Option.isSome_map (f := Kept.cell)] at h1 ⊢
    rw [hk k]
    exact h1

/-- What is left to show when a move changed tables of cells. -/
theorem Sound.next (h : Sound l s) (hl : Lasting s s')
    (handles : ∀ id, s'.tally (Cell.handles id) + inArms (Cell.handles id) l' = s'.refcount id)
    (owners : ∀ id, s'.tally (Cell.owns id) + inArms (Cell.owns id) l' =
      if (s'.slots.get? id).isSome ∧ s'.sharing.get? id = none then 1 else 0)
    (shared : ∀ id sh, s'.sharing.get? id = some sh → sh.handles ≠ 0 ∧ (s'.slots.get? id).isSome)
    (youngSlots : ∀ id v, s'.slots.get? id = some v → id < s'.next)
    (native : ∀ i c, s'.handles.get? i = some c → s.handles.get? i = some c ∨ c.SoundNative s' i)
    (thread : s'.thread.Sound s') (hw : s'.waiting = s.waiting ∧ s'.ended = s.ended) :
    Sound l' s' where
  handles := handles
  owners := owners
  shared := shared
  youngSlots := youngSlots
  native i c hi := (native i c hi).elim (fun h' => (h.native i c h').mono hl) id
  thread := thread
  others t ht := by
    rw [hw.1, hw.2] at ht
    exact (h.others t ht).mono hl

/-- The tables of cells. -/
def State.tables (s : State) :=
  (s.slots, s.sharing, s.next, s.handles, s.thread.kept, s.thread.cells, s.waiting, s.ended)

/-- Soundness speaks only of the tables of cells. -/
theorem Sound.of_tables (h : Sound l s) (ht : s'.tables = s.tables) : Sound l s' := by
  simp only [State.tables, Prod.mk.injEq] at ht
  obtain ⟨hs, hsh, hn, hh, hk, hc, hw⟩ := ht
  have hl : Lasting s s' := .of_eq hn hs
  have htally : ∀ w, s'.tally w = s.tally w := fun w => by
    simp only [State.tally, Thread.tally, hk, hw, hh]
  refine h.next hl (fun id => ?_) (fun id => ?_) (fun id sh hid => ?_) (fun id v hid => ?_)
    (fun i c hi => .inl (hh ▸ hi)) ((h.thread.mono hl).congr (fun k => by rw [hk]) hc) hw
  · rw [htally, State.refcount, hsh]; exact h.handles id
  · rw [htally, hs, hsh]; exact h.owners id
  · rw [hs]; exact h.shared id sh (hsh ▸ hid)
  · rw [hn]; exact h.youngSlots id v (hs ▸ hid)

/-- Another value in a slot. -/
theorem Sound.revalued (h : Sound l s) (id : SlotId) (value : Option ObjectId) :
    Sound l (s.setValue id value) := by
  have hl : Lasting s (s.setValue id value) := .of_setValue rfl rfl
  have hs : ∀ i, ((s.setValue id value).slots.get? i).isSome = (s.slots.get? i).isSome := by
    intro i
    show ((s.slots.modify id _).get? i).isSome = _
    rw [Table.get?_modify]
    split
    · next hi => rw [Option.isSome_map, hi]
    · rfl
  refine h.next hl h.handles (fun i => ?_) (fun i sh hi => ?_) (fun i v hi => ?_)
    (fun i c hi => .inl hi) (h.thread.mono hl) ⟨rfl, rfl⟩
  · rw [hs]; exact h.owners i
  · rw [hs]; exact h.shared i sh hi
  · have h1 := hs i
    rw [hi, Option.isSome_some, eq_comm, Option.isSome_iff_exists] at h1
    obtain ⟨v', hv'⟩ := h1
    exact h.youngSlots i v' hv'

/-- Other flags beside the cells that there were. -/
theorem Sound.flagged {t : Table KeptId Kept} (h : Sound l s)
    (hk : ∀ k, (t.get? k).map Kept.cell = (s.thread.kept.get? k).map Kept.cell)
    (ht : ∀ w : Cell → Nat, (t.sum fun _ e => w e.cell) = s.thread.tally w) :
    Sound l (s.inThread ({ · with kept := t })) := by
  have htally : ∀ w, (s.inThread ({ · with kept := t })).tally w = s.tally w := fun w => by
    rw [State.tally, State.tally, ← ht w]
    rfl
  exact
    { handles := fun id => by rw [htally]; exact h.handles id
      owners := fun id => by rw [htally]; exact h.owners id
      shared := h.shared
      youngSlots := h.youngSlots
      native := fun i c hi => (h.native i c hi).mono (.of_eq rfl rfl)
      thread := Thread.Sound.congr (h.thread.mono (.of_eq rfl rfl)) hk rfl
      others := fun t ht => (h.others t ht).mono (.of_eq rfl rfl) }

theorem Sound.noted {k : KeptId} {f : Kept → Kept} (h : Sound l s)
    (hf : ∀ e, s.thread.kept.get? k = some e → (f e).cell = e.cell) : Sound l (s.flag k f) := by
  refine Sound.of_tables (h.flagged (fun k => ?_) fun w => ?_) rfl
  · rw [Table.get?_modify]
    split
    · next hi =>
      subst hi
      rw [Option.map_map]
      cases hk : s.thread.kept.get? k with
      | none => rfl
      | some e => exact congrArg some (hf e hk)
    · rfl
  · exact Table.sum_modify _ _ _ _ fun e he => congrArg w (hf e he)

/-! ## Moves of cells -/

section Tally

variable (w : Cell → Nat) {n m : Nat} (hw : s'.waiting = s.waiting) (he : s'.ended = s.ended)

include hw he

theorem tally_of_kept (hh : s'.handles = s.handles)
    (hk : s'.thread.tally w + n = s.thread.tally w + m) : s'.tally w + n = s.tally w + m := by
  unfold State.tally
  rw [hw, he, hh]
  omega

theorem tally_of_handles (hk : s'.thread.kept = s.thread.kept)
    (hh : (s'.handles.sum fun _ => w) + n = (s.handles.sum fun _ => w) + m) :
    s'.tally w + n = s.tally w + m := by
  unfold State.tally Thread.tally
  rw [hw, he, hk]
  omega

end Tally

theorem Sound.made {v : Slot} {f : Form} (h : Sound l s) :
    Sound (.own f s.next :: l) { s with slots := s.slots.insert s.next v, next := s.next + 1 } := by
  have hno : s.slots.get? s.next = none := by
    cases hv : s.slots.get? s.next with
    | none => rfl
    | some v => exact absurd (h.youngSlots _ v hv) (lt_irrefl _)
  have hnot : s.sharing.get? s.next = none := by
    cases hv : s.sharing.get? s.next with
    | none => rfl
    | some sh => simpa [hno] using (h.shared _ sh hv).2
  have hl : Lasting s { s with slots := s.slots.insert s.next v, next := s.next + 1 } :=
    ⟨Nat.le_succ _, fun _ v' hid hv => ⟨v', (Table.get?_insert_ne _ _ hid.ne).symm.trans hv,
      rfl, rfl, rfl⟩⟩
  refine h.next hl (fun id => ?_) (fun id => ?_) (fun id sh hid => ?_) (fun id v hid => ?_)
    (fun i c hi => .inl hi) (h.thread.mono hl) ⟨rfl, rfl⟩
  · rw [inArms_cons, Cell.handles_own, Nat.zero_add]
    exact h.handles id
  · have ho := h.owners id
    rw [inArms_cons, Cell.owns_own, Table.get?_insert]
    change s.tally _ + _ = _
    by_cases hid : id = s.next
    · subst hid
      simp only [hno, Option.isSome_none, Bool.false_eq_true, false_and, if_false] at ho
      simp only [if_true, Option.isSome_some, hnot, and_self]
      omega
    · simp only [hid, Ne.symm hid, if_false, Nat.zero_add]
      exact ho
  · refine ⟨(h.shared id sh hid).1, ?_⟩
    rw [Table.get?_insert]
    split
    · rfl
    · exact (h.shared id sh hid).2
  · rw [Table.get?_insert] at hid
    split at hid
    · next hi => rw [hi]; exact Nat.lt_succ_self _
    · exact (h.youngSlots id v hid).trans (Nat.lt_succ_self _)

theorem Sound.reshape {f f' : Form} {id : SlotId} (h : Sound l s) (hi : .own f id ∈ l) :
    Sound (.own f' id :: l.erase (.own f id)) s :=
  { h with
    handles := fun i => by rw [← h.handles i, inArms_erase hi (Cell.handles i)]; rfl
    owners := fun i => by rw [← h.owners i, inArms_erase hi (Cell.owns i)]; rfl }

theorem Sound.ended {f : Form} {id : SlotId} (h : Sound l s) (hi : .own f id ∈ l) :
    Sound (l.erase (.own f id)) { s with slots := s.slots.erase id } := by
  have hl : Lasting s { s with slots := s.slots.erase id } := .of_erase rfl rfl
  have hnot := h.not_shared_of_arms hi
  obtain ⟨v, hv⟩ := h.slot_of_arms hi
  refine h.next hl (fun i => ?_) (fun i => ?_) (fun i sh hid => ?_) (fun i v hid => ?_)
    (fun i c hi => .inl hi) (h.thread.mono hl) ⟨rfl, rfl⟩
  · have h1 := inArms_erase hi (Cell.handles i)
    rw [Cell.handles_own, Nat.zero_add] at h1
    rw [← h1]
    exact h.handles i
  · have h1 := inArms_erase hi (Cell.owns i)
    have ho := h.owners i
    rw [Cell.owns_own] at h1
    rw [Table.get?_erase]
    change s.tally _ + _ = _
    by_cases hid : i = id
    · subst hid
      rw [if_pos ⟨by rw [show (Cell.own f i).slot = i from rfl] at hv; simp [hv], hnot⟩] at ho
      simp only [if_true, Option.isSome_none, Bool.false_eq_true, false_and, if_false] at h1 ⊢
      omega
    · simp only [hid, Ne.symm hid, if_false, Nat.zero_add] at h1 ⊢
      rw [← h1]
      exact ho
  · refine ⟨(h.shared i sh hid).1, ?_⟩
    rw [Table.get?_erase, if_neg (fun hi' => ?_)]
    · exact (h.shared i sh hid).2
    · rw [hi', hnot] at hid
      cases hid
  · rw [Table.get?_erase] at hid
    split at hid
    · cases hid
    · exact h.youngSlots i v hid

/-- What is left to show when a move changed how a cell is shared. -/
theorem Sound.sharing {t : Table SlotId Sharing} (h : Sound l s)
    (handles : ∀ id, s.tally (Cell.handles id) + inArms (Cell.handles id) l' =
      State.refcount { s with sharing := t } id)
    (owners : ∀ id, s.tally (Cell.owns id) + inArms (Cell.owns id) l' =
      if (s.slots.get? id).isSome ∧ t.get? id = none then 1 else 0)
    (shared : ∀ id sh, t.get? id = some sh → sh.handles ≠ 0 ∧ (s.slots.get? id).isSome) :
    Sound l' { s with sharing := t } :=
  have hl : Lasting s { s with sharing := t } := .of_eq rfl rfl
  h.next hl handles owners shared h.youngSlots (fun _ _ hi => .inl hi) (h.thread.mono hl)
    ⟨rfl, rfl⟩

/-- Other locks beside the handles that there were. -/
theorem Sound.locked {t : Table SlotId Sharing} (h : Sound l s)
    (hsh : ∀ id, (t.get? id).map Sharing.handles = (s.sharing.get? id).map Sharing.handles) :
    Sound l { s with sharing := t } := by
  refine h.sharing (fun id => ?_) (fun id => ?_) (fun id sh hid => ?_)
  · have h1 := hsh id
    rw [h.handles id, State.refcount, State.refcount]
    cases h2 : s.sharing.get? id <;> cases h3 : t.get? id <;> simp_all
  · have hnone : s.sharing.get? id = none ↔ t.get? id = none := by
      rw [← Option.map_eq_none_iff (f := Sharing.handles), ← hsh, Option.map_eq_none_iff]
    rw [h.owners id]
    simp only [hnone]
  · have h1 := hsh id
    rw [hid, Option.map_some, eq_comm, Option.map_eq_some_iff] at h1
    obtain ⟨sh', hid', hn'⟩ := h1
    rw [← hn']
    exact h.shared id sh' hid'

theorem refcount_insert {id : SlotId} {sh : Sharing} (hs : s'.sharing = s.sharing.insert id sh)
    (i : SlotId) : s'.refcount i = if i = id then sh.handles else s.refcount i := by
  rw [State.refcount, hs, Table.get?_insert]
  split
  · rfl
  · rfl

theorem refcount_modify {id : SlotId} {sh : Sharing} {f : Sharing → Sharing}
    (hsh : s.sharing.get? id = some sh) (hs : s'.sharing = s.sharing.modify id f)
    (i : SlotId) : s'.refcount i = if i = id then (f sh).handles else s.refcount i := by
  rw [State.refcount, hs, Table.get?_modify, hsh]
  split
  · rfl
  · rfl

theorem refcount_erase {id : SlotId} {t : Table SlotId Sharing}
    (ht : ∀ i, i ≠ id → t.get? i = s.sharing.get? i) (hs : s'.sharing = t.erase id)
    (i : SlotId) : s'.refcount i = if i = id then 0 else s.refcount i := by
  rw [State.refcount, hs, Table.get?_erase]
  split
  · rfl
  · next hi => rw [ht i hi, State.refcount]

theorem Sound.share {f : Form} {id : SlotId} (h : Sound l s) (hi : .own f id ∈ l) :
    Sound (.handle id .locally :: l.erase (.own f id))
      { s with sharing := s.sharing.insert id { handles := 1 } } := by
  have hnot := h.not_shared_of_arms hi
  have hzero : s.refcount id = 0 := by rw [State.refcount, hnot]; rfl
  refine h.sharing (fun i => ?_) (fun i => ?_) (fun i sh hid => ?_)
  · have h1 := inArms_erase hi (Cell.handles i)
    have h2 := h.handles i
    rw [Cell.handles_own, Nat.zero_add] at h1
    rw [refcount_insert rfl, inArms_cons, Cell.handles_handle]
    by_cases hid : i = id
    · subst hid
      simp only [if_true]
      omega
    · simp only [hid, Ne.symm hid, if_false]
      omega
  · have h1 := inArms_erase hi (Cell.owns i)
    have h2 := h.owners i
    rw [Cell.owns_own] at h1
    rw [inArms_cons, Cell.owns_handle, Nat.zero_add, Table.get?_insert]
    by_cases hid : i = id
    · subst hid
      simp only [if_true, reduceCtorEq, and_false, if_false] at h1 ⊢
      split at h2 <;> omega
    · simp only [hid, Ne.symm hid, if_false, Nat.zero_add] at h1 ⊢
      rw [← h1]
      exact h2
  · rw [Table.get?_insert] at hid
    split at hid
    · next hi' =>
      cases hid
      obtain ⟨v, hv⟩ := h.slot_of_arms hi
      exact ⟨one_ne_zero, by rw [hi']; exact Option.isSome_of_eq_some hv⟩
    · exact h.shared i sh hid

/-- A handle more, or a handle less that was not the last. -/
theorem Sound.recount {id : SlotId} {sh : Sharing} {f : Sharing → Sharing} (h : Sound l s)
    (hs : s.sharing.get? id = some sh)
    (hh : ∀ i, inArms (Cell.handles i) l' + (if i = id then sh.handles else 0) =
      inArms (Cell.handles i) l + if i = id then (f sh).handles else 0)
    (ho : ∀ i, inArms (Cell.owns i) l' = inArms (Cell.owns i) l) (hf : (f sh).handles ≠ 0) :
    Sound l' { s with sharing := s.sharing.modify id f } := by
  have hr := (h.refcount_pos hs).1
  refine h.sharing (fun i => ?_) (fun i => ?_) (fun i sh' hid => ?_)
  · have h1 := h.handles i
    have h2 := hh i
    rw [refcount_modify hs rfl]
    by_cases hid : i = id
    · subst hid
      simp only [if_true] at h2 ⊢
      omega
    · simp only [hid, if_false] at h2 ⊢
      omega
  · rw [ho, h.owners i, Table.get?_modify]
    by_cases hid : i = id
    · subst hid; simp [hs]
    · simp [hid]
  · rw [Table.get?_modify] at hid
    split at hid
    · next hi =>
      rw [hs] at hid
      cases hid
      exact ⟨hf, hi ▸ (h.shared id sh hs).2⟩
    · exact h.shared i sh' hid

theorem Sound.unshare {id : SlotId} {a : Access} {f : Form} {sh : Sharing} {t : Table SlotId Sharing}
    (h : Sound l s) (hi : .handle id a ∈ l) (hs : s.sharing.get? id = some sh)
    (hone : sh.handles = 1) (htab : ∀ i, i ≠ id → t.get? i = s.sharing.get? i) :
    Sound (.own f id :: l.erase (.handle id a)) { s with sharing := t.erase id } := by
  have hr := (h.refcount_pos hs).1
  obtain ⟨v, hv⟩ := h.slot_of_arms hi
  refine h.sharing (fun i => ?_) (fun i => ?_) (fun i sh' hid => ?_)
  · have h1 := inArms_erase hi (Cell.handles i)
    have h2 := h.handles i
    rw [Cell.handles_handle] at h1
    rw [refcount_erase htab rfl, inArms_cons, Cell.handles_own, Nat.zero_add]
    by_cases hid : i = id
    · subst hid
      simp only [if_true] at h1 ⊢
      omega
    · simp only [hid, Ne.symm hid, if_false] at h1 ⊢
      omega
  · have h1 := inArms_erase hi (Cell.owns i)
    have h2 := h.owners i
    rw [Cell.owns_handle, Nat.zero_add] at h1
    rw [inArms_cons, Cell.owns_own, Table.get?_erase]
    by_cases hid : i = id
    · subst hid
      rw [if_neg (by simp [hs])] at h2
      rw [if_pos rfl, if_pos ⟨Option.isSome_of_eq_some hv, if_pos rfl⟩]
      omega
    · simp only [hid, Ne.symm hid, if_false, Nat.zero_add, htab i hid]
      rw [← h1]
      exact h2
  · rw [Table.get?_erase] at hid
    split at hid
    · cases hid
    · next hi' => exact h.shared i sh' (htab i hi' ▸ hid)

/-- What is left to show when a cell moved between the arms and a table of cells. -/
theorem Sound.move (h : Sound l s) (hl : Lasting s s')
    (hm : ∀ w, s'.tally w + inArms w l' = s.tally w + inArms w l)
    (thread : s'.thread.Sound s')
    (native : ∀ i c, s'.handles.get? i = some c → s.handles.get? i = some c ∨ c.SoundNative s' i)
    (hs : (s'.slots, s'.sharing, s'.waiting, s'.ended) =
      (s.slots, s.sharing, s.waiting, s.ended)) :
    Sound l' s' := by
  simp only [Prod.mk.injEq] at hs
  obtain ⟨hs, hsh, hw⟩ := hs
  refine h.next hl (fun id => ?_) (fun id => ?_) (fun id sh hid => ?_) (fun id v hid => ?_)
    native thread hw
  · rw [hm, State.refcount, hsh]; exact h.handles id
  · rw [hm, hs, hsh]; exact h.owners id
  · rw [hsh] at hid; rw [hs]; exact h.shared id sh hid
  · rw [hs] at hid
    exact (h.youngSlots id v hid).trans_le hl.next

theorem Sound.keep {key : String} {c : Cell} {e : Entry} (h : Sound l s) (hc : c ∈ l)
    (hr : ∀ v, s.slots.get? c.slot = some v → c.Fits v) :
    Sound (l.erase c) (({ s with next := s.next + 1 }.inThread fun t =>
      { t with cells := t.cells.insert key s.next, kept := t.kept.insert s.next { cell := c } }).note
        e) := by
  have hno : s.thread.kept.get? s.next = none := by
    cases hk : s.thread.kept.get? s.next with
    | none => rfl
    | some e => exact absurd (h.thread.young _ e hk) (lt_irrefl _)
  have hkeys : ∀ key, s.thread.cells.get? key ≠ some s.next := fun key hkey => by
    simpa [hno] using h.thread.keyed key _ hkey
  refine h.move ⟨Nat.le_succ _, fun _ v' _ h => ⟨v', h, rfl, rfl, rfl⟩⟩ (fun w => ?_) ?_
    (fun i c hi => .inl hi) rfl
  · have h1 := Table.sum_insert_fresh hno { cell := c } fun _ e => w e.cell
    have h2 := inArms_erase hc w
    refine tally_of_kept w rfl rfl rfl ?_
    show (s.thread.kept.insert s.next { cell := c }).sum (fun _ e => w e.cell) + _ = _
    rw [h1, h2, Thread.tally]
    show w c + _ + _ = _
    omega
  · refine ⟨fun k e' hk => ?_, fun k e' hk => ?_, fun k e' v hk hv => ?_, fun key' k hk => ?_,
      fun key₁ key₂ k h₁ h₂ => ?_⟩
    · replace hk := (Table.get?_insert _ _ _ _).symm.trans hk
      split at hk
      · next hi => rw [hi]; exact Nat.lt_succ_self _
      · exact (h.thread.young k e' hk).trans (Nat.lt_succ_self _)
    · replace hk := (Table.get?_insert _ _ _ _).symm.trans hk
      split at hk
      · cases hk; exact (h.placed_of_arms hc).trans (Nat.lt_succ_self _)
      · exact (h.thread.placed k e' hk).trans (Nat.lt_succ_self _)
    · replace hk := (Table.get?_insert _ _ _ _).symm.trans hk
      split at hk
      · cases hk; exact hr v hv
      · exact h.thread.fits k e' v hk hv
    · replace hk := (Table.get?_insert _ _ _ _).symm.trans hk
      show ((s.thread.kept.insert s.next _).get? k).isSome
      rw [Table.get?_insert]
      split
      · rfl
      · next hne =>
        split at hk
        · cases hk; exact absurd rfl hne
        · exact h.thread.keyed key' k hk
    · replace h₁ := (Table.get?_insert _ _ _ _).symm.trans h₁
      replace h₂ := (Table.get?_insert _ _ _ _).symm.trans h₂
      split at h₁ <;> split at h₂
      · next e₁ e₂ => rw [e₁, e₂]
      · cases h₁; exact absurd h₂ (hkeys _)
      · cases h₂; exact absurd h₁ (hkeys _)
      · exact h.thread.distinct key₁ key₂ k h₁ h₂

theorem Sound.unkeep {k : KeptId} {e : Kept} {cells : Table String KeptId} (h : Sound l s)
    (hk : s.thread.kept.get? k = some e)
    (hc : ∀ key k', cells.get? key = some k' → s.thread.cells.get? key = some k' ∧ k' ≠ k) :
    Sound (e.cell :: l)
      (s.inThread fun t => { t with cells := cells, kept := t.kept.erase k }) := by
  refine h.move (.of_eq rfl rfl) (fun w => ?_) ?_ (fun i c hi => .inl hi) rfl
  · have h1 := Table.sum_erase_of_get? hk fun _ e => w e.cell
    refine tally_of_kept w rfl rfl rfl ?_
    show (s.thread.kept.erase k).sum (fun _ e => w e.cell) + _ = _
    rw [Thread.tally, h1, inArms_cons]
    omega
  · have hback : ∀ k' e', (s.thread.kept.erase k).get? k' = some e' →
        s.thread.kept.get? k' = some e' := fun k' e' h' => by
      rw [Table.get?_erase] at h'
      split at h'
      · cases h'
      · exact h'
    refine ⟨fun k' e' h' => h.thread.young k' e' (hback k' e' h'),
      fun k' e' h' => h.thread.placed k' e' (hback k' e' h'),
      fun k' e' v h' hv => h.thread.fits k' e' v (hback k' e' h') hv, fun key k' h' => ?_,
      fun key₁ key₂ k' h₁ h₂ => h.thread.distinct key₁ key₂ k' (hc key₁ k' h₁).1 (hc key₂ k' h₂).1⟩
    obtain ⟨hkey, hne⟩ := hc key k' h'
    show ((s.thread.kept.erase k).get? k').isSome
    rw [Table.get?_erase_ne _ hne]
    exact h.thread.keyed key k' hkey

theorem Sound.give {c : Cell} {e : Entry} (h : Sound l s) (hc : c ∈ l)
    (hh : ∃ id a, c = .handle id a)
    (hr : ∀ v, s.slots.get? c.slot = some v → v.realm = .native) :
    Sound (l.erase c)
      ({ s with next := s.next + 1, handles := s.handles.insert s.next c }.note e) := by
  have hno : s.handles.get? s.next = none := by
    cases hk : s.handles.get? s.next with
    | none => rfl
    | some c => exact absurd (h.native _ c hk).young (lt_irrefl _)
  have hl : Lasting s ({ s with next := s.next + 1, handles := s.handles.insert s.next c }.note e) :=
    ⟨Nat.le_succ _, fun _ v' _ h => ⟨v', h, rfl, rfl, rfl⟩⟩
  refine h.move hl (fun w => ?_) ((h.thread.mono hl).congr (fun _ => rfl) rfl) (fun i c' hi => ?_)
    rfl
  · have h1 := Table.sum_insert_fresh hno c fun _ => w
    have h2 := inArms_erase hc w
    refine tally_of_handles w rfl rfl rfl ?_
    show (s.handles.insert s.next c).sum (fun _ => w) + _ = _
    rw [h1, h2]
    omega
  · replace hi := (Table.get?_insert _ _ _ _).symm.trans hi
    split at hi
    · next hid =>
      cases hi
      exact .inr ⟨hid ▸ Nat.lt_succ_self _, hh, (h.placed_of_arms hc).trans (Nat.lt_succ_self _), hr⟩
    · exact .inl hi

theorem Sound.giveBack {i : HandleId} {c : Cell} {keys : Table String HandleId} (h : Sound l s)
    (hi : s.handles.get? i = some c) :
    Sound (c :: l) { s with handles := s.handles.erase i, handleKeys := keys } := by
  have hl : Lasting s { s with handles := s.handles.erase i, handleKeys := keys } := .of_eq rfl rfl
  refine h.move hl (fun w => ?_) ((h.thread.mono hl).congr (fun _ => rfl) rfl) (fun j c' hj => ?_)
    rfl
  · have h1 := Table.sum_erase_of_get? hi fun _ => w
    refine tally_of_handles w rfl rfl rfl ?_
    show (s.handles.erase i).sum (fun _ => w) + _ = _
    rw [h1, inArms_cons]
    omega
  · replace hj := (Table.get?_erase _ _ _).symm.trans hj
    split at hj
    · cases hj
    · exact .inl hj

/-! ## Every move -/

/-- **Moves keep the tables of cells in agreement.** -/
theorem Move.sound (m : Move l s ds l' s') (h : Sound l s) : Sound l' s' := by
  have hl := m.lasting
  cases m with
  | aside ha =>
    refine h.of_tables ?_
    simp only [State.tables, ha.slots, ha.sharing, ha.next, ha.handles, ha.kept, ha.cells,
      ha.waiting, ha.ended]
  | tuned | counted | allocated | gained | gainedNative | refusedGain | released | releasedNative | lost
  | lostNative | adopted | disowned | taken | handed => exact h.of_tables rfl
  | @bound id _ o | @boundFull id _ o => exact (h.revalued id (some o)).of_tables rfl
  | @emptied id | @emptiedFull id => exact (h.revalued id none).of_tables rfl
  | made => exact Sound.of_tables h.made rfl
  | @madeShared v p =>
    have hshare := (h.made (v := v) (f := .plain)).share List.mem_cons_self
    rw [List.erase_cons_head] at hshare
    exact hshare.of_tables rfl
  | reshaped form' hi => exact h.reshape hi
  | ended hi | endedBound hi | endedFull hi => exact (h.ended hi).of_tables rfl
  | @retained id sh v hs hv =>
    refine Sound.of_tables (h.recount (f := fun c => { c with handles := c.handles + 1 }) hs
      (fun i => ?_) (fun i => by simp) (Nat.succ_ne_zero _)) rfl
    by_cases hid : i = id
    · subst hid; simp; omega
    · simp [hid, Ne.symm hid]
  | @dropped id a sh v aloud hi hs hv hn =>
    have h1 := (h.refcount_pos hs).2
    have hf : sh.handles - 1 ≠ 0 := by omega
    refine Sound.of_tables (h.recount (f := fun c => { c with handles := c.handles - 1 }) hs
      (fun i => ?_) (fun i => ?_) hf) rfl
    · have h2 := inArms_erase hi (Cell.handles i)
      rw [Cell.handles_handle] at h2
      by_cases hid : i = id
      · subst hid; simp only [if_true] at h2 ⊢; omega
      · simp only [hid, Ne.symm hid, if_false] at h2 ⊢; omega
    · have h2 := inArms_erase hi (Cell.owns i)
      rw [Cell.owns_handle] at h2
      omega
  | freed aloud hi hs hn =>
    exact (h.unshare hi hs hn fun i hne => Table.get?_modify_ne _ _ hne).of_tables rfl
  | freedFull aloud hi hs hn =>
    exact (h.unshare hi hs hn fun i hne => Table.get?_modify_ne _ _ hne).of_tables rfl
  | locked i f hf =>
    refine Sound.of_tables (h.locked fun id => ?_) rfl
    rw [Table.get?_modify]
    split
    · next hi =>
      subst hi
      rw [Option.map_map]
      cases hs : s.sharing.get? id with
      | none => rfl
      | some sh => exact congrArg some (hf sh hs)
    · rfl
  | kept key hi hr => exact h.keep hi hr
  | unkept hk hu hn => exact h.unkeep hk fun key k' hkey => ⟨hkey, fun he => hn key (he ▸ hkey)⟩
  | parted hc hk hu =>
    refine h.unkeep hk fun key k' hkey => ?_
    rw [Table.get?_erase] at hkey
    split at hkey
    · cases hkey
    · next hne => exact ⟨hkey, fun he => hne (h.thread.distinct _ _ _ (he ▸ hkey) hc)⟩
  | flagged f hf => exact h.noted fun e he => (hf e he).cell
  | given hi hr => exact h.give hi ⟨_, _, rfl⟩ hr
  | givenBack key hh => exact h.giveBack hh

theorem Moves.sound (m : Moves l s ds l' s') (h : Sound l s) : Sound l' s' := by
  induction m with
  | refl => exact h
  | cons hm _ ih => exact ih (hm.sound h)

/-- The process starts without cells. -/
theorem Sound.start (build : Build) (profiling : Bool)
    (environment : Table String Text.Utf8.Bytes) (file : FileContent) :
    Sound [] (.start build profiling environment file) where
  handles _ := rfl
  owners _ := rfl
  shared _ _ h := by cases h
  youngSlots _ _ h := by cases h
  native _ _ h := by cases h
  thread :=
    { young := fun _ _ h => nomatch h
      placed := fun _ _ h => nomatch h
      fits := fun _ _ _ h _ => nomatch h
      keyed := fun _ _ h => nomatch h
      distinct := fun _ _ _ h _ => nomatch h }
  others _ h := by cases h

end ClaimCells
