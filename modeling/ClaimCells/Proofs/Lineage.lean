import ClaimCells.Proofs.Runs

/-!
# Where handles come from

Every kept cell and every native handle has a number, and the journal tells which handle was
retained from which. Two handles lead to the same cell if and only if they go back to the same
first handle, whatever became of that one. The first handle speaks of its variable as the
activation that owns it, and every retained one as a nested activation.

Main result: `State.Descended`, which every state that is reached is.
-/

namespace ClaimCells

variable {s s' : State} {l l' : List Cell} {ds : List Deed} {c p : Cell} {k : Nat} {id : SlotId}
  {a : Access}

/-- The number of the first handle of a line. -/
def Journal.origin : Journal → Nat → Nat
  | [], k => k
  | .opened i (some parent) :: j, k => if k = i then origin j parent else origin j k
  | .opened i none :: j, k => if k = i then i else origin j k
  | _ :: j, k => origin j k

/-- The number of the handle that a handle was retained from. -/
def Journal.parent? : Journal → Nat → Option Nat
  | [], _ => none
  | .opened i parent :: j, k => if k = i then parent else parent? j k
  | _ :: j, k => parent? j k

/-- A cell that a thread keeps, or that native code has, under a number. -/
def State.Live (s : State) (k : Nat) (c : Cell) : Prop :=
  (∃ t ∈ s.thread :: (s.waiting ++ s.ended), ∃ e, t.kept.get? k = some e ∧ e.cell = c) ∨
    s.handles.get? k = some c

/-- Two handles lead to one cell just when they go back to one handle, and only that one speaks as
the activation that owns the variable. -/
structure State.Descended (s : State) : Prop where
  young : ∀ k c, s.Live k c → s.journal.origin k < s.next
  related : ∀ k id a k' id' a', s.Live k (.handle id a) → s.Live k' (.handle id' a') →
    (id = id' ↔ s.journal.origin k = s.journal.origin k')
  sided : ∀ k id a, s.Live k (.handle id a) → (a = .locally ↔ s.journal.parent? k = none)

/-! ## Live cells -/

theorem le_tally_live (h : s.Live k c) (w : Cell → Nat) : w c ≤ s.tally w := by
  obtain ⟨t, ht, e, he, rfl⟩ | hi := h
  · rcases List.mem_cons.1 ht with rfl | ht
    · exact le_tally_kept he w
    · have h1 := Table.le_sum he fun _ e => w e.cell
      have h2 := List.le_sum_of_mem (List.mem_map_of_mem (f := Thread.tally w) ht)
      unfold State.tally
      unfold Thread.tally at *
      omega
  · exact le_tally_handle hi w

theorem Sound.live_young (hs : Sound l s) (h : s.Live k c) : k < s.next := by
  obtain ⟨t, ht, e, he, -⟩ | hi := h
  · rcases List.mem_cons.1 ht with rfl | ht
    · exact hs.thread.young k e he
    · exact (hs.others t ht).young k e he
  · exact (hs.native k c hi).young

/-- A live cell with the slot of a handle in the arms is a handle. -/
theorem Sound.handle_of_live (hs : Sound l s) (hl : .handle id a ∈ l) (h : s.Live k p)
    (hp : p.slot = id) : ∃ a', p = .handle id a' := by
  cases p with
  | handle i a' => exact ⟨a', by rw [← hp]; rfl⟩
  | own form i =>
    obtain ⟨sh, hsh⟩ := hs.sharing_of_arms hl
    have h1 := hs.owners id
    have h2 := le_tally_live h (Cell.owns id)
    rw [hsh, if_neg fun hc => nomatch hc.2] at h1
    rw [Cell.owns_own, if_pos (show i = id from hp)] at h2
    omega

/-! ## Every move -/

/-- Moves that give no cell a number. -/
theorem State.Descended.fewer (h : s.Descended) (hn : s.next ≤ s'.next)
    (hj : ∀ k, s'.journal.origin k = s.journal.origin k ∧
      s'.journal.parent? k = s.journal.parent? k)
    (hl : ∀ k c, s'.Live k c → s.Live k c) : s'.Descended where
  young k c hk := by
    rw [(hj k).1]
    exact (h.young k c (hl k c hk)).trans_le hn
  related k id a k' id' a' hk hk' := by
    rw [(hj k).1, (hj k').1]
    exact h.related k id a k' id' a' (hl _ _ hk) (hl _ _ hk')
  sided k id a hk := by
    rw [(hj k).2]
    exact h.sided k id a (hl _ _ hk)

theorem State.Live.of_kept (h : s'.Live k c)
    (ht : (s'.waiting, s'.ended, s'.handles) = (s.waiting, s.ended, s.handles))
    (hk : ∀ k e, s'.thread.kept.get? k = some e → ∃ e', s.thread.kept.get? k = some e' ∧
      e'.cell = e.cell) : s.Live k c := by
  simp only [Prod.mk.injEq] at ht
  obtain ⟨hw, he, hh⟩ := ht
  obtain ⟨t, ht, e, hek, rfl⟩ | hi := h
  · rw [hw, he] at ht
    rcases List.mem_cons.1 ht with rfl | ht
    · obtain ⟨e', he', hc⟩ := hk k e hek
      exact .inl ⟨s.thread, List.mem_cons_self, e', he', hc⟩
    · exact .inl ⟨t, List.mem_cons_of_mem _ ht, e, hek, rfl⟩
  · exact .inr (hh ▸ hi)

/-- A cell in the arms is given a number, and its parent. -/
theorem State.Descended.opened {parent : Option Nat} {cell? : Nat → Option Cell}
    (h : s.Descended) (hs : Sound l s) (hc : c ∈ l) (hd : Descends s cell? parent c)
    (hcell : ∀ k p, cell? k = some p → s.Live k p)
    (hj : s'.journal = .opened s.next parent :: s.journal) (hn : s'.next = s.next + 1)
    (hl : ∀ k c', s'.Live k c' → s.Live k c' ∨ k = s.next ∧ c' = c) : s'.Descended := by
  have hold : ∀ k c', s.Live k c' → s'.journal.origin k = s.journal.origin k ∧
      s'.journal.parent? k = s.journal.parent? k := fun k c' hk => by
    have hne := (hs.live_young hk).ne
    rw [hj]
    cases parent <;> exact ⟨if_neg hne, if_neg hne⟩
  -- the new handle against one that was there
  have hnew : s'.journal.origin s.next < s'.next ∧ ∀ id a k' id' a', c = .handle id a →
      s.Live k' (.handle id' a') → (id = id' ↔ s'.journal.origin s.next = s.journal.origin k') := by
    cases parent with
    | some i =>
      obtain ⟨-, q, hq, hslot⟩ := hd
      have horigin : s'.journal.origin s.next = s.journal.origin i := by
        rw [hj]
        exact if_pos rfl
      have hlive := hcell i q hq
      rw [horigin, hn]
      refine ⟨(h.young i q hlive).trans (Nat.lt_succ_self _), ?_⟩
      rintro id a k' id' a' rfl hk'
      obtain ⟨a'', rfl⟩ := hs.handle_of_live hc hlive hslot
      exact h.related i id a'' k' id' a' hlive hk'
    | none =>
      have horigin : s'.journal.origin s.next = s.next := by
        rw [hj]
        exact if_pos rfl
      rw [horigin, hn]
      refine ⟨Nat.lt_succ_self _, ?_⟩
      rintro id a k' id' a' rfl hk'
      obtain ⟨-, sh, hsh, hone⟩ := hd id a rfl
      refine iff_of_false ?_ (h.young k' _ hk').ne'
      rintro rfl
      have h1 := hs.handles id
      have h2 := le_tally_live hk' (Cell.handles id)
      have h3 := le_inArms hc (Cell.handles id)
      rw [State.refcount, hsh, Option.elim_some, hone] at h1
      rw [Cell.handles_handle, if_pos rfl] at h2 h3
      omega
  have hside : ∀ id a, c = .handle id a → (a = .locally ↔ parent = none) := by
    rintro id a rfl
    cases parent with
    | some i => exact iff_of_false (by rw [show a = .free from hd.1]; simp) (by simp)
    | none => exact iff_of_true (hd id a rfl).1 rfl
  refine ⟨fun k c' hk => ?_, fun k id a k' id' a' hk hk' => ?_, fun k id a hk => ?_⟩
  · rcases hl k c' hk with hk | ⟨rfl, -⟩
    · rw [(hold k c' hk).1, hn]
      exact (h.young k c' hk).trans (Nat.lt_succ_self _)
    · exact hnew.1
  · rcases hl _ _ hk with hk | ⟨rfl, hcell⟩ <;> rcases hl _ _ hk' with hk' | ⟨rfl, hcell'⟩
    · rw [(hold _ _ hk).1, (hold _ _ hk').1]
      exact h.related k id a k' id' a' hk hk'
    · rw [(hold _ _ hk).1, eq_comm, eq_comm (a := Journal.origin _ _)]
      exact hnew.2 id' a' k id a hcell'.symm hk
    · rw [(hold _ _ hk').1]
      exact hnew.2 id a k' id' a' hcell.symm hk'
    · cases hcell.trans hcell'.symm
      exact iff_of_true rfl rfl
  · rcases hl k _ hk with hk | ⟨rfl, hcell⟩
    · rw [(hold _ _ hk).2]
      exact h.sided k id a hk
    · rw [hj, Journal.parent?, if_pos rfl]
      exact hside id a hcell.symm

theorem origin_append {es j : Journal} (h : ∀ e ∈ es, ∀ i parent, e ≠ .opened i parent) (k : Nat) :
    Journal.origin (es ++ j) k = j.origin k ∧ Journal.parent? (es ++ j) k = j.parent? k := by
  induction es with
  | nil => exact ⟨rfl, rfl⟩
  | cons e es ih =>
    obtain ⟨h1, h2⟩ := ih fun e' he => h e' (List.mem_cons_of_mem _ he)
    rw [← h1, ← h2]
    have he := h e List.mem_cons_self
    cases e with
    | opened i parent => exact absurd rfl (he i parent)
    | _ => exact ⟨rfl, rfl⟩

theorem Move.descended (m : Move l s ds l' s') (hs : Sound l s) (h : s.Descended) :
    s'.Descended := by
  have hn := m.lasting.next
  cases m with
  | aside ha =>
    obtain ⟨es, hes, hidle⟩ := ha.journal
    refine h.fewer ha.next.ge (fun k => ?_) fun k c hk => hk.of_kept ?_ fun k e he =>
      ⟨e, ha.kept ▸ he, rfl⟩
    · rw [hes]
      refine origin_append (fun e he i parent hop => ?_) k
      have := hidle e he
      rw [hop] at this
      cases this
    · rw [ha.waiting, ha.ended, ha.handles]
  | @kept key c parent hc hr hd =>
    refine h.opened hs hc hd (fun k p hp => ?_) rfl rfl fun k c' hk => ?_
    · obtain ⟨e, he, rfl⟩ := Option.map_eq_some_iff.1 hp
      exact .inl ⟨s.thread, List.mem_cons_self, e, he, rfl⟩
    · obtain ⟨t, ht, e, he, rfl⟩ | hi := hk
      · rcases List.mem_cons.1 ht with rfl | ht
        · replace he := (Table.get?_insert _ _ _ _).symm.trans he
          split at he
          · next hkn =>
            cases he
            exact .inr ⟨hkn, rfl⟩
          · exact .inl (.inl ⟨s.thread, List.mem_cons_self, e, he, rfl⟩)
        · exact .inl (.inl ⟨t, List.mem_cons_of_mem _ ht, e, he, rfl⟩)
      · exact .inl (.inr hi)
  | given hc hr hd =>
    refine h.opened hs hc hd (fun k p hp => .inr hp) rfl rfl fun k c' hk => ?_
    obtain hk | hi := hk
    · exact .inl (.inl hk)
    · replace hi := (Table.get?_insert _ _ _ _).symm.trans hi
      split at hi
      · next hkn =>
        cases hi
        exact .inr ⟨hkn, rfl⟩
      · exact .inl (.inr hi)
  | unkept | parted =>
    refine h.fewer hn (fun _ => ⟨rfl, rfl⟩) fun k c hk => hk.of_kept rfl fun k e he => ⟨e, ?_, rfl⟩
    replace he := (Table.get?_erase _ _ _).symm.trans he
    split at he
    · cases he
    · exact he
  | @flagged i f hf =>
    refine h.fewer hn (fun _ => ⟨rfl, rfl⟩) fun k c hk => hk.of_kept rfl fun k e he => ?_
    replace he := (Table.get?_modify _ _ _ _).symm.trans he
    split at he
    · next hki =>
      obtain ⟨e', he', rfl⟩ := Option.map_eq_some_iff.1 he
      exact ⟨e', hki ▸ he', (hf e' he').cell.symm⟩
    · exact ⟨e, he, rfl⟩
  | givenBack =>
    refine h.fewer hn (fun _ => ⟨rfl, rfl⟩) fun k c hk => ?_
    obtain hk | hi := hk
    · exact .inl hk
    · replace hi := (Table.get?_erase _ _ _).symm.trans hi
      split at hi
      · cases hi
      · exact .inr hi
  | dropped aloud | freed aloud | freedFull aloud =>
    cases aloud <;>
      exact h.fewer hn (fun _ => ⟨rfl, rfl⟩) fun k c hk => hk.of_kept rfl fun k e he => ⟨e, he, rfl⟩
  | _ =>
    exact h.fewer hn (fun _ => ⟨rfl, rfl⟩) fun k c hk => hk.of_kept rfl fun k e he => ⟨e, he, rfl⟩

theorem Stable.descended : Stable State.Descended where
  move hs m h := m.descended hs h
  startThread {s} h := by
    refine h.fewer (Nat.le_refl _) (fun _ => ⟨rfl, rfl⟩) fun k c hk => ?_
    obtain ⟨t, ht, e, he, rfl⟩ | hi := hk
    · rcases List.mem_cons.1 ht with rfl | ht
      · cases he
      · exact .inl ⟨t, ht, e, he, rfl⟩
    · exact .inr hi
  endThread {s s'} _ hw h := by
    refine h.fewer (Nat.le_refl _) (fun _ => ⟨rfl, rfl⟩) fun k c hk => ?_
    obtain ⟨t, ht, e, he, rfl⟩ | hi := hk
    · refine .inl ⟨t, ?_, e, he, rfl⟩
      rw [hw]
      simp only [State.endThread, List.mem_cons, List.mem_append] at ht ⊢
      tauto
    · exact .inr hi

theorem State.Descended.start (build : Build) (profiling : Bool)
    (environment : Table String Text.Utf8.Bytes) (file : FileContent) :
    (State.start build profiling environment file).Descended := by
  have hnone : ∀ k c, ¬ (State.start build profiling environment file).Live k c := by
    rintro k c (⟨t, ht, e, he, -⟩ | hi)
    · rw [List.mem_singleton.1 ht] at he
      cases he
    · cases hi
  exact ⟨fun k c h => absurd h (hnone k c), fun k id a _ _ _ h => absurd h (hnone k _),
    fun k id a h => absurd h (hnone k _)⟩

end ClaimCells
