import ClaimCells.Proofs.Handles

/-!
# How long a shared cell lives

A shared cell lives as long as one of its handles does. While it lives its count is the number of
its handles, of all threads and in native code; the operation that gives up the last one ends it,
whichever handle that is, and nothing else does.

Main result: `shared_cell_lifetime`.
-/

namespace ClaimCells

variable {α : Type} {s t : State} {l : List Cell} {ds : List Deed} {k : Nat} {c : Cell} {v : Slot}
  {id : SlotId} {a : Access} {sh : Sharing} {key : String} {n : Nat} {op : Op} {r : Reply}

/-! ## The tale of one cell -/

namespace Orderly

/-- What has handles was put behind one. -/
theorem shared_of_handles (h : Orderly ds) (hn : 1 ≤ handlesOf id ds) : .shared id ∈ ds := by
  induction ds with
  | nil => exact absurd hn (by simp [handlesOf])
  | cons d ds ih =>
    rw [handlesOf.eq_def] at hn
    have hdue := h.1
    cases d with
    | made | set | ended | handed => exact List.mem_cons_of_mem _ (ih h.2 hn)
    | shared i =>
      by_cases hi : id = i
      · rw [hi]
        exact List.mem_cons_self
      · exact List.mem_cons_of_mem _ (ih h.2 (by simpa [hi] using hn))
    | retained i =>
      refine List.mem_cons_of_mem _ (ih h.2 ?_)
      by_cases hi : id = i
      · exact hi ▸ hdue
      · simpa [hi] using hn
    | dropped i =>
      refine List.mem_cons_of_mem _ (ih h.2 ?_)
      by_cases hi : id = i
      · exact hi ▸ hdue
      · simpa [hi] using hn

/-- What was put behind a handle is of the shared kind. -/
theorem kind_of_shared (h : Orderly ds) (hm : .shared id ∈ ds) (hv : variableOf id ds = some v) :
    v.kind = .shared := by
  induction ds generalizing v with
  | nil => exact nomatch hm
  | cons d ds ih =>
    have hdue := h.1
    rw [variableOf.eq_def] at hv
    rcases List.mem_cons.1 hm with rfl | hm'
    · obtain ⟨v', ds', hkind, rfl⟩ := hdue
      simp only [variableOf, if_true, Option.some.injEq] at hv
      exact hv ▸ hkind
    · cases d with
      | made i v' =>
        by_cases hi : id = i
        · exact absurd (congrArg some hi) (hdue _ hm')
        · exact ih h.2 hm' (by simpa [hi] using hv)
      | set i value =>
        by_cases hi : id = i
        · obtain ⟨v', hv', rfl⟩ : ∃ v', variableOf id ds = some v' ∧ { v' with value } = v := by
            simpa [hi] using hv
          exact ih (v := v') h.2 hm' hv'
        · exact ih h.2 hm' (by simpa [hi] using hv)
      | ended i =>
        by_cases hi : id = i
        · simp [hi] at hv
        · exact ih h.2 hm' (by simpa [hi] using hv)
      | shared | retained | dropped | handed => exact ih h.2 hm' hv

/-- What was put behind a handle has one, or the last one was given up. -/
theorem handles_or_freed (h : Orderly ds) (hm : .shared id ∈ ds) :
    1 ≤ handlesOf id ds ∨ timesFreed id ds = 1 := by
  induction ds with
  | nil => exact nomatch hm
  | cons d ds ih =>
    rw [handlesOf.eq_def, timesFreed.eq_def]
    rcases List.mem_cons.1 hm with rfl | hm'
    · exact .inl (by simp)
    · replace ih := ih h.2 hm'
      cases d with
      | made | set | ended | handed => exact ih
      | shared i =>
        by_cases hi : id = i
        · exact .inl (by simp [hi])
        · simpa [hi] using ih
      | retained i =>
        by_cases hi : id = i
        · exact .inl (by simp [hi])
        · simpa [hi] using ih
      | dropped i =>
        by_cases hi : id = i
        · subst hi
          have hdue : 1 ≤ handlesOf id ds := h.1
          have h0 := (h.2.freed_once id).2 hdue
          simp only [if_true, true_and, h0]
          split <;> omega
        · simpa [hi] using ih

/-- What was put behind a handle has its slot, or that was ended. -/
theorem variable_or_ended (h : Orderly ds) (hm : .shared id ∈ ds) :
    (∃ v, variableOf id ds = some v) ∨ ds.count (.ended id) = 1 := by
  induction ds with
  | nil => exact nomatch hm
  | cons d ds ih =>
    have hdue := h.1
    rw [variableOf.eq_def, List.count_cons]
    rcases List.mem_cons.1 hm with rfl | hm'
    · obtain ⟨v, ds', -, rfl⟩ := hdue
      exact .inl ⟨v, by simp [variableOf]⟩
    · replace ih := ih h.2 hm'
      cases d with
      | made i v =>
        by_cases hi : id = i
        · exact .inl ⟨v, by simp [hi]⟩
        · simpa [hi] using ih
      | set i value =>
        by_cases hi : id = i
        · rcases ih with ⟨v, hv⟩ | hc
          · exact .inl ⟨{ v with value }, by simp [hi, hi ▸ hv]⟩
          · exact .inr (by simpa using hc)
        · simpa [hi] using ih
      | ended i =>
        by_cases hi : id = i
        · obtain ⟨⟨v, hv⟩, -⟩ := hdue
          exact .inr (by simp [hi, (h.2.ended_once i).2 v hv])
        · simpa [hi, Ne.symm hi] using ih
      | shared | retained | dropped | handed => simpa using ih

end Orderly

/-! ## The tale and the tables -/

/-- A total that is not zero counts a live cell. -/
theorem live_of_tally {w : Cell → Nat} (h : 0 < s.tally w) : ∃ k c, s.Live k c ∧ 0 < w c := by
  have hkept : ∀ t : Thread, 0 < t.tally w → ∃ k e, t.kept.get? k = some e ∧ 0 < w e.cell :=
    fun t ht => by
      obtain ⟨k, e, he, hw⟩ := Table.exists_of_sum_pos ht
      exact ⟨k, e, he, hw⟩
  unfold State.tally at h
  by_cases h1 : 0 < s.thread.tally w
  · obtain ⟨k, e, he, hw⟩ := hkept _ h1
    exact ⟨k, e.cell, .inl ⟨_, List.mem_cons_self, e, he, rfl⟩, hw⟩
  by_cases h2 : 0 < ((s.waiting ++ s.ended).map (Thread.tally w)).sum
  · obtain ⟨_, hx, hpos⟩ := List.sum_pos_iff_exists_pos_nat.1 h2
    obtain ⟨t, ht, rfl⟩ := List.mem_map.1 hx
    obtain ⟨k, e, he, hw⟩ := hkept t hpos
    exact ⟨k, e.cell, .inl ⟨t, List.mem_cons_of_mem _ ht, e, he, rfl⟩, hw⟩
  · obtain ⟨k, c, hc, hw⟩ := Table.exists_of_sum_pos (t := s.handles) (w := fun _ => w)
      (by omega)
    exact ⟨k, c, .inr hc, hw⟩

/-- A shared cell with handles: it has its slot, and was never freed. -/
structure State.Lives (s : State) (id : SlotId) : Prop where
  handles : 1 ≤ s.liveHandles id
  slot : ∃ v, s.slots.get? id = some v ∧ v.kind = .shared
  freed : timesFreed id s.journal.deeds = 0
  ended : s.journal.deeds.count (.ended id) = 0

/-- A shared cell without handles: it was freed, and its slot was ended with it. -/
structure State.Lived (s : State) (id : SlotId) : Prop where
  handles : s.liveHandles id = 0
  slot : s.slots.get? id = none
  freed : timesFreed id s.journal.deeds = 1
  ended : s.journal.deeds.count (.ended id) = 1

theorem Sound.liveHandles (hs : Sound [] s) (id : SlotId) : s.liveHandles id = s.refcount id :=
  hs.handles id

/-- A slot of the shared kind is shared. -/
theorem Sound.sharing_of_kind (hs : Sound [] s) (hv : s.slots.get? id = some v)
    (hk : v.kind = .shared) : ∃ sh, s.sharing.get? id = some sh := by
  cases hsh : s.sharing.get? id with
  | some sh => exact ⟨sh, rfl⟩
  | none =>
    have howned : s.tally (Cell.owns id) = 1 := by
      have h1 := hs.owners id
      rwa [hv, hsh, if_pos ⟨rfl, rfl⟩] at h1
    obtain ⟨k, c, ⟨t, ht, e, he, rfl⟩ | hc, hw⟩ := live_of_tally (howned ▸ Nat.one_pos)
    · have hts : t.Sound s := by
        rcases List.mem_cons.1 ht with rfl | ht
        · exact hs.thread
        · exact hs.others t ht
      cases hcell : e.cell with
      | handle i a => simp [hcell] at hw
      | own form i =>
        obtain rfl : i = id := by
          by_contra hi
          simp [hcell, hi] at hw
        exact absurd hk ((hts.fits k e v he (by rw [hcell]; exact hv)).unshared form i hcell)
    · obtain ⟨i, a, rfl⟩ := (hs.native k c hc).handle
      simp at hw

/-- **A shared cell lives while it has handles.** The last one takes it with it, once and for
all. -/
theorem State.Orderly.lives_or_lived (h : s.Orderly) (hs : Sound [] s)
    (hm : .shared id ∈ s.journal.deeds) : s.Lives id ∨ s.Lived id := by
  have hcount : s.liveHandles id = handlesOf id s.journal.deeds := by
    rw [hs.liveHandles, h.counted]
  have hslot : s.slots.get? id = variableOf id s.journal.deeds := h.told id
  by_cases hn : 1 ≤ handlesOf id s.journal.deeds
  · obtain ⟨sh, hsh⟩ : ∃ sh, s.sharing.get? id = some sh := by
      have h1 := h.counted id
      rw [State.refcount] at h1
      cases hsh : s.sharing.get? id with
      | some sh => exact ⟨sh, rfl⟩
      | none => rw [hsh, Option.elim_none] at h1; omega
    obtain ⟨v, hv⟩ := Option.isSome_iff_exists.1 (hs.shared id sh hsh).2
    have hv' := hslot ▸ hv
    exact .inl ⟨hcount ▸ hn, ⟨v, hv, h.deeds.kind_of_shared hm hv'⟩,
      (h.deeds.freed_once id).2 hn, (h.deeds.ended_once id).2 v hv'⟩
  · have hnone : s.slots.get? id = none := by
      by_contra hsome
      obtain ⟨v, hv⟩ := Option.ne_none_iff_exists'.1 hsome
      obtain ⟨sh, hsh⟩ := hs.sharing_of_kind hv (h.deeds.kind_of_shared hm (hslot ▸ hv))
      have h1 := hs.refcount_pos hsh
      rw [h.counted] at h1
      omega
    refine .inr ⟨by omega, hnone, (h.deeds.handles_or_freed hm).resolve_left hn,
      (h.deeds.variable_or_ended hm).resolve_left ?_⟩
    rintro ⟨v, hv⟩
    rw [← hslot, hnone] at hv
    cases hv

/-! ## Answers -/

/-- What is noted of a kept cell in two steps is noted at once. -/
theorem State.flag_flag {f g h : Kept → Kept} {e : Kept} (hk : s.thread.kept.get? k = some e)
    (hg : g (f e) = h e) : (s.flag k f).flag k g = s.flag k h := by
  have hkept : (s.thread.kept.modify k f).modify k g = s.thread.kept.modify k h := by
    rw [Table.modify_modify, Table.modify_congr hk (g := h) hg]
  show s.inThread (fun t => { t with kept := (t.kept.modify k f).modify k g }) = _
  rw [State.inThread, hkept]
  rfl

theorem State.flag_back {f g : Kept → Kept} {e : Kept} (hk : s.thread.kept.get? k = some e)
    (hg : g (f e) = e) : (s.flag k f).flag k g = s := by
  rw [State.flag_flag (h := id) hk hg, State.flag, State.inThread, Table.modify_id]

namespace Action

/-- An action that changes nothing uses a kept cell without a trace. -/
theorem withCell_done {b : KeptId → Cell → Action α} {e : Kept} {x : α}
    (hc : s.thread.cells.get? key = some k) (hk : s.thread.kept.get? k = some e)
    (h : b k e.cell (s.flag k Kept.entered) = .done x (s.flag k Kept.entered)) :
    withCell key b s = .done x s := by
  have hback : (s.flag k Kept.entered).flag k (fun e => { e with users := e.users - 1 }) = s :=
    State.flag_back hk rfl
  have hleave : leave k (s.flag k Kept.entered) = .done () s :=
    (leave_keyed (s := s.flag k Kept.entered) hc).trans (congrArg (Act.done ()) hback)
  have henter : setKept k (fun e => { e with users := e.users + 1 }) s =
      .done () (s.flag k Kept.entered) := setKept_apply _ s
  simp only [withCell, bind_apply, keptId_some hc, kept_some hk, done_bind, henter, attempt_apply,
    unwinding_done h, done_attempt, conclude, hleave, ofExcept_ok]

end Action

/-- The number and the handle that are kept under a key. -/
def State.Keeps (s : State) (key : String) (k : KeptId) (id : SlotId) (a : Access) : Prop :=
  s.thread.cells.get? key = some k ∧ s.keptCell? k = some (.handle id a)

namespace Action

theorem sharedSlot_handle : sharedSlot (.handle id a) s = .done id s :=
  rfl

theorem useCell_refcount {e : Kept} (hc : s.thread.cells.get? key = some k)
    (hk : s.thread.kept.get? k = some e) (hcell : e.cell = .handle id a)
    (hsh : s.sharing.get? id = some sh) (bound : Bool) :
    useCell key bound .refcount s =
      .done (if bound then .bound sh.handles true else .count sh.handles) s := by
  have hsh' : sharing id (s.flag k Kept.entered) = .done sh (s.flag k Kept.entered) :=
    sharing_some hsh
  refine withCell_done hc hk ?_
  rw [hcell]
  cases bound <;>
    simp only [Cell.binding, if_true, Bool.false_eq_true, if_false, bind_apply,
      sharedSlot_handle, done_bind, hsh', pure_apply]

theorem useCell_sameAs {e : Kept} {key' : String} {id' : SlotId} {a' : Access}
    (hc : s.thread.cells.get? key = some k) (hk : s.thread.kept.get? k = some e)
    (hcell : e.cell = .handle id a) (hother : s.cellOf key' = some (.handle id' a'))
    (bound : Bool) : useCell key bound (.sameAs key') s = .done (.flag (id = id')) s := by
  have hother' : cell key' (s.flag k Kept.entered) =
      .done (.handle id' a') (s.flag k Kept.entered) := by
    rw [← s.cellOf_flag (k := k) (f := Kept.entered) (fun _ => rfl) key'] at hother
    obtain ⟨e', he', hcell'⟩ := Option.map_eq_some_iff.1 hother
    obtain ⟨k', hc', hk'⟩ := Option.bind_eq_some_iff.1 he'
    rw [cell_some hc' hk', hcell']
  refine withCell_done hc hk ?_
  rw [hcell]
  cases bound <;>
    simp only [Cell.binding, if_true, Bool.false_eq_true, if_false, bind_apply,
      sharedSlot_handle, done_bind, hother', pure_apply]

theorem handle_some {i : HandleId} (h : s.Reaches key i c) : handle key s = .done c s := by
  simp only [handle, handleId_some h.1, bind_apply, get_apply, done_bind, h.2, demand_some]

theorem callNative_refcount {i : HandleId} (h : s.Reaches key i (.handle id a))
    (hsh : s.sharing.get? id = some sh) :
    callNative (.refcount (some key)) s = .done (.count sh.handles) s := by
  simp only [callNative, handleSlot, someHandle, handle_some h, bind_apply, done_bind,
    pure_apply, Cell.slot, sharing_some hsh]

theorem callNative_sameAs {key' : String} {i i' : HandleId} {id' : SlotId} {a' : Access}
    (h : s.Reaches key i (.handle id a)) (h' : s.Reaches key' i' (.handle id' a')) :
    callNative (.sameAs (some key) (some key')) s = .done (.flag (id = id')) s := by
  simp only [callNative, handleSlot, someHandle, handle_some h, handle_some h', bind_apply,
    done_bind, pure_apply, Cell.slot]

end Action

/-- The cell or its binding answers how many handles there are. -/
theorem step_refcount (hs : Sound [] s) (h : s.cellOf key = some (.handle id a)) (bound : Bool) :
    step (n + 1) (.cell (.use key bound .refcount)) s =
      .ended (.ok (if bound then .bound (s.liveHandles id) true else .count (s.liveHandles id)))
        s := by
  obtain ⟨e, hce, hcell⟩ := Option.map_eq_some_iff.1 h
  obtain ⟨k, hc, hk⟩ := Option.bind_eq_some_iff.1 hce
  obtain ⟨sh, hsh⟩ := hs.sharing_of_kept hk hcell
  rw [hs.liveHandles, (hs.refcount_pos hsh).1]
  have hdone : perform (.cell (.use key bound .refcount)) s = _ :=
    Action.useCell_refcount hc hk hcell hsh bound
  exact step_done hdone nofun

/-- The cell or its binding answers whether another handle leads to the same cell. -/
theorem step_sameAs {key' : String} {id' : SlotId} {a' : Access}
    (h : s.cellOf key = some (.handle id a)) (h' : s.cellOf key' = some (.handle id' a'))
    (bound : Bool) : step (n + 1) (.cell (.use key bound (.sameAs key'))) s =
      .ended (.ok (.flag (id = id'))) s := by
  obtain ⟨e, hce, hcell⟩ := Option.map_eq_some_iff.1 h
  obtain ⟨k, hc, hk⟩ := Option.bind_eq_some_iff.1 hce
  have hdone : perform (.cell (.use key bound (.sameAs key'))) s = _ :=
    Action.useCell_sameAs hc hk hcell h' bound
  exact step_done hdone nofun

/-- Native code is answered how many handles there are. -/
theorem step_nativeRefcount (hs : Sound [] s) {i : HandleId} (h : s.Reaches key i (.handle id a)) :
    step (n + 1) (.native (.refcount (some key))) s =
      .ended (.ok (.count (s.liveHandles id))) s := by
  obtain ⟨v, hl⟩ := hs.lent h.2
  obtain ⟨sh, hsh⟩ := hl.shared id a rfl
  rw [hs.liveHandles, (hs.refcount_pos hsh).1]
  have hdone : perform (.native (.refcount (some key))) s = _ :=
    Action.nativeCall_done (Action.callNative_refcount h hsh)
  exact step_done hdone nofun

/-- Native code is answered whether two handles lead to the same cell. -/
theorem step_nativeSameAs {key' : String} {i i' : HandleId} {id' : SlotId} {a' : Access}
    (h : s.Reaches key i (.handle id a)) (h' : s.Reaches key' i' (.handle id' a')) :
    step (n + 1) (.native (.sameAs (some key) (some key'))) s =
      .ended (.ok (.flag (id = id'))) s := by
  have hdone : perform (.native (.sameAs (some key) (some key'))) s = _ :=
    Action.nativeCall_done (Action.callNative_sameAs h h')
  exact step_done hdone nofun

/-! ## Giving up a handle -/

/-- The state without the shared cell whose last handle was given up: it is counted and reported as
freed before its slot is ended. -/
def State.without (s : State) (id : SlotId) (v : Slot) (p : Profiler) : State :=
  { { Action.unshared s id with profiler := p }.emit (.freed v.name v.value.isSome) with
    slots := s.slots.erase id }.did (.ended id)

namespace Action

/-- A handle that is not the last is given up, and nothing else happens. -/
theorem destroy_many (hsh : s.sharing.get? id = some sh) (hn : 2 ≤ sh.handles) :
    destroy (.handle id a) s = .done () (lessHandle s id) :=
  dropHandle_many hsh (by omega)

variable {p p' : Profiler} {o : ObjectId}

theorem destroySlot_unbound (hv : s.slots.get? id = some v) (hval : v.value = none) :
    destroySlot id s = .done () ({ s with slots := s.slots.erase id }.did (.ended id)) := by
  simp only [destroySlot, bind_apply, slot_some hv, done_bind, modify_apply, did_apply, hval,
    pure_apply]

theorem destroySlot_bound (hv : s.slots.get? id = some v) (hval : v.value = some o)
    (hp : s.profiler.record v.kind .released = some p) :
    destroySlot id s = release ⟨v.realm, o⟩
      (({ { s with slots := s.slots.erase id }.did (.ended id) with profiler := p }.hold
        ⟨v.realm, o⟩).emit (.destroyedBound v.kind v.name)) := by
  have hrecord : ∀ u : State, u.profiler = s.profiler →
      record v.kind .released u = .done () { u with profiler := p } :=
    fun u hu => record_some (hu ▸ hp)
  simp only [destroySlot, bind_apply, slot_some hv, done_bind, modify_apply, did_apply, hval,
    hold_apply]
  rw [hrecord]
  · rfl
  · rfl

theorem destroy_last (hsh : s.sharing.get? id = some sh) (hn : sh.handles = 1)
    (hv : s.slots.get? id = some v) (hp : s.profiler.record .shared .cellFreed = some p) :
    destroy (.handle id a) s =
      destroySlot id
        ({ unshared s id with profiler := p }.emit (.freed v.name v.value.isSome)) := by
  have hreport := reportFreed_some (s := unshared s id) (v := v) (p := p) hp
  show dropHandle id s = _
  rw [dropHandle_last hsh hn hv, bind_apply, attempt_apply, hreport, done_attempt, done_bind]
  exact Act.bind_done _

/-- The last handle of a cell without value takes the cell with it. -/
theorem destroy_last_unbound (hsh : s.sharing.get? id = some sh) (hn : sh.handles = 1)
    (hv : s.slots.get? id = some v) (hval : v.value = none)
    (hp : s.profiler.record .shared .cellFreed = some p) :
    destroy (.handle id a) s = .done () (s.without id v p) :=
  (destroy_last hsh hn hv hp).trans (destroySlot_unbound hv hval)

/-- The last handle of a bound cell takes the cell with it, and then its claim is released. -/
theorem destroy_last_bound (hsh : s.sharing.get? id = some sh) (hn : sh.handles = 1)
    (hv : s.slots.get? id = some v) (hval : v.value = some o)
    (hp : s.profiler.record .shared .cellFreed = some p)
    (hp' : p.record v.kind .released = some p') :
    destroy (.handle id a) s = release ⟨v.realm, o⟩
      (({ s.without id v p with profiler := p' }.hold ⟨v.realm, o⟩).emit
        (.destroyedBound v.kind v.name)) :=
  (destroy_last hsh hn hv hp).trans (destroySlot_bound hv hval hp')

/-- A handle that is released is reported first. -/
theorem releaseHandle_eq (hsh : s.sharing.get? id = some sh) (hv : s.slots.get? id = some v) :
    releaseHandle id s = destroy (.handle id a) (s.emit (.released v.name (sh.handles - 1))) := by
  simp only [releaseHandle, bind_apply, slot_some hv, sharing_some hsh, done_bind, emit_apply]
  rfl

end Action

/-! ## Operations that are about no handle -/

/-- Uses of a cell that retain nothing, calls from native code that neither make nor release a
handle, and whatever is not about a cell. -/
def Op.leavesHandles : Op → Bool
  | .cell (.use _ _ (.retain _)) => false
  | .cell (.use ..) => true
  | .cell _ => false
  | .native (.create ..) | .native (.retain ..) | .native (.release _) => false
  | .thread _ => false
  | _ => true

/-- An operation makes and gives up no handle. When a script gave the key of the cell that is used
to another one, the operation gives up that cell at its end. -/
def Steady (s : State) (op : Op) (ds : List Deed) (s' : State) : Prop :=
  (∀ d ∈ ds, d.counts? = none) ∨
    ∃ key bound verb k e t ds', op = .cell (.use key bound verb) ∧
      s.thread.cells.get? key = some k ∧ s.thread.kept.get? k = some e ∧
      s'.thread.kept.get? k = none ∧ (∀ d ∈ ds', d.counts? = none) ∧ ds = ds' ++ e.cell.ending t

theorem Verb.Does.steady {bound : Bool} {verb : Verb} (hverb : ∀ new, verb ≠ .retain new)
    (h : verb.Does s c v bound ds r) : ∀ d ∈ ds, d.counts? = none := by
  cases verb with
  | name | state | isBound | debug | refcount | sameAs => simp [h.1]
  | read => obtain ⟨o, -, rfl, -⟩ | ⟨rfl, -⟩ := h <;> exact nofun
  | readOwned new =>
    obtain ⟨o, -, rfl, -⟩ | ⟨rfl, -⟩ := h <;> simp [Deed.counts?]
  | assign claim =>
    obtain ⟨o, -, ⟨rfl, -⟩ | ⟨rfl, -⟩⟩ | ⟨-, rfl, -⟩ := h <;> simp [Deed.counts?]
  | assignBorrowed o =>
    obtain ⟨-, (⟨rfl, -⟩ | ⟨rfl, -⟩) | ⟨rfl, -⟩⟩ | ⟨-, rfl, -⟩ := h <;> simp [Deed.counts?]
  | clear => obtain ⟨-, rfl, -⟩ | ⟨-, -, rfl, -⟩ | ⟨rfl, -⟩ := h <;> simp [Deed.counts?]
  | take new =>
    obtain ⟨o, -, ⟨rfl, -⟩ | ⟨rfl, -⟩⟩ | ⟨rfl, -⟩ := h <;> simp [Deed.counts?]
  | retain new => exact absurd rfl (hverb new)

theorem Op.Does.steady {s' : State} (h : op.Does s ds r s') (hop : op.leavesHandles = true) :
    Steady s op ds s' := by
  cases op with
  | cell op =>
    cases op with
    | use key bound verb =>
      have hverb : ∀ new, verb ≠ .retain new := by
        rintro new rfl
        cases hop
      have hsteady : ∀ {e : Kept} {v ds r}, Action.Uses (verb.Blocked e) []
          (verb.Does s (e.cell.via bound) v bound) ds r → ∀ d ∈ ds, d.counts? = none := by
        rintro e v ds r (⟨-, rfl, -⟩ | ⟨-, hd⟩)
        · exact nofun
        · exact hd.steady hverb
      rw [Op.Does, CellOp.Does, State.At] at h
      split at h
      · exact .inl (by simp [h.1])
      · next k hk =>
        obtain ⟨e, he, v, -, hd | ⟨hgone, ds₁, t, r₁, hd, rfl, -⟩⟩ := h
        · exact .inl (hsteady hd)
        · exact .inr ⟨key, bound, verb, k, e, t, ds₁, rfl, hk, he, hgone, hsteady hd, rfl⟩
    | _ => cases hop
  | native op =>
    refine .inl fun d hd => ?_
    have hperm := (h d hd).1
    cases op <;> first | exact hperm | cases hop
  | object op =>
    refine .inl fun d hd => ?_
    obtain ⟨key, o, rfl⟩ := h d hd
    rfl
  | thread => cases hop
  | _ => exact .inl (by simp [show ds = [] from h])

/-- Deeds that are about no handle of a cell leave its number of handles. -/
theorem handlesOf_append (h : ∀ d ∈ ds, d.counts? ≠ some id) (J : List Deed) :
    handlesOf id (ds.reverse ++ J) = handlesOf id J := by
  induction ds generalizing J with
  | nil => rfl
  | cons d ds ih =>
    rw [List.reverse_cons, List.append_assoc, ih fun d' hd' => h d' (List.mem_cons_of_mem _ hd')]
    have hd := h d List.mem_cons_self
    cases d with
    | shared i | retained i | dropped i =>
      exact if_neg fun hi => hd (congrArg some hi.symm)
    | _ => rfl

/-! ## Every run -/

/-- The number and the cell that a thread keeps under a key. -/
def State.Keyed (s : State) (key : String) (k : KeptId) (c : Cell) : Prop :=
  s.thread.cells.get? key = some k ∧ s.keptCell? k = some c

theorem State.Keyed.cellOf (h : s.Keyed key k c) : s.cellOf key = some c := by
  rw [State.cellOf, h.1]
  exact h.2

theorem State.Keyed.live (h : s.Keyed key k c) : s.Live k c := by
  obtain ⟨e, he, hc⟩ := Option.map_eq_some_iff.1 h.2
  exact .inl ⟨s.thread, List.mem_cons_self, e, he, hc⟩

/-- What handles answer: how many there are, and which of them go back to the same first one. -/
structure State.Answers (s : State) (n : Nat) : Prop where
  count : ∀ key k id a bound, s.Keyed key k (.handle id a) →
    step (n + 1) (.cell (.use key bound .refcount)) s =
      .ended (.ok (if bound then .bound (s.liveHandles id) true else .count (s.liveHandles id))) s
  same : ∀ key k id a key' k' id' a' bound, s.Keyed key k (.handle id a) →
    s.Keyed key' k' (.handle id' a') →
    step (n + 1) (.cell (.use key bound (.sameAs key'))) s =
      .ended (.ok (.flag (s.journal.origin k = s.journal.origin k'))) s
  nativeCount : ∀ key i id a, s.Reaches key i (.handle id a) →
    step (n + 1) (.native (.refcount (some key))) s =
      .ended (.ok (.count (s.liveHandles id))) s
  nativeSame : ∀ key i id a key' i' id' a', s.Reaches key i (.handle id a) →
    s.Reaches key' i' (.handle id' a') →
    step (n + 1) (.native (.sameAs (some key) (some key'))) s =
      .ended (.ok (.flag (s.journal.origin i = s.journal.origin i'))) s

theorem Sound.answers (hs : Sound [] s) (hd : s.Descended) (n : Nat) : s.Answers n where
  count _ _ _ _ bound h := step_refcount hs h.cellOf bound
  same key k id a key' k' id' a' bound h h' := by
    simp only [← hd.related k id a k' id' a' h.live h'.live]
    exact step_sameAs h.cellOf h'.cellOf bound
  nativeCount _ _ _ _ h := step_nativeRefcount hs h
  nativeSame key i id a key' i' id' a' h h' := by
    simp only [← hd.related i id a i' id' a' (.inr h.2) (.inr h'.2)]
    exact step_nativeSameAs h h'

/-- What giving up a handle does in a state: one that is not the last takes nothing with it. The
last one takes the cell with it, and the claim on its value is released after that. -/
structure State.GivesUp (t : State) (id : SlotId) (sh : Sharing) (v : Slot) : Prop where
  many : ∀ a, 2 ≤ sh.handles →
    Action.destroy (.handle id a) t = .done () (Action.lessHandle t id)
  unbound : ∀ a p, sh.handles = 1 → v.value = none →
    t.profiler.record .shared .cellFreed = some p →
    Action.destroy (.handle id a) t = .done () (t.without id v p)
  bound : ∀ a p p' o, sh.handles = 1 → v.value = some o →
    t.profiler.record .shared .cellFreed = some p → p.record v.kind .released = some p' →
    Action.destroy (.handle id a) t = Action.release ⟨v.realm, o⟩
      (({ t.without id v p with profiler := p' }.hold ⟨v.realm, o⟩).emit
        (.destroyedBound v.kind v.name))
  reported : ∀ a, Action.releaseHandle id t =
    Action.destroy (.handle id a) (t.emit (.released v.name (sh.handles - 1)))

theorem State.givesUp (hsh : t.sharing.get? id = some sh) (hv : t.slots.get? id = some v) :
    t.GivesUp id sh v where
  many _ hn := Action.destroy_many hsh hn
  unbound _ _ hn hval hp := Action.destroy_last_unbound hsh hn hv hval hp
  bound _ _ _ _ hn hval hp hp' := Action.destroy_last_bound hsh hn hv hval hp hp'
  reported _ := Action.releaseHandle_eq hsh hv

/-- **A shared cell lives as long as its handles.** In every state that is reached, a shared cell
counts the handles that there are, of all threads and in native code; this is what they answer, and
two of them are the same just when they go back to the same first one. While there is a handle the
cell is there; when the last one is given up it is freed and its slot ended, once and for all. What
is reported of handles is so. An operation that is about no handle makes and gives up none. -/
theorem shared_cell_lifetime (h : Reached s) :
    (∀ id, s.refcount id = s.liveHandles id ∧
      s.liveHandles id = handlesOf id s.journal.deeds) ∧
    (∀ k id a, s.Live k (.handle id a) → s.Lives id) ∧
    (∀ id, .shared id ∈ s.journal.deeds → s.Lives id ∨ s.Lived id) ∧
    Orderly s.journal.deeds ∧ s.journal.Orderly none ∧ (∀ n, s.Answers n) ∧
    (∀ k id a k' id' a', s.Live k (.handle id a) → s.Live k' (.handle id' a') →
      (id = id' ↔ s.journal.origin k = s.journal.origin k')) ∧
    (∀ n op r s', op.leavesHandles = true → step (n + 1) op s = .ended r s' →
      Steady s op (op.ownDeeds n s) s' ∧
      ∀ id, Undisturbed n op s → (∀ d ∈ op.ownDeeds n s, d.counts? ≠ some id) →
        s'.liveHandles id = s.liveHandles id) ∧
    ∀ (t : State) id sh v, t.sharing.get? id = some sh → t.slots.get? id = some v →
      t.GivesUp id sh v := by
  have horderly : ∀ {s : State}, Reached s → s.Orderly := fun h => h.stable .orderly .start
  have hdesc : s.Descended := h.stable .descended .start
  have hlive : ∀ {s : State}, Reached s → ∀ id, s.liveHandles id = handlesOf id s.journal.deeds :=
    fun h id => by rw [h.sound.liveHandles, (horderly h).counted]
  refine ⟨fun id => ⟨(h.sound.liveHandles id).symm, hlive h id⟩, fun k id a hk => ?_,
    fun id hm => (horderly h).lives_or_lived h.sound hm, (horderly h).deeds, (horderly h).events,
    h.sound.answers hdesc, hdesc.related, fun n op r s' hop he => ?_,
    fun t id sh v hsh hv => t.givesUp hsh hv⟩
  · have hpos : 1 ≤ s.liveHandles id := by
      have h1 := le_tally_live hk (Cell.handles id)
      rwa [Cell.handles_handle, if_pos rfl] at h1
    have hm := (horderly h).deeds.shared_of_handles (hlive h id ▸ hpos)
    refine ((horderly h).lives_or_lived h.sound hm).resolve_right fun hlived => ?_
    have := hlived.handles
    omega
  · have hthread : ∀ body, op ≠ .thread body := by
      rintro body rfl
      cases hop
    have hdoes := Action.performing_does op h.sound
    have hcourse := he
    rw [step_perform hthread] at hcourse
    obtain ⟨l', -, -, hd, -⟩ := hdoes.settle (react_lawful (step_lawful n)) h.sound hcourse
    refine ⟨hd.steady hop, fun id hu hc => ?_⟩
    have hall := hdoes.undisturbed h.sound (fun g t hg => react_none (hu g t hg)) hcourse
    rw [hlive (h.ended he), hlive h, hall]
    exact handlesOf_append hc _

/-- A cell with one handle answers so. -/
theorem shared_cell_lifetime_made : ∃ s : State, s.Lives 0 ∧
    step 1 (.cell (.use "" true .refcount)) s = .ended (.ok (.bound 1 true)) s := by
  have h0 : Reached (.start .plain false {} none) := .start _ _ _ _
  have h1 := h0.ended (show step 1 (.cell (.make "" (.shared "" none))) _ = .ended _ _ from rfl)
  obtain ⟨-, hlives, -, -, -, hanswers, -⟩ := shared_cell_lifetime h1
  exact ⟨_, hlives 1 0 .locally (.inl ⟨_, List.mem_cons_self, _, rfl, rfl⟩),
    (hanswers 0).count "" 1 0 .locally true ⟨rfl, rfl⟩⟩

end ClaimCells
