import ClaimCells.Proofs.Callers

/-!
# What native code hands in

Calls from native code pass claims in, with the objects that are put into cells, and get them back
when the installed function is called to give an object up. A call has changed its variable and
called the function when it comes to its signal, so the books agree there too, whatever is called
while it waits.

The past tells which cell each handle leads to, and what was put into the cell last through any of
them. Cells are numbered in the order in which they were made.

Main result: `natives_conserved`.
-/

namespace ClaimCells

variable {s t : State} {op : NativeOp} {past : List PastCall} {p o : ObjectId} {i : Nat}
  {next : Option (State → Act Answer)} {reply : Option Reply} {ids : Nat → SlotId}

/-! ## What the past tells -/

/-- The object that the call passes in for a cell to keep. -/
def NativeOp.passed : NativeOp → Option ObjectId
  | .create _ _ o => if o = 0 then none else some o
  | .assign _ o => some o
  | _ => none

namespace PastCall

/-- How often an object was passed in. -/
def handed (p : ObjectId) (past : List PastCall) : Nat :=
  past.countP fun m => m.op.passed = some p

/-- How many cells were made. -/
def cells : List PastCall → Nat
  | [] => 0
  | m :: past =>
    match m.op with
    | .create .. => cells past + 1
    | _ => cells past

/-- The number of the cell that the handle with a key leads to. -/
def cell? : List PastCall → String → Option Nat
  | [], _ => none
  | m :: past, key =>
    match m.op with
    | .create k _ _ => if k = some key then some (cells past) else cell? past key
    | .retain h k => if k = some key then h.bind (cell? past) else cell? past key
    | .release h => if h = some key then none else cell? past key
    | _ => cell? past key

/-- The object that was last put into a cell through any handle, unless it was cleared since. -/
def object? (n : Nat) : List PastCall → Option ObjectId
  | [] => none
  | m :: past =>
    match m.op with
    | .create .. => if cells past = n then m.op.passed else object? n past
    | .assign h o => if h.bind (cell? past) = some n then some o else object? n past
    | .clear h => if h.bind (cell? past) = some n then none else object? n past
    | _ => object? n past

/-- The object in the cell that a handle leads to. -/
def behind (past : List PastCall) (h : Option String) : Option ObjectId :=
  (h.bind (cell? past)).bind fun n => object? n past

/-- What a call that looks at a cell is answered. -/
def told (past : List PastCall) : NativeOp → Option Answer
  | .read h => some (.pointer (behind past h))
  | .clear h | .isBound h => some (.flag (behind past h).isSome)
  | _ => none

end PastCall

/-! ## The books -/

/-- How many variables are bound to an object. -/
def State.boundTo (s : State) (p : ObjectId) : Nat :=
  s.slots.sum fun _ v => if v.value = some p then 1 else 0

/-- A handle leads to a variable. -/
theorem Sound.variable_behind {h : Option String} {c : Cell} (hs : Sound [] s)
    (hc : s.behind h = some c) :
    ∃ v, s.slots.get? c.slot = some v ∧ s.objectBehind h = v.value := by
  obtain ⟨key, rfl⟩ : ∃ key, h = some key := by
    cases h with
    | none => cases hc
    | some key => exact ⟨key, rfl⟩
  obtain ⟨k, -, hk⟩ := State.behind_some.1 hc
  obtain ⟨v, hlent⟩ := hs.lent hk
  refine ⟨v, hlent.slot, ?_⟩
  rw [State.objectBehind, State.slotBehind, hc, Option.bind_some, hlent.slot, Option.bind_some]

/-- **A call balances**: what is passed in is in a variable afterwards or was given up, and what is
in no variable any more was given up. -/
theorem NativeOp.Paused.balance (hp : op.Paused s t next reply) (hs : Sound [] s) (p : ObjectId) :
    t.boundTo p + t.journal.givenUp p =
      s.boundTo p + s.journal.givenUp p + if op.passed = some p then 1 else 0 := by
  have hkept (h : s.Traded s.slots none t) :
      t.boundTo p + t.journal.givenUp p = s.boundTo p + s.journal.givenUp p := by
    rw [State.boundTo, h.slots, h.givenUp]
    rfl
  have hchanged {h : Option String} {c : Cell} {x : Option ObjectId} (hc : s.behind h = some c)
      (htr : s.Traded (s.slots.modify c.slot ({ · with value := x })) (s.objectBehind h) t) :
      t.boundTo p + t.journal.givenUp p =
        s.boundTo p + s.journal.givenUp p + if x = some p then 1 else 0 := by
    obtain ⟨v, hv, hobject⟩ := hs.variable_behind hc
    have hsum := Table.sum_modify_of_get? hv ({ · with value := x } : Slot → Slot)
      fun _ v => if v.value = some p then 1 else 0
    rw [State.boundTo, State.boundTo, htr.slots, htr.givenUp, hobject]
    dsimp only at hsum
    omega
  have htrades := hp.trades
  cases op with
  | create key name o =>
    have hsum := Table.sum_insert_fresh hs.fresh
      ⟨.native, .shared, Action.nativeName name, if o = 0 then none else some o⟩
      fun _ v => if v.value = some p then 1 else 0
    rw [State.boundTo, State.boundTo, htrades.slots, htrades.givenUp, NativeOp.passed]
    dsimp only at hsum
    simp only [reduceCtorEq, if_false]
    omega
  | assign h o =>
    obtain ⟨c, hc, htr⟩ := htrades
    exact hchanged hc htr
  | clear h =>
    obtain ⟨c, hc, htr⟩ := htrades
    simpa [NativeOp.passed] using hchanged hc htr
  | release h =>
    obtain ⟨c, hc, htr⟩ := htrades
    split at htr
    · obtain ⟨v, hv, hobject⟩ := hs.variable_behind hc
      have hsum := Table.sum_erase_of_get? hv fun _ v => if v.value = some p then 1 else 0
      rw [State.boundTo, State.boundTo, htr.slots, htr.givenUp, hobject]
      show _ = _ + if none = some p then 1 else 0
      simp only [reduceCtorEq, if_false]
      omega
    · exact hkept htr
  | _ => exact hkept htrades

/-! ## What is in the cells -/

/-- The variables of the cells, by their numbers, have what the past tells. -/
structure State.Stores (s : State) (past : List PastCall) (ids : Nat → SlotId) : Prop where
  young : ∀ n < PastCall.cells past, ids n < s.next
  apart : ∀ m n, m < n → n < PastCall.cells past → ids m ≠ ids n
  leads : ∀ key c, s.behind (some key) = some c →
    ∃ n < PastCall.cells past, PastCall.cell? past key = some n ∧ ids n = c.slot
  holds : ∀ n < PastCall.cells past, ∀ v, s.slots.get? (ids n) = some v →
    v.value = PastCall.object? n past

namespace State.Stores

/-- The object behind a handle is the one that the past tells of. -/
theorem behind {h : Option String} {c : Cell} (hst : s.Stores past ids) (hs : Sound [] s)
    (hc : s.behind h = some c) : s.objectBehind h = PastCall.behind past h := by
  obtain ⟨v, hv, hobject⟩ := hs.variable_behind hc
  cases h with
  | none => cases hc
  | some key =>
    obtain ⟨n, hn, hcell, hid⟩ := hst.leads key c hc
    rw [hobject, hst.holds n hn v (hid ▸ hv), PastCall.behind, Option.bind_some, hcell,
      Option.bind_some]

/-- A cell is made. -/
theorem made {kept : Option String} {name : Option Text.Utf8.Bytes}
    (hst : s.Stores past ids) (hp : (NativeOp.create kept name o).Paused s t next reply)
    (hy : ∀ key k, s.handleKeys.get? key = some k → k < s.next) :
    t.Stores (⟨i, .create kept name o, reply⟩ :: past)
      fun n => if n = PastCall.cells past then s.next else ids n := by
  have hnext : s.next < t.next := by
    obtain ⟨k, hle, hlt, -, -⟩ := hp.hands
    exact hle.trans_lt hlt
  have hlast : (fun n => if n = PastCall.cells past then s.next else ids n) (PastCall.cells past) =
      s.next := if_pos rfl
  have hfirst {n : Nat} (hn : n ≠ PastCall.cells past) :
      (fun n => if n = PastCall.cells past then s.next else ids n) n = ids n := if_neg hn
  have hcells {n : Nat} (hn : n < PastCall.cells (⟨i, .create kept name o, reply⟩ :: past)) :
      n = PastCall.cells past ∨ n < PastCall.cells past :=
    (Nat.lt_succ_iff_lt_or_eq.1 hn).symm
  generalize (fun n => if n = PastCall.cells past then s.next else ids n) = ids' at hlast hfirst
  refine ⟨fun n hn => ?_, fun m n hmn hn => ?_, fun key c hb => ?_, fun n hn v hv => ?_⟩
  · obtain rfl | hn := hcells hn
    · rw [hlast]
      exact hnext
    · rw [hfirst hn.ne]
      exact (hst.young n hn).trans hnext
  · obtain rfl | hn := hcells hn
    · rw [hlast, hfirst hmn.ne]
      exact (hst.young m hmn).ne
    · rw [hfirst (hmn.trans hn).ne, hfirst hn.ne]
      exact hst.apart m n hmn hn
  · obtain ⟨rfl, rfl⟩ | ⟨hne, hold⟩ := (hp.led hy).2 key c hb
    · exact ⟨PastCall.cells past, Nat.lt_succ_self _, if_pos rfl, hlast⟩
    · obtain ⟨n, hn, hcell, hid⟩ := hst.leads key c hold
      exact ⟨n, Nat.lt_succ_of_lt hn, (if_neg hne).trans hcell, (hfirst hn.ne).trans hid⟩
  · rw [hp.trades.slots] at hv
    obtain rfl | hn := hcells hn
    · rw [hlast, Table.get?_insert_self] at hv
      cases hv
      exact (if_pos rfl).symm
    · rw [hfirst hn.ne, Table.get?_insert_ne _ _ (hst.young n hn).ne] at hv
      exact (hst.holds n hn v hv).trans (if_neg hn.ne').symm

/-- Something is put into a cell, or taken out of it. -/
theorem changed {h : Option String} {c : Cell} {x : Option ObjectId}
    (hst : s.Stores past ids) (hc : s.behind h = some c)
    (hslots : t.slots = s.slots.modify c.slot ({ · with value := x }))
    (n : Nat) (hn : n < PastCall.cells past) (v : Slot) (hv : t.slots.get? (ids n) = some v) :
    v.value = if h.bind (PastCall.cell? past) = some n then x else PastCall.object? n past := by
  cases h with
  | none => cases hc
  | some key =>
    obtain ⟨m, hm, hcell, hid⟩ := hst.leads key c hc
    rw [Option.bind_some, hcell]
    rw [hslots, ← hid] at hv
    by_cases hmn : m = n
    · subst hmn
      rw [Table.get?_modify_self] at hv
      obtain ⟨w, -, rfl⟩ := Option.map_eq_some_iff.1 hv
      exact (if_pos rfl).symm
    · have hne : ids n ≠ ids m := by
        rcases Nat.lt_or_gt_of_ne hmn with hlt | hlt
        · exact (hst.apart m n hlt hn).symm
        · exact hst.apart n m hlt hm
      rw [Table.get?_modify_ne _ _ hne] at hv
      rw [if_neg fun he => hmn (Option.some.inj he)]
      exact hst.holds n hn v hv

/-- **Variables have what the past tells**, after another call too. -/
theorem called (hst : s.Stores past ids) (hp : op.Paused s t next reply)
    (hy : ∀ key k, s.handleKeys.get? key = some k → k < s.next) :
    ∃ ids, t.Stores (⟨i, op, reply⟩ :: past) ids := by
  have hled := (hp.led hy).2
  have hyoung (n : Nat) (hn : n < PastCall.cells past) : ids n < t.next :=
    (hst.young n hn).trans_le hp.lasting.next
  have htrades := hp.trades
  cases op with
  | create kept name o => exact ⟨_, hst.made hp hy⟩
  | assign h o =>
    obtain ⟨c, hc, htr⟩ := htrades
    exact ⟨ids, hyoung, hst.apart, fun key c' hb => hst.leads key c' (hled key c' hb),
      hst.changed hc htr.slots⟩
  | clear h =>
    obtain ⟨c, hc, htr⟩ := htrades
    exact ⟨ids, hyoung, hst.apart, fun key c' hb => hst.leads key c' (hled key c' hb),
      hst.changed hc htr.slots⟩
  | retain h kept =>
    refine ⟨ids, hyoung, hst.apart, fun key c hb => ?_, fun n hn v hv =>
      hst.holds n hn v (htrades.slots ▸ hv)⟩
    obtain ⟨rfl, parent, hparent, rfl⟩ | ⟨hne, hold⟩ := hled key c hb
    · cases h with
      | none => cases hparent
      | some key' =>
        obtain ⟨n, hn, hcell, hid⟩ := hst.leads key' parent hparent
        exact ⟨n, hn, (if_pos rfl).trans hcell, hid⟩
    · obtain ⟨n, hn, hcell, hid⟩ := hst.leads key c hold
      exact ⟨n, hn, (if_neg hne).trans hcell, hid⟩
  | release h =>
    obtain ⟨c₀, -, htr⟩ := htrades
    refine ⟨ids, hyoung, hst.apart, fun key c hb => ?_, fun n hn v hv => ?_⟩
    · obtain ⟨hne, hold⟩ := hled key c hb
      obtain ⟨n, hn, hcell, hid⟩ := hst.leads key c hold
      exact ⟨n, hn, (if_neg hne).trans hcell, hid⟩
    · split at htr
      · rw [htr.slots, Table.get?_erase] at hv
        split at hv
        · cases hv
        · exact hst.holds n hn v hv
      · exact hst.holds n hn v (htr.slots ▸ hv)
  | _ =>
    exact ⟨ids, hyoung, hst.apart, fun key c hb => hst.leads key c (hled key c hb),
      fun n hn v hv => hst.holds n hn v (htrades.slots ▸ hv)⟩

end State.Stores

/-! ## Callers -/

/-- Without handles and kept cells there is no variable. -/
theorem Sound.no_variable (hs : Sound [] s) (hh : ∀ k, s.handles.get? k = none)
    (hk : ∀ u ∈ s.thread :: (s.waiting ++ s.ended), ∀ k, u.kept.get? k = none) (id : SlotId) :
    s.slots.get? id = none := by
  have hdead (w : Cell → Nat) : s.tally w = 0 := by
    by_contra hw
    obtain ⟨k, c, ⟨u, hu, e, he, -⟩ | hc, -⟩ := live_of_tally (Nat.pos_of_ne_zero hw)
    · cases (hk u hu k).symm.trans he
    · cases (hh k).symm.trans hc
  cases hv : s.slots.get? id with
  | none => rfl
  | some v =>
    cases hsh : s.sharing.get? id with
    | none =>
      have howned := hs.owners id
      rw [hdead, hv, hsh, if_pos ⟨rfl, rfl⟩] at howned
      cases howned
    | some sh =>
      obtain ⟨hcount, hpos⟩ := hs.refcount_pos hsh
      have hlive := hs.liveHandles id
      rw [State.liveHandles, hdead, hcount] at hlive
      omega

/-- Where a call comes to first, the property holds. -/
theorem Act.Keeps.paused {x : Act Answer} {Q : State → Prop} (h : x.Keeps Q)
    (hx : x.pause = some (t, next, reply)) : Q t := by
  cases x with
  | done | fail =>
    cases hx
    exact h
  | send =>
    cases hx
    exact h.1
  | halt => cases hx

namespace Callers

variable {P : Callers} {c : Caller}

/-- The books balance, installed functions alone were called, threads keep no cells, and the
variables have what the past tells. -/
structure Settled (P : Callers) : Prop where
  balance : ∀ p, P.state.boundTo p + P.state.journal.givenUp p = PastCall.handed p P.past
  backed : P.state.Backed
  bare : ∀ u ∈ P.state.thread :: (P.state.waiting ++ P.state.ended), ∀ k, u.kept.get? k = none
  stores : ∃ ids, P.state.Stores P.past ids

/-- The threads that a thread finds are the threads there are. -/
theorem view_bare (hs : P.Sound) (h : P.Settled) (hc : P.all[i]? = some c)
    (u : Thread) (hu : u ∈ (P.view i c).thread :: ((P.view i c).waiting ++ (P.view i c).ended)) :
    ∀ k, u.kept.get? k = none := by
  have hperm := (perm_view hc).trans hs.threads.symm
  refine h.bare u ?_
  rw [← List.cons_append] at hu ⊢
  rcases List.mem_append.1 hu with hu | hu
  · exact List.mem_append_left _ (hperm.mem_iff.1 hu)
  · exact List.mem_append_right _ hu

theorem Settled.called (h : P.Settled) (hs : P.Sound) (hc : P.all[i]? = some c)
    (hop : op.Exported) (hx : ((Op.native op).course (P.view i c)).pause = some (t, next, reply))
    (hp : op.Paused (P.view i c) t next reply) :
    Settled { P.went i t (next.toList ++ c.calls) with past := ⟨i, op, reply⟩ :: P.past } := by
  have hview := hs.view hc
  obtain ⟨ids, hst⟩ := h.stores
  have hst' : (P.view i c).Stores P.past ids := ⟨hst.young, hst.apart, hst.leads, hst.holds⟩
  refine ⟨fun p => ?_, ?_, ?_, hst'.called hp hs.recalls.young⟩
  · have hbalance := hp.balance hview p
    have hbefore : (P.view i c).boundTo p + (P.view i c).journal.givenUp p =
      PastCall.handed p P.past := h.balance p
    rw [hbefore] at hbalance
    show t.boundTo p + t.journal.givenUp p = PastCall.handed p (⟨i, op, reply⟩ :: P.past)
    rw [hbalance, PastCall.handed, PastCall.handed, List.countP_cons]
    simp only [decide_eq_true_eq]
  · have hkeeps : ((Op.native op).course (P.view i c)).Keeps State.Backed :=
      backed_upheld.course hop (fun _ h => by cases h) hview h.backed
    exact hkeeps.paused hx
  · intro u hu
    have hkept : t.thread.kept = c.thread.kept := by
      have htrades := hp.trades
      cases op with
      | assign | clear =>
        obtain ⟨_, -, htr⟩ := htrades
        exact htr.kept
      | release =>
        obtain ⟨_, -, htr⟩ := htrades
        split at htr <;> exact htr.kept
      | _ => exact htrades.kept
    have hbare := view_bare hs h hc
    rcases List.mem_cons.1 hu with rfl | hu
    · show ∀ k, t.thread.kept.get? k = none
      rw [hkept]
      exact hbare c.thread List.mem_cons_self
    · change u ∈ t.waiting ++ t.ended at hu
      rw [hp.waiting, hp.ended] at hu
      exact hbare u (List.mem_cons_of_mem _ hu)

theorem Reached.settled (h : P.Reached) : P.Settled := by
  induction h with
  | start =>
    exact ⟨fun _ => rfl, fun _ he => absurd he List.not_mem_nil,
      fun u hu k => by rw [List.mem_singleton.1 hu]; rfl, fun _ => 0,
      fun _ hn => absurd hn (Nat.not_lt_zero _), fun _ _ _ hn => absurd hn (Nat.not_lt_zero _),
      fun _ _ hb => (by cases hb), fun _ hn => absurd hn (Nat.not_lt_zero _)⟩
  | joined _ ih =>
    obtain ⟨ids, hst⟩ := ih.stores
    refine ⟨ih.balance, ih.backed, fun u hu => ?_, ids, hst.young, hst.apart, hst.leads, hst.holds⟩
    rcases List.mem_cons.1 hu with rfl | hu
    · exact fun _ => rfl
    · exact ih.bare u hu
  | called h hc hop hlive hx ih =>
    exact ih.called h.sound hc hop hx
      (course_paused (h.sound.view hc) (h.sound.unlocked.same rfl) hop hlive hx)
  | @resumed P i c k ks t next reply h hc hk hx ih =>
    obtain ⟨a, ha⟩ := h.sound.calls c (List.mem_of_getElem? hc) k (hk ▸ List.mem_cons_self)
    rw [ha] at hx
    cases hx
    obtain ⟨ids, hst⟩ := ih.stores
    refine ⟨ih.balance, ih.backed, fun u hu => ?_, ids, hst.young, hst.apart, hst.leads, hst.holds⟩
    have hbare := view_bare h.sound ih hc
    rcases List.mem_cons.1 hu with rfl | hu
    · exact hbare c.thread List.mem_cons_self
    · exact hbare u (List.mem_cons_of_mem _ hu)

end Callers

/-- **What native code passes in is conserved**, whoever calls and whenever, also while other calls
wait for the functions that they call. Whenever a call comes to its end or calls a function, every
object was passed in as often as there are variables bound to it and it was given up. Nothing was
acquired, and objects were given up through the function in effect. A read is answered what the
latest call put into the cell through any of its handles, and with nothing if it was cleared since; a
call that clears is answered whether there was something. Without handles, all that was passed in was
given up. -/
theorem natives_conserved {P : Callers} (h : P.Reached) :
    (∀ p, P.state.boundTo p + P.state.journal.givenUp p = PastCall.handed p P.past) ∧
    (∀ l m o, .called l m o ∈ P.state.journal →
      m = .released ∧ ∃ f, P.state.functions = some f ∧ l = f.release) ∧
    (∀ i c op t next reply, P.all[i]? = some c → op.Exported → op.Live P.state →
      ((Op.native op).course (P.view i c)).pause = some (t, next, reply) →
      ∀ a ∈ PastCall.told P.past op,
        (∀ r ∈ reply, r = .ok a) ∧ ∀ k ∈ next, ∀ u, k u = .done a u.returned) ∧
    ((∀ k, P.state.handles.get? k = none) →
      ∀ p, P.state.journal.givenUp p = PastCall.handed p P.past) := by
  have hs := h.sound
  have hsettled := h.settled
  refine ⟨hsettled.balance, fun l m o hc => hsettled.backed.called hc, ?_, fun hh p => ?_⟩
  · intro i c op t next reply hc hop hlive hx a ha
    have hp := course_paused (hs.view hc) (hs.unlocked.same rfl) hop hlive hx
    suffices ha : a = op.answer (P.view i c) by
      rw [ha]
      exact ⟨hp.answer, hp.next⟩
    obtain ⟨ids, hst⟩ := hsettled.stores
    have hst' : (P.view i c).Stores P.past ids := ⟨hst.young, hst.apart, hst.leads, hst.holds⟩
    have hobject {h : Option String} (hh : op.handle? = some h) :
        (P.view i c).objectBehind h = PastCall.behind P.past h := by
      cases h with
      | none => exact absurd (.inl hh) hp.alive
      | some key =>
        obtain ⟨k, c', hk⟩ := hlive key hh
        have hb : (P.view i c).behind (some key) = some c' := State.behind_some.2 ⟨k, hk⟩
        exact hst'.behind (hs.view hc) hb
    cases op with
    | read h =>
      cases ha
      exact congrArg Answer.pointer (hobject rfl).symm
    | clear h | isBound h =>
      cases ha
      exact congrArg (fun o : Option ObjectId => Answer.flag o.isSome) (hobject rfl).symm
    | _ => cases ha
  · have hbound : P.state.boundTo p = 0 := by
      by_contra hpos
      obtain ⟨id, v, hv, -⟩ := Table.exists_of_sum_pos (Nat.pos_of_ne_zero hpos)
      cases (hs.sound.no_variable hh hsettled.bare id).symm.trans hv
    rw [← hsettled.balance p, hbound, Nat.zero_add]

/-- A cell that is cleared while its object is given up. -/
theorem natives_conserved_cleared : ∃ P : Callers, P.Reached ∧ PastCall.handed 5 P.past = 1 ∧
    P.state.journal.givenUp 5 = 1 ∧
    P.state.boundTo 5 + P.state.journal.givenUp 5 = PastCall.handed 5 P.past := by
  have h0 : Callers.Reached _ := .start .plain false {} none
  have h1 := h0.called (i := 0) (c := {}) rfl
    (show NativeOp.Exported (.install .a .a) from trivial) (fun _ h => by cases h)
    (show Act.pause _ = some (_, none, some (.ok (.flag true))) from rfl)
  have h2 := h1.called (i := 0) rfl
    (show NativeOp.Exported (.create (some "") none 5) from trivial) (fun _ h => by cases h)
    (show Act.pause _ = some (_, none, some (.ok .nothing)) from rfl)
  have hlive {s : State} (hk : s.handleKeys.get? "" = some 1)
      (hc : s.handles.get? 1 = some (.handle 0 .locally)) : NativeOp.Live s (.clear (some "")) :=
    fun _ h => by
      cases h
      exact ⟨1, _, hk, hc⟩
  have h3 := h2.called (i := 0) rfl (show NativeOp.Exported (.clear (some "")) from trivial)
    (hlive rfl rfl) (show Act.pause _ = some (_, some _, none) from rfl)
  exact ⟨_, h3, rfl, rfl, (natives_conserved h3).1 5⟩

end ClaimCells
