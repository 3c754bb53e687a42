import ClaimCells.Proofs.Balance

/-!
# What a profiler records

A profiler is switched on and off, reset, and told of events. It counts those that it is told of
while it is on, since it was reset last. As long as it is told of fewer events than a counter can
count, nothing overflows, and what it answers can be read off the past.

**The past** (`Profiler.Call`) is a list of calls, newest first. `Call.on` and `Call.counted` say
what it comes to, without a profiler.

The claims that are outstanding are a difference whose second part is a sum. The difference cannot
fall below zero, but the sum has to fit into a counter: counters that were read from a document may
be such that it does not.

Main results: `profiler_counts`, what a profiler answers after any calls, and `outstanding_exact`.
-/

namespace ClaimCells

variable {s : State} {k : CellKind} {e : ClaimEvent} {first : Bool}

/-! ## Outstanding claims -/

namespace KindStats

variable {st st' : KindStats}

/-- The claims that cells of the kind let go. -/
def gone (st : KindStats) : Nat :=
  st.released.toNat + st.transferred.toNat

theorem outstanding_none : st.outstanding = none ↔ UInt64.size ≤ st.gone := by
  rw [outstanding, Option.map_eq_none_iff, checkedAdd]
  split
  · next h => exact iff_of_false (Option.some_ne_none _) (Nat.not_le.2 h)
  · next h => exact iff_of_true rfl (Nat.not_lt.1 h)

theorem outstanding_eq_some {n : UInt64} :
    st.outstanding = some n ↔ st.gone < UInt64.size ∧ n.toNat = st.held := by
  constructor
  · intro h
    have hfit : st.gone < UInt64.size := by
      by_contra hover
      rw [outstanding_none.2 (Nat.not_lt.1 hover)] at h
      cases h
    obtain ⟨m, hm, hheld⟩ := outstanding_some hfit
    rw [h] at hm
    cases hm
    exact ⟨hfit, hheld⟩
  · rintro ⟨hfit, hn⟩
    obtain ⟨m, hm, hheld⟩ := outstanding_some hfit
    rw [hm, UInt64.toNat_inj.1 (hheld.trans hn.symm)]

theorem leaks_eq_some {b : Bool} :
    st.leaks = some b ↔ st.gone < UInt64.size ∧ b = decide (0 < st.held) := by
  rw [leaks, Option.map_eq_some_iff]
  constructor
  · rintro ⟨n, hn, rfl⟩
    obtain ⟨hfit, hheld⟩ := outstanding_eq_some.1 hn
    refine ⟨hfit, decide_eq_decide.2 ?_⟩
    rw [UInt64.lt_iff_toNat_lt, hheld]
    rfl
  · rintro ⟨hfit, rfl⟩
    obtain ⟨n, hn, hheld⟩ := outstanding_some hfit
    refine ⟨n, hn, decide_eq_decide.2 ?_⟩
    rw [UInt64.lt_iff_toNat_lt, hheld]
    rfl

/-- Counters that agree event by event are the same. -/
theorem eq_of_count (h : ∀ e, (st.count e).toNat = (st'.count e).toNat) : st = st' := by
  have hcount : ∀ e, st.count e = st'.count e := fun e => UInt64.toNat_inj.1 (h e)
  cases st
  cases st'
  rw [KindStats.mk.injEq]
  exact ⟨hcount .constructed, hcount .bound, hcount .released, hcount .transferred,
    hcount .unboundAccess, hcount .cellFreed⟩

end KindStats

/-- **Outstanding claims are exact where they are a number at all.** They are the claims that were
taken over less those that were let go, and never less than zero, provided that the claims that were
let go fit into one counter. Otherwise there is no answer. -/
theorem outstanding_exact (st : KindStats) :
    (∀ n, st.outstanding = some n ↔ st.gone < UInt64.size ∧
      (n.toNat : Int) = max 0 (st.bound.toNat - (st.released.toNat + st.transferred.toNat))) ∧
    (∀ b, st.leaks = some b ↔ st.gone < UInt64.size ∧
      b = decide ((st.released.toNat + st.transferred.toNat : Int) < st.bound.toNat)) ∧
    (st.outstanding = none ↔ UInt64.size ≤ st.gone) ∧
    (st.leaks = none ↔ UInt64.size ≤ st.gone) := by
  refine ⟨fun n => ?_, fun b => ?_, KindStats.outstanding_none, ?_⟩
  · rw [KindStats.outstanding_eq_some]
    refine and_congr_right fun _ => ?_
    rw [KindStats.held]
    omega
  · rw [KindStats.leaks_eq_some]
    refine and_congr_right fun _ => ?_
    have hpos : 0 < st.held ↔
        (st.released.toNat + st.transferred.toNat : Int) < st.bound.toNat := by
      rw [KindStats.held]
      omega
    rw [decide_eq_decide.2 hpos]
  · rw [KindStats.leaks, Option.map_eq_none_iff]
    exact KindStats.outstanding_none

/-- Counters for which there is no answer: one more claim was let go than fits into a counter. -/
def KindStats.overflowing : KindStats :=
  { bound := 1, released := 18446744073709551615, transferred := 1 }

/-- **No answer where there should be zero.** The operation that asks for the outstanding claims of
such counters breaks off. -/
theorem outstanding_overflows :
    ¬ (∀ st : KindStats, ∃ n, st.outstanding = some n ∧
      (n.toNat : Int) = max 0 (st.bound.toNat - (st.released.toNat + st.transferred.toNat))) ∧
    ∃ s t : State, s.thread.stats = .overflowing ∧
      step 1 (.stats .outstanding) s = .ended (.error (.panic .overflow)) t := by
  have hnone : KindStats.overflowing.outstanding = none := by decide
  constructor
  · intro h
    obtain ⟨n, hn, -⟩ := h .overflowing
    rw [hnone] at hn
    cases hn
  · exact ⟨{ build := .plain, thread := { stats := .overflowing } }, _, rfl, rfl⟩

/-! ## The past of a profiler -/

/-- A call that changes a profiler. -/
inductive Profiler.Call
  | record (kind : CellKind) (event : ClaimEvent)
  | enable
  | disable
  | reset
deriving DecidableEq

namespace Profiler.Call

/-- What the profiler is told of. -/
def told? : Call → Option (CellKind × ClaimEvent)
  | record k e => some (k, e)
  | _ => none

/-- Whether the profiler is on after these calls; `first` says whether it was before. -/
def on (first : Bool) : List Call → Bool
  | [] => first
  | enable :: _ => true
  | disable :: _ => false
  | _ :: past => on first past

/-- What the profiler was told of while it was on, since it was reset last. -/
def counted (first : Bool) : List Call → List (CellKind × ClaimEvent)
  | [] => []
  | reset :: _ => []
  | record k e :: past => if on first past then (k, e) :: counted first past else counted first past
  | _ :: past => counted first past

/-- The kinds of which something was counted, in the order of reports. -/
def kinds (first : Bool) (past : List Call) : List CellKind :=
  CellKind.all.filter fun k => (counted first past).any (·.1 = k)

/-- The events that a profiler was told of are put in another order, between two calls that are not
of this kind. -/
inductive Reordered : List Call → List Call → Prop
  | intro (later earlier : List Call) {told told' : List Call} (hp : told.Perm told')
      (h : ∀ c ∈ told, c.told?.isSome) :
      Reordered (later ++ told ++ earlier) (later ++ told' ++ earlier)

variable {past past' told told' : List Call}

theorem counted_le (first : Bool) (past : List Call) :
    (counted first past).length ≤ (past.filterMap told?).length := by
  induction past with
  | nil => exact le_rfl
  | cons c past ih =>
    cases c with
    | record k e =>
      rw [counted, List.filterMap_cons_some (f := told?) rfl, List.length_cons]
      split
      · exact Nat.succ_le_succ ih
      · exact Nat.le_succ_of_le ih
    | enable => exact ih
    | disable => exact ih
    | reset => exact Nat.zero_le _

/-- Events alone do not switch a profiler. -/
theorem on_told (h : ∀ c ∈ told, c.told?.isSome) : on first (told ++ past) = on first past := by
  induction told with
  | nil => rfl
  | cons c told ih =>
    have ih := ih fun c' hc' => h c' (List.mem_cons_of_mem _ hc')
    have hc := h c List.mem_cons_self
    cases c with
    | record k e => exact ih
    | _ => cases hc

theorem counted_told (h : ∀ c ∈ told, c.told?.isSome) :
    counted first (told ++ past) =
      (if on first past then told.filterMap told? else []) ++ counted first past := by
  induction told with
  | nil => simp
  | cons c told ih =>
    have hrest : ∀ c' ∈ told, c'.told?.isSome := fun c' hc' => h c' (List.mem_cons_of_mem _ hc')
    have hc := h c List.mem_cons_self
    cases c with
    | record k e =>
      rw [List.cons_append, counted, on_told hrest, ih hrest,
        List.filterMap_cons_some (f := told?) rfl]
      split
      · rfl
      · rfl
    | _ => cases hc

/-- What comes later does not tell apart two pasts that leave the profiler on alike. -/
theorem later_congr (later : List Call) (hon : on first past = on first past')
    (hcounted : (counted first past).Perm (counted first past')) :
    on first (later ++ past) = on first (later ++ past') ∧
      (counted first (later ++ past)).Perm (counted first (later ++ past')) := by
  induction later with
  | nil => exact ⟨hon, hcounted⟩
  | cons c later ih =>
    obtain ⟨ihon, ihcounted⟩ := ih
    cases c with
    | record k e =>
      refine ⟨ihon, ?_⟩
      rw [List.cons_append, List.cons_append, counted, counted, ihon]
      split
      · exact ihcounted.cons _
      · exact ihcounted
    | enable => exact ⟨rfl, ihcounted⟩
    | disable => exact ⟨rfl, ihcounted⟩
    | reset => exact ⟨ihon, .nil⟩

/-- The order of events makes no difference to what is counted. -/
theorem Reordered.counted (first : Bool) (h : Reordered past past') :
    on first past = on first past' ∧
      (Call.counted first past).Perm (Call.counted first past') ∧
      (past.filterMap told?).length = (past'.filterMap told?).length := by
  obtain @⟨later, earlier, told, told', hp, htold⟩ := h
  have htold' : ∀ c ∈ told', c.told?.isSome := fun c hc => htold c (hp.mem_iff.2 hc)
  have hon : on first (told ++ earlier) = on first (told' ++ earlier) :=
    (on_told htold).trans (on_told htold').symm
  have hperm : (Call.counted first (told ++ earlier)).Perm
      (Call.counted first (told' ++ earlier)) := by
    rw [counted_told htold, counted_told htold']
    refine List.Perm.append_right _ ?_
    split
    · exact hp.filterMap _
    · exact .nil
  rw [List.append_assoc, List.append_assoc]
  obtain ⟨h₁, h₂⟩ := later_congr later hon hperm
  refine ⟨h₁, h₂, (List.Perm.filterMap _ ?_).length_eq⟩
  exact (hp.append_right _).append_left _

end Profiler.Call

/-! ## A profiler after its past -/

/-- What is found under a key does not depend on the order of the entries. -/
theorem Table.get?_perm {κ α : Type} [DecidableEq κ] {t t' : Table κ α}
    (h : t.entries.Perm t'.entries) (key : κ) : t.get? key = t'.get? key := by
  refine Option.ext fun x => ?_
  rw [← Table.mem_entries_iff, ← Table.mem_entries_iff, h.mem_iff]

/-- Different things that are in a list are no more than the list has room for. -/
theorem sum_count_le {α : Type} [BEq α] [LawfulBEq α] {xs : List α} (hx : xs.Nodup) (l : List α) :
    (xs.map fun x => l.count x).sum ≤ l.length := by
  induction xs generalizing l with
  | nil => exact Nat.zero_le _
  | cons a xs ih =>
    obtain ⟨ha, hx⟩ := List.nodup_cons.1 hx
    have hrest : (xs.map fun x => l.count x) = xs.map fun x => (l.filter (! · == a)).count x := by
      refine List.map_congr_left fun x hxs => (List.count_filter ?_).symm
      rw [Bool.not_eq_true', beq_eq_false_iff_ne]
      exact fun heq => ha (heq ▸ hxs)
    have hsplit : l.length = l.count a + (l.filter (! · == a)).length := by
      rw [l.length_eq_countP_add_countP (· == a), ← List.countP_eq_length_filter]
      congr 1
      refine List.countP_congr fun x _ => ?_
      simp
    rw [List.map_cons, List.sum_cons, hrest, hsplit]
    exact Nat.add_le_add_left (ih hx _) _

namespace Profiler

open Call (on counted told?)

variable {p q : Profiler} {past : List Call}

/-- What a call makes of a profiler. -/
def call (p : Profiler) : Call → Option Profiler
  | .record k e => p.record k e
  | .enable => some p.enable
  | .disable => some p.disable
  | .reset => some p.reset

/-- What calls make of a profiler, one after the other. -/
def after (p : Profiler) : List Call → Option Profiler
  | [] => some p
  | c :: past => (p.after past).bind (·.call c)

/-- The profiler says what the past comes to. -/
structure Tells (p : Profiler) (first : Bool) (past : List Call) : Prop where
  enabled : p.enabled = on first past
  counter : ∀ k e, p.counter k e = (counted first past).count (k, e)
  recorded : ∀ k, (p.stats.get? k).isSome ↔ ∃ e, (k, e) ∈ counted first past

theorem Tells.start (first : Bool) : Tells { enabled := first } first [] where
  enabled := rfl
  counter k e := by cases k <;> cases e <;> rfl
  recorded k := by
    refine iff_of_false (by cases k <;> nofun) ?_
    rintro ⟨e, he⟩
    cases he

/-- A profiler without counters has counted nothing. -/
theorem counter_reset (k : CellKind) (e : ClaimEvent) : p.reset.counter k e = 0 := by
  cases e <;> rfl

/-- An event that has room is counted, if the profiler is on. -/
theorem Tells.record (h : p.Tells first past)
    (hroom : (counted first past).length + 1 < UInt64.size) (k : CellKind) (e : ClaimEvent) :
    ∃ p', p.record k e = some p' ∧ p'.Tells first (.record k e :: past) := by
  by_cases hon : on first past = true
  · have hp : p.enabled = true := h.enabled.trans hon
    have hcounter : p.counter k e ≤ (counted first past).length := by
      rw [h.counter]
      exact List.count_le_length
    obtain ⟨p', hp'⟩ : ∃ p', p.record k e = some p' := by
      refine Option.isSome_iff_exists.1 (Option.isSome_iff_ne_none.2 fun hnone => ?_)
      have hfull := (record_none_iff.1 hnone).2
      omega
    obtain ⟨hon', hcounts⟩ := record_counts hp' hp
    have hstats : ∃ st, p'.stats = p.stats.insert k st := by
      rw [Profiler.record, if_pos hp] at hp'
      obtain ⟨st, -, rfl⟩ := Option.map_eq_some_iff.1 hp'
      exact ⟨st, rfl⟩
    obtain ⟨st, hstats⟩ := hstats
    have hcounted : counted first (.record k e :: past) = (k, e) :: counted first past := if_pos hon
    refine ⟨p', hp', hon'.trans hon.symm, fun k' e' => ?_, fun k' => ?_⟩
    · rw [hcounts, h.counter, hcounted, List.count_cons, List.count_cons, List.count_nil,
        Nat.zero_add]
    · rw [hstats, hcounted, Table.get?_insert]
      by_cases hk : k' = k
      · subst hk
        rw [if_pos rfl]
        exact iff_of_true rfl ⟨e, List.mem_cons_self⟩
      · rw [if_neg hk, h.recorded]
        refine exists_congr fun e' => ?_
        rw [List.mem_cons, Prod.mk.injEq]
        exact ⟨.inr, fun h => h.resolve_left fun heq => hk heq.1⟩
  · have hoff : p.enabled = false := h.enabled.trans (Bool.eq_false_iff.2 hon)
    have hsame : p.record k e = some p := by
      rw [Profiler.record, if_neg (by rw [hoff]; exact Bool.false_ne_true)]
    refine ⟨p, hsame, h.enabled, ?_, ?_⟩
    · intro k' e'
      rw [h.counter, counted, if_neg hon]
    · intro k'
      rw [h.recorded, counted, if_neg hon]

/-- So the profiler tells what happened, after every past that is short enough. -/
theorem after_tells (first : Bool) (hfew : (past.filterMap told?).length < UInt64.size) :
    ∃ p, ({ enabled := first } : Profiler).after past = some p ∧ p.Tells first past := by
  induction past with
  | nil => exact ⟨_, rfl, .start first⟩
  | cons c past ih =>
    cases c with
    | record k e =>
      rw [List.filterMap_cons_some (f := told?) rfl, List.length_cons] at hfew
      obtain ⟨p, hp, htells⟩ := ih (Nat.lt_of_succ_lt hfew)
      have hroom := Call.counted_le first past
      obtain ⟨p', hp', htells'⟩ := htells.record (by omega) k e
      exact ⟨p', by rw [after, hp]; exact hp', htells'⟩
    | enable =>
      obtain ⟨p, hp, htells⟩ := ih hfew
      exact ⟨p.enable, by rw [after, hp]; rfl, rfl, htells.counter, htells.recorded⟩
    | disable =>
      obtain ⟨p, hp, htells⟩ := ih hfew
      exact ⟨p.disable, by rw [after, hp]; rfl, rfl, htells.counter, htells.recorded⟩
    | reset =>
      obtain ⟨p, hp, htells⟩ := ih hfew
      refine ⟨p.reset, by rw [after, hp]; rfl, htells.enabled, fun k e => ?_, fun k => ?_⟩
      · rw [counter_reset]
        rfl
      · refine iff_of_false (by cases k <;> nofun) ?_
        rintro ⟨e, he⟩
        cases he

namespace Tells

/-- The counters of a kind are what was counted of it. -/
theorem kindStats_eq (h : p.Tells first past) {past' : List Call} (h' : q.Tells first past')
    (hp : (counted first past).Perm (counted first past')) (k : CellKind) :
    p.kindStats k = q.kindStats k := by
  refine KindStats.eq_of_count fun e => ?_
  show p.counter k e = q.counter k e
  rw [h.counter, h'.counter, hp.count_eq]

/-- All that was let go was told of. -/
theorem fits (h : p.Tells first past) (hfew : (counted first past).length < UInt64.size) :
    p.Fits := by
  intro k
  have hdiffer : [(k, ClaimEvent.released), (k, .transferred)].Nodup := by simp
  have hsum := sum_count_le hdiffer (counted first past)
  rw [List.map_cons, List.map_cons, List.map_nil, List.sum_cons, List.sum_cons, List.sum_nil]
    at hsum
  rw [h.counter, h.counter]
  omega

/-- All that is held was taken over, and that was told of. -/
theorem sum_held_le (h : p.Tells first past) :
    (CellKind.all.map fun k => (p.kindStats k).held).sum ≤ (counted first past).length := by
  have hbound : ∀ k, (p.kindStats k).held ≤ (counted first past).count (k, .bound) := by
    intro k
    rw [← h.counter]
    exact Nat.sub_le _ _
  calc (CellKind.all.map fun k => (p.kindStats k).held).sum
      ≤ (CellKind.all.map fun k => (counted first past).count (k, .bound)).sum :=
        List.sum_le_sum fun k _ => hbound k
    _ = ((CellKind.all.map fun k => (k, ClaimEvent.bound)).map
          fun x => (counted first past).count x).sum := by rw [List.map_map]; rfl
    _ ≤ (counted first past).length := by
        refine sum_count_le ?_ _
        decide

/-- The kinds with counters are those of which something was counted. -/
theorem recorded_eq (h : p.Tells first past) :
    p.recorded = (Call.kinds first past).map fun k => (k, p.kindStats k) := by
  rw [Profiler.recorded, Call.kinds]
  generalize CellKind.all = K
  induction K with
  | nil => rfl
  | cons k K ih =>
    have hk := h.recorded k
    have hcounted :
        (counted first past).any (·.1 = k) = true ↔ ∃ e, (k, e) ∈ counted first past := by
      simp
    cases hst : p.stats.get? k with
    | none =>
      rw [hst] at hk
      rw [List.filterMap_cons_none (by rw [hst]; rfl), ih, List.filter_cons_of_neg]
      rw [hcounted, ← hk]
      nofun
    | some st =>
      rw [hst] at hk
      rw [List.filterMap_cons_some (by rw [hst]; rfl), ih, List.filter_cons_of_pos, List.map_cons,
        kindStats_some hst]
      rw [hcounted, ← hk]
      rfl

end Tells

/-! ## What is asked of a profiler -/

/-- The kinds whose cells hold claims, with their counters. -/
def leakingKinds (p : Profiler) : Option (List (CellKind × KindStats)) :=
  (p.recorded.mapM fun ks : CellKind × KindStats => ks.2.leaks.map (ks, ·)).map fun l =>
    (l.filter (·.2)).map (·.1)

/-- Answers that are all there are there together. -/
theorem mapM_of_forall {α β : Type} {f : α → Option β} {g : α → β} {l : List α}
    (h : ∀ x ∈ l, f x = some (g x)) : l.mapM f = some (l.map g) := by
  induction l with
  | nil => rfl
  | cons x l ih =>
    rw [List.mapM_cons, h x List.mem_cons_self, ih fun y hy => h y (List.mem_cons_of_mem _ hy)]
    rfl

section Fitting

variable (hfits : p.Fits)

include hfits

/-- The claims that are held of each kind. -/
theorem Fits.held_eq (k : CellKind) :
    (p.kindStats k).outstanding = some (.ofNat (p.kindStats k).held) := by
  have hlt : (p.kindStats k).held < UInt64.size :=
    Nat.lt_of_le_of_lt (Nat.sub_le _ _) (p.kindStats k).bound.toNat_lt_size
  exact KindStats.outstanding_eq_some.2 ⟨hfits k, UInt64.toNat_ofNat_of_lt hlt⟩

/-- All claims that are held, in whatever order the counters are kept. -/
theorem Fits.total_eq (hsum : (CellKind.all.map fun k => (p.kindStats k).held).sum < UInt64.size)
    (hperm : q.stats.entries.Perm p.stats.entries) :
    q.outstanding = some (.ofNat (CellKind.all.map fun k => (p.kindStats k).held).sum) := by
  have hget : ∀ k, q.kindStats k = p.kindStats k := by
    intro k
    rw [kindStats, kindStats, Table.get?_perm hperm]
  have hq : q.Fits := by
    intro k
    rw [counter, counter, hget]
    exact hfits k
  obtain ⟨n, hn, hheld⟩ := outstanding_some hq (by simpa only [hget] using hsum)
  simp only [hget] at hheld
  rw [hn, ← hheld, UInt64.ofNat_toNat]

/-- The kinds whose cells hold claims, each with how many. -/
theorem Fits.leaking_eq : p.leaking =
    some ((CellKind.all.filter fun k => 0 < (p.kindStats k).held).map
      fun k => (k, .ofNat (p.kindStats k).held)) := by
  obtain ⟨L, hL, hheld⟩ := leaking_some hfits
  have hback : L = (L.map fun x => (x.1, x.2.toNat)).map fun x => (x.1, .ofNat x.2) := by
    rw [List.map_map]
    refine (List.map_id'' (fun x => ?_) L).symm
    exact Prod.ext rfl UInt64.ofNat_toNat
  rw [hL, hback, hheld, List.map_map]
  rfl

end Fitting

/-- Kinds without counters hold nothing. -/
theorem Tells.leaking_kinds (h : p.Tells first past) :
    (Call.kinds first past).filter (fun k => 0 < (p.kindStats k).held) =
      CellKind.all.filter fun k => 0 < (p.kindStats k).held := by
  rw [Call.kinds, List.filter_filter]
  refine List.filter_congr fun k _ => ?_
  by_cases hpos : 0 < (p.kindStats k).held
  · have hbound : 0 < (counted first past).count (k, .bound) := by
      rw [← h.counter]
      exact hpos.trans_le (Nat.sub_le _ _)
    have hany : (counted first past).any (·.1 = k) = true :=
      List.any_eq_true.2 ⟨_, List.count_pos_iff.1 hbound, decide_eq_true rfl⟩
    rw [hany, Bool.and_true]
  · rw [decide_eq_false hpos, Bool.false_and]

theorem Tells.leakingKinds_eq (h : p.Tells first past) (hfits : p.Fits) :
    p.leakingKinds = some
      ((CellKind.all.filter fun k => 0 < (p.kindStats k).held).map fun k => (k, p.kindStats k)) := by
  rw [leakingKinds, h.recorded_eq, ← h.leaking_kinds]
  rw [mapM_of_forall (g := fun ks => (ks, decide (0 < ks.2.held)))]
  · rw [Option.map_some, List.map_map, List.filter_map, List.map_map]
    rfl
  · intro ks hks
    obtain ⟨k, -, rfl⟩ := List.mem_map.1 hks
    rw [KindStats.leaks_eq_some.2 ⟨hfits k, rfl⟩]
    rfl

/-- What a report says: one line for every kind of which something was counted. -/
def lines (p : Profiler) (first : Bool) (past : List Call) : List Event :=
  (Call.kinds first past).map fun k =>
    .summary k (p.kindStats k) (.ofNat (p.kindStats k).held)

theorem Tells.report_apply (h : p.Tells first past) (hfits : p.Fits) (s : State) :
    Action.report p s = .done () ((p.lines first past).foldl State.emit s) := by
  rw [Action.report, h.recorded_eq, lines]
  generalize Call.kinds first past = K
  induction K generalizing s with
  | nil => rfl
  | cons k K ih =>
    rw [List.map_cons, List.map_cons, List.foldl_cons, ← ih]
    show ((Action.checked (p.kindStats k).outstanding s).bind fun n s => _).bind _ = _
    rw [hfits.held_eq k]
    rfl

end Profiler

/-- The profiler of the thread, or the one of the process. -/
def State.profilerOf (s : State) (own : Bool) : Profiler :=
  if own then s.thread.profiler else s.profiler

namespace Action

/-- An operation that only asks a profiler leaves the state alone, but for what is reported. -/
theorem performProfiler_asks {p : Profiler} {past : List Profiler.Call} (h : p.Tells first past)
    (hfits : p.Fits)
    (hsum : (CellKind.all.map fun k => (p.kindStats k).held).sum < UInt64.size) {own : Bool}
    (hown : s.profilerOf own = p) :
    (∀ k, performProfiler own (.kind k) s = .done (.counters (p.kindStats k)) s) ∧
    performProfiler own .report s = .done .nothing ((p.lines first past).foldl State.emit s) ∧
    performProfiler own .stats s = .done (.profile {
      enabled := p.enabled
      kinds := CellKind.all.map p.kindStats
      outstanding := .ofNat (CellKind.all.map fun k => (p.kindStats k).held).sum
      leaking := (CellKind.all.filter fun k => 0 < (p.kindStats k).held).map
        fun k => (k, .ofNat (p.kindStats k).held) }) s := by
  have hprofiler : profiler own s = .done p s := by
    rw [← hown]
    cases own <;> rfl
  refine ⟨fun k => ?_, ?_, ?_⟩
  · rw [performProfiler, bind_apply, hprofiler]
    rfl
  · rw [performProfiler, bind_apply, hprofiler, done_bind]
    show (report p s).bind _ = _
    rw [h.report_apply hfits]
    rfl
  · have hreport : p.report? = some {
        enabled := p.enabled
        kinds := CellKind.all.map p.kindStats
        outstanding := .ofNat (CellKind.all.map fun k => (p.kindStats k).held).sum
        leaking := (CellKind.all.filter fun k => 0 < (p.kindStats k).held).map
          fun k => (k, .ofNat (p.kindStats k).held) } := by
      rw [Profiler.report?, hfits.total_eq hsum (.refl _), hfits.leaking_eq]
      rfl
    rw [performProfiler, bind_apply, hprofiler, done_bind]
    show (checked p.report? s).bind _ = _
    rw [hreport]
    rfl

end Action

open Profiler.Call (on counted told? Reordered) in
/-- **A profiler counts what it is told of while it is on**, since it was reset last. As long as it
is told of fewer events than a counter can count, no call fails, and the order of the events between
two other calls makes no difference. What is asked of it then has an answer, which does not depend on
the order in which it keeps its counters, and changes nothing: the claims that each kind holds and
their sum, the kinds that hold some, and a report with one line for every kind of which something was
counted. -/
theorem profiler_counts {start : Profiler} (hstart : start = .new ∨ start = .disabled)
    {past : List Profiler.Call} (hfew : (past.filterMap told?).length < UInt64.size) :
    ∃ p, start.after past = some p ∧ p.enabled = on start.enabled past ∧
      (∀ k e, ((p.kindStats k).count e).toNat = (counted start.enabled past).count (k, e)) ∧
      (∀ past', Reordered past past' → ∃ p', start.after past' = some p' ∧
        p'.enabled = p.enabled ∧ ∀ k, p'.kindStats k = p.kindStats k) ∧
      (∀ k, (p.kindStats k).outstanding = some (.ofNat (p.kindStats k).held)) ∧
      (CellKind.all.map fun k => (p.kindStats k).held).sum < UInt64.size ∧
      (∀ q : Profiler, q.stats.entries.Perm p.stats.entries →
        q.outstanding = some (.ofNat (CellKind.all.map fun k => (p.kindStats k).held).sum)) ∧
      p.leakingKinds = some ((CellKind.all.filter fun k => 0 < (p.kindStats k).held).map
        fun k => (k, p.kindStats k)) ∧
      ∀ s own, s.profilerOf own = p →
        (∀ k, Action.performProfiler own (.kind k) s = .done (.counters (p.kindStats k)) s) ∧
        Action.performProfiler own .report s =
          .done .nothing ((p.lines start.enabled past).foldl State.emit s) ∧
        Action.performProfiler own .stats s = .done (.profile {
          enabled := p.enabled
          kinds := CellKind.all.map p.kindStats
          outstanding := .ofNat (CellKind.all.map fun k => (p.kindStats k).held).sum
          leaking := (CellKind.all.filter fun k => 0 < (p.kindStats k).held).map
            fun k => (k, .ofNat (p.kindStats k).held) }) s := by
  have hempty : start = { enabled := start.enabled } := by
    rcases hstart with rfl | rfl <;> rfl
  generalize start.enabled = first at hempty ⊢
  subst hempty
  obtain ⟨p, hp, htells⟩ := Profiler.after_tells first hfew
  have hshort : (counted first past).length < UInt64.size :=
    (Profiler.Call.counted_le first past).trans_lt hfew
  have hfits := htells.fits hshort
  have hsum := htells.sum_held_le.trans_lt hshort
  refine ⟨p, hp, htells.enabled, htells.counter, fun past' hre => ?_, hfits.held_eq, hsum,
    fun q hq => hfits.total_eq hsum hq, htells.leakingKinds_eq hfits,
    fun s own hown => Action.performProfiler_asks htells hfits hsum hown⟩
  obtain ⟨hon, hperm, hlength⟩ := hre.counted first
  obtain ⟨p', hp', htells'⟩ := Profiler.after_tells first (hlength ▸ hfew)
  refine ⟨p', hp', ?_, fun k => (htells.kindStats_eq htells' hperm k).symm⟩
  rw [htells'.enabled, htells.enabled, hon]

/-- Three claims are bound and one released, the last while the profiler is off. -/
theorem profiler_counts_off :
    let past : List Profiler.Call := [.record .shared .released, .disable, .record .shared .bound,
      .record .temp .bound, .record .shared .bound]
    ∃ p, Profiler.new.after past = some p ∧ p.leakingKinds =
      some [(.shared, { bound := 2 }), (.temp, { bound := 1 })] := by
  intro past
  have hstart : Profiler.new = .new ∨ Profiler.new = .disabled := .inl rfl
  have hfew : (past.filterMap Profiler.Call.told?).length < UInt64.size := by decide
  obtain ⟨p, hp, -, -, -, -, -, -, hleaking, -⟩ := profiler_counts hstart hfew
  refine ⟨p, hp, hleaking.trans ?_⟩
  cases hp
  decide

end ClaimCells
