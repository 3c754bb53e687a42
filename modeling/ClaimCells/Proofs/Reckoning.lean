import ClaimCells.Proofs.Undisturbed

/-!
# Calls of the ledger

Whoever calls the ledger, and with whatever numbers, its books agree: every object that was handed
out either has claims or is freed, and is freed for good; and the claims that there are, and those
that were given up, are those that objects came with and those that were acquired. A call that is
refused changes nothing.

Main result: `ledger_balances`.
-/

namespace ClaimCells

open Act (Outcome)

variable {s t u : State} {o x : ObjectId} {k k' : Ledger} {n : Nat}

/-! ## The books -/

theorem Table.size_eq_sum {κ α : Type} (t : Table κ α) : t.size = t.sum fun _ _ => 1 := by
  unfold Table.size Table.sum
  generalize t.entries = l
  induction l with
  | nil => rfl
  | cons p l ih =>
    rw [List.length_cons, ih, Nat.add_comm]
    rfl

/-- The books of a ledger agree after `n` calls. -/
structure Ledger.Balanced (k : Ledger) (n : Nat) : Prop extends k.Sound where
  positive : ∀ o, (k.claims.get? o).isSome ∨ o ∈ k.freed → 0 < o
  once : k.freed.Nodup
  handed : k.live + k.freed.length = k.last
  total : k.total + k.releases = k.last + k.acquires
  few : k.last + k.acquires + k.releases ≤ n

namespace Ledger.Balanced

theorem empty : Ledger.Balanced {} 0 where
  counted o n h := by cases h
  freed o h := by cases h
  gone o hpos hle := absurd hle (Nat.not_le.2 hpos)
  positive o h := by
    rcases h with h | h
    · cases h
    · cases h
  once := .nil
  handed := rfl
  total := rfl
  few := le_rfl

theorem later (h : k.Balanced n) : k.Balanced (n + 1) :=
  { h with few := h.few.trans (Nat.le_succ n) }

theorem allocate (h : k.Balanced n) : k.allocate.2.Balanced (n + 1) where
  toSound := h.toSound.allocate
  positive o ho := by
    rcases ho with ho | ho
    · by_cases heq : o = k.last + 1
      · rw [heq]
        exact Nat.succ_pos _
      · refine h.positive o (.inl ?_)
        rwa [show k.allocate.2.claims = k.claims.insert (k.last + 1) 1 from rfl,
          Table.get?_insert_ne _ _ heq] at ho
    · exact h.positive o (.inr ho)
  once := h.once
  handed := by
    have hsize : (k.claims.insert (k.last + 1) 1).size = 1 + k.claims.size := by
      rw [Table.size_eq_sum, Table.size_eq_sum, Table.sum_insert_fresh h.toSound.fresh]
    have hhanded := h.handed
    show (k.claims.insert (k.last + 1) 1).size + k.freed.length = k.last + 1
    rw [hsize]
    unfold Ledger.live at hhanded
    omega
  total := by
    have hsum : (k.claims.insert (k.last + 1) 1).sum (fun _ n => n) = 1 + k.total :=
      Table.sum_insert_fresh h.toSound.fresh _ _
    have htotal := h.total
    show (k.claims.insert (k.last + 1) 1).sum (fun _ n => n) + k.releases =
      k.last + 1 + k.acquires
    omega
  few := by
    have hfew := h.few
    show k.last + 1 + k.acquires + k.releases ≤ n + 1
    omega

theorem acquire (h : k.Balanced n) (hk : k.acquire o = .ok k') : k'.Balanced (n + 1) := by
  have hsound := h.toSound.acquire hk
  obtain ⟨c, hc, -, rfl⟩ := acquire_eq hk
  have hsize : (k.claims.insert o (c + 1)).size = k.claims.size := by
    rw [Table.size_eq_sum, Table.size_eq_sum, Table.sum_insert, Table.sum_erase_of_get? hc,
      Nat.add_comm]
  have hsum : (k.claims.insert o (c + 1)).sum (fun _ n => n) = k.total + 1 := by
    have hold := Table.sum_erase_of_get? hc fun _ n => n
    rw [Table.sum_insert, Ledger.total, hold]
    omega
  refine { hsound with
    positive := fun x hx => ?_, once := h.once, handed := ?_, total := ?_, few := ?_ }
  · rcases hx with hx | hx
    · refine h.positive x (.inl ?_)
      replace hx : ((k.claims.insert o (c + 1)).get? x).isSome := hx
      rw [Table.get?_insert] at hx
      split at hx
      · next heq => rw [heq, hc]; rfl
      · exact hx
    · exact h.positive x (.inr hx)
  · have hhanded := h.handed
    show (k.claims.insert o (c + 1)).size + k.freed.length = k.last
    rw [hsize]
    exact hhanded
  · have htotal := h.total
    show (k.claims.insert o (c + 1)).sum (fun _ n => n) + k.releases = k.last + (k.acquires + 1)
    omega
  · have hfew := h.few
    show k.last + (k.acquires + 1) + k.releases ≤ n + 1
    omega

theorem release (h : k.Balanced n) (hk : k.release o = .ok k') : k'.Balanced (n + 1) := by
  have halive := h.toSound.alive hk
  obtain ⟨k'', hk'', hsound, -⟩ := h.toSound.release halive
  obtain rfl : k' = k'' := Except.ok.inj (hk.symm.trans hk'')
  have hsum := total_release hk h.toSound
  obtain ⟨hlast, hacq, hrel, -⟩ := release_rest hk
  have htotal := h.total
  have hfew := h.few
  -- the object moves from those with claims to the freed ones, or stays
  obtain ⟨hlisted, hnodup, hhanded⟩ : (∀ x, (k'.claims.get? x).isSome ∨ x ∈ k'.freed →
      (k.claims.get? x).isSome ∨ x ∈ k.freed) ∧ k'.freed.Nodup ∧
      k'.live + k'.freed.length = k.live + k.freed.length := by
    cases hc : k.claims.get? o with
    | none => rw [count, hc] at halive; exact absurd halive (lt_irrefl _)
    | some c =>
      have hfree := (h.counted o c hc).2.2
      have hsize := Table.sum_erase_of_get? hc fun _ _ => 1
      rw [← Table.size_eq_sum, ← Table.size_eq_sum] at hsize
      rw [Ledger.release, if_neg (by rw [h.toSound.not_freed halive]; exact Bool.false_ne_true), hc]
        at hk
      dsimp only at hk
      split at hk
      · cases hk
        refine ⟨fun x hx => ?_, List.nodup_cons.2 ⟨hfree, h.once⟩, ?_⟩
        · rcases hx with hx | hx
          · rw [Table.get?_erase] at hx
            split at hx
            · cases hx
            · exact .inl hx
          · rcases List.mem_cons.1 hx with rfl | hx
            · exact .inl (by rw [hc]; rfl)
            · exact .inr hx
        · show (k.claims.erase o).size + (o :: k.freed).length = k.claims.size + k.freed.length
          rw [List.length_cons]
          omega
      · cases hk
        refine ⟨fun x hx => ?_, h.once, ?_⟩
        · rcases hx with hx | hx
          · rw [Table.get?_insert] at hx
            split at hx
            · next heq => exact .inl (by rw [heq, hc]; rfl)
            · exact .inl hx
          · exact .inr hx
        · show (k.claims.insert o (c - 1)).size + k.freed.length = k.claims.size + k.freed.length
          rw [Table.size_eq_sum, Table.sum_insert, ← Table.size_eq_sum]
          omega
  exact { hsound with
    positive := fun x hx => h.positive x (hlisted x hx)
    once := hnodup
    handed := by rw [hhanded, hlast]; exact h.handed
    total := by omega
    few := by omega }

end Ledger.Balanced

/-- What is refused, an acquisition as well as a release, has no claim. -/
theorem Ledger.Sound.refused_iff (hk : k.Sound) (o : ObjectId) :
    ((∃ m, k.acquire o = .error m) ↔ k.claims.get? o = none) ∧
      ((∃ m, k.release o = .error m) ↔ k.claims.get? o = none) := by
  cases hc : k.claims.get? o with
  | none =>
    refine ⟨iff_of_true ?_ rfl, iff_of_true ?_ rfl⟩
    · rw [Ledger.acquire, hc]
      split <;> exact ⟨_, rfl⟩
    · rw [Ledger.release, hc]
      split <;> exact ⟨_, rfl⟩
  | some c =>
    have hpos : 0 < k.count o := by
      rw [Ledger.count, hc, Option.getD_some]
      exact (hk.counted o c hc).1
    obtain ⟨k', hk', -⟩ := hk.release hpos
    refine ⟨iff_of_false ?_ (Option.some_ne_none c), iff_of_false ?_ (Option.some_ne_none c)⟩
    · rintro ⟨m, hm⟩
      rw [Ledger.acquire, if_neg (by rw [hk.not_freed hpos]; exact Bool.false_ne_true), hc] at hm
      cases hm
    · rintro ⟨m, hm⟩
      cases hk'.symm.trans hm

/-! ## Calls -/

/-- A call of the ledger. -/
inductive Ledger.Call
  | allocate
  /-- An allocation whose claim is left to the caller. -/
  | allocateRaw
  | tryAllocate (fault : Option Cause)
  | acquire (o : ObjectId)
  | release (o : ObjectId)

namespace Ledger.Call

/-- What is done at a call, and the object that it answers. -/
def act : Call → Action (Option ObjectId)
  | .allocate => do
    return some (← Action.allocate).object
  | .allocateRaw => do
    let c ← Action.allocate
    Action.disown c
    return some c.object
  | .tryAllocate fault => do
    return some (← Action.produce .allocation fault).object
  | .acquire o => do
    Action.acquireRaw ⟨.counted, o⟩
    return some o
  | .release o => do
    Action.adopt ⟨.counted, o⟩
    Action.release ⟨.counted, o⟩
    return none

/-- Makes a call that no script waits for. -/
def run (c : Call) (s : State) : Outcome (Option ObjectId) :=
  (c.act s).settle fun _ s => .ok s

/-- How a call ends. -/
structure Ends (c : Call) (s : State) (r : Except Failure (Option ObjectId)) (t : State) :
    Prop where
  depth : t.thread.nativeDepth = s.thread.nativeDepth
  /-- A call that fails leaves the ledger as it was. -/
  failed : ∀ f, r = .error f → t.thread.ledger = s.thread.ledger
  /-- What was freed stays freed. -/
  freed : ∀ o ∈ s.thread.ledger.freed, o ∈ t.thread.ledger.freed
  /-- What is answered was not freed. -/
  answer : ∀ o, r = .ok (some o) → o ∉ s.thread.ledger.freed
  panic : (∃ p, r = .error (.panic p)) ↔
    ∃ o, (c = .acquire o ∨ c = .release o) ∧ s.thread.ledger.claims.get? o = none
  books : ∀ n, s.thread.ledger.Balanced n → t.thread.ledger.Balanced (n + 1)

theorem Ends.allocated (hk : s.thread.ledger.Sound) {c : Call}
    (hc : ∀ o, c ≠ .acquire o ∧ c ≠ .release o) (hd : t.thread.nativeDepth = s.thread.nativeDepth)
    (hl : t.thread.ledger = s.thread.ledger.allocate.2) :
    c.Ends s (.ok (some s.thread.ledger.allocate.1)) t where
  depth := hd
  failed _ hr := by cases hr
  freed o ho := by rw [hl]; exact ho
  answer o ho hfree := by
    obtain rfl : s.thread.ledger.allocate.1 = o := by simpa using ho
    exact absurd (hk.freed _ hfree) (Nat.not_succ_le_self _)
  panic := by
    refine iff_of_false ?_ ?_
    · rintro ⟨_, hp⟩
      cases hp
    · rintro ⟨o, rfl | rfl, -⟩
      · exact (hc o).1 rfl
      · exact (hc o).2 rfl
  books n hb := by rw [hl]; exact hb.allocate

theorem Ends.accepted {c : Call} {r : Option ObjectId} (hk : s.thread.ledger.Sound)
    (hc : ∀ x, c = .acquire x ∨ c = .release x → x = o) (hr : ∀ x, r = some x → x = o)
    (hlive : (s.thread.ledger.claims.get? o).isSome)
    (hd : t.thread.nativeDepth = s.thread.nativeDepth)
    (hf : ∀ x ∈ s.thread.ledger.freed, x ∈ t.thread.ledger.freed)
    (hb : ∀ n, s.thread.ledger.Balanced n → t.thread.ledger.Balanced (n + 1)) :
    c.Ends s (.ok r) t where
  depth := hd
  failed _ hr := by cases hr
  freed := hf
  answer x hx hfree := by
    obtain rfl := hr x (by simpa using hx)
    obtain ⟨n, hn⟩ := Option.isSome_iff_exists.1 hlive
    exact (hk.counted x n hn).2.2 hfree
  panic := by
    refine iff_of_false ?_ ?_
    · rintro ⟨_, hp⟩
      cases hp
    · rintro ⟨x, hx, hnone⟩
      rw [hc x hx] at hnone
      rw [hnone] at hlive
      cases hlive
  books := hb

/-- A call that fails, by a panic just if it is refused. -/
theorem Ends.failure {c : Call} {f : Failure} (hd : t.thread.nativeDepth = s.thread.nativeDepth)
    (hl : t.thread.ledger = s.thread.ledger)
    (hp : (∃ p, f = .panic p) ↔
      ∃ o, (c = .acquire o ∨ c = .release o) ∧ s.thread.ledger.claims.get? o = none) :
    c.Ends s (.error f) t where
  depth := hd
  failed _ _ := hl
  freed o ho := by rw [hl]; exact ho
  answer o ho := by cases ho
  panic := by simpa using hp
  books n hb := by rw [hl]; exact hb.later

theorem acquire_ends (hk : s.thread.ledger.Sound) (hd : s.thread.nativeDepth = 0) (o : ObjectId) :
    ∃ r t, (acquire o).run s = .ended r t ∧ (acquire o).Ends s r t := by
  cases hl : s.thread.ledger.acquire o with
  | error m =>
    have hnone := (hk.refused_iff o).1.1 ⟨m, hl⟩
    refine ⟨.error (.panic (.misuse m)), s.note (.refused m), ?_,
      .failure rfl rfl (iff_of_true ⟨_, rfl⟩ ⟨o, .inl rfl, hnone⟩)⟩
    have hraise : Action.gain ⟨.counted, o⟩ s =
        .fail (.panic (.misuse m)) (s.note (.refused m)) := by
      simp only [Action.gain, Action.bind_apply, Action.thread_apply, Action.done_bind, hl]
      rw [Action.settleLedger_error, Action.raise_bind]
      exact Action.raise_caught (s := s.note (.refused m)) hd
    rw [run, act, Action.bind_apply, Action.acquireRaw, Action.bind_apply, hraise]
    rfl
  | ok k' =>
    obtain ⟨u, hrun, hdepth, hledger⟩ : ∃ u : State, (acquire o).run s = .ended (.ok (some o)) u ∧
        u.thread.nativeDepth = s.thread.nativeDepth ∧ u.thread.ledger = k' := by
      refine ⟨((((s.setLedger k').hold ⟨.counted, o⟩).note (.acquired o)).note
        (.disowned ⟨.counted, o⟩)).letGo ⟨.counted, o⟩, ?_, rfl, rfl⟩
      rw [run, act, Action.bind_apply, Action.acquireRaw, Action.bind_apply, Action.gain]
      simp only [Action.bind_apply, Action.thread_apply, Action.done_bind, hl,
        Action.settleLedger_ok]
      rfl
    obtain ⟨n, hn, -, heq⟩ := acquire_eq hl
    refine ⟨.ok (some o), u, hrun, .accepted hk (o := o) (by simp) (by simp) ?_ hdepth
      (fun x hx => ?_) fun n hb => ?_⟩
    · rw [hn]; rfl
    · rw [hledger, heq]
      exact hx
    · rw [hledger]
      exact hb.acquire hl

theorem release_ends (hk : s.thread.ledger.Sound) (hd : s.thread.nativeDepth = 0) (o : ObjectId) :
    ∃ r t, (release o).run s = .ended r t ∧ (release o).Ends s r t := by
  cases hl : s.thread.ledger.release o with
  | error m =>
    have hnone := (hk.refused_iff o).2.1 ⟨m, hl⟩
    refine ⟨.error (.panic (.misuse m)), (((s.note (.adopted ⟨.counted, o⟩)).hold
      ⟨.counted, o⟩).letGo ⟨.counted, o⟩).note (.refused m), ?_,
      .failure rfl rfl (iff_of_true ⟨_, rfl⟩ ⟨o, .inr rfl, hnone⟩)⟩
    have hrefused := Action.release_refused
      (s := (s.note (.adopted ⟨.counted, o⟩)).hold ⟨.counted, o⟩) hl hd
    rw [run, act, Action.bind_apply, Action.adopt_apply, Action.done_bind, Action.bind_apply,
      hrefused]
    rfl
  | ok k' =>
    obtain ⟨u, hrun, hdepth, hledger⟩ : ∃ u : State, (release o).run s = .ended (.ok none) u ∧
        u.thread.nativeDepth = s.thread.nativeDepth ∧ u.thread.ledger = k' := by
      refine ⟨((((s.note (.adopted ⟨.counted, o⟩)).hold ⟨.counted, o⟩).letGo
        ⟨.counted, o⟩).setLedger k').note (.released o), ?_, rfl, rfl⟩
      have hl' : (((s.note (.adopted ⟨.counted, o⟩)).hold ⟨.counted, o⟩).letGo
        ⟨.counted, o⟩).thread.ledger.release o = .ok k' := hl
      rw [run, act, Action.bind_apply, Action.adopt_apply, Action.done_bind, Action.bind_apply,
        Action.release]
      simp only [Action.bind_apply, Action.thread_apply, Action.done_bind, Action.letGo_apply,
        hl', Action.settleLedger_ok, Action.note_apply, Action.send_apply, Act.bind, Act.settle,
        Action.ite_apply]
      split <;> rfl
    obtain ⟨-, -, -, hfreed⟩ := release_rest hl
    refine ⟨.ok none, u, hrun, .accepted hk (o := o) (by simp) (by simp) ?_ hdepth
      (fun x hx => ?_) fun n hb => ?_⟩
    · have halive := hk.alive hl
      cases hc : s.thread.ledger.claims.get? o with
      | none => rw [count, hc] at halive; exact absurd halive (lt_irrefl _)
      | some n => rfl
    · have hmem := (hfreed x).2 (.inl (List.contains_iff_mem.2 hx))
      rw [hledger]
      exact List.contains_iff_mem.1 hmem
    · rw [hledger]
      exact hb.release hl

/-- **Every call comes to an end.** It panics just if it is for a claim on an object that has
none. -/
theorem run_ends (c : Call) (hk : s.thread.ledger.Sound) (hd : s.thread.nativeDepth = 0) :
    ∃ r t, c.run s = .ended r t ∧ c.Ends s r t := by
  cases c with
  | allocate | allocateRaw => exact ⟨_, _, rfl, .allocated hk (by simp) rfl rfl⟩
  | tryAllocate fault =>
    cases fault with
    | none => exact ⟨_, _, rfl, .allocated hk (by simp) rfl rfl⟩
    | some cause => exact ⟨_, _, rfl, .failure rfl rfl (by simp)⟩
  | acquire o => exact acquire_ends hk hd o
  | release o => exact release_ends hk hd o

/-- A call that was made ended so. -/
theorem ends_of_run {c : Call} {r : Except Failure (Option ObjectId)} (h : c.run s = .ended r t)
    (hk : s.thread.ledger.Sound) (hd : s.thread.nativeDepth = 0) : c.Ends s r t := by
  obtain ⟨r', t', h', hends⟩ := run_ends c hk hd
  cases h.symm.trans h'
  exact hends

end Ledger.Call

/-- Calls one after the other, those that failed among them. -/
inductive Ledger.Called : List Call → State → State → Prop
  | nil {s : State} : Called [] s s
  | cons {s t u : State} {c : Call} {cs : List Call} {r : Except Failure (Option ObjectId)} :
      c.run s = .ended r t → Called cs t u → Called (c :: cs) s u

variable {cs : List Ledger.Call}

/-- **The books agree after any number of calls**, and what was freed before is freed. -/
theorem Ledger.Called.books (h : Ledger.Called cs s t) (hb : s.thread.ledger.Balanced n)
    (hd : s.thread.nativeDepth = 0) :
    t.thread.ledger.Balanced (n + cs.length) ∧ t.thread.nativeDepth = 0 ∧
      ∀ o ∈ s.thread.ledger.freed, o ∈ t.thread.ledger.freed := by
  induction h generalizing n with
  | nil => exact ⟨hb, hd, fun o ho => ho⟩
  | @cons s t u c cs r hrun _ ih =>
    have hends := Ledger.Call.ends_of_run hrun hb.toSound hd
    obtain ⟨hbooks, hdepth, hfreed⟩ := ih (hends.books n hb) (hends.depth.trans hd)
    refine ⟨?_, hdepth, fun o ho => hfreed o (hends.freed o ho)⟩
    rwa [List.length_cons, Nat.add_comm cs.length, ← Nat.add_assoc]

/-- **A ledger that is called balances.** After fewer calls than there are numbers of 64 bits,
whatever they asked for, every object that was handed out has claims or is freed, the claims add up
to what was handed out and acquired and not released, and no number is out of range. What is freed
stays freed and is not handed out again, and the next call ends: it panics just if it is for a claim
on an object that has none, and changes nothing if it fails. -/
theorem ledger_balances (hl : s.thread.ledger = {}) (hd : s.thread.nativeDepth = 0)
    (h : Ledger.Called cs s t) (hfew : cs.length < 2 ^ 64) :
    (∀ o c, t.thread.ledger.claims.get? o = some c → 1 ≤ c ∧ c < 2 ^ 64) ∧
    (∀ o, ¬ ((t.thread.ledger.claims.get? o).isSome ∧ o ∈ t.thread.ledger.freed)) ∧
    (∀ o, (t.thread.ledger.claims.get? o).isSome ∨ o ∈ t.thread.ledger.freed ↔
      1 ≤ o ∧ o ≤ t.thread.ledger.last) ∧
    t.thread.ledger.total + t.thread.ledger.releases =
      t.thread.ledger.last + t.thread.ledger.acquires ∧
    t.thread.ledger.freed.Nodup ∧
    t.thread.ledger.live + t.thread.ledger.freed.length = t.thread.ledger.last ∧
    t.thread.ledger.last < 2 ^ 64 ∧ t.thread.ledger.acquires < 2 ^ 64 ∧
    t.thread.ledger.releases < 2 ^ 64 ∧
    (∀ cs' u, Ledger.Called cs' t u → ∀ o ∈ t.thread.ledger.freed, o ∈ u.thread.ledger.freed ∧
      ∀ c v, ¬ Ledger.Call.run c u = .ended (.ok (some o)) v) ∧
    ∀ c : Ledger.Call, ∃ r u, c.run t = .ended r u ∧
      (∀ f, r = .error f → u.thread.ledger = t.thread.ledger) ∧
      ((∃ p, r = .error (.panic p)) ↔
        ∃ o, (c = .acquire o ∨ c = .release o) ∧ t.thread.ledger.claims.get? o = none) := by
  obtain ⟨hb, hd', -⟩ := h.books (n := 0) (by rw [hl]; exact .empty) hd
  have hbound := hb.few
  have htotal := hb.total
  have hhanded := hb.handed
  refine ⟨fun o c hc => ⟨(hb.counted o c hc).1, ?_⟩, fun o ho => ?_,
    fun o => ⟨fun ho => ?_, fun ho => ?_⟩, htotal, hb.once, hhanded,
    by omega, by omega, by omega, fun cs' u hcs o ho => ?_, fun c => ?_⟩
  · have hle : c ≤ t.thread.ledger.total := Table.le_sum hc fun _ n => n
    omega
  · obtain ⟨hsome, hfree⟩ := ho
    obtain ⟨c, hc⟩ := Option.isSome_iff_exists.1 hsome
    exact (hb.counted o c hc).2.2 hfree
  · refine ⟨hb.positive o ho, ?_⟩
    rcases ho with ho | ho
    · obtain ⟨c, hc⟩ := Option.isSome_iff_exists.1 ho
      exact (hb.counted o c hc).2.1
    · exact hb.freed o ho
  · cases hc : t.thread.ledger.claims.get? o with
    | none => exact .inr (hb.gone o ho.1 ho.2 hc)
    | some c => exact .inl rfl
  · obtain ⟨hbu, hdu, hfreed⟩ := hcs.books hb hd'
    refine ⟨hfreed o ho, fun c v hrun => ?_⟩
    exact (Ledger.Call.ends_of_run hrun hbu.toSound hdu).answer o rfl (hfreed o ho)
  · obtain ⟨r, u, hrun, hends⟩ := Ledger.Call.run_ends c hb.toSound hd'
    exact ⟨r, u, hrun, hends.failed, hends.panic⟩

/-- An object that is freed, released once more and acquired in vain. -/
theorem ledger_balances_refused : ∃ t : State,
    Ledger.Called [.allocateRaw, .acquire 1, .release 1, .release 1, .release 1, .acquire 1]
      (.start .plain false {} none) t ∧
    t.thread.ledger.freed = [1] ∧ t.thread.ledger.releases = 2 ∧
    t.thread.ledger.total + t.thread.ledger.releases =
      t.thread.ledger.last + t.thread.ledger.acquires := by
  have h : Ledger.Called [.allocateRaw, .acquire 1, .release 1, .release 1, .release 1, .acquire 1]
      (.start .plain false {} none) _ :=
    .cons rfl (.cons rfl (.cons rfl (.cons rfl (.cons rfl (.cons rfl .nil)))))
  exact ⟨_, h, rfl, rfl, (ledger_balances rfl rfl h (by decide)).2.2.2.1⟩

end ClaimCells
