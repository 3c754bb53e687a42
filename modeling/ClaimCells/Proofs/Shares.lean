import ClaimCells.Proofs.Strides

/-!
# The share of each operation

A run sets off operations within operations. `calls` lists all that were done, each with the
stretches of the run in which it was at work itself. How much anything grows over the whole run, such
as what is written in the journal, is how much the operations let it grow in their own stretches,
taken together.

Main results: `calls_grow`, a run lets grow what its operations let grow, and `calls_done`, all that
are listed were done.
-/

namespace ClaimCells

open Act (Outcome Stays)

variable {α β : Type} {s s' t : State} {op : Op} {r : Reply} {n : Nat} {m : State → Nat}
  {x : Act α}

/-! ## Operations within operations -/

/-- An operation that came to its end. -/
structure Call where
  op : Op
  reply : Reply
  /-- The stretches of the run in which the operation was at work, scripts apart. -/
  stretches : List (State × State)

namespace Act

/-- The stretches of a course from signal to signal. -/
def stretches (react : Signal → State → Except (Halt × State) State) :
    State → Act α → List (State × State)
  | s, done _ t | s, fail _ t | s, halt _ t => [(s, t)]
  | s, send g t next => (s, t) :: match react g t with
    | .ok t' => stretches react t' (next t')
    | .error _ => []

/-- What is done in the scripts that a course sets off. -/
def within (react : Signal → State → Except (Halt × State) State)
    (inner : Signal → State → List Call) : Act α → List Call
  | send g t next => inner g t ++ match react g t with
    | .ok t' => within react inner (next t')
    | .error _ => []
  | _ => []

end Act

section Calls

variable (step : Op → State → Outcome Answer) (calls : Op → State → List Call)

/-- The operations of a script, and those within them. -/
def scriptCalls : Script → State → List Call
  | [], _ => []
  | op :: ops, s => calls op s ++ match step op s with
    | .ended r t => scriptCalls ops (t.note (.answered r))
    | .halted .. => []

/-- The operations that a signal sets off. -/
def signalCalls (g : Signal) (s : State) : List Call :=
  match s.hook? g with
  | some body => scriptCalls step calls body ((s.eraseHook g).note (.hook g))
  | none => []

end Calls

/-- The operation, if it comes to its end, and those that are done within it. What is done on a
thread of its own is within the operation that starts it, which does nothing itself. -/
def calls : Nat → Op → State → List Call
  | 0, _, _ => []
  | n + 1, .thread body, s => scriptCalls (step n) (calls n) body s.startThread
  | n + 1, op, s => match (op.course s).settle (react (step n)) with
    | .ended r _ => ⟨op, r, (op.course s).stretches (react (step n)) s⟩ ::
        (op.course s).within (react (step n)) (signalCalls (step n) (calls n))
    | .halted .. => []

theorem calls_course (h : ∀ body, op ≠ .thread body)
    (he : (op.course s).settle (react (step n)) = .ended r s') :
    calls (n + 1) op s = ⟨op, r, (op.course s).stretches (react (step n)) s⟩ ::
      (op.course s).within (react (step n)) (signalCalls (step n) (calls n)) := by
  cases op with
  | thread body => exact absurd rfl (h body)
  | _ =>
    rw [calls, he]
    exact nofun

/-! ## Growth -/

/-- How much a measure of the journal grows over stretches. -/
def growth (m : Journal → Nat) (L : List (State × State)) : Int :=
  (L.map fun p => (m p.2.journal : Int) - m p.1.journal).sum

/-- How much it grows by the operation itself. -/
def Call.growth (c : Call) (m : Journal → Nat) : Int :=
  ClaimCells.growth m c.stretches

/-- How much a measure of states grows over stretches. -/
def growthOf (m : State → Nat) (L : List (State × State)) : Int :=
  (L.map fun p => (m p.2 : Int) - m p.1).sum

theorem growth_eq (m : Journal → Nat) (L : List (State × State)) :
    growth m L = growthOf (fun s => m s.journal) L := rfl

/-- How much it grows by the operation itself. -/
def Call.growthOf (c : Call) (m : State → Nat) : Int :=
  ClaimCells.growthOf m c.stretches

/-- Scripts and threads may begin, and scripts answer, without the measure growing. -/
structure State.Measure (m : State → Nat) : Prop where
  answered : ∀ r s, m (s.note (.answered r)) = m s
  hooked : ∀ g s, m ((s.eraseHook g).note (.hook g)) = m s
  threaded : ∀ s, m s.startThread = m s
  ended : ∀ s t, m (t.endThread s) = m t

/-- Scripts may begin and answer without the measure of the journal growing. -/
structure Journal.Measure (m : Journal → Nat) : Prop where
  answered : ∀ r j, m (.answered r :: j) = m j
  hooked : ∀ g j, m (.hook g :: j) = m j

theorem Journal.Measure.states {m : Journal → Nat} (hm : Journal.Measure m) :
    State.Measure fun s => m s.journal where
  answered r s := hm.answered r s.journal
  hooked g s := by
    have hj : ((s.eraseHook g).note (.hook g)).journal = .hook g :: s.journal := by
      unfold State.eraseHook
      split <;> rfl
    rw [hj, hm.hooked]
  threaded _ := rfl
  ended _ _ := rfl

/-- A measure grows over operations as their calls tell. -/
def GrowsBy (m : State → Nat) (step : Op → State → Outcome Answer) (calls : Op → State → List Call) :
    Prop :=
  ∀ op s r s', step op s = .ended r s' →
    (m s' : Int) - m s = ((calls op s).map (·.growthOf m)).sum

section Growth

variable {step : Op → State → Outcome Answer} {calls : Op → State → List Call} {body : Script}
  {g : Signal}

theorem scriptCalls_grow (hm : State.Measure m) (h : GrowsBy m step calls)
    (he : runNested step body s = .ok s') :
    (m s' : Int) - m s = ((scriptCalls step calls body s).map (·.growthOf m)).sum := by
  induction body generalizing s with
  | nil =>
    cases he
    exact Int.sub_self _
  | cons op ops ih =>
    rw [runNested] at he
    split at he
    · next r t ht =>
      have hop := h op s r t ht
      have hops := ih he
      rw [scriptCalls, ht, List.map_append, List.sum_append, ← hop]
      change _ = _ + ((scriptCalls step calls ops (t.note (.answered r))).map _).sum
      rw [← hops, hm.answered]
      omega
    · cases he

theorem signalCalls_grow (hm : State.Measure m) (h : GrowsBy m step calls)
    (he : react step g s = .ok s') :
    (m s' : Int) - m s = ((signalCalls step calls g s).map (·.growthOf m)).sum := by
  cases hb : s.hook? g with
  | some body =>
    rw [react, hb] at he
    have hbody := scriptCalls_grow hm h he
    rw [hm.hooked] at hbody
    rw [signalCalls, hb]
    exact hbody
  | none =>
    rw [react, hb] at he
    cases he
    rw [signalCalls, hb]
    exact Int.sub_self _

theorem settle_grow (hm : State.Measure m) (h : GrowsBy m step calls) {res : Except Failure α}
    (he : x.settle (react step) = .ended res s') :
    (m s' : Int) - m s = growthOf m (x.stretches (react step) s) +
      ((x.within (react step) (signalCalls step calls)).map (·.growthOf m)).sum := by
  induction x generalizing s with
  | done | fail =>
    cases he
    simp [Act.stretches, Act.within, growthOf]
  | halt => cases he
  | send g t next ih =>
    rw [Act.settle] at he
    split at he
    · next t' ht' =>
      have hsignal := signalCalls_grow hm h ht'
      have hrest := ih t' (s := t') he
      rw [Act.stretches, Act.within, ht', List.map_append, List.sum_append, ← hsignal, growthOf,
        List.map_cons, List.sum_cons]
      rw [growthOf] at hrest
      dsimp only
      omega
    · cases he

end Growth

/-- **What grows over a run grows by what its operations do in their own stretches.** -/
theorem calls_grow (hm : State.Measure m) (n : Nat) : GrowsBy m (step n) (calls n) := by
  induction n with
  | zero => intro op s r s' he; cases he
  | succ n ih =>
    intro op s r s' he
    by_cases hop : ∃ body, op = .thread body
    · obtain ⟨body, rfl⟩ := hop
      have hrun := (step_thread he).2
      rw [runThread] at hrun
      cases ht : runNested (step n) body s.startThread with
      | error e => rw [ht] at hrun; cases hrun
      | ok t =>
        rw [ht] at hrun
        cases hrun
        rw [hm.ended, ← hm.threaded s]
        exact scriptCalls_grow hm ih ht
    · have hop : ∀ body, op ≠ .thread body := fun body hb => hop ⟨body, hb⟩
      rw [step_perform hop] at he
      rw [calls_course hop he, List.map_cons, List.sum_cons]
      exact settle_grow hm ih he

/-- The call is one of the operation, on some state. -/
def Call.Done (c : Call) : Prop :=
  ∃ n s s', (∀ body, c.op ≠ .thread body) ∧
    (c.op.course s).settle (react (step n)) = .ended c.reply s' ∧
    c.stretches = (c.op.course s).stretches (react (step n)) s

section Done

variable {step : Op → State → Outcome Answer} {calls : Op → State → List Call} {body : Script}
  {g : Signal} {c : Call}

theorem scriptCalls_done (h : ∀ op s, ∀ c ∈ calls op s, c.Done)
    (hc : c ∈ scriptCalls step calls body s) : c.Done := by
  induction body generalizing s with
  | nil => cases hc
  | cons op ops ih =>
    rw [scriptCalls] at hc
    rcases List.mem_append.1 hc with hc | hc
    · exact h op s c hc
    · split at hc
      · exact ih hc
      · cases hc

theorem within_done (h : ∀ op s, ∀ c ∈ calls op s, c.Done)
    (hc : c ∈ x.within (react step) (signalCalls step calls)) : c.Done := by
  induction x with
  | done | fail | halt => cases hc
  | send g t next ih =>
    rw [Act.within] at hc
    rcases List.mem_append.1 hc with hc | hc
    · rw [signalCalls] at hc
      split at hc
      · exact scriptCalls_done h hc
      · cases hc
    · split at hc
      · exact ih _ hc
      · cases hc

end Done

theorem calls_done (n : Nat) : ∀ op s, ∀ c ∈ calls n op s, c.Done := by
  induction n with
  | zero => intro op s c hc; cases hc
  | succ n ih =>
    intro op s c hc
    by_cases hop : ∃ body, op = .thread body
    · obtain ⟨body, rfl⟩ := hop
      exact scriptCalls_done ih hc
    · have hop : ∀ body, op ≠ .thread body := fun body hb => hop ⟨body, hb⟩
      cases he : (op.course s).settle (react (step n)) with
      | ended r s' =>
        rw [calls_course hop he] at hc
        rcases List.mem_cons.1 hc with rfl | hc
        · exact ⟨n, s, s', hop, he, rfl⟩
        · exact within_done ih hc
      | halted =>
        cases op with
        | thread body => exact absurd rfl (hop body)
        | _ =>
          rw [calls, he] at hc
          · cases hc
          · exact nofun

/-! ## What a course lets grow itself -/

/-- Wherever the course ends, `P` holds of its result and of how much the measure has grown by the
course itself, from `n` on. -/
def Act.Grows (m : State → Nat) (P : Except Failure α → Int → Prop) : Int → State → Act α → Prop
  | n, s, done a t => P (.ok a) (n + ((m t : Int) - m s))
  | n, s, fail f t => P (.error f) (n + ((m t : Int) - m s))
  | _, _, halt .. => True
  | n, s, send _ t next => ∀ t', Grows m P (n + ((m t : Int) - m s)) t' (next t')

/-- The measure does not grow. -/
abbrev SameMeasure (m : State → Nat) (s t : State) : Prop :=
  m t = m s

namespace Act.Grows

variable {P P' : Except Failure α → Int → Prop} {R : Except Failure β → Int → Prop} {n : Int}

theorem settle (h : x.Grows m P n s) {react : Signal → State → Except (Halt × State) State}
    {r : Except Failure α} (he : x.settle react = .ended r s') :
    P r (n + growthOf m (x.stretches react s)) := by
  induction x generalizing n s with
  | done | fail =>
    cases he
    rw [Act.stretches, growthOf, List.map_singleton, List.sum_singleton]
    exact h
  | halt => cases he
  | send g t next ih =>
    rw [Act.settle] at he
    split at he
    · next t' ht' =>
      have hrest := ih t' (h t') he
      rw [growthOf] at hrest
      rw [Act.stretches, ht', growthOf, List.map_cons, List.sum_cons, ← Int.add_assoc]
      exact hrest
    · cases he

theorem imp (h : x.Grows m P n s) (hP : ∀ r k, P r k → P' r k) : x.Grows m P' n s := by
  induction x generalizing n s with
  | done | fail => exact hP _ _ h
  | halt => trivial
  | send g t next ih => exact fun t' => ih t' (h t')

theorem after (h : x.Grows m P (n + ((m t : Int) - m s)) t) :
    x.Grows m P n s := by
  have hsum : ∀ u : State, n + ((m t : Int) - m s) + ((m u : Int) - m t) =
      n + ((m u : Int) - m s) := fun u => by omega
  cases x with
  | done a u | fail f u => rwa [Grows, hsum] at h
  | halt => trivial
  | send g u next =>
    intro t'
    rw [← hsum]
    exact h t'

theorem bind {f : α → State → Act β} (h : x.Grows m P n s)
    (hk : ∀ a k t, P (.ok a) k → (f a t).Grows m R k t)
    (hf : ∀ e k, P (.error e) k → R (.error e) k) : (x.bind f).Grows m R n s := by
  induction x generalizing n s with
  | done a t => exact after (hk a _ t h)
  | fail => exact hf _ _ h
  | halt => trivial
  | send g t next ih => exact fun t' => ih t' (h t')

theorem tried {f : Except Failure α → State → Act β} (h : x.Grows m P n s)
    (hk : ∀ r k t, P r k → (f r t).Grows m R k t) : (x.attempt.bind f).Grows m R n s := by
  induction x generalizing n s with
  | done a t | fail e t => exact after (hk _ _ t h)
  | halt => trivial
  | send g t next ih => exact fun t' => ih t' (h t')

/-- Where nothing is done that is measured, nothing grows. -/
theorem of_stays (h : x.Stays (SameMeasure m) s) : x.Grows m (fun _ k => k = n) n s := by
  induction x generalizing n s with
  | done a t | fail f t =>
    show n + ((m t : Int) - m s) = n
    rw [show m t = m s from h]
    omega
  | halt => trivial
  | send g t next ih =>
    intro t'
    rw [show m t = m s from h.1, Int.sub_self, Int.add_zero]
    exact ih t' (h.2 t')

end Act.Grows

end ClaimCells
