import ClaimCells.Proofs.Calls
import ClaimCells.Proofs.Lifetimes
import ClaimCells.Proofs.Releases

/-!
# Undisturbed runs

While no script waits for a signal, an operation runs from its beginning to its end by itself.
`x.Runs Q P` says how such a run of the course `x` goes: it comes to an end, where `P` holds of the
result and the state, and `Q` holds of every signal that it sends on the way, and of the state then.

Main results: `step_runs`, and the rules `release_runs` and `withCell_runs`.
-/

namespace ClaimCells

open Act (Outcome)

variable {α β : Type} {s s' t u : State} {l l' : List Cell} {ds : List Deed} {o : ObjectId}
  {key : String} {k : KeptId} {e : Kept} {n : Nat} {op : Op}

/-! ## Courses -/

/-- No script waits for a signal. -/
def State.Undisturbed (s : State) : Prop :=
  ∀ g, s.hook? g = none

/-- The same scripts wait for signals. -/
theorem State.Undisturbed.same (h : s.Undisturbed) (hh : t.thread.hooks = s.thread.hooks)
    (hn : t.nativeHooks = s.nativeHooks) : t.Undisturbed := by
  intro g
  have heq : t.hook? g = s.hook? g := by rw [State.hook?, State.hook?, hh, hn]
  rw [heq, h g]

/-- How a course goes that nothing disturbs. -/
def Act.Runs (Q : Signal → State → Prop) (P : Except Failure α → State → Prop) : Act α → Prop
  | done a t => P (.ok a) t
  | fail f t => P (.error f) t
  | halt _ _ => False
  | send g t next => t.Undisturbed ∧ Q g t ∧ Runs Q P (next t)

namespace Act.Runs

variable {Q : Signal → State → Prop} {P R : Except Failure α → State → Prop} {x : Act α}

theorem imp (h : x.Runs Q P) (hp : ∀ r t, P r t → R r t) : x.Runs Q R := by
  induction x with
  | done a t => exact hp (.ok a) t h
  | fail f t => exact hp (.error f) t h
  | halt => exact h
  | send g t next ih => exact ⟨h.1, h.2.1, ih t h.2.2⟩

theorem bind {P' : Except Failure β → State → Prop} {k : α → State → Act β} (h : x.Runs Q P)
    (hk : ∀ a t, P (.ok a) t → (k a t).Runs Q P') (hf : ∀ f t, P (.error f) t → P' (.error f) t) :
    (x.bind k).Runs Q P' := by
  induction x with
  | done a t => exact hk a t h
  | fail f t => exact hf f t h
  | halt => exact h
  | send g t next ih => exact ⟨h.1, h.2.1, ih t h.2.2⟩

theorem tried {P' : Except Failure β → State → Prop} {k : Except Failure α → State → Act β}
    (h : x.Runs Q P) (hk : ∀ r t, P r t → (k r t).Runs Q P') : (x.attempt.bind k).Runs Q P' := by
  induction x with
  | done a t => exact hk (.ok a) t h
  | fail f t => exact hk (.error f) t h
  | halt => exact h
  | send g t next ih => exact ⟨h.1, h.2.1, ih t h.2.2⟩

/-- No script is set off by such a course. -/
theorem settle (h : x.Runs Q P) (step : Op → State → Outcome Answer) :
    (∃ r t, x.settle (react step) = .ended r t ∧ P r t) ∧
      ∀ g u, x.Sends (react step) g u → Q g u := by
  induction x with
  | done a t => exact ⟨⟨.ok a, t, rfl, h⟩, fun g u hg => nomatch hg⟩
  | fail f t => exact ⟨⟨.error f, t, rfl, h⟩, fun g u hg => nomatch hg⟩
  | halt => exact h.elim
  | send g t next ih =>
    obtain ⟨hu, hq, hn⟩ := h
    have hreact : react step g t = .ok t := by rw [react, hu g]
    obtain ⟨⟨r, t', hr, hp⟩, hs⟩ := ih t hn
    refine ⟨⟨r, t', ?_, hp⟩, fun g' u hg => ?_⟩
    · rw [Act.settle, hreact]
      exact hr
    · cases hg with
      | now => exact hq
      | later h' hg' =>
        obtain rfl := Except.ok.inj (h'.symm.trans hreact)
        exact hs g' u hg'

end Act.Runs

/-- An operation that nothing disturbs comes to an end. -/
theorem step_runs {Q : Signal → State → Prop} {P : Reply → State → Prop}
    (hop : ∀ body, op ≠ .thread body) (h : (op.course s).Runs Q P) (n : Nat) :
    (∃ r t, step (n + 1) op s = .ended r t ∧ P r t) ∧
      ∀ g u, (op.course s).Sends (react (step n)) g u → Q g u := by
  rw [step_perform hop]
  exact h.settle (step n)

namespace Action

variable {Q : Signal → State → Prop} {a : Action α} {x : α}

theorem unwinding_runs {R : α → State → Prop} (h : (a s).Runs Q fun r t => ∃ x, r = .ok x ∧ R x t) :
    (unwinding a s).Runs Q fun r t => ∃ x, r = .ok x ∧ R x t := by
  rw [unwinding, bind_apply, thread_apply, done_bind]
  refine .tried h ?_
  rintro r t ⟨x, rfl, hx⟩
  exact ⟨x, rfl, hx⟩

/-! ## Claims -/

section Claims

variable {P : Except Failure Unit → State → Prop} {k' : Ledger}

theorem acquire_runs (hl : s.thread.ledger.acquire o = .ok k')
    (hu : u = ((s.setLedger k').hold ⟨.counted, o⟩).note (.acquired o)) (hq : s.Undisturbed)
    (hQ : Q ⟨.counted, .acquired, o⟩ u) (hP : P (.ok ()) u) :
    (acquire ⟨.counted, o⟩ s).Runs Q P := by
  have hgo : acquire ⟨.counted, o⟩ s = .send ⟨.counted, .acquired, o⟩ u (.done ()) := by
    simp only [acquire, gain, bind_apply, thread_apply, done_bind, hl, hu]
    rfl
  rw [hgo]
  exact ⟨hq.same (hu ▸ rfl) (hu ▸ rfl), hQ, hP⟩

theorem release_runs (hl : s.thread.ledger.release o = .ok k')
    (hu : u = ((s.letGo ⟨.counted, o⟩).setLedger k').note (.released o)) (hq : s.Undisturbed)
    (hQ : Q ⟨.counted, .released, o⟩ u) (hQ' : k'.isFreed o = true → Q ⟨.counted, .freed, o⟩ u)
    (hP : P (.ok ()) u) : (release ⟨.counted, o⟩ s).Runs Q P := by
  have hcalm : u.Undisturbed := hq.same (hu ▸ rfl) (hu ▸ rfl)
  have hgo : release ⟨.counted, o⟩ s = .send ⟨.counted, .released, o⟩ u fun v =>
      (if v.thread.ledger.isFreed o then send ⟨.counted, .freed, o⟩ else pure ()) v := by
    have hl' : (s.letGo ⟨.counted, o⟩).thread.ledger.release o = .ok k' := hl
    simp only [release, bind_apply, letGo_apply, thread_apply, done_bind, hl', hu]
    rfl
  rw [hgo]
  refine ⟨hcalm, hQ, ?_⟩
  dsimp only
  rw [ite_apply]
  split
  · next hf => exact ⟨hcalm, hQ' (by rw [hu] at hf; exact hf), hP⟩
  · exact hP

/-- Where a panic can be caught, a release that the ledger refuses is one. -/
theorem release_refused {m : Misuse} (hl : s.thread.ledger.release o = .error m)
    (hd : s.thread.nativeDepth = 0) : release ⟨.counted, o⟩ s =
      .fail (.panic (.misuse m)) ((s.letGo ⟨.counted, o⟩).note (.refused m)) := by
  have hl' : (s.letGo ⟨.counted, o⟩).thread.ledger.release o = .error m := hl
  have hd' : ((s.letGo ⟨.counted, o⟩).note (.refused m)).thread.nativeDepth = 0 := hd
  simp only [release, bind_apply, letGo_apply, thread_apply, done_bind, hl', settleLedger_error]
  rw [raise_bind, raise_caught hd']

end Claims

/-! ## Kept cells -/

section Kept

variable {R : α → State → Prop}

theorem flagging_runs {f g : Kept → Kept} (hR : ∀ x t f, R x t → R x (t.flag k f))
    (h : (a (s.flag k f)).Runs Q fun r t => ∃ x, r = .ok x ∧ R x t) :
    ((setKept k f >>= fun _ => attempt (unwinding a) >>= fun r => setKept k g >>= fun _ =>
      ofExcept r) s).Runs Q fun r t => ∃ x, r = .ok x ∧ R x t := by
  rw [bind_apply, setKept_apply, done_bind]
  refine .tried (unwinding_runs h) ?_
  rintro r t ⟨x, rfl, hx⟩
  exact ⟨x, rfl, hR x t g hx⟩

theorem changing_runs (hk : s.thread.kept.get? k = some e) (hfree : ¬ Busy e)
    (hR : ∀ x t f, R x t → R x (t.flag k f))
    (h : ∀ f, (a (s.flag k f)).Runs Q fun r t => ∃ x, r = .ok x ∧ R x t) :
    (changing k a s).Runs Q fun r t => ∃ x, r = .ok x ∧ R x t := by
  have hx : e.exclusive = false := Bool.eq_false_iff.2 fun hx => hfree (.inl hx)
  rw [changing, bind_apply, kept_some hk, done_bind]
  obtain ⟨c, users, readers, exclusive⟩ := e
  cases c with
  | handle id acc =>
    change (looking k a s).Runs _ _
    rw [looking, bind_apply, kept_some hk, done_bind, ite_apply,
      if_neg (by rw [hx]; exact Bool.false_ne_true)]
    exact flagging_runs hR (h _)
  | own form id =>
    have hr : readers = 0 := by
      by_contra hr
      exact hfree (.inr ⟨hr, form, id, rfl⟩)
    dsimp only at hx ⊢
    rw [ite_apply, if_neg (by rw [hx, hr]; exact Bool.false_ne_true)]
    exact flagging_runs hR (h _)

theorem withCell_runs {b : KeptId → Cell → Action α} (hc : s.thread.cells.get? key = some k)
    (hk : s.thread.kept.get? k = some e) (hR : ∀ x t f, R x t → R x (t.flag k f))
    (hcells : ∀ x t, R x t → t.thread.cells = s.thread.cells)
    (h : (b k e.cell (s.flag k Kept.entered)).Runs Q fun r t => ∃ x, r = .ok x ∧ R x t) :
    (withCell key b s).Runs Q fun r t => ∃ x, r = .ok x ∧ R x t := by
  rw [withCell, bind_apply, keptId_some hc, done_bind, bind_apply, kept_some hk, done_bind,
    bind_apply, setKept_apply, done_bind]
  refine .tried (unwinding_runs h) ?_
  rintro r t ⟨x, rfl, hx⟩
  have hleave := leave_keyed (hcells x t hx ▸ hc)
  rw [conclude, bind_apply, hleave, done_bind, ofExcept_ok]
  · exact ⟨x, rfl, hR x t _ hx⟩
  · simp

end Kept

end Action

/-! ## Room for counting -/

namespace Profiler

variable {p p' : Profiler}

/-- While no counter is full, events that were not counted since can be. -/
theorem record_room {R : List (CellKind × ClaimEvent)} (kind : CellKind) (e : ClaimEvent)
    (hroom : ¬ p.Full) (hc : p.Counts R p') (hne : (kind, e) ∉ R) (hen : p'.enabled = p.enabled) :
    ∃ q, p'.record kind e = some q := by
  refine Option.ne_none_iff_exists'.1 fun hnone => hroom ⟨kind, e, record_none_iff.2 ?_⟩
  obtain ⟨hon, hfull⟩ := record_none_iff.1 hnone
  have hon' := hen ▸ hon
  rw [(hc hon').2, List.count_eq_zero_of_not_mem hne, Nat.add_zero] at hfull
  exact ⟨hon', hfull⟩

theorem recordBound_room (hroom : ¬ p.Full) (kind : CellKind) (rebound : Bool) :
    ∃ q, p.recordBound kind rebound = some q := by
  obtain ⟨p₁, h₁⟩ := record_room kind .bound hroom (.refl p) List.not_mem_nil rfl
  rw [recordBound, h₁, Option.bind_some]
  cases rebound with
  | false => exact ⟨p₁, rfl⟩
  | true => exact record_room kind _ hroom (record_counts h₁) (by simp) (Action.record_enabled h₁)

theorem recordMade_room (hroom : ¬ p.Full) (kind : CellKind) (bound : Bool) :
    ∃ q, p.recordMade kind bound = some q := by
  obtain ⟨p₁, h₁⟩ := record_room kind .constructed hroom (.refl p) List.not_mem_nil rfl
  rw [recordMade, h₁, Option.bind_some]
  cases bound with
  | false => exact ⟨p₁, rfl⟩
  | true => exact record_room kind _ hroom (record_counts h₁) (by simp) (Action.record_enabled h₁)

theorem recordMade_enabled {kind : CellKind} {bound : Bool}
    (h : p.recordMade kind bound = some p') : p'.enabled = p.enabled := by
  obtain ⟨p₁, h₁, h₂⟩ := Option.bind_eq_some_iff.1 h
  cases bound with
  | false =>
    cases h₂
    exact Action.record_enabled h₁
  | true => exact (Action.record_enabled h₂).trans (Action.record_enabled h₁)

end Profiler

/-! ## Kept cells at rest -/

/-- The key stands for the cell, which no operation uses. -/
def State.Rests (s : State) (key : String) (c : Cell) : Prop :=
  ∃ k e, s.thread.cells.get? key = some k ∧ s.thread.kept.get? k = some e ∧ e.cell = c ∧ e.users = 0

end ClaimCells
