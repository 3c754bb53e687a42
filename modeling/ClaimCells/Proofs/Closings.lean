import ClaimCells.Proofs.Engaged

/-!
# Giving up a claim at last

An operation that gives up a claim does so when everything else is done. All that is left to do then
is to take away the marks that it left on a cell in use. `Act.Closes` says this of a course; the only
signals on the way are those of claims that are acquired.

Main result: `Op.course_closes`, for the operations that give up a claim.
-/

namespace ClaimCells

variable {α β : Type} {s t u : State} {H : List Claim} {J : State → Prop} {ρ ρ' : State → State}
  {c : Claim} {o : ObjectId} {i : SlotId} {v : Slot} {key : String} {k : KeptId} {e : Kept}

/-! ## Parting with a claim -/

namespace Act

/-- Signals that a claim was released, which is out of the ledger, and that its object is freed if it
was the last one. -/
def parting (c : Claim) (t : State) (K : State → Act α) : Act α :=
  .send ⟨c.realm, .released, c.object⟩ t fun u =>
    if c.realm = .counted ∧ u.thread.ledger.isFreed c.object = true then
      .send ⟨.counted, .freed, c.object⟩ u K
    else K u

theorem parting_attempt (c : Claim) (t : State) (K : State → Act α)
    (k : Except Failure α → State → Act β) :
    (parting c t K).attempt.bind k = parting c t fun u => (K u).attempt.bind k := by
  refine congrArg (Act.send _ t) (funext fun u => ?_)
  show (Act.attempt (if _ then _ else _)).bind k = _
  split <;> rfl

end Act

/-- The course gives up no claim but the last thing it does. With the claims `H` in hand, and while
`J` holds, all that is left is to change the state by `ρ` and to end. `Q` holds of the result and of
the state when the claim is given up, and `P` at an end without that. -/
inductive Act.Closes (H : List Claim) (J : State → Prop) (ρ : State → State)
    (Q P : Except Failure α → State → Prop) : Act α → Prop
  | ended {r : Except Failure α} {t : State} (h : P r t) : Closes H J ρ Q P (Action.ofExcept r t)
  | halt {x : Halt} {t : State} : Closes H J ρ Q P (.halt x t)
  /-- A script may run when a claim is acquired. -/
  | acquired {g : Signal} {t : State} {next : State → Act α} (hg : g.moment = .acquired) (hj : J t)
      (hn : ∀ u, Sound [] u → J u → u.thread.hands = t.thread.hands → Closes H J ρ Q P (next u)) :
      Closes H J ρ Q P (.send g t next)
  | last {c : Claim} {r : Except Failure α} {t : State} {K : State → Act α} (hj : J t)
      (hh : t.thread.hands = H) (hq : Q r t)
      (hK : ∀ u, J u → u.thread.hands = H → K u = Action.ofExcept r (ρ u)) :
      Closes H J ρ Q P (parting c t K)

/-- It succeeds where `Q` holds. -/
def Succeeds (Q : State → Prop) (r : Except Failure α) (t : State) : Prop :=
  (∃ a, r = .ok a) ∧ Q t

/-- If it succeeds then where `Q` holds. -/
def IfSucceeds (Q : State → Prop) (r : Except Failure α) (t : State) : Prop :=
  (∃ a, r = .ok a) → Q t

/-- These claims are in the hands. -/
def Tidy (H : List Claim) (J : State → Prop) (_ : Except Failure α) (t : State) : Prop :=
  J t ∧ t.thread.hands = H

/-- A failure may leave one more claim in the hands. -/
def Loose (H : List Claim) (J : State → Prop) (r : Except Failure α) (t : State) : Prop :=
  J t ∧ ∃ c : Option Claim, t.thread.hands = c.toList ++ H ∧ ((∃ a, r = .ok a) → c = none)

theorem Loose.map {r : Except Failure α} {f : α → β} (h : Loose H J r t) :
    Loose H J (r.map f) t := by
  obtain ⟨hj, c, hc, h⟩ := h
  refine ⟨hj, c, hc, fun h' => h ?_⟩
  cases r with
  | ok a => exact ⟨a, rfl⟩
  | error f => exact h'.elim fun _ h => by cases h

namespace Act.Closes

variable {Q P : Except Failure α → State → Prop} {Q' P' : Except Failure β → State → Prop}
  {x : Act α} {Q₀ : State → Prop}

theorem done {a : α} (h : P (.ok a) t) : (Act.done a t).Closes H J ρ Q P :=
  .ended (r := .ok a) h

theorem fail {f : Failure} (h : P (.error f) t) : (Act.fail f t : Act α).Closes H J ρ Q P :=
  .ended (r := .error f) h

theorem raise {p : Panic} (h : P (.error (.panic p)) t) :
    (Action.raise p t : Act α).Closes H J ρ Q P := by
  obtain hf | ⟨x, hx⟩ := Action.raise_eq α p t
  · rw [hf]
    exact .fail h
  · rw [hx]
    exact .halt

/-- What is left to do is done before the end, and after a claim is given up. -/
theorem tried {k : Except Failure α → State → Act β} (h : x.Closes H J ρ Q P)
    (hq : ∀ r t, Q r t → ∃ r', Q' r' t ∧
      ∀ u, J u → u.thread.hands = H → k r (ρ u) = Action.ofExcept r' (ρ' u))
    (hp : ∀ r t, P r t → (k r t).Closes H J ρ' Q' P') :
    (x.attempt.bind k).Closes H J ρ' Q' P' := by
  induction h with
  | @ended r t h =>
    cases r with
    | ok a => exact hp _ _ h
    | error f => exact hp _ _ h
  | halt => exact .halt
  | acquired hg hj _ ih => exact .acquired hg hj ih
  | @last c r t K hj hh h hK =>
    obtain ⟨r', hq', hk⟩ := hq r t h
    rw [parting_attempt]
    refine .last hj hh hq' fun u hu hh' => ?_
    rw [hK u hu hh', ← hk u hu hh']
    cases r <;> rfl

/-- What is left to do passes on how the course ended. -/
theorem passed {k : Except Failure α → State → Act α} {P' : Except Failure α → State → Prop}
    (h : x.Closes H J ρ Q P)
    (hk : ∀ r u, J u → u.thread.hands = H → k r (ρ u) = Action.ofExcept r (ρ' u))
    (hp : ∀ r t, P r t → ∃ t', k r t = Action.ofExcept r t' ∧ P' r t') :
    (x.attempt.bind k).Closes H J ρ' Q P' := by
  refine h.tried (fun r t h => ⟨r, h, hk r⟩) fun r t h => ?_
  obtain ⟨t', ht, h'⟩ := hp r t h
  rw [ht]
  exact .ended h'

theorem bind {k : α → State → Act β} (h : x.Closes H J ρ Q P)
    (hq : ∀ r t, Q r t → ∃ r', Q' r' t ∧ ∀ u, J u → u.thread.hands = H →
      (Action.ofExcept r (ρ u)).bind k = Action.ofExcept r' (ρ' u))
    (hp : ∀ a t, P (.ok a) t → (k a t).Closes H J ρ' Q' P')
    (hf : ∀ f t, P (.error f) t → P' (.error f) t) : (x.bind k).Closes H J ρ' Q' P' := by
  have hbind : x.bind k = x.attempt.bind fun r s => (Action.ofExcept r s).bind k := by
    clear h
    induction x with
    | done | fail | halt => rfl
    | send g t next ih => exact congrArg (Act.send g t) (funext ih)
  rw [hbind]
  refine h.tried hq fun r t h => ?_
  cases r with
  | ok a => exact hp a t h
  | error f => exact .fail (hf f t h)

/-- An event is counted, or its counter is full. -/
theorem record {f : Unit → Action β} {kind : CellKind} {e : ClaimEvent}
    (hf : ∀ p, s.profiler.record kind e = some p →
      (f () { s with profiler := p }).Closes H J ρ Q' P')
    (hp : P' (.error (.panic .overflow)) s) :
    ((Action.record kind e s).bind f).Closes H J ρ Q' P' := by
  cases h : s.profiler.record kind e with
  | none =>
    rw [Action.record_none h, Action.raise_bind]
    exact .raise hp
  | some p =>
    rw [Action.record_some h]
    exact hf p h

/-- Actions that stay where they are come first. -/
theorem still {k : α → State → Act β} (h : x.Still s)
    (hk : ∀ a, (k a s).Closes H J ρ Q' P') (hf : ∀ f, P' (.error f) s) :
    (x.bind k).Closes H J ρ Q' P' := by
  cases x with
  | done a t => exact h ▸ hk a
  | fail f t => exact h ▸ .fail (hf f)
  | halt => exact .halt
  | send => exact h.elim

theorem imp {Q₁ : Except Failure α → State → Prop} (h : x.Closes H J ρ Q P)
    (hq : ∀ r t, Q r t → Q₁ r t) : x.Closes H J ρ Q₁ P := by
  induction h with
  | ended h => exact .ended h
  | halt => exact .halt
  | acquired hg hj _ ih => exact .acquired hg hj ih
  | last hj hh h hK => exact .last hj hh (hq _ _ h) hK

theorem ifSucceeds (h : x.Closes H J ρ (Succeeds Q₀) P) : x.Closes H J ρ (IfSucceeds Q₀) P :=
  h.imp fun _ _ h _ => h.2

/-- An answer is given at the end. -/
theorem answered {f : α → β} (h : x.Closes H J ρ (IfSucceeds Q₀) P)
    (hp : ∀ r t, P r t → P' (r.map f) t) :
    (x.bind fun a t => .done (f a) t).Closes H J ρ (IfSucceeds Q₀) P' := by
  refine h.bind (fun r t h => ?_) (fun a t h => .done (hp _ t h)) fun g t h => hp _ t h
  cases r with
  | ok a => exact ⟨.ok (f a), fun _ => h ⟨a, rfl⟩, fun _ _ _ => rfl⟩
  | error f => exact ⟨.error f, fun h => h.elim fun _ h => (by cases h), fun _ _ _ => rfl⟩

theorem cleanUp {a : Action Unit} (h : (a s).Closes H J id (Succeeds Q₀) (Loose H J)) :
    (Action.cleanUp a s).Closes H J id (Succeeds Q₀) fun r t =>
      (∃ a, r = .ok a) ∧ J t ∧ t.thread.hands = H := by
  refine h.tried (fun r t h => ?_) fun r t h => ?_
  · obtain ⟨⟨_, rfl⟩, h⟩ := h
    exact ⟨.ok (), ⟨⟨_, rfl⟩, h⟩, fun _ _ _ => rfl⟩
  · cases r with
    | ok a =>
      obtain ⟨hj, c, hc, h⟩ := h
      obtain rfl := h ⟨a, rfl⟩
      exact .done ⟨⟨_, rfl⟩, hj, hc⟩
    | error => exact .halt

/-- A failure is passed on. -/
theorem failing {f : Failure} {Q₁ : State → Prop}
    (h : x.Closes H J id (Succeeds Q₀) fun r t => (∃ a, r = .ok a) ∧ J t ∧ t.thread.hands = H)
    (hp : ∀ t, J t → t.thread.hands = H → P' (.error f) t) :
    (x.bind fun _ t => .fail f t).Closes H J id (IfSucceeds Q₁) P' := by
  refine h.bind (fun r t h => ?_) (fun _ t h => .fail (hp t h.2.1 h.2.2)) fun _ _ h => ?_
  · obtain ⟨⟨a, rfl⟩, -⟩ := h
    exact ⟨.error f, fun h => h.elim fun _ h => (by cases h), fun _ _ _ => rfl⟩
  · exact h.1.elim fun _ h => by cases h

end Act.Closes

/-- The property is one of what is kept, and of the keys. -/
def OfKept (J : State → Prop) : Prop :=
  ∀ s t : State, t.thread.cells = s.thread.cells → t.thread.kept = s.thread.kept → J s → J t

/-- The variable has this value. -/
def State.Holds (i : SlotId) (value : Option ObjectId) (s : State) : Prop :=
  ∃ v, s.slots.get? i = some v ∧ v.value = value

theorem State.Holds.same {value : Option ObjectId} (h : s.Holds i value) (ht : t.slots = s.slots) :
    t.Holds i value := by
  unfold State.Holds
  rwa [ht]

/-- The entry of a cell that one operation less changes. -/
def Kept.disengaged (e : Kept) : Kept :=
  match e.cell with
  | .handle .. => { e with users := e.users - 1, readers := e.readers - 1 }
  | .own .. => { e with users := e.users - 1, exclusive := false }

/-- The key stands for the kept cell, of which this is noted. -/
def State.Engages (key : String) (k : KeptId) (e : Kept) (s : State) : Prop :=
  s.thread.cells.get? key = some k ∧ s.thread.kept.get? k = some e

/-- The state after an operation that changed a kept cell has left it. -/
def State.disengaged (k : KeptId) (s : State) : State :=
  s.flag k Kept.disengaged

namespace Action

open Act (Closes)

variable {Q : State → Prop} {a : Access}

/-! ## Releasing -/

theorem release_counted {l : Ledger} (h : s.thread.ledger.release o = .ok l) :
    release ⟨.counted, o⟩ s = Act.parting ⟨.counted, o⟩
      (((s.letGo ⟨.counted, o⟩).setLedger l).note (.released o)) (.done ()) := by
  have hledger : (s.letGo ⟨.counted, o⟩).thread.ledger.release o = .ok l := h
  simp only [release, bind_apply, letGo_apply, thread_apply, done_bind, hledger, settleLedger_ok,
    note_apply, send_apply]
  refine congrArg (Act.send _ _) (funext fun u => ?_)
  show (if _ then send _ else pure () : Action Unit) u = _
  simp only [ite_apply, true_and, send_apply, pure_apply]

theorem release_native {f : Functions} (h : s.functions = some f) :
    release ⟨.native, o⟩ s = Act.parting ⟨.native, o⟩
      ((s.letGo ⟨.native, o⟩).note (.called f.release .released o)) (.done ()) := by
  have hf : (s.letGo ⟨.native, o⟩).functions = some f := h
  simp only [release, bind_apply, letGo_apply, done_bind, functions_some hf, note_apply]
  refine congrArg (Act.send _ _) (funext fun u => ?_)
  simp

/-- Nothing is given up when the hands are as before. -/
theorem unwound_nothing (h : t.thread.hands = s.thread.hands) (r : Except Failure α) :
    unwound s.thread.hands.length r t = ofExcept r t := by
  cases r with
  | ok => rfl
  | error f =>
    simp only [unwound, bind_apply, thread_apply, done_bind, h, Nat.sub_self, List.take_zero]
    rfl

section Closing

variable (hJ : OfKept J)

include hJ

/-- Giving up a claim, in a state of which `Q` holds without it. -/
theorem release_closes (hh : s.thread.hands = c :: H) (hj : J s)
    (hq : ∀ t : State, t.slots = s.slots → t.thread.cells = s.thread.cells →
      t.thread.claims = s.thread.claims → Q t) :
    (release c s).Closes H J id (Succeeds Q) (Loose H J) := by
  have hgo : (s.letGo c).thread.hands = H := State.letGo_hands hh
  obtain ⟨realm, o⟩ := c
  cases realm with
  | counted =>
    cases hl : s.thread.ledger.release o with
    | ok l =>
      rw [release_counted hl]
      exact .last (r := .ok ()) (hJ s _ rfl rfl hj) hgo ⟨⟨_, rfl⟩, hq _ rfl rfl rfl⟩ fun _ _ _ => rfl
    | error m =>
      have hrefused : release ⟨.counted, o⟩ s =
          raise (.misuse m) ((s.letGo ⟨.counted, o⟩).note (.refused m)) := by
        have hledger : (s.letGo ⟨.counted, o⟩).thread.ledger.release o = .error m := hl
        simp only [release, bind_apply, letGo_apply, thread_apply, done_bind, hledger,
          settleLedger_error, raise_bind]
      rw [hrefused]
      exact .raise ⟨hJ s _ rfl rfl hj, none, hgo, fun _ => rfl⟩
  | native =>
    cases hf : s.functions with
    | some f =>
      rw [release_native hf]
      exact .last (r := .ok ()) (hJ s _ rfl rfl hj) hgo ⟨⟨_, rfl⟩, hq _ rfl rfl rfl⟩ fun _ _ _ => rfl
    | none =>
      have hrefused : release ⟨.native, o⟩ s = raise (.invariant .functionsMissing)
          ((s.letGo ⟨.native, o⟩).emit (.violated .functionsMissing)) := by
        have hf' : (s.letGo ⟨.native, o⟩).functions = none := hf
        simp only [release, bind_apply, letGo_apply, done_bind, functions_none hf', violate_bind]
        rfl
      rw [hrefused]
      exact .raise ⟨hJ s _ rfl rfl hj, none, hgo, fun _ => rfl⟩

theorem releaseAny_closes {c : Option Claim} (hh : s.thread.hands = c.toList ++ H) (hj : J s)
    (hq : ∀ t : State, t.slots = s.slots → t.thread.cells = s.thread.cells →
      t.thread.claims = s.thread.claims → Q t) :
    (releaseAny c s).Closes H J id (IfSucceeds Q) (Loose H J) := by
  cases c with
  | some c => exact (release_closes hJ hh hj hq).ifSucceeds
  | none => exact .done ⟨hj, none, hh, fun _ => rfl⟩

/-- What a failure left in the hands is given up. -/
theorem unwinding_closes {b : Action α} (hs : s.thread.hands = H)
    (h : (b s).Closes H J id (IfSucceeds Q) (Loose H J)) :
    (unwinding b s).Closes H J id (IfSucceeds Q) (Tidy H J) := by
  have hnothing (r : Except Failure α) (u : State) (hu : u.thread.hands = H) :
      unwound s.thread.hands.length r u = ofExcept r u := unwound_nothing (hu.trans hs.symm) r
  rw [unwinding_apply]
  refine h.tried (fun r t h => ⟨r, h, fun u _ hu => hnothing r u hu⟩) fun r t h => ?_
  obtain ⟨hj, c, hc, h⟩ := h
  cases r with
  | ok a =>
    obtain rfl := h ⟨a, rfl⟩
    exact .done ⟨hj, hc⟩
  | error f =>
    cases c with
    | none =>
      rw [hnothing _ t hc]
      exact .fail ⟨hj, hc⟩
    | some c =>
      have hone : (unwound s.thread.hands.length (.error f) t : Act α) =
          (cleanUp (release c) t).bind fun _ t => .fail f t := by
        have htake : t.thread.hands.take (t.thread.hands.length - s.thread.hands.length) = [c] := by
          rw [hc, hs, List.length_append, Nat.add_sub_cancel, List.take_left]
          rfl
        simp only [unwound, bind_apply, thread_apply, done_bind, htake]
        exact congrArg (Act.bind · fun _ t => .fail f t) (Act.bind_done (cleanUp (release c) t))
      rw [hone]
      exact (release_closes (Q := fun _ => True) hJ hc hj fun _ _ _ _ => trivial).cleanUp.failing
        fun t hj hh => ⟨hj, hh⟩

/-! ## Changing a variable -/

theorem replace_closes (hv : s.slots.get? i = some v) (hh : s.thread.hands = ⟨v.realm, o⟩ :: H)
    (hj : J s) : (replace i o s).Closes H J id (fun _ _ => False) fun r t => J t ∧
      (∀ old, r = .ok old → t.thread.hands = old.toList ++ H ∧ t.Holds i (some o)) ∧
      ∃ c : Option Claim, t.thread.hands = c.toList ++ H := by
  have hhands (c : Option Claim) :
      c.toList ++ s.thread.hands.erase ⟨v.realm, o⟩ = c.toList ++ H := by
    rw [hh, List.erase_cons_head]
  have hthere : (s.setValue i (some o)).Holds i (some o) :=
    ⟨{ v with value := some o }, (Table.get?_modify_self _ _ _).trans (by rw [hv]; rfl), rfl⟩
  rw [replace, bind_apply, slot_some hv, done_bind]
  refine .record (fun p _ => ?_) ⟨hj, fun _ h => (by cases h), some _, hh⟩
  obtain ⟨realm, kind, name, value⟩ := v
  cases value with
  | none =>
    refine .done ⟨hJ s _ rfl rfl hj, fun old h => ?_, none, hhands none⟩
    cases h
    exact ⟨hhands none, hthere⟩
  | some o' =>
    refine .record (fun p' _ => ?_)
      ⟨hJ s _ rfl rfl hj, fun _ h => (by cases h), some ⟨realm, o'⟩, hhands (some _)⟩
    refine .done ⟨hJ s _ rfl rfl hj, fun old h => ?_, some ⟨realm, o'⟩, hhands (some _)⟩
    cases h
    exact ⟨hhands (some _), hthere⟩

theorem assign_closes {c : Cell} (hr : ∀ v, s.slots.get? c.slot = some v → v.realm = .counted)
    (hh : s.thread.hands = ⟨.counted, o⟩ :: H) (hj : J s) :
    (assign c o s).Closes H J id (IfSucceeds (State.Holds c.slot (some o))) (Loose H J) := by
  have hbefore (f : Failure) : Loose H J (.error f : Except Failure Unit) s :=
    ⟨hj, some _, hh, fun h => h.elim fun _ h => by cases h⟩
  refine .still (lockToChange_still c s) (fun _ => ?_) hbefore
  cases hv : s.slots.get? c.slot with
  | none =>
    have hnone : (replace c.slot o >>= releaseAny) s = .fail .noSuchCell s := by
      rw [bind_apply, replace, bind_apply, slot_none hv, fail_bind, fail_bind]
    exact hnone ▸ .fail (hbefore _)
  | some v =>
    refine (replace_closes hJ hv (hr v hv ▸ hh) hj).bind (fun _ _ h => h.elim) (fun old t h => ?_)
      fun f t h => ?_
    · obtain ⟨hj, h, -⟩ := h
      obtain ⟨hh, hval⟩ := h old rfl
      exact releaseAny_closes hJ hh hj fun u hu _ _ => hval.same hu
    · obtain ⟨hj, -, c, hc⟩ := h
      exact ⟨hj, c, hc, fun h => h.elim fun _ h => by cases h⟩

/-- Another claim is acquired first, and a script may run then. -/
theorem assignBorrowed_closes {c : Cell}
    (hr : ∀ u v, Sound [] u → J u → u.slots.get? c.slot = some v → v.realm = .counted)
    (hs : Sound [] s) (hh : s.thread.hands = H) (hj : J s) :
    (assignBorrowed c o s).Closes H J id (IfSucceeds (State.Holds c.slot (some o))) (Loose H J) := by
  rw [assignBorrowed, bind_apply]
  cases hv : s.slots.get? c.slot with
  | none =>
    rw [slot_none hv]
    exact .fail ⟨hj, none, hh, fun _ => rfl⟩
  | some v =>
    rw [slot_some hv, done_bind, hr s v hs hj hv, bind_apply]
    cases hl : s.thread.ledger.acquire o with
    | error m =>
      have hrefused : acquire ⟨.counted, o⟩ s = raise (.misuse m) (s.note (.refused m)) := by
        simp only [acquire, gain, bind_apply, thread_apply, done_bind, hl, settleLedger_error,
          raise_bind]
      rw [hrefused, raise_bind]
      exact .raise ⟨hJ s _ rfl rfl hj, none, hh, fun _ => rfl⟩
    | ok l =>
      have hgo : acquire ⟨.counted, o⟩ s = .send ⟨.counted, .acquired, o⟩
          (((s.setLedger l).hold ⟨.counted, o⟩).note (.acquired o)) (.done ()) := by
        simp only [acquire, gain, bind_apply, thread_apply, done_bind, hl]
        rfl
      rw [hgo]
      exact .acquired rfl (hJ s _ rfl rfl hj) fun u hu hj' hh' => assign_closes hJ
        (fun v hv => hr u v hu hj' hv) (hh'.trans (congrArg (List.cons _) hh)) hj'

/-- What is done with the claim that was in a variable. -/
theorem unbinding_closes {f : Option Claim → Action α} (hh : s.thread.hands = H) (hj : J s)
    (hnone : ∀ t, J t → t.thread.hands = H → (f none t).Closes H J id (IfSucceeds Q) (Loose H J))
    (hsome : ∀ c t, t.Holds i none → J t → t.thread.hands = c :: H →
      (f (some c) t).Closes H J id (IfSucceeds Q) (Loose H J)) :
    ((unbind i .release >>= f) s).Closes H J id (IfSucceeds Q) (Loose H J) := by
  rw [bind_apply, unbind, bind_apply]
  cases hv : s.slots.get? i with
  | none =>
    rw [slot_none hv]
    exact .fail ⟨hj, none, hh, fun _ => rfl⟩
  | some v =>
    rw [slot_some hv, done_bind]
    obtain ⟨realm, kind, name, value⟩ := v
    cases value with
    | none =>
      refine (Act.bind_assoc _ _ _).symm ▸ ?_
      exact .record (fun p _ => hnone _ (hJ s _ rfl rfl hj) hh) ⟨hj, none, hh, fun _ => rfl⟩
    | some o =>
      have hthere : (s.setValue i none).Holds i none :=
        ⟨⟨realm, kind, name, none⟩, (Table.get?_modify_self _ _ _).trans (by rw [hv]; rfl), rfl⟩
      change (((record kind .released ((s.setValue i none).hold ⟨realm, o⟩)).bind _).bind f).Closes
        H J id (IfSucceeds Q) (Loose H J)
      refine (Act.bind_assoc _ _ _).symm ▸ ?_
      refine .record (fun p _ => ?_) ⟨hJ s _ rfl rfl hj, some _, congrArg (List.cons _) hh,
        fun h => h.elim fun _ h => by cases h⟩
      exact hsome _ _ (hthere.same rfl) (hJ s _ rfl rfl hj) (congrArg (List.cons _) hh)

theorem clear_closes {c : Cell} (hh : s.thread.hands = H) (hj : J s) :
    (clear c s).Closes H J id (IfSucceeds (State.Holds c.slot none)) (Loose H J) := by
  have hrelease (x : Claim) (t : State) (ht : t.Holds c.slot none) (hj : J t)
      (hh : t.thread.hands = x :: H) : ((release x >>= fun _ => pure true) t).Closes H J id
        (IfSucceeds (State.Holds c.slot none)) (Loose H J) :=
    (release_closes hJ hh hj fun _ hu _ _ => ht.same hu).ifSucceeds.answered fun _ _ => Loose.map
  have hchange (f : Option Claim → Action Bool)
      (hsome : ∀ x, f (some x) = release x >>= fun _ => pure true) (hnone : f none = unboundError c) :
      ((lockToChange c >>= fun _ => unbind c.slot .release >>= f) s).Closes H J id
        (IfSucceeds (State.Holds c.slot none)) (Loose H J) := by
    refine .still (lockToChange_still c s) (fun _ => ?_) fun _ => ⟨hj, none, hh, fun _ => rfl⟩
    refine unbinding_closes hJ hh hj (fun t hj hh => ?_) fun x t ht hj hh => ?_
    · rw [hnone]
      exact .still (slot_still c.slot t) (fun _ => .fail ⟨hj, none, hh, fun _ => rfl⟩)
        fun _ => ⟨hj, none, hh, fun _ => rfl⟩
    · rw [hsome]
      exact hrelease x t ht hj hh
  cases c with
  | handle => exact hchange _ (fun _ => rfl) rfl
  | own form j =>
    cases form with
    | plain | parameter => exact hchange _ (fun _ => rfl) rfl
    | temporary =>
      refine .still (slot_still j s) (fun v => ?_) fun _ => ⟨hj, none, hh, fun _ => rfl⟩
      rw [ite_apply]
      split
      · exact .done ⟨hj, none, hh, fun _ => rfl⟩
      · exact unbinding_closes (f := fun x => releaseAny x >>= fun _ => pure true) hJ hh hj
          (fun t hj hh => .done ⟨hj, none, hh, fun _ => rfl⟩) hrelease

/-! ## Ending a cell -/

theorem destroySlot_closes (hh : s.thread.hands = H) (hj : J s)
    (hq : ∀ t : State, t.slots = s.slots.erase i → t.thread.cells = s.thread.cells → Q t) :
    (destroySlot i s).Closes H J id (Succeeds Q) (Loose H J) := by
  refine .still (slot_still i s) (fun v => ?_) fun _ => ⟨hj, none, hh, fun _ => rfl⟩
  obtain ⟨realm, kind, name, value⟩ := v
  cases value with
  | none => exact .done ⟨hJ s _ rfl rfl hj, none, hh, fun _ => rfl⟩
  | some o =>
    refine .record (fun p _ => ?_) ⟨hJ s _ rfl rfl hj, some ⟨realm, o⟩, congrArg (List.cons _) hh,
      fun h => h.elim fun _ h => by cases h⟩
    exact release_closes hJ (congrArg (List.cons _) hh) (hJ s _ rfl rfl hj) fun t ht hc _ => hq t ht hc

theorem dropHandle_closes (hh : s.thread.hands = H) (hj : J s)
    (hq : ∀ t : State, t.slots = s.slots.erase i → t.thread.cells = s.thread.cells → Q t) :
    (dropHandle i s).Closes H J id (IfSucceeds Q) (Loose H J) := by
  have hloose {t : State} (hc : t.thread.cells = s.thread.cells) (hk : t.thread.kept = s.thread.kept)
      (ht : t.thread.hands = s.thread.hands) {r : Except Failure Unit} : Loose H J r t :=
    ⟨hJ s t hc hk hj, none, ht.trans hh, fun _ => rfl⟩
  have hend {t : State} (ht : t.thread = s.thread) (hslots : t.slots = s.slots) :
      (destroySlot i t).Closes H J id (Succeeds Q) (Loose H J) :=
    destroySlot_closes hJ (ht ▸ hh) (hJ s t (by rw [ht]) (by rw [ht]) hj) fun u hu hc =>
      hq u (hslots ▸ hu) (ht ▸ hc)
  have hfreed (v : Slot) {t : State} (ht : t.thread = s.thread) (hslots : t.slots = s.slots) :
      ((attempt (reportFreed v) >>= fun r => conclude r (destroySlot i)) t).Closes H J id
        (IfSucceeds Q) (Loose H J) := by
    rw [bind_apply, attempt_apply]
    cases hp : t.profiler.record .shared .cellFreed with
    | some p =>
      rw [reportFreed_some hp]
      exact (hend (t := { t with profiler := p }.emit (.freed v.name v.value.isSome)) ht
        hslots).ifSucceeds.answered (f := id) fun _ _ => Loose.map
    | none =>
      rw [reportFreed_none hp]
      obtain hf | ⟨x, hx⟩ := raise_eq Unit .overflow t
      · rw [hf]
        exact (hend ht hslots).cleanUp.failing fun u hj hh => ⟨hj, none, hh, fun _ => rfl⟩
      · rw [hx]
        exact .halt
  rw [dropHandle, bind_apply, setSharing_apply, done_bind, bind_apply, did_apply, done_bind]
  refine .still (sharing_still i (lessHandle s i)) (fun sh => ?_) fun _ =>
    hloose (t := lessHandle s i) rfl rfl rfl
  rw [ite_apply]
  split
  · exact .still (slot_still i (lessHandle s i)) (fun v => hfreed v (t := unshared s i) rfl rfl)
      fun _ => hloose (t := lessHandle s i) rfl rfl rfl
  · exact .done (hloose (t := lessHandle s i) rfl rfl rfl)

theorem destroy_closes (hh : s.thread.hands = H) (hj : J s) (c : Cell)
    (hq : ∀ t : State, t.slots = s.slots.erase c.slot → t.thread.cells = s.thread.cells → Q t) :
    (destroy c s).Closes H J id (IfSucceeds Q) (Loose H J) := by
  cases c with
  | own form i => exact (destroySlot_closes hJ hh hj hq).ifSucceeds
  | handle i => exact dropHandle_closes hJ hh hj hq

theorem releaseHandle_closes (hh : s.thread.hands = H) (hj : J s)
    (hq : ∀ t : State, t.slots = s.slots.erase i → t.thread.cells = s.thread.cells → Q t) :
    (releaseHandle i s).Closes H J id (IfSucceeds Q) (Loose H J) := by
  refine .still (slot_still i s) (fun v => ?_) fun _ => ⟨hj, none, hh, fun _ => rfl⟩
  refine .still (sharing_still i s) (fun sh => ?_) fun _ => ⟨hj, none, hh, fun _ => rfl⟩
  exact dropHandle_closes hJ (s := s.emit (.released v.name (sh.handles - 1))) hh
    (hJ s _ rfl rfl hj) hq

end Closing

/-! ## Changing a cell under its key -/

section Using

variable {b : Action α}

theorem engages_ofKept (key : String) (k : KeptId) (e : Kept) :
    OfKept fun u => u.Engages key k e := by
  intro s t hc hk h
  exact ⟨hc ▸ h.1, hk ▸ h.2⟩

/-- What is done to a cell that an operation uses is refused, or noted while it lasts. -/
theorem changing_engages (b : Action α) (hk : s.thread.kept.get? k = some e) :
    ∃ g : Kept → Kept,
      (∀ u : State, u.thread.kept.get? k = some e.engaged →
        (u.flag k g).flag k (fun e => { e with users := e.users - 1 }) = u.disengaged k) ∧
      (changing k b (s.flag k Kept.entered) = .fail .busy (s.flag k Kept.entered) ∨
        changing k b (s.flag k Kept.entered) = (unwinding b (s.flag k Kept.engaged)).attempt.bind
          fun r => setKept k g >>= fun _ => ofExcept r) := by
  have hk' : (s.flag k Kept.entered).thread.kept.get? k = some e.entered :=
    (Table.get?_modify_self _ _ _).trans (by rw [hk]; rfl)
  rw [changing, bind_apply, kept_some hk', done_bind]
  obtain ⟨c, users, readers, exclusive⟩ := e
  cases c with
  | handle i a =>
    refine ⟨fun e => { e with readers := e.readers - 1 }, fun u hu => State.flag_flag hu rfl, ?_⟩
    show looking k b _ = _ ∨ looking k b _ = _
    rw [looking, bind_apply, kept_some hk', done_bind, ite_apply]
    split
    · exact .inl rfl
    · rw [← State.flag_flag (f := Kept.entered) (g := Kept.looked) (h := Kept.engaged) hk rfl]
      exact .inr rfl
  | own form i =>
    refine ⟨fun e => { e with exclusive := false }, fun u hu => State.flag_flag hu rfl, ?_⟩
    by_cases hbusy : (exclusive || decide (readers ≠ 0)) = true
    · exact .inl (congrFun (if_pos hbusy) _)
    · rw [← State.flag_flag (f := Kept.entered) (g := fun e => { e with exclusive := true })
        (h := Kept.engaged) hk rfl]
      exact .inr (congrFun (if_neg hbusy) _)

theorem withCell_closes (hc : s.thread.cells.get? key = some k)
    (hk : s.thread.kept.get? k = some e) (hh : s.thread.hands = H)
    {part : KeptId → Cell → Action β} {f : α → β}
    (hpart : part k e.cell = changing k b >>= fun a => pure (f a)) {Q : State → Prop}
    (hb : (b (s.flag k Kept.engaged)).Closes H (fun u => u.Engages key k e.engaged) id
      (IfSucceeds Q) (Loose H fun u => u.Engages key k e.engaged)) :
    (unwinding (withCell key part) s).Closes H (fun u => u.Engages key k e.engaged)
      (State.disengaged k) (IfSucceeds Q) (Tidy H fun u => u.thread.cells.get? key = some k) := by
  have hJ := engages_ofKept key k e.engaged
  obtain ⟨g, hg, hchange⟩ := changing_engages b hk
  -- the change of the cell, whether it is refused or not
  have hchange : (changing k b (s.flag k Kept.entered)).Closes H
      (fun u => u.Engages key k e.engaged) (fun u => u.flag k g) (IfSucceeds Q)
      (Tidy H fun u => u.thread.cells.get? key = some k) := by
    obtain hbusy | hgo := hchange
    · rw [hbusy]
      exact .fail ⟨hc, hh⟩
    · rw [hgo]
      refine (unwinding_closes hJ (s := s.flag k Kept.engaged) hh hb).passed
        (k := fun r => setKept k g >>= fun _ => ofExcept r) (fun r u _ _ => rfl) fun r t h => ?_
      exact ⟨t.flag k g, rfl, h.1.1, h.2⟩
  have hpass {r : Except Failure β} {t : State} (ht : t.thread.cells.get? key = some k) :
      conclude r (leave k) t =
        ofExcept r (t.flag k fun e => { e with users := e.users - 1 }) := by
    cases r with
    | ok b =>
      rw [conclude, bind_apply, leave_keyed ht]
      · rfl
      · simp
    | error f => exact conclude_passes (leave_keyed ht) f
  have hunwound (ρ : State → State) (hρ : ∀ u, (ρ u).thread.hands = u.thread.hands) {x : Act β}
      (h : x.Closes H (fun u => u.Engages key k e.engaged) ρ (IfSucceeds Q)
        (Tidy H fun u => u.thread.cells.get? key = some k)) :
      (x.attempt.bind (unwound s.thread.hands.length)).Closes H
        (fun u => u.Engages key k e.engaged) ρ (IfSucceeds Q)
        (Tidy H fun u => u.thread.cells.get? key = some k) :=
    h.passed (fun r u _ hu => unwound_nothing ((hρ u).trans (hu.trans hh.symm)) r)
      fun r t ht => ⟨t, unwound_nothing (ht.2.trans hh.symm) r, ht⟩
  have hanswer : (part k e.cell (s.flag k Kept.entered)).Closes H
      (fun u => u.Engages key k e.engaged) (fun u => u.flag k g) (IfSucceeds Q)
      (Tidy H fun u => u.thread.cells.get? key = some k) :=
    hpart ▸ hchange.answered fun _ _ h => h
  have hleft : (withCell key part s).Closes H (fun u => u.Engages key k e.engaged)
      (State.disengaged k) (IfSucceeds Q) (Tidy H fun u => u.thread.cells.get? key = some k) := by
    rw [withCell, bind_apply, keptId_some hc, done_bind, bind_apply, kept_some hk, done_bind,
      bind_apply, setKept_apply, done_bind, bind_apply, attempt_apply, unwinding_apply]
    refine (hunwound (·.flag k g) (fun _ => rfl) hanswer).passed (k := fun r => conclude r (leave k))
      (fun r u hu _ => ?_) fun r t ht => ⟨_, hpass ht.1, ht⟩
    exact (hpass (t := u.flag k g) hu.1).trans (congrArg (ofExcept r) (hg u hu.2))
  rw [unwinding_apply]
  exact hunwound (State.disengaged k) (fun _ => rfl) hleft

end Using

end Action

/-! ## Operations -/

namespace Op

/-- The operations that are there to give up a claim. Calls from native code are not among them, as
nothing comes after a panic in one. -/
def GivesUp : Op → Prop
  | .cell (.use _ _ (.assign _)) | .cell (.use _ _ (.assignBorrowed _)) | .cell (.use _ _ .clear)
  | .cell (.drop _) | .cell (.release _) | .object (.dropClaim _) => True
  | _ => False

/-- The kept cell that the operation uses. -/
def kept? (s : State) : Op → Option KeptId
  | .cell (.use key ..) => s.thread.cells.get? key
  | _ => none

theorem kept?_some {op : Op} (h : op.kept? s = some k) : ∃ key bound verb,
    op = .cell (.use key bound verb) ∧ s.thread.cells.get? key = some k := by
  cases op with
  | cell op =>
    cases op with
    | use key bound verb => exact ⟨key, bound, verb, rfl, h⟩
    | _ => cases h
  | _ => cases h

/-- What a finalizer finds that the operation sets off, when it was begun in the first state and
succeeds. -/
def Leaves (s t : State) : Op → Prop
  | .cell (.use key _ (.assign claim)) =>
    ∃ c, s.cellOf key = some c ∧ t.Holds c.slot (s.thread.claims.get? claim)
  | .cell (.use key _ (.assignBorrowed o)) => ∃ c, s.cellOf key = some c ∧ t.Holds c.slot (some o)
  | .cell (.use key _ .clear) => ∃ c, s.cellOf key = some c ∧ t.Holds c.slot none
  | .cell (.drop key) | .cell (.release key) =>
    ∃ c, s.cellOf key = some c ∧ t.slots.get? c.slot = none ∧ t.thread.cells.get? key = none
  | .object (.dropClaim key) => t.thread.claims.get? key = none
  | _ => True

end Op

namespace Action

/-- Using a cell that stands under its key. -/
theorem use_closes (hs : Sound [] s) (hc : s.thread.cells.get? key = some k)
    (hk : s.thread.kept.get? k = some e) {bound : Bool} {verb : Verb}
    (hop : (Op.cell (.use key bound verb)).GivesUp) :
    ((Op.cell (.use key bound verb)).course s).Closes s.thread.hands
      (fun u => u.Engages key k e.engaged) (State.disengaged k)
      (IfSucceeds fun t => (Op.cell (.use key bound verb)).Leaves s t)
      (Tidy s.thread.hands fun u => u.thread.cells.get? key = some k) := by
  have hJ := engages_ofKept key k e.engaged
  have hcell : s.cellOf key = some e.cell := by
    rw [State.cellOf, hc, Option.bind_some, hk, Option.map_some]
  have hj : (s.flag k Kept.engaged).Engages key k e.engaged :=
    ⟨hc, (Table.get?_modify_self _ _ _).trans (by rw [hk]; rfl)⟩
  have hr (u : State) (v : Slot) (hu : Sound [] u) (hj : u.Engages key k e.engaged)
      (hv : u.slots.get? (e.cell.via bound).slot = some v) : v.realm = .counted := by
    obtain ⟨v', hst, hr⟩ := hu.stands_of_kept hj.2
    have hv' := hst.slot
    rw [Kept.engaged_cell, ← Cell.slot_via e.cell bound, hv] at hv'
    exact Option.some.inj hv' ▸ hr
  have hs' : Sound [] (s.flag k Kept.engaged) := hs.flag Kept.engaged_cell
  have hchange {γ : Type} (b : Action γ) (f : γ → Answer) {Q : State → Prop}
      (hpart : usePart bound verb k e.cell = changing k b >>= fun a => pure (f a))
      (hq : ∀ t, Q t → (Op.cell (.use key bound verb)).Leaves s t)
      (hb : (b (s.flag k Kept.engaged)).Closes s.thread.hands (fun u => u.Engages key k e.engaged)
        id (IfSucceeds Q) (Loose s.thread.hands fun u => u.Engages key k e.engaged)) :
      ((Op.cell (.use key bound verb)).course s).Closes s.thread.hands
        (fun u => u.Engages key k e.engaged) (State.disengaged k)
        (IfSucceeds fun t => (Op.cell (.use key bound verb)).Leaves s t)
        (Tidy s.thread.hands fun u => u.thread.cells.get? key = some k) :=
    (withCell_closes hc hk rfl hpart hb).imp fun _ _ h hr => hq _ (h hr)
  cases verb with
  | assign claim =>
    have hpart : usePart bound (.assign claim) k e.cell = changing k (takeClaim claim >>= fun o =>
      assign (e.cell.via bound) o >>= fun _ => pure .nothing) := rfl
    refine hchange (Q := fun t => ∃ c, s.cellOf key = some c ∧
      t.Holds c.slot (s.thread.claims.get? claim)) _ id (hpart.trans (bind_pure _).symm)
        (fun _ h => h) ?_
    rw [bind_apply]
    cases ho : s.thread.claims.get? claim with
    | none =>
      rw [takeClaim_none (s := s.flag k Kept.engaged) ho]
      exact .fail ⟨hj, none, rfl, fun _ => rfl⟩
    | some o =>
      rw [takeClaim_some (s := s.flag k Kept.engaged) ho]
      generalize ht : State.hold _ ⟨.counted, o⟩ = t
      have hslots : t.slots = s.slots := by rw [← ht]; rfl
      have hhands : t.thread.hands = ⟨.counted, o⟩ :: s.thread.hands := by rw [← ht]; rfl
      refine ((assign_closes hJ (fun v hv => hr _ v hs' hj (hslots ▸ hv)) hhands
        (hJ (s.flag k Kept.engaged) t (by rw [← ht]; rfl) (by rw [← ht]; rfl) hj)).imp
          fun _ _ h hr => ?_).answered fun _ _ => Loose.map
      exact ⟨e.cell, hcell, Cell.slot_via e.cell bound ▸ h hr⟩
  | assignBorrowed o =>
    have hpart : usePart bound (.assignBorrowed o) k e.cell = changing k (requireKnown o >>= fun _ =>
      assignBorrowed (e.cell.via bound) o >>= fun _ => pure .nothing) := rfl
    refine hchange _ id (hpart.trans (bind_pure _).symm) (fun t ht => ⟨e.cell, hcell,
      Cell.slot_via e.cell bound ▸ ht⟩) ?_
    by_cases ho : o ∈ (s.flag k Kept.engaged).thread.known
    · rw [bind_apply, requireKnown_some ho]
      exact (assignBorrowed_closes hJ hr hs' rfl hj).answered fun _ _ => Loose.map
    · rw [bind_apply, requireKnown_none ho]
      exact .fail ⟨hj, none, rfl, fun _ => rfl⟩
  | clear =>
    refine hchange (clear (e.cell.via bound)) _ rfl (fun t ht => ⟨e.cell, hcell, ?_⟩)
      (clear_closes hJ (s := s.flag k Kept.engaged) rfl hj)
    exact Cell.slot_via e.cell bound ▸ ht
  | _ => exact hop.elim

/-- Taking a cell away from its key, and ending it in some way. -/
theorem takingCell_closes (hs : Sound [] s) {finish : Cell → Action α} {Q : State → Prop}
    (hfinish : ∀ c t, s.cellOf key = some c → t.slots = s.slots →
      t.thread.cells = s.thread.cells.erase key → t.thread.hands = s.thread.hands →
      (finish c t).Closes s.thread.hands (fun _ => True) id (IfSucceeds Q)
        (Loose s.thread.hands fun _ => True)) :
    ((takeCell key >>= finish) s).Closes s.thread.hands (fun _ => True) id (IfSucceeds Q)
      (Loose s.thread.hands fun _ => True) := by
  have hstay {r : Except Failure α} : Loose s.thread.hands (fun _ => True) r s :=
    ⟨trivial, none, rfl, fun _ => rfl⟩
  rw [bind_apply]
  cases hc : s.thread.cells.get? key with
  | none =>
    rw [takeCell_none hc]
    exact .fail hstay
  | some k =>
    obtain ⟨e, hk⟩ := Option.isSome_iff_exists.1 (hs.thread.keyed key k hc)
    by_cases hu : e.users = 0
    · rw [takeCell_free hc hk hu]
      refine hfinish e.cell _ ?_ rfl rfl rfl
      rw [State.cellOf, hc, Option.bind_some, hk, Option.map_some]
    · rw [takeCell_busy hc hk hu]
      exact .fail hstay

/-- The other operations use no kept cell while they give up a claim. -/
theorem rest_closes (hs : Sound [] s) {op : Op} (hop : op.GivesUp) (hkept : op.kept? s = none) :
    (op.course s).Closes s.thread.hands (fun _ => True) id (IfSucceeds fun t => op.Leaves s t)
      (Tidy s.thread.hands fun _ => True) := by
  have hJ : OfKept fun _ => True := fun _ _ _ _ _ => trivial
  refine unwinding_closes hJ rfl ?_
  cases op with
  | object op =>
    cases op with
    | dropClaim key =>
      show ((takeClaim key s).bind fun o => (release ⟨.counted, o⟩ >>= fun _ => pure _)).Closes
        _ _ _ _ _
      cases ho : s.thread.claims.get? key with
      | none =>
        rw [takeClaim_none ho]
        exact .fail ⟨trivial, none, rfl, fun _ => rfl⟩
      | some o =>
        rw [takeClaim_some ho]
        refine (release_closes (H := s.thread.hands) hJ rfl trivial fun t _ _ ht =>
          ?_).ifSucceeds.answered fun _ _ => Loose.map
        exact (congrArg (Table.get? · key) ht).trans (Table.get?_erase_self _ _)
    | _ => exact hop.elim
  | cell op =>
    cases op with
    | use key bound verb =>
      have hmissing : perform (.cell (.use key bound verb)) s = .fail .noSuchCell s :=
        withCell_missing (a := usePart bound verb) hkept
      rw [hmissing]
      exact .fail ⟨trivial, none, rfl, fun _ => rfl⟩
    | drop key =>
      refine takingCell_closes hs fun c t hc ht hcells hh => ?_
      refine (destroy_closes hJ hh trivial c fun u hu hc' => ?_).answered fun _ _ => Loose.map
      exact ⟨c, hc, by rw [hu, ht, Table.get?_erase_self],
        by rw [hc', hcells, Table.get?_erase_self]⟩
    | release key =>
      show ((cell key s).bind fun c => (sharedSlot c >>= fun i => takeCell key >>= fun _ =>
        releaseHandle i >>= fun _ => pure _)).Closes _ _ _ _ _
      cases hc : s.thread.cells.get? key with
      | none =>
        rw [cell_none hc]
        exact .fail ⟨trivial, none, rfl, fun _ => rfl⟩
      | some k =>
        obtain ⟨e, hk⟩ := Option.isSome_iff_exists.1 (hs.thread.keyed key k hc)
        have hcell : s.cellOf key = some e.cell := by
          rw [State.cellOf, hc, Option.bind_some, hk, Option.map_some]
        rw [cell_some hc hk, done_bind, bind_apply]
        cases hslot : e.cell with
        | own => exact .fail ⟨trivial, none, rfl, fun _ => rfl⟩
        | handle i a =>
          refine takingCell_closes hs fun c t _ ht hcells hh => ?_
          refine (releaseHandle_closes hJ hh trivial fun u hu hc' => ?_).answered
            fun _ _ => Loose.map
          exact ⟨e.cell, hcell, by rw [hslot, hu, ht]; exact Table.get?_erase_self _ _,
            by rw [hc', hcells, Table.get?_erase_self]⟩
    | _ => exact hop.elim
  | _ => exact hop.elim

end Action

end ClaimCells
