import ClaimCells.Proofs.Course

/-!
# Claims on their way

What the actions of `Possession` do: each says which claims it leaves in the hands, whether it
comes to an end or fails. No action does a deed here.

Main result: `unwinding_does`, an action that fails in the middle leaves the hands as it found them.
-/

namespace ClaimCells

variable {α β : Type} {Q R : Post α} {s s' : State} {l : List Cell} {ds : List Deed}
  {H : List Claim}

/-! ## Reading actions -/

namespace Action

@[simp] theorem ite_apply (p : Prop) [Decidable p] (a b : Action α) (s : State) :
    (if p then a else b) s = if p then a s else b s := by
  split <;> rfl

@[simp] theorem done_bind (a : α) (s : State) (k : α → Action β) :
    (Act.done a s).bind k = k a s := rfl

@[simp] theorem fail_bind (f : Failure) (s : State) (k : α → Action β) :
    (Act.fail f s).bind k = .fail f s := rfl

@[simp] theorem halt_bind (h : Halt) (s : State) (k : α → Action β) :
    (Act.halt h s).bind k = .halt h s := rfl

@[simp] theorem done_attempt (a : α) (s : State) :
    (Act.done a s).attempt = .done (.ok a) s := rfl

@[simp] theorem fail_attempt (f : Failure) (s : State) :
    (Act.fail f s : Act α).attempt = .done (.error f) s := rfl

@[simp] theorem bind_apply (a : Action α) (k : α → Action β) (s : State) :
    (a >>= k) s = (a s).bind k := rfl

@[simp] theorem pure_apply (a : α) (s : State) : (pure a : Action α) s = .done a s := rfl

@[simp] theorem get_apply (s : State) : (get : Action State) s = .done s s := rfl

@[simp] theorem modify_apply (f : State → State) (s : State) :
    (modify f : Action Unit) s = .done () (f s) := rfl

@[simp] theorem inThread_apply (f : Thread → Thread) (s : State) :
    inThread f s = .done () (s.inThread f) := rfl

@[simp] theorem note_apply (e : Entry) (s : State) : note e s = .done () (s.note e) := rfl

@[simp] theorem did_apply (d : Deed) (s : State) : did d s = .done () (s.did d) := rfl

@[simp] theorem thread_apply (s : State) : thread s = .done s.thread s := rfl

@[simp] theorem fail_apply (f : Failure) (s : State) : (fail f : Action α) s = .fail f s := rfl

@[simp] theorem halt_apply (h : Halt) (s : State) : (halt h : Action α) s = .halt h s := rfl

@[simp] theorem send_apply (g : Signal) (s : State) : send g s = .send g s (.done ()) := rfl

@[simp] theorem attempt_apply (a : Action α) (s : State) : attempt a s = (a s).attempt := rfl

@[simp] theorem emit_apply (e : Event) (s : State) : emit e s = .done () (s.emit e) := rfl

@[simp] theorem hold_apply (c : Claim) (s : State) : hold c s = .done () (s.hold c) := rfl

@[simp] theorem letGo_apply (c : Claim) (s : State) : letGo c s = .done () (s.letGo c) := rfl

@[simp] theorem adopt_apply (c : Claim) (s : State) :
    adopt c s = .done () ((s.note (.adopted c)).hold c) := rfl

@[simp] theorem disown_apply (c : Claim) (s : State) :
    disown c s = .done () ((s.note (.disowned c)).letGo c) := rfl

@[simp] theorem fresh_apply (s : State) : fresh s = .done s.next { s with next := s.next + 1 } :=
  rfl

@[simp] theorem demand_some (f : Failure) (a : α) (s : State) :
    demand f (some a) s = .done a s := rfl

@[simp] theorem demand_none (f : Failure) (s : State) :
    demand f (none : Option α) s = .fail f s := rfl

@[simp] theorem ofExcept_ok (a : α) (s : State) : ofExcept (.ok a) s = .done a s := rfl

@[simp] theorem ofExcept_error (f : Failure) (s : State) :
    (ofExcept (.error f) : Action α) s = .fail f s := rfl

end Action

@[simp] theorem State.letGo_hands {c : Claim} (h : s.thread.hands = c :: H) :
    (s.letGo c).thread.hands = H := by
  show s.thread.hands.erase c = H
  rw [h, List.erase_cons_head]

namespace Action

open Act (Does)

/-! ## Breaking off -/

theorem raise_does {p : Panic} (h : Q ds l (.error (.panic p)) s) :
    (raise p s : Act α).Does Q ds l s := by
  simp only [raise, bind_apply, thread_apply, done_bind, ite_apply, fail_apply, halt_apply]
  split
  · exact .fail h
  · trivial

theorem violate_does {i : Invariant}
    (h : Q ds l (.error (.panic (.invariant i))) (s.emit (.violated i))) :
    (violate i s : Act α).Does Q ds l s :=
  .idle (.aside (.emit s (.violated i) fun _ => rfl)) (raise_does h)

/-- How an action ends that does no deed and holds no cell in its arms: it leaves its claims in
the hands, or breaks off and leaves them as they were. -/
def Takes (s : State) (ds : List Deed) (l : List Cell) (taken : List Claim) : Post α :=
  fun ds' l' r s' => ds' = ds ∧ l' = l ∧ match r with
    | .ok _ => Came s (taken ++ s.thread.hands) s'
    | .error f => (∃ p, f = .panic p) ∧ Came s s.thread.hands s'

/-! ## Acquiring -/

theorem functions_some {f : Functions} (h : s.functions = some f) : functions s = .done f s := by
  simp only [functions, bind_apply, get_apply, done_bind, h, pure_apply]

theorem functions_none (h : s.functions = none) :
    functions s = violate .functionsMissing s := by
  simp only [functions, bind_apply, get_apply, done_bind, h]

theorem functions_does : (functions s).Does (Takes s ds l []) ds l s := by
  cases h : s.functions with
  | some f =>
    rw [functions_some h]
    exact .done ⟨rfl, rfl, .refl s⟩
  | none =>
    rw [functions_none h]
    exact violate_does ⟨rfl, rfl, ⟨_, rfl⟩, (Aside.emit s _ fun _ => rfl).came⟩

@[simp] theorem raise_bind (p : Panic) (s : State) (k : α → Action β) :
    (raise p s : Act α).bind k = raise p s := by
  simp only [raise, bind_apply, thread_apply, done_bind, ite_apply, fail_apply, halt_apply]
  split <;> rfl

@[simp] theorem violate_bind (i : Invariant) (s : State) (k : α → Action β) :
    (violate i s : Act α).bind k = violate i s := by
  simp only [violate, bind_apply, emit_apply, done_bind, raise_bind]

/-- Nothing is done after an invariant was found broken. -/
theorem violate_seq (i : Invariant) (k : α → Action β) :
    ((violate i : Action α) >>= k) = violate i :=
  funext fun s => violate_bind i s k

theorem settleLedger_ok (k : Ledger) (s : State) :
    settleLedger (.ok k) s = .done k (s.setLedger k) := rfl

theorem settleLedger_error (m : Misuse) (s : State) :
    settleLedger (.error m) s = raise (.misuse m) (s.note (.refused m)) := rfl

/-- What the ledger answered when a claim was to be gained. -/
def Gains (s : State) (c : Claim) (r : Except Failure Unit) : Prop :=
  c.realm = .counted → match r with
    | .ok _ => ∃ k, s.thread.ledger.acquire c.object = .ok k
    | .error f => ∃ m, f = .panic (.misuse m) ∧ s.thread.ledger.acquire c.object = .error m

theorem gain_does (hs : Sound l s) (c : Claim) : (gain c s).Does
    (fun ds' l' r s' => Takes s ds l [c] ds' l' r s' ∧ Gains s c r) ds l s := by
  obtain ⟨realm, o⟩ := c
  cases realm with
  | counted =>
    simp only [gain, bind_apply, thread_apply, done_bind]
    cases hk : s.thread.ledger.acquire o with
    | ok k =>
      rw [settleLedger_ok]
      refine .idle (.gained hk) (.done ⟨⟨rfl, rfl, ?_⟩, fun _ => ⟨k, hk⟩⟩)
      exact Move.came (.gained (l := l) hk) rfl rfl
    | error m =>
      rw [settleLedger_error, raise_bind]
      refine .idle (.refusedGain hk) (raise_does ⟨⟨rfl, rfl, ⟨_, rfl⟩, ?_⟩, fun _ => ⟨m, rfl, hk⟩⟩)
      exact Move.came (.refusedGain (l := l) hk) rfl rfl
  | native =>
    refine .seq hs functions_does (fun ds' l' f s' _ h => ?_) (fun ds' l' f s' _ h => ?_)
    · obtain ⟨rfl, rfl, h⟩ := h
      have m : Move l' s' [] l' _ := .gainedNative o f.acquire
      refine .idle m (.done ⟨⟨rfl, rfl, ?_⟩, nofun⟩)
      exact h.trans (Move.came m rfl (congrArg (_ :: ·) h.hands))
    · exact ⟨h, nofun⟩

/-- Actions of which a claim taken into the hands is all that matters. -/
theorem acquire_does (hs : Sound [] s) (c : Claim) : (acquire c s).Does
    (fun ds' l' r s' => Takes s ds [] [c] ds' l' r s' ∧ Gains s c r) ds [] s := by
  refine .seq hs (gain_does hs c) (fun ds' l' _ s' _ h => ?_) (fun ds' l' f s' _ h => h)
  obtain ⟨⟨rfl, rfl, h⟩, hg⟩ := h
  refine .send fun s'' hc _ => .done ⟨⟨rfl, rfl, ?_⟩, hg⟩
  exact ⟨h.toOnward.trans hc.toOnward, hc.hands.trans h.hands⟩

theorem acquireRaw_does (hs : Sound [] s) (c : Claim) :
    (acquireRaw c s).Does (Takes s ds [] []) ds [] s := by
  refine .seq hs (gain_does hs c) (fun ds' l' _ s' _ h => ?_) (fun ds' l' f s' _ h => h.1)
  obtain ⟨⟨rfl, rfl, h⟩, -⟩ := h
  have m : Move [] s' [] [] _ := .disowned (c := c) (by rw [h.hands]; exact List.mem_cons_self)
  refine .idle m (.send fun s'' hc _ => .done ⟨rfl, rfl, ?_⟩)
  exact (h.trans (Move.came m rfl (State.letGo_hands h.hands))).trans
    ⟨hc.toOnward, hc.hands.trans (State.letGo_hands h.hands)⟩

/-! ## Releasing -/

/-- How an action ends that does no deed and holds no cell in its arms, and that ends with these
claims in the hands whether it breaks off or not. -/
def Frees (s : State) (ds : List Deed) (H : List Claim) : Post α :=
  fun ds' l' r s' => ds' = ds ∧ l' = [] ∧ Came s H s' ∧ ∀ f, r = .error f → ∃ p, f = .panic p

theorem release_does {c : Claim} (hh : s.thread.hands = c :: H) :
    (release c s).Does (Frees s ds H) ds [] s := by
  have hmem : c ∈ s.thread.hands := by rw [hh]; exact List.mem_cons_self
  have hgo : (s.letGo c).thread.hands = H := State.letGo_hands hh
  obtain ⟨realm, o⟩ := c
  cases realm with
  | counted =>
    simp only [release, bind_apply, letGo_apply, thread_apply, done_bind]
    change ((settleLedger (s.thread.ledger.release o) (s.letGo ⟨.counted, o⟩)).bind _).Does _ _ _ _
    cases hk : s.thread.ledger.release o with
    | ok k =>
      rw [settleLedger_ok, done_bind, bind_apply, note_apply, done_bind]
      have m : Move [] s [] [] _ := .released hmem hk
      refine .idle m (.send fun s₁ h₁ _ => ?_)
      have h₁ : Came s H s₁ :=
        (Move.came m rfl hgo).trans ⟨h₁.toOnward, h₁.hands.trans hgo⟩
      simp only [done_bind, bind_apply, thread_apply, ite_apply, send_apply, pure_apply]
      split
      · refine .send fun s₂ h₂ _ => .done ⟨rfl, rfl, ?_, nofun⟩
        exact h₁.trans ⟨h₂.toOnward, h₂.hands.trans h₁.hands⟩
      · exact .done ⟨rfl, rfl, h₁, nofun⟩
    | error e =>
      rw [settleLedger_error, raise_bind]
      have m : Move [] s [] [] _ := .lost hmem hk
      refine .idle m (raise_does ⟨rfl, rfl, Move.came m rfl hgo, ?_⟩)
      rintro _ ⟨⟩
      exact ⟨_, rfl⟩
  | native =>
    simp only [release, bind_apply, letGo_apply, done_bind]
    cases hf : s.functions with
    | some f =>
      have hf' : (s.letGo ⟨.native, o⟩).functions = some f := hf
      rw [functions_some hf', done_bind, bind_apply, note_apply, done_bind]
      have m : Move [] s [] [] _ := .releasedNative f.release hmem
      refine .idle m (.send fun s₁ h₁ _ => .done ⟨rfl, rfl, ?_, nofun⟩)
      exact (Move.came m rfl hgo).trans ⟨h₁.toOnward, h₁.hands.trans hgo⟩
    | none =>
      have hf' : (s.letGo ⟨.native, o⟩).functions = none := hf
      have m : Move [] s [] [] _ := .lostNative hmem
      rw [functions_none hf', violate_bind]
      refine .idle m (raise_does ⟨rfl, rfl, Move.came m rfl hgo, ?_⟩)
      rintro _ ⟨⟩
      exact ⟨_, rfl⟩

theorem releaseAny_does {c : Option Claim}
    (hh : s.thread.hands = c.toList ++ H) : (releaseAny c s).Does (Frees s ds H) ds [] s := by
  cases c with
  | some c => exact release_does hh
  | none => exact .done ⟨rfl, rfl, ⟨.refl s, hh⟩, nofun⟩

/-! ## Cleaning up -/

theorem cleanUp_does {a : Action Unit} {Q : Post Unit} (hs : Sound l s) (h : (a s).Does Q ds l s) :
    (cleanUp a s).Does (fun ds l r s => r = .ok () ∧ Q ds l r s) ds l s := by
  refine .tried hs h fun ds l r s _ h => ?_
  cases r with
  | ok => exact .done ⟨rfl, h⟩
  | error => trivial

/-- Whatever is on top of the hands is given up. -/
theorem releaseAll_does (hs : Sound [] s) {own : List Claim} (hh : s.thread.hands = own ++ H) :
    ((own.forM fun c => cleanUp (release c)) s).Does
      (fun ds' l' r s' => r = .ok () ∧ ds' = ds ∧ l' = [] ∧ Came s H s') ds [] s := by
  induction own generalizing s with
  | nil => exact .done ⟨rfl, rfl, rfl, .refl s, hh⟩
  | cons c own ih =>
    change ((cleanUp (release c) >>= fun _ => own.forM fun c => cleanUp (release c)) s).Does _ _ _ _
    refine .seq hs (cleanUp_does hs (release_does hh)) ?_ ?_
    · rintro ds' l' _ s' hs' ⟨-, rfl, rfl, hc, -⟩
      refine (ih hs' hc.hands).imp ?_
      rintro ds'' l'' r s'' ⟨hr, hd, hl, h⟩
      exact ⟨hr, hd, hl, hc.trans h⟩
    · rintro ds' l' f s' - ⟨⟨⟩, -⟩

theorem unwinding_done {a : Action α} {x : α} (h : a s = .done x s') :
    unwinding a s = .done x s' := by
  simp only [unwinding, bind_apply, thread_apply, done_bind, attempt_apply, h, done_attempt,
    pure_apply]

theorem unwinding_halt {a : Action α} {p : Halt} (h : a s = .halt p s') :
    unwinding a s = .halt p s' := by
  simp only [unwinding, bind_apply, thread_apply, done_bind, attempt_apply, h]
  rfl

/-- A failure with nothing more in the hands leaves nothing to be given up. -/
theorem unwinding_fail {a : Action α} {f : Failure} (h : a s = .fail f s')
    (hh : s'.thread.hands = s.thread.hands) : unwinding a s = .fail f s' := by
  simp only [unwinding, bind_apply, thread_apply, done_bind, attempt_apply, h, fail_attempt, hh,
    Nat.sub_self, List.take_zero]
  rfl

/-- **An action that fails in the middle leaves the hands as it found them.** -/
theorem unwinding_does {a : Action α} {Q R : Post α} (hs : Sound l s) (h : (a s).Does Q ds l s)
    (hok : ∀ ds l x s, Sound l s → Q ds l (.ok x) s → R ds l (.ok x) s)
    (hf : ∀ ds l f s', Sound l s' → Q ds l (.error f) s' → l = [] ∧
      ∃ own, s'.thread.hands = own ++ s.thread.hands ∧
        ∀ s'', Came s' s.thread.hands s'' → R ds l (.error f) s'') :
    (unwinding a s).Does R ds l s := by
  rw [unwinding, bind_apply, thread_apply, done_bind]
  refine .tried hs h fun ds' l' r s' hs' hq => ?_
  cases r with
  | ok x => exact .done (hok _ _ _ _ hs' hq)
  | error f =>
    obtain ⟨rfl, own, hh, hr⟩ := hf _ _ _ _ hs' hq
    have htake : s'.thread.hands.take (s'.thread.hands.length - s.thread.hands.length) = own := by
      rw [hh, List.length_append, Nat.add_sub_cancel, List.take_left]
    simp only [bind_apply, thread_apply, done_bind, htake]
    refine .bind hs' (releaseAll_does hs' hh) ?_ ?_
    · rintro ds'' l'' _ s'' - ⟨-, rfl, rfl, hc⟩
      exact .fail (hr s'' hc)
    · rintro ds'' l'' f s'' - ⟨⟨⟩, -⟩

end Action

end ClaimCells
