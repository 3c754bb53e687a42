import ClaimCells.Proofs.Shares

/-!
# What operations earn

An operation that may acquire a claim acquires one at most, and it has acquired one when it comes to
its end. All other operations acquire none.

Main results: `course_idles` and `course_earns`.
-/

namespace ClaimCells

open Act (Stays Grows)

variable {α β : Type} {s t : State} {op : Op} {x : Act α} {S : Scope}

/-! ## Acquired claims -/

/-- The entry tells that a claim was acquired. -/
def Entry.gains : Entry → Bool
  | .acquired _ | .called _ .acquired _ => true
  | _ => false

/-- How many claims were acquired. -/
def Journal.gained (j : Journal) : Nat :=
  j.countP Entry.gains

/-- How many claims were acquired up to a state. -/
abbrev State.gained (s : State) : Nat :=
  s.journal.gained

theorem Journal.gained_measure : Journal.Measure Journal.gained :=
  ⟨fun _ _ => rfl, fun _ _ => rfl⟩

theorem Journal.gained_append {es : Journal} (h : ∀ e ∈ es, e.gains = false) (j : Journal) :
    Journal.gained (es ++ j) = j.gained := by
  rw [gained, List.countP_append, List.countP_eq_zero.2 fun e he => by rw [h e he]; exact Bool.false_ne_true,
    Nat.zero_add]
  rfl

theorem Entry.Calm.gains {e : Entry} (h : e.Calm False) : e.gains = false := by
  cases e with
  | acquired => exact h.elim
  | called l m o =>
    cases m with
    | acquired => exact h.elim
    | released | freed => rfl
  | _ => rfl

theorem Settles.gained {x? : Option Claim} {es : Journal} (h : Settles x? es) :
    ∀ e ∈ es, e.gains = false := by
  cases h with
  | silent => exact List.forall_mem_nil _
  | told => simp [Entry.gains]
  | givenUp _ _ he' => simpa [Entry.gains] using he'.calm.gains

theorem Strode.gained (h : Strode False s t) : SameMeasure State.gained s t := by
  induction h with
  | refl => rfl
  | tail _ h ih =>
    refine Eq.trans ?_ ih
    cases h with
    | calm h =>
      obtain ⟨-, es, hj, hes⟩ := h
      rw [State.gained, hj, Journal.gained_append fun e he => (hes e he).gains]
    | deed d es _ hj hes =>
      rw [State.gained, hj, Journal.gained_append hes.gained]
      rfl

/-! ## Idling and earning -/

/-- The action acquires no claim. -/
def Action.Idles (a : Action α) : Prop :=
  ∀ s, (a s).Stays (SameMeasure State.gained) s

/-- The action acquires one claim, or fails and acquires one at most. -/
def Action.Earns (a : Action α) : Prop :=
  ∀ n s, (a s).Grows State.gained
    (fun r k => k = n + 1 ∨ k = n ∧ ∃ f, r = .error f) n s

/-- The course never comes to a value. -/
def Act.Fails : Act α → Prop
  | done .. => False
  | fail .. | halt .. => True
  | send _ _ next => ∀ t, Fails (next t)

theorem Act.Fails.bind {k : α → State → Act β} (hk : ∀ a t, (k a t).Fails) (x : Act α) :
    (x.bind k).Fails := by
  induction x with
  | done a t => exact hk a t
  | fail | halt => trivial
  | send g t next ih => exact fun t' => ih t'

/-- What acquires nothing and fails. -/
theorem Act.Grows.of_fails {n : Int} (h : x.Stays (SameMeasure State.gained) s) (hf : x.Fails) :
    x.Grows State.gained (fun r k => k = n ∧ ∃ f, r = .error f) n s := by
  induction x generalizing n s with
  | done => exact hf.elim
  | fail f t =>
    refine ⟨?_, f, rfl⟩
    rw [show t.gained = s.gained from h]
    omega
  | halt => trivial
  | send g t next ih =>
    intro t'
    rw [show t.gained = s.gained from h.1, Int.sub_self, Int.add_zero]
    exact ih t' (h.2 t') (hf t')

namespace Action

/-- The scope of actions that acquire no claim. -/
def modest : Scope :=
  { Scope.wide fun _ _ => True with gains := False, reads := False }

theorem Cellular.idles {a : Action α} (h : Cellular modest a) : Idles a :=
  fun s => ((h.strides trivial id id id s : (a s).Stays (Strode False) s)).imp Strode.gained

theorem modest_looksAt (c : Cell) : modest.LooksAt c := by
  cases c <;> trivial

theorem modest_changes (c : Cell) : modest.Changes c := by
  cases c <;> trivial

theorem modest_calls : modest.calls :=
  fun _ _ _ => trivial

namespace Earns

variable {a : Action α} {k : α → Action β}

theorem fail (f : Failure) : Earns (fail f : Action α) :=
  fun n s => .inr ⟨by omega, f, rfl⟩

/-- What comes before acquires nothing. -/
theorem after (ha : Idles a) (hk : ∀ x, Earns (k x)) : Earns (a >>= k) := by
  intro n s
  refine (Grows.of_stays (n := n) (ha s)).bind (fun x k' t hk' => ?_) fun e k' hk' => .inr ⟨hk', e, rfl⟩
  subst hk'
  exact hk x k' t

/-- What comes after acquires nothing. -/
theorem before (ha : Earns a) (hk : ∀ x, Idles (k x)) : Earns (a >>= k) := by
  intro n s
  refine (ha n s).bind (fun x k' t hk' => ?_) fun e k' hk' => hk'.imp_right fun h => ⟨h.1, e, rfl⟩
  obtain rfl | ⟨-, f, hf⟩ := hk'
  · exact (Grows.of_stays (hk x t)).imp fun _ _ h => .inl h
  · cases hf

/-- What is done about a failure does not make up for it. -/
theorem tried {k : Except Failure α → Action β} (ha : Earns a) (hk : ∀ r, Idles (k r))
    (hf : ∀ f s, (k (.error f) s).Fails) : Earns (attempt a >>= k) := by
  intro n s
  refine (ha n s).tried fun r k' t hk' => ?_
  obtain rfl | ⟨rfl, f, rfl⟩ := hk'
  · exact (Grows.of_stays (hk r t)).imp fun _ _ h => .inl h
  · exact (Grows.of_fails (hk _ t) (hf f t)).imp fun _ _ h => .inr h

end Earns

/-! ## Acquiring -/

theorem note_earns {e : Entry} (h : e.gains = true) : Earns (note e) := by
  intro n s
  refine .inl ?_
  show n + ((Journal.gained (e :: s.journal) : Int) - s.journal.gained) = n + 1
  rw [Journal.gained, List.countP_cons_of_pos h, Journal.gained]
  omega

theorem functions_cellular : Cellular S functions := by
  refine .look (fun _ _ _ => rfl) (fun _ _ => rfl) fun s => ?_
  split
  · exact .pure _
  · exact .violate _

theorem thread_idles : Idles thread :=
  fun _ => rfl

theorem gain_earns (c : Claim) : Earns (gain c) := by
  obtain ⟨realm, o⟩ := c
  cases realm with
  | counted =>
    exact .after thread_idles fun _ => .after (settleLedger_cellular _).idles fun _ =>
      .after (hold_cellular _).idles fun _ => note_earns rfl
  | native =>
    exact .after functions_cellular.idles fun _ => .after (hold_cellular _).idles fun _ =>
      note_earns rfl

theorem pure_idles (x : α) : Idles (pure x) :=
  fun _ => rfl

theorem send_idles (g : Signal) : Idles (send g) :=
  fun _ => ⟨rfl, fun _ => rfl⟩

theorem acquire_earns (c : Claim) : Earns (acquire c) :=
  .before (gain_earns c) fun _ => send_idles _

theorem Idles.bind {a : Action α} {k : α → Action β} (ha : Idles a) (hk : ∀ x, Idles (k x)) :
    Idles (a >>= k) :=
  fun s => .bind (fun _ _ _ h h' => h'.trans h) (ha s) fun x t => hk x t

theorem acquireRaw_earns (c : Claim) : Earns (acquireRaw c) :=
  .before (gain_earns c) fun _ => .bind (disown_cellular c).idles fun _ => send_idles _

/-! ## Around what is acquired -/

theorem fail_fails (f : Failure) (s : State) : (fail f s : Act α).Fails :=
  trivial

theorem fails_after (a : Action α) {k : α → Action β} (hk : ∀ x s, (k x s).Fails) (s : State) :
    ((a >>= k) s).Fails :=
  .bind hk (a s)

theorem unwinding_earns {a : Action α} (ha : Earns a) : Earns (unwinding a) := by
  refine .after thread_idles fun t => .tried ha (fun r => ?_) fun f s => ?_
  · cases r with
    | ok => exact (Cellular.pure _).idles
    | error f =>
      exact (Cellular.lookThread (fun _ _ _ => rfl) fun _ => .bind (.forM (fun c =>
        cleanUp_cellular (release_cellular c)) _) fun _ => .fail f fun _ => trivial).idles
  · exact fails_after thread (fun _ => fails_after _ fun _ => fail_fails f) s

theorem conclude_earns {a : Action α} {b : Action Unit} (ha : Earns a) (hb : Cellular modest b) :
    Earns (attempt a >>= fun r => conclude r b) := by
  refine .tried ha (fun r => (conclude_cellular (fun _ _ _ => trivial) hb).idles) fun f s => ?_
  have hplain : ((b >>= fun _ => (ofExcept (.error f) : Action α)) s).Fails :=
    fails_after b (fun _ => fail_fails f) s
  cases f with
  | panic p => exact fails_after (cleanUp b) (fun _ => fail_fails _) s
  | _ => exact hplain

section Kept

variable {a : Action α} (ha : Earns a)

include ha

theorem flagging_earns (id : KeptId) (f g : Kept → Kept) : Earns (do
    setKept id f
    let result ← attempt (unwinding a)
    setKept id g
    ofExcept result) :=
  .after (setKept_cellular trivial id f).idles fun _ => .tried (unwinding_earns ha)
    (fun _ => (Cellular.bind (setKept_cellular trivial id g) fun _ =>
      .ofExcept fun _ _ _ => trivial).idles) fun _ _ => trivial

theorem looking_earns (id : KeptId) : Earns (looking id a) := by
  refine .after (kept_cellular trivial id).idles fun k => ?_
  split
  · exact .after (Cellular.fail _ fun _ => trivial).idles fun _ => flagging_earns ha id _ _
  · exact flagging_earns ha id _ _

theorem changing_earns (id : KeptId) : Earns (changing id a) := by
  refine .after (kept_cellular trivial id).idles fun k => ?_
  split
  · exact looking_earns ha id
  · dsimp only
    split
    · exact .after (Cellular.fail _ fun _ => trivial).idles fun _ => flagging_earns ha id _ _
    · exact flagging_earns ha id _ _

omit ha in
theorem withCell_earns (key : String) {a : KeptId → Cell → Action α} (ha : ∀ id c, Earns (a id c)) :
    Earns (withCell key a) :=
  .after (keptId_cellular key).idles fun id => .after (kept_cellular trivial id).idles fun k =>
    .after (setKept_cellular trivial id _).idles fun _ =>
    conclude_earns (unwinding_earns (ha id k.cell)) (leave_cellular trivial id)

theorem reading_earns (id : SlotId) : Earns (reading id a) := by
  have hset : ∀ f, Idles (setSharing id f) := fun _ _ => rfl
  exact .after (fun s => (lockForReading_still id s).stays fun _ => rfl) fun _ =>
    .after (hset _) fun _ => .tried ha (fun _ => .bind (hset _) fun _ =>
      (Cellular.ofExcept fun _ _ _ => trivial).idles) fun _ _ => trivial

theorem nativeCall_earns : Earns (nativeCall a) := by
  have hdepth : ∀ f : Nat → Nat,
      Idles (inThread fun t => { t with nativeDepth := f t.nativeDepth }) := fun _ _ => rfl
  exact .after (hdepth (· + 1)) fun _ => .tried ha (fun _ => .bind (hdepth (· - 1)) fun _ =>
    (Cellular.ofExcept fun _ _ _ => trivial).idles) fun _ _ => trivial

end Kept

/-! ## Operations -/

theorem keepClaim_idles (key : String) (o : ObjectId) : Idles (keepClaim key o) :=
  (keepClaim_cellular key o).idles

theorem performObject_earns {op : ObjectOp} (h : op.Acquires) : Earns (performObject op) := by
  cases op with
  | acquire o =>
    exact .after (requireKnown_cellular o).idles fun _ => .before (acquireRaw_earns _) fun _ => pure_idles _
  | claim o new key =>
    cases new with
    | true =>
      exact .after (requireKnown_cellular o).idles fun _ => .before (acquire_earns _) fun _ =>
        .bind (keepClaim_idles _ _) fun _ => pure_idles _
    | false => exact h.elim
  | duplicate key new =>
    exact .after (takeClaim_cellular key).idles fun o => .tried (acquire_earns _)
      (fun _ => .bind (keepClaim_idles _ _) fun _ => (Cellular.bind (.ofExcept fun _ _ _ => trivial)
        fun _ => .bind (keepClaim_cellular _ _) fun _ => .pure _).idles)
      fun _ => fails_after _ fun _ _ => trivial
  | _ => exact h.elim

theorem adoptBorrowed_earns (name : String) (o : ObjectId) : Earns (adoptBorrowed name o) :=
  .before (acquire_earns _) fun _ => (makeOwn_cellular _ _ _).idles

theorem make_earns {how : Making} (h : how.Acquires) : Earns (make how) := by
  cases how with
  | parameterBorrowed name o =>
    exact .after (requireKnown_cellular o).idles fun _ => adoptBorrowed_earns name o
  | parameterAdopt name o mode =>
    have heq : make (.parameterAdopt name o mode) = requireKnown o >>= fun _ => adoptBorrowed name o := by
      change decoded OwnershipMode.decoder (.value mode) >>= (fun m => requireKnown o >>= fun _ =>
        adoptArgument name o m) = _
      rw [decoded, show OwnershipMode.decoder.decode (.value mode) = .ok .borrowed from h]
      rfl
    rw [heq]
    exact .after (requireKnown_cellular o).idles fun _ => adoptBorrowed_earns name o
  | _ => exact h.elim

theorem acquireValue_earns (c : Cell) : Earns (acquireValue c) :=
  .after (slot_cellular _).idles fun v => .after (valueIn_cellular c v).idles fun _ =>
    .before (acquire_earns _) fun _ => pure_idles _

theorem readOwned_earns : ∀ c : Cell, Earns (readOwned c)
  | .own .. => acquireValue_earns _
  | .handle id _ => reading_earns (acquireValue_earns _) id

theorem assignBorrowed_earns (c : Cell) (o : ObjectId) : Earns (assignBorrowed c o) :=
  .after (slot_cellular _).idles fun _ => .before (acquire_earns _) fun _ =>
    (assign_cellular (modest_changes c) o).idles

theorem usePart_earns {bound : Bool} {verb : Verb} (h : verb.Acquires ∨ verb.ReadsOwned) (id : KeptId)
    (whole : Cell) : Earns (usePart bound verb id whole) := by
  cases verb with
  | readOwned new =>
    exact looking_earns (.before (readOwned_earns _) fun _ => .bind (keepClaim_idles _ _)
      fun _ => pure_idles _) id
  | assignBorrowed o =>
    exact changing_earns (.after (requireKnown_cellular o).idles fun _ =>
      .before (assignBorrowed_earns _ o) fun _ => pure_idles _) id
  | _ => exact h.elim False.elim False.elim

theorem someHandle_idles (h : Option String) : Idles (someHandle h) :=
  (someHandle_cellular h).idles

theorem callNative_earns {op : NativeOp} (h : op.Acquires ∨ op.ReadsOwned) :
    Earns (callNative op) := by
  cases op with
  | acquire o => exact .before (acquireRaw_earns _) fun _ => pure_idles _
  | readOwned handle =>
    exact .after (someHandle_idles handle) fun c => .before (readOwned_earns c) fun _ =>
      (Cellular.bind (disown_cellular _) fun _ => .pure _).idles
  | assignBorrowed handle o =>
    exact .after (someHandle_idles handle) fun c => .before (assignBorrowed_earns c o) fun _ => pure_idles _
  | _ => exact h.elim False.elim False.elim

theorem perform_earns {op : Op} (h : op.Gains) : Earns (perform op) := by
  cases op with
  | object op => exact performObject_earns (h.resolve_right id)
  | cell op =>
    cases op with
    | make key how =>
      show Earns (make how >>= fun c => keepCell key c none >>= fun _ => pure Answer.nothing)
      exact .before (make_earns (h.resolve_right id)) fun c =>
        .bind (keepCell_cellular trivial key c none).idles fun _ => pure_idles _
    | use key bound verb =>
      show Earns (withCell key fun id c => usePart bound verb id c)
      exact withCell_earns key fun id c => usePart_earns h id c
    | _ => exact h.elim False.elim False.elim
  | native op => exact nativeCall_earns (callNative_earns h)
  | _ => exact h.elim False.elim False.elim

end Action

/-- **Operations that may acquire a claim** acquire one, or fail and acquire one at most. -/
theorem course_earns (h : op.Gains) (s : State) : (op.course s).Grows State.gained
    (fun r k => k = 1 ∨ k = 0 ∧ ∃ f, r = .error f) 0 s :=
  Action.unwinding_earns (Action.perform_earns h) 0 s

/-- **All others** acquire none. -/
theorem course_idles (h : ¬ op.Gains) (s : State) :
    (op.course s).Grows State.gained (fun _ k => k = 0) 0 s := by
  have hst := course_strides op s
  rw [eq_false h] at hst
  exact .of_stays (hst.imp Strode.gained)

end ClaimCells
