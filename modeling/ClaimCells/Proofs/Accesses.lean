import ClaimCells.Proofs.Books
import ClaimCells.Proofs.Failures
import ClaimCells.Proofs.Prompt

/-!
# Variables without value

An operation that needs the value of a variable and finds none says so in its reply, and counts it
once, for the kind of the variable. Whatever else is done counts no such access: neither what
succeeds nor what fails for another reason, neither what only looks nor what assigns.

Main result: `misses_counted`.
-/

namespace ClaimCells

open Act (Outcome Grows)

variable {α β : Type} {s s' t : State} {f : Failure} {op : Op} {p : Op → Prop} {c : Call}

/-! ## Calls within a run -/

theorem Later.trans {u : State} (h : Later p s t) (h' : Later p t u) : Later p s u := by
  induction h' with
  | refl => exact h
  | ended _ ho he ih => exact ih.ended ho he
  | answered r _ ih => exact ih.answered r
  | signalled _ ho hop hg ih => exact ih.signalled ho hop hg
  | hooked g _ ih => exact ih.hooked g
  | threaded _ ih => exact ih.threaded
  | switched _ hp ih => exact ih.switched hp

/-- The call is one of its operation, from one state to another. -/
structure Call.Ran (c : Call) (t t' : State) (n : Nat) : Prop where
  op : ∀ body, c.op ≠ .thread body
  settle : (c.op.course t).settle (react (step n)) = .ended c.reply t'
  stretches : c.stretches = (c.op.course t).stretches (react (step n)) t

/-- Whatever no move breaks lasts from one state to the other. -/
def Lasts (s t : State) : Prop :=
  ∀ P, Stable P → P s → P t

/-- The call begins after one state, and ends before another. -/
def Call.Within (p : Op → Prop) (s s' : State) (c : Call) : Prop :=
  ∃ t t' n, Later p s t ∧ Lasts s t ∧ c.op.Only p ∧ c.Ran t t' n ∧ Lasts t' s'

theorem Call.Within.widen {u u' : State} (h : c.Within p s s') (hl : Later p u s) (hb : Lasts u s)
    (he : Lasts s' u') : c.Within p u u' := by
  obtain ⟨t, t', n, hlater, hbegins, hop, hran, hends⟩ := h
  exact ⟨t, t', n, hl.trans hlater, fun P hP hp => hbegins P hP (hb P hP hp), hop, hran,
    fun P hP hp => he P hP (hends P hP hp)⟩

/-- Calls of operations of the class are within them. -/
def CallsWithin (p : Op → Prop) (step : Op → State → Outcome Answer) (calls : Op → State → List Call) :
    Prop :=
  ∀ op s r s', Sound [] s → s.Schooled p → op.Only p → step op s = .ended r s' →
    ∀ c ∈ calls op s, c.Within p s s'

section Within

variable {n : Nat} {body : Script} {g : Signal}

/-- All scripts that wait later are of the class as well. -/
theorem Later.schooled (h : Later p s t) (hs : Sound [] s) (hsc : s.Schooled p) : t.Schooled p := by
  have hkeeps {α : Type} (x : Act α) : x.Keeps fun _ => True := by
    induction x with
    | send g t next ih => exact ⟨trivial, fun t' _ _ _ => ih t'⟩
    | _ => trivial
  have htrue : Upheld p fun _ => True :=
    ⟨fun _ _ _ _ => hkeeps _, fun _ _ => trivial, fun _ _ => trivial, fun _ => trivial, fun _ _ => trivial,
      fun _ _ => trivial⟩
  exact (h.upheld htrue hs trivial hsc).2

theorem scriptCalls_within (h : CallsWithin p (step n) (calls n)) (hs : Sound [] s)
    (hsc : s.Schooled p) (hop : body.Only p) (he : runNested (step n) body s = .ok s') :
    ∀ c ∈ scriptCalls (step n) (calls n) body s, c.Within p s s' := by
  induction body generalizing s with
  | nil => exact List.forall_mem_nil _
  | cons op ops ih =>
    intro c hc
    rw [runNested] at he
    split at he
    · next r t ht =>
      rw [scriptCalls, ht] at hc
      have ha := answered_aside r t
      have hst := (step_lawful n op s r t hs ht).2
      have hlater : Later p s (t.note (.answered r)) := (Later.refl.ended hop.1 ht).answered r
      rcases List.mem_append.1 hc with hc | hc
      · refine (h op s r t hs hsc hop.1 ht c hc).widen .refl (fun _ _ hp => hp) fun P hP hp => ?_
        exact runNested_respects (step_lawful n) hP (step_respects hP n) ops ((Move.aside ha).sound hst)
          (ha.stable hP hst hp) he
      · refine (ih ((Move.aside ha).sound hst) (hlater.schooled hs hsc) hop.2 he c hc).widen hlater
          (fun P hP hp => ?_) fun _ _ hp => hp
        exact ha.stable hP hst (step_respects hP n op s r t hs hp ht)
    · cases he

theorem signalCalls_within (h : CallsWithin p (step n) (calls n)) (hs : Sound [] s)
    (hsc : s.Schooled p) (he : react (step n) g s = .ok s') :
    ∀ c ∈ signalCalls (step n) (calls n) g s, c.Within p s s' := by
  intro c hc
  rw [signalCalls] at hc
  rw [react] at he
  split at hc
  · next body hb =>
    rw [hb] at he
    have hlater : Later p s ((s.eraseHook g).note (.hook g)) := Later.refl.hooked g
    exact (scriptCalls_within h ((Move.aside (hook_aside g s)).sound hs) (hlater.schooled hs hsc)
      (hsc.hook hb) he c hc).widen hlater (fun _ hP hp => (hook_aside g s).stable hP hs hp) fun _ _ hp => hp
  · cases hc

/-- Calls within a course, which an operation takes from an earlier state. -/
theorem courseCalls_within (h : CallsWithin p (step n) (calls n)) (ho : op.Only p)
    (hop : ∀ body, op ≠ .thread body) {x : Act α} {res : Except Failure α} {Q : Post α} {ds : List Deed}
    {l : List Cell} {u : State} (hu : Sound [] u) (hsc : u.Schooled p)
    (hsends : ∀ g t, x.Sends (react (step n)) g t → (op.course u).Sends (react (step n)) g t)
    (hs : Sound l s) (hx : x.Does Q ds l s) (he : x.settle (react (step n)) = .ended res s') :
    ∀ c ∈ x.within (react (step n)) (signalCalls (step n) (calls n)), c.Within p u s' := by
  have hl := react_lawful (step_lawful n)
  induction x generalizing ds l s with
  | done | fail | halt => exact fun _ hc => nomatch hc
  | send g t next ih =>
    intro c hc
    obtain ⟨ds', m, hn⟩ := hx
    rw [Act.settle] at he
    split at he
    · next t' ht' =>
      have ht := m.sound hs
      obtain ⟨hcame, hs'⟩ := hl g t t' ht ht'
      rw [Act.within, ht'] at hc
      rcases List.mem_append.1 hc with hc | hc
      · have hlater : Later p u t := Later.refl.signalled ho hop (hsends g t (.now g t next))
        refine (signalCalls_within h (hlater.sound hu) (hlater.schooled hu hsc) ht' c hc).widen hlater
          (fun P hP hp => ?_) fun P hP hp => ?_
        · exact ((Action.performing_does op hu).sends hl hP (react_respects (step_lawful n) hP
            (step_respects hP n)) hu hp (hsends g t (.now g t next))).2
        exact (hn t' hcame hs').stable hl hP (react_respects (step_lawful n) hP (step_respects hP n)) hs' hp he
      · exact ih t' (fun g' t'' hg => hsends g' t'' (.later ht' hg)) hs' (hn t' hcame hs') he c hc
    · cases he

/-- **Every call of a run is one of an operation, taken in a state of the run.** -/
theorem calls_within (n : Nat) : CallsWithin p (step n) (calls n) := by
  induction n with
  | zero => intro op s r s' _ _ _ he; cases he
  | succ n ih =>
    intro op s r s' hs hsc ho he c hc
    by_cases hop : ∃ body, op = .thread body
    · obtain ⟨body, rfl⟩ := hop
      have hrun := (step_thread he).2
      rw [runThread] at hrun
      cases ht : runNested (step n) body s.startThread with
      | error e => rw [ht] at hrun; cases hrun
      | ok t =>
        rw [ht] at hrun
        cases hrun
        obtain ⟨hcame, ht'⟩ := runNested_lawful (step_lawful n) body hs.startThread ht
        exact (scriptCalls_within ih hs.startThread hsc.startThread ho ht c hc).widen
          Later.refl.threaded (fun _ hP hp => hP.startThread hp) fun _ hP hp =>
            hP.endThread ht' hcame.waiting hp
    · have hop : ∀ body, op ≠ .thread body := fun body hb => hop ⟨body, hb⟩
      rw [step_perform hop] at he
      rw [calls_course hop he] at hc
      rcases List.mem_cons.1 hc with rfl | hc
      · exact ⟨s, s', n, .refl, fun _ _ hp => hp, ho, ⟨hop, he, rfl⟩, fun _ _ hp => hp⟩
      · exact courseCalls_within ih ho hop hs hsc (fun _ _ h => h) hs (Action.performing_does op hs) he c hc

end Within

/-! ## What replies tell -/

/-- The failure says that a variable had no value. -/
def Failure.lacks : Failure → Bool
  | .cell (.unbound ..) | .panic (.invariant .temporaryTake) => true
  | _ => false

theorem Failure.early_of_lacks (h : f.lacks = true) : f.Early := by
  cases f with
  | cell => trivial
  | panic p =>
    cases p with
    | invariant i => cases i <;> first | rfl | cases h
    | _ => cases h
  | _ => cases h

/-- Null, or false. -/
def Answer.isNull : Answer → Bool
  | .pointer none | .flag false => true
  | _ => false

namespace Op

/-- The answer says that a variable had no value, as calls from native code may do. -/
def declines : Op → Answer → Bool
  | .native (.read _), x | .native (.clear _), x => x.isNull
  | _, _ => false

/-- The reply says that a variable had no value. -/
def lacks (op : Op) : Reply → Bool
  | .ok x => op.declines x
  | .error f => f.lacks

/-- The kind of the variable that the operation needs a value in. -/
def kind? (op : Op) (s : State) : Option CellKind :=
  (op.sought s).bind fun c => (s.slots.get? c.slot).map Slot.kind

/-- The operation needs a value in a variable of the kind, and says that there is none. -/
def misses (op : Op) (s : State) (k : CellKind) (r : Reply) : Bool :=
  op.lacks r && op.kind? s = some k

/-- The variable was found without value, and a panic says so just if it is a temporary. -/
def Found (op : Op) (s : State) (r : Reply) : Prop :=
  ∀ c, op.sought s = some c → op.lacks r = true → ∃ v, s.slots.get? c.slot = some v ∧ v.value = none ∧
    (r = .error (.panic (.invariant .temporaryTake)) ↔ ∃ id, c = .own .temporary id)

end Op

/-! ## What is counted -/

/-- How often variables of the kind were found without value. -/
def missesOf (k : CellKind) (s : State) : Nat :=
  s.misses k

theorem missesOf_same {k : CellKind} (h : t.misses = s.misses) : missesOf k t = missesOf k s :=
  congrFun h k

section Growing

variable {k : CellKind} {n : Int} {x : Act α} {c? : Option Cell} {m : State → Nat}

theorem Act.Late.grows (h : x.Late s) :
    x.Grows (missesOf k) (fun r j => j = n ∧ ∀ f, r = .error f → ¬ f.Early) n s := by
  induction x generalizing n s with
  | done a t =>
    refine ⟨?_, nofun⟩
    rw [missesOf_same h]
    omega
  | fail f t =>
    refine ⟨?_, fun f' hf' => ?_⟩
    · rw [missesOf_same h.2]
      omega
    · cases hf'
      exact h.1
  | halt => trivial
  | send g t next ih =>
    intro t'
    rw [missesOf_same h.1, Int.sub_self, Int.add_zero]
    exact ih t' (h.2 t')

/-- Either nothing is counted, and the failure is no early one, or it leaves what early ones do. -/
def Spared (c? : Option Cell) (s : State) (k : CellKind) (n : Int) (r : Except Failure α) (j : Int) : Prop :=
  (j = n ∧ ∀ f, r = .error f → ¬ f.Early) ∨
    ∃ f t, r = .error f ∧ f.Leaves c? s t ∧ j = n + ((missesOf k t : Int) - missesOf k s)

theorem Act.Spares.grows (h : x.Spares c? s) : x.Grows (missesOf k) (Spared c? s k n) n s := by
  cases x with
  | done a t =>
    refine .inl ⟨?_, nofun⟩
    rw [missesOf_same h]
    omega
  | fail f t =>
    by_cases he : f.Early
    · exact .inr ⟨f, t, rfl, h.1 he, rfl⟩
    · exact (Act.Late.grows (x := .fail f t) ⟨he, h.2 he⟩).imp fun _ _ => .inl
  | halt => trivial
  | send g t next => exact (Act.Late.grows (x := .send g t next) h).imp fun _ _ => .inl

/-- The course fails nowhere. -/
def Act.Sure : Act α → Prop
  | done .. | halt .. => True
  | fail .. => False
  | send _ _ next => ∀ t, Sure (next t)

theorem Act.Sure.bind {f : α → State → Act β} (h : x.Sure) (hf : ∀ a t, (f a t).Sure) : (x.bind f).Sure := by
  induction x with
  | done a t => exact hf a t
  | fail => exact h.elim
  | halt => trivial
  | send g t next ih => exact fun t' => ih t' (h t')

theorem Act.Sure.tried {f : Except Failure α → State → Act β} (hf : ∀ r t, (f r t).Sure) (x : Act α) :
    (x.attempt.bind f).Sure := by
  induction x with
  | done | fail => exact hf _ _
  | halt => trivial
  | send g t next ih => exact fun t' => ih t'

theorem Act.Sure.grows {P : Except Failure α → Int → Prop} (h : x.Sure) (hg : x.Grows m P n s) :
    x.Grows m (fun r j => P r j ∧ ∃ a, r = .ok a) n s := by
  induction x generalizing n s with
  | done a t => exact ⟨hg, a, rfl⟩
  | fail => exact h.elim
  | halt => trivial
  | send g t next ih => exact fun t' => ih t' (h t') (hg t')

end Growing

/-- The reply tells whether an access was counted, and is right about it. -/
structure Op.Tells (op : Op) (s : State) (k : CellKind) (r : Reply) (n : Int) : Prop where
  counted : n = (op.misses s k r).toNat
  found : op.Found s r

section Tells

variable {k : CellKind} {r : Reply}

theorem Op.Tells.of_lacks (h : op.lacks r = false) : op.Tells s k r 0 where
  counted := by
    rw [Op.misses, h]
    rfl
  found c _ hl := by
    rw [h] at hl
    cases hl

/-- What an early failure leaves is what its reply tells. -/
theorem Failure.Leaves.tells (h : f.Leaves (op.sought s) s t) (hl : op.lacks r = f.lacks)
    (hr : r = .error (.panic (.invariant .temporaryTake)) ↔ f = .panic (.invariant .temporaryTake))
    (hon : s.profiler.enabled = true) : op.Tells s k r ((missesOf k t : Int) - missesOf k s) := by
  have hcount {c : Cell} {v : Slot} {q : Profiler} (hc : op.sought s = some c)
      (hv : s.slots.get? c.slot = some v) (hp : s.profiler.record v.kind .unboundAccess = some q)
      (hlacks : op.lacks r = true) (hq : t.profiler = q) :
      (missesOf k t : Int) - missesOf k s = (op.misses s k r).toNat := by
    have hone := (Profiler.record_counts hp hon).2 k .unboundAccess
    have hkind : op.kind? s = some v.kind := by
      rw [Op.kind?, hc, Option.bind_some, hv]
      rfl
    rw [List.count_singleton, ← hq] at hone
    change missesOf k t = missesOf k s + _ at hone
    rw [hone, Op.misses, hlacks, hkind]
    by_cases hk : v.kind = k <;> simp [hk]
  cases h with
  | @unbound c v q hc hown hv hnone hp =>
    refine ⟨hcount hc hv hp hl rfl, fun c' hc' _ => ⟨v, ?_, hnone, ?_⟩⟩
    · cases hc.symm.trans hc'
      exact hv
    · cases hc.symm.trans hc'
      rw [hr]
      exact ⟨nofun, fun ⟨id, hid⟩ => absurd hid (hown id)⟩
  | @unassigned id v q hc hv hnone hp written =>
    refine ⟨hcount hc hv hp hl rfl, fun c' hc' _ => ⟨v, ?_, hnone, ?_⟩⟩
    · cases hc.symm.trans hc'
      exact hv
    · cases hc.symm.trans hc'
      rw [hr]
      exact ⟨fun _ => ⟨id, rfl⟩, fun _ => rfl⟩
  | produced | refused =>
    change op.Tells s k r ((missesOf k s : Int) - missesOf k s)
    rw [Int.sub_self]
    exact .of_lacks hl

end Tells

namespace Action

open Act (Sure)

variable {k : CellKind} {n : Int} {m : State → Nat}

/-- What is given up after a failure is no variable that was needed. -/
theorem unwinding_grows {a : Action α} {P : Except Failure α → Int → Prop}
    (h : (a s).Grows (missesOf k) P n s) : (unwinding a s).Grows (missesOf k) P n s := by
  have hclean (l : List Claim) : Action.Late (l.forM fun c => cleanUp (release c)) :=
    .forM (fun _ => .cleanUp (.release _)) l
  have hsure (l : List Claim) (t : State) : (l.forM (fun c => cleanUp (release c)) t).Sure := by
    induction l generalizing t with
    | nil => trivial
    | cons c l ih =>
      refine Act.Sure.bind (Act.Sure.tried (fun r u => ?_) _) fun _ u => ih u
      cases r <;> trivial
  refine Grows.tried h fun r j t hr => ?_
  cases r with
  | ok a =>
    show P (.ok a) (j + ((missesOf k t : Int) - missesOf k t))
    rw [Int.sub_self, Int.add_zero]
    exact hr
  | error f =>
    refine ((hsure _ t).grows (hclean _ t).grows).bind (fun _ j' u hj => ?_) fun f' j' hf' => ?_
    · show P (.error f) (j' + ((missesOf k u : Int) - missesOf k u))
      rw [Int.sub_self, Int.add_zero, hj.1.1]
      exact hr
    · obtain ⟨-, x, hx⟩ := hf'
      cases hx

/-! ## Native code -/

theorem nativeCall_grows {a : Action α} {P : Except Failure α → Int → Prop}
    (h : (a s.calling).Grows (missesOf k) P n s.calling) : (nativeCall a s).Grows (missesOf k) P n s := by
  rw [nativeCall_apply]
  refine Grows.after (t := s.calling) ?_
  rw [show (missesOf k s.calling : Int) - missesOf k s = 0 from Int.sub_self _, Int.add_zero]
  refine Grows.tried h fun r j t hr => ?_
  cases r with
  | ok | error =>
    show P _ (j + ((missesOf k t : Int) - missesOf k t))
    rw [Int.sub_self, Int.add_zero]
    exact hr

/-- A call that leaves an error to its thread says so in its answer. -/
theorem orLastError_grows {a : Action β} {g : Option β → Answer} {P : Reply → Int → Prop} {c : Cell}
    (ha : (a s).Spares (some c) s) (hok : ∀ x, P (.ok (g (some x))) n)
    (hlate : ∀ f, ¬ f.Early → P (.error f) n)
    (hlost : ∀ e t, (Failure.cell e).Leaves (some c) s t →
      P (.ok (g none)) (n + ((missesOf k t : Int) - missesOf k s)))
    (hearly : ∀ f t, f.Leaves (some c) s t → P (.error f) (n + ((missesOf k t : Int) - missesOf k s))) :
    ((orLastError a >>= fun x => pure (g x)) s).Grows (missesOf k) P n s := by
  have hstay (r : Reply) (j : Int) (u : State) (h : P r j) :
      P r (j + ((missesOf k u : Int) - missesOf k u)) := by
    rwa [Int.sub_self, Int.add_zero]
  show (((orLastError a s).bind _ : Act Answer)).Grows _ _ _ _
  refine Grows.bind (P := fun r j => match r with
    | .ok x => P (.ok (g x)) j
    | .error f => P (.error f) j) ?_ (fun x j t hx => hstay _ j t hx) fun f j hf => hf
  refine Grows.tried (ha.grows (n := n)) fun r j t hr => ?_
  cases r with
  | ok x =>
    obtain ⟨rfl, -⟩ | ⟨f, u, hf, -⟩ := hr
    · exact hstay _ _ t (hok x)
    · cases hf
  | error f =>
    have hsame : ∀ f, P (.error f) j → (Action.fail f t : Act (Option β)).Grows (missesOf k) (fun r j =>
        match r with
        | .ok x => P (.ok (g x)) j
        | .error f => P (.error f) j) j t := fun f hf => hstay _ j t hf
    obtain ⟨rfl, hf⟩ | ⟨f', u, hf', hleaves, rfl⟩ := hr
    · have hf := hf f rfl
      cases f with
      | cell => exact absurd trivial hf
      | _ => exact hsame _ (hlate _ hf)
    · cases hf'
      cases f with
      | cell e => exact hstay _ _ t (hlost e u hleaves)
      | _ => exact hsame _ (hearly _ u hleaves)

/-- A call that looks up the cell behind a handle that must not be null. -/
theorem handleOrNull_grows {h : Option String} {b : Cell → Action α} {P : Except Failure α → Int → Prop}
    (hlate : ∀ f, ¬ f.Early → P (.error f) n)
    (hb : ∀ c, s.behind h = some c → (b c s).Grows (missesOf k) P n s) :
    ((handleOrNull h >>= b) s).Grows (missesOf k) P n s := by
  have hfail {f : Failure} {u : State} (hf : ¬ f.Early) (hu : missesOf k u = missesOf k s) :
      (Act.fail f u : Act α).Grows (missesOf k) P n s := by
    show P _ (n + ((missesOf k u : Int) - missesOf k s))
    rw [hu, Int.sub_self, Int.add_zero]
    exact hlate f hf
  cases h with
  | none =>
    rw [handleOrNull, violate_seq, violate, bind_apply, emit_apply, done_bind]
    obtain h | ⟨x, h⟩ := raise_eq α (.invariant .nullHandle) (s.emit (.violated .nullHandle))
    · rw [h]
      exact hfail (fun h => by cases h) rfl
    · rw [h]
      trivial
  | some key =>
    rw [handleOrNull, bind_apply]
    rcases handle_cases key s with ⟨i, c, hi, he⟩ | he
    · rw [he, done_bind]
      refine hb c ?_
      rw [State.behind, Option.bind_some, hi.1, Option.bind_some, hi.2]
    · rw [he, fail_bind]
      exact hfail (fun h => h) rfl

end Action

theorem Failure.lacks_of_late (h : ¬ f.Early) : f.lacks = false := by
  cases hl : f.lacks with
  | false => rfl
  | true => exact absurd (early_of_lacks hl) h

/-- A call that leaves the error of an access to its thread. -/
theorem declining_tells {k : CellKind} {op : NativeOp} {h : Option String} {a : Cell → Action β}
    {g : Option β → Answer}
    (hdef : Action.callNative op = Action.handleOrNull h >>= fun c => Action.orLastError (a c) >>= fun x => pure (g x))
    (hsought : (Op.native op).sought s = s.behind h) (ha : ∀ c, Action.Spares (some c) (a c))
    (hnone : (Op.native op).declines (g none) = true)
    (hsome : ∀ x, (Op.native op).declines (g (some x)) = false) (hon : s.profiler.enabled = true) :
    ((Op.native op).course s).Grows (missesOf k) ((Op.native op).Tells s k) 0 s := by
  have hlate (f : Failure) (hf : ¬ f.Early) : (Op.native op).Tells s k (.error f) 0 :=
    .of_lacks (f.lacks_of_late hf)
  have hleaves {c : Cell} (hc : s.behind h = some c) {f : Failure} {t : State} (hf : f.Leaves (some c) s.calling t) :
      f.Leaves ((Op.native op).sought s) s t.returned := by
    rw [hsought, hc]
    exact hf.returned
  refine Action.unwinding_grows (Action.nativeCall_grows ?_)
  rw [hdef]
  refine Action.handleOrNull_grows hlate fun c hc => ?_
  refine Action.orLastError_grows (ha c _) (fun x => .of_lacks (hsome x)) hlate (fun e t he => ?_)
    fun f t hf => ?_
  · rw [Int.zero_add]
    refine (hleaves hc he).tells (hnone.trans ?_) (by simp) hon
    cases he <;> first | rfl | contradiction
  · rw [Int.zero_add]
    exact (hleaves hc hf).tells rfl (by simp) hon

/-- **Operations tell in their replies** of the accesses that they count, and of no others. -/
theorem course_tells {k : CellKind} (ho : op.LeavesCounters) (hop : ∀ body, op ≠ .thread body)
    (hs : Sound [] s) (hon : s.profiler.enabled = true) :
    (op.course s).Grows (missesOf k) (op.Tells s k) 0 s := by
  have hcells (hcell : op.OnCells) : (op.course s).Grows (missesOf k) (op.Tells s k) 0 s := by
    refine (course_spares hcell s).grows.imp fun r j hr => ?_
    obtain ⟨rfl, hlate⟩ | ⟨f, t, rfl, hleaves, rfl⟩ := hr
    · refine .of_lacks ?_
      cases r with
      | error f => exact f.lacks_of_late (hlate f rfl)
      | ok x =>
        cases op with
        | object | cell => rfl
        | native op =>
          cases op with
          | read | clear => exact hcell.elim
          | _ => rfl
        | _ => exact hcell.elim
    · rw [Int.zero_add]
      exact hleaves.tells rfl (by simp) hon
  have hsilent (hnone : op.sought s = none) {x : Act Answer} (hx : x.Grows (missesOf k) (fun _ j => j = 0) 0 s) :
      x.Grows (missesOf k) (op.Tells s k) 0 s := by
    refine hx.imp fun r j hj => ⟨?_, fun c hc => ?_⟩
    · rw [hj, Op.misses, Op.kind?, hnone]
      simp
    · rw [hnone] at hc
      cases hc
  have hrests (hnone : op.sought s = none) (hx : (op.course s).Comes (Rests fun t => missesOf k t = missesOf k s) s) :
      (op.course s).Grows (missesOf k) (op.Tells s k) 0 s := by
    refine hsilent hnone ?_
    cases hc : op.course s with
    | done x t | fail f t =>
      rw [hc] at hx
      show (0 : Int) + ((missesOf k t : Int) - missesOf k s) = 0
      rw [(hx.lasts hs rfl).2, Int.sub_self, Int.add_zero]
    | halt => trivial
    | send g t next =>
      rw [hc] at hx
      exact hx.elim
  have hswitched : Switched fun t => missesOf k t = missesOf k s :=
    { aside := fun ha h => by
        rw [← h, missesOf, State.misses, ha.profiler]
        rfl
      tune := fun hp h => by
        rw [← h, missesOf, State.misses, Profiler.counter, Profiler.kindStats]
        show _ = ((Profiler.kindStats _ k).count _).toNat
        rw [Profiler.kindStats, ← hp]
        rfl }
  have hcounts (h : op.Counts ∨ op.SetsUp) (hnone : op.sought s = none) :=
    hrests hnone (course_rests hswitched ho h s)
  cases op with
  | object | cell => exact hcells trivial
  | settings | manager | process => exact hcounts (.inr trivial) rfl
  | stats | profiler => exact hcounts (.inl trivial) rfl
  | hook g body =>
    exact hrests rfl (Action.unwinding_rests (Action.Plain.rests hswitched (Action.hook_plain g body) s))
  | thread body => exact absurd rfl (hop body)
  | dump =>
    have hlate : Action.Late Action.dump := .thread fun _ => .bind (.mapM (fun k => .bind (.kept _) fun _ =>
      .bind (.viewCell _) fun _ => .pure _) _) fun _ => .pure _
    exact hsilent rfl ((hlate.unwinding s).grows.imp fun _ _ h => h.1)
  | native op =>
    cases op with
    | install => exact hcounts (.inr trivial) rfl
    | read h =>
      exact declining_tells (g := Answer.pointer) rfl rfl Action.Spares.read rfl (fun _ => rfl) hon
    | clear h =>
      exact declining_tells (g := fun x => Answer.flag x.isSome) rfl rfl Action.Spares.clear rfl
        (fun _ => rfl) hon
    | _ => exact hcells trivial

/-! ## Temporaries -/

/-- A cell that a value is needed in is a temporary just when its slot is one. -/
theorem sought_temporary {c : Cell} {v : Slot} (hs : Sound [] s) (ho : s.Orderly)
    (hc : op.sought s = some c) (hv : s.slots.get? c.slot = some v) :
    (∃ id, c = .own .temporary id) ↔ v.kind = .temp := by
  have hshared {id : SlotId} {a : Access} (hc : c = .handle id a)
      (hstands : ∃ v, (Cell.handle id a).Stands s v) : v.kind = .shared := by
    subst hc
    obtain ⟨_, hstands⟩ := hstands
    obtain ⟨sh, hsh⟩ := hstands.shared id a rfl
    have hcount := ho.counted id
    rw [State.refcount, hsh] at hcount
    refine ho.deeds.kind_of_shared (ho.deeds.shared_of_handles ?_) ((ho.told id).symm.trans hv)
    rw [← hcount]
    exact Nat.one_le_iff_ne_zero.2 (hs.shared id sh hsh).1
  have hhandle {id : SlotId} {a : Access} (hc : c = .handle id a)
      (hstands : ∃ v, (Cell.handle id a).Stands s v) : (∃ id, c = .own .temporary id) ↔ v.kind = .temp := by
    rw [hshared hc hstands, hc]
    simp
  have hbehind {h : Option String} (hc : s.behind h = some c) :
      (∃ id, c = .own .temporary id) ↔ v.kind = .temp := by
    obtain ⟨key, rfl, h⟩ := Option.bind_eq_some_iff.1 hc
    obtain ⟨i, -, hi⟩ := Option.bind_eq_some_iff.1 h
    obtain ⟨v', hv', -⟩ := hs.stands_of_handle hi
    obtain ⟨id, a, rfl⟩ := (hs.native i c hi).handle
    exact hhandle rfl ⟨v', hv'⟩
  cases op with
  | cell op =>
    cases op with
    | use key bound verb =>
      obtain ⟨-, hc⟩ := Option.ite_none_right_eq_some.1 hc
      obtain ⟨whole, hwhole, rfl⟩ := Option.map_eq_some_iff.1 hc
      obtain ⟨e, he, rfl⟩ := Option.map_eq_some_iff.1 hwhole
      obtain ⟨k, -, hk⟩ := Option.bind_eq_some_iff.1 he
      obtain ⟨v', hv', -⟩ := hs.stands_of_kept hk
      rw [Cell.slot_via] at hv
      have hfits := hs.thread.fits k e v hk hv
      cases hcell : e.cell with
      | own form id =>
        rw [hcell] at hfits
        have hvia : (Cell.own form id).via bound = .own form id := by cases bound <;> rfl
        rw [hvia, ← hfits.temporary form id rfl]
        constructor
        · rintro ⟨_, h⟩
          cases h
          rfl
        · intro h
          exact ⟨id, by rw [h]⟩
      | handle id a =>
        have hvia : ∃ a', (Cell.handle id a).via bound = .handle id a' := by cases bound <;> exact ⟨_, rfl⟩
        obtain ⟨a', hvia⟩ := hvia
        rw [hcell] at hv'
        rw [← hcell]
        exact hhandle (by rw [hcell, hvia]) ⟨v', hvia ▸ hv'.via bound⟩
    | _ => cases hc
  | native op =>
    cases op with
    | read | clear | readOwned | take => exact hbehind hc
    | _ => cases hc
  | _ => cases hc

/-! ## Runs -/

namespace Call

/-- The state in which the call begins. -/
def begins (c : Call) : Option State :=
  c.stretches.head?.map Prod.fst

/-- The cell that the call needs a value in. -/
def sought (c : Call) : Option Cell :=
  c.begins.bind c.op.sought

/-- The call needs a value in a variable of the kind, and says that there is none. -/
def misses (k : CellKind) (c : Call) : Bool :=
  c.begins.any fun s => c.op.misses s k c.reply

theorem Ran.begins {n : Nat} (h : c.Ran t s' n) : c.begins = some t := by
  rw [Call.begins, h.stretches]
  cases c.op.course t with
  | send g u next =>
    rw [Act.stretches]
    rfl
  | _ => rfl

theorem Ran.lasts {n : Nat} (h : c.Ran t s' n) (ht : Sound [] t) : Lasts t s' :=
  fun _ hP hp => (Action.performing_does c.op ht).stable (react_lawful (step_lawful n)) hP
    (react_respects (step_lawful n) hP (step_respects hP n)) ht hp h.settle

theorem Ran.growthOf {n : Nat} {P : Reply → Int → Prop} {m : State → Nat} (h : c.Ran t s' n)
    (hg : (c.op.course t).Grows m P 0 t) : P c.reply (c.growthOf m) := by
  have hsettled := hg.settle h.settle
  rwa [Int.zero_add, ← h.stretches] at hsettled

end Call

theorem missesOf_measure (k : CellKind) : State.Measure (missesOf k) where
  answered _ _ := rfl
  hooked g s := by
    unfold State.eraseHook
    split <;> rfl
  threaded _ := rfl
  ended _ _ := rfl

/-- What was written up to a state stays written. -/
theorem Stable.written (j : Journal) : Stable fun s => ∃ es, s.journal = es ++ j where
  move := by
    rintro l s ds l' s' - hm ⟨es, hes⟩
    obtain ⟨es', hes'⟩ := hm.journal
    exact ⟨es' ++ es, by rw [hes', hes, List.append_assoc]⟩
  startThread h := h
  endThread _ _ h := h

/-- **Every access to a variable without value is counted once**, and nothing else is, in every run in
which the counters are left to the cells and never switched off. -/
theorem misses_counted {body : Script} {build : Build} {environment : Table String Text.Utf8.Bytes}
    {file : FileContent} {n : Nat}
    (hrun : runNested (step n) body (.start build true environment file) = .ok s)
    (hop : body.Only Op.LeavesCounters) (hlit : s.journal.Lit) :
    let done := body.calls n (.start build true environment file)
    (∀ k, s.misses k = done.countP (Call.misses k)) ∧
    ∀ c ∈ done, (∀ k, c.growthOf (missesOf k) = (c.misses k).toNat) ∧
      (c.sought.isSome → c.op.lacks c.reply = true → ∃ k, c.misses k = true ∧
        (k = .temp ↔ c.reply = .error (.panic (.invariant .temporaryTake)))) := by
  intro done
  let start := State.start build true environment file
  have hsound : Sound [] start := .start _ _ _ _
  have hschooled : start.Schooled Op.LeavesCounters := .start _ _ _ _
  have htallied : start.Tallied := ⟨fun _ => rfl, fun _ _ k e _ => by cases k <;> cases e <;> rfl⟩
  have hcalls : ∀ c ∈ done, (∀ k, c.growthOf (missesOf k) = (c.misses k).toNat) ∧
      (c.sought.isSome → c.op.lacks c.reply = true → ∃ k, c.misses k = true ∧
        (k = .temp ↔ c.reply = .error (.panic (.invariant .temporaryTake)))) := by
    intro c hc
    obtain ⟨t, t', m, hlater, hbegins, honly, hran, hends⟩ :=
      scriptCalls_within (calls_within n) hsound hschooled hop hrun c hc
    have ht := hlater.sound hsound
    have hon : t.profiler.enabled = true := by
      refine (hlater.upheld tallied_upheld hsound htallied hschooled).1.enabled ?_
      obtain ⟨es, hes⟩ := hends _ (.written t.journal) (hran.lasts ht _ (.written _) ⟨[], rfl⟩)
      rw [hes] at hlit
      exact hlit.append.2
    have htells (k : CellKind) : c.op.Tells t k c.reply (c.growthOf (missesOf k)) :=
      hran.growthOf (course_tells honly.leavesCounters hran.op ht hon)
    have hmisses (k : CellKind) : c.misses k = c.op.misses t k c.reply := by
      rw [Call.misses, hran.begins]
      rfl
    refine ⟨fun k => (htells k).counted.trans (by rw [hmisses]), fun hsought hlacks => ?_⟩
    rw [Call.sought, hran.begins] at hsought
    obtain ⟨cell, hcell⟩ := Option.isSome_iff_exists.1 hsought
    obtain ⟨v, hv, -, hreply⟩ := (htells .plain).found cell hcell hlacks
    have horderly : t.Orderly := hbegins _ .orderly (.start _ _ _ _)
    refine ⟨v.kind, ?_, ?_⟩
    · rw [hmisses, Op.misses, hlacks, Op.kind?, show c.op.sought t = some cell from hcell,
        Option.bind_some, hv]
      simp
    · rw [hreply]
      exact (sought_temporary ht horderly hcell hv).symm
  refine ⟨fun k => ?_, hcalls⟩
  have hsum : (missesOf k s : Int) - missesOf k start = (done.map (·.growthOf (missesOf k))).sum :=
    scriptCalls_grow (missesOf_measure k) (calls_grow (missesOf_measure k) n) hrun
  have hstart : missesOf k start = 0 := by cases k <;> rfl
  have hcount (L : List Call) (hL : ∀ c ∈ L, c.growthOf (missesOf k) = (c.misses k).toNat) :
      (L.map (·.growthOf (missesOf k))).sum = (L.countP (Call.misses k) : Nat) := by
    induction L with
    | nil => rfl
    | cons c L ih =>
      rw [List.map_cons, List.sum_cons, hL c List.mem_cons_self,
        ih fun c' hc' => hL c' (List.mem_cons_of_mem _ hc'), List.countP_cons]
      cases c.misses k <;> simp [Int.add_comm]
  rw [hstart, hcount done fun c hc => (hcalls c hc).1 k] at hsum
  show missesOf k s = _
  omega

/-- A cell is read and cleared in vain, and so is a shared one, which native code then reads; a
temporary is taken in vain, and cleared, which counts nothing. -/
theorem misses_counted_vain : ∃ (body : Script) (s : State),
    [s.misses .plain, s.misses .parameter, s.misses .shared, s.misses .temp] = [2, 0, 3, 1] ∧
    ∀ k, s.misses k = (body.calls 1 (.start .plain true {} none)).countP (Call.misses k) := by
  let body : Script := [.cell (.make "c" (.plain "" none)), .cell (.use "c" false .read),
    .cell (.use "c" true .clear), .cell (.make "s" (.shared "" none)),
    .cell (.use "s" true (.readOwned "a")), .cell (.use "s" false (.take "a")),
    .native (.create (some "h") none 0), .native (.read (some "h")),
    .cell (.make "t" .temporary), .cell (.use "t" false (.take "a")),
    .cell (.use "t" false .clear)]
  have hleaves : (runNested (step 1) body (.start .plain true {} none)).toOption.map (fun s =>
      ([s.misses .plain, s.misses .parameter, s.misses .shared, s.misses .temp],
        s.journal.tunings.isEmpty)) = some ([2, 0, 3, 1], true) := by
    decide +kernel
  obtain ⟨s, hrun, hseen⟩ := Option.map_eq_some_iff.1 hleaves
  simp only [Prod.mk.injEq, List.isEmpty_iff] at hseen
  obtain ⟨hcounts, htunings⟩ := hseen
  have hok : runNested (step 1) body (.start .plain true {} none) = .ok s := by
    cases hr : runNested (step 1) body (.start .plain true {} none) with
    | error e => rw [hr] at hrun; cases hrun
    | ok t => rw [hr] at hrun; cases hrun; rfl
  have hlit : s.journal.Lit := by
    rw [Journal.Lit, htunings]
    exact List.forall_mem_nil _
  exact ⟨body, s, hcounts, (misses_counted hok (by simp [onlyOf, body, Op.Only, Op.LeavesCounters]) hlit).1⟩

end ClaimCells
