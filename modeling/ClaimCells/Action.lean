import ClaimCells.State

/-!
# Actions

An action changes the state and comes to a value, to a failure, or to a halt. On its way it may
send signals. What a signal sets off is not known to the action: `Act` records the state at the
signal and how the action goes on from whatever state it is resumed in. `Act.settle` runs an
action, given what signals set off.

A failure can be attended to before it goes on; a halt cannot.

Main statements: actions obey the laws of a monad, and `settle_bind` and `settle_attempt` say that
running a composed action is running its parts one after the other.
-/

namespace ClaimCells

/-- The course of an action. -/
inductive Act (α : Type)
  | done (a : α) (s : State)
  | fail (f : Failure) (s : State)
  | halt (h : Halt) (s : State)
  /-- Sends a signal and waits to be resumed. -/
  | send (g : Signal) (s : State) (next : State → Act α)

namespace Act

variable {α β : Type}

def bind : Act α → (α → State → Act β) → Act β
  | done a s, k => k a s
  | fail f s, _ => .fail f s
  | halt h s, _ => .halt h s
  | send g s next, k => .send g s fun s => bind (next s) k

/-- Turns a failure into a value. -/
def attempt : Act α → Act (Except Failure α)
  | done a s => .done (.ok a) s
  | fail f s => .done (.error f) s
  | halt h s => .halt h s
  | send g s next => .send g s fun s => attempt (next s)

/-- How an action ends. -/
inductive Outcome (α : Type)
  | ended (result : Except Failure α) (s : State)
  | halted (h : Halt) (s : State)

/-- Runs an action. `react` runs what a signal sets off. -/
def settle (react : Signal → State → Except (Halt × State) State) : Act α → Outcome α
  | done a s => .ended (.ok a) s
  | fail f s => .ended (.error f) s
  | halt h s => .halted h s
  | send g s next => match react g s with
    | .ok s => settle react (next s)
    | .error (h, s) => .halted h s

/-! ## Laws -/

@[simp] theorem bind_done (x : Act α) : x.bind .done = x := by
  induction x with
  | done | fail | halt => rfl
  | send g s next ih => simp only [bind, ih]

theorem bind_assoc {γ : Type} (x : Act α) (f : α → State → Act β) (g : β → State → Act γ) :
    (x.bind f).bind g = x.bind fun a s => (f a s).bind g := by
  induction x with
  | done | fail | halt => rfl
  | send g s next ih => simp only [bind, ih]

/-- What comes after an end. -/
def Outcome.andThen : Outcome α → (α → State → Outcome β) → Outcome β
  | .ended (.ok a) s, k => k a s
  | .ended (.error f) s, _ => .ended (.error f) s
  | .halted h s, _ => .halted h s

/-- The end with a failure turned into a value. -/
def Outcome.attempt : Outcome α → Outcome (Except Failure α)
  | .ended r s => .ended (.ok r) s
  | .halted h s => .halted h s

variable (react : Signal → State → Except (Halt × State) State)

theorem settle_bind (x : Act α) (k : α → State → Act β) :
    (x.bind k).settle react = (x.settle react).andThen fun a s => (k a s).settle react := by
  induction x with
  | done | fail | halt => rfl
  | send g s next ih =>
    simp only [bind, settle]
    cases react g s with
    | ok s => exact ih s
    | error e => rfl

theorem settle_attempt (x : Act α) : x.attempt.settle react = (x.settle react).attempt := by
  induction x with
  | done | fail | halt => rfl
  | send g s next ih =>
    simp only [attempt, settle]
    cases react g s with
    | ok s => exact ih s
    | error e => rfl

end Act

def Action (α : Type) := State → Act α

namespace Action

variable {α β : Type}

instance : Monad Action where
  pure a := fun s => .done a s
  bind a k := fun s => (a s).bind k

theorem pure_def (a : α) : (pure a : Action α) = fun s => .done a s := rfl

theorem bind_def (a : Action α) (k : α → Action β) : a >>= k = fun s => (a s).bind k := rfl

instance : LawfulMonad Action := .mk' Action
  (fun _ => funext fun _ => Act.bind_done _)
  (fun _ _ => rfl)
  (fun _ _ _ => funext fun _ => Act.bind_assoc _ _ _)

instance : MonadStateOf State Action where
  get := fun s => .done s s
  set s := fun _ => .done () s
  modifyGet f := fun s => .done (f s).1 (f s).2

/-- Comes to a failure. -/
def fail (f : Failure) : Action α := fun s => .fail f s

/-- Comes to a halt. -/
def halt (h : Halt) : Action α := fun s => .halt h s

def send (g : Signal) : Action Unit := fun s => .send g s (.done ())

/-- Turns a failure into a value. -/
def attempt (a : Action α) : Action (Except Failure α) := fun s => (a s).attempt

/-- Goes on with a value or a failure. -/
def ofExcept : Except Failure α → Action α
  | .ok a => pure a
  | .error f => fail f

/-- The value, or the failure in its absence. -/
def demand (f : Failure) : Option α → Action α
  | some a => pure a
  | none => fail f

/-- What a document holds. -/
def decoded (d : Json.Decoder α) (source : Json.Source) : Action α :=
  match d.decode source with
  | .ok a => pure a
  | .error f => fail (.document f)

def note (e : Entry) : Action Unit :=
  modify (·.note e)

def did (d : Deed) : Action Unit :=
  note (.did d)

def thread : Action Thread :=
  return (← get).thread

def inThread (f : Thread → Thread) : Action Unit :=
  modify (·.inThread f)

/-- Breaks off. In a call from native code nothing can go on after that. -/
def raise (p : Panic) : Action α := do
  if (← thread).nativeDepth = 0 then fail (.panic p) else halt (.fatal p)

/-- Goes on with a sum, if it fits. -/
def checked : Option α → Action α
  | some a => pure a
  | none => raise .overflow

/-- Reports an event. -/
def emit (e : Event) : Action Unit := do
  note (.event e ((← get).writes e))

/-- Breaks off because an invariant does not hold. -/
def violate (i : Invariant) : Action α := do
  emit (.violated i)
  raise (.invariant i)

/-- A number that was never used. -/
def fresh : Action Nat :=
  modifyGet fun s => (s.next, { s with next := s.next + 1 })

/-- Counts an event in the profiler of the process. -/
def record (k : CellKind) (e : ClaimEvent) : Action Unit := do
  let p ← checked ((← get).profiler.record k e)
  modify ({ · with profiler := p })

/-- Puts the counters of the process in place. -/
def tune (p : Profiler) : Action Unit := do
  modify ({ · with profiler := p })
  note (.tuned p)

end Action

end ClaimCells
