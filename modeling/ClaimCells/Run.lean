import ClaimCells.Operation

/-!
# Running scripts

`step` runs one operation together with everything that its signals set off: the script that
waits for a signal is taken away and run before the operation goes on. `run` runs a whole script
and ends by giving up every cell and every claim that is left.

Scripts nest as deep as there are scripts inside the one that is run, so their number bounds the
depth.
-/

namespace ClaimCells

open Act (Outcome)

/-! ## One operation -/

/-- Runs operations one after the other and notes what each leaves. -/
def runNested (step : Op → State → Outcome Answer) : Script → State → Except (Halt × State) State
  | [], s => .ok s
  | op :: ops, s => match step op s with
    | .ended r s => runNested step ops (s.note (.answered r))
    | .halted h s => .error (h, s)

/-- Runs the script that waits for a signal, if there is one. -/
def react (step : Op → State → Outcome Answer) (g : Signal) (s : State) :
    Except (Halt × State) State :=
  match s.hook? g with
  | some body => runNested step body ((s.eraseHook g).note (.hook g))
  | none => .ok s

/-- Runs a script on a thread of its own and comes back. -/
def runThread (step : Op → State → Outcome Answer) (body : Script) (s : State) :
    Except (Halt × State) State :=
  (runNested step body s.startThread).map (·.endThread s)

/-- Runs an operation. The number bounds the depth of nesting. -/
def step : Nat → Op → State → Outcome Answer
  | 0, _, s => .halted .exhausted s
  | n + 1, .thread body, s => match runThread (step n) body s with
    | .ok s => .ended (.ok .nothing) s
    | .error (h, s) => .halted h s
  | n + 1, op, s => (Action.unwinding (perform op) s).settle (react (step n))

/-! ## The end -/

/-- Does what may fail, notes the failure, and goes on. -/
def Action.anyway (a : Action Unit) : Action Unit := do
  if let .error f ← attempt (unwinding a) then note (.answered (.error f))

/-- Gives up the cells and then the claims with the given keys. -/
def Action.tearDown (cells claims : List String) : Action Unit := do
  cells.forM fun key => anyway do destroy (← takeCell key)
  claims.forM fun key => anyway do release ⟨.counted, ← takeClaim key⟩

/-- Puts a key into its place. -/
def insertKey (key : String) : List String → List String
  | [] => [key]
  | k :: ks => if k < key then k :: insertKey key ks else key :: k :: ks

/-- Keys in the order of their bytes. -/
def sortKeys (keys : List String) : List String :=
  keys.foldr insertKey []

/-- Gives up all that is left. Scripts that still wait for the ledger never run. -/
def Action.finish : Action ProfileReport := do
  inThread ({ · with hooks := {} })
  let t ← thread
  tearDown (sortKeys t.cells.keys) (sortKeys t.claims.keys)
  checked (← get).profiler.report?

/-! ## Whole scripts -/

inductive Conclusion
  | replied (r : Reply)
  | halted (h : Halt)
  /-- The end of the script, with what the profiler has counted. -/
  | finished (r : Except Failure ProfileReport)

/-- What is seen of one operation: how it ended, the ledger after it, and what happened during
it, oldest first. -/
structure Step where
  conclusion : Conclusion
  ledger : Ledger
  journal : Journal

/-- What is seen when the journal was `before` entries long. -/
def State.seen (s : State) (before : Nat) (conclusion : Conclusion) : Step where
  conclusion
  ledger := s.thread.ledger
  journal := (s.journal.take (s.journal.length - before)).reverse

/-- What is seen of a halt. Only the thread that came to it is looked at. -/
def State.seenHalting (s : State) (before : Nat) (h : Halt) : Step :=
  s.seen (max before s.thread.began) (.halted h)

/-- Runs the operations of a script and what comes at its end. -/
def steps (depth : Nat) : Script → State → List Step
  | [], s => match (Action.finish s).settle (react (step depth)) with
    | .ended r s' => [s'.seen s.journal.length (.finished r)]
    | .halted h s' => [s'.seenHalting s.journal.length h]
  | op :: ops, s => match step depth op s with
    | .ended r s' => s'.seen s.journal.length (.replied r) :: steps depth ops s'
    | .halted h s' => [s'.seenHalting s.journal.length h]

/-- Runs a script from a state. -/
def run (script : Script) (s : State) : List Step :=
  steps (bodiesOf script + 1) script s

/-- The state that a process starts in. -/
def State.start (build : Build) (profiling : Bool) (environment : Table String Text.Utf8.Bytes)
    (file : FileContent) : State where
  build
  profiler := if profiling then .new else .disabled
  environment
  file

end ClaimCells
