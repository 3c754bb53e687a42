import ClaimCells.Action

/-!
# Acquiring and releasing claims

`acquire` adds a claim to an object and puts it into the hands of the operation at work, `release`
takes one out of its hands and gives it up. Both send a signal after the ledger, or the native
function, has done its part. The ledger may refuse either; a claim whose release was refused is
gone all the same.

`unwinding` is what happens to claims on their way when an operation is broken off: each is
released.
-/

namespace ClaimCells.Action

/-- Takes a claim into the hands. -/
def hold (c : Claim) : Action Unit :=
  inThread fun t => { t with hands := c :: t.hands }

/-- Lets a claim out of the hands, to wherever it goes. -/
def letGo (c : Claim) : Action Unit :=
  inThread fun t => { t with hands := t.hands.erase c }

/-- Takes over a claim from an owner that nobody keeps count of. -/
def adopt (c : Claim) : Action Unit := do
  note (.adopted c)
  hold c

/-- Hands a claim to such an owner. -/
def disown (c : Claim) : Action Unit := do
  note (.disowned c)
  letGo c

/-- Puts a new ledger in place, or breaks off because the old one refused. -/
def settleLedger (l : Except Misuse Ledger) : Action Ledger := do
  match l with
  | .ok l =>
    inThread ({ · with ledger := l })
    return l
  | .error m =>
    note (.refused m)
    raise (.misuse m)

/-- The native functions in effect. -/
def functions : Action Functions := do
  match (← get).functions with
  | some f => return f
  | none => violate .functionsMissing

/-- A new object, with its claim in hand. -/
def allocate : Action Claim := do
  let (o, l) := (← thread).ledger.allocate
  inThread fun t => { t with ledger := l, known := o :: t.known }
  note (.allocated o)
  hold ⟨.counted, o⟩
  return ⟨.counted, o⟩

/-- Has one more claim on an object counted, and takes it into the hands. -/
def gain (c : Claim) : Action Unit := do
  match c.realm with
  | .counted =>
    let _ ← settleLedger ((← thread).ledger.acquire c.object)
    hold c
    note (.acquired c.object)
  | .native =>
    let f ← functions
    hold c
    note (.called f.acquire .acquired c.object)

/-- One more claim on an object, taken into the hands. -/
def acquire (c : Claim) : Action Unit := do
  gain c
  send ⟨c.realm, .acquired, c.object⟩

/-- One more claim on an object, for an owner that nobody keeps count of. -/
def acquireRaw (c : Claim) : Action Unit := do
  gain c
  disown c
  send ⟨c.realm, .acquired, c.object⟩

/-- Gives up a claim in hand. -/
def release (c : Claim) : Action Unit := do
  letGo c
  match c.realm with
  | .counted =>
    let _ ← settleLedger ((← thread).ledger.release c.object)
    note (.released c.object)
    send ⟨.counted, .released, c.object⟩
    if (← thread).ledger.isFreed c.object then send ⟨.counted, .freed, c.object⟩
  | .native =>
    let f ← functions
    note (.called f.release .released c.object)
    send ⟨.native, .released, c.object⟩

/-- Gives up a claim, if there is one. -/
def releaseAny : Option Claim → Action Unit
  | some c => release c
  | none => pure ()

/-! ## Breaking off -/

/-- Does what must be done after a panic, where nothing more may go wrong. -/
def cleanUp (a : Action Unit) : Action Unit := do
  match ← attempt a with
  | .ok _ => return
  | .error _ => halt .aborted

/-- Goes on with the result of an action after something was done about it. -/
def conclude {α : Type} (result : Except Failure α) (a : Action Unit) : Action α := do
  match result with
  | .error (.panic p) =>
    cleanUp a
    fail (.panic p)
  | result =>
    a
    ofExcept result

/-- Gives up whatever the action leaves in the hands when it fails. -/
def unwinding {α : Type} (a : Action α) : Action α := do
  let before := (← thread).hands.length
  match ← attempt a with
  | .ok x => return x
  | .error f =>
    let hands := (← thread).hands
    (hands.take (hands.length - before)).forM fun c => cleanUp (release c)
    fail f

end ClaimCells.Action
