import ClaimCells.Lock
import ClaimCells.Variable

/-!
# Using cells

Cells of all shapes give the same access to their variable. They differ in what they say when it
has no value: a temporary must have one, a cell with a slot of its own speaks of a local variable,
and a handle of a shared cell speaks as the side of the capture it was made for.

A binding of a nested body is a handle that speaks of a free variable.
-/

namespace ClaimCells

/-- The handle through which a nested body reaches the cell. -/
def Cell.binding : Cell → Cell
  | .handle id _ => .handle id .free
  | c => c

/-- How the cell speaks of a variable without value. -/
def Cell.access : Cell → Access
  | .handle _ a => a
  | .own .. => .locally

/-- The kind that a cell of this shape is counted for. -/
def Form.kind : Form → CellKind
  | plain => .plain
  | parameter => .parameter
  | temporary => .temp

namespace Action

/-! ## Making cells -/

/-- A new cell with a slot of its own. -/
def makeOwn (form : Form) (name : String) (value : Option ObjectId) : Action Cell := do
  return .own form (← makeSlot .counted form.kind name value)

/-- A new shared cell and its first handle. -/
def makeShared (realm : Realm) (name : String) (value : Option ObjectId) : Action Cell := do
  let id ← makeSlot realm .shared name value
  modify fun s => { s with sharing := s.sharing.insert id { handles := 1 } }
  did (.shared id)
  return .handle id .locally

/-! ## Looking -/

/-- The variable of a cell. -/
def look : Cell → Action Slot
  | .own _ id => slot id
  | .handle id _ => do
    lockForReading id
    slot id

/-- Complains that the variable of a cell has no value. -/
def unboundError {α : Type} (c : Cell) : Action α := do
  fail (.cell (.unbound c.access (← slot c.slot).name))

/-- The object in the variable of a cell. -/
def valueIn (c : Cell) (v : Slot) : Action ObjectId := do
  match v.value, c with
  | some o, _ => return o
  | none, .own .temporary _ => violate .temporaryRead
  | none, c =>
    record v.kind .unboundAccess
    unboundError c

/-- The object in a cell. -/
def read (c : Cell) : Action ObjectId := do
  valueIn c (← look c)

/-- A new claim on the object in a cell, whose lock is held. -/
def acquireValue (c : Cell) : Action Claim := do
  let v ← slot c.slot
  let claim : Claim := ⟨v.realm, ← valueIn c v⟩
  acquire claim
  return claim

/-- A new claim on the object in a cell, taken into the hands. -/
def readOwned : Cell → Action Claim
  | .own form id => acquireValue (.own form id)
  | .handle id access => reading id (acquireValue (.handle id access))

/-! ## Changing -/

/-- Asks for the lock of a shared cell. -/
def lockToChange : Cell → Action Unit
  | .own .. => pure ()
  | .handle id _ => lockForChange id

/-- Binds a cell to an object, with the claim in hand. -/
def assign (c : Cell) (o : ObjectId) : Action Unit := do
  lockToChange c
  releaseAny (← replace c.slot o)

/-- Binds a cell to an object, with a claim acquired for it. -/
def assignBorrowed (c : Cell) (o : ObjectId) : Action Unit := do
  acquire ⟨(← slot c.slot).realm, o⟩
  assign c o

/-- Deletes the variable of a cell. Temporaries have none that could be missing. -/
def clear (c : Cell) : Action Bool := do
  match c with
  | .own .temporary id =>
    if (← slot id).value.isNone then return false
    releaseAny (← unbind id .release)
    return true
  | c =>
    lockToChange c
    match ← unbind c.slot .release with
    | some claim =>
      release claim
      return true
    | none => unboundError c

/-- Moves the claim of a cell into the hands. -/
def take (c : Cell) : Action Claim := do
  lockToChange c
  match ← unbind c.slot .transfer, c with
  | some claim, _ => return claim
  | none, .own .temporary _ => violate .temporaryTake
  | none, c => unboundError c

/-! ## Handles -/

/-- Another handle of a shared cell, for a nested activation. -/
def retain (id : SlotId) : Action Cell := do
  setSharing id fun c => { c with handles := c.handles + 1 }
  did (.retained id)
  emit (.retained (← slot id).name (← sharing id).handles)
  return .handle id .free

/-- Counts and reports that a shared cell is freed. -/
def reportFreed (v : Slot) : Action Unit := do
  record .shared .cellFreed
  emit (.freed v.name v.value.isSome)

/-- Gives up a handle. The last one takes the cell with it. -/
def dropHandle (id : SlotId) : Action Unit := do
  setSharing id fun c => { c with handles := c.handles - 1 }
  did (.dropped id)
  if (← sharing id).handles = 0 then
    let v ← slot id
    modify fun s => { s with sharing := s.sharing.erase id }
    conclude (← attempt (reportFreed v)) (destroySlot id)

/-- Gives up a handle and reports it. -/
def releaseHandle (id : SlotId) : Action Unit := do
  emit (.released (← slot id).name ((← sharing id).handles - 1))
  dropHandle id

/-- Ends a cell. -/
def destroy : Cell → Action Unit
  | .own _ id => destroySlot id
  | .handle id _ => dropHandle id

/-! ## Texts -/

/-- The debug text of a cell, or of a binding to it. -/
def debugText (c : Cell) (bound : Bool) : Action String := do
  let v ← look c
  match c with
  | .own form _ => return v.ownText form
  | .handle id _ =>
    let text := v.sharedText (← sharing id).handles
    return if bound then "ClosureBinding(" ++ text ++ ")" else text

end Action

end ClaimCells
