import ClaimCells.Operation.Object

/-!
# Operations on cells

Cells are made, used through themselves or through a binding, and ended.
-/

namespace ClaimCells.Action

/-! ## Making -/

/-- The object of a claim that is taken into the hands, if one is named. -/
def takeInitial : Option String → Action (Option ObjectId)
  | some key => return some (← takeClaim key)
  | none => return none

/-- A new object for a cell, unless there is a cause to fail. -/
def produceInitial (fault : Option Cause) : Action (Option ObjectId) := do
  let c ← produce (fun c => .cell (.objectRuntime c)) fault
  return some c.object

/-- A parameter cell that acquires its own claim on the argument. -/
def adoptBorrowed (name : String) (o : ObjectId) : Action Cell := do
  acquire ⟨.counted, o⟩
  makeOwn .parameter name (some o)

/-- A parameter cell for an argument that is passed in a given mode. -/
def adoptArgument (name : String) (o : ObjectId) : OwnershipMode → Action Cell
  | .owned => do
    adopt ⟨.counted, o⟩
    makeOwn .parameter name (some o)
  | .borrowed => adoptBorrowed name o

def make : Making → Action Cell
  | .plain name claim => do makeOwn .plain name (← takeInitial claim)
  | .plainTry name fault => do makeOwn .plain name (← produceInitial fault)
  | .parameter name claim => do makeOwn .parameter name (← takeInitial claim)
  | .parameterBorrowed name o => do
    requireKnown o
    adoptBorrowed name o
  | .parameterAdopt name o mode => do
    let mode ← decoded OwnershipMode.decoder (.value mode)
    requireKnown o
    adoptArgument name o mode
  | .temporary => makeOwn .temporary temporaryName none
  | .shared name claim => do makeShared .counted name (← takeInitial claim)
  | .sharedTry name fault => do makeShared .counted name (← produceInitial fault)

/-! ## Using -/

/-- The slot of a shared cell. -/
def sharedSlot : Cell → Action SlotId
  | .handle id _ => return id
  | .own .. => fail .noSuchCell

/-- What the state of a variable is called. -/
def stateText (v : Slot) : String :=
  if v.value.isSome then "Bound" else "Uninitialized"

/-- Uses a cell, or the binding to it. -/
def useCell (key : String) (bound : Bool) (verb : Verb) : Action Answer :=
  withCell key fun id whole => do
    let c := if bound then whole.binding else whole
    match verb with
    | .name => return .text (← looking id (slot c.slot)).name
    | .state => return .text (stateText (← looking id (look c)))
    | .isBound => return .flag (← looking id (look c)).value.isSome
    | .read => return .object (← looking id (read c))
    | .readOwned new => looking id do
      let claim ← readOwned c
      keepClaim new claim.object
      return .object claim.object
    | .assign claim => changing id do
      assign c (← takeClaim claim)
      return .nothing
    | .assignBorrowed o => changing id do
      requireKnown o
      assignBorrowed c o
      return .nothing
    | .clear => do
      let cleared ← changing id (clear c)
      return match c with
        | .own .temporary _ => .flag cleared
        | _ => .nothing
    | .take new => changing id do
      let claim ← take c
      keepClaim new claim.object
      return .object claim.object
    | .debug => return .text (← looking id (debugText c bound))
    | .refcount => do
      let handles := (← sharing (← sharedSlot c)).handles
      return if bound then .bound handles true else .count handles
    | .sameAs other => do
      return .flag ((← sharedSlot c) = (← sharedSlot (← cell other)))
    | .retain new => do
      keepCell new (← retain (← sharedSlot c)) (some id)
      return .nothing

/-! ## Ending -/

/-- A parameter cell as a plain one, which is still counted as a parameter. -/
def innerCell : Cell → Action Cell
  | .own .parameter id => return .own .plain id
  | _ => fail .noSuchCell

def performCell : CellOp → Action Answer
  | .make key how => do
    keepCell key (← make how)
    return .nothing
  | .use key bound verb => useCell key bound verb
  | .drop key => do
    destroy (← takeCell key)
    return .nothing
  | .release key => do
    let id ← sharedSlot (← cell key)
    let _ ← takeCell key
    releaseHandle id
    return .nothing
  | .intoInner key new => do
    let inner ← innerCell (← cell key)
    let _ ← takeCell key
    keepCell new inner
    return .nothing

end ClaimCells.Action
