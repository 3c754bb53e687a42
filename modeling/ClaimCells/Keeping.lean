import ClaimCells.CellUse

/-!
# Keeping claims and cells under keys

A key that is given away again replaces what it stood for, which is given up after that. A cell
that an operation in progress uses is not given up before the operation ends.

An operation that changes a cell with a slot of its own has it to itself until its result is kept;
others may only look at it together. A shared cell can be used by any number of operations.
-/

namespace ClaimCells.Action

variable {α : Type}

/-! ## Objects -/

/-- Lets a number be used as an object. -/
def makeKnown (o : ObjectId) : Action Unit :=
  inThread fun t => if t.known.contains o then t else { t with known := o :: t.known }

/-- Refuses numbers that may not be used as objects. -/
def requireKnown (o : ObjectId) : Action Unit := do
  if !(← thread).known.contains o then fail .noSuchObject

/-! ## Claims -/

/-- The object that the claim with a key is on. -/
def claimed (key : String) : Action ObjectId := do
  demand .noSuchClaim ((← thread).claims.get? key)

/-- Takes the claim with a key into the hands. -/
def takeClaim (key : String) : Action ObjectId := do
  let o ← claimed key
  inThread fun t => { t with claims := t.claims.erase key }
  hold ⟨.counted, o⟩
  return o

/-- Keeps a claim in hand under a key. -/
def keepClaim (key : String) (o : ObjectId) : Action Unit := do
  let old := (← thread).claims.get? key
  letGo ⟨.counted, o⟩
  inThread fun t => { t with claims := t.claims.insert key o }
  did (.handed key o)
  if let some old := old then
    hold ⟨.counted, old⟩
    release ⟨.counted, old⟩

/-! ## Cells -/

def keptId (key : String) : Action KeptId := do
  demand .noSuchCell ((← thread).cells.get? key)

def kept (id : KeptId) : Action Kept := do
  demand .noSuchCell ((← thread).kept.get? id)

def setKept (id : KeptId) (f : Kept → Kept) : Action Unit :=
  inThread fun t => { t with kept := t.kept.modify id f }

/-- The cell with a key. -/
def cell (key : String) : Action Cell := do
  return (← kept (← keptId key)).cell

/-- Ends a cell that has no key any more, unless an operation still uses it. -/
def abandon (id : KeptId) : Action Unit := do
  let k ← kept id
  if k.users = 0 then
    inThread fun t => { t with kept := t.kept.erase id }
    destroy k.cell

/-- Keeps a cell under a key. A handle that was retained has a parent. -/
def keepCell (key : String) (c : Cell) (parent : Option KeptId := none) : Action Unit := do
  let id ← fresh
  let old := (← thread).cells.get? key
  inThread fun t =>
    { t with cells := t.cells.insert key id, kept := t.kept.insert id { cell := c } }
  note (.opened id parent)
  if let some old := old then abandon old

/-- Takes the cell with a key away from it. -/
def takeCell (key : String) : Action Cell := do
  let id ← keptId key
  let k ← kept id
  if k.users ≠ 0 then fail .busy
  inThread fun t => { t with cells := t.cells.erase key, kept := t.kept.erase id }
  return k.cell

/-- Ends an operation's use of a cell. -/
def leave (id : KeptId) : Action Unit := do
  setKept id fun k => { k with users := k.users - 1 }
  if !(← thread).cells.values.contains id then abandon id

/-- Keeps the cell with a key alive while the action lasts. -/
def withCell (key : String) (a : KeptId → Cell → Action α) : Action α := do
  let id ← keptId key
  let k ← kept id
  setKept id fun k => { k with users := k.users + 1 }
  conclude (← attempt (unwinding (a id k.cell))) (leave id)

/-- Looks at a cell. One that is being changed cannot be looked at. -/
def looking (id : KeptId) (a : Action α) : Action α := do
  if (← kept id).exclusive then fail .busy
  setKept id fun k => { k with readers := k.readers + 1 }
  let result ← attempt (unwinding a)
  setKept id fun k => { k with readers := k.readers - 1 }
  ofExcept result

/-- Changes a cell. One with a slot of its own must be in no other use. -/
def changing (id : KeptId) (a : Action α) : Action α := do
  let k ← kept id
  match k.cell with
  | .handle .. => looking id a
  | .own .. =>
    if k.exclusive || k.readers ≠ 0 then fail .busy
    setKept id fun k => { k with exclusive := true }
    let result ← attempt (unwinding a)
    setKept id fun k => { k with exclusive := false }
    ofExcept result

end ClaimCells.Action
