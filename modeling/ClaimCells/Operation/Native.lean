import ClaimCells.CellUse
import ClaimCells.StartUp

/-!
# Calls from native code

Native code installs its own functions for acquiring and releasing claims, once and for all, and
reaches shared cells through handles. A claim that it passes in is taken over from an owner that
nobody keeps count of, and a claim that it gets goes out to one. A panic inside such a call is
fatal.

A read or a deletion that finds no value answers so and leaves a message to its thread.
-/

namespace ClaimCells.Action

open Text.Utf8 (Bytes)

variable {α : Type}

/-- Runs a call from native code. -/
def nativeCall (a : Action α) : Action α := do
  inThread fun t => { t with nativeDepth := t.nativeDepth + 1 }
  let result ← attempt a
  inThread fun t => { t with nativeDepth := t.nativeDepth - 1 }
  ofExcept result

/-! ## Handles -/

/-- The name of a cell that is made without one. -/
def unnamed : String := "<unnamed>"

/-- The text of a name that ends with its first zero byte. -/
def nativeName (name : Option Bytes) : String :=
  match name with
  | some bytes => Text.Utf8.decodeLossy (bytes.takeWhile (· ≠ 0))
  | none => unnamed

/-- Gives a handle out to native code, under a key if there is one. -/
def giveHandle (key : Option String) (c : Cell) (parent : Option HandleId := none) :
    Action Unit := do
  let id ← fresh
  modify fun s => { s with handles := s.handles.insert id c }
  note (.opened id parent)
  if let some key := key then
    modify fun s => { s with handleKeys := s.handleKeys.insert key id }

/-- The number of the handle with a key. -/
def handleId (key : String) : Action HandleId := do
  demand .noSuchHandle ((← get).handleKeys.get? key)

/-- The cell of the handle with a key. -/
def handle (key : String) : Action Cell := do
  demand .noSuchHandle ((← get).handles.get? (← handleId key))

/-- The cell of a handle that must not be null. -/
def handleOrNull : Option String → Action Cell
  | some key => handle key
  | none => violate .nullHandle

/-- The cell of a handle that is there. -/
def someHandle : Option String → Action Cell
  | some key => handle key
  | none => fail .noSuchHandle

/-- Takes a handle back from native code. -/
def takeHandle (key : String) : Action Cell := do
  let id ← handleId key
  let c ← demand .noSuchHandle ((← get).handles.get? id)
  modify fun s =>
    { s with handles := s.handles.erase id, handleKeys := s.handleKeys.erase key }
  return c

/-! ## Calls -/

/-- Installs functions, unless some are in effect, and says whether these are. -/
def install (f : Functions) : Action Bool := do
  match (← get).functions with
  | some g => return g = f
  | none => match ← attempt initFromEnvironment with
    | .ok _ =>
      modify ({ · with functions := some f })
      return true
    | .error (.settings e) => violate (.startUp e)
    | .error e => fail e

/-- A text for native code, where it ends with its first zero: others in it are replaced. -/
def nativeText (s : String) : String :=
  String.ofList (s.toList.map fun c => if c = '\x00' then '?' else c)

/-- Leaves the message of an error to the thread. -/
def setLastError (e : CellError) : Action Unit := do
  emit (.accessFailed e)
  inThread ({ · with lastError := some (nativeText e.message) })

/-- Goes on with a value, or leaves the error to the thread and goes on without. -/
def orLastError (a : Action α) : Action (Option α) := do
  match ← attempt a with
  | .ok x => return some x
  | .error (.cell e) =>
    setLastError e
    return none
  | .error f => fail f

/-- Makes a shared cell for native code, with the claim that is passed in. -/
def createHandle (key : Option String) (name : Option Bytes) (o : ObjectId) : Action Unit := do
  let initial := if o = 0 then none else some o
  if o ≠ 0 then adopt ⟨.native, o⟩
  giveHandle key (← makeShared .native (nativeName name) initial)

/-- Hands the claim of an action to native code. -/
def handOver (a : Action Claim) : Action Answer := do
  let c ← a
  disown c
  return .pointer (some c.object)

/-- The slot behind a handle. -/
def handleSlot (h : Option String) : Action SlotId := do
  return (← someHandle h).slot

def callNative : NativeOp → Action Answer
  | .install acquire release => return .flag (← install ⟨acquire, release⟩)
  | .create key name o => do
    createHandle key name o
    return .nothing
  | .retain h key => do
    let c ← handleOrNull h
    giveHandle key (← retain c.slot) (← h.mapM handleId)
    return .nothing
  | .release (some key) => do
    releaseHandle (← takeHandle key).slot
    return .nothing
  | .release none => violate .nullRelease
  | .assign h o => do
    if let some key := h then discard (handle key)
    if o = 0 then violate .nullAssignment
    let c ← handleOrNull h
    adopt ⟨.native, o⟩
    assign c o
    return .nothing
  | .read h => do
    let c ← handleOrNull h
    return .pointer (← orLastError (read c))
  | .clear h => do
    let c ← handleOrNull h
    return .flag (← orLastError (clear c)).isSome
  | .isBound h => return .flag (← look (← handleOrNull h)).value.isSome
  | .lastError => do
    match (← thread).lastError with
    | some s => return .text s
    | none => return .nothing
  | .clearError => do
    inThread ({ · with lastError := none })
    return .nothing
  | .acquire o => do
    acquireRaw ⟨.native, o⟩
    return .pointer (if o = 0 then none else some o)
  | .drop o => do
    adopt ⟨.native, o⟩
    release ⟨.native, o⟩
    return .nothing
  | .name h => return .text (← slot (← handleSlot h)).name
  | .refcount h => return .count (← sharing (← handleSlot h)).handles
  | .sameAs h other => return .flag ((← handleSlot h) = (← handleSlot other))
  | .debug h => return .text (← debugText (← someHandle h) false)
  | .readOwned h => do
    let c ← someHandle h
    handOver (readOwned c)
  | .take h => do
    let c ← someHandle h
    handOver (take c)
  | .assignBorrowed h o => do
    let c ← someHandle h
    assignBorrowed c o
    return .nothing

def performNative (op : NativeOp) : Action Answer :=
  nativeCall (callNative op)

end ClaimCells.Action
