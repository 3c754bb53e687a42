import ClaimCells.Keeping

/-!
# Operations on objects and claims

Objects are allocated, acquired and released here without a cell. A claim that is left to nobody,
or taken over from nobody, is noted as such.
-/

namespace ClaimCells

/-- The text of a claim. -/
def claimText (o : ObjectId) : String :=
  "Claim(" ++ objectText o ++ ")"

/-- The text of a borrowed object. -/
def borrowedText (o : ObjectId) : String :=
  "Borrowed(" ++ objectText o ++ ")"

namespace Action

/-- A new object with its claim in hand, unless there is a cause to fail. -/
def produce (failure : Cause → Failure) : Option Cause → Action Claim
  | some c => fail (failure c)
  | none => allocate

/-- Keeps a new claim on an object. -/
def keepNew (c : Claim) (key : String) : Action Answer := do
  acquire c
  keepClaim key c.object
  return .object c.object

/-- Answers what an operation on objects and claims answers. -/
def performObject : ObjectOp → Action Answer
  | .allocate key? => do
    let c ← allocate
    match key? with
    | some key => keepClaim key c.object
    | none => disown c
    return .object c.object
  | .tryAllocate fault key => do
    let c ← produce .allocation fault
    keepClaim key c.object
    return .object c.object
  | .foreign o => do
    makeKnown o
    return .nothing
  | .acquire o => do
    requireKnown o
    acquireRaw ⟨.counted, o⟩
    return .object o
  | .release o => do
    requireKnown o
    adopt ⟨.counted, o⟩
    release ⟨.counted, o⟩
    return .nothing
  | .inspect o => do
    requireKnown o
    let l := (← thread).ledger
    return .inspected (l.count o) (l.isFreed o) (objectText o)
  | .claim o new key => do
    requireKnown o
    if new then keepNew ⟨.counted, o⟩ key
    else
      adopt ⟨.counted, o⟩
      keepClaim key o
      return .object o
  | .dropClaim key => do
    release ⟨.counted, ← takeClaim key⟩
    return .nothing
  | .intoOwned key => do
    let o ← takeClaim key
    disown ⟨.counted, o⟩
    return .object o
  | .duplicate key new => do
    -- the claim that is copied is in use, so its key stands for nothing meanwhile
    let o ← takeClaim key
    let acquired ← attempt (acquire ⟨.counted, o⟩)
    keepClaim key o
    ofExcept acquired
    keepClaim new o
    return .object o
  | .borrow key => do
    let o ← claimed key
    return .borrowed o true (borrowedText o)
  | .claimDebug key => do
    return .text (claimText (← claimed key))
  | .borrowEq key other => do
    let o ← claimed key
    let o' ← claimed other
    return .flag (o = o')

end Action

end ClaimCells
