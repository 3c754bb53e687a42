import ClaimCells.Operation.Cell
import ClaimCells.Operation.Native
import ClaimCells.Operation.Statistics

/-!
# Operations

`perform` is what an operation does by itself. A thread is not an action: `Run` runs it.
-/

namespace ClaimCells

/-- What a dump says of a cell. -/
def Action.viewCell (k : Kept) : Action CellView := do
  if k.exclusive then return .busy
  match k.cell with
  | .own _ id => return .own (← slot id).value
  | .handle id _ => return .shared (← look k.cell).value (← sharing id).handles

/-- What all cells, claims and objects hold. -/
def Action.dump : Action Answer := do
  let t ← thread
  let cells ← t.cells.entries.mapM fun (key, id) => do
    return (key, ← viewCell (← kept id))
  return .dump cells t.claims.entries (t.known.map fun o => (o, t.ledger.count o))

/-- What an operation does and answers. -/
def perform : Op → Action Answer
  | .object op => Action.performObject op
  | .cell op => Action.performCell op
  | .settings op => Action.performSettings op
  | .manager ofProcess op => Action.performManager ofProcess op
  | .process op => Action.performProcess op
  | .stats op => Action.performStats op
  | .profiler own op => Action.performProfiler own op
  | .native op => Action.performNative op
  | .hook g body => do
    modify (·.setHook g body)
    return .nothing
  | .thread _ => return .nothing
  | .dump => Action.dump

end ClaimCells
