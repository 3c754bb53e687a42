import ClaimCells.Operation.Settings

/-!
# Operations on counters and profilers

A sum that does not fit breaks the operation off and leaves the counters at hand as they were.
-/

namespace ClaimCells

/-- What a profiler has counted, if all sums fit. -/
def Profiler.report? (p : Profiler) : Option ProfileReport := do
  return {
    enabled := p.enabled
    kinds := CellKind.all.map p.kindStats
    outstanding := ← p.outstanding
    leaking := ← p.leaking }

namespace Action

def performStats (op : StatsOp) : Action Answer := do
  let c := (← thread).stats
  match op with
  | .decode source => do
    let c ← decoded KindStats.decoder source
    inThread ({ · with stats := c })
    return .text c.toJson.compact
  | .record event times => do
    let c ← checked (c.recordMany event times)
    inThread ({ · with stats := c })
    return .counters c
  | .outstanding => return .outstanding (← checked c.outstanding) (← checked c.leaks)
  | .debug => return .text c.debugText

/-- The profiler at hand, or the one of the process. -/
def profiler (own : Bool) : Action Profiler := do
  if own then return (← thread).profiler else return (← get).profiler

def setProfiler (own : Bool) (p : Profiler) : Action Unit :=
  if own then inThread ({ · with profiler := p }) else tune p

def performProfiler (own : Bool) (op : ProfilerOp) : Action Answer := do
  let p ← profiler own
  match op with
  | .make start => do
    setProfiler true (match start with | .counting => .new | .disabled => .disabled)
    return .nothing
  | .enable => do
    setProfiler own p.enable
    return .nothing
  | .disable => do
    setProfiler own p.disable
    return .nothing
  | .reset => do
    setProfiler own p.reset
    return .nothing
  | .record kind event times => do
    let (p, complete) := p.recordMany kind event times
    setProfiler own p
    if complete then return .nothing else raise .overflow
  | .report => do
    report p
    return .nothing
  | .kind kind => return .counters (p.kindStats kind)
  | .stats => return .profile (← checked p.report?)

end Action

end ClaimCells
