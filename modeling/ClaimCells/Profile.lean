import ClaimCells.Table

/-!
# Claim statistics

What happens to the claim of a variable cell is an event, counted for each kind of cell in six
counters of 64 bits. A sum that does not fit has no value: `checkedAdd` answers `none`.

A profiler counts only while it is switched on. A kind has counters from its first recorded event
until the next `reset`.
-/

namespace ClaimCells

/-- The kind of cell that an event is counted for. -/
inductive CellKind
  /-- An ordinary local variable. -/
  | plain
  /-- A local seeded from an argument. -/
  | parameter
  /-- A cell shared with nested closures. -/
  | shared
  /-- An anonymous temporary. -/
  | temp
deriving DecidableEq, Repr

namespace CellKind

/-- Every kind, in the order of reports. -/
def all : List CellKind := [.plain, .parameter, .shared, .temp]

/-- The word for the kind in messages. -/
def word : CellKind → String
  | plain => "plain"
  | parameter => "parameter"
  | shared => "shared"
  | temp => "temp"

/-- The name of the kind in documents. -/
def variant : CellKind → String
  | plain => "Plain"
  | parameter => "Parameter"
  | shared => "Shared"
  | temp => "Temp"

end CellKind

/-- What can happen to the claim of a cell. -/
inductive ClaimEvent
  /-- A cell came to be, bound or not. -/
  | constructed
  /-- The cell took over a claim. -/
  | bound
  /-- The cell gave its claim up. -/
  | released
  /-- The claim moved out of the cell to someone else. -/
  | transferred
  /-- A read or a deletion found no value. -/
  | unboundAccess
  /-- The last handle of a shared cell went away. -/
  | cellFreed
deriving DecidableEq, Repr

/-- The sum of two words, if it is one. -/
def checkedAdd (a b : UInt64) : Option UInt64 :=
  if a.toNat + b.toNat < UInt64.size then some (a + b) else none

/-- The difference of two words, never below zero. -/
def saturatingSub (a b : UInt64) : UInt64 :=
  if b ≤ a then a - b else 0

/-- The counters of one kind of cell. -/
structure KindStats where
  constructed : UInt64 := 0
  bound : UInt64 := 0
  released : UInt64 := 0
  transferred : UInt64 := 0
  unbound : UInt64 := 0
  freed : UInt64 := 0
deriving DecidableEq, Repr, Inhabited

namespace KindStats

/-- The counter of an event. -/
def count (s : KindStats) : ClaimEvent → UInt64
  | .constructed => s.constructed
  | .bound => s.bound
  | .released => s.released
  | .transferred => s.transferred
  | .unboundAccess => s.unbound
  | .cellFreed => s.freed

def setCount (s : KindStats) (n : UInt64) : ClaimEvent → KindStats
  | .constructed => { s with constructed := n }
  | .bound => { s with bound := n }
  | .released => { s with released := n }
  | .transferred => { s with transferred := n }
  | .unboundAccess => { s with unbound := n }
  | .cellFreed => { s with freed := n }

/-- Counts an event once more. -/
def record (s : KindStats) (e : ClaimEvent) : Option KindStats :=
  (checkedAdd (s.count e) 1).map (s.setCount · e)

/-- Counts an event `n` times. -/
def recordMany (s : KindStats) (e : ClaimEvent) : Nat → Option KindStats
  | 0 => some s
  | n + 1 => (s.record e).bind (recordMany · e n)

/-- The claims that cells of the kind still hold. -/
def outstanding (s : KindStats) : Option UInt64 :=
  (checkedAdd s.released s.transferred).map (saturatingSub s.bound)

/-- Whether claims were taken over and never let go. -/
def leaks (s : KindStats) : Option Bool :=
  s.outstanding.map (0 < ·)

/-- The counters in their fixed order. -/
def toList (s : KindStats) : List UInt64 :=
  [s.constructed, s.bound, s.released, s.transferred, s.unbound, s.freed]

/-- The counters with their field names. -/
def debugText (s : KindStats) : String :=
  "KindStats \x7b constructed: " ++ toString s.constructed
    ++ ", claims_bound: " ++ toString s.bound
    ++ ", claims_released: " ++ toString s.released
    ++ ", transferred_out: " ++ toString s.transferred
    ++ ", unbound_errors: " ++ toString s.unbound
    ++ ", cells_freed: " ++ toString s.freed ++ " \x7d"

@[simp] theorem count_setCount (s : KindStats) (n : UInt64) (e : ClaimEvent) :
    (s.setCount n e).count e = n := by
  cases e <;> rfl

theorem count_setCount_ne (s : KindStats) (n : UInt64) {e e' : ClaimEvent} (h : e' ≠ e) :
    (s.setCount n e).count e' = s.count e' := by
  cases e <;> cases e' <;> first | rfl | exact absurd rfl h

end KindStats

/-- Counters for every kind, with a switch. -/
structure Profiler where
  enabled : Bool
  stats : Table CellKind KindStats := {}

namespace Profiler

/-- A profiler that counts from the start. -/
def new : Profiler := { enabled := true }

/-- A profiler that counts nothing until it is switched on. -/
def disabled : Profiler := { enabled := false }

def enable (p : Profiler) : Profiler := { p with enabled := true }

def disable (p : Profiler) : Profiler := { p with enabled := false }

/-- Forgets every count and keeps the switch. -/
def reset (p : Profiler) : Profiler := { p with stats := {} }

/-- The counters of a kind, all zero before its first event. -/
def kindStats (p : Profiler) (k : CellKind) : KindStats :=
  (p.stats.get? k).getD {}

/-- Counts an event, if the profiler is on. -/
def record (p : Profiler) (k : CellKind) (e : ClaimEvent) : Option Profiler :=
  if p.enabled then
    ((p.kindStats k).record e).map fun s => { p with stats := p.stats.insert k s }
  else some p

/-- Counts an event `n` times, up to the first time that it cannot. -/
def recordMany (p : Profiler) (k : CellKind) (e : ClaimEvent) : Nat → Profiler × Bool
  | 0 => (p, true)
  | n + 1 => match p.record k e with
    | some p => p.recordMany k e n
    | none => (p, false)

/-- The claims that cells of any kind still hold. -/
def outstanding (p : Profiler) : Option UInt64 :=
  p.stats.values.foldlM (fun total s => s.outstanding.bind (checkedAdd total)) 0

/-- The kinds that have counters, in the order of reports. -/
def recorded (p : Profiler) : List (CellKind × KindStats) :=
  CellKind.all.filterMap fun k => (p.stats.get? k).map (k, ·)

/-- The kinds whose cells still hold claims, with how many. -/
def leaking (p : Profiler) : Option (List (CellKind × UInt64)) :=
  (p.recorded.mapM fun ks : CellKind × KindStats => ks.2.outstanding.map (ks.1, ·)).map
    (·.filter (0 < ·.2))

end Profiler

end ClaimCells
