import ClaimCells.Cell
import ClaimCells.Json.Value
import ClaimCells.Settings.Basic

/-!
# What can go wrong

A cell may have no value to give. An invariant may be broken: that is a panic, which ends the
operation and releases every claim that was on its way. A panic inside a call from native code
ends everything, and so do a lock that waits for itself and a panic while another one is being
cleaned up after; these are halts.
-/

namespace ClaimCells

/-- An invariant that generated code must keep. -/
inductive Invariant
  | temporaryRead
  | temporaryTake
  | nullHandle
  | nullRelease
  | nullAssignment
  /-- Native objects were used before the functions for them were installed. -/
  | functionsMissing
  /-- The settings found at the first installation cannot be served. -/
  | startUp (e : SettingsError)
deriving DecidableEq, Repr

/-- Why an operation is broken off. -/
inductive Panic
  | misuse (m : Misuse)
  /-- A counter that cannot count further. -/
  | overflow
  | invariant (i : Invariant)
  /-- A shared cell was to be changed while a read holds its lock. -/
  | relocked
deriving DecidableEq, Repr

/-- Why an object could not be produced: a cause, and what brought that about. -/
structure Cause where
  outermost : String
  deeper : List String := []
deriving DecidableEq, Repr

namespace Cause

/-- The cause when an allocation is made to fail. -/
def allocation : Cause := { outermost := "allocation failed" }

/-- The causes from the outermost one to the root. -/
def chain (c : Cause) : List String :=
  c.outermost :: c.deeper

end Cause

/-- Why a cell has no value to give. -/
inductive CellError
  | unbound (access : Access) (name : String)
  /-- The value for a new cell could not be produced. -/
  | objectRuntime (c : Cause)
deriving DecidableEq, Repr

/-- Why an operation has no answer. -/
inductive Failure
  | cell (e : CellError)
  | panic (p : Panic)
  | settings (e : SettingsError)
  | allocation (c : Cause)
  /-- A text that names no refcount mode. -/
  | unknownMode (text : String)
  | document (f : Json.Fault)
  | noSuchCell
  | noSuchClaim
  | noSuchObject
  | noSuchHandle
  /-- The cell is held by an operation in progress. -/
  | busy

/-- Why nothing goes on. -/
inductive Halt
  /-- A panic inside a call from native code. -/
  | fatal (p : Panic)
  /-- A lock is waited for by its own holder. -/
  | blocked
  /-- A panic while another one is cleaned up after. -/
  | aborted
  /-- More scripts were nested than the bound on nesting allows. -/
  | exhausted
deriving DecidableEq, Repr

/-! ## Texts -/

def Invariant.message : Invariant → String
  | temporaryRead => "read of unassigned temporary"
  | temporaryTake => "take of unassigned temporary"
  | nullHandle => "null shared cell handle"
  | nullRelease => "release of null shared cell handle"
  | nullAssignment => "assignment of null object"
  | functionsMissing => "object runtime hooks used before varcell_runtime_install"
  | startUp e => e.message

/-- What a panic says. A refused lock says nothing. -/
def Panic.message? : Panic → Option String
  | misuse m => some m.message
  | overflow => some "attempt to add with overflow"
  | invariant i => some ("variable cell invariant violated: " ++ i.message)
  | relocked => none

def CellError.message : CellError → String
  | unbound access name => access.unboundMessage name
  | objectRuntime c => "object runtime failure: " ++ c.outermost

/-- Whether a program is expected to handle the error. -/
def CellError.isUnbound : CellError → Bool
  | unbound .. => true
  | objectRuntime .. => false

/-- The variable that had no value. -/
def CellError.name? : CellError → Option String
  | unbound _ name => some name
  | objectRuntime .. => none

/-- What brought the error about, outermost first. -/
def CellError.sources : CellError → List String
  | unbound .. => []
  | objectRuntime c => c.chain

end ClaimCells
