import ClaimCells.Journal
import ClaimCells.Logging

/-!
# State

What is shared by all threads, and what the running thread has to itself.

A claim is always in one place: in a slot, kept under a key, or in the hands of an operation that
is moving it. Cells are kept under keys too; one that an operation in progress uses stays alive
until that operation ends, even when its key has been given to another cell.
-/

namespace ClaimCells

open Text.Utf8 (Bytes)

/-- A kept cell. -/
structure Kept where
  cell : Cell
  /-- How many operations in progress keep it alive. -/
  users : Nat := 0
  /-- How many operations look at it at the moment. -/
  readers : Nat := 0
  /-- Whether an operation changes it at the moment. -/
  exclusive : Bool := false
deriving DecidableEq, Repr

abbrev KeptId := Nat

abbrev HandleId := Nat

/-- What a thread has to itself. -/
structure Thread where
  /-- How long the journal was when the thread began. -/
  began : Nat := 0
  ledger : Ledger := {}
  /-- The numbers that may be used as objects, newest first. -/
  known : List ObjectId := []
  /-- Claims on their way, newest first. -/
  hands : List Claim := []
  /-- Kept claims, all in the ledger. -/
  claims : Table String ObjectId := {}
  /-- The cells that have a key, and those that are in use. -/
  cells : Table String KeptId := {}
  kept : Table KeptId Kept := {}
  /-- Scripts that wait for a signal of the ledger. -/
  hooks : Table Signal Script := {}
  settings : Settings := {}
  /-- The settings of the manager at hand. -/
  managed : Settings := {}
  stats : KindStats := {}
  profiler : Profiler := .new
  /-- How many calls from native code are in progress. -/
  nativeDepth : Nat := 0
  /-- The message of the last call from native code that found no value. -/
  lastError : Option String := none

/-- The native functions in effect. -/
structure Functions where
  acquire : Library
  release : Library
deriving DecidableEq, Repr

structure State where
  build : Build
  thread : Thread := {}
  /-- The threads that wait for the running one, innermost first. -/
  waiting : List Thread := []
  /-- The threads that came to their end, with what they left. -/
  ended : List Thread := []
  slots : Table SlotId Slot := {}
  /-- The shared cells. -/
  sharing : Table SlotId Sharing := {}
  /-- The number that the next slot, kept cell or native handle gets. -/
  next : Nat := 0
  functions : Option Functions := none
  /-- Handles in native code, and their keys. -/
  handles : Table HandleId Cell := {}
  handleKeys : Table String HandleId := {}
  /-- Scripts that wait for a native function to be called. -/
  nativeHooks : Table Signal Script := {}
  profiler : Profiler := .disabled
  /-- The settings of the process, once they are loaded. -/
  settings : Option Settings := none
  environment : Table String Bytes := {}
  /-- The settings file of the process. -/
  file : FileContent := none
  /-- Which events are written, once that is set up. -/
  filter : Option Filter := none
  /-- What happened, newest first. -/
  journal : Journal := []

namespace State

/-- Changes what the thread has to itself. -/
def inThread (s : State) (f : Thread → Thread) : State :=
  { s with thread := f s.thread }

/-- Lets the thread wait for a new one. -/
def startThread (s : State) : State :=
  { s with thread := { began := s.journal.length }, waiting := s.thread :: s.waiting }

/-- Ends the thread and goes back to the one of an earlier state. -/
def endThread (s earlier : State) : State :=
  { s with thread := earlier.thread, waiting := earlier.waiting, ended := s.thread :: s.ended }

/-- Writes an entry into the journal. -/
def note (s : State) (e : Entry) : State :=
  { s with journal := e :: s.journal }

/-- Whether the filter lets an event be written. -/
def writes (s : State) (e : Event) : Bool :=
  match s.filter with
  | some f => f.allows e
  | none => false

/-- A variable of the environment, if its value is a text. -/
def lookup (s : State) : Lookup := fun name =>
  (s.environment.get? name).bind Text.Utf8.decode?

/-! ## Hooks -/

/-- The script that waits for a signal. -/
def hook? (s : State) (g : Signal) : Option Script :=
  match g.realm with
  | .counted => s.thread.hooks.get? g
  | .native => s.nativeHooks.get? g

/-- Lets a script wait for a signal, in place of one that did. -/
def setHook (s : State) (g : Signal) (body : Script) : State :=
  match g.realm with
  | .counted => s.inThread fun t => { t with hooks := t.hooks.insert g body }
  | .native => { s with nativeHooks := s.nativeHooks.insert g body }

def eraseHook (s : State) (g : Signal) : State :=
  match g.realm with
  | .counted => s.inThread fun t => { t with hooks := t.hooks.erase g }
  | .native => { s with nativeHooks := s.nativeHooks.erase g }

end State

end ClaimCells
