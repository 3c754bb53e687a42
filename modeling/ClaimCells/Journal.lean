import ClaimCells.Event
import ClaimCells.Script

/-!
# The journal

Everything that happens is written down in order: what the ledger and native functions did, which
events were reported, which scripts were set off, and what the operations in them answered. It
also says when a claim comes in from, or goes out to, an owner that nobody keeps count of, and what
is done to each variable and handle.
-/

namespace ClaimCells

/-- The counters of a profiler. -/
structure ProfileReport where
  enabled : Bool
  kinds : List KindStats
  outstanding : UInt64
  leaking : List (CellKind × UInt64)

/-- What a dump says of a cell. -/
inductive CellView
  | own (value : Option ObjectId)
  | shared (value : Option ObjectId) (handles : Nat)
  /-- An operation in progress changes the cell. -/
  | busy
deriving DecidableEq, Repr

/-- What an operation answers. -/
inductive Answer
  | nothing
  | object (o : ObjectId)
  | flag (b : Bool)
  | text (s : String)
  | count (n : Nat)
  | pointer (o : Option ObjectId)
  /-- The claims on an object, whether it is freed, and its text. -/
  | inspected (claims : Nat) (freed : Bool) (text : String)
  /-- A borrowed object, whether it equals a copy, and its text. -/
  | borrowed (o : ObjectId) (same : Bool) (text : String)
  /-- The handles of a cell, and whether a binding leads to it. -/
  | bound (handles : Nat) (same : Bool)
  /-- Two texts of one value. -/
  | texts (first second : String)
  | profiling (settings : String) (enabled : Bool)
  | counters (s : KindStats)
  | outstanding (claims : UInt64) (leaks : Bool)
  | profile (r : ProfileReport)
  | dump (cells : List (String × CellView)) (claims : List (String × ObjectId))
      (objects : List (ObjectId × Nat))

/-- What a finished operation leaves. -/
abbrev Reply := Except Failure Answer

/-- What is done to variables, handles and kept claims. -/
inductive Deed
  /-- A slot came to be. -/
  | made (id : SlotId) (v : Slot)
  /-- A slot took over a claim, or its claim was taken out of it. -/
  | set (id : SlotId) (value : Option ObjectId)
  /-- A slot went away. -/
  | ended (id : SlotId)
  /-- A slot was put behind its first handle. -/
  | shared (id : SlotId)
  /-- Another handle was made. -/
  | retained (id : SlotId)
  /-- A handle was given up. -/
  | dropped (id : SlotId)
  /-- A claim was put under a key. -/
  | handed (key : String) (o : ObjectId)
deriving DecidableEq

inductive Entry
  | allocated (o : ObjectId)
  /-- The ledger counted one more claim. -/
  | acquired (o : ObjectId)
  | released (o : ObjectId)
  /-- The ledger refused. -/
  | refused (m : Misuse)
  /-- An installed function was called for an object. -/
  | called (library : Library) (moment : Moment) (o : ObjectId)
  /-- A claim came in from an owner that nobody keeps count of. -/
  | adopted (c : Claim)
  /-- A claim went out to such an owner. -/
  | disowned (c : Claim)
  /-- A cell was given a number of its own; a handle that was retained says from which one. -/
  | opened (id : Nat) (parent : Option Nat)
  | did (d : Deed)
  /-- The counters of the process were put in place, or switched on or off. -/
  | tuned (p : Profiler)
  /-- An event, and whether the filter at the time lets it be written. -/
  | event (e : Event) (written : Bool)
  /-- A script was set off. -/
  | hook (s : Signal)
  /-- An operation of such a script, or of a thread, came to an end. -/
  | answered (r : Reply)

abbrev Journal := List Entry

namespace Entry

/-- The line of an entry in a log, events apart. -/
def line? : Entry → Option String
  | acquired o => some ("acquire " ++ toString o)
  | released o => some ("release " ++ toString o)
  | called l m o => some (l.word ++ "." ++ m.word ++ " " ++ toString o)
  | hook s => some ("hook " ++ s.moment.word ++ " " ++ toString s.object)
  | _ => none

end Entry

/-- An item of a log: a line, or the reply of an operation. -/
inductive LogItem
  | line (s : String)
  | reply (r : Reply)

/-- The log that a journal shows, with or without events. -/
def Journal.log (j : Journal) (events : Bool) : List LogItem :=
  j.filterMap fun
    | .answered r => some (.reply r)
    | .event e _ => if events then some (.line e.text) else none
    | e => e.line?.map .line

/-- What was done, newest first. -/
def Journal.deeds (j : Journal) : List Deed :=
  j.filterMap fun
    | .did d => some d
    | _ => none

/-- The lines that were written while the journal was kept. -/
def Journal.written (j : Journal) : List String :=
  j.filterMap fun
    | .event e true => some e.text
    | _ => none

end ClaimCells
