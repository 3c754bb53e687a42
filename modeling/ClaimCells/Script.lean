import ClaimCells.Codec
import ClaimCells.Failure
import ClaimCells.Settings.File

/-!
# Scripts

A script is a list of operations on claims, cells, settings and statistics. It names claims,
cells and native handles by keys. An operation may leave a script behind that runs when an object
is next acquired, released or freed, and may run one on a thread of its own.
-/

namespace ClaimCells

/-- What happens to the claims of an object. -/
inductive Moment
  | acquired
  | released
  /-- The last claim is gone. -/
  | freed
deriving DecidableEq, Repr

def Moment.word : Moment → String
  | acquired => "acquire"
  | released => "release"
  | freed => "free"

/-- What a script can wait for. -/
structure Signal where
  realm : Realm
  moment : Moment
  object : ObjectId
deriving DecidableEq, Repr

/-- The sets of native functions that can be installed. -/
inductive Library
  | a
  | b
deriving DecidableEq, Repr

def Library.word : Library → String
  | a => "a"
  | b => "b"

/-- Objects of the ledger, and claims that no cell holds. -/
inductive ObjectOp
  /-- A new object, whose claim is kept or left to nobody. -/
  | allocate (kept : Option String)
  | tryAllocate (fault : Option Cause) (kept : String)
  /-- Makes a number usable that may be no object. -/
  | foreign (object : ObjectId)
  | acquire (object : ObjectId)
  | release (object : ObjectId)
  | inspect (object : ObjectId)
  /-- A claim on the object, newly acquired or one that nobody holds. -/
  | claim (object : ObjectId) (acquire : Bool) (kept : String)
  | dropClaim (claim : String)
  /-- Leaves the claim to nobody. -/
  | intoOwned (claim : String)
  | duplicate (claim : String) (kept : String)
  | borrow (claim : String)
  | claimDebug (claim : String)
  | borrowEq (claim other : String)

/-- How a cell is made. -/
inductive Making
  | plain (name : String) (claim : Option String)
  | plainTry (name : String) (fault : Option Cause)
  | parameter (name : String) (claim : Option String)
  | parameterBorrowed (name : String) (object : ObjectId)
  /-- From an object and the document of an ownership mode. -/
  | parameterAdopt (name : String) (object : ObjectId) (mode : Json)
  | temporary
  | shared (name : String) (claim : Option String)
  | sharedTry (name : String) (fault : Option Cause)

/-- What is done with a cell. -/
inductive Verb
  | name
  | state
  | isBound
  | read
  | readOwned (kept : String)
  | assign (claim : String)
  | assignBorrowed (object : ObjectId)
  | clear
  | take (kept : String)
  | debug
  | refcount
  | sameAs (other : String)
  | retain (kept : String)
deriving DecidableEq, Repr

inductive CellOp
  | make (cell : String) (how : Making)
  /-- Uses the cell, or the binding of a nested body to it. -/
  | use (cell : String) (bound : Bool) (verb : Verb)
  | drop (cell : String)
  | release (cell : String)
  | intoInner (cell : String) (kept : String)

/-- The settings at hand. -/
inductive SettingsOp
  | default
  | lookup (values : Table String String)
  | merge (values : Table String String)
  | fromEnvironment
  | mergeEnvironment
  | decode (source : Json.Source)
  | load (file : FileContent)
  | json
  | debug
  | eq (source : Json.Source)
  | validate
  | apply
  | init
  | initWith
  | save

/-- A manager of settings. -/
inductive ManagerOp
  | new
  | init (file : Option FileContent)
  | get
  | profiling
  | update (source : Json.Source)

/-- A type that documents are decoded to. -/
inductive DocumentType
  | refcountMode
  | ownershipMode
  | cellKind
  | cellSettings
  | profilingSettings
deriving DecidableEq, Repr

inductive ProcessOp
  | init
  | initFromEnvironment
  | initLogging (fallback : Option String)
  | shutdown
  | setEnvironment (name : String) (value : Option Text.Utf8.Bytes)
  | parseMode (text : String)
  | activeMode
  | decode (type : DocumentType) (source : Json.Source)

/-- The counters at hand. -/
inductive StatsOp
  | decode (source : Json.Source)
  | record (event : ClaimEvent) (times : Nat)
  | outstanding
  | debug

/-- How a profiler is made. -/
inductive ProfilerStart
  | counting
  | disabled
deriving DecidableEq, Repr

inductive ProfilerOp
  | make (start : ProfilerStart)
  | enable
  | disable
  | reset
  | record (kind : CellKind) (event : ClaimEvent) (times : Nat)
  | report
  | kind (kind : CellKind)
  | stats

/-- Calls from native code. A handle that is left out is null, and so is the object 0. -/
inductive NativeOp
  | install (acquire release : Library)
  | create (kept : Option String) (name : Option Text.Utf8.Bytes) (object : ObjectId)
  | retain (handle : Option String) (kept : Option String)
  | release (handle : Option String)
  | assign (handle : Option String) (object : ObjectId)
  | read (handle : Option String)
  | clear (handle : Option String)
  | isBound (handle : Option String)
  | lastError
  | clearError
  | acquire (object : ObjectId)
  | drop (object : ObjectId)
  | name (handle : Option String)
  | refcount (handle : Option String)
  | sameAs (handle other : Option String)
  | debug (handle : Option String)
  | readOwned (handle : Option String)
  | take (handle : Option String)
  | assignBorrowed (handle : Option String) (object : ObjectId)

inductive Op
  | object (op : ObjectOp)
  | cell (op : CellOp)
  | settings (op : SettingsOp)
  /-- The manager at hand, or the one of the whole process. -/
  | manager (shared : Bool) (op : ManagerOp)
  | process (op : ProcessOp)
  | stats (op : StatsOp)
  /-- The profiler at hand, or the one of the whole process. -/
  | profiler (own : Bool) (op : ProfilerOp)
  | native (op : NativeOp)
  /-- Leaves a script behind for the next such signal. -/
  | hook (signal : Signal) (body : List Op)
  | thread (body : List Op)
  /-- What all cells, claims and objects hold. -/
  | dump

abbrev Script := List Op

/-! ## Size -/

mutual

/-- How many scripts an operation contains. -/
def Op.bodies : Op → Nat
  | .hook _ body => bodiesOf body + 1
  | .thread body => bodiesOf body + 1
  | _ => 0

def bodiesOf : List Op → Nat
  | [] => 0
  | op :: ops => op.bodies + bodiesOf ops

end

end ClaimCells
