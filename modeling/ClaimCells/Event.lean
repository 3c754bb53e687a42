import ClaimCells.Failure

/-!
# Events

What cells, settings and statistics report while they work. An event has a level, a target (the
part of the program that reports it), a message and fields. `Event.text` writes level, message
and fields on one line.
-/

namespace ClaimCells

/-- How much an event matters; earlier ones matter more. -/
inductive Level
  | error
  | warn
  | info
  | debug
  | trace
deriving DecidableEq, Repr

namespace Level

def rank : Level → Nat
  | error => 1
  | warn => 2
  | info => 3
  | debug => 4
  | trace => 5

def word : Level → String
  | error => "ERROR"
  | warn => "WARN"
  | info => "INFO"
  | debug => "DEBUG"
  | trace => "TRACE"

end Level

inductive Event
  | constructed (kind : CellKind) (name : String) (bound : Bool)
  | assigned (kind : CellKind) (name : String) (rebound : Bool)
  | unbound (kind : CellKind) (name : String) (reason : UnbindReason)
  | destroyedBound (kind : CellKind) (name : String)
  | retained (name : String) (handles : Nat)
  | released (name : String) (handles : Nat)
  | freed (name : String) (bound : Bool)
  | violated (i : Invariant)
  /-- A call from native code found no value. -/
  | accessFailed (e : CellError)
  | configured (mode : RefcountMode) (profiling : Bool)
  /-- The settings found at the start cannot be served. -/
  | fallback (e : SettingsError)
  | summary (kind : CellKind) (stats : KindStats) (outstanding : UInt64)
  | leaking (kind : CellKind) (outstanding : UInt64)
  | ready (mode : RefcountMode)
deriving DecidableEq, Repr

namespace Event

def level : Event → Level
  | constructed .. | assigned .. | unbound .. | destroyedBound .. => .trace
  | retained .. | released .. | freed .. => .trace
  | violated _ => .error
  | accessFailed _ | fallback _ | leaking .. => .warn
  | configured .. => .debug
  | summary .. | ready _ => .info

/-- The part of the program that reports the event. -/
def target : Event → String
  | constructed .. | assigned .. | unbound .. | destroyedBound .. => "varcell_runtime::cells"
  | retained .. | released .. | freed .. => "varcell_runtime::cells::shared"
  | violated _ => "varcell_runtime::error"
  | accessFailed _ => "varcell_runtime::ffi"
  | configured .. | fallback _ => "varcell_runtime::config"
  | summary .. => "varcell_metrics::profiler"
  | leaking .. => "varcell_runtime"
  | ready _ => "varcell"

def message : Event → String
  | constructed .. => "cell constructed"
  | assigned .. => "cell assigned"
  | unbound .. => "cell unbound"
  | destroyedBound .. => "cell destroyed while bound"
  | retained .. => "shared cell retained"
  | released .. => "shared cell released"
  | freed .. => "shared cell freed"
  | violated _ => "variable cell invariant violated"
  | accessFailed _ => "variable cell access failed"
  | configured .. => "variable cell runtime configured"
  | fallback _ => "falling back to default variable cell configuration"
  | summary .. => "cell claim summary"
  | leaking .. => "variable cells still hold claims at shutdown"
  | ready _ => "variable cell runtime ready"

/-- The fields as they are written, in order. -/
def fields : Event → List String
  | constructed k n b => ["kind=" ++ k.word, "name=" ++ n, "bound=" ++ boolText b]
  | assigned k n r => ["kind=" ++ k.word, "name=" ++ n, "rebound=" ++ boolText r]
  | unbound k n r => ["kind=" ++ k.word, "name=" ++ n, "reason=" ++ r.word]
  | destroyedBound k n => ["kind=" ++ k.word, "name=" ++ n]
  | retained n h => ["name=" ++ n, "refcount=" ++ toString h]
  | released n h => ["name=" ++ n, "refcount=" ++ toString h]
  | freed n b => ["name=" ++ n, "bound=" ++ boolText b]
  | violated i => [i.message]
  | accessFailed e => ["error=" ++ e.message]
  | configured m p => ["refcount_mode=" ++ m.word, "profiling=" ++ boolText p]
  | fallback e => ["error=" ++ e.message]
  | summary k s o =>
    ["kind=" ++ k.word, "constructed=" ++ toString s.constructed, "bound=" ++ toString s.bound,
      "released=" ++ toString s.released, "transferred=" ++ toString s.transferred,
      "unbound=" ++ toString s.unbound, "freed=" ++ toString s.freed,
      "outstanding=" ++ toString o]
  | leaking k o => ["kind=" ++ k.word, "outstanding=" ++ toString o]
  | ready m => ["refcount_mode=" ++ m.word]

/-- The line that is written for the event. -/
def text (e : Event) : String :=
  " ".intercalate (e.level.word :: e.message :: e.fields)

end Event

end ClaimCells
