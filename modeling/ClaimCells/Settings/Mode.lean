import ClaimCells.Text.Lowercase

/-!
# Refcount modes

How shared cells keep their handle counts, and the names by which a mode can be asked for. Names
are compared in lower case.
-/

namespace ClaimCells

/-- How the handle counts of shared cells are kept. -/
inductive RefcountMode
  /-- Plain counters: activations never run in parallel. -/
  | plain
  /-- Atomic counters: activations may race on a captured variable. -/
  | atomic
deriving DecidableEq, Repr

namespace RefcountMode

/-- The word for the mode in messages. -/
def word : RefcountMode → String
  | plain => "plain"
  | atomic => "atomic"

/-- The name of the mode in written settings. -/
def variant : RefcountMode → String
  | plain => "Plain"
  | atomic => "Atomic"

/-- The lower-case names of a mode. -/
def names : RefcountMode → List String
  | plain => ["plain", "rc", "single-threaded"]
  | atomic => ["atomic", "arc", "threaded"]

/-- The mode that a text names, in whatever case. -/
def parse? (s : String) : Option RefcountMode :=
  [plain, atomic].find? (·.names.contains (Text.lowercase s))

/-- What is said of a text that names no mode. -/
def unknownMessage (s : String) : String :=
  "Unknown refcount mode: " ++ s

end RefcountMode

/-- How the cells were built: the mode of their handle counts, and whether settings can be read
from and written to files. -/
structure Build where
  mode : RefcountMode
  files : Bool
deriving DecidableEq, Repr

namespace Build

/-- The build without optional features. -/
def plain : Build := ⟨.plain, false⟩

/-- The build with every optional feature. -/
def atomic : Build := ⟨.atomic, true⟩

end Build

end ClaimCells
