import ClaimCells.Ledger
import ClaimCells.Profile
import ClaimCells.Text.Quoted

/-!
# Variable cells

Every cell has a slot: a name, the kind it is counted for, and at most one object on which the
cell owns a claim. Plain, parameter and temporary cells own their slot; a shared cell is a slot
behind any number of handles.

Claims come in two realms: those of the ledger, and those of native objects, which are counted
elsewhere and reached through installed functions.
-/

namespace ClaimCells

/-- Who keeps the count of an object's claims. -/
inductive Realm
  /-- The ledger. -/
  | counted
  /-- The functions that native code installed. -/
  | native
deriving DecidableEq, Repr

/-- A claim on an object. -/
structure Claim where
  realm : Realm
  object : ObjectId
deriving DecidableEq, Repr

/-- How a caller passes an argument to a parameter cell. -/
inductive OwnershipMode
  /-- The caller hands over a claim. -/
  | owned
  /-- The caller keeps its claim. -/
  | borrowed
deriving DecidableEq, Repr

def OwnershipMode.variant : OwnershipMode → String
  | owned => "Owned"
  | borrowed => "Borrowed"

/-- From which side of a capture a variable is reached. -/
inductive Access
  /-- The activation that owns the variable. -/
  | locally
  /-- A nested activation. -/
  | free
deriving DecidableEq, Repr

/-- What is said when a variable without a value is read or deleted. -/
def Access.unboundMessage (a : Access) (name : String) : String :=
  match a with
  | .locally => "local variable '" ++ name ++ "' referenced before assignment"
  | .free => "free variable '" ++ name ++ "' referenced before assignment in enclosing scope"

/-- Why a claim leaves a slot that keeps existing. -/
inductive UnbindReason
  | release
  | transfer
deriving DecidableEq, Repr

def UnbindReason.word : UnbindReason → String
  | release => "Release"
  | transfer => "Transfer"

/-- The variable behind a cell. -/
structure Slot where
  realm : Realm
  kind : CellKind
  name : String
  /-- The object on which the slot owns a claim. -/
  value : Option ObjectId
deriving DecidableEq, Repr

abbrev SlotId := Nat

/-- What a shared cell keeps beside its slot. -/
structure Sharing where
  /-- How many handles there are. -/
  handles : Nat
  /-- How many reads hold the lock at the moment. -/
  readers : Nat := 0
deriving DecidableEq, Repr

/-- The outer shape of a cell that owns its slot. -/
inductive Form
  | plain
  | parameter
  | temporary
deriving DecidableEq, Repr

/-- A cell that someone holds. -/
inductive Cell
  /-- A cell with a slot of its own. -/
  | own (form : Form) (slot : SlotId)
  /-- A handle of a shared cell. -/
  | handle (slot : SlotId) (access : Access)
deriving DecidableEq, Repr

def Cell.slot : Cell → SlotId
  | own _ s => s
  | handle s _ => s

/-- The name of every temporary. -/
def temporaryName : String := "<temporary>"

/-! ## Texts -/

/-- An object of a realm as it is written in debug texts. -/
def Realm.objectText : Realm → ObjectId → String
  | counted, o => ClaimCells.objectText o
  | native, p => "ObjectPtr(0x" ++ String.ofList (Text.hexDigits p) ++ ")"

namespace Slot

/-- The value as it is written in debug texts. -/
def valueText (s : Slot) : String :=
  match s.value with
  | some o => "Some(" ++ s.realm.objectText o ++ ")"
  | none => "None"

def plainText (s : Slot) : String :=
  "PlainCell \x7b name: " ++ Text.quote s.name ++ ", value: " ++ s.valueText ++ " \x7d"

/-- The debug text of a cell with a slot of its own. -/
def ownText (s : Slot) : Form → String
  | .plain => s.plainText
  | .parameter => "ParameterCell(" ++ s.plainText ++ ")"
  | .temporary => "TempCell(" ++ s.valueText ++ ")"

/-- The debug text of a shared cell. -/
def sharedText (s : Slot) (handles : Nat) : String :=
  "SharedCell \x7b name: " ++ Text.quote s.name ++ ", value: " ++ s.valueText
    ++ ", refcount: " ++ toString handles ++ " \x7d"

end Slot

end ClaimCells
