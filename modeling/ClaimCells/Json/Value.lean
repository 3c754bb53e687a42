import ClaimCells.Json.Number
import ClaimCells.Text.Quoted

/-!
# JSON values and what can be wrong with them

A value keeps the members of an object in order and keeps repeated keys; `sorted` orders them by
key and lets the last of equal keys win. A `Fault` says why a document was not accepted: it is no
JSON, it ends too early, or it is JSON of another shape than was asked for.
-/

namespace ClaimCells

inductive Json
  | null
  | bool (b : Bool)
  | number (n : Json.Number)
  | text (s : String)
  | array (items : List Json)
  | object (members : List (String × Json))

namespace Json

/-- What stands where something else was asked for. -/
inductive Found
  | null
  | bool (b : Bool)
  | number (n : Number)
  | text (s : String)
  | sequence
  | map

/-- Why a document was not accepted. -/
inductive Fault
  /-- The text is no JSON. -/
  | malformed
  /-- The text ends inside a value. -/
  | cutShort
  | invalidType (found : Found) (expected : String)
  | invalidValue (found : Found) (expected : String)
  | invalidLength (length : Nat) (expected : String)
  | unknownVariant (name : String) (known : List String)
  | duplicateField (name : String)
  | missingField (name : String)

/-- What a value is, for a complaint about it. -/
def found : Json → Found
  | .null => .null
  | .bool b => .bool b
  | .number n => .number n
  | .text s => .text s
  | .array _ => .sequence
  | .object _ => .map

/-! ## Members in order -/

/-- Sets a key in a list that is sorted by key. -/
def insertMember (k : String) (v : Json) : List (String × Json) → List (String × Json)
  | [] => [(k, v)]
  | (k', v') :: rest =>
    if k = k' then (k, v) :: rest
    else if k < k' then (k, v) :: (k', v') :: rest
    else (k', v') :: insertMember k v rest

mutual

/-- The value with the members of every object sorted by key, the last of equal keys kept. -/
def sorted : Json → Json
  | .array items => .array (sortedItems items)
  | .object members => .object (sortedMembers members [])
  | v => v

def sortedItems : List Json → List Json
  | [] => []
  | v :: vs => sorted v :: sortedItems vs

def sortedMembers : List (String × Json) → List (String × Json) → List (String × Json)
  | [], done => done
  | (k, v) :: rest, done => sortedMembers rest (insertMember k (sorted v) done)

end

/-! ## Texts -/

/-- A name in a message. -/
def tick (s : String) : String :=
  "\x60" ++ s ++ "\x60"

def Found.describe : Found → String
  | .null => "null"
  | .bool b => "boolean " ++ tick (if b then "true" else "false")
  | .number (.natural n) => "integer " ++ tick (toString n)
  | .number (.negative n) => "integer " ++ tick ("-" ++ toString n)
  | .number (.floating f) => "floating point " ++ tick (Number.floatText f)
  | .text s => "string " ++ Text.quote s
  | .sequence => "sequence"
  | .map => "map"

/-- The names that were possible. -/
def oneOf : List String → String
  | [a] => tick a
  | [a, b] => tick a ++ " or " ++ tick b
  | names => "one of " ++ ", ".intercalate (names.map tick)

/-- What is said of a document of another shape; a text that is no JSON has no such message. -/
def Fault.message? : Fault → Option String
  | .malformed | .cutShort => none
  | .invalidType f expected => some ("invalid type: " ++ f.describe ++ ", expected " ++ expected)
  | .invalidValue f expected => some ("invalid value: " ++ f.describe ++ ", expected " ++ expected)
  | .invalidLength n expected =>
    some ("invalid length " ++ toString n ++ ", expected " ++ expected)
  | .unknownVariant name known =>
    some ("unknown variant " ++ tick name ++ ", expected " ++ oneOf known)
  | .duplicateField name => some ("duplicate field " ++ tick name)
  | .missingField name => some ("missing field " ++ tick name)

end Json

end ClaimCells
