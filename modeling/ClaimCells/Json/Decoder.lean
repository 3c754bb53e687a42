import ClaimCells.Json.Cursor

/-!
# Decoders

A decoder reads one type from two sources: from a JSON value, and from JSON text as far as it has
been read. From text the first fault wins wherever it stands, so a value of the wrong shape is
reported even when the text breaks off later; in a value the members of an object come in the
order of the value.

A record is described by its fields. It is written as an object, whose unknown members are
skipped, or as an array of its fields in order. A choice is written as one of its names, or as an
object whose only member has that name and the value null.
-/

namespace ClaimCells.Json

structure Decoder (α : Type) where
  ofValue : Json → Except Fault α
  ofText : List Char → Read α

namespace Decoder

variable {α β : Type}

def map (f : α → β) (d : Decoder α) : Decoder β where
  ofValue v := (d.ofValue v).map f
  ofText cs := (d.ofText cs).map fun (a, rest) => (f a, rest)

/-- Reads a whole text. -/
def decodeText (d : Decoder α) (s : String) : Except Fault α :=
  match d.ofText s.toList with
  | .error f => .error f
  | .ok (a, rest) => (Cursor.finish rest).map fun _ => a

/-! ## Scalars -/

def bool : Decoder Bool where
  ofValue
    | .bool b => .ok b
    | v => .error (.invalidType v.found "a boolean")
  ofText cs := match Cursor.skipBlanks cs with
    | 't' :: rest => (Cursor.word "rue".toList rest).map (true, ·)
    | 'f' :: rest => (Cursor.word "alse".toList rest).map (false, ·)
    | cs => .error (Cursor.mismatch "a boolean" cs)

/-- The complaint about a number that is no word of 64 bits. -/
def wordFault : Number → Fault
  | .negative n => .invalidValue (.number (.negative n)) "u64"
  | n => .invalidType (.number n) "u64"

/-- Words of 64 bits. -/
def word64 : Decoder UInt64 where
  ofValue
    | .number (.natural n) => .ok n
    | .number n => .error (wordFault n)
    | v => .error (.invalidType v.found "u64")
  ofText cs := match Cursor.skipBlanks cs with
    | c :: rest =>
      if c = '-' || c.isDigit then match Cursor.number (c :: rest) with
        | .ok (.natural n, rest) => .ok (n, rest)
        | .ok (n, _) => .error (wordFault n)
        | .error f => .error f
      else .error (Cursor.mismatch "u64" (c :: rest))
    | [] => .error .cutShort

/-- The value null. -/
def unit : Decoder Unit where
  ofValue
    | .null => .ok ()
    | v => .error (.invalidType v.found "unit")
  ofText cs := match Cursor.skipBlanks cs with
    | 'n' :: rest => (Cursor.word "ull".toList rest).map ((), ·)
    | cs => .error (Cursor.mismatch "unit" cs)

/-- Null, or what the decoder reads. -/
def optional (d : Decoder α) : Decoder (Option α) where
  ofValue
    | .null => .ok none
    | v => (d.ofValue v).map some
  ofText cs := match Cursor.skipBlanks cs with
    | 'n' :: rest => (Cursor.word "ull".toList rest).map (none, ·)
    | cs => (d.ofText cs).map fun (a, rest) => (some a, rest)

/-! ## Choices -/

/-- The value that a name stands for. -/
def variant (choices : List (String × α)) (name : String) : Except Fault α :=
  match choices.lookup name with
  | some a => .ok a
  | none => .error (.unknownVariant name (choices.map Prod.fst))

/-- One of several names. -/
def choice (choices : List (String × α)) : Decoder α where
  ofValue
    | .text s => variant choices s
    | .object [(name, content)] => do
      let a ← variant choices name
      unit.ofValue content
      .ok a
    | .object _ => .error (.invalidValue .map "map with a single key")
    | v => .error (.invalidType v.found "string or map")
  ofText cs := match Cursor.skipBlanks cs with
    | [] => .error .cutShort
    | '"' :: rest => (Cursor.string rest).andThen fun name rest =>
      (variant choices name).map (·, rest)
    | '{' :: rest =>
      let name : Read String := match Cursor.skipBlanks rest with
        | '"' :: rest => Cursor.string rest
        | [] => .error .cutShort
        | _ => .error .malformed
      name.andThen fun name rest => do
        let a ← variant choices name
        let rest ← Cursor.colon rest
        Read.andThen (unit.ofText rest) fun _ rest => match Cursor.skipBlanks rest with
          | '}' :: rest => .ok (a, rest)
          | [] => .error .cutShort
          | _ => .error .malformed
    | _ => .error .malformed

/-! ## Records -/

/-- One field of a record: how to read it, and where to put it. -/
structure Field (ρ : Type) where
  name : String
  update : Decoder (ρ → ρ)

/-- A field that is stored by `set`. -/
def Field.stored {ρ : Type} (name : String) (d : Decoder α) (set : α → ρ → ρ) : Field ρ :=
  ⟨name, d.map set⟩

/-- A record type: its name, the values of fields that are left out, and whether any may be. -/
structure Record (ρ : Type) where
  name : String
  start : ρ
  fields : List (Field ρ)
  /-- Whether every field must be given. -/
  strict : Bool := false

namespace Record

variable {ρ : Type} (r : Record ρ)

def expected : String :=
  "struct " ++ r.name

/-- The complaint about an array that ends before its fields do. -/
def tooShort (length : Nat) : Fault :=
  .invalidLength length (r.expected ++ " with " ++ toString r.fields.length ++ " elements")

def field? (name : String) : Option (Field ρ) :=
  r.fields.find? (·.name = name)

/-- The complaint about an object without a field that must be given, if there is one. -/
def missing (seen : List String) : Option Fault :=
  if r.strict then
    (r.fields.find? fun f => !seen.contains f.name).map fun f => .missingField f.name
  else none

/-- The record, once all its members were read. -/
def complete (seen : List String) (value : ρ) : Except Fault ρ :=
  match r.missing seen with
  | some f => .error f
  | none => .ok value

/-! ### From values -/

/-- Reads members in order onto a record. -/
def members : List (String × Json) → List String → ρ → Except Fault ρ
  | [], seen, value => r.complete seen value
  | (key, v) :: rest, seen, value =>
    match r.field? key with
    | none => members rest seen value
    | some f =>
      if seen.contains key then .error (.duplicateField key)
      else match f.update.ofValue v with
        | .error fault => .error fault
        | .ok set => members rest (key :: seen) (set value)

/-- Reads elements in order onto a record, each for one of the fields that are left. -/
def elements (total : Nat) : List (Field ρ) → List Json → ρ → Except Fault ρ
  | [], [], value => .ok value
  | [], _ :: _, _ => .error (.invalidLength total "fewer elements in array")
  | _ :: _, [], value => if r.strict then .error (r.tooShort total) else .ok value
  | f :: fs, v :: vs, value => match f.update.ofValue v with
    | .error fault => .error fault
    | .ok set => elements total fs vs (set value)

def ofValue : Json → Except Fault ρ
  | .object ms => r.members ms [] r.start
  | .array vs => r.elements vs.length r.fields vs r.start
  | v => .error (.invalidType v.found r.expected)

/-! ### From text -/

/-- Reads the members of an object after its opening brace. The first number bounds their count
and is at least the length of the text. -/
def membersText : Nat → Bool → List String → ρ → List Char → Read ρ
  | 0, _, _, _, _ => .error .cutShort
  | fuel + 1, first, seen, value, cs =>
    match Cursor.nextMember first cs with
    | .error fault => .error fault
    | .ok (.close rest) => (r.complete seen value).map (·, rest)
    | .ok (.more rest) => (Cursor.string rest).andThen fun key rest =>
      match r.field? key with
      | none => match (Cursor.colon rest).bind Cursor.skip with
        | .error fault => .error fault
        | .ok rest => membersText fuel false seen value rest
      | some f =>
        if seen.contains key then .error (.duplicateField key)
        else match (Cursor.colon rest).bind f.update.ofText with
          | .error fault => .error fault
          | .ok (set, rest) => membersText fuel false (key :: seen) (set value) rest

/-- Reads the elements of an array after its opening bracket. -/
def elementsText : List (Field ρ) → Nat → ρ → List Char → Read ρ
  | [], _, value, cs => match Cursor.skipBlanks cs with
    | ']' :: rest => .ok (value, rest)
    | [] => .error .cutShort
    | _ => .error .malformed
  | f :: fs, count, value, cs =>
    match Cursor.nextElement (count = 0) cs with
    | .error fault => .error fault
    | .ok (.close rest) =>
      if r.strict then .error (r.tooShort count) else .ok (value, rest)
    | .ok (.more rest) => match f.update.ofText rest with
      | .error fault => .error fault
      | .ok (set, rest) => elementsText fs (count + 1) (set value) rest

def ofText (cs : List Char) : Read ρ :=
  match Cursor.skipBlanks cs with
  | '{' :: rest => r.membersText (rest.length + 1) true [] r.start rest
  | '[' :: rest => r.elementsText r.fields 0 r.start rest
  | cs => .error (Cursor.mismatch r.expected cs)

end Record

/-- The decoder of a record type. -/
def record {ρ : Type} (r : Record ρ) : Decoder ρ where
  ofValue := r.ofValue
  ofText := r.ofText

end Decoder

end ClaimCells.Json
