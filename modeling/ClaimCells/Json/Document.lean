import ClaimCells.Json.Cursor

/-!
# Whole JSON documents

`Json.ofText` reads one value that takes up a whole text, with the members of objects as they
stand, and `Json.compact` writes a value without blanks.
-/

namespace ClaimCells.Json

/-! ## Reading -/

/-- Reads a value without brackets. -/
def readScalar (cs : List Char) : Read Json :=
  match cs with
  | [] => .error .cutShort
  | 'n' :: rest => (Cursor.word "ull".toList rest).map (.null, ·)
  | 't' :: rest => (Cursor.word "rue".toList rest).map (.bool true, ·)
  | 'f' :: rest => (Cursor.word "alse".toList rest).map (.bool false, ·)
  | '"' :: rest => (Cursor.string rest).map fun (s, rest) => (.text s, rest)
  | c :: rest =>
    if c = '-' || c.isDigit then
      (Cursor.number (c :: rest)).map fun (n, rest) => (.number n, rest)
    else .error .malformed

mutual

/-- Reads a value. The first number bounds the calls and exceeds twice the length of the text. -/
def readValue : Nat → List Char → Read Json
  | 0, _ => .error .cutShort
  | fuel + 1, cs =>
    match Cursor.skipBlanks cs with
    | '[' :: rest => readElements fuel true [] rest
    | '{' :: rest => readMembers fuel true [] rest
    | cs => readScalar cs

/-- Reads the rest of an array; the elements so far come last first. -/
def readElements : Nat → Bool → List Json → List Char → Read Json
  | 0, _, _, _ => .error .cutShort
  | fuel + 1, first, done, cs =>
    match Cursor.nextElement first cs with
    | .error f => .error f
    | .ok (.close rest) => .ok (.array done.reverse, rest)
    | .ok (.more rest) => match readValue fuel rest with
      | .error f => .error f
      | .ok (v, rest) => readElements fuel false (v :: done) rest

/-- Reads the rest of an object; the members so far come last first. -/
def readMembers : Nat → Bool → List (String × Json) → List Char → Read Json
  | 0, _, _, _ => .error .cutShort
  | fuel + 1, first, done, cs =>
    match Cursor.nextMember first cs with
    | .error f => .error f
    | .ok (.close rest) => .ok (.object done.reverse, rest)
    | .ok (.more rest) => match Cursor.string rest with
      | .error f => .error f
      | .ok (key, rest) => match Cursor.colon rest with
        | .error f => .error f
        | .ok rest => match readValue fuel rest with
          | .error f => .error f
          | .ok (v, rest) => readMembers fuel false ((key, v) :: done) rest

end

/-- The value that a text writes. -/
def ofText (s : String) : Except Fault Json :=
  let cs := s.toList
  match readValue (2 * cs.length + 2) cs with
  | .error f => .error f
  | .ok (v, rest) => (Cursor.finish rest).map fun _ => v

/-! ## Writing -/

/-- A character inside a written string. -/
def writeChar (c : Char) : List Char :=
  if c = '"' then ['\\', '"']
  else if c = '\\' then ['\\', '\\']
  else if c = '\n' then ['\\', 'n']
  else if c = '\r' then ['\\', 'r']
  else if c = '\t' then ['\\', 't']
  else if c = '\x08' then ['\\', 'b']
  else if c = '\x0c' then ['\\', 'f']
  else if c < ' ' then
    let ds := Text.hexDigits c.toNat
    ['\\', 'u'] ++ List.replicate (4 - ds.length) '0' ++ ds
  else [c]

def writeText (s : String) : String :=
  String.ofList (['"'] ++ s.toList.flatMap writeChar ++ ['"'])

def Number.write : Number → String
  | .natural n => toString n
  | .negative n => "-" ++ toString n
  | .floating f => floatText f

mutual

/-- A value written without blanks. -/
def compact : Json → String
  | .null => "null"
  | .bool b => if b then "true" else "false"
  | .number n => n.write
  | .text s => writeText s
  | .array items => "[" ++ ",".intercalate (compactItems items) ++ "]"
  | .object members => "\x7b" ++ ",".intercalate (compactMembers members) ++ "\x7d"

def compactItems : List Json → List String
  | [] => []
  | v :: vs => compact v :: compactItems vs

def compactMembers : List (String × Json) → List String
  | [] => []
  | (k, v) :: ms => (writeText k ++ ":" ++ compact v) :: compactMembers ms

end

/-- A whole number. -/
def ofNat (n : Nat) : Json :=
  .number (.natural (UInt64.ofNat n))

end ClaimCells.Json
