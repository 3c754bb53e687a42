import ClaimCells.Json.Value
import ClaimCells.Text.Utf8

/-!
# Reading JSON text

Readers take the characters that are left and answer a value with the characters after it. A value
that nobody asked for is skipped: `skip` checks the grammar only, so a number may be too large and
half of a surrogate pair may stand alone where `number` and `string` refuse them.
-/

namespace ClaimCells.Json

/-- The outcome of a reader: a value and the characters after it. -/
abbrev Read (α : Type) := Except Fault (α × List Char)

/-- Goes on with what was read and what is left. -/
def Read.andThen {α β : Type} (r : Read α) (next : α → List Char → Except Fault β) :
    Except Fault β :=
  match r with
  | .ok (a, rest) => next a rest
  | .error f => .error f

namespace Cursor

def isBlank (c : Char) : Bool :=
  c = ' ' || c = '\n' || c = '\t' || c = '\r'

def skipBlanks (cs : List Char) : List Char :=
  cs.dropWhile isBlank

/-- Reads the rest of a word whose first letter was read. -/
def word : (expected : List Char) → List Char → Except Fault (List Char)
  | [], cs => .ok cs
  | _ :: _, [] => .error .cutShort
  | e :: es, c :: cs => if c = e then word es cs else .error .malformed

/-! ## Strings -/

def hexValue? (c : Char) : Option Nat :=
  if '0' ≤ c ∧ c ≤ '9' then some (c.toNat - '0'.toNat)
  else if 'a' ≤ c ∧ c ≤ 'f' then some (c.toNat - 'a'.toNat + 10)
  else if 'A' ≤ c ∧ c ≤ 'F' then some (c.toNat - 'A'.toNat + 10)
  else none

/-- What is left of a text after at least one character of it. -/
abbrev Shorter (cs : List Char) := { rest : List Char // rest.length < cs.length }

/-- Reads four hexadecimal digits. Fewer than four bytes are an early end, whatever they are. -/
def hex4 (cs : List Char) : Except Fault (Nat × Shorter cs) :=
  match cs with
  | a :: b :: c :: d :: rest =>
    match hexValue? a, hexValue? b, hexValue? c, hexValue? d with
    | some a, some b, some c, some d =>
      .ok (((a * 16 + b) * 16 + c) * 16 + d, ⟨rest, by simp only [List.length_cons]; omega⟩)
    | _, _, _, _ => .error .malformed
  | cs => .error (if Text.Utf8.sizeOf cs < 4 then .cutShort else .malformed)

/-- Reads the second half of a surrogate pair. -/
def lowSurrogate (high : Nat) (cs : List Char) : Except Fault (Char × Shorter cs) :=
  match cs with
  | '\\' :: 'u' :: rest =>
    match hex4 rest with
    | .ok (low, ⟨left, _⟩) =>
      if 0xDC00 ≤ low ∧ low ≤ 0xDFFF then
        .ok (Char.ofNat ((high - 0xD800) * 0x400 + (low - 0xDC00) + 0x10000),
          ⟨left, by simp only [List.length_cons]; omega⟩)
      else .error .malformed
    | .error f => .error f
  | [] | ['\\'] => .error .cutShort
  | _ => .error .malformed

/-- Reads what follows a backslash. With `pairs` a surrogate must have its other half. -/
def escape (pairs : Bool) (cs : List Char) : Except Fault (Char × Shorter cs) :=
  match cs with
  | [] => .error .cutShort
  | 'u' :: rest =>
    match hex4 rest with
    | .ok (n, ⟨left, h⟩) =>
      if !pairs || n < 0xD800 || 0xDFFF < n then
        .ok (Char.ofNat n, ⟨left, by simp only [List.length_cons]; omega⟩)
      else if 0xDC00 ≤ n then .error .malformed
      else match lowSurrogate n left with
        | .ok (c, ⟨left', h'⟩) => .ok (c, ⟨left', by simp only [List.length_cons]; omega⟩)
        | .error f => .error f
    | .error f => .error f
  | c :: rest =>
    let plain (d : Char) : Except Fault (Char × Shorter (c :: rest)) :=
      .ok (d, ⟨rest, by simp⟩)
    match c with
    | '"' => plain '"'
    | '\\' => plain '\\'
    | '/' => plain '/'
    | 'b' => plain '\x08'
    | 'f' => plain '\x0c'
    | 'n' => plain '\n'
    | 'r' => plain '\r'
    | 't' => plain '\t'
    | _ => .error .malformed

/-- Reads a string up to its closing quote; the characters so far come last first. -/
def stringTail (pairs : Bool) (done : List Char) (cs : List Char) : Read String :=
  match cs with
  | [] => .error .cutShort
  | '"' :: rest => .ok (String.ofList done.reverse, rest)
  | '\\' :: rest =>
    match escape pairs rest with
    | .ok (c, ⟨left, _h⟩) => stringTail pairs (c :: done) left
    | .error f => .error f
  | c :: rest => if c < ' ' then .error .malformed else stringTail pairs (c :: done) rest
termination_by cs.length
decreasing_by all_goals (simp only [List.length_cons]; omega)

/-- Reads a string whose opening quote was read. -/
def string (cs : List Char) : Read String :=
  stringTail true [] cs

/-! ## Numbers -/

/-- Reads the digits of a fraction or an exponent, of which there must be one. `ended` is the
fault of a text that ends before it. -/
def digits (ended : Fault) (cs : List Char) : Read (List Char) :=
  match cs.takeWhile Char.isDigit, cs with
  | [], [] => .error ended
  | [], _ :: _ => .error .malformed
  | ds, cs => .ok (ds, cs.dropWhile Char.isDigit)

/-- Reads an exponent, if one follows. -/
def exponent (ended : Fault) (p : Number.Parts) (cs : List Char) : Read Number.Parts :=
  let tail (negative : Bool) (cs : List Char) : Read Number.Parts :=
    (digits ended cs).map fun (ds, rest) =>
      ({ p with exponent := some (negative, ds), floating := true }, rest)
  match cs with
  | 'e' :: '+' :: rest | 'E' :: '+' :: rest => tail false rest
  | 'e' :: '-' :: rest | 'E' :: '-' :: rest => tail true rest
  | 'e' :: rest | 'E' :: rest => tail false rest
  | cs => .ok (p, cs)

/-- Reads a number after its sign. -/
def numberParts (ended : Fault) (negative : Bool) (cs : List Char) : Read Number.Parts :=
  match digits ended cs with
  | .error f => .error f
  | .ok (whole, rest) =>
    if whole.length ≠ 1 ∧ whole.head? = some '0' then .error .malformed
    else
      let p : Number.Parts := { negative, whole }
      match rest with
      | '.' :: rest =>
        match digits ended rest with
        | .error f => .error f
        | .ok (fraction, rest) => exponent ended { p with fraction, floating := true } rest
      | rest => exponent ended p rest

/-- Reads a number, its sign included. -/
def number (cs : List Char) : Read Number :=
  let parts := match cs with
    | '-' :: rest => numberParts .cutShort true rest
    | cs => numberParts .cutShort false cs
  match parts with
  | .error f => .error f
  | .ok (p, rest) => match Number.ofParts? p with
    | some n => .ok (n, rest)
    | none => .error .malformed

/-! ## Values nobody asked for -/

/-- Skips a number, a word or a string. -/
def skipScalar (cs : List Char) : Except Fault (List Char) :=
  match cs with
  | [] => .error .cutShort
  | 'n' :: rest => word "ull".toList rest
  | 't' :: rest => word "rue".toList rest
  | 'f' :: rest => word "alse".toList rest
  | '"' :: rest => (stringTail false [] rest).map (·.2)
  | '-' :: rest => (numberParts .malformed true rest).map (·.2)
  | c :: rest =>
    if c.isDigit then (numberParts .malformed false (c :: rest)).map (·.2) else .error .malformed

/-- Reads the colon after a key. -/
def colon (cs : List Char) : Except Fault (List Char) :=
  match skipBlanks cs with
  | ':' :: rest => .ok rest
  | [] => .error .cutShort
  | _ => .error .malformed

/-- What stands before the next element of an array or the next member of an object. -/
inductive Next
  /-- The bracket that closes it. -/
  | close (rest : List Char)
  /-- An element or member that begins here. -/
  | more (rest : List Char)

/-- Looks for the next element of an array. `first` says that none was read yet. -/
def nextElement (first : Bool) (cs : List Char) : Except Fault Next :=
  match skipBlanks cs with
  | [] => .error .cutShort
  | ']' :: rest => .ok (.close rest)
  | c :: rest =>
    if first then .ok (.more (c :: rest))
    else if c = ',' then
      match skipBlanks rest with
      | [] => .error .cutShort
      | ']' :: _ => .error .malformed
      | rest => .ok (.more rest)
    else .error .malformed

/-- Looks for the next key of an object and reads its opening quote. -/
def nextMember (first : Bool) (cs : List Char) : Except Fault Next :=
  let key : List Char → Except Fault Next
    | [] => .error .cutShort
    | '"' :: rest => .ok (.more rest)
    | _ => .error .malformed
  match skipBlanks cs with
  | [] => .error .cutShort
  | '}' :: rest => .ok (.close rest)
  | c :: rest =>
    if first then key (c :: rest)
    else if c = ',' then key (skipBlanks rest)
    else .error .malformed

mutual

/-- Skips a value. The first number bounds the calls and exceeds twice the length of the text. -/
def skipValue : Nat → List Char → Except Fault (List Char)
  | 0, _ => .error .cutShort
  | fuel + 1, cs =>
    match skipBlanks cs with
    | '[' :: rest => skipElements fuel true rest
    | '{' :: rest => skipMembers fuel true rest
    | cs => skipScalar cs

/-- Skips the rest of an array. -/
def skipElements : Nat → Bool → List Char → Except Fault (List Char)
  | 0, _, _ => .error .cutShort
  | fuel + 1, first, cs =>
    match nextElement first cs with
    | .error f => .error f
    | .ok (.close rest) => .ok rest
    | .ok (.more rest) => match skipValue fuel rest with
      | .error f => .error f
      | .ok rest => skipElements fuel false rest

/-- Skips the rest of an object. -/
def skipMembers : Nat → Bool → List Char → Except Fault (List Char)
  | 0, _, _ => .error .cutShort
  | fuel + 1, first, cs =>
    match nextMember first cs with
    | .error f => .error f
    | .ok (.close rest) => .ok rest
    | .ok (.more rest) => match stringTail false [] rest with
      | .error f => .error f
      | .ok (_, rest) => match colon rest with
        | .error f => .error f
        | .ok rest => match skipValue fuel rest with
          | .error f => .error f
          | .ok rest => skipMembers fuel false rest

end

/-- Skips a value. -/
def skip (cs : List Char) : Except Fault (List Char) :=
  skipValue (2 * cs.length + 2) cs

/-! ## Complaints -/

/-- The complaint about a value of another shape than was asked for. A scalar is read to its end
first, and if that fails, so does the complaint. -/
def mismatch (expected : String) (cs : List Char) : Fault :=
  let complain (found : Found) : Fault := .invalidType found expected
  let after (tail : List Char) (rest : List Char) (found : Found) : Fault :=
    match word tail rest with
    | .ok _ => complain found
    | .error f => f
  match cs with
  | [] => .cutShort
  | 'n' :: rest => after "ull".toList rest .null
  | 't' :: rest => after "rue".toList rest (.bool true)
  | 'f' :: rest => after "alse".toList rest (.bool false)
  | '"' :: rest => match string rest with
    | .ok (s, _) => complain (.text s)
    | .error f => f
  | '[' :: _ => complain .sequence
  | '{' :: _ => complain .map
  | c :: rest =>
    if c = '-' || c.isDigit then
      match number (c :: rest) with
      | .ok (n, _) => complain (.number n)
      | .error f => f
    else .malformed

/-- Accepts the end of the text. -/
def finish (cs : List Char) : Except Fault Unit :=
  match skipBlanks cs with
  | [] => .ok ()
  | _ => .error .malformed

end Cursor

end ClaimCells.Json
