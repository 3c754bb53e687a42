import ClaimCells.Json.Cursor
import ClaimCells.Toml.Value

/-!
# Reading TOML

`Toml.ofText?` reads a document of TOML 1.0, or refuses it. Readers take the characters that are
left, and answer with a value and the characters after it. Arrays and inline tables may be nested
up to `Toml.depthLimit`, and so may the tables that a key names.
-/

namespace ClaimCells.Toml

/-- How deep brackets and braces may be nested, and how many parts a key may have. -/
def depthLimit : Nat := 79

namespace Reader

/-! ## Blanks and line ends -/

def skipBlanks (cs : List Char) : List Char :=
  cs.dropWhile fun c => c = ' ' || c = '\t'

/-- Whether a character may stand in a comment or between quotes. -/
def isPrintable (c : Char) : Bool :=
  c = '\t' || (' ' ≤ c && c ≠ '\x7f')

/-- Skips a comment, if one begins here. -/
def skipComment : List Char → List Char
  | '#' :: rest => rest.dropWhile isPrintable
  | cs => cs

def newline? : List Char → Option (List Char)
  | '\n' :: rest => some rest
  | '\r' :: '\n' :: rest => some rest
  | _ => none

/-- Reads up to the next line: blanks and a comment, then a line break or the end. -/
def lineEnd (cs : List Char) : Option (List Char) :=
  match skipComment (skipBlanks cs) with
  | [] => some []
  | cs => newline? cs

/-- Skips blanks, comments and line breaks. A comment must end with its line. -/
def skipLines : Nat → List Char → Option (List Char)
  | 0, cs => some cs
  | fuel + 1, cs =>
    let cs := skipBlanks cs
    match newline? cs with
    | some rest => skipLines fuel rest
    | none => match cs with
      | '#' :: _ => (newline? (skipComment cs)).bind (skipLines fuel)
      | cs => some cs

/-! ## Strings -/

/-- Reads `n` hexadecimal digits. -/
def hex : Nat → Nat → List Char → Option (Nat × List Char)
  | 0, value, cs => some (value, cs)
  | _ + 1, _, [] => none
  | n + 1, value, c :: cs => do hex n (value * 16 + (← Json.Cursor.hexValue? c)) cs

/-- A character by its number. -/
def scalar? (n : Nat) : Option Char :=
  if n < 0xD800 ∨ (0xDFFF < n ∧ n ≤ 0x10FFFF) then some (Char.ofNat n) else none

/-- Reads what follows a backslash. -/
def escape : List Char → Option (Char × List Char)
  | 'b' :: rest => some ('\x08', rest)
  | 't' :: rest => some ('\t', rest)
  | 'n' :: rest => some ('\n', rest)
  | 'f' :: rest => some ('\x0c', rest)
  | 'r' :: rest => some ('\r', rest)
  | '"' :: rest => some ('"', rest)
  | '\\' :: rest => some ('\\', rest)
  | 'u' :: rest => do
    let (n, rest) ← hex 4 0 rest
    (scalar? n).map (·, rest)
  | 'U' :: rest => do
    let (n, rest) ← hex 8 0 rest
    (scalar? n).map (·, rest)
  | _ => none

/-- Reads a string on one line up to its closing quote. -/
def basicTail : Nat → List Char → List Char → Option (String × List Char)
  | 0, _, _ => none
  | _ + 1, _, [] => none
  | _ + 1, done, '"' :: rest => some (String.ofList done.reverse, rest)
  | fuel + 1, done, '\\' :: rest => do
    let (c, rest) ← escape rest
    basicTail fuel (c :: done) rest
  | fuel + 1, done, c :: rest => if isPrintable c then basicTail fuel (c :: done) rest else none

/-- Reads a string without escapes up to its closing quote. -/
def literalTail : List Char → List Char → Option (String × List Char)
  | _, [] => none
  | done, '\x27' :: rest => some (String.ofList done.reverse, rest)
  | done, c :: rest => if isPrintable c then literalTail (c :: done) rest else none

/-- The line break that may follow the opening quotes of a string of several lines. -/
def dropFirstBreak (cs : List Char) : List Char :=
  (newline? cs).getD cs

/-- The closing quotes of a string of several lines. Up to two quotes before them belong to the
string. -/
def closing? (quote : Char) (cs : List Char) : Option (List Char × List Char) :=
  let run := cs.takeWhile (· = quote)
  if run.length < 3 then none
  else
    let own := min (run.length - 3) 2
    some (List.replicate own quote, cs.drop (own + 3))

/-- Skips blanks and line breaks. -/
def skipSpace : Nat → List Char → List Char
  | 0, cs => cs
  | fuel + 1, cs =>
    match newline? (skipBlanks cs) with
    | some rest => skipSpace fuel rest
    | none => skipBlanks cs

/-- Skips the blanks and line breaks after a backslash at the end of a line. -/
def skipFold (cs : List Char) : Option (List Char) :=
  (newline? (skipBlanks cs)).map fun rest => skipSpace rest.length rest

/-- Reads a string of several lines. -/
def blockTail (quote : Char) : Nat → List Char → List Char → Option (String × List Char)
  | 0, _, _ => none
  | fuel + 1, done, cs =>
    match closing? quote cs with
    | some (own, rest) => some (String.ofList (own ++ done).reverse, rest)
    | none => match newline? cs with
      | some rest => blockTail quote fuel ('\n' :: done) rest
      | none => match cs with
        | [] => none
        | c :: rest =>
          if quote = '"' ∧ c = '\\' then
            match skipFold rest with
            | some rest => blockTail quote fuel done rest
            | none => do
              let (c, rest) ← escape rest
              blockTail quote fuel (c :: done) rest
          else if isPrintable c then blockTail quote fuel (c :: done) rest
          else none

/-- Reads a string of any of the four kinds. -/
def string (cs : List Char) : Option (String × List Char) :=
  let fuel := cs.length + 1
  match cs with
  | '"' :: '"' :: '"' :: rest => blockTail '"' fuel [] (dropFirstBreak rest)
  | '\x27' :: '\x27' :: '\x27' :: rest => blockTail '\x27' fuel [] (dropFirstBreak rest)
  | '"' :: rest => basicTail fuel [] rest
  | '\x27' :: rest => literalTail [] rest
  | _ => none

/-! ## Numbers -/

/-- Reads more digits, each of which may follow an underscore; those so far come last first. -/
def digitsTail (isDigit : Char → Bool) (done : List Char) :
    List Char → Option (List Char × List Char)
  | '_' :: c :: rest => if isDigit c then digitsTail isDigit (c :: done) rest else none
  | ['_'] => none
  | c :: rest =>
    if isDigit c then digitsTail isDigit (c :: done) rest else some (done.reverse, c :: rest)
  | [] => some (done.reverse, [])

/-- Reads digits with single underscores between them. -/
def digits (isDigit : Char → Bool) : List Char → Option (List Char × List Char)
  | c :: rest => if isDigit c then digitsTail isDigit [c] rest else none
  | [] => none

def isBinary (c : Char) : Bool := c = '0' || c = '1'

def isOctal (c : Char) : Bool := '0' ≤ c && c ≤ '7'

def isHex (c : Char) : Bool := (Json.Cursor.hexValue? c).isSome

/-- The number of a run of digits in a base. -/
def digitsValue (base : Nat) (cs : List Char) : Nat :=
  cs.foldl (fun n c => n * base + (Json.Cursor.hexValue? c).getD 0) 0

/-- Reads a number with a base in front of it. -/
def based (base : Nat) (isDigit : Char → Bool) (cs : List Char) : Option (Toml × List Char) := do
  let (ds, rest) ← digits isDigit cs
  if digitsValue base ds < Decimal.pow2 63 then some (.number, rest) else none

/-- Reads the digits before the point: no zero in front of others. -/
def whole : List Char → Option (List Char × List Char)
  | '0' :: rest => some (['0'], rest)
  | cs => digits Char.isDigit cs

/-- Reads an exponent, if one follows. -/
def exponent (cs : List Char) : Option (Option (Bool × List Char) × List Char) :=
  let tail (negative : Bool) (cs : List Char) : Option (Option (Bool × List Char) × List Char) :=
    (digits Char.isDigit cs).map fun (ds, rest) => (some (negative, ds), rest)
  match cs with
  | 'e' :: '+' :: rest | 'E' :: '+' :: rest => tail false rest
  | 'e' :: '-' :: rest | 'E' :: '-' :: rest => tail true rest
  | 'e' :: rest | 'E' :: rest => tail false rest
  | cs => some (none, cs)

/-- Whether the digits and the exponent stand for a finite double. Decimals are rounded to the
nearest double, and a negative one may be too large. -/
def isFinite (p : Json.Number.Parts) : Bool :=
  let power : Int := (match p.exponent with
    | some (true, ds) => -(digitsValue 10 ds : Int)
    | some (false, ds) => digitsValue 10 ds
    | none => 0) - p.fraction.length
  let n := digitsValue 10 (p.whole ++ p.fraction)
  if p.negative || n = 0 || power < 0 && (toString n).length ≤ power.natAbs then true
  else if 400 < power then false
  else
    -- the least real that rounds above every double
    let bound := Decimal.pow2 1024 - Decimal.pow2 970
    if 0 ≤ power then n * Decimal.pow10 power.toNat < bound
    else n < bound * Decimal.pow10 power.natAbs

/-- Reads a decimal number after its sign. -/
def decimal (negative : Bool) (cs : List Char) : Option (Toml × List Char) := do
  let (ds, rest) ← whole cs
  let (fraction, rest) ← match rest with
    | '.' :: rest => (digits Char.isDigit rest).map fun (fs, rest) => (some fs, rest)
    | rest => some (none, rest)
  let (power, rest) ← exponent rest
  if fraction.isSome || power.isSome then
    if isFinite { negative, whole := ds, fraction := fraction.getD [], exponent := power } then
      some (.number, rest)
    else none
  else
    let limit := if negative then Decimal.pow2 63 else Decimal.pow2 63 - 1
    if digitsValue 10 ds ≤ limit then some (.number, rest) else none

/-- Reads a word. -/
def word (w : String) (cs : List Char) : Option (List Char) :=
  if w.toList.isPrefixOf cs then some (cs.drop w.length) else none

/-- Reads a number, its sign included. -/
def number (cs : List Char) : Option (Toml × List Char) :=
  let signed (negative : Bool) (cs : List Char) : Option (Toml × List Char) :=
    match cs with
    | 'i' :: _ => (word "inf" cs).map (.number, ·)
    | 'n' :: _ => (word "nan" cs).map (.number, ·)
    | cs => decimal negative cs
  match cs with
  | '0' :: 'x' :: rest => based 16 isHex rest
  | '0' :: 'o' :: rest => based 8 isOctal rest
  | '0' :: 'b' :: rest => based 2 isBinary rest
  | '+' :: rest => signed false rest
  | '-' :: rest => signed true rest
  | cs => signed false cs

/-! ## Dates and times -/

/-- Reads exactly `n` digits. -/
def fixedDigits (n : Nat) (cs : List Char) : Option (Nat × List Char) :=
  let ds := cs.take n
  if ds.length = n ∧ ds.all Char.isDigit then some (digitsValue 10 ds, cs.drop n) else none

/-- Reads two digits whose number lies in a range. -/
def twoDigits (low high : Nat) (cs : List Char) : Option (Nat × List Char) := do
  let (n, rest) ← fixedDigits 2 cs
  if low ≤ n ∧ n ≤ high then some (n, rest) else none

def isLeap (year : Nat) : Bool :=
  year % 4 = 0 && (year % 100 ≠ 0 || year % 400 = 0)

def daysIn (year month : Nat) : Nat :=
  match month with
  | 2 => if isLeap year then 29 else 28
  | 4 | 6 | 9 | 11 => 30
  | _ => 31

def expect (c : Char) : List Char → Option (List Char)
  | d :: rest => if d = c then some rest else none
  | [] => none

def date (cs : List Char) : Option (List Char) := do
  let (year, rest) ← fixedDigits 4 cs
  let rest ← expect '-' rest
  let (month, rest) ← twoDigits 1 12 rest
  let rest ← expect '-' rest
  let (day, rest) ← twoDigits 1 31 rest
  if day ≤ daysIn year month then some rest else none

def time (cs : List Char) : Option (List Char) := do
  let (_, rest) ← twoDigits 0 23 cs
  let rest ← expect ':' rest
  let (_, rest) ← twoDigits 0 59 rest
  let rest ← expect ':' rest
  let (_, rest) ← twoDigits 0 60 rest
  match rest with
  | '.' :: c :: rest' => if c.isDigit then some (rest'.dropWhile Char.isDigit) else some rest
  | rest => some rest

/-- Reads the distance from universal time, if one follows. -/
def offset (cs : List Char) : Option (List Char) :=
  let distance (cs : List Char) : Option (List Char) := do
    let (_, rest) ← twoDigits 0 23 cs
    let rest ← expect ':' rest
    let (_, rest) ← twoDigits 0 59 rest
    some rest
  match cs with
  | 'Z' :: rest | 'z' :: rest => some rest
  | '+' :: rest | '-' :: rest => distance rest
  | cs => some cs

/-- Reads a date, a time, or both. -/
def moment (cs : List Char) : Option (Toml × List Char) :=
  match date cs with
  | some rest =>
    let tail := match rest with
      | 'T' :: rest | 't' :: rest | ' ' :: rest => time rest
      | _ => none
    match tail with
    | some rest => (offset rest).map (.moment, ·)
    | none => some (.moment, rest)
  | none => (time cs).map (.moment, ·)

/-! ## Keys -/

def isBareKey (c : Char) : Bool :=
  c.isAlphanum || c = '_' || c = '-'

/-- Reads one part of a key. -/
def simpleKey (cs : List Char) : Option (String × List Char) :=
  match cs with
  | '"' :: rest => basicTail (rest.length + 1) [] rest
  | '\x27' :: rest => literalTail [] rest
  | cs => match cs.takeWhile isBareKey with
    | [] => none
    | ks => some (String.ofList ks, cs.dropWhile isBareKey)

/-- Reads a key with the blanks around it: the parts before its last one, and that. The number
bounds how many parts there are. -/
def keyParts : Nat → List String → List Char → Option ((List String × String) × List Char)
  | 0, _, _ => none
  | limit + 1, path, cs => do
    let (k, rest) ← simpleKey (skipBlanks cs)
    match skipBlanks rest with
    | '.' :: rest => keyParts limit (k :: path) rest
    | rest => some ((path.reverse, k), rest)

/-- Reads a key of at most as many parts as brackets may be nested. -/
def key (cs : List Char) : Option ((List String × String) × List Char) :=
  keyParts depthLimit [] cs

/-! ## Values -/

/-- Reads a value without brackets. -/
def scalar (cs : List Char) : Option (Toml × List Char) :=
  match cs with
  | [] => none
  | c :: _ =>
    if c = '"' || c = '\x27' then (string cs).map fun (s, rest) => (.text s, rest)
    else if c = 't' then (word "true" cs).map (.bool true, ·)
    else if c = 'f' then (word "false" cs).map (.bool false, ·)
    else if c.isDigit || c = '+' || c = '-' || c = 'i' || c = 'n' then
      match moment cs with
      | some found => some found
      | none => number cs
    else none

mutual

/-- Reads a value. The first number bounds the nesting that is left, the second the calls. -/
def value : Nat → Nat → List Char → Option (Toml × List Char)
  | _, 0, _ => none
  | depth, fuel + 1, cs =>
    match depth, cs with
    | 0, '[' :: _ | 0, '\x7b' :: _ => none
    | depth + 1, '[' :: rest => elements depth fuel [] rest
    | depth + 1, '\x7b' :: rest => match skipBlanks rest with
      | '\x7d' :: rest => some (.table [], rest)
      | rest => entries depth fuel (.empty .explicit) rest
    | _, cs => scalar cs

/-- Reads the rest of an array; the elements so far come last first. -/
def elements : Nat → Nat → List Toml → List Char → Option (Toml × List Char)
  | _, 0, _, _ => none
  | depth, fuel + 1, done, cs => do
    let cs ← skipLines cs.length cs
    match cs with
    | ']' :: rest => some (.array done.reverse, rest)
    | cs =>
      let (v, rest) ← value depth fuel cs
      let rest ← skipLines rest.length rest
      match rest with
      | ',' :: rest => elements depth fuel (v :: done) rest
      | ']' :: rest => some (.array (v :: done).reverse, rest)
      | _ => none

/-- Reads the rest of an inline table, which holds another entry. -/
def entries : Nat → Nat → Node → List Char → Option (Toml × List Char)
  | _, 0, _, _ => none
  | depth, fuel + 1, t, cs => do
    let ((path, k), rest) ← key cs
    let rest ← expect '=' rest
    let (v, rest) ← value depth fuel (skipBlanks rest)
    let t ← t.addEntry path k (.value v)
    match skipBlanks rest with
    | ',' :: rest => entries depth fuel t rest
    | '\x7d' :: rest => some (t.freeze, rest)
    | _ => none

end

/-! ## Documents -/

/-- Reads the key of a header and the brackets that close it. -/
def header (closer cs : List Char) : Option ((List String × String) × List Char) := do
  let (k, rest) ← key cs
  if closer.isPrefixOf rest then
    let rest ← lineEnd (rest.drop closer.length)
    some (k, rest)
  else none

/-- Reads one line, or one entry that spans several. -/
def line (d : Draft) (cs : List Char) : Option (Draft × List Char) :=
  match cs with
  | '#' :: _ => (lineEnd cs).map (d, ·)
  | '[' :: '[' :: rest => do
    let ((path, k), rest) ← header [']', ']'] rest
    (d.openElement path k).map (·, rest)
  | '[' :: rest => do
    let ((path, k), rest) ← header [']'] rest
    (d.openTable path k).map (·, rest)
  | cs => match newline? cs with
    | some rest => some (d, rest)
    | none => do
      let ((path, k), rest) ← key cs
      let rest ← expect '=' rest
      let (v, rest) ← value depthLimit (2 * rest.length + 2) (skipBlanks rest)
      let rest ← lineEnd rest
      (d.addEntry path k v).map (·, rest)

/-- Reads lines up to the end. The number bounds their count. -/
def lines : Nat → Draft → List Char → Option Draft
  | 0, _, _ => none
  | fuel + 1, d, cs => match skipBlanks cs with
    | [] => some d
    | cs => match line d cs with
      | some (d, rest) => lines fuel d rest
      | none => none

end Reader

/-- The document that a text writes. -/
def ofText? (s : String) : Option Toml := do
  let cs := match s.toList with
    | '\uFEFF' :: rest => rest
    | cs => cs
  let d ← Reader.lines (cs.length + 1) {} cs
  (← d.close).freeze

end ClaimCells.Toml
