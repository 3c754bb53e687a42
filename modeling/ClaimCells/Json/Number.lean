import ClaimCells.Decimal.Shortest

/-!
# Numbers of a JSON document

A number without fraction and exponent is a whole number if it fits 64 bits, a negative one if it
fits a signed word. Every other number is a double: its first digits, as far as they fit 64 bits,
times a power of ten.
-/

namespace ClaimCells

inductive Json.Number
  | natural (n : UInt64)
  /-- A number below zero, by its distance from it. -/
  | negative (magnitude : UInt64)
  | floating (f : Float)
deriving Repr

namespace Json

/-- What a number is made of: digits before the point, after it, and the exponent with its sign. -/
structure Number.Parts where
  negative : Bool
  whole : List Char
  fraction : List Char := []
  exponent : Option (Bool × List Char) := none
  /-- Whether a point or an exponent was written. -/
  floating : Bool := false

namespace Number

def digitValue (c : Char) : Nat :=
  c.toNat - '0'.toNat

/-- The digits as far as their number fits 64 bits, and how many are left. -/
def leading : List Char → Nat → Nat × Nat
  | [], n => (n, 0)
  | c :: cs, n =>
    if n * 10 + digitValue c < UInt64.size then leading cs (n * 10 + digitValue c)
    else (n, cs.length + 1)

def digitsValue (cs : List Char) : Nat :=
  cs.foldl (fun n c => n * 10 + digitValue c) 0

/-- `f · 10 ^ exponent`, or nothing if that is no finite double. Powers that have no double of
their own are taken in steps. -/
def scale10 : Nat → Float → Int → Option Float
  | 0, f, _ => some f
  | fuel + 1, f, exponent =>
    if exponent.natAbs ≤ 308 then
      let power := Float.ofScientific 1 false exponent.natAbs
      if 0 ≤ exponent then
        let product := f * power
        if product.isInf then none else some product
      else some (f / power)
    else if f == 0.0 then some f
    else if 0 ≤ exponent then none
    else scale10 fuel (f / Float.ofScientific 1 false 308) (exponent + 308)

/-- The double with these digits. -/
def Parts.toFloat? (p : Parts) : Option Float :=
  let (head, left) := leading p.whole 0
  let (significand, dropped) := leading p.fraction head
  let shift : Int := left + dropped - p.fraction.length
  let exponent : Int := match p.exponent with
    | some (true, ds) => - (digitsValue ds : Int)
    | some (false, ds) => digitsValue ds
    | none => 0
  (scale10 5 (UInt64.ofNat significand).toFloat (shift + exponent)).map fun f =>
    if p.negative then -f else f

/-- The number that the parts stand for. Nothing stands for a number above every double. -/
def ofParts? (p : Parts) : Option Number :=
  let n := digitsValue p.whole
  if p.floating then p.toFloat?.map floating
  else if p.negative then
    if 0 < n ∧ n ≤ Decimal.pow2 63 then some (.negative (UInt64.ofNat n)) else p.toFloat?.map floating
  else if n < UInt64.size then some (.natural (UInt64.ofNat n))
  else p.toFloat?.map floating

/-! ## Text of a double -/

/-- How a decimal is laid out: positional between these places of the point, otherwise with an
exponent. -/
structure Layout where
  /-- The largest count of places before the point that is still positional. -/
  before : Int
  /-- The smallest such count; below zero it counts zeros after the point. -/
  after : Int

/-- Doubles in messages have at most sixteen places before the point and four zeros after it. -/
def layout : Layout := ⟨16, -4⟩

/-- A decimal, laid out. A whole number keeps one zero after the point, and an exponent always has
its sign. -/
def Layout.render (l : Layout) (s : Decimal.Scientific) : String :=
  let digits := toString s.digits
  let length : Int := digits.length
  let point := length + s.exponent
  if 0 ≤ s.exponent ∧ point ≤ l.before then
    digits ++ String.ofList (List.replicate s.exponent.toNat '0') ++ ".0"
  else if 0 < point ∧ point ≤ l.before then
    let cs := digits.toList
    String.ofList (cs.take point.toNat ++ ['.'] ++ cs.drop point.toNat)
  else if l.after ≤ point ∧ point ≤ 0 then
    "0." ++ String.ofList (List.replicate (-point).toNat '0') ++ digits
  else
    let cs := digits.toList
    let mantissa := match cs with
      | [_] | [] => cs
      | c :: cs => c :: '.' :: cs
    String.ofList mantissa ++ (if 0 < point then "e+" else "e") ++ toString (point - 1)

/-- The text of a finite double. -/
def floatText (f : Float) : String :=
  let bits := f.toBits
  let sign := if Decimal.pow2 63 ≤ bits.toNat then "-" else ""
  if bits.toNat % Decimal.pow2 63 = 0 then sign ++ "0.0"
  else sign ++ layout.render (Decimal.Binary.ofBits bits).shortest

end Number

end Json

end ClaimCells
