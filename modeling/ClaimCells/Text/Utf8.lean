/-!
# UTF-8

`pieces` cuts bytes into characters and faulty pieces. A faulty piece is as long as it could
still have become a character: a lead byte and the continuation bytes that fit it. `decode?`
accepts bytes without faulty pieces; `decodeLossy` writes the replacement character for each.
-/

namespace ClaimCells.Text.Utf8

abbrev Bytes := List UInt8

/-- A character that has begun: its bits so far, the range of the next byte, and how many bytes
come after that one. -/
structure Begun where
  bits : Nat
  low : UInt8
  high : UInt8
  more : Nat
deriving DecidableEq, Repr

/-- What the lead byte of two, three or four bytes begins. The range of the second byte leaves
out overlong forms, surrogates and numbers above the last code point. -/
def Begun.ofLead? (b : UInt8) : Option Begun :=
  if 0xC2 ≤ b ∧ b ≤ 0xDF then some ⟨b.toNat - 0xC0, 0x80, 0xBF, 0⟩
  else if b = 0xE0 then some ⟨0, 0xA0, 0xBF, 1⟩
  else if b = 0xED then some ⟨0xD, 0x80, 0x9F, 1⟩
  else if 0xE1 ≤ b ∧ b ≤ 0xEF then some ⟨b.toNat - 0xE0, 0x80, 0xBF, 1⟩
  else if b = 0xF0 then some ⟨0, 0x90, 0xBF, 2⟩
  else if 0xF1 ≤ b ∧ b ≤ 0xF3 then some ⟨b.toNat - 0xF0, 0x80, 0xBF, 2⟩
  else if b = 0xF4 then some ⟨4, 0x80, 0x8F, 2⟩
  else none

/-- The bits with those of a continuation byte. -/
def Begun.bitsWith (p : Begun) (b : UInt8) : Nat :=
  p.bits * 64 + (b.toNat - 0x80)

/-- The pieces that a byte completes where no character has begun, and the character it
begins. -/
def first (b : UInt8) : List (Option Char) × Option Begun :=
  if b < 0x80 then ([some (Char.ofNat b.toNat)], none)
  else match Begun.ofLead? b with
    | some p => ([], some p)
    | none => ([none], none)

/-- The pieces that a byte completes, and the character that has begun after it. -/
def next (begun : Option Begun) (b : UInt8) : List (Option Char) × Option Begun :=
  match begun with
  | none => first b
  | some p =>
    if p.low ≤ b ∧ b ≤ p.high then match p.more with
      | 0 => ([some (Char.ofNat (p.bitsWith b))], none)
      | more + 1 => ([], some ⟨p.bitsWith b, 0x80, 0xBF, more⟩)
    else
      let (pieces, begun) := first b
      (none :: pieces, begun)

/-- The characters and faulty pieces of a byte sequence, in order. -/
def pieces (begun : Option Begun) : Bytes → List (Option Char)
  | [] => if begun.isSome then [none] else []
  | b :: bs => (next begun b).1 ++ pieces (next begun b).2 bs

/-- The text that the bytes encode. -/
def decode? (bs : Bytes) : Option String :=
  ((pieces none bs).mapM id).map String.ofList

/-- The text with every faulty piece replaced. -/
def decodeLossy (bs : Bytes) : String :=
  String.ofList ((pieces none bs).map (·.getD '\uFFFD'))

/-- The bytes of a text. -/
def encode (s : String) : Bytes :=
  s.toUTF8.toList

/-- How many bytes a text takes. -/
def sizeOf : List Char → Nat
  | [] => 0
  | c :: cs => c.utf8Size + sizeOf cs

end ClaimCells.Text.Utf8
