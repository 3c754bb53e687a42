import ClaimCells.Text.Unprintable

/-!
# Quoted text

The quoted form of a text stands between double quotes. A quote and a backslash take a backslash
before them, five controls have a letter of their own, and every other character that does not
print, or that would attach to the one before it, is written by its number in braces.
-/

namespace ClaimCells.Text

/-- The digits of a number in base sixteen, lower case, without leading zeros. -/
def hexDigits (n : Nat) : List Char :=
  Nat.toDigits 16 n

/-- A character by its number, in braces. -/
def escapeByNumber (c : Char) : List Char :=
  ['\\', 'u', '\x7b'] ++ hexDigits c.toNat ++ ['\x7d']

/-- A character as it stands inside a quoted text. -/
def escapeChar (c : Char) : List Char :=
  if c = '"' ∨ c = '\\' then ['\\', c]
  else if c = '\x00' then ['\\', '0']
  else if c = '\t' then ['\\', 't']
  else if c = '\n' then ['\\', 'n']
  else if c = '\r' then ['\\', 'r']
  else if isUnprintable c || isGraphemeExtend c then escapeByNumber c
  else [c]

/-- The quoted form of a text. -/
def quote (s : String) : String :=
  String.ofList (['"'] ++ s.toList.flatMap escapeChar ++ ['"'])

end ClaimCells.Text
