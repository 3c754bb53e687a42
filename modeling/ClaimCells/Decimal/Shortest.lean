/-!
# The shortest decimal of a binary number

A finite double is `m · 2 ^ q`. The reals that round to it form an interval, with its ends exactly
when `m` is even. Of the decimals in the interval `shortest` takes one with the fewest digits, and
of those the nearest, a tie going to the even digit. All arithmetic is on natural numbers.
-/

namespace ClaimCells.Decimal

/-- A power of two. -/
def pow2 (n : Nat) : Nat := Nat.pow 2 n

/-- A power of ten. -/
def pow10 (n : Nat) : Nat := Nat.pow 10 n

/-- `digits · 10 ^ exponent`. -/
structure Scientific where
  digits : Nat
  exponent : Int
deriving DecidableEq, Repr

/-- A positive rational number. -/
structure Ratio where
  num : Nat
  den : Nat
deriving DecidableEq, Repr

/-- `m · 2 ^ q`. -/
def Ratio.scaled2 (m : Nat) (q : Int) : Ratio :=
  if 0 ≤ q then ⟨m * pow2 q.toNat, 1⟩ else ⟨m, pow2 (-q).toNat⟩

/-- `r / 10 ^ k`. -/
def Ratio.unscale10 (r : Ratio) (k : Int) : Ratio :=
  if 0 ≤ k then ⟨r.num, r.den * pow10 k.toNat⟩ else ⟨r.num * pow10 (-k).toNat, r.den⟩

def Ratio.lt (a b : Ratio) : Bool := a.num * b.den < b.num * a.den

def Ratio.le (a b : Ratio) : Bool := a.num * b.den ≤ b.num * a.den

/-- The part of a double that is not its sign: significand, exponent, and whether the double below
it is only half as far away as the one above. -/
structure Binary where
  m : Nat
  q : Int
  narrow : Bool
deriving DecidableEq, Repr

/-- The number behind the lower 63 bits of a finite double. -/
def Binary.ofBits (bits : UInt64) : Binary :=
  let fraction : Nat := bits.toNat % pow2 52
  let biased : Nat := bits.toNat / pow2 52 % pow2 11
  if biased = 0 then ⟨fraction, -1074, false⟩
  else ⟨pow2 52 + fraction, (biased : Int) - 1075, fraction = 0 && 1 < biased⟩

/-- The interval of reals that round to the number. -/
def Binary.interval (b : Binary) : Ratio × Ratio :=
  let low :=
    if b.narrow then Ratio.scaled2 (4 * b.m - 1) (b.q - 2) else .scaled2 (2 * b.m - 1) (b.q - 1)
  (low, .scaled2 (2 * b.m + 1) (b.q - 1))

/-- Whether `n · 10 ^ k` lies in the interval. -/
def Binary.admits (b : Binary) (n : Nat) (k : Int) : Bool :=
  let (low, high) := b.interval
  let low := low.unscale10 k
  let high := high.unscale10 k
  let x : Ratio := ⟨n, 1⟩
  if b.m % 2 = 0 then low.le x && x.le high else low.lt x && x.lt high

/-- The best decimal with the exponent `k`, if the interval holds one. -/
def Binary.onGrid? (b : Binary) (k : Int) : Option Nat :=
  let r := (Ratio.scaled2 b.m b.q).unscale10 k
  let below := r.num / r.den
  let rest := 2 * (r.num % r.den)
  let near := if rest < r.den then below
    else if r.den < rest then below + 1
    else if below % 2 = 0 then below else below + 1
  let far := if near = below then below + 1 else below
  if b.admits near k then some near
  else if b.admits far k then some far
  else none

/-- The largest `k` with `10 ^ k ≤ r`, looked for downwards from the start. -/
def Ratio.magnitude (r : Ratio) : Nat → Int → Int
  | 0, k => k
  | fuel + 1, k =>
    if Ratio.le ⟨1, 1⟩ (r.unscale10 k) then k else r.magnitude fuel (k - 1)

/-- Drops the zeros at the end of the digits. -/
def Scientific.trim : Nat → Scientific → Scientific
  | 0, s => s
  | fuel + 1, s =>
    if s.digits ≠ 0 ∧ s.digits % 10 = 0 then trim fuel ⟨s.digits / 10, s.exponent + 1⟩ else s

/-- The shortest decimal that reads back as the number, which is not zero. -/
def Binary.shortest (b : Binary) : Scientific :=
  let top := (Ratio.scaled2 b.m b.q).magnitude 700 310
  let grids := (List.range 17).map fun (i : Nat) => top - (i : Int)
  match grids.findSome? fun k => (b.onGrid? k).map (Scientific.mk · k) with
  | some s => s.trim 20
  | none => ⟨b.m, b.q⟩

end ClaimCells.Decimal
