/-!
# Decimal text of a binary64 number

The fewest digits that read back as the number, and of those the nearest; positional while the
exponent is small, else with an exponent.
-/

namespace ReviewRota.Text

/-- A finite non-negative number `significand * 2 ^ exponent` together with the numbers that round
to it, which lie between `lower` and `upper`; all three count quarters of the last binary place. -/
structure Binary where
  exponent : Int
  lower : Nat
  value : Nat
  upper : Nat
  /-- Whether the bounds themselves round to the number. -/
  closed : Bool
  deriving DecidableEq, Repr

def Binary.ofBits (bits : UInt64) : Binary :=
  let fraction := bits.toNat % Nat.pow 2 52
  let biased := bits.toNat / Nat.pow 2 52 % Nat.pow 2 11
  let significand := if biased = 0 then fraction else Nat.pow 2 52 + fraction
  let exponent : Int := (if biased = 0 then 1 else biased : Nat) - 1075
  let below := if fraction = 0 ∧ 1 < biased then 1 else 2
  ⟨exponent - 2, 4 * significand - below, 4 * significand, 4 * significand + 2,
    significand % 2 = 0⟩

structure Decimal where
  mantissa : Nat
  exponent : Int
  deriving DecidableEq, Repr

def scaled (base : Nat) (exponent : Int) : Nat × Nat :=
  if 0 ≤ exponent then (Nat.pow base exponent.toNat, 1)
  else (1, Nat.pow base (-exponent).toNat)

def decimalExponent (num den : Nat) : Nat → Int → Int
  | 0, e => e
  | fuel + 1, e =>
      let (p, q) := scaled 10 e
      if p * den ≤ num * q then e else decimalExponent num den fuel (e - 1)

/-- The point of the grid `k * 10 ^ unit` that reads back as the number and is nearest to it. -/
def Binary.onGrid? (b : Binary) (unit : Int) : Option Decimal :=
  let (p, q) := scaled 2 b.exponent
  let (r, s) := scaled 10 unit
  -- the number is `value * p / q`, a grid point `k * r / s`
  let left := p * s
  let right := r * q
  let floor := b.value * left / right
  let inside (k : Nat) : Bool :=
    if b.closed then b.lower * left ≤ k * right && k * right ≤ b.upper * left
    else b.lower * left < k * right && k * right < b.upper * left
  match inside floor, inside (floor + 1) with
  | false, false => none
  | true, false => some ⟨floor, unit⟩
  | false, true => some ⟨floor + 1, unit⟩
  | true, true =>
      let down := b.value * left - floor * right
      let up := (floor + 1) * right - b.value * left
      if down < up ∨ (down = up ∧ floor % 2 = 0) then some ⟨floor, unit⟩
      else some ⟨floor + 1, unit⟩

def Binary.shortest (b : Binary) : Decimal :=
  let (p, q) := scaled 2 b.exponent
  let top := decimalExponent (b.value * p) q 700 310
  ((List.range 17).findSome? fun n : Nat => b.onGrid? (top - n)).getD ⟨0, 0⟩

def Decimal.text (d : Decimal) : String :=
  let digits := (Nat.toDigits 10 d.mantissa).reverse.dropWhile (· = '0') |>.reverse
  let exponent := d.exponent + (Nat.toDigits 10 d.mantissa).length - 1
  let zeros (n : Nat) := List.replicate n '0'
  String.ofList <|
    if exponent < -5 ∨ 15 < exponent then
      let tail := digits.drop 1
      digits.take 1 ++ (if tail.isEmpty then [] else '.' :: tail) ++
        ['e', if exponent < 0 then '-' else '+'] ++ Nat.toDigits 10 exponent.natAbs
    else if exponent < 0 then
      ['0', '.'] ++ zeros (exponent.natAbs - 1) ++ digits
    else
      let whole := exponent.toNat + 1
      if digits.length ≤ whole then digits ++ zeros (whole - digits.length) ++ ['.', '0']
      else digits.take whole ++ '.' :: digits.drop whole

def decimalOfBits (bits : UInt64) : String :=
  let sign := if bits.toNat < Nat.pow 2 63 then "" else "-"
  let b := Binary.ofBits bits
  sign ++ (if b.value = 0 then "0.0" else b.shortest.text)

end ReviewRota.Text
