import Sessions.Text

/-!
# Sessions.Text.Significant

Text of a binary64 number with six significant digits.

A finite number is `m · 2 ^ e` exactly, so the digits come from integer arithmetic: `Ratio` is a
quotient of natural numbers, `Ratio.leading` is the exponent of its first decimal digit, and
`Ratio.significant` rounds it to six digits, a tie to the even neighbour. Trailing zeros are
dropped; a number whose first digit stands below the fourth place behind the point or above the
sixth in front of it is written with an exponent.

* `Binary64.text` is the whole rule, with the names of the infinities and of a number that is none.
* `Binary64.same` compares two numbers by value: the zeros are one number, and a number that is
  none differs from itself.
-/

namespace Sessions

/-- A quotient of natural numbers; the denominator is not zero where it is used. -/
structure Ratio where
  num : Nat
  den : Nat
deriving DecidableEq, Repr

namespace Ratio

def scale (r : Ratio) : Int → Ratio
  | .ofNat k => ⟨r.num * Nat.pow 10 k, r.den⟩
  | .negSucc k => ⟨r.num, r.den * Nat.pow 10 (k + 1)⟩

/-- The nearest integer; of two, the even one. -/
def round (r : Ratio) : Nat :=
  let q := r.num / r.den
  let twice := 2 * (r.num % r.den)
  if twice < r.den then q
  else if r.den < twice then q + 1
  else q + q % 2

/-- The exponent of the first decimal digit of a quotient that is not zero: the `x` with
`10 ^ x ≤ r < 10 ^ (x + 1)`. -/
def leading (r : Ratio) : Int :=
  if r.den ≤ r.num then ((Text.decimal (r.num / r.den)).length : Int) - 1
  else -((Text.decimal ((r.den - 1) / r.num)).length : Int)

/-- The first six digits as an integer of six digits, and the exponent of the first. -/
def significant (r : Ratio) : Nat × Int :=
  let x := r.leading
  let q := (r.scale (5 - x)).round
  if q = 1000000 then (100000, x + 1) else (q, x)

end Ratio

/-- The bits of a binary64 number: sign, eleven of exponent, fifty-two of fraction. -/
abbrev Binary64 := UInt64

namespace Binary64

def negative (b : Binary64) : Bool := b >>> 63 == 1

def exponent (b : Binary64) : Nat := ((b >>> 52) &&& 0x7ff).toNat

def fraction (b : Binary64) : Nat := (b &&& 0xfffffffffffff).toNat

/-- All exponent bits are set and the fraction is not zero: no number at all. -/
def isNaN (b : Binary64) : Bool := b.exponent == 0x7ff && b.fraction != 0

/-- All exponent bits are set and the fraction is zero. -/
def isInfinite (b : Binary64) : Bool := b.exponent == 0x7ff && b.fraction == 0

def isZero (b : Binary64) : Bool := b.exponent == 0 && b.fraction == 0

def magnitude (b : Binary64) : Ratio :=
  let m := if b.exponent = 0 then b.fraction else 0x10000000000000 + b.fraction
  let e := max b.exponent 1
  if 1075 ≤ e then ⟨m * Nat.pow 2 (e - 1075), 1⟩ else ⟨m, Nat.pow 2 (1075 - e)⟩

/-- Equality of the numbers, not of the bits. -/
def same (a b : Binary64) : Bool :=
  !a.isNaN && !b.isNaN && (a == b || (a.isZero && b.isZero))

/-- Digits without the zeros at their end. -/
def trimmed (ds : Text) : Text := (ds.reverse.dropWhile (· == Text.byte '0')).reverse

/-- A point and the digits behind it, or nothing where there are none. -/
def behindPoint (ds : Text) : Text := if ds = [] then [] else Text.byte '.' :: ds

/-- Six digits, the first of them at the exponent `x`. -/
def layout (q : Nat) (x : Int) : Text :=
  let ds := Text.padded 6 q
  if x < -4 ∨ 6 ≤ x then
    ds.take 1 ++ behindPoint (trimmed (ds.drop 1)) ++ "e" ++ (if x < 0 then "-" else "+") ++
      Text.padded 2 x.natAbs
  else if x < 0 then
    "0" ++ behindPoint (trimmed (List.replicate (x.natAbs - 1) (Text.byte '0') ++ ds))
  else
    ds.take (x.toNat + 1) ++ behindPoint (trimmed (ds.drop (x.toNat + 1)))

def text (b : Binary64) : Text :=
  let body : Text :=
    if b.isNaN then "nan"
    else if b.isInfinite then "inf"
    else if b.isZero then "0"
    else layout b.magnitude.significant.1 b.magnitude.significant.2
  if b.negative then Text.byte '-' :: body else body

end Binary64
end Sessions
