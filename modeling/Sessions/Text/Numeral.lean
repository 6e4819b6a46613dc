import Sessions.Text

/-!
# Sessions.Text.Numeral

Reading a decimal number off the front of a text: white space, an optional sign, at least one
digit. What follows the digits is not looked at, it is handed back.

* `Numeral.scan?` finds the numeral, `Numeral.value` is the integer that it writes.
* `Text.leadingInt64?` takes it as a signed 64-bit integer and refuses one out of range.
* `Text.leadingCount?` takes it as an unsigned 64-bit count. The digits must stay in range; a
  minus sign in front of them counts down from `2 ^ 64`.
-/

namespace Sessions

/-- A signed decimal number at the front of a text. -/
structure Numeral where
  negative : Bool
  digits : Text
  rest : Text
deriving DecidableEq, Repr

namespace Numeral

/-- The sign in front of a text, and the text without it. -/
def sign : Text → Bool × Text
  | [] => (false, [])
  | b :: t =>
    if b = Text.byte '-' then (true, t)
    else if b = Text.byte '+' then (false, t)
    else (false, b :: t)

/-- The numeral at the front of a text, behind white space. -/
def scan? (t : Text) : Option Numeral :=
  let (negative, body) := sign (t.dropWhile Text.isSpace)
  match body.takeWhile Text.isDigit with
  | [] => none
  | ds => some ⟨negative, ds, body.dropWhile Text.isDigit⟩

def ofDigits (ds : Text) : Nat := ds.foldl (fun n b => 10 * n + Text.digitValue b) 0

def magnitude (n : Numeral) : Nat := ofDigits n.digits

def value (n : Numeral) : Int := if n.negative then -(n.magnitude : Int) else n.magnitude

end Numeral

namespace Text

/-- The integer in front of a text, if it has one and 64 bits hold it. What follows the digits is
ignored. -/
def leadingInt64? (t : Text) : Option Int64 :=
  match Numeral.scan? t with
  | none => none
  | some n =>
    if Int64.minValue.toInt ≤ n.value ∧ n.value ≤ Int64.maxValue.toInt then
      some (Int64.ofInt n.value)
    else none

/-- The count in front of a text, and what follows its digits. -/
def leadingCount? (t : Text) : Option (Nat × Text) :=
  match Numeral.scan? t with
  | none => none
  | some n =>
    if n.magnitude < UInt64.size then some ((n.value % UInt64.size).toNat, n.rest) else none

end Text
end Sessions
