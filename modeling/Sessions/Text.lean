/-!
# Sessions.Text

Byte strings. Ids, keys, hosts and messages are arbitrary bytes, so a text is a list of bytes and
every rule about it (cutting, comparing, changing case) is a rule about bytes.

* `Text.decimal` and `Text.padded` write numbers; `Text.ofInt` puts the sign in front.
* `Text.untilNul` is what a reader that stops at the first zero byte sees.
* `Text.pieces` cuts at every occurrence of a byte, `Text.lines` at the ends of lines.
* `Text.lookup_filter_ne` is about lists of things that go by name.
-/

namespace Sessions

/-- A text is a sequence of bytes, in no particular encoding. -/
abbrev Text := List UInt8

namespace Text

/-- The bytes of a string in UTF-8. -/
def ofString (s : String) : Text := s.toUTF8.data.toList

instance : Coe String Text := ⟨ofString⟩

def byte (c : Char) : UInt8 := c.toNat.toUInt8

/-! ## Numbers -/

def digit (d : Nat) : UInt8 := byte '0' + d.toUInt8

/-- Decimal digits of a number, with no zeros in front. -/
def decimal (n : Nat) : Text :=
  if n < 10 then [digit n] else decimal (n / 10) ++ [digit (n % 10)]
decreasing_by omega

/-- Decimal digits of a number, with zeros in front up to the width. -/
def padded (width n : Nat) : Text :=
  let ds := decimal n
  List.replicate (width - ds.length) (byte '0') ++ ds

def ofInt (z : Int) : Text :=
  if z < 0 then byte '-' :: decimal z.natAbs else decimal z.natAbs

def hexDigit (d : Nat) : UInt8 :=
  if d < 10 then digit d else byte 'a' + (d - 10).toUInt8

/-- Hexadecimal digits of a number modulo `16 ^ width`, exactly `width` of them. -/
def hexadecimal : (width n : Nat) → Text
  | 0, _ => []
  | w + 1, n => hexadecimal w (n / 16) ++ [hexDigit (n % 16)]

/-! ## Classes of bytes -/

def isDigit (b : UInt8) : Bool := byte '0' ≤ b && b ≤ byte '9'

def digitValue (b : UInt8) : Nat := b.toNat - (byte '0').toNat

def isHexDigit (b : UInt8) : Bool :=
  isDigit b || (byte 'a' ≤ b && b ≤ byte 'f') || (byte 'A' ≤ b && b ≤ byte 'F')

/-- Blank, tab, line feed, vertical tab, form feed and carriage return. -/
def isSpace (b : UInt8) : Bool := b == 32 || (9 ≤ b && b ≤ 13)

/-- ASCII letters in upper case; every other byte stays. -/
def upper (t : Text) : Text := t.map fun b => if byte 'a' ≤ b && b ≤ byte 'z' then b - 32 else b

/-- ASCII letters in lower case; every other byte stays. -/
def lower (t : Text) : Text := t.map fun b => if byte 'A' ≤ b && b ≤ byte 'Z' then b + 32 else b

/-! ## Cutting -/

/-- The text up to its first zero byte. -/
def untilNul (t : Text) : Text := t.takeWhile (· != 0)

/-- The texts between the occurrences of a byte: one more than it occurs. -/
def pieces (sep : UInt8) : Text → List Text
  | [] => [[]]
  | b :: t =>
    if b = sep then [] :: pieces sep t
    else match pieces sep t with
      | [] => [[b]]
      | p :: ps => (b :: p) :: ps

/-- The lines of a text. A line feed ends a line, so none follows a final one. -/
def lines (t : Text) : List Text :=
  let ps := pieces (byte '\n') t
  if ps.getLast? = some [] then ps.dropLast else ps

/-! ## Order -/

def le : Text → Text → Bool
  | [], _ => true
  | _ :: _, [] => false
  | a :: s, b :: t => a < b || (a == b && le s t)

/-! ## Things under names -/

/-- To take out what stands under one name does not touch what stands under another. -/
theorem lookup_filter_ne {α : Type} {name other : Text} (h : other ≠ name) (l : List (Text × α)) :
    (l.filter (·.1 ≠ name)).lookup other = l.lookup other := by
  induction l with
  | nil => rfl
  | cons p l ih =>
    by_cases hp : p.1 = name
    · have hother : (other == p.1) = false := beq_eq_false_iff_ne.2 (hp ▸ h)
      rw [List.filter_cons_of_neg (by simp [hp]), ih, List.lookup_cons, hother]
    · rw [List.filter_cons_of_pos (by simp [hp]), List.lookup_cons, List.lookup_cons, ih]

end Text
end Sessions
