import Sessions.Text

/-!
# Sessions.Host

The host addresses that may start a session: a dotted quad, or eight groups of hexadecimal digits
of which one run may be left out at `::` and the last two may be written as a dotted quad.

* `Host.isQuad` and `Host.isGroups` are the two grammars.
* `Host.accepts` adds the limits on the text as it is given: not empty, at most 46 bytes, and only
  the bytes in front of a zero byte are looked at.
-/

namespace Sessions
namespace Host

def isOctet (t : Text) : Bool :=
  match t with
  | [a] => Text.isDigit a
  | [a, b] => Text.isDigit a && Text.isDigit b && a != Text.byte '0'
  | [a, b, c] =>
    Text.isDigit a && Text.isDigit b && Text.isDigit c && a != Text.byte '0' &&
      100 * Text.digitValue a + 10 * Text.digitValue b + Text.digitValue c ≤ 255
  | _ => false

def isQuad (t : Text) : Bool :=
  let ps := Text.pieces (Text.byte '.') t
  ps.length == 4 && ps.all isOctet

def isGroup (t : Text) : Bool := 1 ≤ t.length && t.length ≤ 4 && t.all Text.isHexDigit

/-- How many groups stand between the colons, where all pieces are groups. No text is no group. -/
def groups? (t : Text) : Option Nat :=
  if t = [] then some 0
  else
    let ps := Text.pieces (Text.byte ':') t
    if ps.all isGroup then some ps.length else none

/-- The same where the last piece may be a dotted quad, which counts as two groups. -/
def groupsAndQuad? (t : Text) : Option Nat :=
  let ps := Text.pieces (Text.byte ':') t
  match ps.getLast? with
  | some last =>
    if isQuad last then
      if ps.dropLast.all isGroup then some (ps.length + 1) else none
    else groups? t
  | none => none

/-- The texts before and behind the first `::`. -/
def cutDouble : Text → Option (Text × Text)
  | [] => none
  | [_] => none
  | a :: b :: t =>
    if a = Text.byte ':' ∧ b = Text.byte ':' then some ([], t)
    else (cutDouble (b :: t)).map fun (l, r) => (a :: l, r)

/-- Eight groups, or fewer with `::` in the place of at least one. -/
def isGroups (t : Text) : Bool :=
  match cutDouble t with
  | none => groupsAndQuad? t == some 8
  | some (l, r) =>
    match groups? l, groupsAndQuad? r with
    | some m, some n => m + n ≤ 7
    | _, _ => false

def maxLength : Nat := 46

def accepts (host : Text) : Bool :=
  host != [] && host.length ≤ maxLength &&
    (isQuad host.untilNul || isGroups host.untilNul)

end Host
end Sessions
