import Sessions.Text

/-!
# Sessions.Version

The version of the library.
-/

namespace Sessions

structure Version where
  major : Nat
  minor : Nat
  patch : Nat
deriving DecidableEq, Repr

namespace Version

def text (v : Version) : Text :=
  Text.decimal v.major ++ "." ++ Text.decimal v.minor ++ "." ++ Text.decimal v.patch

def current : Version := ⟨1, 0, 0⟩

end Version
end Sessions
