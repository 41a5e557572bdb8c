import Nospacekey.Text.SwiftString

/-! The converter's composing text, and how much of it a candidate takes. -/

namespace Nospacekey

/-- How much a candidate takes: keys, shown characters, or one after the other. -/
inductive ComposingCount where
  | inputCount (count : Int)
  | surfaceCount (count : Int)
  | composite (lhs rhs : ComposingCount)
  deriving DecidableEq, Repr

/-- What the converter's package tells of a composing text, and how it takes a front of it away. -/
structure ComposingTextModule (χ : Type) where
  inputCount : χ → Nat
  convertTarget : χ → Text
  prefixComplete : χ → ComposingCount → χ

end Nospacekey
