import Nospacekey.Text.Grapheme

/-! Strings as the engine's language takes them, cluster by cluster and up to canonical equivalence. -/

namespace Nospacekey

/-- A segmentation, with canonical forms that are equal for the strings that count as the same. -/
structure SwiftString extends Segmentation where
  canonical : Text → Text

namespace SwiftString

variable (swift : SwiftString)

def same (left right : Text) : Bool := swift.canonical left = swift.canonical right

/-- The number of clusters. -/
def count (text : Text) : Nat := (swift.graphemes text).length

/-- The clusters, in canonical form. -/
def characters (text : Text) : List Text := (swift.graphemes text).map swift.canonical

def hasPrefix (text front : Text) : Bool := (swift.characters front).isPrefixOf (swift.characters text)

def hasSuffix (text back : Text) : Bool := (swift.characters back).isSuffixOf (swift.characters text)

/-- Strings as they are, one cluster a scalar. -/
def scalars : SwiftString := { Segmentation.scalars with canonical := id }

end SwiftString

end Nospacekey
