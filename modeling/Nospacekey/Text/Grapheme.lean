import Nospacekey.Ipc.Clause
import Nospacekey.Library.Utf8

/-! Extended graphemes, built on a segmentation supplied from outside and the fixed conjunct data. -/

namespace Nospacekey

/-- A segmentation into grapheme clusters, which cuts a text into nonempty pieces and loses nothing. -/
structure Segmentation where
  graphemes : Text → List Text
  flatten_graphemes : ∀ text, (graphemes text).flatten = text
  nonempty_graphemes : ∀ text, ∀ cluster ∈ graphemes text, cluster ≠ []

/-- The byte offsets at which clusters start. -/
def Segmentation.graphemeStarts (segmentation : Segmentation) (text : Text) : List Nat :=
  Utf8.pieceStarts 0 (segmentation.graphemes text)

/-- The finest segmentation, one cluster a scalar. -/
def Segmentation.scalars : Segmentation where
  graphemes text := text.map fun scalar => [scalar]
  flatten_graphemes text := by induction text <;> simp_all
  nonempty_graphemes text := by simp

/-- Indic conjunct break property of a scalar. -/
inductive InCb where
  | none
  | consonant
  | linker
  | extend
  deriving DecidableEq, Repr

/-- Ranges of the conjunct data, in ascending order. -/
def incbRanges : List (Nat × Nat × InCb) :=
  [(0x0300, 0x034E, .extend), (0x0350, 0x036F, .extend), (0x0483, 0x0487, .extend),
   (0x0591, 0x05BD, .extend), (0x05BF, 0x05BF, .extend), (0x05C1, 0x05C2, .extend),
   (0x05C4, 0x05C5, .extend), (0x05C7, 0x05C7, .extend), (0x0610, 0x061A, .extend),
   (0x064B, 0x065F, .extend), (0x0670, 0x0670, .extend), (0x06D6, 0x06DC, .extend),
   (0x06DF, 0x06E4, .extend), (0x06E7, 0x06E8, .extend), (0x06EA, 0x06ED, .extend),
   (0x0711, 0x0711, .extend), (0x0730, 0x074A, .extend), (0x07EB, 0x07F3, .extend),
   (0x07FD, 0x07FD, .extend), (0x0816, 0x0819, .extend), (0x081B, 0x0823, .extend),
   (0x0825, 0x0827, .extend), (0x0829, 0x082D, .extend), (0x0859, 0x085B, .extend),
   (0x0898, 0x089F, .extend), (0x08CA, 0x08E1, .extend), (0x08E3, 0x08FF, .extend),
   (0x0915, 0x0939, .consonant), (0x093C, 0x093C, .extend), (0x094D, 0x094D, .linker),
   (0x0951, 0x0954, .extend), (0x0958, 0x095F, .consonant), (0x0978, 0x097F, .consonant),
   (0x0995, 0x09A8, .consonant), (0x09AA, 0x09B0, .consonant), (0x09B2, 0x09B2, .consonant),
   (0x09B6, 0x09B9, .consonant), (0x09BC, 0x09BC, .extend), (0x09CD, 0x09CD, .linker),
   (0x09DC, 0x09DD, .consonant), (0x09DF, 0x09DF, .consonant), (0x09F0, 0x09F1, .consonant),
   (0x09FE, 0x09FE, .extend), (0x0A3C, 0x0A3C, .extend), (0x0A95, 0x0AA8, .consonant),
   (0x0AAA, 0x0AB0, .consonant), (0x0AB2, 0x0AB3, .consonant), (0x0AB5, 0x0AB9, .consonant),
   (0x0ABC, 0x0ABC, .extend), (0x0ACD, 0x0ACD, .linker), (0x0AF9, 0x0AF9, .consonant),
   (0x0B15, 0x0B28, .consonant), (0x0B2A, 0x0B30, .consonant), (0x0B32, 0x0B33, .consonant),
   (0x0B35, 0x0B39, .consonant), (0x0B3C, 0x0B3C, .extend), (0x0B4D, 0x0B4D, .linker),
   (0x0B5C, 0x0B5D, .consonant), (0x0B5F, 0x0B5F, .consonant), (0x0B71, 0x0B71, .consonant),
   (0x0C15, 0x0C28, .consonant), (0x0C2A, 0x0C39, .consonant), (0x0C3C, 0x0C3C, .extend),
   (0x0C4D, 0x0C4D, .linker), (0x0C55, 0x0C56, .extend), (0x0C58, 0x0C5A, .consonant),
   (0x0CBC, 0x0CBC, .extend), (0x0D15, 0x0D3A, .consonant), (0x0D3B, 0x0D3C, .extend),
   (0x0D4D, 0x0D4D, .linker), (0x0E38, 0x0E3A, .extend), (0x0E48, 0x0E4B, .extend),
   (0x0EB8, 0x0EBA, .extend), (0x0EC8, 0x0ECB, .extend), (0x0F18, 0x0F19, .extend),
   (0x0F35, 0x0F35, .extend), (0x0F37, 0x0F37, .extend), (0x0F39, 0x0F39, .extend),
   (0x0F71, 0x0F72, .extend), (0x0F74, 0x0F74, .extend), (0x0F7A, 0x0F7D, .extend),
   (0x0F80, 0x0F80, .extend), (0x0F82, 0x0F84, .extend), (0x0F86, 0x0F87, .extend),
   (0x0FC6, 0x0FC6, .extend), (0x1037, 0x1037, .extend), (0x1039, 0x103A, .extend),
   (0x108D, 0x108D, .extend), (0x135D, 0x135F, .extend), (0x1714, 0x1714, .extend),
   (0x17D2, 0x17D2, .extend), (0x17DD, 0x17DD, .extend), (0x18A9, 0x18A9, .extend),
   (0x1939, 0x193B, .extend), (0x1A17, 0x1A18, .extend), (0x1A60, 0x1A60, .extend),
   (0x1A75, 0x1A7C, .extend), (0x1A7F, 0x1A7F, .extend), (0x1AB0, 0x1ABD, .extend),
   (0x1ABF, 0x1ACE, .extend), (0x1B34, 0x1B34, .extend), (0x1B6B, 0x1B73, .extend),
   (0x1BAB, 0x1BAB, .extend), (0x1BE6, 0x1BE6, .extend), (0x1C37, 0x1C37, .extend),
   (0x1CD0, 0x1CD2, .extend), (0x1CD4, 0x1CE0, .extend), (0x1CE2, 0x1CE8, .extend),
   (0x1CED, 0x1CED, .extend), (0x1CF4, 0x1CF4, .extend), (0x1CF8, 0x1CF9, .extend),
   (0x1DC0, 0x1DFF, .extend), (0x200D, 0x200D, .extend), (0x20D0, 0x20DC, .extend),
   (0x20E1, 0x20E1, .extend), (0x20E5, 0x20F0, .extend), (0x2CEF, 0x2CF1, .extend),
   (0x2D7F, 0x2D7F, .extend), (0x2DE0, 0x2DFF, .extend), (0x302A, 0x302D, .extend),
   (0x302E, 0x302F, .extend), (0x3099, 0x309A, .extend), (0xA66F, 0xA66F, .extend),
   (0xA674, 0xA67D, .extend), (0xA69E, 0xA69F, .extend), (0xA6F0, 0xA6F1, .extend),
   (0xA82C, 0xA82C, .extend), (0xA8E0, 0xA8F1, .extend), (0xA92B, 0xA92D, .extend),
   (0xA9B3, 0xA9B3, .extend), (0xAAB0, 0xAAB0, .extend), (0xAAB2, 0xAAB4, .extend),
   (0xAAB7, 0xAAB8, .extend), (0xAABE, 0xAABF, .extend), (0xAAC1, 0xAAC1, .extend),
   (0xAAF6, 0xAAF6, .extend), (0xABED, 0xABED, .extend), (0xFB1E, 0xFB1E, .extend),
   (0xFE20, 0xFE2F, .extend), (0x101FD, 0x101FD, .extend), (0x102E0, 0x102E0, .extend),
   (0x10376, 0x1037A, .extend), (0x10A0D, 0x10A0D, .extend), (0x10A0F, 0x10A0F, .extend),
   (0x10A38, 0x10A3A, .extend), (0x10A3F, 0x10A3F, .extend), (0x10AE5, 0x10AE6, .extend),
   (0x10D24, 0x10D27, .extend), (0x10EAB, 0x10EAC, .extend), (0x10EFD, 0x10EFF, .extend),
   (0x10F46, 0x10F50, .extend), (0x10F82, 0x10F85, .extend), (0x11070, 0x11070, .extend),
   (0x1107F, 0x1107F, .extend), (0x110BA, 0x110BA, .extend), (0x11100, 0x11102, .extend),
   (0x11133, 0x11134, .extend), (0x11173, 0x11173, .extend), (0x111CA, 0x111CA, .extend),
   (0x11236, 0x11236, .extend), (0x112E9, 0x112EA, .extend), (0x1133B, 0x1133C, .extend),
   (0x11366, 0x1136C, .extend), (0x11370, 0x11374, .extend), (0x11446, 0x11446, .extend),
   (0x1145E, 0x1145E, .extend), (0x114C3, 0x114C3, .extend), (0x115C0, 0x115C0, .extend),
   (0x116B7, 0x116B7, .extend), (0x1172B, 0x1172B, .extend), (0x1183A, 0x1183A, .extend),
   (0x1193E, 0x1193E, .extend), (0x11943, 0x11943, .extend), (0x11A34, 0x11A34, .extend),
   (0x11A47, 0x11A47, .extend), (0x11A99, 0x11A99, .extend), (0x11D42, 0x11D42, .extend),
   (0x11D44, 0x11D45, .extend), (0x11D97, 0x11D97, .extend), (0x11F42, 0x11F42, .extend),
   (0x16AF0, 0x16AF4, .extend), (0x16B30, 0x16B36, .extend), (0x1BC9E, 0x1BC9E, .extend),
   (0x1D165, 0x1D165, .extend), (0x1D167, 0x1D169, .extend), (0x1D16E, 0x1D172, .extend),
   (0x1D17B, 0x1D182, .extend), (0x1D185, 0x1D18B, .extend), (0x1D1AA, 0x1D1AD, .extend),
   (0x1D242, 0x1D244, .extend), (0x1E000, 0x1E006, .extend), (0x1E008, 0x1E018, .extend),
   (0x1E01B, 0x1E021, .extend), (0x1E023, 0x1E024, .extend), (0x1E026, 0x1E02A, .extend),
   (0x1E08F, 0x1E08F, .extend), (0x1E130, 0x1E136, .extend), (0x1E2AE, 0x1E2AE, .extend),
   (0x1E2EC, 0x1E2EF, .extend), (0x1E4EC, 0x1E4EF, .extend), (0x1E8D0, 0x1E8D6, .extend),
   (0x1E944, 0x1E94A, .extend)]

/-- The conjunct property of a scalar, from the first range that does not end before it. -/
def conjunctProperty (c : Char) : InCb :=
  match incbRanges.find? (fun range => c.toNat ≤ range.2.1) with
  | some (start, _, value) => if start ≤ c.toNat then value else .none
  | none => .none

/-- Walking backwards from a boundary, a linker before any consonant joins the conjunct. -/
def linkedConjunct : Bool → Text → Bool
  | _, [] => false
  | linker, c :: rest =>
    match conjunctProperty c with
    | .linker => linkedConjunct true rest
    | .extend => linkedConjunct linker rest
    | .consonant => linker
    | .none => false

/-- Whether a cluster boundary falls inside an Indic conjunct and must be suppressed. -/
def indicConjunct (text : Text) (boundary : Nat) : Bool :=
  if (Utf8.dropBytes boundary text).head?.map conjunctProperty ≠ some .consonant then false
  else linkedConjunct false (Utf8.takeBytes boundary text).reverse

/-- The byte offset of the last grapheme of a text, or none for the empty text. -/
def lastGraphemeStart (segmentation : Segmentation) (text : Text) : Option Nat :=
  (segmentation.graphemeStarts text).reverse.find? fun start => !indicConjunct text start

/-- The last grapheme starts between two scalars. -/
theorem lastGraphemeStart_isCharBoundary {segmentation : Segmentation} {text : Text} {start : Nat}
    (found : lastGraphemeStart segmentation text = some start) : Utf8.IsCharBoundary text start := by
  -- The search only returns cluster starts, and the clusters concatenate to the text.
  have member := List.mem_of_find?_eq_some found
  rw [List.mem_reverse] at member
  have boundary := Utf8.pieceStarts_isCharBoundary
    (show start ∈ Utf8.pieceStarts (Utf8.byteLength []) (segmentation.graphemes text) from member)
  simpa [segmentation.flatten_graphemes] using boundary

end Nospacekey
