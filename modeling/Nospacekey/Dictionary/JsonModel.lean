import Nospacekey.Dictionary.UserDictionary
import Nospacekey.Library.SerdeModel

/-! A parser and a printer as dictionaries rely on them: one document is printed as it would be, others in a code. -/

namespace Nospacekey

open Serde

/-- The bracket that a document opens with. -/
def openingBracket : Value ℚ → Text
  | .array _ => ['[']
  | .object _ => ['\x7b']
  | _ => []

/-- A document as its bracket and the number of its code. -/
def codedText (document : Value ℚ) : Text :=
  openingBracket document ++ List.replicate (Encodable.encode (Code.ofJson document) + 1) 'x'

theorem mem_codedText {document : Value ℚ} {c : Char} (mem : c ∈ codedText document) :
    c = '[' ∨ c = '\x7b' ∨ c = 'x' := by
  rcases List.mem_append.mp mem with mem | mem
  · cases document <;> simp_all [openingBracket]
  · exact .inr (.inr (List.eq_of_mem_replicate mem))

/-- The document of a number, if there is one. -/
def documentOf (number : Nat) : Option (Value ℚ) := (Encodable.decode number).map Code.toJson

theorem documentOf_encode (document : Value ℚ) :
    documentOf (Encodable.encode (Code.ofJson document)) = some document := by
  rw [documentOf, Encodable.encodek, Option.map_some, Code.toJson_ofJson]

theorem eq_of_encode_eq {document other : Value ℚ}
    (same : Encodable.encode (Code.ofJson document) = Encodable.encode (Code.ofJson other)) : document = other := by
  have := documentOf_encode document
  rw [same, documentOf_encode] at this
  exact (Option.some.inj this).symm

/-- The number behind the brackets of a text. -/
def codedNumber (text : Text) : Nat := (text.dropWhile fun c => c = '[' || c = '\x7b').length - 1

theorem codedNumber_codedText (document : Value ℚ) :
    codedNumber (codedText document) = Encodable.encode (Code.ofJson document) := by
  have behind (bracket : Text) (all : ∀ c ∈ bracket, (c = '[' || c = '\x7b') = true) (number : Nat) :
      codedNumber (bracket ++ List.replicate (number + 1) 'x') = number := by
    rw [codedNumber, List.dropWhile_append_of_pos all, List.replicate_succ, List.dropWhile_cons_of_neg (by decide)]
    simp
  exact behind _ (by cases document <;> simp [openingBracket]) _

/-- What a text is read as besides the one document that is shown. -/
def readCoded (text : Text) : Option (Value ℚ) :=
  (documentOf (codedNumber text)).filter fun document => codedText document = text

theorem readCoded_eq_some {text : Text} {document : Value ℚ} :
    readCoded text = some document ↔ codedText document = text := by
  rw [readCoded, Option.filter_eq_some_iff, decide_eq_true_eq, and_iff_right_iff_imp]
  rintro rfl
  rw [codedNumber_codedText, documentOf_encode]

/-- One document and its text are known. -/
def shownJson (shown : Value ℚ) (text : Text) (items : List (Value ℚ)) (isArray : shown = .array items)
    (opens : text.head? = some '[') (plain : ∀ c ∈ text, isC0 c = true → c = '\n')
    (apart : ∃ c ∈ text, c ≠ '[' ∧ c ≠ '\x7b' ∧ c ≠ 'x') : DictionaryJson ℚ :=
  let read (other : Text) := if other = text then some shown else readCoded other
  let print (document : Value ℚ) :=
    if Encodable.encode (Code.ofJson document) = Encodable.encode (Code.ofJson shown) then text else codedText document
  have mem_text : '[' ∈ text := List.mem_of_mem_head? opens
  have not_coded (document : Value ℚ) : codedText document ≠ text := by
    rintro rfl
    obtain ⟨c, mem, array, object, number⟩ := apart
    exact (mem_codedText mem).elim array fun mem => mem.elim object number
  have read_print (document : Value ℚ) : read (print document) = some document := by
    by_cases same : Encodable.encode (Code.ofJson document) = Encodable.encode (Code.ofJson shown)
    · simp only [read, print, eq_of_encode_eq same, if_true]
    · simp only [read, print, same, if_false, not_coded document]
      exact readCoded_eq_some.mpr rfl
  { fromStr := read
    toStringPretty := print
    error := id
    fromStr_toStringPretty := fun document _ => read_print document
    fromStr_blank := by
      intro other blank
      have white (c : Char) (mem : c ∈ other) : isWhitespace c = true := List.all_eq_true.mp blank c mem
      by_cases same : other = text
      · exact absurd (white '[' (same ▸ mem_text)) (by decide)
      · simp only [read, same, if_false]
        by_contra found
        obtain ⟨document, found⟩ := Option.ne_none_iff_exists'.mp found
        have coded := readCoded_eq_some.mp found
        exact absurd (white 'x' (coded ▸ List.mem_append_right _ (by simp))) (by decide)
    bracket_of_array := by
      intro other items parsed
      by_cases same : other = text
      · exact same ▸ mem_text
      · simp only [read, same, if_false] at parsed
        rw [← readCoded_eq_some.mp parsed]
        exact .head _
    brace_of_object := by
      intro other members parsed
      by_cases same : other = text
      · simp [read, same, isArray] at parsed
      · simp only [read, same, if_false] at parsed
        rw [← readCoded_eq_some.mp parsed]
        exact .head _
    pretty_array := by
      intro items
      by_cases same : Encodable.encode (Code.ofJson (.array items)) = Encodable.encode (Code.ofJson shown)
      · obtain ⟨rest, split⟩ := List.head?_eq_some_iff.mp opens
        exact ⟨rest, by simp only [print, same, if_true, split]⟩
      · exact ⟨List.replicate (Encodable.encode (Code.ofJson (.array items)) + 1) 'x', by
          simp only [print, same, if_false]
          rfl⟩
    pretty_control := by
      intro document c mem control
      by_cases same : Encodable.encode (Code.ofJson document) = Encodable.encode (Code.ofJson shown)
      · simp only [print, same, if_true] at mem
        exact plain c mem control
      · simp only [print, same, if_false] at mem
        rcases mem_codedText mem with rfl | rfl | rfl <;> cases control
    fromStr_records := fun _ _ => read_print _ }

end Nospacekey
