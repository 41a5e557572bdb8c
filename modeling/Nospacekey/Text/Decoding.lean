import Nospacekey.Library.Index
import Nospacekey.Settings.Load

/-! Texts from bytes in UTF-8 and UTF-16, strictly and with replacements, and the lines of a text. -/

namespace Nospacekey

/-- What stands in a text for bytes that could not be read. -/
def replacementCharacter : Char := '\uFFFD'

/-- The bytes that may follow the first one where a scalar has three or four. -/
def followsFirst (first second : UInt8) : Bool :=
  if first = 0xE0 then 0xA0 ≤ second && second ≤ 0xBF
  else if first = 0xED then 0x80 ≤ second && second ≤ 0x9F
  else if first = 0xF0 then 0x90 ≤ second && second ≤ 0xBF
  else if first = 0xF4 then 0x80 ≤ second && second ≤ 0x8F
  else 0x80 ≤ second && second ≤ 0xBF

/-- How many bytes are replaced together: those that a scalar could have begun with. -/
def invalidLength : List UInt8 → Nat
  | first :: second :: rest =>
    if 0xE0 ≤ first && first ≤ 0xEF then if followsFirst first second then 2 else 1
    else if 0xF0 ≤ first && first ≤ 0xF4 then
      if !followsFirst first second then 1
      else
        match rest with
        | third :: _ => if 0x80 ≤ third && third ≤ 0xBF then 3 else 2
        | [] => 2
    else 1
  | _ => 1

/-- The text of bytes with replacements, of at most so many scalars. -/
def replaceInvalid : Nat → List UInt8 → Text
  | 0, _ => []
  | _, [] => []
  | fuel + 1, bytes =>
    match bytes.toByteArray.utf8DecodeChar? 0 with
    | some c => c :: replaceInvalid fuel (bytes.drop c.utf8Size)
    | none => replacementCharacter :: replaceInvalid fuel (bytes.drop (invalidLength bytes))

/-- Bytes as UTF-8, and whether something was replaced. -/
def fromUtf8Lossy (bytes : ByteArray) : Text × Bool :=
  match decodeUtf8 bytes with
  | some text => (text, false)
  | none => (replaceInvalid bytes.size bytes.data.toList, true)

/-- The units of 16 bits. An odd byte at the end is left out. -/
def utf16Units (le : Bool) : List UInt8 → List Nat
  | first :: second :: rest =>
    (if le then first.toNat + 256 * second.toNat else 256 * first.toNat + second.toNat) :: utf16Units le rest
  | _ => []

/-- The scalars of units, with nothing for a surrogate that has no partner. -/
def decodeUtf16 : List Nat → List (Option Char)
  | [] => []
  | [u] => if u < 0xD800 ∨ 0xDFFF < u then [some (Char.ofNat u)] else [none]
  | u :: next :: rest =>
    if u < 0xD800 ∨ 0xDFFF < u then some (Char.ofNat u) :: decodeUtf16 (next :: rest)
    else if u < 0xDC00 ∧ 0xDC00 ≤ next ∧ next ≤ 0xDFFF then
      some (Char.ofNat (0x10000 + (u - 0xD800) * 0x400 + (next - 0xDC00))) :: decodeUtf16 rest
    else none :: decodeUtf16 (next :: rest)

def decodeUtf16Strict (bytes : ByteArray) (le : Bool) : Option Text :=
  if bytes.size % 2 = 0 then (decodeUtf16 (utf16Units le bytes.data.toList)).mapM id else none

def decodeUtf16Lossy (bytes : ByteArray) (le : Bool) : Text × Bool :=
  let scalars := decodeUtf16 (utf16Units le bytes.data.toList)
  (scalars.map fun scalar => scalar.getD replacementCharacter, bytes.size % 2 ≠ 0 || scalars.any Option.isNone)

/-- A carriage return in front of a line feed belongs to the end of the line. -/
def stripCarriageReturn (line : Text) : Text := if line.getLast? = some '\r' then line.dropLast else line

/-- The lines of a text behind the beginning of one. -/
def linesFrom (line : Text) : Text → List Text
  | [] => if line.isEmpty then [] else [line]
  | c :: rest => if c = '\n' then stripCarriageReturn line :: linesFrom [] rest else linesFrom (line ++ [c]) rest

def lines (text : Text) : List Text := linesFrom [] text

/-- A text without the white space around it. -/
def trim (text : Text) : Text :=
  ((text.dropWhile Serde.isWhitespace).reverse.dropWhile Serde.isWhitespace).reverse

/-! ## Bytes without zeros -/

/-- A scalar that is not null has no zero byte, and no byte of a byte order mark of 16 bits. -/
theorem mem_utf8EncodeChar {c : Char} (visible : c.toNat ≠ 0) {b : UInt8} (mem : b ∈ String.utf8EncodeChar c) :
    b ≠ 0 ∧ b ≠ 0xFE ∧ b ≠ 0xFF := by
  have bound : c.val.toNat < 0x110000 := by
    have := c.valid
    rcases this with small | ⟨-, small⟩ <;> omega
  have value : c.val.toNat ≠ 0 := visible
  have apart (n : Nat) (low : 0 < n) (high : n < 0xFE) (same : b = UInt8.ofNat n) : b ≠ 0 ∧ b ≠ 0xFE ∧ b ≠ 0xFF := by
    have byte : b.toNat = n := by
      rw [same, UInt8.toNat_ofNat']
      omega
    refine ⟨?_, ?_, ?_⟩ <;> (rintro rfl; simp at byte; omega)
  -- Every byte is made of some bits of the scalar over a mark, or is the scalar itself.
  unfold String.utf8EncodeChar at mem
  simp only at mem
  split_ifs at mem <;> simp only [List.mem_cons, List.not_mem_nil, or_false] at mem
  · exact apart _ (by omega) (by omega) mem
  · rcases mem with same | same <;> exact apart _ (by omega) (by omega) same
  · rcases mem with same | same | same <;> exact apart _ (by omega) (by omega) same
  · rcases mem with same | same | same | same <;> exact apart _ (by omega) (by omega) same

theorem data_encodeUtf8 (text : Text) : (encodeUtf8 text).data.toList = text.flatMap String.utf8EncodeChar := by
  rw [encodeUtf8, String.toUTF8_eq_toByteArray]
  simp [List.utf8Encode]

/-- A text without null characters has no zero bytes. -/
theorem mem_encodeUtf8 {text : Text} (visible : ∀ c ∈ text, c.toNat ≠ 0) {b : UInt8}
    (mem : b ∈ (encodeUtf8 text).data.toList) : b ≠ 0 ∧ b ≠ 0xFE ∧ b ≠ 0xFF := by
  rw [data_encodeUtf8, List.mem_flatMap] at mem
  obtain ⟨c, inside, mem⟩ := mem
  exact mem_utf8EncodeChar (visible c inside) mem

/-- Units of two bytes that are no zeros are beyond the control characters. -/
theorem le_of_mem_utf16Units {le : Bool} {bytes : List UInt8} (nonzero : ∀ b ∈ bytes, b ≠ 0) {u : Nat}
    (mem : u ∈ utf16Units le bytes) : 0x100 ≤ u ∧ u < 0x10000 := by
  fun_induction utf16Units le bytes with
  | case1 first second rest ih =>
    simp only [List.mem_cons, forall_eq_or_imp] at nonzero mem
    obtain ⟨first_pos, second_pos, nonzero⟩ := nonzero
    rcases mem with rfl | mem
    · have first_pos : first.toNat ≠ 0 := fun zero => first_pos (UInt8.toNat_inj.mp zero)
      have second_pos : second.toNat ≠ 0 := fun zero => second_pos (UInt8.toNat_inj.mp zero)
      have := first.toNat_lt
      have := second.toNat_lt
      split <;> omega
    · exact ih nonzero mem
  | case2 => cases mem

/-- A scalar has the number that it is made of. -/
theorem toNat_charOfNat {n : Nat} (valid : n.isValidChar) : (Char.ofNat n).toNat = n := by
  rw [Char.ofNat, dif_pos valid]
  rfl

/-- Scalars of such units are beyond the control characters too. -/
theorem le_of_mem_decodeUtf16 {units : List Nat} (wide : ∀ u ∈ units, 0x100 ≤ u ∧ u < 0x10000) {c : Char}
    (mem : some c ∈ decodeUtf16 units) : 0x100 ≤ c.toNat := by
  have scalar {n : Nat} (large : 0x100 ≤ n) (valid : n.isValidChar) : 0x100 ≤ (Char.ofNat n).toNat := by
    rwa [toNat_charOfNat valid]
  fun_induction decodeUtf16 units with
  | case1 => cases mem
  | case2 u plain =>
    have := wide u (.head _)
    rw [List.mem_singleton, Option.some.injEq] at mem
    subst mem
    exact scalar this.1 (by simp only [Nat.isValidChar]; omega)
  | case3 u => simp at mem
  | case4 u next rest plain ih =>
    have := wide u (.head _)
    rw [List.mem_cons, Option.some.injEq] at mem
    rcases mem with rfl | mem
    · exact scalar this.1 (by simp only [Nat.isValidChar]; omega)
    · exact ih (fun v inside => wide v (.tail _ inside)) mem
  | case5 u next rest surrogate pair ih =>
    rw [List.mem_cons, Option.some.injEq] at mem
    rcases mem with same | mem
    · rw [same]
      exact scalar (by omega) (by simp only [Nat.isValidChar]; omega)
    · exact ih (fun v inside => wide v (.tail _ (.tail _ inside))) mem
  | case6 u next rest surrogate lone ih =>
    exact ih (fun v inside => wide v (.tail _ inside)) (by simpa using mem)

/-- Nothing in a text is a control character that bytes without zeros are as units of two. -/
theorem le_of_decodeUtf16Strict {bytes : ByteArray} {le : Bool} {text : Text}
    (nonzero : ∀ b ∈ bytes.data.toList, b ≠ 0) (decoded : decodeUtf16Strict bytes le = some text) {c : Char}
    (mem : c ∈ text) : 0x100 ≤ c.toNat := by
  rw [decodeUtf16Strict, Option.ite_none_right_eq_some] at decoded
  obtain ⟨-, decoded⟩ := decoded
  have all_decoded : decodeUtf16 (utf16Units le bytes.data.toList) = text.map some := by
    have each := Index.mapM_eq_some_iff.mp decoded
    rwa [← List.forall₂_eq_eq_eq, List.forall₂_map_right_iff]
  have decoded : some c ∈ decodeUtf16 (utf16Units le bytes.data.toList) := by
    rw [all_decoded]
    exact List.mem_map_of_mem mem
  exact le_of_mem_decodeUtf16 (fun u inside => le_of_mem_utf16Units nonzero inside) decoded

/-! ## Lines -/

/-- A line that ends is the first one, whatever comes behind it. -/
theorem linesFrom_append {front : Text} (whole : '\n' ∉ front) (line rest : Text) :
    linesFrom line (front ++ '\n' :: rest) = stripCarriageReturn (line ++ front) :: lines rest := by
  induction front generalizing line with
  | nil =>
    rw [List.nil_append, linesFrom, if_pos rfl, List.append_nil]
    rfl
  | cons c front ih =>
    rw [List.mem_cons, not_or] at whole
    -- The character goes to the line that is read.
    rw [List.cons_append, linesFrom, if_neg (Ne.symm whole.1), ih whole.2, List.append_assoc, List.singleton_append]

/-- A carriage return and a line feed end a line. -/
theorem lines_crlf {front : Text} (whole : '\n' ∉ front) (rest : Text) :
    lines (front ++ '\r' :: '\n' :: rest) = front :: lines rest := by
  have := @linesFrom_append (front ++ ['\r']) (by simpa using whole) [] rest
  simpa [lines, stripCarriageReturn] using this

end Nospacekey
