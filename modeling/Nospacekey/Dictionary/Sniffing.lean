import Nospacekey.Dictionary.UserDictionary
import Nospacekey.Settings.Recovery

/-! Bytes without zeros are taken as UTF-8: as units of two they look like no dictionary at all. -/

namespace Nospacekey

open Serde

variable {f64 : Type} (json : DictionaryJson f64)

/-! ## What is in a text -/

theorem mem_of_mem_trim {text : Text} {c : Char} (mem : c ∈ trim text) : c ∈ text := by
  rw [trim, List.mem_reverse] at mem
  have mem := (List.dropWhile_suffix _).subset mem
  exact (List.dropWhile_suffix _).subset (List.mem_reverse.mp mem)

/-- What is in a line is in the text. -/
theorem mem_of_mem_linesFrom {front rest line : Text} (there : line ∈ linesFrom front rest) {c : Char} (mem : c ∈ line) :
    c ∈ front ∨ c ∈ rest := by
  have stripped {s : Text} (mem : c ∈ stripCarriageReturn s) : c ∈ s := by
    rw [stripCarriageReturn] at mem
    split at mem
    · exact List.mem_of_mem_dropLast mem
    · exact mem
  fun_induction linesFrom front rest with
  | case1 => cases there
  | case2 front =>
    obtain rfl := List.mem_singleton.mp there
    exact .inl mem
  | case3 front rest ih =>
    rcases List.mem_cons.mp there with rfl | there
    · exact .inl (stripped mem)
    · exact (ih there).elim (fun none => by cases none) fun mem => .inr (.tail _ mem)
  | case4 front d rest other ih =>
    rcases ih there with mem | mem
    · rcases List.mem_append.mp mem with mem | mem
      · exact .inl mem
      · exact .inr (List.mem_singleton.mp mem ▸ .head _)
    · exact .inr (.tail _ mem)

/-- Columns need a tabulator. -/
theorem hasTsvColumns_of_no_tab {text : Text} (no_tab : '\t' ∉ text) : hasTsvColumns text = false := by
  rw [hasTsvColumns, List.any_eq_false]
  intro line there
  have whole : '\t' ∉ line := fun mem => no_tab ((mem_of_mem_linesFrom there mem).elim (fun none => by cases none) id)
  rw [List.splitOn_eq_singleton whole]
  simp

/-! ## Scores -/

/-- Only an array is read as an array, and only an object as an object. -/
theorem of_value_eq_array {document : Value f64} {items : List (Value f64)} (read : document.value = some (.array items)) :
    ∃ others, document = .array others := by
  cases document <;> simp [Json.value] at read
  exact ⟨_, rfl⟩

theorem of_value_eq_object {document : Value f64} {members : List (String × Value f64)}
    (read : document.value = some (.object members)) : ∃ others, document = .object others := by
  cases document <;> simp [Json.value] at read
  exact ⟨_, rfl⟩

/-- A text without brackets is no container. -/
theorem containerScore_of_no_bracket {text : Text} (no_array : '[' ∉ text) (no_object : '\x7b' ∉ text) :
    containerScore json text = 0 := by
  rw [containerScore]
  split
  · rename_i items read
    obtain ⟨document, parsed, value⟩ := Option.bind_eq_some_iff.mp read
    obtain ⟨others, rfl⟩ := of_value_eq_array value
    exact absurd (mem_of_mem_trim (json.bracket_of_array _ _ parsed)) no_array
  · rename_i members read
    obtain ⟨document, parsed, value⟩ := Option.bind_eq_some_iff.mp read
    obtain ⟨others, rfl⟩ := of_value_eq_object value
    exact absurd (mem_of_mem_trim (json.brace_of_object _ _ parsed)) no_object
  · rfl

/-- A text of scalars beyond the first ones looks like no dictionary. -/
theorem score_of_wide {text : Text} (wide : ∀ c ∈ text, 0x100 ≤ c.toNat) : dictionaryStructureScore json text = 0 := by
  unfold dictionaryStructureScore
  simp only
  generalize detection : (text.reverse.dropWhile (· = '\x00')).reverse = detectionText
  have wide : ∀ c ∈ detectionText, 0x100 ≤ c.toNat := by
    intro c mem
    rw [← detection, List.mem_reverse] at mem
    exact wide c (List.mem_reverse.mp ((List.dropWhile_suffix _).subset mem))
  have absent (c : Char) (narrow : c.toNat < 0x100) : c ∉ detectionText := fun mem => by
    have := wide c mem
    omega
  have no_control : detectionText.countP isInvalidInternalC0 = 0 := by
    rw [List.countP_eq_zero]
    intro c mem
    have := wide c mem
    simp [isInvalidInternalC0, isC0]
    omega
  -- No brackets, no tabulators, no control characters.
  rw [containerScore_of_no_bracket json (absent '[' (by decide)) (absent '\x7b' (by decide)),
    hasTsvColumns_of_no_tab (absent '\t' (by decide)), no_control]
  rfl

/-- Nothing but UTF-8 is chosen where nothing else has any evidence. -/
theorem bestEncoding_utf8 (bytes : ByteArray) {scores : List (Encoding × Int)}
    (no_evidence : ∀ entry ∈ scores, entry.1 ≠ .utf8 → entry.2 ≤ 0) : bestEncoding bytes scores = .utf8 := by
  unfold bestEncoding
  split
  · rfl
  · rename_i bestScore _
    split
    · rfl
    · rename_i positive
      have only : ∀ encoding ∈ (scores.filter fun entry => entry.2 = bestScore).map Prod.fst, encoding = .utf8 := by
        intro encoding mem
        obtain ⟨entry, scored, rfl⟩ := List.mem_map.mp mem
        obtain ⟨there, best⟩ := List.mem_filter.mp scored
        by_contra other
        have := no_evidence entry there other
        rw [decide_eq_true_eq] at best
        omega
      generalize (scores.filter fun entry => entry.2 = bestScore).map Prod.fst = best at only
      have absent (encoding : Encoding) (other : encoding ≠ .utf8) : best.contains encoding = false := by
        rw [List.contains_eq_mem, decide_eq_false_iff_not]
        exact fun mem => other (only encoding mem)
      simp only [absent .utf16Le (by decide), absent .utf16Be (by decide), Bool.and_false, Bool.false_eq_true, if_false,
        ite_self]
      -- A single best one is UTF-8, like all of them.
      cases best with
      | nil => simp
      | cons encoding rest => simp [only encoding (.head _)]

/-- Bytes that have neither zeros nor those of a byte order mark of 16 bits are taken as UTF-8. -/
theorem sniffEncoding_utf8 {bytes : ByteArray} (plain : ∀ b ∈ bytes.data.toList, b ≠ 0 ∧ b ≠ 0xFE ∧ b ≠ 0xFF) :
    sniffEncoding json bytes = .utf8 := by
  have no_mark {first second : UInt8} (marked : first = 0xFF ∨ first = 0xFE) :
      [first, second].isPrefixOf bytes.data.toList = false := by
    by_contra begins
    have mem : first ∈ bytes.data.toList :=
      (List.isPrefixOf_iff_prefix.mp (by simpa using begins)).subset (.head _)
    exact marked.elim (plain first mem).2.2 (plain first mem).2.1
  rw [sniffEncoding]
  simp only [no_mark (.inl rfl), no_mark (.inr rfl), Bool.false_eq_true, if_false]
  split
  · rfl
  · refine bestEncoding_utf8 bytes fun entry there other => ?_
    obtain ⟨candidate, listed, scored⟩ := List.mem_filterMap.mp there
    obtain ⟨text, decoded, rfl⟩ := Option.map_eq_some_iff.mp scored
    -- Units of two such bytes are all beyond what a dictionary would show itself by.
    have nothing {le : Bool} (decoded : decodeUtf16Strict bytes le = some text) :
        dictionaryStructureScore json text ≤ 0 :=
      (score_of_wide json fun c mem => le_of_decodeUtf16Strict (fun b inside => (plain b inside).1) decoded mem).le
    simp only [List.mem_cons, List.not_mem_nil, or_false] at listed
    rcases listed with rfl | rfl | rfl
    · exact absurd rfl other
    · exact nothing decoded
    · exact nothing decoded

/-! ## Texts that are read back -/

theorem plain_encodeUtf8 {text : Text} (visible : ∀ c ∈ text, c.toNat ≠ 0) :
    ∀ b ∈ (encodeUtf8 text).data.toList, b ≠ 0 ∧ b ≠ 0xFE ∧ b ≠ 0xFF :=
  fun _ => mem_encodeUtf8 visible

theorem stripLeadingBom_of_head {text : Text} (unmarked : text.head? ≠ some '\uFEFF') : stripLeadingBom text = text := by
  unfold stripLeadingBom
  split
  · exact absurd rfl unmarked
  · rfl

/-- A text without null characters and without a mark in front is read back as it was written. -/
theorem decodeBytes_encodeUtf8 {text : Text} (visible : ∀ c ∈ text, c.toNat ≠ 0)
    (unmarked : text.head? ≠ some '\uFEFF') : decodeBytes json (encodeUtf8 text) = some text := by
  rw [decodeBytes, sniffEncoding_utf8 json (plain_encodeUtf8 visible)]
  simp only [decodeUtf8_encodeUtf8, Option.map_some, stripLeadingBom_of_head unmarked]

theorem decodeBytesLossy_encodeUtf8 {text : Text} (visible : ∀ c ∈ text, c.toNat ≠ 0)
    (unmarked : text.head? ≠ some '\uFEFF') : decodeBytesLossy json (encodeUtf8 text) = (text, false) := by
  rw [decodeBytesLossy, sniffEncoding_utf8 json (plain_encodeUtf8 visible)]
  simp only [fromUtf8Lossy, decodeUtf8_encodeUtf8, stripLeadingBom_of_head unmarked]

end Nospacekey
