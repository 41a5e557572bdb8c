import Nospacekey.Dictionary.JsonModel
import Nospacekey.Dictionary.Merging
import Nospacekey.Dictionary.Sniffing

/-! What an export writes is what an import reads, and what a save writes is what a load reads. -/

namespace Nospacekey

open Serde StableSort

variable {f64 : Type}

/-! ## Exports -/

def sortedEntries (entries : List UserDictEntry) : List UserDictEntry := entries.mergeSort (byRank sortKey)

/-- An entry is written unless a line of it would break the table. -/
def isWritten (e : UserDictEntry) : Bool := !(hasControlChar e.ruby || hasControlChar e.word)

/-- The entries that are written, in their order. -/
def writtenEntries (entries : List UserDictEntry) : List UserDictEntry := (sortedEntries entries).filter isWritten

/-- An entry with the part of speech that it is counted as. -/
def withCanonicalPos (e : UserDictEntry) : UserDictEntry := { e with pos := some (canonicalPos e.pos) }

theorem foldl_exportEntry (entries : List UserDictEntry) (out : ExportOutput) :
    entries.foldl exportEntry out =
      ⟨out.tsv ++ (entries.filter isWritten).flatMap tsvLine, out.written + (entries.filter isWritten).length,
        out.skippedControl + (entries.length - (entries.filter isWritten).length)⟩ := by
  induction entries generalizing out with
  | nil => simp
  | cons e entries ih =>
    have short := List.length_filter_le isWritten entries
    rw [List.foldl_cons, ih, exportEntry, hasControlChar_canonicalPos, Bool.or_false]
    by_cases control : (hasControlChar e.ruby || hasControlChar e.word) = true
    · have skipped : isWritten e = false := by rw [isWritten, control]; rfl
      rw [if_pos control, List.filter_cons_of_neg (by rw [skipped]; decide)]
      simp only [List.length_cons, ExportOutput.mk.injEq, true_and]
      omega
    · have written : isWritten e = true := by rw [isWritten, Bool.eq_false_iff.mpr control]; rfl
      rw [if_neg control, List.filter_cons_of_pos written]
      simp only [List.flatMap_cons, List.length_cons, List.append_assoc, ExportOutput.mk.injEq, true_and]
      omega

theorem toGoogleTsv_eq (entries : List UserDictEntry) :
    toGoogleTsv entries =
      ⟨(writtenEntries entries).flatMap tsvLine, (writtenEntries entries).length,
        entries.length - (writtenEntries entries).length⟩ := by
  rw [toGoogleTsv, foldl_exportEntry]
  simp [writtenEntries, sortedEntries]

/-- Every entry is written or counted as skipped. -/
theorem written_add_skippedControl (entries : List UserDictEntry) :
    (toGoogleTsv entries).written + (toGoogleTsv entries).skippedControl = entries.length := by
  have short : (writtenEntries entries).length ≤ entries.length := by
    have := List.length_filter_le isWritten (sortedEntries entries)
    rwa [sortedEntries, List.length_mergeSort] at this
  rw [toGoogleTsv_eq]
  simp only
  omega

theorem pairwise_writtenEntries (entries : List UserDictEntry) :
    (writtenEntries entries).Pairwise fun a b => sortKey a ≤ sortKey b := by
  have sorted := (pairwise_mergeSort sortKey entries).filter isWritten
  exact sorted.imp fun before => by simpa [byRank] using before

theorem perm_writtenEntries (entries : List UserDictEntry) :
    (writtenEntries entries).Perm (entries.filter isWritten) :=
  (List.mergeSort_perm entries (byRank sortKey)).filter isWritten

/-- What was written is written again as it is: it is sorted, and its parts of speech are canonical. -/
theorem toGoogleTsv_again (entries : List UserDictEntry) :
    (toGoogleTsv ((writtenEntries entries).map withCanonicalPos)).tsv = (toGoogleTsv entries).tsv := by
  have sorted : sortedEntries ((writtenEntries entries).map withCanonicalPos) =
      (writtenEntries entries).map withCanonicalPos := by
    refine List.mergeSort_of_pairwise (List.pairwise_map.mpr ?_)
    exact (pairwise_writtenEntries entries).imp fun before => decide_eq_true before
  have kept : ((writtenEntries entries).map withCanonicalPos).filter isWritten =
      (writtenEntries entries).map withCanonicalPos := by
    rw [List.filter_eq_self]
    intro e mem
    obtain ⟨original, written, rfl⟩ := List.mem_map.mp mem
    exact (List.mem_filter.mp written).2
  have line (e : UserDictEntry) : tsvLine (withCanonicalPos e) = tsvLine e := by
    simp only [tsvLine, withCanonicalPos, canonicalPos_idempotent]
  rw [toGoogleTsv_eq, toGoogleTsv_eq, writtenEntries, sorted, kept, List.flatMap_map]
  simp only [line]

/-! ## Imports of exports -/

theorem not_isC0 {s : Text} (plain : hasControlChar s = false) {c : Char} (mem : c ∈ s) : 0x1F < c.toNat := by
  have := List.any_eq_false.mp plain c mem
  simpa [isC0] using this

theorem not_mem_of_isC0 {s : Text} (plain : hasControlChar s = false) {c : Char} (control : isC0 c = true) : c ∉ s := by
  intro mem
  have := List.any_eq_false.mp plain c mem
  exact this control

/-- A line without its end. -/
def tsvColumns (e : UserDictEntry) : Text := e.ruby ++ '\t' :: (e.word ++ '\t' :: canonicalPos e.pos)

theorem tsvLine_eq (e : UserDictEntry) : tsvLine e = tsvColumns e ++ ['\r', '\n'] := by
  simp [tsvLine, tsvColumns]

theorem isWritten_iff (e : UserDictEntry) :
    isWritten e = true ↔ hasControlChar e.ruby = false ∧ hasControlChar e.word = false := by
  simp [isWritten]

/-- The lines of a table are its rows. -/
theorem lines_flatMap {entries : List UserDictEntry} (written : ∀ e ∈ entries, isWritten e = true) :
    lines (entries.flatMap tsvLine) = entries.map tsvColumns := by
  induction entries with
  | nil => rfl
  | cons e entries ih =>
    have whole : '\n' ∉ tsvColumns e := by
      have fields := (isWritten_iff e).mp (written e (.head _))
      have pos := hasControlChar_canonicalPos e.pos
      simp [tsvColumns, not_mem_of_isC0 fields.1 (c := '\n') (by decide), not_mem_of_isC0 fields.2 (c := '\n') (by decide),
        not_mem_of_isC0 pos (c := '\n') (by decide)]
    have split : (e :: entries).flatMap tsvLine = tsvColumns e ++ '\r' :: '\n' :: entries.flatMap tsvLine := by
      rw [List.flatMap_cons, tsvLine_eq, List.append_assoc]
      rfl
    rw [split, lines_crlf whole, ih fun e inside => written e (.tail _ inside), List.map_cons]

/-- A row is read as the entry that it was written for. -/
theorem parseLine_tsvColumns {e : UserDictEntry} (written : isWritten e = true)
    (valid : validateEntry e.ruby e.word = .ok ()) : parseLine (tsvColumns e) = some (withCanonicalPos e) := by
  obtain ⟨ruby, word⟩ := (isWritten_iff e).mp written
  obtain ⟨c, rest, front, kana⟩ := head_of_validateEntry valid
  have columns : (tsvColumns e).splitOn '\t' = [e.ruby, e.word, canonicalPos e.pos] := by
    rw [tsvColumns, List.splitOn_append_cons_self_of_not_mem (not_mem_of_isC0 ruby (c := '\t') (by decide)),
      List.splitOn_append_cons_self_of_not_mem (not_mem_of_isC0 word (c := '\t') (by decide)),
      List.splitOn_eq_singleton (not_mem_of_isC0 (hasControlChar_canonicalPos e.pos) (by decide))]
  -- A blank or kana in front is no mark of a comment.
  have no_comment : c ≠ '!' ∧ c ≠ '#' := by
    constructor <;> rintro rfl <;> revert kana <;> decide
  have begins : (tsvColumns e).head? = some c := by simp [tsvColumns, front]
  have present : (tsvColumns e).isEmpty = false := by simp [tsvColumns, front]
  rw [parseLine, begins, present, columns]
  simp [no_comment, withCanonicalPos]

/-- Nothing in a table is a null character, and no mark stands in front. -/
theorem visible_flatMap {entries : List UserDictEntry} (written : ∀ e ∈ entries, isWritten e = true) :
    ∀ c ∈ entries.flatMap tsvLine, c.toNat ≠ 0 := by
  intro c mem
  obtain ⟨e, inside, mem⟩ := List.mem_flatMap.mp mem
  obtain ⟨ruby, word⟩ := (isWritten_iff e).mp (written e inside)
  simp only [tsvLine, List.mem_append, List.mem_cons, List.not_mem_nil, or_false] at mem
  rcases mem with mem | rfl | mem | rfl | mem | rfl | rfl
  · have := not_isC0 ruby mem
    omega
  · decide
  · have := not_isC0 word mem
    omega
  · decide
  · have := not_isC0 (hasControlChar_canonicalPos e.pos) mem
    omega
  · decide
  · decide

theorem unmarked_flatMap {entries : List UserDictEntry}
    (valid : ∀ e ∈ entries, validateEntry e.ruby e.word = .ok ()) :
    (entries.flatMap tsvLine).head? ≠ some '\uFEFF' := by
  cases entries with
  | nil => simp
  | cons e entries =>
    obtain ⟨c, rest, front, kana⟩ := head_of_validateEntry (valid e (.head _))
    simp only [List.flatMap_cons, tsvLine, front, List.cons_append, List.head?_cons, ne_eq, Option.some.injEq]
    rintro rfl
    revert kana
    decide

/-- An export is imported row by row, without a replacement. -/
theorem parseTsv_toGoogleTsv (json : DictionaryJson f64) {entries : List UserDictEntry}
    (valid : ∀ e ∈ entries, validateEntry e.ruby e.word = .ok ()) :
    parseTsv json (encodeUtf8 (toGoogleTsv entries).tsv) = ⟨(writtenEntries entries).map withCanonicalPos, false⟩ := by
  have written : ∀ e ∈ writtenEntries entries, isWritten e = true := fun e inside => (List.mem_filter.mp inside).2
  have valid : ∀ e ∈ writtenEntries entries, validateEntry e.ruby e.word = .ok () := fun e inside =>
    valid e (List.mem_of_mem_filter ((perm_writtenEntries entries).subset inside))
  rw [toGoogleTsv_eq, parseTsv]
  simp only [decodeBytesLossy_encodeUtf8 json (visible_flatMap written) (unmarked_flatMap valid), lines_flatMap written,
    List.filterMap_map, ParsedTsv.mk.injEq, and_true]
  -- Every line is the row of its entry.
  rw [← List.filterMap_eq_map]
  exact List.filterMap_congr fun e inside => parseLine_tsvColumns (written e inside) (valid e inside)

/-! ## The file -/

theorem ofJson_fields (e : UserDictEntry) :
    UserDictEntry.ofJson (.object (e.fields.map fun field => (field.1, .string field.2)) : Value f64) = some e := by
  obtain ⟨ruby, word, pos⟩ := e
  cases pos <;> rfl

theorem nodup_fields (e : UserDictEntry) : (e.fields.map Prod.fst).Nodup := by
  obtain ⟨ruby, word, pos⟩ := e
  cases pos <;> simp [UserDictEntry.fields]

theorem isEmpty_encodeUtf8 (c : Char) (rest : Text) : (encodeUtf8 (c :: rest)).isEmpty = false := by
  by_contra empty
  have size : (encodeUtf8 (c :: rest)).data.toList.length = 0 := by
    simpa [ByteArray.isEmpty] using empty
  -- Every scalar has a byte.
  rw [data_encodeUtf8, List.length_eq_zero_iff, List.flatMap_cons, List.append_eq_nil_iff] at size
  exact String.utf8EncodeChar_ne_nil size.1

theorem isEmpty_trim {c : Char} (visible : isWhitespace c = false) (rest : Text) : (trim (c :: rest)).isEmpty = false := by
  rw [trim, List.dropWhile_cons_of_neg (by simp [visible]), List.isEmpty_reverse, List.isEmpty_eq_false_iff, ne_eq,
    List.reverse_cons, List.dropWhile_append]
  split
  · simp [visible]
  · simp

/-- A load of what a save wrote gives the first entry of every key. -/
theorem loadFromWith_saveTo (json : DictionaryJson f64) (entries : List UserDictEntry) (rename copy : Bool) :
    loadFromWith json (.ok (saveTo json entries)) rename copy =
      .ok ⟨firstEntries entries, entries.length - (firstEntries entries).length, .none⟩ := by
  have parsed := json.fromStr_records (entries.map UserDictEntry.fields) (by simp [nodup_fields])
  simp only [List.map_map, Function.comp_def] at parsed
  rw [loadFromWith, saveTo]
  generalize printed : (entries.map fun e => (.object (e.fields.map fun field => (field.1, .string field.2)) : Value f64)) =
    items at parsed ⊢
  have read : items.mapM UserDictEntry.ofJson = some entries := by
    rw [Index.mapM_eq_some_iff, ← printed, List.forall₂_map_left_iff]
    exact List.forall₂_same.mpr fun e _ => ofJson_fields e
  obtain ⟨rest, begins⟩ := json.pretty_array items
  have visible : ∀ c ∈ json.toStringPretty (.array items), c.toNat ≠ 0 := by
    intro c mem zero
    have escaped := json.pretty_control _ c mem (by simp [isC0, zero])
    subst escaped
    cases zero
  have decoded := decodeBytes_encodeUtf8 json visible (by simp [begins])
  -- The text begins with a bracket, so it is neither empty nor blank.
  have nonempty : (encodeUtf8 (json.toStringPretty (.array items))).isEmpty = false := by
    rw [begins, isEmpty_encodeUtf8]
  have present : (trim (json.toStringPretty (.array items))).isEmpty = false := by
    rw [begins, isEmpty_trim (by decide)]
  simp only [nonempty, decoded, present, parsed, read, Bool.false_eq_true, if_false, dedupEntries_eq]

/-! ## The dictionary -/

/-- Nothing is lost between the user, tables and the file. Exports are read as they were written, whatever encoding is
looked for; imports add the first valid row of every new key, once; normalised texts stay as they are; and the file
gives back the first entry of every key. -/
theorem userDictionary_kept (json : DictionaryJson f64) :
    (∀ entries : List UserDictEntry, (∀ e ∈ entries, validateEntry e.ruby e.word = .ok ()) →
      let out := toGoogleTsv entries
      let parsed := parseTsv json (encodeUtf8 out.tsv)
      parsed.hadReplacement = false ∧ parsed.rows = (writtenEntries entries).map withCanonicalPos ∧
        (toGoogleTsv parsed.rows).tsv = out.tsv) ∧
    (∀ entries : List UserDictEntry,
      let out := toGoogleTsv entries
      (writtenEntries entries).Perm (entries.filter isWritten) ∧
        ((writtenEntries entries).Pairwise fun a b => sortKey a ≤ sortKey b) ∧
        out.written = (writtenEntries entries).length ∧ out.written + out.skippedControl = entries.length) ∧
    (∀ (existing rows : List UserDictEntry) (hadReplacement again : Bool),
      let merged := mergeImported existing rows hadReplacement
      merged.1 = existing ++ newRows existing rows ∧ merged.2.added = (newRows existing rows).length ∧
        merged.2.added + merged.2.skippedDup + merged.2.skippedInvalid = rows.length ∧
        (mergeImported merged.1 rows again).1 = merged.1 ∧ (mergeImported merged.1 rows again).2.added = 0) ∧
    (∀ s : Text, composeKana (composeKana s) = composeKana s ∧ normalizeKey (normalizeKey s) = normalizeKey s) ∧
    (∀ pos : Option Text, canonicalPos (some (canonicalPos pos)) = canonicalPos pos) ∧
    ∀ (entries : List UserDictEntry) (rename copy : Bool),
      loadFromWith json (.ok (saveTo json entries)) rename copy =
        .ok ⟨firstEntries entries, entries.length - (firstEntries entries).length, .none⟩ := by
  refine ⟨?_, ?_, ?_, ?_, canonicalPos_idempotent, loadFromWith_saveTo json⟩
  · intro entries valid
    simp only [parseTsv_toGoogleTsv json valid, toGoogleTsv_again, and_self]
  · intro entries
    refine ⟨perm_writtenEntries entries, pairwise_writtenEntries entries, ?_, written_add_skippedControl entries⟩
    rw [toGoogleTsv_eq]
  · intro existing rows hadReplacement again
    obtain ⟨whole, added, counted⟩ := mergeImported_eq existing rows hadReplacement
    exact ⟨whole, added, counted, mergeImported_again existing rows hadReplacement again⟩
  · intro s
    exact ⟨composeKana_idempotent s, normalizeKey_idempotent s⟩

/-- Two entries of one key, and the file that they are saved as. -/
def aiTwice : List UserDictEntry :=
  [⟨"あい".toList, "愛".toList, none⟩, ⟨"アイ".toList, "愛".toList, some "名詞".toList⟩]

def aiTwiceText : Text :=
  ("[\n  \x7b\n    \"ruby\": \"あい\",\n    \"word\": \"愛\"\n  \x7d,\n  \x7b\n    \"ruby\": \"アイ\",\n" ++
    "    \"word\": \"愛\",\n    \"pos\": \"名詞\"\n  \x7d\n]").toList

set_option maxRecDepth 4000 in
theorem aiTwiceText_plain (c : Char) (mem : c ∈ aiTwiceText) (control : isC0 c = true) : c = '\n' := by
  have escaped : (aiTwiceText.all fun c => !isC0 c || c = '\n') = true := by decide
  simpa [control] using List.all_eq_true.mp escaped c mem

set_option maxRecDepth 4000 in
def aiTwiceJson : DictionaryJson ℚ :=
  shownJson _ aiTwiceText (aiTwice.map fun e => .object (e.fields.map fun field => (field.1, .string field.2))) rfl
    (by decide) aiTwiceText_plain ⟨'\n', List.elem_iff.mp (by decide), by decide, by decide, by decide⟩

/-- The second entry is dropped when the file is loaded, and the first one goes through a table. -/
theorem userDictionary_kept_twice :
    loadFromWith aiTwiceJson (.ok (saveTo aiTwiceJson aiTwice)) true true =
        .ok ⟨[⟨"あい".toList, "愛".toList, none⟩], 1, .none⟩ ∧
      (parseTsv aiTwiceJson (encodeUtf8 (toGoogleTsv (aiTwice.take 1)).tsv)).rows =
        [⟨"あい".toList, "愛".toList, some "名詞".toList⟩] := by
  obtain ⟨exports, -, -, -, -, loads⟩ := userDictionary_kept aiTwiceJson
  refine ⟨?_, ?_⟩
  · rw [loads]
    decide
  · have sorted : writtenEntries (aiTwice.take 1) = aiTwice.take 1 := by
      rw [writtenEntries, sortedEntries, show aiTwice.take 1 = [aiTwice.head (by decide)] from rfl,
        List.mergeSort_singleton]
      decide
    rw [(exports (aiTwice.take 1) (by decide)).2.1, sorted]
    decide

end Nospacekey
