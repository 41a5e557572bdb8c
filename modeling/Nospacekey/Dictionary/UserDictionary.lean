import Mathlib.Data.Prod.Lex
import Nospacekey.Library.StableSort
import Nospacekey.Text.Decoding

/-! The words of the user: their keys, what is taken as an entry, the file that they are in, and tables in and out. -/

namespace Nospacekey

open Serde

variable {f64 : Type}

structure UserDictEntry where
  ruby : Text
  word : Text
  pos : Option Text
  deriving DecidableEq, Repr

/-! ## Keys -/

/-- Blanks and the tabulator, but no line ends. -/
def isTrimWsChar (c : Char) : Bool :=
  let code := c.toNat
  code = 0x09 || code = 0x20 || code = 0xA0 || code = 0x1680 || (0x2000 ≤ code && code ≤ 0x200A) || code = 0x202F
    || code = 0x205F || code = 0x3000

def trimWs (s : Text) : Text := ((s.dropWhile isTrimWsChar).reverse.dropWhile isTrimWsChar).reverse

/-- The kana that take a voiced sound mark, and what they are with it. -/
def voicedPairs : List (Char × Char) :=
  [('か', 'が'), ('き', 'ぎ'), ('く', 'ぐ'), ('け', 'げ'), ('こ', 'ご'), ('さ', 'ざ'), ('し', 'じ'), ('す', 'ず'),
    ('せ', 'ぜ'), ('そ', 'ぞ'), ('た', 'だ'), ('ち', 'ぢ'), ('つ', 'づ'), ('て', 'で'), ('と', 'ど'), ('は', 'ば'),
    ('ひ', 'び'), ('ふ', 'ぶ'), ('へ', 'べ'), ('ほ', 'ぼ'), ('う', 'ゔ'), ('ゝ', 'ゞ'), ('カ', 'ガ'), ('キ', 'ギ'),
    ('ク', 'グ'), ('ケ', 'ゲ'), ('コ', 'ゴ'), ('サ', 'ザ'), ('シ', 'ジ'), ('ス', 'ズ'), ('セ', 'ゼ'), ('ソ', 'ゾ'),
    ('タ', 'ダ'), ('チ', 'ヂ'), ('ツ', 'ヅ'), ('テ', 'デ'), ('ト', 'ド'), ('ハ', 'バ'), ('ヒ', 'ビ'), ('フ', 'ブ'),
    ('ヘ', 'ベ'), ('ホ', 'ボ'), ('ウ', 'ヴ'), ('ワ', 'ヷ'), ('ヰ', 'ヸ'), ('ヱ', 'ヹ'), ('ヲ', 'ヺ'), ('ヽ', 'ヾ')]

/-- The kana that take a semi-voiced sound mark, and what they are with it. -/
def semiVoicedPairs : List (Char × Char) :=
  [('は', 'ぱ'), ('ひ', 'ぴ'), ('ふ', 'ぷ'), ('へ', 'ぺ'), ('ほ', 'ぽ'), ('ハ', 'パ'), ('ヒ', 'ピ'), ('フ', 'プ'),
    ('ヘ', 'ペ'), ('ホ', 'ポ')]

def composePair (base mark : Char) : Option Char :=
  if mark = '\u3099' then voicedPairs.lookup base
  else if mark = '\u309A' then semiVoicedPairs.lookup base
  else none

/-- Kana and sound marks that stand apart are put together. -/
def composeKana : Text → Text
  | [] => []
  | [base] => [base]
  | base :: mark :: rest =>
    match composePair base mark with
    | some composed => composed :: composeKana rest
    | none => base :: composeKana (mark :: rest)

def hiraganaToKatakana (s : Text) : Text :=
  s.map fun c => if 0x3041 ≤ c.toNat ∧ c.toNat ≤ 0x3096 then Char.ofNat (c.toNat + 0x60) else c

def normalizeKey (ruby : Text) : Text := composeKana (hiraganaToKatakana (trimWs ruby))

def normalizeWord (word : Text) : Text := composeKana (trimWs word)

def entryKey (e : UserDictEntry) : Text × Text := (normalizeKey e.ruby, normalizeWord e.word)

/-! ## Entries -/

/-- What is wrong with an entry. -/
inductive UserDictError where
  | invalidRuby
  | emptyField
  | tooLong
  | controlChar
  deriving DecidableEq, Repr

def isC0 (c : Char) : Bool := c.toNat ≤ 0x1F

def checkGeneric (s : Text) : Except UserDictError Unit :=
  if s.length = 0 then .error .emptyField
  else if s.length > 300 then .error .tooLong
  else if s.any isC0 then .error .controlChar
  else .ok ()

def isValidRubyChar (c : Char) : Bool :=
  let code := c.toNat
  (0x3041 ≤ code && code ≤ 0x3096) || (0x30A1 ≤ code && code ≤ 0x30F6) || code = 0x30FC

/-- Both fields are judged as they are once they are trimmed and composed. -/
def validateEntry (ruby word : Text) : Except UserDictError Unit := do
  let rubyN := composeKana (trimWs ruby)
  let wordN := composeKana (trimWs word)
  checkGeneric rubyN
  if !rubyN.all isValidRubyChar then throw .invalidRuby
  checkGeneric wordN

/-- A text without the word for a name of a person in it. -/
def withoutPersonName : Text → Text
  | '人' :: '名' :: rest => withoutPersonName rest
  | c :: rest => c :: withoutPersonName rest
  | [] => []

/-- The part of speech that one is counted as. -/
def canonicalPos (pos : Option Text) : Text :=
  match pos.filter fun p => !p.isEmpty with
  | none => "名詞".toList
  | some p =>
    let contains (part : String) := part.toList <:+: p
    if contains "人名" then
      if contains "姓" then "姓".toList
      -- The word for a name of a person is no name by itself.
      else if '名' ∈ withoutPersonName p then "名".toList
      else "人名".toList
    else if p = "姓".toList then "姓".toList
    else if p = "名".toList then "名".toList
    else if contains "組織" then "組織".toList
    else if contains "地名" ∨ contains "駅" then "地名".toList
    else if contains "固有" then "固有名詞".toList
    else if contains "数" then "数".toList
    else "名詞".toList

/-! ## Bytes -/

/-- The parser and the printer of JSON, as far as dictionaries rely on them. -/
structure DictionaryJson (f64 : Type) extends SerdeJson f64 where
  /-- Arrays and objects have their brackets. -/
  bracket_of_array : ∀ text items, fromStr text = some (.array items) → '[' ∈ text
  brace_of_object : ∀ text members, fromStr text = some (.object members) → '\x7b' ∈ text
  /-- An array is printed from its bracket on. -/
  pretty_array : ∀ items, ∃ rest, toStringPretty (.array items) = '[' :: rest
  /-- No control characters are printed but line feeds, as those in texts are escaped. -/
  pretty_control : ∀ json, ∀ c ∈ toStringPretty json, isC0 c = true → c = '\n'
  /-- Records of texts are read as they were printed, in the order of their fields. -/
  fromStr_records : ∀ records : List (List (String × Text)), (∀ record ∈ records, (record.map Prod.fst).Nodup) →
    let printed : Value f64 :=
      .array (records.map fun record => .object (record.map fun field => (field.1, .string field.2)))
    fromStr (toStringPretty printed) = some printed

inductive Encoding where
  | utf8
  | utf16Le
  | utf16Be
  deriving DecidableEq, Repr

mutual

/-- Whether some object has both a ruby and a word. -/
def jsonHasRubyWord : Value f64 → Bool
  | .object members =>
    ((members.lookup "ruby").isSome && (members.lookup "word").isSome) || membersHaveRubyWord members
  | .array values => itemsHaveRubyWord values
  | _ => false

def itemsHaveRubyWord : List (Value f64) → Bool
  | [] => false
  | value :: rest => jsonHasRubyWord value || itemsHaveRubyWord rest

def membersHaveRubyWord : List (String × Value f64) → Bool
  | [] => false
  | (_, value) :: rest => jsonHasRubyWord value || membersHaveRubyWord rest

end

def hasTsvColumns (text : Text) : Bool :=
  (lines text).any fun line => !line.isEmpty && (line.splitOn '\t').length ≥ 2

def isInvalidInternalC0 (c : Char) : Bool := isC0 c && !(c = '\t' || c = '\r' || c = '\n')

section Bytes

variable (json : DictionaryJson f64)

/-- An array or an object counts, and more so with rubies and words in it. -/
def containerScore (text : Text) : Int :=
  match (json.fromStr (trim text)).bind Json.value with
  | some (.array items) => 100 + if jsonHasRubyWord (.array items) then 100 else 0
  | some (.object members) => 100 + if jsonHasRubyWord (.object members) then 100 else 0
  | _ => 0

/-- How much a text looks like a dictionary. Null characters at its end do not count. -/
def dictionaryStructureScore (text : Text) : Int :=
  let detectionText := (text.reverse.dropWhile (· = '\x00')).reverse
  let columns : Int := if hasTsvColumns detectionText && !detectionText.any isInvalidInternalC0 then 100 else 0
  containerScore json detectionText + columns - (detectionText.countP isInvalidInternalC0 : Int) * 20

/-- The encoding with the best score. A tie goes to UTF-8, and between the two others to where the zero bytes are. -/
def bestEncoding (bytes : ByteArray) (scores : List (Encoding × Int)) : Encoding :=
  match (scores.map Prod.snd).max? with
  | none => .utf8
  | some bestScore =>
    if bestScore ≤ 0 then .utf8
    else
      let best := (scores.filter fun entry => entry.2 = bestScore).map Prod.fst
      if best.length = 1 then best.headD .utf8
      else if best.all fun encoding => encoding = .utf16Le || encoding = .utf16Be then
        let parityBytes := (bytes.data.toList.reverse.dropWhile (· = 0)).reverse
        let evenNul := parityBytes.zipIdx.countP fun entry => entry.2 % 2 = 0 && entry.1 = 0
        let oddNul := parityBytes.zipIdx.countP fun entry => entry.2 % 2 = 1 && entry.1 = 0
        if oddNul > evenNul && best.contains .utf16Le then .utf16Le
        else if evenNul > oddNul && best.contains .utf16Be then .utf16Be
        else .utf8
      else .utf8

def sniffEncoding (bytes : ByteArray) : Encoding :=
  let front := bytes.data.toList
  if [0xEF, 0xBB, 0xBF].isPrefixOf front then .utf8
  else if [0xFF, 0xFE].isPrefixOf front then .utf16Le
  else if [0xFE, 0xFF].isPrefixOf front then .utf16Be
  else
    let candidates := [(Encoding.utf8, decodeUtf8 bytes), (.utf16Le, decodeUtf16Strict bytes true),
      (.utf16Be, decodeUtf16Strict bytes false)]
    bestEncoding bytes (candidates.filterMap fun candidate =>
      candidate.2.map fun text => (candidate.1, dictionaryStructureScore json text))

def stripLeadingBom : Text → Text
  | '\uFEFF' :: rest => rest
  | s => s

def decodeBytes (bytes : ByteArray) : Option Text :=
  (match sniffEncoding json bytes with
  | .utf8 => decodeUtf8 bytes
  | .utf16Le => decodeUtf16Strict bytes true
  | .utf16Be => decodeUtf16Strict bytes false).map stripLeadingBom

def decodeBytesLossy (bytes : ByteArray) : Text × Bool :=
  let decoded :=
    match sniffEncoding json bytes with
    | .utf8 => fromUtf8Lossy bytes
    | .utf16Le => decodeUtf16Lossy bytes true
    | .utf16Be => decodeUtf16Lossy bytes false
  (stripLeadingBom decoded.1, decoded.2)

end Bytes

/-! ## The file -/

namespace UserDictEntry

/-- An entry as it is written. A part of speech that is not there is left out. -/
def fields (e : UserDictEntry) : List (String × Text) :=
  [("ruby", e.ruby), ("word", e.word)] ++ e.pos.toList.map fun pos => ("pos", pos)

/-- An entry as it is read. -/
def ofJson (json : Value f64) : Option UserDictEntry := do
  let visit ← visitStruct ["ruby", "word", "pos"] json
  let ruby ← (visit "ruby").bind Codec.text.read
  let word ← (visit "word").bind Codec.text.read
  let pos ← ((visit "pos").map Codec.optionText.read).getD (some none)
  return ⟨ruby, word, pos⟩

end UserDictEntry

inductive DictCorrupt where
  | none
  | quarantined
  deriving DecidableEq, Repr

inductive DictLoadError where
  | unreadable
  | quarantineFailed
  deriving DecidableEq, Repr

structure LoadedDict where
  entries : List UserDictEntry
  deduped : Nat
  corrupt : DictCorrupt
  deriving DecidableEq, Repr

section

local instance : LawfulBEq (Text × Text) := inferInstance

/-- Entries the key of which was there already are dropped and counted. -/
def dedupEntries (entries : List UserDictEntry) : List UserDictEntry × Nat :=
  let step (state : List (Text × Text) × List UserDictEntry × Nat) (e : UserDictEntry) :=
    let (seen, out, deduped) := state
    if entryKey e ∈ seen then (seen, out, deduped + 1) else (entryKey e :: seen, out ++ [e], deduped)
  (entries.foldl step ([], [], 0)).2

/-- A broken file is moved away or copied, whichever works. -/
def quarantineDict (rename copy : Bool) : Except DictLoadError LoadedDict :=
  if rename || copy then .ok ⟨[], 0, .quarantined⟩ else .error .quarantineFailed

/-- A load, with what comes of reading the file and of the two ways to put it aside. -/
def loadFromWith (json : DictionaryJson f64) (read : Except ErrorKind ByteArray) (rename copy : Bool) :
    Except DictLoadError LoadedDict :=
  match read with
  | .error .notFound => .ok ⟨[], 0, .none⟩
  | .error _ => .error .unreadable
  | .ok bytes =>
    if bytes.isEmpty then .ok ⟨[], 0, .none⟩
    else
      match decodeBytes json bytes with
      | none => quarantineDict rename copy
      | some text =>
        if (trim text).isEmpty then .ok ⟨[], 0, .none⟩
        else
          match json.fromStr text with
          | some (.array items) =>
            match items.mapM UserDictEntry.ofJson with
            | some entries => .ok ⟨(dedupEntries entries).1, (dedupEntries entries).2, .none⟩
            | none => quarantineDict rename copy
          | _ => quarantineDict rename copy

/-- What a save puts into the file. -/
def saveTo (json : DictionaryJson f64) (entries : List UserDictEntry) : ByteArray :=
  encodeUtf8 (json.toStringPretty (.array (entries.map fun e =>
    .object (e.fields.map fun field => (field.1, .string field.2)))))

/-! ## Tables -/

structure ParsedTsv where
  rows : List UserDictEntry
  hadReplacement : Bool

/-- The entry of a line. Comments and lines with less than two columns have none. -/
def parseLine (line : Text) : Option UserDictEntry :=
  if line.isEmpty || line.head? = some '!' || line.head? = some '#' then none
  else
    match line.splitOn '\t' with
    | ruby :: word :: rest => some ⟨ruby, word, rest.head?⟩
    | _ => none

def parseTsv (json : DictionaryJson f64) (bytes : ByteArray) : ParsedTsv :=
  let (text, hadReplacement) := decodeBytesLossy json bytes
  ⟨(lines text).filterMap parseLine, hadReplacement⟩

structure MergeReport where
  added : Nat
  skippedDup : Nat
  skippedInvalid : Nat
  encodingHint : Bool
  deriving DecidableEq, Repr

/-- An import under way. -/
structure MergeState where
  existing : List UserDictEntry
  seen : List (Text × Text)
  added : Nat
  skippedDup : Nat
  skippedInvalid : Nat
  invalidHadReplacement : Bool

def mergeRow (state : MergeState) (row : UserDictEntry) : MergeState :=
  match validateEntry row.ruby row.word with
  | .error _ =>
    { state with
      skippedInvalid := state.skippedInvalid + 1
      invalidHadReplacement := state.invalidHadReplacement ||
        (row.ruby.contains replacementCharacter || row.word.contains replacementCharacter) }
  | .ok () =>
    if entryKey row ∈ state.seen then { state with skippedDup := state.skippedDup + 1 }
    else
      { state with
        seen := entryKey row :: state.seen
        existing := state.existing ++ [row]
        added := state.added + 1 }

end

/-- Rows are added behind the entries that there are. -/
def mergeImported (existing : List UserDictEntry) (rows : List UserDictEntry) (hadReplacement : Bool) :
    List UserDictEntry × MergeReport :=
  let state := rows.foldl mergeRow ⟨existing, existing.map entryKey, 0, 0, 0, false⟩
  (state.existing,
    ⟨state.added, state.skippedDup, state.skippedInvalid, hadReplacement || state.invalidHadReplacement⟩)

structure ExportOutput where
  tsv : Text
  written : Nat
  skippedControl : Nat
  deriving DecidableEq, Repr

/-- Entries are sorted by their keys, and then by the words as they are. -/
def sortKey (e : UserDictEntry) : Text ×ₗ Text := toLex (normalizeKey e.ruby, e.word)

def hasControlChar (s : Text) : Bool := s.any isC0

/-- The line of an entry. -/
def tsvLine (e : UserDictEntry) : Text :=
  e.ruby ++ '\t' :: (e.word ++ '\t' :: (canonicalPos e.pos ++ ['\r', '\n']))

def exportEntry (out : ExportOutput) (e : UserDictEntry) : ExportOutput :=
  if hasControlChar e.ruby || hasControlChar e.word || hasControlChar (canonicalPos e.pos) then
    { out with skippedControl := out.skippedControl + 1 }
  else { out with tsv := out.tsv ++ tsvLine e, written := out.written + 1 }

def toGoogleTsv (entries : List UserDictEntry) : ExportOutput :=
  (entries.mergeSort (StableSort.byRank sortKey)).foldl exportEntry ⟨[], 0, 0⟩

end Nospacekey
