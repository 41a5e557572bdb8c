import Mathlib.Data.List.TakeWhile
import Nospacekey.Update.Release

/-! The URL of a release asset names the release that its tag names, whatever white space the tag has. -/

namespace Nospacekey

/-- The characters of a version. -/
def isSemverChar (c : Char) : Bool := c.isAlphanum || c = '.' || c = '-' || c = '+'

/-- What is relied on in the semver crate. -/
structure SemverCrate.Lawful (semver : SemverCrate) : Prop where
  /-- A version begins with a digit and has no white space. -/
  grammar : ∀ text version, semver.parse text = some version →
    (∀ c ∈ text, isSemverChar c = true) ∧ ∃ c ∈ text, c.isDigit = true
  /-- What a version is printed as without its build metadata is read back. -/
  printed : ∀ text version, semver.parse text = some version →
    semver.parse (formatVersion (.fromSemver version)) = some { version with build := [] }
  /-- Versions are ordered. -/
  ordered : Std.TransCmp semver.cmp

/-- The characters of a path that a URL keeps as they are. -/
def isPlain (c : Char) : Bool := isSemverChar c || c = '_' || c = '~'

/-- The controls, the blank and whatever is not ASCII stand encoded in a path. -/
def isEncoded (c : Char) : Bool := c.toNat ≤ 0x20 || 0x7E < c.toNat

def isTabOrNewline (c : Char) : Bool := c = '\t' || c = '\n' || c = '\r'

/-- One digit of a byte that is encoded. -/
def hexDigitUpper (value : Nat) : Char := if value < 10 then Char.ofNat (0x30 + value) else Char.ofNat (0x37 + value)

def percentEncode (c : Char) : Text :=
  (String.utf8EncodeChar c).flatMap fun byte =>
    ['%', hexDigitUpper (byte.toNat / 16), hexDigitUpper (byte.toNat % 16)]

def encodeSegment (segment : Text) : Text := segment.flatMap fun c => if isPlain c then [c] else percentEncode c

/-- The segments of a path that is neither shortened nor cut off. -/
structure IsPath (segments : List Text) : Prop where
  nonempty : segments ≠ []
  named : ∀ segment ∈ segments, segment ≠ [] ∧ segment ≠ ['.'] ∧ segment ≠ ['.', '.']
  chars : ∀ segment ∈ segments, ∀ c ∈ segment, isPlain c = true ∨ (isEncoded c = true ∧ isTabOrNewline c = false)
  ends : ∀ c, (List.intercalate ['/'] segments).getLast? = some c → isPlain c = true

/-- What a URL of the host that releases are on begins with. -/
def githubFront : Text := "https://github.com/".toList

/-- A URL of the host that releases are on. -/
def githubUrl (segments : List Text) : Url where
  scheme := "https".toList
  host := some "github.com".toList
  port := none
  username := []
  password := none
  pathSegments := some segments
  query := none
  fragment := none

/-- What is relied on in the parser of URLs. -/
structure UrlParser.Lawful (urls : UrlParser) : Prop where
  /-- Tabs and line ends are left out wherever they stand. -/
  stripped : ∀ value, urls.parse value = urls.parse (value.filter fun c => !isTabOrNewline c)
  /-- The segments of a path are encoded. -/
  github : ∀ segments, IsPath segments →
    urls.parse (githubFront ++ List.intercalate ['/'] segments) =
      some (githubUrl (segments.map encodeSegment))

/-! ## Characters -/

/-- A letter or a digit is visible ASCII. -/
theorem bounds_of_isAlphanum {c : Char} (letter : c.isAlphanum = true) : 0x20 < c.toNat ∧ c.toNat < 0x7F := by
  delta Char.isAlphanum Char.isAlpha Char.isUpper Char.isLower Char.isDigit at letter
  simp only [Bool.or_eq_true, Bool.and_eq_true, decide_eq_true_eq, UInt32.le_iff_toNat_le, ge_iff_le] at letter
  change ((65 ≤ c.toNat ∧ c.toNat ≤ 90) ∨ 97 ≤ c.toNat ∧ c.toNat ≤ 122) ∨ 48 ≤ c.toNat ∧ c.toNat ≤ 57 at letter
  omega

/-- A plain character is visible ASCII. -/
theorem bounds_of_isPlain {c : Char} (plain : isPlain c = true) : 0x20 < c.toNat ∧ c.toNat < 0x7F := by
  simp only [isPlain, isSemverChar, Bool.or_eq_true, decide_eq_true_eq] at plain
  rcases plain with ((((letter | rfl) | rfl) | rfl) | rfl) | rfl
  · exact bounds_of_isAlphanum letter
  all_goals decide

/-- A character of a version is plain. -/
theorem isPlain_of_isSemverChar {c : Char} (version : isSemverChar c = true) : isPlain c = true := by
  simp [isPlain, version]

/-- A plain character is no white space. -/
theorem not_isWhitespace_of_isPlain {c : Char} (plain : isPlain c = true) : Serde.isWhitespace c = false := by
  have bounds := bounds_of_isPlain plain
  simp only [Serde.isWhitespace, Bool.or_eq_false_iff, Bool.and_eq_false_iff, decide_eq_false_iff_not]
  omega

/-- A plain character is no tab and no line end. -/
theorem not_isTabOrNewline_of_isPlain {c : Char} (plain : isPlain c = true) : isTabOrNewline c = false := by
  have bounds := bounds_of_isPlain plain
  simp only [isTabOrNewline, Bool.or_eq_false_iff, decide_eq_false_iff_not]
  refine ⟨⟨?_, ?_⟩, ?_⟩ <;> (rintro rfl; exact absurd bounds (by decide))

/-- White space other than tabs and line ends is encoded. -/
theorem isEncoded_of_isWhitespace {c : Char} (white : Serde.isWhitespace c = true) : isEncoded c = true := by
  simp only [Serde.isWhitespace, Bool.or_eq_true, Bool.and_eq_true, decide_eq_true_eq] at white
  simp only [isEncoded, Bool.or_eq_true, decide_eq_true_eq]
  omega

/-- Plain characters are not encoded. -/
theorem encodeSegment_of_plain {segment : Text} (plain : ∀ c ∈ segment, isPlain c = true) :
    encodeSegment segment = segment := by
  induction segment with
  | nil => rfl
  | cons c rest ih =>
    have first : isPlain c = true := plain c (by simp)
    have later := ih fun c member => plain c (by simp [member])
    simp only [encodeSegment, List.flatMap_cons, first, if_true, List.singleton_append]
    exact congrArg (c :: ·) later

/-- What is encoded shows a per cent sign. -/
theorem percent_mem_encodeSegment {segment : Text} {c : Char} (member : c ∈ segment) (special : isPlain c = false) :
    '%' ∈ encodeSegment segment := by
  refine List.mem_flatMap.mpr ⟨c, member, ?_⟩
  rw [special, if_neg Bool.false_ne_true]
  -- A character has one byte at least.
  obtain ⟨byte, bytes, encoded⟩ := List.exists_cons_of_ne_nil (l := String.utf8EncodeChar c) (by
    intro none
    have length := String.length_utf8EncodeChar c
    rw [none] at length
    exact absurd length.symm (Nat.ne_of_gt c.utf8Size_pos))
  rw [percentEncode, encoded]
  simp

/-! ## White space around a tag -/

/-- What is trimmed is white space. -/
theorem trim_split (text : Text) : ∃ front back : Text, (∀ c ∈ front, Serde.isWhitespace c = true) ∧
    (∀ c ∈ back, Serde.isWhitespace c = true) ∧ text = front ++ trim text ++ back := by
  let inner := text.dropWhile Serde.isWhitespace
  refine ⟨text.takeWhile Serde.isWhitespace, (inner.reverse.takeWhile Serde.isWhitespace).reverse,
    fun c member => List.mem_takeWhile_imp member,
    fun c member => List.mem_takeWhile_imp (List.mem_reverse.mp member), ?_⟩
  have back : trim text ++ (inner.reverse.takeWhile Serde.isWhitespace).reverse = inner := by
    rw [trim, ← List.reverse_append, List.takeWhile_append_dropWhile, List.reverse_reverse]
  rw [List.append_assoc, back, List.takeWhile_append_dropWhile]

/-- Without white space nothing is trimmed. -/
theorem trim_of_visible {text : Text} (visible : ∀ c ∈ text, Serde.isWhitespace c = false) : trim text = text := by
  have kept (text : Text) (visible : ∀ c ∈ text, Serde.isWhitespace c = false) :
      text.dropWhile Serde.isWhitespace = text := by
    cases text with
    | nil => rfl
    | cons c rest => exact List.dropWhile_cons_of_neg (by simp [visible c (by simp)])
  rw [trim, kept text visible, kept text.reverse fun c member => visible c (List.mem_reverse.mp member),
    List.reverse_reverse]

/-- The leading letter and the version make up a text. -/
theorem mem_withoutV {text : Text} {c : Char} (member : c ∈ text) : c = 'v' ∨ c = 'V' ∨ c ∈ withoutV text := by
  unfold withoutV
  split
  · rcases List.mem_cons.mp member with same | rest
    · exact .inl same
    · exact .inr (.inr rest)
  · rcases List.mem_cons.mp member with same | rest
    · exact .inr (.inl same)
    · exact .inr (.inr rest)
  · exact .inr (.inr member)

/-- A version is part of a text. -/
theorem mem_of_mem_withoutV {text : Text} {c : Char} (member : c ∈ withoutV text) : c ∈ text := by
  unfold withoutV at member
  split at member
  · exact List.mem_cons_of_mem _ member
  · exact List.mem_cons_of_mem _ member
  · exact member

section

variable {semver : SemverCrate} {urls : UrlParser} {tag name : Text} {version : Version}

/-- The tag of a version is plain but for the white space around it, and has a digit. -/
theorem tag_plain (lawful : semver.Lawful) (parsed : parseVersion semver tag = some version) :
    (∀ c ∈ trim tag, isPlain c = true) ∧ ∃ c ∈ trim tag, c.isDigit = true := by
  obtain ⟨read, found, _⟩ := Option.map_eq_some_iff.mp parsed
  obtain ⟨chars, digit, member, isDigit⟩ := lawful.grammar _ _ found
  refine ⟨fun c member => ?_, digit, mem_of_mem_withoutV member, isDigit⟩
  rcases mem_withoutV member with rfl | rfl | inside
  · decide
  · decide
  · exact isPlain_of_isSemverChar (chars c inside)

/-- A trimmed tag is the same version. -/
theorem parseVersion_trim (lawful : semver.Lawful) (parsed : parseVersion semver tag = some version) :
    parseVersion semver (trim tag) = some version := by
  have visible := trim_of_visible fun c member => not_isWhitespace_of_isPlain ((tag_plain lawful parsed).1 c member)
  rw [parseVersion, visible]
  exact parsed

/-- What a version is printed as is plain. -/
theorem formatVersion_plain (lawful : semver.Lawful) (parsed : parseVersion semver tag = some version) :
    ∀ c ∈ formatVersion version, isPlain c = true := by
  obtain ⟨read, found, rfl⟩ := Option.map_eq_some_iff.mp parsed
  exact fun c member => isPlain_of_isSemverChar ((lawful.grammar _ _ (lawful.printed _ _ found)).1 c member)

/-- A name that begins with a letter and is plain, as those of the assets are. -/
structure IsName (name : Text) : Prop where
  plain : ∀ c ∈ name, isPlain c = true
  letter : ∃ c, name.head? = some c ∧ c ≠ '.'

/-- The installers of a version have plain names. -/
theorem installer_isName (lawful : semver.Lawful) (parsed : parseVersion semver tag = some version)
    (named : name = plainInstaller (formatVersion version) ∨ name = devsignedInstaller (formatVersion version)) :
    IsName name := by
  have plain := formatVersion_plain lawful parsed
  have front : ∀ c ∈ installerFront, isPlain c = true := List.all_eq_true.mp (by decide)
  have head : installerFront.head? = some 'n' := by decide
  have exe : ∀ c ∈ ".exe".toList, isPlain c = true := List.all_eq_true.mp (by decide)
  have devsigned : ∀ c ∈ "-devsigned.exe".toList, isPlain c = true := List.all_eq_true.mp (by decide)
  rcases named with rfl | rfl
  · refine ⟨fun c member => ?_, 'n', ?_, by decide⟩
    · rcases List.mem_append.mp member with earlier | last
      · exact (List.mem_append.mp earlier).elim (front c) (plain c)
      · exact exe c last
    · rw [plainInstaller, List.append_assoc, List.head?_append, head, Option.some_or]
  · refine ⟨fun c member => ?_, 'n', ?_, by decide⟩
    · rcases List.mem_append.mp member with earlier | last
      · exact (List.mem_append.mp earlier).elim (front c) (plain c)
      · exact devsigned c last
    · rw [devsignedInstaller, List.append_assoc, List.head?_append, head, Option.some_or]

/-- A tag of white space and a version is a segment of a path once its tabs and line ends are left out. -/
theorem tag_segment (lawful : semver.Lawful) (parsed : parseVersion semver tag = some version) :
    (∃ c ∈ tag.filter fun c => !isTabOrNewline c, c.isDigit = true) ∧
      ∀ c ∈ tag.filter fun c => !isTabOrNewline c,
        isPlain c = true ∨ (isEncoded c = true ∧ isTabOrNewline c = false) := by
  obtain ⟨core, digit, inside, isDigit⟩ := tag_plain lawful parsed
  obtain ⟨front, back, frontWhite, backWhite, split⟩ := trim_split tag
  constructor
  · refine ⟨digit, List.mem_filter.mpr ⟨?_, by rw [not_isTabOrNewline_of_isPlain (core digit inside)]; rfl⟩, isDigit⟩
    rw [split]
    simp [inside]
  · intro c member
    obtain ⟨member, other⟩ := List.mem_filter.mp member
    have other : isTabOrNewline c = false := by simpa using other
    rw [split, List.mem_append, List.mem_append] at member
    rcases member with (white | version) | white
    · exact .inr ⟨isEncoded_of_isWhitespace (frontWhite c white), other⟩
    · exact .inl (core c version)
    · exact .inr ⟨isEncoded_of_isWhitespace (backWhite c white), other⟩

/-- The segments before the tag. -/
def releasePath : List Text := ["yachtida".toList, "nospacekey".toList, "releases".toList, "download".toList]

/-- The path of a release asset ends in its tag and its name. -/
theorem intercalate_releasePath (tag name : Text) : List.intercalate ['/'] (releasePath ++ [tag, name]) =
    List.intercalate ['/'] (releasePath ++ [[]]) ++ (tag ++ '/' :: name) := by
  have written (a b c d : Text) : List.intercalate ['/'] [a, b, c, d, tag, name] =
      List.intercalate ['/'] [a, b, c, d, []] ++ (tag ++ '/' :: name) := by
    simp [List.intercalate, List.intersperse]
  exact written _ _ _ _

/-- The path of a release asset, written out. -/
theorem releaseAssetUrl_eq (tag name : Text) :
    githubFront ++ List.intercalate ['/'] (releasePath ++ [tag, name]) = releaseAssetUrl tag name := by
  have fixed : githubFront ++ List.intercalate ['/'] (releasePath ++ [[]]) = releaseAssetFront := by decide +kernel
  rw [intercalate_releasePath, ← List.append_assoc, fixed, releaseAssetUrl, List.append_assoc]

/-- The path of a release asset is not shortened. -/
theorem release_isPath (lawful : semver.Lawful) (parsed : parseVersion semver tag = some version)
    (named : IsName name) :
    IsPath (releasePath ++ [tag.filter fun c => !isTabOrNewline c, name]) := by
  obtain ⟨⟨digit, inside, isDigit⟩, chars⟩ := tag_segment lawful parsed
  obtain ⟨letter, head, different⟩ := named.letter
  have fixed : ∀ segment ∈ releasePath, (segment ≠ [] ∧ segment ≠ ['.'] ∧ segment ≠ ['.', '.']) ∧
      segment.all isPlain = true := by decide
  refine ⟨by simp, fun segment member => ?_, fun segment member => ?_, fun c last => ?_⟩
  · rcases List.mem_append.mp member with before | member
    · exact (fixed segment before).1
    rcases List.mem_cons.mp member with rfl | member
    · -- A digit is no dot.
      refine ⟨List.ne_nil_of_mem inside, ?_, ?_⟩
      all_goals
        intro dots
        rw [dots] at inside
        obtain rfl : digit = '.' := by simpa using inside
        cases isDigit
    · obtain rfl := List.mem_singleton.mp member
      refine ⟨?_, ?_, ?_⟩ <;> (rintro rfl; simp at head; try exact different head.symm)
  · rcases List.mem_append.mp member with before | member
    · exact fun c inside => .inl (List.all_eq_true.mp (fixed segment before).2 c inside)
    rcases List.mem_cons.mp member with rfl | member
    · exact chars
    · obtain rfl := List.mem_singleton.mp member
      exact fun c inside => .inl (named.plain c inside)
  · -- The name ends the path.
    obtain ⟨rest, rfl⟩ : ∃ rest, name = letter :: rest := by
      cases name with
      | nil => cases head
      | cons other rest => exact ⟨rest, congrArg (· :: rest) (Option.some.inj head)⟩
    rw [intercalate_releasePath, List.getLast?_append, List.getLast?_append, List.getLast?_cons_cons] at last
    have ended := List.getLast?_eq_some_getLast (List.cons_ne_nil letter rest)
    rw [ended, Option.some_or, Option.some_or] at last
    obtain rfl := Option.some.inj last
    exact named.plain _ (List.mem_of_getLast? ended)

/-- The path of a release asset, as the parser of URLs sees it. -/
theorem parse_releaseAssetUrl (semverLawful : semver.Lawful) (lawful : urls.Lawful)
    (parsed : parseVersion semver tag = some version) (named : IsName name) :
    urls.parse (releaseAssetUrl tag name) =
      some (githubUrl (releasePath ++ [encodeSegment (tag.filter fun c => !isTabOrNewline c), name])) := by
  have path := release_isPath semverLawful parsed named
  have fixed : releaseAssetFront.filter (fun c => !isTabOrNewline c) = releaseAssetFront := by decide +kernel
  have whole : name.filter (fun c => !isTabOrNewline c) = name :=
    List.filter_eq_self.mpr fun c member => by rw [not_isTabOrNewline_of_isPlain (named.plain c member)]; rfl
  have slash : isTabOrNewline '/' = false := by decide
  have plain : releasePath.map encodeSegment = releasePath := by decide +kernel
  rw [lawful.stripped, releaseAssetUrl, List.append_assoc, List.filter_append, List.filter_append, fixed,
    List.filter_cons_of_pos (by rw [slash]; rfl), whole, ← List.append_assoc, ← releaseAssetUrl, ← releaseAssetUrl_eq,
    lawful.github _ path, List.map_append, plain]
  simp only [List.map_cons, List.map_nil, encodeSegment_of_plain named.plain]

end

end Nospacekey
