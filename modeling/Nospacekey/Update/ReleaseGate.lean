import Nospacekey.Update.Selection

/-! The checker and the gate of the download agree, and checksums are taken only when they agree too. -/

namespace Nospacekey

section

variable {semver : SemverCrate} {urls : UrlParser} {tag : Text} {version : Version}

/-- A tag that a URL keeps as it is was a trimmed one, but for tabs and line ends. -/
theorem filter_eq_trim (lawful : semver.Lawful) (parsed : parseVersion semver tag = some version)
    (plain : ∀ c ∈ tag.filter fun c => !isTabOrNewline c, isPlain c = true) :
    (tag.filter fun c => !isTabOrNewline c) = trim tag := by
  obtain ⟨core, -⟩ := tag_plain lawful parsed
  obtain ⟨front, back, frontWhite, backWhite, split⟩ := trim_split tag
  -- White space that is left would not be plain.
  have nothing (white : Text) (blank : ∀ c ∈ white, Serde.isWhitespace c = true) (part : ∀ c ∈ white, c ∈ tag) :
      (white.filter fun c => !isTabOrNewline c) = [] := by
    refine List.eq_nil_iff_forall_not_mem.mpr fun c member => ?_
    obtain ⟨inside, kept⟩ := List.mem_filter.mp member
    have visible := not_isWhitespace_of_isPlain (plain c (List.mem_filter.mpr ⟨part c inside, kept⟩))
    cases visible.symm.trans (blank c inside)
  have whole : ((trim tag).filter fun c => !isTabOrNewline c) = trim tag :=
    List.filter_eq_self.mpr fun c member => by rw [not_isTabOrNewline_of_isPlain (core c member)]; rfl
  have none_front := nothing front frontWhite fun c member => by rw [split]; simp [member]
  have none_back := nothing back backWhite fun c member => by rw [split]; simp [member]
  calc (tag.filter fun c => !isTabOrNewline c)
      = ((front ++ trim tag ++ back).filter fun c => !isTabOrNewline c) := by rw [← split]
    _ = trim tag := by
      rw [List.filter_append, List.filter_append, none_front, none_back, whole, List.nil_append, List.append_nil]

/-- The installer of a release that is offered passes the gate. -/
theorem passes_of_valid (semverLawful : semver.Lawful) (lawful : urls.Lawful) {release : GithubReleaseJson}
    {current : Version} {installer sums : InstallerAsset}
    (parsed : parseVersion semver release.tagName = some version)
    (newer : compareVersions semver version current = .gt)
    (valid : validateReleaseAssets urls release version = some (installer, sums)) :
    Passes semver urls installer.url current (trim release.tagName) installer.name version := by
  obtain ⟨⟨⟨asset, _, _, official, rfl⟩, named, exact_⟩, _⟩ := validateReleaseAssets_spec valid
  have seen := parse_releaseAssetUrl semverLawful lawful parsed (installer_isName semverLawful parsed named)
  rw [← exact_] at seen
  obtain ⟨url, tag, file, found, segments, unencoded, -⟩ := official_segments official
  obtain rfl := Option.some.inj (seen.symm.trans found)
  -- The segment of the tag shows no per cent sign, so nothing in it was encoded.
  obtain ⟨rfl, rfl⟩ : encodeSegment (release.tagName.filter fun c => !isTabOrNewline c) = tag ∧
      (assetTo asset).name = file := by
    have same := List.append_cancel_left (Option.some.inj segments)
    simpa using same
  have plain : ∀ c ∈ release.tagName.filter fun c => !isTabOrNewline c, isPlain c = true := by
    intro c member
    by_contra special
    exact unencoded (percent_mem_encodeSegment member (by simpa using special))
  have kept := filter_eq_trim semverLawful parsed plain
  refine ⟨official, ⟨_, found, ?_⟩, parseVersion_trim semverLawful parsed, newer, named⟩
  rw [encodeSegment_of_plain plain, kept]
  rfl

/-! ## Checksums -/

/-- The hashes that a text has for a file. -/
def sumsOf (target : Text) (text : Text) : List Text := (lines text).filterMap (sumOf target)

/-- A hash that was found stays, unless one that follows differs from it. -/
theorem parseSumsFrom_some (target existing : Text) (rest : List Text) : parseSumsFrom target rest (some existing) =
    if (rest.filterMap (sumOf target)).all (eqIgnoreAsciiCase existing) then some existing else none := by
  induction rest with
  | nil => rfl
  | cons line rest ih =>
    rw [parseSumsFrom.eq_def]
    cases sum : sumOf target line with
    | none => simpa [List.filterMap_cons, sum] using ih
    | some hash => cases same : eqIgnoreAsciiCase existing hash <;> simp [sum, same, ih]

/-- Without a hash so far the first one is taken. -/
theorem parseSumsFrom_none (target : Text) (rest : List Text) : parseSumsFrom target rest none =
    match rest.filterMap (sumOf target) with
    | [] => none
    | hash :: others => if others.all (eqIgnoreAsciiCase hash) then some hash else none := by
  induction rest with
  | nil => rfl
  | cons line rest ih =>
    rw [parseSumsFrom.eq_def]
    cases sum : sumOf target line with
    | none => simpa [List.filterMap_cons, sum] using ih
    | some hash => simp [sum, parseSumsFrom_some]

/-- A line is well formed, names the file and carries a valid hash. -/
def Carries (target line hash : Text) : Prop :=
  ∃ rest name, splitWhitespace line = hash :: rest ∧ rest.getLast? = some name ∧ withoutStar name = target ∧
    isValidSha256Hex hash = true

/-- A line has a hash for a file when it carries one. -/
theorem sumOf_eq_some {target line hash : Text} : sumOf target line = some hash ↔ Carries target line hash := by
  unfold sumOf Carries
  constructor
  · intro found
    split at found
    · cases found
    rename_i first rest fields
    split at found
    · cases found
    rename_i name last
    split at found
    · cases found
    rename_i checked
    obtain rfl := Option.some.inj found
    have checked : withoutStar name = target ∧ isValidSha256Hex first = true := by simpa using checked
    exact ⟨rest, name, fields, last, checked⟩
  · rintro ⟨rest, name, fields, last, named, valid⟩
    simp [fields, last, named, valid]

/-- A line has no hash for a file when it carries none. -/
theorem sumOf_eq_none {target line : Text} : sumOf target line = none ↔ ∀ hash, ¬ Carries target line hash := by
  rw [Option.eq_none_iff_forall_ne_some]
  exact forall_congr' fun hash => not_congr sumOf_eq_some

/-- A checksum is found exactly when it is the first one for the file and all others are the same but for case. -/
theorem parseSha256sums_eq_some {text target hash : Text} : parseSha256sums text target = some hash ↔
    (∃ front line back, lines text = front ++ line :: back ∧ Carries target line hash ∧
        ∀ earlier ∈ front, ∀ other, ¬ Carries target earlier other) ∧
      ∀ line ∈ lines text, ∀ other, Carries target line other → eqIgnoreAsciiCase hash other = true := by
  have own (hash : Text) : eqIgnoreAsciiCase hash hash = true := by simp [eqIgnoreAsciiCase]
  have first : (∃ front line back, lines text = front ++ line :: back ∧ Carries target line hash ∧
      ∀ earlier ∈ front, ∀ other, ¬ Carries target earlier other) ↔ (sumsOf target text).head? = some hash := by
    simp only [sumsOf, List.head?_filterMap, List.findSome?_eq_some_iff, sumOf_eq_some, sumOf_eq_none]
  have others : (∀ line ∈ lines text, ∀ other, Carries target line other → eqIgnoreAsciiCase hash other = true) ↔
      ∀ other ∈ sumsOf target text, eqIgnoreAsciiCase hash other = true := by
    simp only [sumsOf, List.mem_filterMap, sumOf_eq_some]
    exact ⟨fun all other ⟨line, inside, carries⟩ => all line inside other carries,
      fun all line inside other carries => all other ⟨line, inside, carries⟩⟩
  rw [first, others, parseSha256sums, parseSumsFrom_none, ← sumsOf]
  cases sumsOf target text with
  | nil => simp
  | cons head others =>
    simp only [List.head?_cons, Option.some.injEq, List.mem_cons, forall_eq_or_imp]
    constructor
    · intro found
      split at found
      · rename_i agree
        obtain rfl := Option.some.inj found
        exact ⟨rfl, own head, fun other member => List.all_eq_true.mp agree other member⟩
      · cases found
    · rintro ⟨rfl, -, agree⟩
      rw [if_pos (List.all_eq_true.mpr agree)]

end

/-! ## Agreement -/

/-- What is promised of a release that is offered. -/
structure OfferedRelease (semver : SemverCrate) (urls : UrlParser) (items : List GithubReleaseJson) (current : Version)
    (includeBeta : Bool) (offered : InstallableRelease) : Prop where
  newer : compareVersions semver offered.version current = .gt
  /-- No release that could have been offered is greater. -/
  greatest : ∀ item ∈ items, item.draft = false → ∀ version, parseVersion semver item.tagName = some version →
    item.prerelease = version.pre.isSome → (includeBeta = false → version.pre = none) →
      compareVersions semver version offered.version ≠ .gt
  stable : includeBeta = false → offered.version.pre = none ∧ offered.channel = .stable
  /-- The release and both of its assets stand among those that were given. -/
  release : ∃ item ∈ items, item.draft = false ∧ item.tagName = offered.releaseTag ∧
    parseVersion semver item.tagName = some offered.version ∧ item.prerelease = offered.version.pre.isSome ∧
    item.body = offered.releaseNotes ∧ IsTaken urls item.assets offered.installer ∧
    IsTaken urls item.assets offered.sums
  installer : (offered.installer.name = plainInstaller (formatVersion offered.version) ∨
      offered.installer.name = devsignedInstaller (formatVersion offered.version)) ∧
    offered.installer.url = releaseAssetUrl offered.releaseTag offered.installer.name
  sums : offered.sums.name = "SHA256SUMS.txt".toList ∧
    offered.sums.url = releaseAssetUrl offered.releaseTag offered.sums.name
  passes : validateInstallerAssetUrl semver urls offered.installer.url current = .ok ()

/-- A release that is offered keeps what is promised. -/
theorem selectInstallableRelease_offered {semver : SemverCrate} {urls : UrlParser} (semverLawful : semver.Lawful)
    (lawful : urls.Lawful) {items : List GithubReleaseJson} {current : Version} {includeBeta : Bool}
    {offered : InstallableRelease}
    (selected : selectInstallableRelease semver urls items current includeBeta = some offered) :
    OfferedRelease semver urls items current includeBeta offered := by
  simp only [selectInstallableRelease, Option.bind_eq_bind, Option.bind_eq_some_iff] at selected
  obtain ⟨⟨version, index⟩, latest, selected⟩ := selected
  obtain ⟨item, held, candidate, greatest⟩ := selectLatestRelease_leads semverLawful latest
  split at selected
  · cases selected
  rename_i newer
  have newer : compareVersions semver version current = .gt := not_not.mp newer
  simp only [Option.bind_eq_some_iff] at selected
  obtain ⟨release, found, ⟨installer, sums⟩, valid, rest⟩ := selected
  obtain rfl := Option.some.inj (held.symm.trans found)
  obtain rfl := Option.some.inj rest
  obtain ⟨undrafted, parsed, flag, stable⟩ := candidateVersion_eq_some.mp candidate
  obtain ⟨⟨taken, named, exact_⟩, takenSums, namedSums, exactSums⟩ := validateReleaseAssets_spec valid
  have channel : includeBeta = false → requestedChannel includeBeta = .stable := by
    rintro rfl
    rfl
  refine ⟨newer, fun other member clear otherVersion read agrees asked => ?_, fun asked => ?_,
    ⟨item, List.mem_of_getElem? held, undrafted, rfl, parsed, flag, rfl, taken, takenSums⟩, ⟨named, exact_⟩,
    ⟨namedSums, exactSums⟩, ?_⟩
  · refine greatest other member otherVersion (candidateVersion_eq_some.mpr ⟨clear, read, agrees, fun onlyStable => ?_⟩)
    cases includeBeta with
    | false => exact asked rfl
    | true => cases onlyStable
  · have pre := stable (channel asked)
    exact ⟨pre, by simp [pre]⟩
  · exact validateInstallerAssetUrl_ok.mpr ⟨_, _, _, passes_of_valid semverLawful lawful parsed newer valid⟩

/-- What is offered is the greatest newer release and passes the gate of the download, what passes the gate is an
installer of the newer version in its own tag, and checksums are found exactly when all that are there agree. -/
theorem selection_agrees (semver : SemverCrate) (urls : UrlParser) (semverLawful : semver.Lawful)
    (lawful : urls.Lawful) :
    (∀ items current includeBeta offered,
      selectInstallableRelease semver urls items current includeBeta = some offered →
        OfferedRelease semver urls items current includeBeta offered) ∧
    (∀ value current, validateInstallerAssetUrl semver urls value current = .ok () ↔
      ∃ tag file version, Passes semver urls value current tag file version) ∧
    ∀ text target hash, parseSha256sums text target = some hash ↔
      (∃ front line back, lines text = front ++ line :: back ∧ Carries target line hash ∧
          ∀ earlier ∈ front, ∀ other, ¬ Carries target earlier other) ∧
        ∀ line ∈ lines text, ∀ other, Carries target line other → eqIgnoreAsciiCase hash other = true :=
  ⟨fun _ _ _ _ selected => selectInstallableRelease_offered semverLawful lawful selected,
    fun _ _ => validateInstallerAssetUrl_ok, fun _ _ _ => parseSha256sums_eq_some⟩

/-! ## Two versions on one host -/

/-- Two versions, with their order. -/
def listedSemver : SemverCrate where
  parse text :=
    if text = "1.0.0".toList then some ⟨1, 0, 0, [], []⟩
    else if text = "2.0.0".toList then some ⟨2, 0, 0, [], []⟩
    else none
  cmp := compareLex (compareOn SemverVersion.major) (compareLex (compareOn SemverVersion.minor)
    (compareOn SemverVersion.patch))

/-- What is relied on holds of the two versions. -/
theorem listedSemver_lawful : listedSemver.Lawful where
  grammar text version found := by
    simp only [listedSemver] at found
    split at found
    · rename_i same
      subst same
      exact ⟨List.all_eq_true.mp (by decide), List.any_eq_true.mp (by decide)⟩
    · split at found
      · rename_i same
        subst same
        exact ⟨List.all_eq_true.mp (by decide), List.any_eq_true.mp (by decide)⟩
      · cases found
  printed text version found := by
    simp only [listedSemver] at found
    split at found
    · obtain rfl := Option.some.inj found
      decide +kernel
    · split at found
      · obtain rfl := Option.some.inj found
        decide +kernel
      · cases found
  ordered := inferInstanceAs (Std.TransCmp (compareLex _ (compareLex _ _)))

/-- The URLs of the host that releases are on. -/
def githubUrls : UrlParser where
  parse value :=
    let value := value.filter fun c => !isTabOrNewline c
    if value.take githubFront.length = githubFront then
      some (githubUrl (((value.drop githubFront.length).splitOn '/').map encodeSegment))
    else none

/-- A character of a path is one of a segment's, or a slash. -/
theorem mem_intercalate {segments : List Text} {c : Char} (member : c ∈ List.intercalate ['/'] segments) :
    c = '/' ∨ ∃ segment ∈ segments, c ∈ segment := by
  induction segments with
  | nil => cases member
  | cons first rest ih =>
    cases rest with
    | nil => exact .inr ⟨first, by simp, by simpa [List.intercalate] using member⟩
    | cons second rest =>
      rw [List.intercalate_cons_cons, List.mem_append, List.mem_append, List.mem_singleton] at member
      rcases member with (inside | slash) | later
      · exact .inr ⟨first, by simp, inside⟩
      · exact .inl slash
      · exact (ih later).imp_right fun ⟨segment, among, inside⟩ => ⟨segment, List.mem_cons_of_mem _ among, inside⟩

/-- What is relied on holds of these URLs. -/
theorem githubUrls_lawful : githubUrls.Lawful where
  stripped value := by simp [githubUrls, List.filter_filter]
  github segments path := by
    have front : ∀ c ∈ githubFront, isTabOrNewline c = false := fun c inside => by
      simpa using List.all_eq_true.mp (show githubFront.all (fun c => !isTabOrNewline c) = true by decide) c inside
    have slash : isTabOrNewline '/' = false ∧ isPlain '/' = false ∧ isEncoded '/' = false := by decide
    have whole : (githubFront ++ List.intercalate ['/'] segments).filter (fun c => !isTabOrNewline c) =
        githubFront ++ List.intercalate ['/'] segments := by
      refine List.filter_eq_self.mpr fun c member => ?_
      rw [Bool.not_eq_true']
      rcases List.mem_append.mp member with inside | inside
      · exact front c inside
      · rcases mem_intercalate inside with rfl | ⟨segment, among, inside⟩
        · exact slash.1
        · exact (path.chars segment among c inside).elim not_isTabOrNewline_of_isPlain And.right
    have unsplit : ∀ segment ∈ segments, '/' ∉ segment := by
      intro segment among inside
      rcases path.chars segment among '/' inside with plain | ⟨encoded, -⟩
      · cases slash.2.1.symm.trans plain
      · cases slash.2.2.symm.trans encoded
    simp only [githubUrls]
    rw [whole, List.take_left, if_pos rfl, List.drop_left, List.splitOn_intercalate _ unsplit path.nonempty]

/-- A release with its installer and its checksums. -/
def secondRelease : GithubReleaseJson where
  tagName := "\tV2.0.0".toList
  prerelease := false
  draft := false
  body := []
  assets :=
    [⟨plainInstaller "2.0.0".toList, 1, releaseAssetUrl "\tV2.0.0".toList (plainInstaller "2.0.0".toList),
        some "uploaded".toList⟩,
      ⟨"SHA256SUMS.txt".toList, 1, releaseAssetUrl "\tV2.0.0".toList "SHA256SUMS.txt".toList, some "uploaded".toList⟩]

/-- A tag with a tab and a capital letter is offered, and its installer passes the gate. -/
theorem selection_agrees_offered :
    OfferedRelease listedSemver githubUrls [secondRelease] ⟨1, 0, 0, none⟩ false
      ⟨⟨2, 0, 0, none⟩, .stable,
        ⟨plainInstaller "2.0.0".toList, releaseAssetUrl "\tV2.0.0".toList (plainInstaller "2.0.0".toList), 1⟩,
        ⟨"SHA256SUMS.txt".toList, releaseAssetUrl "\tV2.0.0".toList "SHA256SUMS.txt".toList, 1⟩,
        "\tV2.0.0".toList, []⟩ :=
  (selection_agrees listedSemver githubUrls listedSemver_lawful githubUrls_lawful).1 _ _ _ _ (by decide +kernel)

end Nospacekey
