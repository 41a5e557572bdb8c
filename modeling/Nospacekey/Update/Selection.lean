import Nospacekey.Update.ReleaseUrls

/-! A release that is offered can be downloaded, and what can be downloaded is a newer version's installer. -/

namespace Nospacekey

section

variable {semver : SemverCrate} {urls : UrlParser} {channel : Channel}

/-! ## The greatest candidate -/

/-- A candidate is no draft, its tag is the version, and its flag agrees with the tag and the channel. -/
theorem candidateVersion_eq_some {item : GithubReleaseJson} {version : Version} :
    candidateVersion semver channel item = some version ↔ item.draft = false ∧
      parseVersion semver item.tagName = some version ∧ item.prerelease = version.pre.isSome ∧
      (channel = .stable → version.pre = none) := by
  have agrees : releaseMatchesChannel item version channel = true ↔
      item.prerelease = version.pre.isSome ∧ (channel = .stable → version.pre = none) := by
    unfold releaseMatchesChannel
    cases flag : item.prerelease <;> cases pre : version.pre <;> cases channel <;> simp
  unfold candidateVersion
  cases draft : item.draft with
  | true => simp
  | false => simp [Option.filter_eq_some_iff, agrees]

/-- A version that was read is read back from what it is printed as. -/
theorem asSemver_of_parsed (lawful : semver.Lawful) {tag : Text} {version : Version}
    (parsed : parseVersion semver tag = some version) : ∃ read, version.asSemver semver = some read := by
  obtain ⟨read, found, rfl⟩ := Option.map_eq_some_iff.mp parsed
  exact ⟨_, lawful.printed _ _ found⟩

/-- A version that was read is not greater than itself. -/
theorem compareVersions_self (lawful : semver.Lawful) {tag : Text} {version : Version}
    (parsed : parseVersion semver tag = some version) : compareVersions semver version version ≠ .gt := by
  obtain ⟨read, found⟩ := asSemver_of_parsed lawful parsed
  have ordered := lawful.ordered
  have same : semver.cmp read read = .eq := Std.ReflCmp.compare_self
  simp only [compareVersions, found, same]
  nofun

/-- What a version is not below is not above a greater one. -/
theorem compareVersions_trans (lawful : semver.Lawful) {tagA tagB tagC : Text} {a b c : Version}
    (parsedA : parseVersion semver tagA = some a) (parsedB : parseVersion semver tagB = some b)
    (parsedC : parseVersion semver tagC = some c) (below : compareVersions semver a b ≠ .gt)
    (above : compareVersions semver c b = .gt) : compareVersions semver a c ≠ .gt := by
  obtain ⟨readA, foundA⟩ := asSemver_of_parsed lawful parsedA
  obtain ⟨readB, foundB⟩ := asSemver_of_parsed lawful parsedB
  obtain ⟨readC, foundC⟩ := asSemver_of_parsed lawful parsedC
  have ordered := lawful.ordered
  simp only [compareVersions, foundA, foundB, foundC] at below above ⊢
  have less : semver.cmp readB readC = .lt := Std.OrientedCmp.gt_iff_lt.mp above
  refine Ordering.isLE_iff_ne_gt.mp (Std.TransCmp.isLE_trans (Ordering.isLE_iff_ne_gt.mpr below) ?_)
  rw [less]
  rfl

/-- A version that is a candidate's and that no candidate's exceeds. -/
structure Leads (semver : SemverCrate) (channel : Channel) (seen : List (GithubReleaseJson × Nat)) (version : Version)
    (index : Nat) : Prop where
  chosen : ∃ entry ∈ seen, entry.2 = index ∧ candidateVersion semver channel entry.1 = some version
  greatest : ∀ entry ∈ seen, ∀ other, candidateVersion semver channel entry.1 = some other →
    compareVersions semver other version ≠ .gt

/-- The best of the releases that were seen. -/
def IsBest (semver : SemverCrate) (channel : Channel) (seen : List (GithubReleaseJson × Nat)) :
    Option (Version × Nat) → Prop
  | none => ∀ entry ∈ seen, candidateVersion semver channel entry.1 = none
  | some (version, index) => Leads semver channel seen version index

/-- One more release is seen. -/
theorem IsBest.step (lawful : semver.Lawful) {seen : List (GithubReleaseJson × Nat)} {best : Option (Version × Nat)}
    (isBest : IsBest semver channel seen best) (entry : GithubReleaseJson × Nat) :
    IsBest semver channel (seen ++ [entry]) (betterRelease semver channel best entry) := by
  cases candidate : candidateVersion semver channel entry.1 with
  | none =>
    -- A release that is no candidate changes nothing.
    have same : betterRelease semver channel best entry = best := by simp [betterRelease, candidate]
    rw [same]
    cases best with
    | none =>
      intro other member
      rcases List.mem_append.mp member with before | last
      · exact isBest other before
      · exact List.mem_singleton.mp last ▸ candidate
    | some best =>
      obtain ⟨chosen, member, rest⟩ := isBest.chosen
      refine ⟨⟨chosen, List.mem_append_left _ member, rest⟩, fun other member version found => ?_⟩
      rcases List.mem_append.mp member with before | last
      · exact isBest.greatest other before version found
      · obtain rfl := List.mem_singleton.mp last
        cases candidate.symm.trans found
  | some version =>
    have parsed := (candidateVersion_eq_some.mp candidate).2.1
    -- The candidate itself does not exceed it.
    have own {other : GithubReleaseJson × Nat} (last : other ∈ [entry]) {found : Version}
        (candidate' : candidateVersion semver channel other.1 = some found) : found = version := by
      obtain rfl := List.mem_singleton.mp last
      exact Option.some.inj (candidate'.symm.trans candidate)
    cases best with
    | none =>
      simp only [betterRelease, candidate]
      refine ⟨⟨entry, by simp, rfl, candidate⟩, fun other member found candidate' => ?_⟩
      rcases List.mem_append.mp member with before | last
      · cases (isBest other before).symm.trans candidate'
      · rw [own last candidate']
        exact compareVersions_self lawful parsed
    | some best =>
      obtain ⟨current, index⟩ := best
      obtain ⟨chosen, member, same, kept⟩ := isBest.chosen
      have parsedKept := (candidateVersion_eq_some.mp kept).2.1
      simp only [betterRelease, candidate]
      split
      · rename_i greater
        refine ⟨⟨entry, by simp, rfl, candidate⟩, fun other member found candidate' => ?_⟩
        rcases List.mem_append.mp member with before | last
        · exact compareVersions_trans lawful (candidateVersion_eq_some.mp candidate').2.1 parsedKept parsed
            (isBest.greatest other before found candidate') greater
        · rw [own last candidate']
          exact compareVersions_self lawful parsed
      · rename_i notGreater
        refine ⟨⟨chosen, List.mem_append_left _ member, same, kept⟩, fun other member found candidate' => ?_⟩
        rcases List.mem_append.mp member with before | last
        · exact isBest.greatest other before found candidate'
        · rw [own last candidate']
          exact notGreater

/-- The rest of the releases is seen. -/
theorem IsBest.foldl (lawful : semver.Lawful) {seen : List (GithubReleaseJson × Nat)} {best : Option (Version × Nat)}
    (isBest : IsBest semver channel seen best) (rest : List (GithubReleaseJson × Nat)) :
    IsBest semver channel (seen ++ rest) (rest.foldl (betterRelease semver channel) best) := by
  induction rest generalizing seen best with
  | nil => simpa using isBest
  | cons entry rest ih => simpa [List.append_assoc] using ih (isBest.step lawful entry)

/-- The release that is selected is a candidate, and none exceeds it. -/
theorem selectLatestRelease_leads (lawful : semver.Lawful) {items : List GithubReleaseJson} {includeBeta : Bool}
    {version : Version} {index : Nat}
    (selected : selectLatestRelease semver items includeBeta = some (version, index)) :
    ∃ item, items[index]? = some item ∧
      candidateVersion semver (requestedChannel includeBeta) item = some version ∧
      ∀ other ∈ items, ∀ otherVersion,
        candidateVersion semver (requestedChannel includeBeta) other = some otherVersion →
          compareVersions semver otherVersion version ≠ .gt := by
  have nothing : IsBest semver (requestedChannel includeBeta) [] none := fun _ member => absurd member List.not_mem_nil
  have isBest : IsBest semver (requestedChannel includeBeta) ([] ++ items.zipIdx)
      (selectLatestRelease semver items includeBeta) := nothing.foldl lawful items.zipIdx
  rw [selected, List.nil_append] at isBest
  obtain ⟨⟨item, place⟩, member, rfl, candidate⟩ := isBest.chosen
  refine ⟨item, List.mem_zipIdx_iff_getElem?.mp member, candidate, fun other inside otherVersion found => ?_⟩
  obtain ⟨position, held⟩ := List.getElem?_of_mem inside
  exact isBest.greatest (other, position) (List.mem_zipIdx_iff_getElem?.mpr held) otherVersion found

/-! ## The assets -/

/-- An asset that is taken over is one of the release's, complete and official. -/
def IsTaken (urls : UrlParser) (assets : List GithubAssetJson) (taken : InstallerAsset) : Prop :=
  ∃ asset ∈ assets, asset.isUploaded = true ∧ isOfficialReleaseAssetUrl urls asset.browserDownloadUrl = true ∧
    taken = assetTo asset

/-- The installer that is picked is an official one of the version. -/
theorem pickInstallerFrom_spec {version : Text} {assets : List GithubAssetJson} {fallback : Option InstallerAsset}
    {picked : InstallerAsset} (found : pickInstallerFrom urls version assets fallback = some picked) :
    fallback = some picked ∨ (IsTaken urls assets picked ∧
      (picked.name = plainInstaller version ∨ picked.name = devsignedInstaller version)) := by
  have later {asset : GithubAssetJson} {rest : List GithubAssetJson} (taken : IsTaken urls rest picked) :
      IsTaken urls (asset :: rest) picked :=
    taken.imp fun _ held => ⟨List.mem_cons_of_mem _ held.1, held.2⟩
  induction assets generalizing fallback with
  | nil => exact .inl found
  | cons asset rest ih =>
    rw [pickInstallerFrom] at found
    split at found
    · exact (ih found).imp_right (And.imp_left later)
    · rename_i good
      have good : asset.isUploaded = true ∧ isOfficialReleaseAssetUrl urls asset.browserDownloadUrl = true := by
        simpa using good
      split at found
      · rename_i plain
        obtain rfl := Option.some.inj found
        exact .inr ⟨⟨asset, by simp, good.1, good.2, rfl⟩, .inl plain⟩
      · split at found
        · rename_i devsigned
          have devsigned : asset.name = devsignedInstaller version ∧ fallback.isNone = true := by simpa using devsigned
          rcases ih found with same | taken
          · obtain rfl := Option.some.inj same
            exact .inr ⟨⟨asset, by simp, good.1, good.2, rfl⟩, .inr devsigned.1⟩
          · exact .inr (taken.imp_left later)
        · exact (ih found).imp_right (And.imp_left later)

/-- The checksums that are picked are an official asset. -/
theorem pickSumsAsset_spec {assets : List GithubAssetJson} {picked : InstallerAsset}
    (found : pickSumsAsset urls assets = some picked) :
    IsTaken urls assets picked ∧ picked.name = "SHA256SUMS.txt".toList := by
  obtain ⟨asset, held, rfl⟩ := Option.map_eq_some_iff.mp found
  have member := List.mem_of_find?_eq_some held
  have checked := List.find?_some held
  simp only [Bool.and_eq_true, decide_eq_true_eq] at checked
  exact ⟨⟨asset, member, checked.1.2, checked.2, rfl⟩, checked.1.1⟩

/-- Both assets of a release are its own. -/
theorem validateReleaseAssets_spec {release : GithubReleaseJson} {version : Version} {installer sums : InstallerAsset}
    (valid : validateReleaseAssets urls release version = some (installer, sums)) :
    (IsTaken urls release.assets installer ∧ (installer.name = plainInstaller (formatVersion version) ∨
        installer.name = devsignedInstaller (formatVersion version)) ∧
      installer.url = releaseAssetUrl release.tagName installer.name) ∧
    (IsTaken urls release.assets sums ∧ sums.name = "SHA256SUMS.txt".toList ∧
      sums.url = releaseAssetUrl release.tagName sums.name) := by
  simp only [validateReleaseAssets, Option.bind_eq_bind, Option.bind_eq_some_iff] at valid
  obtain ⟨picked, found, pickedSums, foundSums, rest⟩ := valid
  split at rest
  · cases rest
  · rename_i exact_
    obtain ⟨rfl, rfl⟩ : picked = installer ∧ pickedSums = sums := by simpa using rest
    simp only [isExactReleaseAssetUrl, Bool.or_eq_true, Bool.not_eq_true', decide_eq_false_iff_not, not_or,
      not_not] at exact_
    rcases pickInstallerFrom_spec found with none_ | ⟨taken, named⟩
    · cases none_
    · obtain ⟨takenSums, namedSums⟩ := pickSumsAsset_spec foundSums
      exact ⟨⟨taken, named, exact_.1⟩, takenSums, namedSums, exact_.2⟩

/-! ## The gate -/

/-- The segments of an official URL. -/
theorem official_segments {value : Text} (official : isOfficialReleaseAssetUrl urls value = true) :
    ∃ url tag file, urls.parse value = some url ∧ url.pathSegments = some (releasePath ++ [tag, file]) ∧
      '%' ∉ tag ∧ '%' ∉ file := by
  unfold isOfficialReleaseAssetUrl at official
  split at official
  · cases official
  · rename_i url parsed
    split at official
    · cases official
    · split at official
      · rename_i owner repo releases download tag file segments
        simp only [Bool.and_eq_true, decide_eq_true_eq, Bool.not_eq_true', List.contains_eq_mem,
          decide_eq_false_iff_not] at official
        obtain ⟨⟨⟨⟨⟨⟨⟨rfl, rfl⟩, rfl⟩, rfl⟩, -⟩, -⟩, tagPlain⟩, filePlain⟩ := official
        exact ⟨url, tag, file, parsed, segments, tagPlain, filePlain⟩
      · cases official

/-- A URL that passes the gate names an installer of the version of its tag, which is a newer one. -/
structure Passes (semver : SemverCrate) (urls : UrlParser) (value : Text) (current : Version) (tag file : Text)
    (version : Version) : Prop where
  official : isOfficialReleaseAssetUrl urls value = true
  segments : ∃ url, urls.parse value = some url ∧ url.pathSegments = some (releasePath ++ [tag, file])
  parsed : parseVersion semver tag = some version
  newer : compareVersions semver version current = .gt
  named : file = plainInstaller (formatVersion version) ∨ file = devsignedInstaller (formatVersion version)

/-- The gate lets exactly the installers of newer versions pass. -/
theorem validateInstallerAssetUrl_ok {value : Text} {current : Version} :
    validateInstallerAssetUrl semver urls value current = .ok () ↔
      ∃ tag file version, Passes semver urls value current tag file version := by
  constructor
  · intro passed
    unfold validateInstallerAssetUrl at passed
    split at passed
    · cases passed
    rename_i official
    have official : isOfficialReleaseAssetUrl urls value = true := by simpa using official
    obtain ⟨url, tag, file, parsed, segments, -⟩ := official_segments official
    simp only [parsed, segments, releasePath, List.cons_append, List.nil_append, and_self, if_true] at passed
    split at passed
    · cases passed
    rename_i version tagged
    split at passed
    · cases passed
    rename_i newer
    split at passed
    · cases passed
    rename_i named
    refine ⟨tag, file, version, official, ⟨url, parsed, segments⟩, tagged, not_not.mp newer, ?_⟩
    by_contra neither
    exact named (not_or.mp neither)
  · rintro ⟨tag, file, version, official, ⟨url, parsed, segments⟩, tagged, newer, named⟩
    have named : ¬ (file ≠ plainInstaller (formatVersion version) ∧
        file ≠ devsignedInstaller (formatVersion version)) :=
      fun neither => named.elim neither.1 neither.2
    unfold validateInstallerAssetUrl
    simp only [official, Bool.not_true, Bool.false_eq_true, if_false, parsed, segments, releasePath, List.cons_append,
      List.nil_append, and_self, if_true, tagged, newer, ne_eq, not_true_eq_false]
    rw [if_neg named]

end

end Nospacekey
