import Nospacekey.Text.Decoding

/-! The choice of an update among the releases, and the gate that a download goes through. -/

namespace Nospacekey

structure SemverVersion where
  major : Nat
  minor : Nat
  patch : Nat
  pre : Text
  build : Text
  deriving DecidableEq, Repr

/-- The semver crate, as far as it is used. -/
structure SemverCrate where
  parse : Text → Option SemverVersion
  cmp : SemverVersion → SemverVersion → Ordering

structure Url where
  scheme : Text
  host : Option Text
  port : Option Nat
  username : Text
  password : Option Text
  pathSegments : Option (List Text)
  query : Option Text
  fragment : Option Text
  deriving DecidableEq, Repr

/-- The parser of URLs, as far as it is used. -/
structure UrlParser where
  parse : Text → Option Url

structure Version where
  major : Nat
  minor : Nat
  patch : Nat
  pre : Option Text
  deriving DecidableEq, Repr

/-- A version without its build metadata, which is not compared. -/
def Version.fromSemver (v : SemverVersion) : Version :=
  ⟨v.major, v.minor, v.patch, if v.pre.isEmpty then none else some v.pre⟩

/-- A number in decimal digits. -/
def decimal (number : Nat) : Text := Nat.toDigits 10 number

def formatVersion (version : Version) : Text :=
  let numbers := decimal version.major ++ '.' :: decimal version.minor ++ '.' :: decimal version.patch
  match version.pre with
  | some pre => numbers ++ '-' :: pre
  | none => numbers

/-- The text of a version is read back. -/
def Version.asSemver (semver : SemverCrate) (version : Version) : Option SemverVersion :=
  semver.parse (formatVersion version)

/-- One leading letter is no part of a version. -/
def withoutV : Text → Text
  | 'v' :: rest => rest
  | 'V' :: rest => rest
  | text => text

def parseVersion (semver : SemverCrate) (value : Text) : Option Version :=
  (semver.parse (withoutV (trim value))).map Version.fromSemver

/-- The order of the fields, with no pre-release first. -/
def compareFields (a b : Version) : Ordering :=
  (compare a.major b.major).then <| (compare a.minor b.minor).then <| (compare a.patch b.patch).then <|
    match a.pre, b.pre with
    | none, none => .eq
    | none, some _ => .lt
    | some _, none => .gt
    | some a, some b => compareOn (List.map Char.toNat) a b

def compareVersions (semver : SemverCrate) (a b : Version) : Ordering :=
  match a.asSemver semver, b.asSemver semver with
  | some a, some b => semver.cmp a b
  | _, _ => compareFields a b

structure GithubAssetJson where
  name : Text
  size : Nat
  browserDownloadUrl : Text
  state : Option Text
  deriving DecidableEq, Repr

structure GithubReleaseJson where
  tagName : Text
  prerelease : Bool
  draft : Bool
  body : Text
  assets : List GithubAssetJson
  deriving DecidableEq, Repr

/-- A state that is missing counts as not uploaded. -/
def GithubAssetJson.isUploaded (asset : GithubAssetJson) : Bool := asset.state = some "uploaded".toList

inductive Channel where
  | stable
  | beta
  deriving DecidableEq, Repr

structure InstallerAsset where
  name : Text
  url : Text
  size : Nat
  deriving DecidableEq, Repr

structure InstallableRelease where
  version : Version
  channel : Channel
  installer : InstallerAsset
  sums : InstallerAsset
  releaseTag : Text
  releaseNotes : Text
  deriving DecidableEq, Repr

def releaseMatchesChannel (item : GithubReleaseJson) (version : Version) (channel : Channel) : Bool :=
  if item.prerelease ≠ version.pre.isSome then false
  else
    match channel with
    | .stable => !item.prerelease && version.pre.isNone
    | .beta => true

/-- A release that is no draft, whose tag is a version and whose flag agrees with it. -/
def candidateVersion (semver : SemverCrate) (channel : Channel) (item : GithubReleaseJson) : Option Version :=
  if item.draft then none
  else (parseVersion semver item.tagName).filter fun version => releaseMatchesChannel item version channel

/-- The best version so far gives way to a greater one only. -/
def betterRelease (semver : SemverCrate) (channel : Channel) (best : Option (Version × Nat))
    (entry : GithubReleaseJson × Nat) : Option (Version × Nat) :=
  match candidateVersion semver channel entry.1, best with
  | none, _ => best
  | some version, none => some (version, entry.2)
  | some version, some (current, _) =>
    if compareVersions semver version current = .gt then some (version, entry.2) else best

def requestedChannel (includeBeta : Bool) : Channel := if includeBeta then .beta else .stable

def selectLatestRelease (semver : SemverCrate) (items : List GithubReleaseJson) (includeBeta : Bool) :
    Option (Version × Nat) :=
  items.zipIdx.foldl (betterRelease semver (requestedChannel includeBeta)) none

/-- The initial URL of an official release asset. -/
def isOfficialReleaseAssetUrl (urls : UrlParser) (value : Text) : Bool :=
  match urls.parse value with
  | none => false
  | some url =>
    if url.scheme ≠ "https".toList || url.host ≠ some "github.com".toList || url.port.isSome || !url.username.isEmpty
        || url.password.isSome || url.query.isSome || url.fragment.isSome then false
    else
      match url.pathSegments with
      | some [owner, repo, releases, download, tag, file] =>
        owner = "yachtida".toList && repo = "nospacekey".toList && releases = "releases".toList
          && download = "download".toList && !tag.isEmpty && !file.isEmpty && !tag.contains '%' && !file.contains '%'
      | _ => false

/-- What the name of an installer begins with. -/
def installerFront : Text := "nospacekey-setup-".toList

def plainInstaller (version : Text) : Text := installerFront ++ version ++ ".exe".toList

def devsignedInstaller (version : Text) : Text := installerFront ++ version ++ "-devsigned.exe".toList

def assetTo (asset : GithubAssetJson) : InstallerAsset := ⟨asset.name, asset.browserDownloadUrl, asset.size⟩

/-- The installer without a mark is taken at once, and else the first one that is signed for development. -/
def pickInstallerFrom (urls : UrlParser) (version : Text) :
    List GithubAssetJson → Option InstallerAsset → Option InstallerAsset
  | [], fallback => fallback
  | asset :: rest, fallback =>
    if !asset.isUploaded || !isOfficialReleaseAssetUrl urls asset.browserDownloadUrl then
      pickInstallerFrom urls version rest fallback
    else if asset.name = plainInstaller version then some (assetTo asset)
    else if asset.name = devsignedInstaller version && fallback.isNone then
      pickInstallerFrom urls version rest (some (assetTo asset))
    else pickInstallerFrom urls version rest fallback

def pickInstallerAsset (urls : UrlParser) (assets : List GithubAssetJson) (version : Text) : Option InstallerAsset :=
  pickInstallerFrom urls version assets none

def pickSumsAsset (urls : UrlParser) (assets : List GithubAssetJson) : Option InstallerAsset :=
  (assets.find? fun asset => asset.name = "SHA256SUMS.txt".toList && asset.isUploaded
    && isOfficialReleaseAssetUrl urls asset.browserDownloadUrl).map assetTo

/-- What the URL of a release asset begins with. -/
def releaseAssetFront : Text := "https://github.com/yachtida/nospacekey/releases/download/".toList

def releaseAssetUrl (tag name : Text) : Text := releaseAssetFront ++ tag ++ '/' :: name

def isExactReleaseAssetUrl (url tag name : Text) : Bool := url = releaseAssetUrl tag name

def validateReleaseAssets (urls : UrlParser) (release : GithubReleaseJson) (version : Version) :
    Option (InstallerAsset × InstallerAsset) := do
  let installer ← pickInstallerAsset urls release.assets (formatVersion version)
  let sums ← pickSumsAsset urls release.assets
  if !isExactReleaseAssetUrl installer.url release.tagName installer.name
      || !isExactReleaseAssetUrl sums.url release.tagName sums.name then none
  else some (installer, sums)

def selectInstallableRelease (semver : SemverCrate) (urls : UrlParser) (items : List GithubReleaseJson)
    (current : Version) (includeBeta : Bool) : Option InstallableRelease := do
  let (version, index) ← selectLatestRelease semver items includeBeta
  if compareVersions semver version current ≠ .gt then none
  else
    let release ← items[index]?
    let (installer, sums) ← validateReleaseAssets urls release version
    some ⟨version, if version.pre.isSome then .beta else .stable, installer, sums, release.tagName, release.body⟩

/-- Why a download is refused. -/
def notOfficial : Text := "ダウンロード元が公式リリースの URL ではありません。".toList

def notParsed : Text := "ダウンロード元 URL を解析できません。".toList

def notAPath : Text := "ダウンロード元 URL のパスが不正です。".toList

def notARelease : Text := "ダウンロード元 URL のリリースパスが不正です。".toList

def notAVersion : Text := "ダウンロード元 URL のタグが semver ではありません。".toList

def notNewer : Text := "ダウンロード元のバージョンが現在のバージョンより新しくありません。".toList

def notCanonical : Text := "ダウンロード元のファイル名が canonical installer と一致しません。".toList

def validateInstallerAssetUrl (semver : SemverCrate) (urls : UrlParser) (value : Text) (current : Version) :
    Except Text Unit :=
  if !isOfficialReleaseAssetUrl urls value then .error notOfficial
  else
    match urls.parse value with
    | none => .error notParsed
    | some url =>
      match url.pathSegments with
      | none => .error notAPath
      | some [owner, repo, releases, download, tag, file] =>
        if owner = "yachtida".toList ∧ repo = "nospacekey".toList ∧ releases = "releases".toList
            ∧ download = "download".toList then
          match parseVersion semver tag with
          | none => .error notAVersion
          | some version =>
            if compareVersions semver version current ≠ .gt then .error notNewer
            else if file ≠ plainInstaller (formatVersion version) ∧ file ≠ devsignedInstaller (formatVersion version)
            then .error notCanonical
            else .ok ()
        else .error notARelease
      | some _ => .error notARelease

/-! ## Checksums -/

def isAsciiHexDigit (byte : UInt8) : Bool :=
  (0x30 ≤ byte && byte ≤ 0x39) || (0x41 ≤ byte && byte ≤ 0x46) || (0x61 ≤ byte && byte ≤ 0x66)

def isValidSha256Hex (value : Text) : Bool :=
  let bytes := value.flatMap String.utf8EncodeChar
  bytes.length = 64 && bytes.all isAsciiHexDigit

/-- The runs between white space. -/
def splitWhitespace (line : Text) : List Text := (line.splitOnP Serde.isWhitespace).filter (· ≠ [])

/-- The mark of a binary file is no part of its name. -/
def withoutStar : Text → Text
  | '*' :: rest => rest
  | name => name

/-- The hash that a line has for a file, when it is well formed and names the file. -/
def sumOf (target : Text) (line : Text) : Option Text :=
  match splitWhitespace line with
  | [] => none
  | hash :: rest =>
    match rest.getLast? with
    | none => none
    | some name => if withoutStar name ≠ target || !isValidSha256Hex hash then none else some hash

def eqIgnoreAsciiCase (a b : Text) : Bool := a.map Char.toLower = b.map Char.toLower

/-- The first hash for a file stays, and another one that differs from it spoils the search. -/
def parseSumsFrom (target : Text) : List Text → Option Text → Option Text
  | [], found => found
  | line :: rest, found =>
    match sumOf target line, found with
    | none, _ => parseSumsFrom target rest found
    | some hash, some existing =>
      if !eqIgnoreAsciiCase existing hash then none else parseSumsFrom target rest found
    | some hash, none => parseSumsFrom target rest (some hash)

def parseSha256sums (text target : Text) : Option Text := parseSumsFrom target (lines text) none

end Nospacekey
