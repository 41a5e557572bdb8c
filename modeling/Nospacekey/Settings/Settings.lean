import Nospacekey.Ipc.Clause
import Nospacekey.Library.Serde
import Mathlib.Data.Char
import Mathlib.Data.Finset.Sort

/-! The settings, their defaults, and how they stand in a file. -/

namespace Nospacekey

open Serde

variable {f32 f64 : Type}

structure LlmSettings where
  enabled : Bool
  apiKeyDpapi : Text
  endpoint : Text
  model : Text
  prompt : Text
  timeoutMs : UInt32
  deriving DecidableEq, Repr

def LlmSettings.default : LlmSettings where
  enabled := false
  apiKeyDpapi := []
  endpoint := []
  model := "gpt-4o-mini".toList
  prompt := []
  timeoutMs := 15000

def LlmSettings.codec : Serde.Codec f64 LlmSettings :=
  .struct (Record.of LlmSettings.mk
    |>.required "enabled" .bool LlmSettings.enabled
    |>.defaulted "api_key_dpapi" .text LlmSettings.apiKeyDpapi []
    |>.defaulted "endpoint" .text LlmSettings.endpoint []
    |>.required "model" .text LlmSettings.model
    |>.defaulted "prompt" .text LlmSettings.prompt []
    |>.required "timeout_ms" .u32 LlmSettings.timeoutMs) ⟨fun _ => rfl, by simp⟩

structure ZenzaiSettings where
  enabled : Bool
  weightPath : Text
  inferenceLimit : UInt32
  deriving DecidableEq, Repr

def ZenzaiSettings.default : ZenzaiSettings := ⟨true, [], 1⟩

def ZenzaiSettings.codec : Serde.Codec f64 ZenzaiSettings :=
  .struct (Record.of ZenzaiSettings.mk
    |>.required "enabled" .bool ZenzaiSettings.enabled
    |>.defaulted "weight_path" .text ZenzaiSettings.weightPath []
    |>.defaulted "inference_limit" .u32 ZenzaiSettings.inferenceLimit 1) ⟨fun _ => rfl, by simp⟩

structure LiveSettings where
  enabled : Bool
  searchWidth : UInt32
  deriving DecidableEq, Repr

def LiveSettings.default : LiveSettings := ⟨true, 1⟩

def LiveSettings.codec : Serde.Codec f64 LiveSettings :=
  .struct (Record.of LiveSettings.mk
    |>.required "enabled" .bool LiveSettings.enabled
    |>.defaulted "search_width" .u32 LiveSettings.searchWidth 1) ⟨fun _ => rfl, by simp⟩

/-- A section that has one switch only. -/
def switchCodec {σ : Type} (name : String) (make : Bool → σ) (switch : σ → Bool) (whole : ∀ x, make (switch x) = x) :
    Serde.Codec f64 σ :=
  .struct (Record.of make |>.required name .bool switch) ⟨whole, List.nodup_singleton name⟩

structure InlinePredictionSettings where
  enabled : Bool
  deriving DecidableEq, Repr

def InlinePredictionSettings.codec : Serde.Codec f64 InlinePredictionSettings :=
  switchCodec "enabled" .mk InlinePredictionSettings.enabled fun _ => rfl

structure LearningSettings where
  enabled : Bool
  deriving DecidableEq, Repr

def LearningSettings.codec : Serde.Codec f64 LearningSettings :=
  switchCodec "enabled" .mk LearningSettings.enabled fun _ => rfl

structure FeedbackSettings where
  enabled : Bool
  deriving DecidableEq, Repr

def FeedbackSettings.codec : Serde.Codec f64 FeedbackSettings :=
  switchCodec "enabled" .mk FeedbackSettings.enabled fun _ => rfl

structure NumberSettings where
  fullWidth : Bool
  deriving DecidableEq, Repr

def NumberSettings.codec : Serde.Codec f64 NumberSettings :=
  switchCodec "full_width" .mk NumberSettings.fullWidth fun _ => rfl

structure PunctuationSettings where
  fullWidth : Bool
  deriving DecidableEq, Repr

def PunctuationSettings.codec : Serde.Codec f64 PunctuationSettings :=
  switchCodec "full_width" .mk PunctuationSettings.fullWidth fun _ => rfl

/-- Punctuation of ASCII. -/
def isAsciiPunctuation (c : Char) : Bool :=
  (33 ≤ c.toNat && c.toNat ≤ 47) || (58 ≤ c.toNat && c.toNat ≤ 64) || (91 ≤ c.toNat && c.toNat ≤ 96)
    || (123 ≤ c.toNat && c.toNat ≤ 126)

/-- The marks that can be chosen one by one, which are all of them at first. -/
def defaultFullWidthChars : Finset Char :=
  (((List.range' 0x21 94).map Char.ofNat).filter fun c =>
    isAsciiPunctuation c && !(c = '-' || c = ',' || c = '.')).toFinset

structure SymbolSettings where
  fullWidth : Bool
  fullWidthChars : Finset Char
  deriving DecidableEq

def SymbolSettings.default : SymbolSettings := ⟨false, defaultFullWidthChars⟩

/-- The items that are texts of one character, as a set. -/
def oneCharTexts (items : List Text) : Finset Char :=
  (items.filterMap fun item => match item with
    | [c] => some c
    | _ => none).toFinset

/-- What is no list of texts of one character is read as one, or as the default. -/
def deSymbolChars (json : Value f64) : Option (Finset Char) :=
  json.value.map fun
    | .array items => oneCharTexts (items.filterMap fun
      | .string item => some item
      | _ => none)
    | _ => defaultFullWidthChars

/-- The characters in order, each a text of its own. -/
def symbolCharsValue (chars : Finset Char) : Value f64 :=
  .array ((chars.sort (· ≤ ·)).map fun c => .string [c])

theorem canonical_symbolChars (chars : Finset Char) : (symbolCharsValue chars : Value f64).Canonical := by
  refine .array fun item inside => ?_
  obtain ⟨c, _, rfl⟩ := List.mem_map.mp inside
  exact .string [c]

/-- A set of characters is read as it is written. -/
theorem deSymbolChars_symbolCharsValue (chars : Finset Char) :
    deSymbolChars (symbolCharsValue chars : Value f64) = some chars := by
  rw [deSymbolChars, Json.value_of_canonical (canonical_symbolChars chars), Option.map_some, symbolCharsValue]
  refine congrArg some ?_
  ext c
  simp [oneCharTexts, List.filterMap_map]

def symbolCharsCodec : Serde.Codec f64 (Finset Char) :=
  .leaf symbolCharsValue deSymbolChars (fun _ => True) canonical_symbolChars (by simp [symbolCharsValue])
    fun chars _ => deSymbolChars_symbolCharsValue chars

def SymbolSettings.codec : Serde.Codec f64 SymbolSettings :=
  .struct (Record.of SymbolSettings.mk
    |>.required "full_width" .bool SymbolSettings.fullWidth
    |>.defaulted "full_width_chars" symbolCharsCodec SymbolSettings.fullWidthChars defaultFullWidthChars)
    ⟨fun _ => rfl, by simp⟩

structure EphemeralSettings where
  enabled : Bool
  trigger : Text
  deriving DecidableEq, Repr

def EphemeralSettings.default : EphemeralSettings := ⟨true, "f8".toList⟩

def EphemeralSettings.codec : Serde.Codec f64 EphemeralSettings :=
  .struct (Record.of EphemeralSettings.mk
    |>.required "enabled" .bool EphemeralSettings.enabled
    |>.required "trigger" .text EphemeralSettings.trigger) ⟨fun _ => rfl, by simp⟩

structure TypoCorrectSettings where
  enabled : Bool
  learn : Bool
  deriving DecidableEq, Repr

def TypoCorrectSettings.default : TypoCorrectSettings := ⟨true, true⟩

def TypoCorrectSettings.codec : Serde.Codec f64 TypoCorrectSettings :=
  .struct (Record.of TypoCorrectSettings.mk
    |>.required "enabled" .bool TypoCorrectSettings.enabled
    |>.required "learn" .bool TypoCorrectSettings.learn) ⟨fun _ => rfl, by simp⟩

structure ShiftLatinSettings where
  mode : Text
  deriving DecidableEq, Repr

def ShiftLatinSettings.default : ShiftLatinSettings := ⟨"compose".toList⟩

def ShiftLatinSettings.codec : Serde.Codec f64 ShiftLatinSettings :=
  .struct (Record.of ShiftLatinSettings.mk
    |>.defaulted "mode" .text ShiftLatinSettings.mode "compose".toList) ⟨fun _ => rfl, by simp⟩

structure ReadingMonitorSettings where
  enabled : Bool
  accumulate : Bool
  maxChars : UInt32
  deriving DecidableEq, Repr

def ReadingMonitorSettings.default : ReadingMonitorSettings := ⟨true, true, 34⟩

def ReadingMonitorSettings.codec : Serde.Codec f64 ReadingMonitorSettings :=
  .struct (Record.of ReadingMonitorSettings.mk
    |>.required "enabled" .bool ReadingMonitorSettings.enabled
    |>.defaulted "accumulate" .bool ReadingMonitorSettings.accumulate true
    |>.defaulted "max_chars" .u32 ReadingMonitorSettings.maxChars 34) ⟨fun _ => rfl, by simp⟩

/-- A key for each command. Nothing is the default, and an empty key is none at all. -/
structure KeymapSettings where
  modeToggle : Option Text
  reconvert : Option Text
  feedback : Option Text
  ephemeral : Option Text
  commitUndo : Option Text
  typoCorrect : Option Text
  llmConvert : Option Text
  toHiragana : Option Text
  toKatakana : Option Text
  toHankakuKana : Option Text
  toZenkakuEisu : Option Text
  toHankakuEisu : Option Text
  notationRotate : Option Text
  convert : Option Text
  deriving DecidableEq, Repr

def KeymapSettings.default : KeymapSettings :=
  ⟨none, none, none, none, none, none, none, none, none, none, none, none, none, none⟩

def KeymapSettings.codec : Serde.Codec f64 KeymapSettings :=
  .struct (Record.of KeymapSettings.mk
    |>.defaulted "mode_toggle" .optionText KeymapSettings.modeToggle none
    |>.defaulted "reconvert" .optionText KeymapSettings.reconvert none
    |>.defaulted "feedback" .optionText KeymapSettings.feedback none
    |>.defaulted "ephemeral" .optionText KeymapSettings.ephemeral none
    |>.defaulted "commit_undo" .optionText KeymapSettings.commitUndo none
    |>.defaulted "typo_correct" .optionText KeymapSettings.typoCorrect none
    |>.defaulted "llm_convert" .optionText KeymapSettings.llmConvert none
    |>.defaulted "to_hiragana" .optionText KeymapSettings.toHiragana none
    |>.defaulted "to_katakana" .optionText KeymapSettings.toKatakana none
    |>.defaulted "to_hankaku_kana" .optionText KeymapSettings.toHankakuKana none
    |>.defaulted "to_zenkaku_eisu" .optionText KeymapSettings.toZenkakuEisu none
    |>.defaulted "to_hankaku_eisu" .optionText KeymapSettings.toHankakuEisu none
    |>.defaulted "notation_rotate" .optionText KeymapSettings.notationRotate none
    |>.defaulted "convert" .optionText KeymapSettings.convert none) ⟨fun _ => rfl, by simp⟩

structure UserDictionarySettings where
  enabled : Bool
  deriving DecidableEq, Repr

def UserDictionarySettings.codec : Serde.Codec f64 UserDictionarySettings :=
  .struct (Record.of UserDictionarySettings.mk
    |>.defaulted "enabled" .bool UserDictionarySettings.enabled true) ⟨fun _ => rfl, by simp⟩

structure UpdateSettings where
  automaticCheck : Bool
  includeBeta : Bool
  automaticCheckPromptDismissed : Bool
  deriving DecidableEq, Repr

def UpdateSettings.default : UpdateSettings := ⟨false, false, false⟩

def UpdateSettings.codec : Serde.Codec f64 UpdateSettings :=
  .struct (Record.of UpdateSettings.mk
    |>.defaulted "automatic_check" .bool UpdateSettings.automaticCheck false
    |>.defaulted "include_beta" .bool UpdateSettings.includeBeta false
    |>.defaulted "automatic_check_prompt_dismissed" .bool UpdateSettings.automaticCheckPromptDismissed false)
    ⟨fun _ => rfl, by simp⟩

structure Palette where
  bg : Text
  text : Text
  index : Text
  selBg : Text
  selText : Text
  selIndex : Text
  border : Text
  deriving DecidableEq, Repr

def Palette.codec : Serde.Codec f64 Palette :=
  .struct (Record.of Palette.mk
    |>.defaulted "bg" .text Palette.bg []
    |>.defaulted "text" .text Palette.text []
    |>.defaulted "index" .text Palette.index []
    |>.defaulted "sel_bg" .text Palette.selBg []
    |>.defaulted "sel_text" .text Palette.selText []
    |>.defaulted "sel_index" .text Palette.selIndex []
    |>.defaulted "border" .text Palette.border []) ⟨fun _ => rfl, by simp⟩

def defaultLightPalette : Palette where
  bg := "#FFFFFF".toList
  text := "#1D1D1F".toList
  index := "#86868B".toList
  selBg := "#0071E3".toList
  selText := "#FFFFFF".toList
  selIndex := "#B3D4F7".toList
  border := "#E0E0E0".toList

def defaultDarkPalette : Palette where
  bg := "#2C2C2E".toList
  text := "#F5F5F7".toList
  index := "#98989D".toList
  selBg := "#0A84FF".toList
  selText := "#FFFFFF".toList
  selIndex := "#B6DAFF".toList
  border := "#4E4E4F".toList

/-- The built-in palettes of the first version, which were written out with every save. -/
def legacyV1LightPalette : Palette where
  bg := "#FAFAFA".toList
  text := "#202020".toList
  index := "#A0A0A0".toList
  selBg := "#0078D7".toList
  selText := "#FFFFFF".toList
  selIndex := "#C8DCF0".toList
  border := "#E0E0E0".toList

def legacyV1DarkPalette : Palette where
  bg := "#2B2B2B".toList
  text := "#F0F0F0".toList
  index := "#7A7A7A".toList
  selBg := "#0078D7".toList
  selText := "#FFFFFF".toList
  selIndex := "#1E3A5F".toList
  border := "#3C3C3C".toList

structure Appearance (f32 : Type) where
  theme : Text
  backdrop : Text
  fontFamily : Text
  fontPoint : f32
  corner : Text
  paletteLight : Palette
  paletteDark : Palette
  deriving DecidableEq, Repr

def Appearance.default (floats : Floats f32 f64) : Appearance f32 where
  theme := "auto".toList
  backdrop := "acrylic".toList
  fontFamily := "Yu Gothic UI".toList
  fontPoint := floats.ofRat (mkRat 21 2)
  corner := "round".toList
  paletteLight := defaultLightPalette
  paletteDark := defaultDarkPalette

def Appearance.codec (floats : Floats f32 f64) : Serde.Codec f64 (Appearance f32) :=
  .struct (Record.of Appearance.mk
    |>.defaulted "theme" .text Appearance.theme (Appearance.default floats).theme
    |>.defaulted "backdrop" .text Appearance.backdrop (Appearance.default floats).backdrop
    |>.defaulted "font_family" .text Appearance.fontFamily (Appearance.default floats).fontFamily
    |>.defaulted "font_point" (.f32 floats) Appearance.fontPoint (Appearance.default floats).fontPoint
    |>.defaulted "corner" .text Appearance.corner (Appearance.default floats).corner
    |>.defaulted "palette_light" Palette.codec Appearance.paletteLight defaultLightPalette
    |>.defaulted "palette_dark" Palette.codec Appearance.paletteDark defaultDarkPalette) ⟨fun _ => rfl, by simp⟩

structure Settings (f32 : Type) where
  version : UInt32
  llm : LlmSettings
  zenzai : ZenzaiSettings
  liveConversion : LiveSettings
  inlinePrediction : InlinePredictionSettings
  learning : LearningSettings
  defaultDirect : Bool
  appearance : Appearance f32
  feedback : FeedbackSettings
  number : NumberSettings
  punctuation : PunctuationSettings
  symbol : SymbolSettings
  ephemeral : EphemeralSettings
  typoCorrect : TypoCorrectSettings
  shiftLatin : ShiftLatinSettings
  readingMonitor : ReadingMonitorSettings
  keymap : KeymapSettings
  userDictionary : UserDictionarySettings
  update : UpdateSettings
  deriving DecidableEq

def settingsSchemaVersion : UInt32 := 2

def Settings.default (floats : Floats f32 f64) : Settings f32 where
  version := settingsSchemaVersion
  llm := .default
  zenzai := .default
  liveConversion := .default
  inlinePrediction := ⟨false⟩
  learning := ⟨true⟩
  defaultDirect := false
  appearance := .default floats
  feedback := ⟨false⟩
  number := ⟨true⟩
  punctuation := ⟨true⟩
  symbol := .default
  ephemeral := .default
  typoCorrect := .default
  shiftLatin := .default
  readingMonitor := .default
  keymap := .default
  userDictionary := ⟨true⟩
  update := .default

/-- The fields of the settings. Only the version must be there. -/
def Settings.record (floats : Floats f32 f64) : Record f64 (Settings f32) (Settings f32) :=
  Record.of Settings.mk
    |>.required "version" .u32 Settings.version
    |>.defaulted "llm" LlmSettings.codec Settings.llm .default
    |>.defaulted "zenzai" ZenzaiSettings.codec Settings.zenzai .default
    |>.defaulted "live_conversion" LiveSettings.codec Settings.liveConversion .default
    |>.defaulted "inline_prediction" InlinePredictionSettings.codec Settings.inlinePrediction ⟨false⟩
    |>.defaulted "learning" LearningSettings.codec Settings.learning ⟨true⟩
    |>.defaulted "default_direct" .bool Settings.defaultDirect false
    |>.defaulted "appearance" (Appearance.codec floats) Settings.appearance (.default floats)
    |>.defaulted "feedback" FeedbackSettings.codec Settings.feedback ⟨false⟩
    |>.defaulted "number" NumberSettings.codec Settings.number ⟨true⟩
    |>.defaulted "punctuation" PunctuationSettings.codec Settings.punctuation ⟨true⟩
    |>.defaulted "symbol" SymbolSettings.codec Settings.symbol .default
    |>.defaulted "ephemeral" EphemeralSettings.codec Settings.ephemeral .default
    |>.defaulted "typo_correct" TypoCorrectSettings.codec Settings.typoCorrect .default
    |>.defaulted "shift_latin" ShiftLatinSettings.codec Settings.shiftLatin .default
    |>.defaulted "reading_monitor" ReadingMonitorSettings.codec Settings.readingMonitor .default
    |>.defaulted "keymap" KeymapSettings.codec Settings.keymap .default
    |>.defaulted "user_dictionary" UserDictionarySettings.codec Settings.userDictionary ⟨true⟩
    |>.defaulted "update" UpdateSettings.codec Settings.update .default

theorem Settings.record_whole (floats : Floats f32 f64) : (Settings.record floats).Whole :=
  ⟨fun _ => rfl, by simp [Settings.record]⟩

def Settings.codec (floats : Floats f32 f64) : Serde.Codec f64 (Settings f32) :=
  .struct (Settings.record floats) (Settings.record_whole floats)

/-- Settings are written and read back whole if their font size is finite. -/
theorem Settings.fits_iff (floats : Floats f32 f64) (settings : Settings f32) :
    (Settings.codec floats).Fits settings ↔ floats.isFinite settings.appearance.fontPoint = true := by
  have symbol : (symbolCharsCodec : Serde.Codec f64 (Finset Char)).Fits settings.symbol.fullWidthChars := trivial
  simp [Settings.codec, Settings.record, LlmSettings.codec, ZenzaiSettings.codec, LiveSettings.codec, InlinePredictionSettings.codec,
    LearningSettings.codec, Appearance.codec, Palette.codec, FeedbackSettings.codec, NumberSettings.codec,
    PunctuationSettings.codec, SymbolSettings.codec, EphemeralSettings.codec, TypoCorrectSettings.codec,
    ShiftLatinSettings.codec, ReadingMonitorSettings.codec, KeymapSettings.codec, UserDictionarySettings.codec,
    UpdateSettings.codec, switchCodec, symbol]

end Nospacekey
