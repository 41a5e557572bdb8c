import Mathlib.Logic.Function.Basic
import Nospacekey.Settings.Settings

/-! The settings as the settings window shows them, and the changes that are made to them there. -/

namespace Nospacekey

namespace SettingsStore

/-- The settings that are shown. The numbers of the window are a parameter. -/
structure PublicSettings (ν : Type) where
  zenzaiEnabled : Bool
  weightPath : Text
  zenzaiInferenceLimit : ν
  liveEnabled : Bool
  liveSearchWidth : ν
  inlinePredictionEnabled : Bool
  defaultDirect : Bool
  learningEnabled : Bool
  feedbackEnabled : Bool
  numberFullWidth : Bool
  punctuationFullWidth : Bool
  symbolFullWidth : Bool
  symbolFullWidthChars : List Text
  readingMonitorEnabled : Bool
  readingMonitorAccumulate : Bool
  readingMonitorMaxChars : ν
  ephemeralEnabled : Bool
  ephemeralTrigger : Text
  typoCorrectEnabled : Bool
  typoCorrectLearn : Bool
  shiftLatinMode : Text
  userDictionaryEnabled : Bool
  updateIncludeBeta : Bool
  updateAutomaticCheck : Bool
  updateAutomaticCheckPromptDismissed : Bool
  /-- A function without a member has no entry, and one with `null` has its own keys. -/
  keymap : Text → Option (Option Text)
  appearance : Appearance ν

/-- The fields whose changes are switches. -/
inductive SwitchField where
  | defaultDirect
  | liveEnabled
  | ephemeralEnabled
  | numberFullWidth
  | punctuationFullWidth
  | symbolFullWidth
  | typoCorrectEnabled
  | typoCorrectLearn
  | readingMonitorEnabled
  | readingMonitorAccumulate
  | userDictionaryEnabled
  | learningEnabled
  | zenzaiEnabled
  | inlinePredictionEnabled
  | updateIncludeBeta
  | feedbackEnabled
  deriving DecidableEq, Repr

/-- Those whose changes are texts. -/
inductive TextField where
  | ephemeralLegacyTrigger
  | shiftLatinMode
  | appearanceTheme
  | appearanceBackdrop
  | appearanceCorner
  | appearanceFontFamily
  | weightPath
  deriving DecidableEq, Repr

/-- Those whose changes are numbers. -/
inductive NumberField where
  | appearanceFontPoint
  | readingMonitorMaxChars
  | zenzaiInferenceLimit
  | liveSearchWidth
  deriving DecidableEq, Repr

/-- A change of one field. -/
inductive SettingChange (ν : Type) where
  | switch (field : SwitchField) (value : Bool)
  | text (field : TextField) (value : Text)
  | number (field : NumberField) (value : ν)
  | symbolFullWidthChars (value : List Text)
  | keyBinding (function : Text) (binding : Option Text)
  | appearancePalettes (light dark : Palette)

/-- The value of a field, as it is compared and shown. -/
inductive FieldValue (ν : Type) where
  | switch (value : Bool)
  | text (value : Text)
  | number (value : ν)
  | texts (value : List Text)
  | binding (value : Option (Option Text))
  | keyBinding (function : Text) (binding : Option Text)
  | palettes (light dark : Palette)
  deriving DecidableEq

variable {ν : Type}

def SwitchField.name : SwitchField → Text
  | .defaultDirect => "default_direct".toList
  | .liveEnabled => "live_enabled".toList
  | .ephemeralEnabled => "ephemeral_enabled".toList
  | .numberFullWidth => "number_full_width".toList
  | .punctuationFullWidth => "punctuation_full_width".toList
  | .symbolFullWidth => "symbol_full_width".toList
  | .typoCorrectEnabled => "typo_correct_enabled".toList
  | .typoCorrectLearn => "typo_correct_learn".toList
  | .readingMonitorEnabled => "reading_monitor_enabled".toList
  | .readingMonitorAccumulate => "reading_monitor_accumulate".toList
  | .userDictionaryEnabled => "user_dictionary_enabled".toList
  | .learningEnabled => "learning_enabled".toList
  | .zenzaiEnabled => "zenzai_enabled".toList
  | .inlinePredictionEnabled => "inline_prediction_enabled".toList
  | .updateIncludeBeta => "update_include_beta".toList
  | .feedbackEnabled => "feedback_enabled".toList

def TextField.name : TextField → Text
  | .ephemeralLegacyTrigger => "ephemeral_legacy_trigger".toList
  | .shiftLatinMode => "shift_latin_mode".toList
  | .appearanceTheme => "appearance_theme".toList
  | .appearanceBackdrop => "appearance_backdrop".toList
  | .appearanceCorner => "appearance_corner".toList
  | .appearanceFontFamily => "appearance_font_family".toList
  | .weightPath => "weight_path".toList

def NumberField.name : NumberField → Text
  | .appearanceFontPoint => "appearance_font_point".toList
  | .readingMonitorMaxChars => "reading_monitor_max_chars".toList
  | .zenzaiInferenceLimit => "zenzai_inference_limit".toList
  | .liveSearchWidth => "live_search_width".toList

def applyLocalChange (next : PublicSettings ν) : SettingChange ν → PublicSettings ν
  | .switch .defaultDirect value => { next with defaultDirect := value }
  | .switch .liveEnabled value => { next with liveEnabled := value }
  | .switch .ephemeralEnabled value => { next with ephemeralEnabled := value }
  | .text .ephemeralLegacyTrigger value => { next with ephemeralTrigger := value }
  | .text .shiftLatinMode value => { next with shiftLatinMode := value }
  | .switch .numberFullWidth value => { next with numberFullWidth := value }
  | .switch .punctuationFullWidth value => { next with punctuationFullWidth := value }
  | .switch .symbolFullWidth value => { next with symbolFullWidth := value }
  | .symbolFullWidthChars value => { next with symbolFullWidthChars := value }
  | .switch .typoCorrectEnabled value => { next with typoCorrectEnabled := value }
  | .switch .typoCorrectLearn value => { next with typoCorrectLearn := value }
  | .keyBinding function binding => { next with keymap := Function.update next.keymap function (some binding) }
  | .text .appearanceTheme value => { next with appearance := { next.appearance with theme := value } }
  | .text .appearanceFontFamily value => { next with appearance := { next.appearance with fontFamily := value } }
  | .number .appearanceFontPoint value => { next with appearance := { next.appearance with fontPoint := value } }
  | .text .appearanceBackdrop value => { next with appearance := { next.appearance with backdrop := value } }
  | .text .appearanceCorner value => { next with appearance := { next.appearance with corner := value } }
  | .appearancePalettes light dark =>
    { next with appearance := { next.appearance with paletteLight := light, paletteDark := dark } }
  | .switch .readingMonitorEnabled value => { next with readingMonitorEnabled := value }
  | .switch .readingMonitorAccumulate value => { next with readingMonitorAccumulate := value }
  | .number .readingMonitorMaxChars value => { next with readingMonitorMaxChars := value }
  | .switch .userDictionaryEnabled value => { next with userDictionaryEnabled := value }
  | .switch .learningEnabled value => { next with learningEnabled := value }
  | .switch .zenzaiEnabled value => { next with zenzaiEnabled := value }
  | .text .weightPath value => { next with weightPath := value }
  | .number .zenzaiInferenceLimit value => { next with zenzaiInferenceLimit := value }
  | .number .liveSearchWidth value => { next with liveSearchWidth := value }
  | .switch .inlinePredictionEnabled value => { next with inlinePredictionEnabled := value }
  | .switch .updateIncludeBeta value => { next with updateIncludeBeta := value }
  | .switch .feedbackEnabled value => { next with feedbackEnabled := value }

/-- What the settings have where a change is made. -/
def changeValue (values : PublicSettings ν) : SettingChange ν → FieldValue ν
  | .switch .defaultDirect _ => .switch values.defaultDirect
  | .switch .liveEnabled _ => .switch values.liveEnabled
  | .switch .ephemeralEnabled _ => .switch values.ephemeralEnabled
  | .text .ephemeralLegacyTrigger _ => .text values.ephemeralTrigger
  | .text .shiftLatinMode _ => .text values.shiftLatinMode
  | .switch .numberFullWidth _ => .switch values.numberFullWidth
  | .switch .punctuationFullWidth _ => .switch values.punctuationFullWidth
  | .switch .symbolFullWidth _ => .switch values.symbolFullWidth
  | .symbolFullWidthChars _ => .texts values.symbolFullWidthChars
  | .switch .typoCorrectEnabled _ => .switch values.typoCorrectEnabled
  | .switch .typoCorrectLearn _ => .switch values.typoCorrectLearn
  | .keyBinding function _ => .binding (values.keymap function)
  | .text .appearanceTheme _ => .text values.appearance.theme
  | .text .appearanceFontFamily _ => .text values.appearance.fontFamily
  | .number .appearanceFontPoint _ => .number values.appearance.fontPoint
  | .text .appearanceBackdrop _ => .text values.appearance.backdrop
  | .text .appearanceCorner _ => .text values.appearance.corner
  | .appearancePalettes _ _ => .palettes values.appearance.paletteLight values.appearance.paletteDark
  | .switch .readingMonitorEnabled _ => .switch values.readingMonitorEnabled
  | .switch .readingMonitorAccumulate _ => .switch values.readingMonitorAccumulate
  | .number .readingMonitorMaxChars _ => .number values.readingMonitorMaxChars
  | .switch .userDictionaryEnabled _ => .switch values.userDictionaryEnabled
  | .switch .learningEnabled _ => .switch values.learningEnabled
  | .switch .zenzaiEnabled _ => .switch values.zenzaiEnabled
  | .text .weightPath _ => .text values.weightPath
  | .number .zenzaiInferenceLimit _ => .number values.zenzaiInferenceLimit
  | .number .liveSearchWidth _ => .number values.liveSearchWidth
  | .switch .inlinePredictionEnabled _ => .switch values.inlinePredictionEnabled
  | .switch .updateIncludeBeta _ => .switch values.updateIncludeBeta
  | .switch .feedbackEnabled _ => .switch values.feedbackEnabled

namespace SettingChange

/-- The new value, as it is sent. -/
def value : SettingChange ν → FieldValue ν
  | .switch _ value => .switch value
  | .text _ value => .text value
  | .number _ value => .number value
  | .symbolFullWidthChars value => .texts value
  | .keyBinding function binding => .keyBinding function binding
  | .appearancePalettes light dark => .palettes light dark

end SettingChange

def changeTarget : SettingChange ν → Text
  | .switch field _ => field.name
  | .text field _ => field.name
  | .number field _ => field.name
  | .symbolFullWidthChars _ => "symbol_full_width_chars".toList
  | .keyBinding function _ => "keymap.".toList ++ function
  | .appearancePalettes _ _ => "appearance_palettes".toList

/-- The changes of fields that two states of the settings do not have in common. -/
def conflictingChanges [DecidableEq ν] (base current : PublicSettings ν) (changes : List (SettingChange ν)) :
    List (SettingChange ν) :=
  changes.filter fun change => changeValue base change ≠ changeValue current change

/-- A key's own binding is what the field shows once it is changed. -/
def SettingChange.shown : SettingChange ν → FieldValue ν
  | .keyBinding _ binding => .binding (some binding)
  | change => change.value

/-- A change takes effect where it is made. -/
theorem changeValue_applyLocalChange (values : PublicSettings ν) (change : SettingChange ν) :
    changeValue (applyLocalChange values change) change = change.shown := by
  cases change with
  | switch field value => cases field <;> rfl
  | text field value => cases field <;> rfl
  | number field value => cases field <;> rfl
  | keyBinding function binding => simp [applyLocalChange, changeValue, SettingChange.shown]
  | _ => rfl

end SettingsStore

end Nospacekey
