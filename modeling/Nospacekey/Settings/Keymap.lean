import Nospacekey.Settings.Settings

/-! Keys and the commands that they are bound to: chords as texts, default chords, and which bindings clash. -/

namespace Nospacekey

/-- The main key and the modifiers held with it. -/
structure KeyChord where
  vk : Nat
  ctrl : Bool
  shift : Bool
  alt : Bool
  deriving DecidableEq, Repr

/-- The keys that have a name of their own. -/
def namedKeys : List (Text × Nat) :=
  [("Backspace".toList, 0x08), ("Tab".toList, 0x09), ("Space".toList, 0x20), ("Convert".toList, 0x1C),
    ("NonConvert".toList, 0x1D), ("Semicolon".toList, 0xBA), ("Equal".toList, 0xBB), ("Comma".toList, 0xBC),
    ("Minus".toList, 0xBD), ("Period".toList, 0xBE), ("Slash".toList, 0xBF), ("Backquote".toList, 0xC0),
    ("HankakuZenkaku".toList, 0xF3), ("BracketLeft".toList, 0xDB), ("Backslash".toList, 0xDC),
    ("BracketRight".toList, 0xDD), ("Quote".toList, 0xDE)]

/-- The key of a name. Letters, digits and function keys are named after what is on them. -/
def keyNameToVk (name : Text) : Option Nat :=
  match namedKeys.lookup name, name with
  | some vk, _ => some vk
  | none, 'K' :: 'e' :: 'y' :: letter =>
    match letter with
    | [c] => if c.isUpper then some c.toNat else none
    | _ => none
  | none, 'D' :: 'i' :: 'g' :: 'i' :: 't' :: digit =>
    match digit with
    | [c] => if c.isDigit then some c.toNat else none
    | _ => none
  -- A number is taken only as it is printed.
  | none, 'F' :: number => ((List.range' 1 24).find? fun i => number = (toString i).toList).map (0x70 + · - 1)
  | none, _ => none

/-- What is read of a chord so far. -/
structure ChordParts where
  ctrl : Bool
  shift : Bool
  alt : Bool
  key : Option Text
  deriving DecidableEq, Repr

/-- One more part of a chord: a modifier that is new, or the main key. -/
def parsePart (debugText : Text → Text) (s : Text) (parts : ChordParts) (part : Text) : Except Text ChordParts :=
  if part = "Ctrl".toList ∧ !parts.ctrl then .ok { parts with ctrl := true }
  else if part = "Shift".toList ∧ !parts.shift then .ok { parts with shift := true }
  else if part = "Alt".toList ∧ !parts.alt then .ok { parts with alt := true }
  else if part = "Ctrl".toList ∨ part = "Shift".toList ∨ part = "Alt".toList then
    .error ("修飾キーが重複しています: ".toList ++ debugText s)
  else if parts.key.isSome then .error ("主キーが複数あります: ".toList ++ debugText s)
  else .ok { parts with key := some part }

/-- A chord from its text, the parts of which stand between plus signs. -/
def parseChord (debugText : Text → Text) (s : Text) : Except Text KeyChord :=
  match (s.splitOn '+').foldlM (parsePart debugText s) ⟨false, false, false, none⟩ with
  | .error message => .error message
  | .ok parts =>
    match parts.key with
    | none => .error ("主キーがありません: ".toList ++ debugText s)
    | some name =>
      match keyNameToVk name with
      | none => .error ("割り当てできないキーです: ".toList ++ debugText name)
      | some vk => .ok ⟨vk, parts.ctrl, parts.shift, parts.alt⟩

/-- The commands that keys can be bound to. -/
inductive KeymapFunc where
  | modeToggle
  | reconvert
  | feedback
  | ephemeral
  | commitUndo
  | typoCorrect
  | llmConvert
  | toHiragana
  | toKatakana
  | toHankakuKana
  | toZenkakuEisu
  | toHankakuEisu
  | notationRotate
  | convert
  deriving DecidableEq, Repr

def allFuncs : List KeymapFunc :=
  [.modeToggle, .reconvert, .feedback, .ephemeral, .commitUndo, .typoCorrect, .llmConvert, .toHiragana, .toKatakana,
    .toHankakuKana, .toZenkakuEisu, .toHankakuEisu, .notationRotate, .convert]

/-- Where a command is listened for. -/
inductive FuncGroup where
  | global
  | idle
  | composing
  deriving DecidableEq, Repr

/-- Special keys that the system does not take over on their own. -/
def bareSpecial (c : KeyChord) : Bool :=
  !c.ctrl && !c.shift && !c.alt && (c.vk = 0x1C || c.vk = 0x1D || c.vk = 0xF3)

namespace KeymapFunc

def group : KeymapFunc → FuncGroup
  | modeToggle | reconvert | feedback => .global
  | ephemeral | commitUndo => .idle
  | _ => .composing

def isPreserved (f : KeymapFunc) : Bool := f.group = .global

/-- Where a command is listened for with a chord that it has. -/
def conflictGroup (f : KeymapFunc) (chord : KeyChord) : FuncGroup :=
  if f.isPreserved && bareSpecial chord then
    match f with
    | reconvert => .idle
    | _ => .global
  else f.group

end KeymapFunc

def legacyEphemeralChord (name : Text) : KeyChord :=
  ⟨if name = "f9".toList then 0x78 else if name = "f10".toList then 0x79 else 0x77, false, false, false⟩

def bare (vk : Nat) : KeyChord := ⟨vk, false, false, false⟩

/-- The chords of a command that no key is chosen for. -/
def defaultChords (f : KeymapFunc) (legacyEphemeralTrigger : Text) : List KeyChord :=
  match f with
  | .modeToggle => [bare 0x1D, { bare 0xBA with alt := true }, bare 0xF3]
  | .reconvert => [bare 0x1C, { bare 0xBF with alt := true }]
  | .feedback => [{ bare 0x1C with ctrl := true }, { bare 0xBF with ctrl := true }]
  | .ephemeral => [legacyEphemeralChord legacyEphemeralTrigger]
  | .commitUndo => [{ bare 0x08 with ctrl := true }]
  | .typoCorrect => [bare 0x09]
  | .llmConvert => [{ bare 0x09 with shift := true }]
  | .toHiragana => [bare 0x75]
  | .toKatakana => [bare 0x76]
  | .toHankakuKana => [bare 0x77]
  | .toZenkakuEisu => [bare 0x78]
  | .toHankakuEisu => [bare 0x79]
  | .notationRotate => [bare 0x1D]
  | .convert => [bare 0x20, bare 0x1C]

/-- A command has its default chords, none, or one of its own. -/
inductive Binding where
  | default
  | disabled
  | chord (c : KeyChord)
  deriving DecidableEq, Repr

/-- A text that is no chord leaves a command with its default. -/
def resolveBinding (debugText : Text → Text) : Option Text → Binding
  | none => .default
  | some s =>
    if s = "none".toList then .disabled
    else
      match parseChord debugText s with
      | .ok c => .chord c
      | .error _ => .default

namespace KeymapSettings

def get (keymap : KeymapSettings) : KeymapFunc → Option Text
  | .modeToggle => keymap.modeToggle
  | .reconvert => keymap.reconvert
  | .feedback => keymap.feedback
  | .ephemeral => keymap.ephemeral
  | .commitUndo => keymap.commitUndo
  | .typoCorrect => keymap.typoCorrect
  | .llmConvert => keymap.llmConvert
  | .toHiragana => keymap.toHiragana
  | .toKatakana => keymap.toKatakana
  | .toHankakuKana => keymap.toHankakuKana
  | .toZenkakuEisu => keymap.toZenkakuEisu
  | .toHankakuEisu => keymap.toHankakuEisu
  | .notationRotate => keymap.notationRotate
  | .convert => keymap.convert

end KeymapSettings

/-- Two commands that have one chord. -/
structure Conflict where
  a : KeymapFunc
  b : KeymapFunc
  chord : KeyChord
  deriving DecidableEq, Repr

/-- Every item with every one behind it. -/
def laterPairs {α : Type} : List α → List (α × α)
  | [] => []
  | first :: rest => (rest.map fun later => (first, later)) ++ laterPairs rest

/-- Whether two commands clash with the chords that they have. -/
def clash : (KeymapFunc × KeyChord) × (KeymapFunc × KeyChord) → Option Conflict
  | ((fa, ca), (fb, cb)) =>
    let ga := fa.conflictGroup ca
    let gb := fb.conflictGroup cb
    let crossGroupOk := ga ≠ gb && ga ≠ .global && gb ≠ .global
    -- The mode toggle gives a special key away while there is something to convert.
    let globalComposingExempt := bareSpecial ca &&
      match ga, gb with
      | .global, .composing => fa = .modeToggle
      | .composing, .global => fb = .modeToggle
      | _, _ => false
    if ca = cb && !crossGroupOk && !globalComposingExempt then some ⟨fa, fb, ca⟩ else none

/-- Which of the commands that can be switched off are on. -/
structure FeatureFlags where
  ephemeralEnabled : Bool
  feedbackEnabled : Bool
  typoEnabled : Bool
  llmEnabled : Bool
  deriving DecidableEq, Repr

def FeatureFlags.enabled (flags : FeatureFlags) : KeymapFunc → Bool
  | .ephemeral => flags.ephemeralEnabled
  | .feedback => flags.feedbackEnabled
  | .typoCorrect => flags.typoEnabled
  | .llmConvert => flags.llmEnabled
  | _ => true

/-- The chords that a binding gives a command. -/
def Binding.chords (binding : Binding) (f : KeymapFunc) (legacyEphemeralTrigger : Text) : List KeyChord :=
  match binding with
  | disabled => []
  | chord c => [c]
  | default => defaultChords f legacyEphemeralTrigger

/-- The chords that a command has. One that is switched off has none. -/
def effectiveChords (debugText : Text → Text) (value : Option Text) (f : KeymapFunc) (legacyEphemeralTrigger : Text)
    (flags : FeatureFlags) : List KeyChord :=
  if !flags.enabled f then [] else (resolveBinding debugText value).chords f legacyEphemeralTrigger

def findConflictsIn (debugText : Text → Text) (entries : List (KeymapFunc × Option Text))
    (legacyEphemeralTrigger : Text) (flags : FeatureFlags) : List Conflict :=
  let chords := entries.flatMap fun entry =>
    (effectiveChords debugText entry.2 entry.1 legacyEphemeralTrigger flags).map fun c => (entry.1, c)
  (laterPairs chords).filterMap clash

/-- The clashes among all commands. -/
def findConflicts (debugText : Text → Text) (keymap : KeymapSettings) (legacyEphemeralTrigger : Text)
    (flags : FeatureFlags) : List Conflict :=
  findConflictsIn debugText (allFuncs.map fun f => (f, keymap.get f)) legacyEphemeralTrigger flags

end Nospacekey
