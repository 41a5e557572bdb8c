import Nospacekey.Clause.Notation
import Nospacekey.Settings.Keymap

/-! The command that a key stands for, by the chords that the settings give and by what the input is at. -/

namespace Nospacekey

/-- The chords that the settings come to. The commands that the system can take over keep their bindings. -/
structure Keymap where
  modeToggle : Binding
  reconvert : Binding
  feedback : Binding
  ephemeral : Option KeyChord
  commitUndo : Option KeyChord
  typo : Option KeyChord
  llm : Option KeyChord
  notations : Notation → Option KeyChord
  notationRotate : Option KeyChord
  convert : List KeyChord

/-- The command of a notation. -/
def Notation.func : Notation → KeymapFunc
  | hiragana => .toHiragana
  | katakana => .toKatakana
  | hankakuKana => .toHankakuKana
  | zenkakuEisu => .toZenkakuEisu
  | hankakuEisu => .toHankakuEisu

/-- The notations in the order in which their chords are looked at. -/
def allNotations : List Notation := [.hiragana, .katakana, .hankakuKana, .zenkakuEisu, .hankakuEisu]

/-- The one chord of a command that is found among the keys. -/
def sinkChord (debugText : Text → Text) (value : Option Text) (f : KeymapFunc) (legacy : Text) : Option KeyChord :=
  match resolveBinding debugText value with
  | .default => (defaultChords f legacy).head?
  | .disabled => none
  | .chord c => some c

def convertChords (debugText : Text → Text) (value : Option Text) : List KeyChord :=
  match resolveBinding debugText value with
  | .default => defaultChords .convert []
  | .disabled => []
  | .chord c => [c]

def Keymap.fromSettings {f32 : Type} (debugText : Text → Text) (s : Settings f32) : Keymap :=
  let keymap := s.keymap
  let legacy := s.ephemeral.trigger
  { modeToggle := resolveBinding debugText keymap.modeToggle
    reconvert := resolveBinding debugText keymap.reconvert
    feedback := resolveBinding debugText keymap.feedback
    ephemeral := sinkChord debugText keymap.ephemeral .ephemeral legacy
    commitUndo := sinkChord debugText keymap.commitUndo .commitUndo legacy
    typo := sinkChord debugText keymap.typoCorrect .typoCorrect legacy
    llm := sinkChord debugText keymap.llmConvert .llmConvert legacy
    notations := fun kind => sinkChord debugText (keymap.get kind.func) kind.func legacy
    notationRotate := sinkChord debugText keymap.notationRotate .notationRotate legacy
    convert := convertChords debugText keymap.convert }

/-- What a key stands for, if anything. -/
inductive KeyAction where
  | nothing
  | convert
  | reconvert
  | modeToggle
  | ephemeral
  | commitUndo
  | typo
  | llm
  | transform (kind : Notation)
  | notationRotate
  deriving DecidableEq, Repr

structure ActionInput where
  vk : Nat
  ctrl : Bool
  shift : Bool
  alt : Bool
  composing : Bool
  showing : Bool
  direct : Bool
  undoArmed : Bool
  ephemeralEnabled : Bool
  typoEnabled : Bool
  llmEnabled : Bool
  deriving DecidableEq, Repr

/-- A chord is hit by its key with just its modifiers. -/
def chordHits (c : Option KeyChord) (vk : Nat) (ctrl shift alt : Bool) : Bool :=
  match c with
  | some c => c.vk = vk && c.ctrl = ctrl && c.shift = shift && c.alt = alt
  | none => false

/-- A special key is held alone that the command has among its chords. -/
def globalBareSpecialHit (b : Binding) (f : KeymapFunc) (vk : Nat) (ctrl shift alt : Bool) : Bool :=
  if !bareSpecial ⟨vk, ctrl, shift, alt⟩ then false
  else
    match b with
    | .default => (defaultChords f []).any fun c => c.vk = vk && !c.ctrl && !c.shift && !c.alt
    | .chord c => c.vk = vk && !c.ctrl && !c.shift && !c.alt
    | .disabled => false

/-- The command of a key. The checks come in an order of precedence. -/
def resolveAction (km : Keymap) (i : ActionInput) : KeyAction :=
  let idle := !i.composing && !i.showing
  let hit (c : Option KeyChord) := chordHits c i.vk i.ctrl i.shift i.alt
  if i.undoArmed && hit km.commitUndo then .commitUndo
  else if i.ephemeralEnabled && i.direct && idle && hit km.ephemeral then .ephemeral
  else
    let composed :=
      if i.composing && !i.direct then
        if i.typoEnabled && hit km.typo then some .typo
        else if i.llmEnabled && hit km.llm then some .llm
        else
          ((allNotations.find? fun kind => hit (km.notations kind)).map .transform).or
            (if hit km.notationRotate then some .notationRotate else none)
      else none
    composed.getD <|
      if (i.composing || i.showing) && km.convert.any fun c => hit (some c) then .convert
      -- A special key that the system leaves alone is found here.
      else if globalBareSpecialHit km.modeToggle .modeToggle i.vk i.ctrl i.shift i.alt then .modeToggle
      else if i.direct && idle && globalBareSpecialHit km.reconvert .reconvert i.vk i.ctrl i.shift i.alt then .reconvert
      else .nothing

end Nospacekey
