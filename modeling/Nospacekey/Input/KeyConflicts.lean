import Nospacekey.Input.KeyAction

/-! Settings without conflicts leave at most one command to a key, whatever the order of the checks. -/

namespace Nospacekey

/-! ## What is checked for each command -/

/-- The chord that is held. -/
def ActionInput.chord (i : ActionInput) : KeyChord := ⟨i.vk, i.ctrl, i.shift, i.alt⟩

/-- Nothing is composed and no candidates are shown. -/
def ActionInput.idle (i : ActionInput) : Bool := !i.composing && !i.showing

/-- What the input is at where a command is looked for. -/
def ActionInput.guard (i : ActionInput) : KeymapFunc → Bool
  | .modeToggle => true
  | .reconvert => i.direct && i.idle
  | .feedback => false
  | .ephemeral => i.ephemeralEnabled && i.direct && i.idle
  | .commitUndo => i.undoArmed
  | .typoCorrect => i.composing && !i.direct && i.typoEnabled
  | .llmConvert => i.composing && !i.direct && i.llmEnabled
  | .convert => i.composing || i.showing
  | _ => i.composing && !i.direct

namespace KeymapFunc

/-- What a key comes to that stands for a command. -/
def action : KeymapFunc → KeyAction
  | modeToggle => .modeToggle
  | reconvert => .reconvert
  | feedback => .nothing
  | ephemeral => .ephemeral
  | commitUndo => .commitUndo
  | typoCorrect => .typo
  | llmConvert => .llm
  | toHiragana => .transform .hiragana
  | toKatakana => .transform .katakana
  | toHankakuKana => .transform .hankakuKana
  | toZenkakuEisu => .transform .zenkakuEisu
  | toHankakuEisu => .transform .hankakuEisu
  | notationRotate => .notationRotate
  | convert => .convert

/-- The commands in the order in which a key is checked against them. -/
def precedence : List KeymapFunc :=
  [commitUndo, ephemeral, typoCorrect, llmConvert, toHiragana, toKatakana, toHankakuKana, toZenkakuEisu,
    toHankakuEisu, notationRotate, convert, modeToggle, reconvert]

theorem mem_allFuncs (f : KeymapFunc) : f ∈ allFuncs := by
  cases f <;> decide

/-- Every command is checked but the feedback, which the system takes over. -/
theorem mem_precedence {f : KeymapFunc} (checked : f ≠ feedback) : f ∈ precedence := by
  cases f <;> first | exact absurd rfl checked | decide

end KeymapFunc

namespace Keymap

/-- Whether a chord of a command is held. -/
def hit (km : Keymap) (i : ActionInput) : KeymapFunc → Bool
  | .modeToggle => globalBareSpecialHit km.modeToggle .modeToggle i.vk i.ctrl i.shift i.alt
  | .reconvert => globalBareSpecialHit km.reconvert .reconvert i.vk i.ctrl i.shift i.alt
  | .feedback => false
  | .ephemeral => chordHits km.ephemeral i.vk i.ctrl i.shift i.alt
  | .commitUndo => chordHits km.commitUndo i.vk i.ctrl i.shift i.alt
  | .typoCorrect => chordHits km.typo i.vk i.ctrl i.shift i.alt
  | .llmConvert => chordHits km.llm i.vk i.ctrl i.shift i.alt
  | .toHiragana => chordHits (km.notations .hiragana) i.vk i.ctrl i.shift i.alt
  | .toKatakana => chordHits (km.notations .katakana) i.vk i.ctrl i.shift i.alt
  | .toHankakuKana => chordHits (km.notations .hankakuKana) i.vk i.ctrl i.shift i.alt
  | .toZenkakuEisu => chordHits (km.notations .zenkakuEisu) i.vk i.ctrl i.shift i.alt
  | .toHankakuEisu => chordHits (km.notations .hankakuEisu) i.vk i.ctrl i.shift i.alt
  | .notationRotate => chordHits km.notationRotate i.vk i.ctrl i.shift i.alt
  | .convert => km.convert.any fun c => chordHits (some c) i.vk i.ctrl i.shift i.alt

/-- A chord of the command is held where the command is looked for. -/
def eligible (km : Keymap) (i : ActionInput) (f : KeymapFunc) : Bool := i.guard f && km.hit i f

/-- A search for a command stops at the first one that it finds. -/
private theorem find_action_cons (p : KeymapFunc → Bool) (f : KeymapFunc) (rest : List KeymapFunc) :
    (((f :: rest).find? p).map KeymapFunc.action).getD .nothing =
      if p f then f.action else ((rest.find? p).map KeymapFunc.action).getD .nothing := by
  rw [List.find?_cons]
  cases p f <;> rfl

private theorem find_transform_cons (p : Notation → Bool) (kind : Notation) (rest : List Notation)
    (later : Option KeyAction) (z : KeyAction) :
    ((((kind :: rest).find? p).map KeyAction.transform).or later).getD z =
      if p kind then .transform kind else (((rest.find? p).map KeyAction.transform).or later).getD z := by
  rw [List.find?_cons]
  cases p kind <;> rfl

private theorem getD_ite (c : Prop) [Decidable c] (action : KeyAction) (later : Option KeyAction) (z : KeyAction) :
    (if c then some action else later).getD z = if c then action else later.getD z := by
  split <;> rfl

/-- The checks stop at the first command that the key is eligible for. -/
theorem resolveAction_eq (km : Keymap) (i : ActionInput) :
    resolveAction km i = ((KeymapFunc.precedence.find? (km.eligible i)).map KeymapFunc.action).getD .nothing := by
  -- Both sides are a chain of checks once the searches are unrolled.
  rw [KeymapFunc.precedence]
  simp only [find_action_cons, List.find?_nil, Option.map_none, Option.getD_none, eligible, ActionInput.guard,
    ActionInput.idle, hit, KeymapFunc.action]
  rw [resolveAction, allNotations]
  -- The commands of a composition are checked together, where there is one.
  cases i.composing && !i.direct
  · simp only [Bool.false_eq_true, if_false, Bool.false_and, Option.getD_none, Bool.true_and]
    rfl
  · simp only [if_true, Bool.true_and, getD_ite, find_transform_cons, List.find?_nil, Option.map_none, Option.none_or,
      Option.getD_none]
    rfl

end Keymap

/-! ## Which chords are hit -/

variable {f32 : Type} (debugText : Text → Text) (s : Settings f32) (flags : FeatureFlags)

/-- The chords that the settings give a command, on or off. -/
def boundChords (f : KeymapFunc) : List KeyChord :=
  (resolveBinding debugText (s.keymap.get f)).chords f s.ephemeral.trigger

theorem chordHits_iff (c : Option KeyChord) (i : ActionInput) :
    chordHits c i.vk i.ctrl i.shift i.alt = true ↔ c = some i.chord := by
  cases c with
  | none => simp [chordHits]
  | some c =>
    obtain ⟨vk, ctrl, shift, alt⟩ := c
    simp [chordHits, ActionInput.chord, and_assoc]

/-- A command that is found among the keys has one chord at most, but for the conversion. -/
theorem sinkChord_eq_some {f : KeymapFunc} (sink : f.isPreserved = false) (single : f ≠ .convert)
    (value : Option Text) (legacy : Text) (c : KeyChord) :
    sinkChord debugText value f legacy = some c ↔ c ∈ (resolveBinding debugText value).chords f legacy := by
  rw [sinkChord]
  cases resolveBinding debugText value with
  | disabled => simp [Binding.chords]
  | chord own => simp [Binding.chords, eq_comm]
  | default =>
    -- The first of the default chords is the only one.
    cases f <;> first
      | exact absurd rfl single
      | (simp [KeymapFunc.isPreserved, KeymapFunc.group] at sink; done)
      | simp [Binding.chords, defaultChords, eq_comm]

theorem convertChords_eq (value : Option Text) (legacy : Text) :
    convertChords debugText value = (resolveBinding debugText value).chords .convert legacy := by
  rw [convertChords]
  cases resolveBinding debugText value <;> rfl

/-- A special key is looked for among all chords of a command. -/
theorem globalBareSpecialHit_iff (f : KeymapFunc) (preserved : f.isPreserved = true) (b : Binding) (legacy : Text)
    (i : ActionInput) :
    globalBareSpecialHit b f i.vk i.ctrl i.shift i.alt = true ↔
      i.chord ∈ b.chords f legacy ∧ bareSpecial i.chord = true := by
  have bare_iff (c : KeyChord) (special : bareSpecial i.chord = true) :
      (c.vk = i.vk ∧ c.ctrl = false ∧ c.shift = false ∧ c.alt = false) ↔ i.chord = c := by
    -- The special keys are held without modifiers.
    obtain ⟨vk, ctrl, shift, alt⟩ := c
    simp only [bareSpecial, ActionInput.chord, Bool.and_eq_true, Bool.not_eq_true'] at special
    obtain ⟨⟨⟨ctrl_off, shift_off⟩, alt_off⟩, -⟩ := special
    simp only [ActionInput.chord, ctrl_off, shift_off, alt_off, KeyChord.mk.injEq, eq_comm]
  have defaults : defaultChords f [] = defaultChords f legacy := by
    cases f <;> first | rfl | cases preserved
  unfold globalBareSpecialHit
  by_cases special : bareSpecial i.chord = true
  · rw [if_neg (by simpa [ActionInput.chord] using special)]
    cases b with
    | disabled => simp [Binding.chords]
    | chord c => simpa [Binding.chords, special, and_assoc] using bare_iff c special
    | default =>
      rw [defaults]
      simp only [Binding.chords, special, and_true, List.any_eq_true, Bool.and_eq_true, decide_eq_true_eq,
        Bool.not_eq_true', and_assoc]
      constructor
      · rintro ⟨c, mem, same⟩
        rwa [(bare_iff c special).mp same]
      · intro mem
        exact ⟨_, mem, (bare_iff _ special).mpr rfl⟩
  · rw [if_pos (by simpa [ActionInput.chord] using special)]
    simp [special]

/-- A command is hit with a chord of its own. One that the system can take over needs a special key. -/
theorem hit_fromSettings (i : ActionInput) (f : KeymapFunc) :
    (Keymap.fromSettings debugText s).hit i f = true ↔
      f ≠ .feedback ∧ i.chord ∈ boundChords debugText s f ∧
        (f.isPreserved = true → bareSpecial i.chord = true) := by
  -- A chord of a command that only the keys are searched for, and a special key of one of the others.
  have sink (f : KeymapFunc) (sink : f.isPreserved = false) (single : f ≠ .convert) :
      chordHits (sinkChord debugText (s.keymap.get f) f s.ephemeral.trigger) i.vk i.ctrl i.shift i.alt = true ↔
        f ≠ .feedback ∧ i.chord ∈ boundChords debugText s f ∧
        (f.isPreserved = true → bareSpecial i.chord = true) := by
    rw [chordHits_iff, sinkChord_eq_some debugText sink single]
    simp only [sink, boundChords, Bool.false_eq_true, false_implies, and_true, iff_and_self]
    rintro - rfl
    exact absurd sink (by decide)
  have special (f : KeymapFunc) (preserved : f.isPreserved = true) (other : f ≠ .feedback) :
      globalBareSpecialHit (resolveBinding debugText (s.keymap.get f)) f i.vk i.ctrl i.shift i.alt = true ↔
        f ≠ .feedback ∧ i.chord ∈ boundChords debugText s f ∧
        (f.isPreserved = true → bareSpecial i.chord = true) := by
    rw [globalBareSpecialHit_iff f preserved _ s.ephemeral.trigger, boundChords]
    simp only [ne_eq, other, not_false_eq_true, preserved, true_implies, true_and]
  cases f with
  | modeToggle => exact special .modeToggle rfl (by decide)
  | reconvert => exact special .reconvert rfl (by decide)
  | feedback => simp [Keymap.hit]
  | convert =>
    have chords : (Keymap.fromSettings debugText s).convert = boundChords debugText s .convert :=
      convertChords_eq debugText _ _
    simp [Keymap.hit, chords, chordHits_iff, KeymapFunc.isPreserved, KeymapFunc.group]
  | ephemeral => exact sink .ephemeral rfl (by decide)
  | commitUndo => exact sink .commitUndo rfl (by decide)
  | typoCorrect => exact sink .typoCorrect rfl (by decide)
  | llmConvert => exact sink .llmConvert rfl (by decide)
  | toHiragana => exact sink .toHiragana rfl (by decide)
  | toKatakana => exact sink .toKatakana rfl (by decide)
  | toHankakuKana => exact sink .toHankakuKana rfl (by decide)
  | toZenkakuEisu => exact sink .toZenkakuEisu rfl (by decide)
  | toHankakuEisu => exact sink .toHankakuEisu rfl (by decide)
  | notationRotate => exact sink .notationRotate rfl (by decide)

/-! ## Where commands are apart -/

theorem mem_laterPairs {α : Type} {a b : α} {l : List α} (different : a ≠ b) (ha : a ∈ l) (hb : b ∈ l) :
    (a, b) ∈ laterPairs l ∨ (b, a) ∈ laterPairs l := by
  induction l with
  | nil => cases ha
  | cons first rest ih =>
    simp only [laterPairs, List.mem_append, List.mem_map]
    rcases List.mem_cons.mp ha with rfl | ha' <;> rcases List.mem_cons.mp hb with rfl | hb'
    · exact absurd rfl different
    · exact .inl (.inl ⟨b, hb', rfl⟩)
    · exact .inr (.inl ⟨a, ha', rfl⟩)
    -- Both stand behind the first.
    · exact (ih ha' hb').imp .inr .inr

theorem of_mem_laterPairs {α : Type} {a b : α} {l : List α} (mem : (a, b) ∈ laterPairs l) :
    a ∈ l ∧ b ∈ l := by
  induction l with
  | nil => cases mem
  | cons first rest ih =>
    simp only [laterPairs, List.mem_append, List.mem_map, Prod.mk.injEq] at mem
    rcases mem with ⟨later, mem, rfl, rfl⟩ | mem
    · exact ⟨.head _, .tail _ mem⟩
    · exact ⟨.tail _ (ih mem).1, .tail _ (ih mem).2⟩

/-- Two commands can share a chord: one is looked for while composing, and the other while idle or as a toggle. -/
def KeptApart (f g : KeymapFunc) (c : KeyChord) : Prop :=
  (f.conflictGroup c ≠ g.conflictGroup c ∧ f.conflictGroup c ≠ .global ∧ g.conflictGroup c ≠ .global) ∨
    (f = .modeToggle ∧ g.conflictGroup c = .composing) ∨ (g = .modeToggle ∧ f.conflictGroup c = .composing)

theorem KeptApart.symm {f g : KeymapFunc} {c : KeyChord} (apart : KeptApart f g c) : KeptApart g f c := by
  rcases apart with ⟨groups, hf, hg⟩ | shared | shared
  · exact .inl ⟨groups.symm, hg, hf⟩
  · exact .inr (.inr shared)
  · exact .inr (.inl shared)

/-- One chord clashes unless the two commands are apart. -/
theorem apart_of_clash {f g : KeymapFunc} {c : KeyChord} (quiet : clash ((f, c), (g, c)) = none) : KeptApart f g c := by
  simp only [clash, decide_true, Bool.true_and, ite_eq_right_iff, reduceCtorEq, imp_false] at quiet
  rw [KeptApart]
  by_cases crossGroupOk : f.conflictGroup c ≠ g.conflictGroup c ∧ f.conflictGroup c ≠ .global ∧
      g.conflictGroup c ≠ .global
  · exact .inl crossGroupOk
  · -- What is left is the exemption of the mode toggle.
    refine .inr ?_
    cases hf : f.conflictGroup c <;> cases hg : g.conflictGroup c <;> simp_all

/-- What clashes has one chord, and one group where neither is listened for everywhere. -/
theorem of_clash {x y : KeymapFunc × KeyChord} {conflict : Conflict} (clashing : clash (x, y) = some conflict) :
    x = (conflict.a, conflict.chord) ∧ y = (conflict.b, conflict.chord) ∧
      (conflict.a.conflictGroup conflict.chord ≠ .global → conflict.b.conflictGroup conflict.chord ≠ .global →
        conflict.a.conflictGroup conflict.chord = conflict.b.conflictGroup conflict.chord) := by
  obtain ⟨fa, ca⟩ := x
  obtain ⟨fb, cb⟩ := y
  simp only [clash, Option.ite_none_right_eq_some, Bool.and_eq_true, Option.some.injEq, decide_eq_true_eq] at clashing
  obtain ⟨⟨⟨rfl, crossed⟩, -⟩, rfl⟩ := clashing
  refine ⟨rfl, rfl, fun ha hb => ?_⟩
  by_contra different
  simp [different, ha, hb] at crossed

theorem mem_effectiveChords {f : KeymapFunc} {c : KeyChord} :
    c ∈ effectiveChords debugText (s.keymap.get f) f s.ephemeral.trigger flags ↔
      flags.enabled f = true ∧ c ∈ boundChords debugText s f := by
  rw [effectiveChords, boundChords]
  cases flags.enabled f <;> simp

/-- Without conflicts, two commands that have one chord are apart. -/
theorem apart_of_findConflicts (quiet : findConflicts debugText s.keymap s.ephemeral.trigger flags = [])
    {f g : KeymapFunc} {c : KeyChord} (different : f ≠ g)
    (hf : c ∈ effectiveChords debugText (s.keymap.get f) f s.ephemeral.trigger flags)
    (hg : c ∈ effectiveChords debugText (s.keymap.get g) g s.ephemeral.trigger flags) : KeptApart f g c := by
  rw [findConflicts, findConflictsIn, List.filterMap_eq_nil_iff] at quiet
  -- The chords of all commands are in one list, and one of the two stands behind the other.
  have listed {f : KeymapFunc} (hf : c ∈ effectiveChords debugText (s.keymap.get f) f s.ephemeral.trigger flags) :
      (f, c) ∈ (allFuncs.map fun f => (f, s.keymap.get f)).flatMap fun entry =>
        (effectiveChords debugText entry.2 entry.1 s.ephemeral.trigger flags).map fun c => (entry.1, c) :=
    List.mem_flatMap.mpr
      ⟨(f, s.keymap.get f), List.mem_map.mpr ⟨f, f.mem_allFuncs, rfl⟩, List.mem_map.mpr ⟨c, hf, rfl⟩⟩
  rcases mem_laterPairs (by simpa using different) (listed hf) (listed hg) with pair | pair
  · exact apart_of_clash (quiet _ pair)
  · exact (apart_of_clash (quiet _ pair)).symm

/-! ## Where commands are looked for -/

/-- The input has the flags of the settings, and an undo is armed only while nothing is composed or shown. -/
structure ActionInput.Plausible (i : ActionInput) (flags : FeatureFlags) : Prop where
  ephemeral : i.ephemeralEnabled = flags.ephemeralEnabled
  typo : i.typoEnabled = flags.typoEnabled
  llm : i.llmEnabled = flags.llmEnabled
  undo : i.undoArmed = true → i.composing = false ∧ i.showing = false

variable {debugText s flags} {i : ActionInput}

/-- A command that is looked for is on. -/
theorem enabled_of_guard (possible : i.Plausible flags) {f : KeymapFunc} (guarded : i.guard f = true) :
    flags.enabled f = true := by
  have ephemeral := possible.ephemeral
  have typo := possible.typo
  have llm := possible.llm
  cases f <;> simp_all [ActionInput.guard, FeatureFlags.enabled]

/-- The group of a command with the chord that is held says whether it is looked for while idle. -/
theorem group_of_guard (possible : i.Plausible flags) {f : KeymapFunc} (other : f ≠ .modeToggle)
    (guarded : i.guard f = true) (special : f.isPreserved = true → bareSpecial i.chord = true) :
    f.conflictGroup i.chord = if i.idle then .idle else .composing := by
  have undo := possible.undo
  cases f <;> simp_all [ActionInput.guard, ActionInput.idle, KeymapFunc.conflictGroup, KeymapFunc.isPreserved,
    KeymapFunc.group]
  -- The conversion is looked for while composing, and while candidates are shown.
  exact guarded.resolve_left ∘ by simp

/-- What it takes for a command to be eligible, by the settings. -/
theorem eligible_fromSettings (f : KeymapFunc) :
    (Keymap.fromSettings debugText s).eligible i f = true ↔
      i.guard f = true ∧ i.chord ∈ boundChords debugText s f ∧
        (f.isPreserved = true → bareSpecial i.chord = true) := by
  rw [Keymap.eligible, Bool.and_eq_true, hit_fromSettings]
  refine and_congr_right fun guarded => and_iff_right ?_
  -- The feedback is looked for nowhere.
  rintro rfl
  cases guarded

/-- Two commands that one key is eligible for are apart. -/
theorem apart_of_eligible (quiet : findConflicts debugText s.keymap s.ephemeral.trigger flags = [])
    (possible : i.Plausible flags) {f g : KeymapFunc} (different : f ≠ g)
    (hf : (Keymap.fromSettings debugText s).eligible i f = true)
    (hg : (Keymap.fromSettings debugText s).eligible i g = true) : KeptApart f g i.chord := by
  obtain ⟨guard_f, chord_f, -⟩ := (eligible_fromSettings f).mp hf
  obtain ⟨guard_g, chord_g, -⟩ := (eligible_fromSettings g).mp hg
  exact apart_of_findConflicts debugText s flags quiet different
    ((mem_effectiveChords debugText s flags).mpr ⟨enabled_of_guard possible guard_f, chord_f⟩)
    ((mem_effectiveChords debugText s flags).mpr ⟨enabled_of_guard possible guard_g, chord_g⟩)

/-- A key is eligible for one command at most, the mode toggle apart. -/
theorem eligible_unique (quiet : findConflicts debugText s.keymap s.ephemeral.trigger flags = [])
    (possible : i.Plausible flags) {f g : KeymapFunc} (hf : f ≠ .modeToggle) (hg : g ≠ .modeToggle)
    (eligible_f : (Keymap.fromSettings debugText s).eligible i f = true)
    (eligible_g : (Keymap.fromSettings debugText s).eligible i g = true) : f = g := by
  by_contra different
  have group_f := group_of_guard possible hf ((eligible_fromSettings f).mp eligible_f).1
    ((eligible_fromSettings f).mp eligible_f).2.2
  have group_g := group_of_guard possible hg ((eligible_fromSettings g).mp eligible_g).1
    ((eligible_fromSettings g).mp eligible_g).2.2
  -- Both are looked for while idle, or both while not, so nothing keeps them apart.
  rcases apart_of_eligible quiet possible different eligible_f eligible_g with
    ⟨groups, -⟩ | ⟨toggle, -⟩ | ⟨toggle, -⟩
  · exact groups (group_f.trans group_g.symm)
  · exact hf toggle
  · exact hg toggle

/-- A command that shares its key with the mode toggle is looked for while something is composed or shown. -/
theorem not_idle_of_toggle (quiet : findConflicts debugText s.keymap s.ephemeral.trigger flags = [])
    (possible : i.Plausible flags) {f : KeymapFunc} (hf : f ≠ .modeToggle)
    (eligible_f : (Keymap.fromSettings debugText s).eligible i f = true)
    (toggle : (Keymap.fromSettings debugText s).eligible i .modeToggle = true) : i.idle = false := by
  have special := ((eligible_fromSettings .modeToggle).mp toggle).2.2 rfl
  have group_f := group_of_guard possible hf ((eligible_fromSettings f).mp eligible_f).1
    ((eligible_fromSettings f).mp eligible_f).2.2
  have everywhere : KeymapFunc.modeToggle.conflictGroup i.chord = .global := by
    simp [KeymapFunc.conflictGroup, KeymapFunc.group]
  rcases apart_of_eligible quiet possible hf eligible_f toggle with ⟨-, -, away⟩ | ⟨rfl, -⟩ | ⟨-, composing⟩
  · exact absurd everywhere away
  · exact absurd rfl hf
  · rw [group_f] at composing
    cases idle : i.idle
    · rfl
    · simp [idle] at composing

/-! ## What a key comes to -/

/-- Only the reconversion is checked after the mode toggle. -/
theorem reconvert_of_find? {p : KeymapFunc → Bool} (search : KeymapFunc.precedence.find? p = some .modeToggle)
    {f : KeymapFunc} (hf : f ≠ .modeToggle) (checked : f ≠ .feedback) (holds : p f = true) : f = .reconvert := by
  by_contra other
  -- Anything else is found in front of the mode toggle already.
  have front : f ∈ KeymapFunc.precedence.take 11 := by
    cases f <;> first | contradiction | decide
  obtain ⟨found, first⟩ := Option.isSome_iff_exists.mp (List.find?_isSome.mpr ⟨f, front, holds⟩)
  rw [← List.take_append_drop 11 KeymapFunc.precedence, List.find?_append, first, Option.some_or] at search
  obtain rfl := Option.some.inj search
  exact absurd (List.mem_of_find?_eq_some first) (by decide)

/-- A key comes to the one command that it is eligible for. -/
theorem resolveAction_eligible (quiet : findConflicts debugText s.keymap s.ephemeral.trigger flags = [])
    (possible : i.Plausible flags) {f : KeymapFunc} (hf : f ≠ .modeToggle)
    (eligible_f : (Keymap.fromSettings debugText s).eligible i f = true) :
    resolveAction (Keymap.fromSettings debugText s) i = f.action := by
  have guarded := ((eligible_fromSettings f).mp eligible_f).1
  have checked : f ≠ .feedback := by
    rintro rfl
    cases guarded
  -- The search finds some command, and only the mode toggle could be another one.
  obtain ⟨found, search⟩ : ∃ found,
      KeymapFunc.precedence.find? ((Keymap.fromSettings debugText s).eligible i) = some found :=
    Option.isSome_iff_exists.mp (List.find?_isSome.mpr ⟨f, KeymapFunc.mem_precedence checked, eligible_f⟩)
  have eligible_found := List.find?_some search
  have other : found ≠ .modeToggle := by
    rintro rfl
    have not_idle := not_idle_of_toggle quiet possible hf eligible_f eligible_found
    -- Only the reconversion is checked after the mode toggle, and it is looked for while idle.
    obtain rfl := reconvert_of_find? search hf checked eligible_f
    simp [ActionInput.guard, not_idle] at guarded
  rw [Keymap.resolveAction_eq, search, eligible_unique quiet possible other hf eligible_found eligible_f]
  rfl

/-- An input with a chord, where the commands of a group are looked for. -/
def FuncGroup.input (group : FuncGroup) (c : KeyChord) (flags : FeatureFlags) : ActionInput :=
  { vk := c.vk
    ctrl := c.ctrl
    shift := c.shift
    alt := c.alt
    composing := group = .composing
    showing := false
    direct := group ≠ .composing
    undoArmed := group = .idle
    ephemeralEnabled := flags.ephemeralEnabled
    typoEnabled := flags.typoEnabled
    llmEnabled := flags.llmEnabled }

theorem FuncGroup.input_possible (group : FuncGroup) (c : KeyChord) (flags : FeatureFlags) :
    (group.input c flags).Plausible flags := by
  refine ⟨rfl, rfl, rfl, ?_⟩
  cases group <;> simp [input]

/-- A command is looked for in the input of its group. -/
theorem eligible_input {f : KeymapFunc} {c : KeyChord} (checked : f ≠ .feedback)
    (mem : c ∈ effectiveChords debugText (s.keymap.get f) f s.ephemeral.trigger flags)
    (special : f.isPreserved = true → bareSpecial c = true) :
    (Keymap.fromSettings debugText s).eligible ((f.conflictGroup c).input c flags) f = true := by
  obtain ⟨enabled, mem⟩ := (mem_effectiveChords debugText s flags).mp mem
  refine (eligible_fromSettings f).mpr ⟨?_, mem, special⟩
  cases f <;> simp_all [ActionInput.guard, ActionInput.idle, FuncGroup.input, KeymapFunc.conflictGroup,
    KeymapFunc.isPreserved, KeymapFunc.group, FeatureFlags.enabled]

/-- Without conflicts, every command that has a chord among the keys is reached with it. -/
theorem exists_resolveAction (quiet : findConflicts debugText s.keymap s.ephemeral.trigger flags = [])
    {f : KeymapFunc} {c : KeyChord} (checked : f ≠ .feedback)
    (mem : c ∈ effectiveChords debugText (s.keymap.get f) f s.ephemeral.trigger flags)
    (special : f.isPreserved = true → bareSpecial c = true) :
    resolveAction (Keymap.fromSettings debugText s) ((f.conflictGroup c).input c flags) = f.action := by
  have possible := (f.conflictGroup c).input_possible c flags
  have eligible_f := eligible_input checked mem special
  by_cases toggle : f = .modeToggle
  · -- The mode toggle is found once nothing else is, as the input is idle.
    subst toggle
    obtain ⟨found, search⟩ := Option.isSome_iff_exists.mp (List.find?_isSome.mpr
      ⟨_, KeymapFunc.mem_precedence checked, eligible_f⟩)
    have alone : found = .modeToggle := by
      by_contra other
      have := not_idle_of_toggle quiet possible other (List.find?_some search) eligible_f
      simp [ActionInput.idle, FuncGroup.input, KeymapFunc.conflictGroup, KeymapFunc.group] at this
    rw [Keymap.resolveAction_eq, search, alone]
    rfl
  · exact resolveAction_eligible quiet possible toggle eligible_f

/-- What is reported of two commands that are not listened for everywhere can be met. -/
theorem eligible_of_conflict {conflict : Conflict}
    (mem : conflict ∈ findConflicts debugText s.keymap s.ephemeral.trigger flags)
    (ha : conflict.a.conflictGroup conflict.chord ≠ .global)
    (hb : conflict.b.conflictGroup conflict.chord ≠ .global) :
    let i := (conflict.a.conflictGroup conflict.chord).input conflict.chord flags
    (Keymap.fromSettings debugText s).eligible i conflict.a = true ∧
      (Keymap.fromSettings debugText s).eligible i conflict.b = true := by
  rw [findConflicts, findConflictsIn, List.mem_filterMap] at mem
  obtain ⟨⟨x, y⟩, pair, clashing⟩ := mem
  obtain ⟨rfl, rfl, same⟩ := of_clash clashing
  obtain ⟨mem_a, mem_b⟩ := of_mem_laterPairs pair
  have effective {f : KeymapFunc} {c : KeyChord}
      (listed : (f, c) ∈ (allFuncs.map fun f => (f, s.keymap.get f)).flatMap fun entry =>
        (effectiveChords debugText entry.2 entry.1 s.ephemeral.trigger flags).map fun c => (entry.1, c)) :
      c ∈ effectiveChords debugText (s.keymap.get f) f s.ephemeral.trigger flags := by
    simp only [List.mem_flatMap, List.mem_map, Prod.mk.injEq] at listed
    obtain ⟨_, ⟨g, -, rfl⟩, c, mem, rfl, rfl⟩ := listed
    exact mem
  have found {f : KeymapFunc} (hf : f.conflictGroup conflict.chord ≠ .global)
      (mem : conflict.chord ∈ effectiveChords debugText (s.keymap.get f) f s.ephemeral.trigger flags) :
      (Keymap.fromSettings debugText s).eligible ((f.conflictGroup conflict.chord).input conflict.chord flags) f =
        true := by
    -- A command that the system can take over is looked for among the keys only with a special key.
    refine eligible_input ?_ mem ?_
    · rintro rfl
      simp [KeymapFunc.conflictGroup, KeymapFunc.group] at hf
    · intro preserved
      by_contra special
      simp_all [KeymapFunc.conflictGroup, KeymapFunc.isPreserved]
  refine ⟨found ha (effective mem_a), ?_⟩
  rw [same ha hb]
  exact found hb (effective mem_b)

/-- The conflicts are exact. Without any, a key is eligible for one command at most, whatever the order of the checks,
the mode toggle comes after all others, and every chord is of use; and a conflict within a group can be met. -/
theorem findConflicts_exact {f32 : Type} (debugText : Text → Text) (s : Settings f32) (flags : FeatureFlags) :
    (findConflicts debugText s.keymap s.ephemeral.trigger flags = [] →
      (∀ i : ActionInput, i.Plausible flags →
        (∀ f g, f ≠ .modeToggle → g ≠ .modeToggle → (Keymap.fromSettings debugText s).eligible i f = true →
          (Keymap.fromSettings debugText s).eligible i g = true → f = g) ∧
        (∀ f, f ≠ .modeToggle → (Keymap.fromSettings debugText s).eligible i f = true →
          resolveAction (Keymap.fromSettings debugText s) i = f.action) ∧
        (resolveAction (Keymap.fromSettings debugText s) i = .modeToggle →
          ∀ f, f ≠ .modeToggle → (Keymap.fromSettings debugText s).eligible i f = false)) ∧
      ∀ f c, f ≠ .feedback → c ∈ effectiveChords debugText (s.keymap.get f) f s.ephemeral.trigger flags →
        (f.isPreserved = true → bareSpecial c = true) →
        ∃ i : ActionInput, i.Plausible flags ∧ i.chord = c ∧
          resolveAction (Keymap.fromSettings debugText s) i = f.action) ∧
    ∀ conflict ∈ findConflicts debugText s.keymap s.ephemeral.trigger flags,
      conflict.a.conflictGroup conflict.chord ≠ .global → conflict.b.conflictGroup conflict.chord ≠ .global →
      ∃ i : ActionInput, i.Plausible flags ∧ i.chord = conflict.chord ∧
        (Keymap.fromSettings debugText s).eligible i conflict.a = true ∧
        (Keymap.fromSettings debugText s).eligible i conflict.b = true := by
  refine ⟨fun quiet => ⟨fun i possible => ⟨?_, ?_, ?_⟩, ?_⟩, ?_⟩
  · intro f g hf hg eligible_f eligible_g
    exact eligible_unique quiet possible hf hg eligible_f eligible_g
  · intro f hf eligible_f
    exact resolveAction_eligible quiet possible hf eligible_f
  · intro toggle f hf
    by_contra eligible_f
    -- Another command would have been what the key comes to.
    rw [resolveAction_eligible quiet possible hf (by simpa using eligible_f)] at toggle
    cases f <;> first | exact hf rfl | cases toggle
  · intro f c checked mem special
    exact ⟨_, FuncGroup.input_possible _ c flags, rfl, exists_resolveAction quiet checked mem special⟩
  · intro conflict mem ha hb
    exact ⟨_, FuncGroup.input_possible _ _ flags, rfl, eligible_of_conflict mem ha hb⟩

/-- The default settings are without conflicts. -/
example : findConflicts id .default "f8".toList ⟨true, true, true, true⟩ = [] := by decide

end Nospacekey
