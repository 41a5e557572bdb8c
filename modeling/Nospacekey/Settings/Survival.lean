import Nospacekey.Settings.Load
import Nospacekey.Library.Runs

/-! The settings file survives loads and saves. -/

namespace Nospacekey

open Serde Json Runs

variable {f32 f64 : Type} {floats : Floats f32 f64} {serde : SerdeJson f64} {isAbsolute : Text → Bool}

/-- Settings as this version makes them. -/
structure Settings.Savable (floats : Floats f32 f64) (isAbsolute : Text → Bool) (settings : Settings f32) : Prop where
  version : settings.version = 2
  path : settings.zenzai.weightPath = [] ∨ isAbsolute settings.zenzai.weightPath = true
  font : floats.isFinite settings.appearance.fontPoint = true

section Texts

variable {settings : Settings f32}

/-- Settings that this version makes are loaded as they are. -/
theorem normalizeLoaded_migrate (savable : settings.Savable floats isAbsolute) :
    normalizeLoaded isAbsolute (migrate settings) = settings := by
  have same : migrate settings = settings := by
    rw [migrate, if_neg (by rw [savable.version]; decide)]
  rw [same, normalizeLoaded, if_neg]
  rcases savable.path with none' | absolute
  · simp [none']
  · simp [absolute]

theorem default_savable : (Settings.default floats).Savable floats isAbsolute where
  version := rfl
  path := .inl rfl
  font := by
    show (floats.toRat (floats.ofRat (mkRat 21 2))).isSome = true
    have half : floats.toRat (floats.ofRat (mkRat 21 2)) = some (mkRat 21 2) := floats.toRat_half 21 (by decide)
    rw [half]
    rfl

theorem canonical_write (font : floats.isFinite settings.appearance.fontPoint = true) :
    ((Settings.codec floats).write settings).Canonical :=
  (Settings.codec floats).canonical settings ((settings.fits_iff floats).mpr font)

/-- The version is found where settings were laid on a value. -/
theorem read_version {destination : Value f64} (canonical : destination.Canonical) (settings : Settings f32) :
    VersionProbe.codec.read (mergeKnownFields destination ((Settings.codec floats).write settings)) =
      some ⟨settings.version.toUInt64⟩ := by
  have named : ((Settings.record floats).fields settings).map Prod.fst = (Settings.record floats).names :=
    (Settings.record floats).named settings
  obtain ⟨visit, visited, found⟩ :=
    visitStruct_merge ["version"] (named ▸ (Settings.record_whole floats).nodup) canonical
  have version := found ("version", Serde.Codec.u32.write settings.version) (by simp [Settings.record])
  rw [merge_of_not_object (by simp [Serde.Codec.u32, Serde.Codec.leaf])] at version
  show (visitStruct ["version"] _).bind _ = _
  rw [Settings.codec, Serde.Codec.struct, visited]
  simp only [Option.bind_some, Record.required, Record.field, Record.of, version]
  rfl

variable (serde) in
/-- A text that was saved is loaded as what was saved. -/
theorem parse_saved (savable : settings.Savable floats isAbsolute) {destination : Value f64}
    (canonical : destination.Canonical) :
    parseSettingsText floats serde isAbsolute
      (serde.toStringPretty (mergeKnownFields destination ((Settings.codec floats).write settings))) =
      (settings, .loaded) := by
  have fits := (settings.fits_iff floats).mpr savable.font
  have text := serde.fromStr_toStringPretty _ (canonical_merge canonical (canonical_write savable.font))
  have filled : isBlank (serde.toStringPretty (mergeKnownFields destination ((Settings.codec floats).write settings))) =
      false := by
    rw [Bool.eq_false_iff]
    intro blank
    rw [serde.fromStr_blank _ blank] at text
    cases text
  rw [parseSettingsText, filled, if_neg (by simp), isFutureVersion, text]
  simp only [Option.bind_some, read_version canonical, (Settings.codec floats).reads settings destination fits canonical,
    savable.version, normalizeLoaded_migrate savable]
  rfl

/-- The value that settings are laid on is one. -/
theorem canonical_mergeDestination {existing : Option Text} {destination : Value f64}
    (found : mergeDestination floats serde isAbsolute existing = .ok destination) : destination.Canonical := by
  unfold mergeDestination at found
  split at found
  · rw [← Except.ok.inj found]
    exact .object .nil (by simp)
  · split at found
    · rw [← Except.ok.inj found]
      exact .object .nil (by simp)
    · split at found
      · split at found
        · rename_i read
          obtain ⟨document, _, value⟩ := Option.bind_eq_some_iff.mp read
          rw [← Except.ok.inj found]
          exact canonical_value value
        · cases found
      · cases found
      · cases found

/-- What a save finds of what was saved before. -/
theorem mergeDestination_saved (savable : settings.Savable floats isAbsolute) {destination : Value f64}
    (canonical : destination.Canonical) :
    mergeDestination floats serde isAbsolute
      (some (serde.toStringPretty (mergeKnownFields destination ((Settings.codec floats).write settings)))) =
      .ok (mergeKnownFields destination ((Settings.codec floats).write settings)) := by
  have merged := canonical_merge canonical (canonical_write savable.font)
  have text := serde.fromStr_toStringPretty _ merged
  have parsed := parse_saved serde savable canonical
  unfold mergeDestination
  split
  · contradiction
  · rename_i existing same
    obtain rfl := Option.some.inj same
    rw [if_neg]
    · rw [parsed, text, Option.bind_some, value_of_canonical merged]
    · intro blank
      rw [serde.fromStr_blank _ blank] at text
      cases text

/-- A text whose settings can be loaded is a document, and not blank. -/
theorem document_of_loaded {text : Text} (loaded : (parseSettingsText floats serde isAbsolute text).2 = .loaded) :
    isBlank text = false ∧ ∃ document, serde.fromStr text = some document := by
  unfold parseSettingsText at loaded
  split at loaded
  · cases loaded
  · rename_i filled
    split at loaded
    · cases loaded
    · refine ⟨by simpa using filled, ?_⟩
      split at loaded
      · rename_i read
        obtain ⟨document, found, _⟩ := Option.bind_eq_some_iff.mp read
        exact ⟨document, found⟩
      · cases loaded

/-- A save lays its settings on the value that it finds. -/
theorem mergedSettingsJson_eq_ok {existing : Option Text} {written : Text} :
    mergedSettingsJson floats serde isAbsolute existing settings = .ok written ↔
      ∃ destination, mergeDestination floats serde isAbsolute existing = .ok destination ∧
        serde.toStringPretty (mergeKnownFields destination ((Settings.codec floats).write settings)) = written := by
  unfold mergedSettingsJson
  cases mergeDestination floats serde isAbsolute existing <;> simp

/-- A save takes a text that is blank or that settings can be loaded from, if it can be read as a value at all. -/
theorem mergeDestination_eq_ok_iff {text : Text} :
    (∃ destination, mergeDestination floats serde isAbsolute (some text) = .ok destination) ↔
      isBlank text = true ∨ (parseSettingsText floats serde isAbsolute text).2 = .loaded ∧
        ∃ document, serde.fromStr text = some document ∧ document.value ≠ none := by
  unfold mergeDestination
  simp only
  by_cases blank : isBlank text = true
  · simp [blank]
  · rw [if_neg blank]
    constructor
    · rintro ⟨destination, found⟩
      split at found
      · rename_i loaded
        split at found
        · rename_i read
          obtain ⟨document, parsed, value⟩ := Option.bind_eq_some_iff.mp read
          exact .inr ⟨loaded, document, parsed, by simp [value]⟩
        · cases found
      · cases found
      · cases found
    · rintro (absurdity | ⟨loaded, document, parsed, readable⟩)
      · exact absurd absurdity blank
      · obtain ⟨value, read⟩ := Option.ne_none_iff_exists'.mp readable
        exact ⟨value, by rw [loaded, parsed, Option.bind_some, read]⟩

end Texts

/-- What a save does with the text that it finds: what it writes is loaded as what was saved, with the members that
settings do not know as they were, and is written again by the next save; and it refuses exactly what is not
blank and cannot be loaded. -/
structure MergesWell (floats : Floats f32 f64) (serde : SerdeJson f64) (isAbsolute : Text → Bool) (text : Text)
    (settings : Settings f32) : Prop where
  reloads : ∀ written, mergedSettingsJson floats serde isAbsolute (some text) settings = .ok written →
    parseSettingsText floats serde isAbsolute written = (settings, .loaded)
  again : ∀ written, mergedSettingsJson floats serde isAbsolute (some text) settings = .ok written →
    mergedSettingsJson floats serde isAbsolute (some written) settings = .ok written
  unknown : ∀ written, mergedSettingsJson floats serde isAbsolute (some text) settings = .ok written →
    ∀ document path members key item, serde.fromStr text = some document →
      ((Settings.codec floats).write settings).at? path = some (.object members) → members.lookup key = none →
      document.at? (path ++ [key]) = some item → ∃ result value, serde.fromStr written = some result ∧
        item.value = some value ∧ result.at? (path ++ [key]) = some value
  refuses : (∃ error, mergedSettingsJson floats serde isAbsolute (some text) settings = .error error) ↔
    isBlank text = false ∧ (parseSettingsText floats serde isAbsolute text).2 ≠ .loaded

/-- A text without repeated keys that can be read as a value, if it is a document, takes every settings well. -/
theorem mergesWell_of_plain {settings : Settings f32} (savable : settings.Savable floats isAbsolute) {text : Text}
    (plain : ∀ document, serde.fromStr text = some document → document.Distinct ∧ document.value ≠ none) :
    MergesWell floats serde isAbsolute text settings where
  reloads written saved := by
    obtain ⟨destination, found, rfl⟩ := mergedSettingsJson_eq_ok.mp saved
    exact parse_saved serde savable (canonical_mergeDestination found)
  again written saved := by
    obtain ⟨destination, found, rfl⟩ := mergedSettingsJson_eq_ok.mp saved
    have canonical := canonical_mergeDestination found
    refine mergedSettingsJson_eq_ok.mpr ⟨_, mergeDestination_saved savable canonical, ?_⟩
    rw [merge_merge canonical (canonical_write savable.font)]
  unknown written saved document path members key item parsed parent absent there := by
    obtain ⟨destination, found, rfl⟩ := mergedSettingsJson_eq_ok.mp saved
    have above : ((Settings.codec floats).write settings).Canonical := canonical_write savable.font
    have read := serde.fromStr_toStringPretty _ (canonical_merge (canonical_mergeDestination found) above)
    -- The value that settings are laid on is that of the document.
    have same : document.value = some destination := by
      unfold mergeDestination at found
      simp only at found
      split at found
      · rename_i blank
        rw [serde.fromStr_blank _ blank] at parsed
        cases parsed
      · split at found
        · rw [parsed, Option.bind_some] at found
          split at found
          · rename_i value
            rw [value, Except.ok.inj found]
          · cases found
        · cases found
        · cases found
    have below := at?_value (plain document parsed).1 same (path ++ [key])
    rw [there, Option.bind_some] at below
    obtain ⟨value, known⟩ := readable_of_at? same there
    refine ⟨_, value, read, known, at?_merge_unknown above parent absent ?_⟩
    rw [below, known]
  refuses := by
    have taken : (∃ destination, mergeDestination floats serde isAbsolute (some text) = .ok destination) ↔
        isBlank text = true ∨ (parseSettingsText floats serde isAbsolute text).2 = .loaded := by
      rw [mergeDestination_eq_ok_iff]
      refine or_congr_right ⟨And.left, fun loaded => ⟨loaded, ?_⟩⟩
      obtain ⟨_, document, parsed⟩ := document_of_loaded loaded
      exact ⟨document, parsed, (plain document parsed).2⟩
    rw [← Bool.not_eq_true, ← not_or, ← taken, mergedSettingsJson]
    cases mergeDestination floats serde isAbsolute (some text) <;> simp

end Nospacekey
