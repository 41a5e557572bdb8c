import Nospacekey.Library.SerdeModel
import Nospacekey.Settings.Survival

/-! A broken settings file is never lost, and when settings can be saved after a load. -/

namespace Nospacekey

open Serde Json Runs

variable {f32 f64 : Type} {floats : Floats f32 f64} {serde : SerdeJson f64} {isAbsolute : Text → Bool}

/-- What is written is read back. -/
theorem decodeUtf8_encodeUtf8 (text : Text) : decodeUtf8 (encodeUtf8 text) = some text := by
  have whole := (String.ofList text).isValidUTF8
  rw [decodeUtf8, encodeUtf8, String.toUTF8_eq_toByteArray, String.fromUTF8?, dif_pos whole, Option.map_some]
  exact congrArg some (String.toList_ofList)

namespace SettingsDisk

variable {disk : SettingsDisk}

/-- The file as the text that it is. -/
def text (disk : SettingsDisk) : Option Text := disk.file.bind decodeUtf8

/-- A broken file never goes where a quarantine file is already. -/
theorem quarantineDestPath_fresh (disk : SettingsDisk) (seconds nanoseconds process : Nat) :
    disk.quarantine.lookup (disk.quarantineDestPath seconds nanoseconds process) = none := by
  have named : Function.Injective fun suffix => QuarantineName.mk seconds nanoseconds process suffix :=
    fun _ _ same => (QuarantineName.mk.inj same).2.2.2
  -- There are more numbers to try than files.
  have free : ∃ suffix ∈ List.range (disk.quarantine.length + 1),
      QuarantineName.mk seconds nanoseconds process suffix ∉ disk.quarantine.map Prod.fst := by
    by_contra taken
    push Not at taken
    have all : ((List.range (disk.quarantine.length + 1)).map fun suffix =>
        QuarantineName.mk seconds nanoseconds process suffix) ⊆ disk.quarantine.map Prod.fst := by
      intro name inside
      obtain ⟨suffix, tried, rfl⟩ := List.mem_map.mp inside
      exact taken suffix tried
    have few := (List.Nodup.subperm (List.nodup_range.map named) all).length_le
    simp at few
  unfold quarantineDestPath
  cases found : (List.range (disk.quarantine.length + 1)).find? fun suffix =>
      !(disk.quarantine.any fun entry => entry.1 = QuarantineName.mk seconds nanoseconds process suffix) with
  | none =>
    obtain ⟨suffix, tried, absent⟩ := free
    have taken := List.find?_eq_none.mp found suffix tried
    rw [Bool.not_eq_true', Bool.not_eq_false] at taken
    obtain ⟨entry, inside, same⟩ := List.any_eq_true.mp taken
    exact absurd (List.mem_map.mpr ⟨entry, inside, of_decide_eq_true same⟩) absent
  | some suffix =>
    have absent := List.find?_some found
    rw [List.lookup_eq_none_iff]
    intro entry inside
    rw [Bool.not_eq_true'] at absent
    have other := List.any_eq_false.mp absent entry inside
    rw [decide_eq_true_eq] at other
    rw [bne_iff_ne]
    simp only [found, Option.getD_some]
    exact Ne.symm other

/-- What a read finds of a file. -/
theorem readToString_ok {read : ReadCall} {found : Text} (got : disk.readToString read = .ok found) :
    read = .works ∧ disk.text = some found := by
  unfold readToString at got
  cases read with
  | works =>
    simp only at got
    unfold text
    split at got
    · cases got
    · rename_i bytes there
      split at got
      · rename_i decoded
        rw [there, Option.bind_some, decoded, Except.ok.inj got]
        exact ⟨rfl, rfl⟩
      · cases got
  | denied => cases got
  | fails => cases got

theorem readToString_works {found : Text} (there : disk.text = some found) : disk.readToString .works = .ok found := by
  obtain ⟨bytes, file, decoded⟩ := Option.bind_eq_some_iff.mp there
  simp only [readToString, file, decoded]

/-- A file that is there is never reported as missing. -/
theorem readToString_notFound {read : ReadCall} {error : IoError} (got : disk.readToString read = .error error)
    (missing : error.kind = .notFound) : disk.file = none := by
  unfold readToString at got
  cases read with
  | works =>
    simp only at got
    split at got
    · assumption
    · split at got
      · cases got
      · rw [← Except.error.inj got] at missing
        cases missing
  | denied =>
    rw [← Except.error.inj got] at missing
    cases missing
  | fails =>
    rw [← Except.error.inj got] at missing
    cases missing

variable (floats serde isAbsolute)

/-- A load that finds a text makes of it what there is to it. -/
theorem loadReporting_of_text {found : Text} (there : disk.text = some found) :
    disk.loadReportingFromWith floats serde isAbsolute .works = parseSettingsText floats serde isAbsolute found := by
  rw [loadReportingFromWith, readToString_works there]

/-- Only a text is broken. -/
theorem text_of_corrupt {read : ReadCall}
    (broken : (disk.loadReportingFromWith floats serde isAbsolute read).2 = .corrupt) :
    ∃ bytes found, disk.file = some bytes ∧ decodeUtf8 bytes = some found ∧ read = .works ∧
      (parseSettingsText floats serde isAbsolute found).2 = .corrupt := by
  unfold loadReportingFromWith at broken
  split at broken
  · rename_i found got
    obtain ⟨works, there⟩ := readToString_ok got
    obtain ⟨bytes, file, decoded⟩ := Option.bind_eq_some_iff.mp there
    exact ⟨bytes, found, file, decoded, works, broken⟩
  · rename_i error _
    rcases error with ⟨kind, message⟩
    cases kind <;> cases broken

/-- What a load does with a broken file, whose name in the quarantine is new: it is moved there, or copied, or stays
with at most a part of it there. -/
inductive Quarantined (disk : SettingsDisk) (calls : LoadCalls) (bytes : ByteArray) (destination : QuarantineName) :
    LoadOutcome → SettingsDisk → Prop where
  | moved (renamed : calls.rename = true) :
    Quarantined disk calls bytes destination .corrupt ⟨none, (destination, bytes) :: disk.quarantine⟩
  | copied (stays : calls.rename = false) (works : calls.copy = .works) :
    Quarantined disk calls bytes destination .corrupt ⟨some bytes, (destination, bytes) :: disk.quarantine⟩
  | failed (stays : calls.rename = false) (fails : calls.copy = .fails none) :
    Quarantined disk calls bytes destination .corruptQuarantineFailed disk
  | part (stays : calls.rename = false) {left : ByteArray} (fails : calls.copy = .fails (some left)) :
    Quarantined disk calls bytes destination .corruptQuarantineFailed
      ⟨some bytes, (destination, left) :: disk.quarantine⟩

/-- What a load can do to the disk: nothing, unless it finds a broken file. -/
theorem loadForMutationFromWith_cases (disk : SettingsDisk) (calls : LoadCalls) :
    (disk.loadReportingFromWith floats serde isAbsolute calls.read).2 ≠ .corrupt ∧
        disk.loadForMutationFromWith floats serde isAbsolute calls =
          (disk.loadReportingFromWith floats serde isAbsolute calls.read, disk) ∨
      ∃ bytes found outcome after, disk.file = some bytes ∧ decodeUtf8 bytes = some found ∧ calls.read = .works ∧
        (parseSettingsText floats serde isAbsolute found).2 = .corrupt ∧
        disk.loadForMutationFromWith floats serde isAbsolute calls = ((.default floats, outcome), after) ∧
        Quarantined disk calls bytes (disk.quarantineDestPath calls.seconds calls.nanoseconds calls.process) outcome
          after := by
  by_cases broken : (disk.loadReportingFromWith floats serde isAbsolute calls.read).2 = .corrupt
  · obtain ⟨bytes, found, file, decoded, works, corrupt⟩ := text_of_corrupt floats serde isAbsolute broken
    unfold loadForMutationFromWith
    simp only [broken, ne_eq, not_true_eq_false, if_false, file]
    refine .inr ⟨bytes, found, ?_⟩
    cases renamed : calls.rename with
    | true => exact ⟨_, _, rfl, decoded, works, corrupt, by simp, .moved renamed⟩
    | false =>
      cases copied : calls.copy with
      | works => exact ⟨_, _, rfl, decoded, works, corrupt, by simp, .copied renamed copied⟩
      | fails left =>
        cases left with
        | none => exact ⟨_, _, rfl, decoded, works, corrupt, by simp, .failed renamed copied⟩
        | some left => exact ⟨_, _, rfl, decoded, works, corrupt, by simp, .part renamed copied⟩
  · left
    simp [loadForMutationFromWith, broken]

/-- What a load returns, from what came of it. -/
theorem loadForMutation_eq (disk : SettingsDisk) (calls : LoadCalls) :
    (disk.loadForMutation floats serde isAbsolute calls).2 =
        (disk.loadForMutationFromWith floats serde isAbsolute calls).2 ∧
      ((∃ settings, (disk.loadForMutation floats serde isAbsolute calls).1 = .ok settings) ↔
        (disk.loadForMutationFromWith floats serde isAbsolute calls).1.2 ∈
          [LoadOutcome.loaded, .missing, .empty, .corrupt]) := by
  unfold loadForMutation
  rcases disk.loadForMutationFromWith floats serde isAbsolute calls with ⟨⟨settings, outcome⟩, after⟩
  cases outcome <;> simp

/-- A save with a working disk. -/
theorem save_works (disk : SettingsDisk) (settings : Settings f32) {existing : Option Text}
    (there : existing = disk.text) (readable : disk.file = none ∨ disk.text ≠ none) :
    disk.save floats serde isAbsolute .works none settings =
      match mergedSettingsJson floats serde isAbsolute existing settings with
      | .ok written => (.ok (), { disk with file := some (encodeUtf8 written) })
      | .error error => (.error error, disk) := by
  subst there
  unfold save
  cases found : disk.text with
  | some text =>
    cases merged : mergedSettingsJson floats serde isAbsolute (some text) settings <;>
      simp [readToString_works found, saveAtomic, merged]
  | none =>
    rcases readable with missing | absurdity
    · cases merged : mergedSettingsJson floats serde isAbsolute none settings <;>
        simp [readToString, missing, saveAtomic, merged]
    · exact absurd found absurdity

/-- Settings that were saved are loaded. -/
theorem loadReporting_saved {settings : Settings f32} (savable : settings.Savable floats isAbsolute)
    {existing : Option Text} {written : Text}
    (merged : mergedSettingsJson floats serde isAbsolute existing settings = .ok written) (disk : SettingsDisk) :
    ({ disk with file := some (encodeUtf8 written) } : SettingsDisk).loadReportingFromWith floats serde isAbsolute
      .works = (settings, .loaded) := by
  obtain ⟨destination, found, rfl⟩ := mergedSettingsJson_eq_ok.mp merged
  have there : ({ disk with file := some (encodeUtf8 (serde.toStringPretty
      (mergeKnownFields destination ((Settings.codec floats).write settings)))) } : SettingsDisk).text = some _ :=
    decodeUtf8_encodeUtf8 _
  rw [loadReporting_of_text floats serde isAbsolute there]
  exact parse_saved serde savable (canonical_mergeDestination found)

/-- Settings can be saved now, and come back. -/
def Recovers (disk : SettingsDisk) : Prop :=
  ∀ settings : Settings f32, settings.Savable floats isAbsolute → ∃ after,
    disk.save floats serde isAbsolute .works none settings = (.ok (), after) ∧
      after.loadReportingFromWith floats serde isAbsolute .works = (settings, .loaded)

/-- Settings can be saved where there is no file, or a blank text, or one that they are loaded from and that can be
read as a value. -/
theorem recovers_iff (disk : SettingsDisk) : disk.Recovers floats serde isAbsolute ↔
    disk.file = none ∨ ∃ found, disk.text = some found ∧
      (isBlank found = true ∨ (parseSettingsText floats serde isAbsolute found).2 = .loaded ∧
        ∃ document, serde.fromStr found = some document ∧ document.value ≠ none) := by
  constructor
  · intro recovers
    obtain ⟨after, saved, _⟩ := recovers (.default floats) default_savable
    cases file : disk.file with
    | none => exact .inl rfl
    | some bytes =>
      cases found : disk.text with
      | none =>
        -- Bytes that are no text are not read.
        have decoded : decodeUtf8 bytes = none := by simpa [text, file] using found
        simp [save, readToString, file, decoded] at saved
      | some found' =>
        rw [save_works floats serde isAbsolute disk _ found.symm (.inr (by simp [found]))] at saved
        cases merged : mergedSettingsJson floats serde isAbsolute (some found') (.default floats) with
        | error error => simp [merged] at saved
        | ok written =>
          obtain ⟨destination, taken, _⟩ := mergedSettingsJson_eq_ok.mp merged
          exact .inr ⟨found', rfl, mergeDestination_eq_ok_iff.mp ⟨destination, taken⟩⟩
  · intro fine settings savable
    have taken : ∃ destination, mergeDestination floats serde isAbsolute disk.text = .ok destination := by
      rcases fine with missing | ⟨found, there, fine⟩
      · exact ⟨.object [], by simp [text, missing, mergeDestination]⟩
      · rw [there]
        exact mergeDestination_eq_ok_iff.mpr fine
    have readable : disk.file = none ∨ disk.text ≠ none := by
      rcases fine with missing | ⟨found, there, _⟩
      · exact .inl missing
      · exact .inr (by simp [there])
    obtain ⟨destination, taken⟩ := taken
    have merged : mergedSettingsJson floats serde isAbsolute disk.text settings = .ok _ :=
      mergedSettingsJson_eq_ok.mpr ⟨destination, taken, rfl⟩
    rw [save_works floats serde isAbsolute disk settings rfl readable, merged]
    exact ⟨_, rfl, loadReporting_saved floats serde isAbsolute savable merged disk⟩

/-- What a save can do to the disk: nothing, or write where there is no file, or a blank text, or one that settings
are loaded from. -/
theorem save_cases (disk : SettingsDisk) (read : ReadCall) (write : Option IoError) (settings : Settings f32) :
    (disk.save floats serde isAbsolute read write settings).2 = disk ∨
      (∃ bytes, (disk.save floats serde isAbsolute read write settings).2 = { disk with file := some bytes }) ∧
        (disk.file = none ∨ ∃ found, disk.text = some found ∧
          (isBlank found = true ∨ (parseSettingsText floats serde isAbsolute found).2 = .loaded)) := by
  unfold save
  cases got : disk.readToString read with
  | ok found =>
    simp only
    cases merged : mergedSettingsJson floats serde isAbsolute (some found) settings with
    | error error => exact .inl rfl
    | ok written =>
      cases write with
      | some error => exact .inl rfl
      | none =>
        obtain ⟨destination, taken, _⟩ := mergedSettingsJson_eq_ok.mp merged
        refine .inr ⟨⟨_, rfl⟩, .inr ⟨found, (readToString_ok got).2, ?_⟩⟩
        exact (mergeDestination_eq_ok_iff.mp ⟨destination, taken⟩).imp_right And.left
  | error error =>
    simp only
    by_cases missing : error.kind = .notFound
    · rw [if_pos missing]
      simp only
      cases merged : mergedSettingsJson floats serde isAbsolute none settings with
      | error error => exact .inl rfl
      | ok written =>
        cases write with
        | some error => exact .inl rfl
        | none => exact .inr ⟨⟨_, rfl⟩, .inl (readToString_notFound got missing)⟩
    · rw [if_neg missing]
      exact .inl rfl

end SettingsDisk

/-- What is done to the settings file. -/
inductive SettingsEvent (f32 : Type) where
  | load (calls : LoadCalls)
  | save (read : ReadCall) (write : Option IoError) (settings : Settings f32)

namespace SettingsDisk

variable {disk : SettingsDisk}

/-- The disk after a load or a save. -/
def step (floats : Floats f32 f64) (serde : SerdeJson f64) (isAbsolute : Text → Bool) (disk : SettingsDisk) :
    SettingsEvent f32 → SettingsDisk
  | .load calls => (disk.loadForMutation floats serde isAbsolute calls).2
  | .save read write settings => (disk.save floats serde isAbsolute read write settings).2

/-- The bytes stand at the path or in a quarantine file. -/
def Holds (disk : SettingsDisk) (bytes : ByteArray) : Prop :=
  disk.file = some bytes ∨ ∃ name, disk.quarantine.lookup name = some bytes

/-- A quarantine file stays when another one is made beside it. -/
theorem lookup_quarantine_cons {name destination : QuarantineName} {bytes left : ByteArray}
    (fresh : disk.quarantine.lookup destination = none) (there : disk.quarantine.lookup name = some bytes) :
    ((destination, left) :: disk.quarantine).lookup name = some bytes := by
  have other : name ≠ destination := by
    rintro rfl
    rw [fresh] at there
    cases there
  rw [List.lookup_cons, beq_false_of_ne other]
  exact there

/-- A broken original is kept by every load and save. -/
theorem holds_step {bytes : ByteArray} {found : Text} (decoded : decodeUtf8 bytes = some found)
    (broken : (parseSettingsText floats serde isAbsolute found).2 = .corrupt) (holds : disk.Holds bytes)
    (event : SettingsEvent f32) : (disk.step floats serde isAbsolute event).Holds bytes := by
  cases event with
  | load calls =>
    rw [step, (loadForMutation_eq floats serde isAbsolute disk calls).1]
    have fresh := disk.quarantineDestPath_fresh calls.seconds calls.nanoseconds calls.process
    have kept : ∀ left, (∃ name, disk.quarantine.lookup name = some bytes) → ∃ name,
        ((disk.quarantineDestPath calls.seconds calls.nanoseconds calls.process, left) :: disk.quarantine).lookup name =
          some bytes := fun left ⟨name, there⟩ => ⟨name, lookup_quarantine_cons fresh there⟩
    rcases loadForMutationFromWith_cases floats serde isAbsolute disk calls with
      ⟨_, same⟩ | ⟨original, _, _, after, file, _, _, _, same, quarantined⟩
    · rwa [same]
    · rw [same]
      cases quarantined with
      | moved _ =>
        rcases holds with here | there
        · obtain rfl := Option.some.inj (file.symm.trans here)
          exact .inr ⟨_, List.lookup_cons_self⟩
        · exact .inr (kept original there)
      | copied _ _ => exact holds.imp (fun here => file.symm.trans here) (kept original)
      | failed _ _ => exact holds
      | @part _ left _ => exact holds.imp (fun here => file.symm.trans here) (kept left)
  | save read write settings =>
    rcases save_cases floats serde isAbsolute disk read write settings with same | ⟨⟨written, after⟩, fine⟩
    · rwa [step, same]
    · rw [step, after]
      refine holds.imp_left fun here => ?_
      -- A save does not write where the broken original stands.
      rcases fine with missing | ⟨text', there, blank | loaded⟩
      · rw [missing] at here
        cases here
      · rw [text, here, Option.bind_some, decoded] at there
        rw [← Option.some.inj there] at blank
        rw [parseSettingsText, if_pos blank] at broken
        cases broken
      · rw [text, here, Option.bind_some, decoded] at there
        rw [← Option.some.inj there, broken] at loaded
        cases loaded

/-- A text of a later version is left alone by every load and save. -/
theorem future_step {bytes : ByteArray} {found : Text} (decoded : decodeUtf8 bytes = some found)
    (future : (parseSettingsText floats serde isAbsolute found).2 = .unsupportedVersion)
    (here : disk.file = some bytes) (event : SettingsEvent f32) :
    (disk.step floats serde isAbsolute event).file = some bytes := by
  have there : disk.text = some found := by rw [text, here, Option.bind_some, decoded]
  cases event with
  | load calls =>
    rw [step, (loadForMutation_eq floats serde isAbsolute disk calls).1]
    rcases loadForMutationFromWith_cases floats serde isAbsolute disk calls with
      ⟨_, same⟩ | ⟨original, broken, _, _, file, decoded', _, corrupt, _⟩
    · rwa [same]
    · obtain rfl := Option.some.inj (file.symm.trans here)
      obtain rfl := Option.some.inj (decoded'.symm.trans decoded)
      rw [future] at corrupt
      cases corrupt
  | save read write settings =>
    rcases save_cases floats serde isAbsolute disk read write settings with same | ⟨_, fine⟩
    · rwa [step, same]
    · rcases fine with missing | ⟨text', there', blank | loaded⟩
      · rw [missing] at here
        cases here
      · obtain rfl := Option.some.inj (there'.symm.trans there)
        rw [parseSettingsText, if_pos blank] at future
        cases future
      · obtain rfl := Option.some.inj (there'.symm.trans there)
        rw [future] at loaded
        cases loaded

variable (floats serde isAbsolute)

/-- Whether a load and what comes of its calls leave the file so that settings can be saved: a broken file must not
stay after it was copied, and a text that settings are loaded from must be readable as a value. -/
def Recoverable (disk : SettingsDisk) (calls : LoadCalls) : Prop :=
  calls.read = .works → ∀ found, disk.text = some found →
    ((parseSettingsText floats serde isAbsolute found).2 = .corrupt → calls.rename = true ∨
      ∃ left, calls.copy = .fails left) ∧
    ((parseSettingsText floats serde isAbsolute found).2 = .loaded →
      ∃ document, serde.fromStr found = some document ∧ document.value ≠ none)

/-- A blank text is an empty one. -/
theorem parse_eq_empty_iff (found : Text) :
    (parseSettingsText floats serde isAbsolute found).2 = .empty ↔ isBlank found = true := by
  unfold parseSettingsText
  by_cases blank : isBlank found = true
  · simp [blank]
  · rw [if_neg blank]
    simp only [blank, Bool.false_eq_true, iff_false]
    split
    · simp
    · split <;> simp

/-- What can come of a text. -/
theorem parse_outcome (found : Text) :
    (parseSettingsText floats serde isAbsolute found).2 ∈
      [LoadOutcome.empty, .unsupportedVersion, .loaded, .corrupt] := by
  unfold parseSettingsText
  split
  · simp
  · split
    · simp
    · split <;> simp

/-- After a load that returns settings, the next save succeeds and its settings are loaded again exactly where the
file was left so. -/
theorem recovers_after_load (disk : SettingsDisk) (calls : LoadCalls) :
    ((∃ settings, (disk.loadForMutation floats serde isAbsolute calls).1 = .ok settings) →
        (disk.loadForMutation floats serde isAbsolute calls).2.Recovers floats serde isAbsolute) ↔
      disk.Recoverable floats serde isAbsolute calls := by
  rw [(loadForMutation_eq floats serde isAbsolute disk calls).2, (loadForMutation_eq floats serde isAbsolute disk calls).1,
    recovers_iff]
  rcases loadForMutationFromWith_cases floats serde isAbsolute disk calls with
    ⟨fine, same⟩ | ⟨bytes, found, outcome, after, file, decoded, works, corrupt, same, quarantined⟩
  · rw [same]
    cases got : disk.readToString calls.read with
    | ok found =>
      obtain ⟨works, there⟩ := readToString_ok got
      have parsed : disk.loadReportingFromWith floats serde isAbsolute calls.read =
          parseSettingsText floats serde isAbsolute found := by
        rw [works, loadReporting_of_text floats serde isAbsolute there]
      have filled : disk.file ≠ none := fun missing => by simp [text, missing] at there
      rw [parsed] at fine ⊢
      simp only [Recoverable, works, there, Option.some.injEq, forall_const, forall_eq', exists_eq_left', filled,
        false_or, ← parse_eq_empty_iff floats serde isAbsolute]
      have outcome := parse_outcome floats serde isAbsolute found
      cases came : (parseSettingsText floats serde isAbsolute found).2 <;> simp_all
    | error error =>
      -- Nothing was read: settings come of it only where there is no file.
      have parsed : disk.loadReportingFromWith floats serde isAbsolute calls.read =
          (.default floats, classifyReadError error.kind) := by
        rw [loadReportingFromWith, got]
      have unread : calls.read = .works → disk.text = none := by
        intro works
        cases there : disk.text with
        | none => rfl
        | some found =>
          rw [works, readToString_works there] at got
          cases got
      have missing := fun missing => readToString_notFound got missing
      rw [parsed]
      have recoverable : disk.Recoverable floats serde isAbsolute calls := fun works found there => by
        rw [unread works] at there
        cases there
      refine iff_of_true (fun returned => ?_) recoverable
      rcases error with ⟨kind, message⟩
      cases kind with
      | notFound => exact .inl (missing rfl)
      | _ => simp [classifyReadError] at returned
  · have there : disk.text = some found := by rw [text, file, Option.bind_some, decoded]
    rw [same]
    simp only [Recoverable, works, there, Option.some.injEq, forall_const, forall_eq', corrupt]
    cases quarantined with
    | moved renamed => simp [renamed]
    | copied stays copied =>
      -- The copy was made, and the original is still in the way.
      have blank : isBlank found ≠ true := fun blank => by
        rw [(parse_eq_empty_iff floats serde isAbsolute found).mpr blank] at corrupt
        cases corrupt
      simp [stays, copied, text, decoded, corrupt, blank]
    | failed stays fails => simp [stays, fails]
    | part stays fails => simp [stays, fails]

end SettingsDisk

/-- A document that is an object with one member for its version. -/
def DeclaresVersion (document : Value f64) (version : UInt64) : Prop :=
  ∃ members, document = .object members ∧ members.countP (fun member => member.1 = "version") = 1 ∧
    members.lookup "version" = some (.number (.posInt version))

/-- A document of a later version is recognised as one. -/
theorem parse_of_declaresVersion {text : Text} {document : Value f64} {version : UInt64}
    (parsed : serde.fromStr text = some document) (declares : DeclaresVersion document version) (later : 2 < version) :
    (parseSettingsText floats serde isAbsolute text).2 = .unsupportedVersion := by
  obtain ⟨members, rfl, once, found⟩ := declares
  have filled : isBlank text ≠ true := fun blank => by
    rw [serde.fromStr_blank text blank] at parsed
    cases parsed
  have probed : VersionProbe.codec.read (.object members) = some ⟨version⟩ := by
    show (visitStruct ["version"] (.object members)).bind _ = _
    rw [visitStruct, if_pos (by simp [once])]
    simp only [Option.bind_some, Record.required, Record.field, Record.of, found]
    rfl
  have future : isFutureVersion serde text = true := by
    rw [isFutureVersion, parsed, Option.bind_some, probed]
    exact decide_eq_true later
  rw [parseSettingsText, if_neg filled, if_pos future]

/-- Saves take every plain text well; a load that fails leaves the file as it is; broken bytes stay at the path or in
the quarantine, and a text of a later version stays at the path, whatever is done; and after a load that returns
settings the next save succeeds and its settings are loaded again exactly if the load left the file so. -/
theorem load_save_recovers_iff (floats : Floats f32 f64) (serde : SerdeJson f64) (isAbsolute : Text → Bool) :
    (∀ text (settings : Settings f32), settings.Savable floats isAbsolute →
      (∀ document, serde.fromStr text = some document → document.Distinct ∧ document.value ≠ none) →
      MergesWell floats serde isAbsolute text settings) ∧
    ∀ (disk : SettingsDisk) calls,
      (((∃ settings, (disk.loadForMutation floats serde isAbsolute calls).1 = .ok settings) →
          (disk.loadForMutation floats serde isAbsolute calls).2.Recovers floats serde isAbsolute) ↔
        disk.Recoverable floats serde isAbsolute calls) ∧
      (∀ outcome, (disk.loadForMutation floats serde isAbsolute calls).1 = .error outcome →
        (disk.loadForMutation floats serde isAbsolute calls).2.file = disk.file) ∧
      (∀ bytes text, disk.file = some bytes → decodeUtf8 bytes = some text →
        (parseSettingsText floats serde isAbsolute text).2 = .corrupt → ∀ events,
        (exec (SettingsDisk.step floats serde isAbsolute) disk events).Holds bytes) ∧
      ∀ bytes text document version, disk.file = some bytes → decodeUtf8 bytes = some text →
        serde.fromStr text = some document → DeclaresVersion document version → 2 < version → ∀ events,
        (exec (SettingsDisk.step floats serde isAbsolute) disk events).file = some bytes := by
  refine ⟨fun text settings savable plain => mergesWell_of_plain savable plain, fun disk calls => ⟨?_, ?_, ?_, ?_⟩⟩
  · exact SettingsDisk.recovers_after_load floats serde isAbsolute disk calls
  · intro outcome failed
    obtain ⟨after, returned⟩ := SettingsDisk.loadForMutation_eq floats serde isAbsolute disk calls
    rw [after]
    rcases SettingsDisk.loadForMutationFromWith_cases floats serde isAbsolute disk calls with
      ⟨_, same⟩ | ⟨bytes, _, came, _, file, _, _, _, same, quarantined⟩
    · rw [same]
    · rw [same]
      rw [same, failed] at returned
      cases quarantined with
      | moved _ => simp at returned
      | copied _ _ => exact file.symm
      | failed _ _ => rfl
      | part _ _ => exact file.symm
  · intro bytes text here decoded broken events
    exact exec_invariant_all (SettingsDisk.Holds · bytes)
      (fun _ event holds => SettingsDisk.holds_step decoded broken holds event) (.inl here) events
  · intro bytes text document version here decoded parsed declares later events
    exact exec_invariant_all (fun disk : SettingsDisk => disk.file = some bytes)
      (fun _ event holds => SettingsDisk.future_step decoded (parse_of_declaresVersion parsed declares later) holds event)
      here events

section Coded

/-- A text of the next version. -/
def futureText : Text := "\x7b\"version\":3\x7d".toList

/-- What that text is read as. -/
def futureDocument : Value ℚ := .object [("version", .number (.posInt 3))]

/-- A parser that reads that text. -/
def futureSerde : SerdeJson ℚ :=
  codedSerdeJson [(futureText, futureDocument)] fun entry inside => by
    rw [List.mem_singleton.mp inside]
    exact ⟨rfl, '3', by decide, by decide⟩

/-- Paths of Windows with a drive. -/
def hasDrive : Text → Bool
  | _ :: ':' :: '\\' :: _ => true
  | _ => false

/-- A file with an open brace only, which is broken. -/
def brokenDisk : SettingsDisk := ⟨some (encodeUtf8 ['\x7b']), []⟩

/-- Calls of which the rename fails and the copy gets through. -/
def copyingCalls : LoadCalls := ⟨.works, false, .works, 0, 0, 0⟩

/-- Where a broken file was copied and not moved, the load returns settings, and no save gets through after it. -/
theorem load_save_copied :
    (∃ settings, (brokenDisk.loadForMutation rationals futureSerde hasDrive copyingCalls).1 = .ok settings) ∧
      ¬(brokenDisk.loadForMutation rationals futureSerde hasDrive copyingCalls).2.Recovers rationals futureSerde
        hasDrive := by
  have unread : futureSerde.fromStr ['\x7b'] = none := rfl
  have broken : (parseSettingsText rationals futureSerde hasDrive ['\x7b']).2 = .corrupt := by
    rw [parseSettingsText, isFutureVersion, unread]
    rfl
  have there : brokenDisk.text = some ['\x7b'] := by
    rw [SettingsDisk.text, brokenDisk, Option.bind_some, decodeUtf8_encodeUtf8]
  have stuck : ¬brokenDisk.Recoverable rationals futureSerde hasDrive copyingCalls := fun recoverable => by
    rcases (recoverable rfl _ there).1 broken with renamed | ⟨left, failed⟩
    · cases renamed
    · cases failed
  rw [← SettingsDisk.recovers_after_load] at stuck
  exact Classical.not_imp.mp stuck

/-- A file of the next version, a load of it and a save. -/
theorem load_save_recovers_iff_future :
    (exec (SettingsDisk.step rationals futureSerde hasDrive) ⟨some (encodeUtf8 futureText), []⟩
      [.load copyingCalls, .save .works none (.default rationals)]).file = some (encodeUtf8 futureText) :=
  ((load_save_recovers_iff rationals futureSerde hasDrive).2 ⟨some (encodeUtf8 futureText), []⟩ copyingCalls).2.2.2
    _ futureText futureDocument 3 rfl (decodeUtf8_encodeUtf8 _) rfl ⟨_, rfl, rfl, rfl⟩ (by decide)
    [.load copyingCalls, .save .works none (.default rationals)]

end Coded

end Nospacekey
