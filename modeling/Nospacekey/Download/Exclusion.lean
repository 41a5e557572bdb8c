import Nospacekey.Download.ZenzaiModel

/-! One attempt at a time is past the exclusion, and the flags that it reads are its own or were stored too late. -/

namespace Nospacekey

open Serde

variable {f32 f64 : Type}

namespace Point

/-- Past the exclusion, and not yet out. -/
def inside : Point → Bool
  | .ended _ => false
  | _ => true

/-- Past the beginning of the intent, and still the active attempt. -/
def intended : Point → Bool
  | .start .beginOperation => true
  | .start _ => false
  | .leave .clearDownloading _ => false
  | .ended _ => false
  | _ => true

/-- Past the reset of the flag, and still the active attempt. -/
def cleared : Point → Bool
  | .start .beginIntent => true
  | point => point.intended

/-- The active attempt. -/
def active : Point → Bool
  | .start .clearCancel => true
  | point => point.cleared

end Point

/-- A cancel of the attempt, or one that had looked for its attempt before this one was the active one. -/
def DownloadAttempt.Own (a : DownloadAttempt f32) (request : CancelRequest) : Prop :=
  request.attemptId = a.attemptId ∨ request.epoch < a.epoch

namespace ZenzaiDownload

variable {context : DownloadContext f32 f64} {s t : ZenzaiDownload f32} {i : Nat} {a b : DownloadAttempt f32}

/-- What is found after an update is what was put there or was there before. -/
theorem eq_or_of_update {α : Type} {calls : Nat → Option α} {k l : Nat} {put found : α}
    (there : Function.update calls k (some put) l = some found) :
    l = k ∧ found = put ∨ l ≠ k ∧ calls l = some found := by
  by_cases self : l = k
  · subst self
    rw [Function.update_self] at there
    exact .inl ⟨rfl, (Option.some.inj there).symm⟩
  · rw [Function.update_of_ne self] at there
    exact .inr ⟨self, there⟩

/-- What the flags say to the attempt that is inside. -/
structure Owns (s : ZenzaiDownload f32) (a : DownloadAttempt f32) : Prop where
  active : a.point.active = true → s.activeAttempt = a.attemptId ∧ s.epoch = a.epoch ∧
    ∀ k request point, s.cancels k = some (request, point) → a.Own request
  cleared : a.point.cleared = true → ∀ request ∈ s.requests, a.Own request
  intended : a.point.intended = true → (∀ request, .cancel request ∈ s.invalidations → a.Own request) ∧
    ∀ generation, a.activationGeneration = some generation → generation < 2 ^ 64 ∧
      s.activationGeneration = (generation + s.invalidations.length) % 2 ^ 64

/-- One attempt is inside, and the flags are its own. -/
structure Exclusive (s : ZenzaiDownload f32) : Prop where
  alone : ∀ i a, s.attempts i = some a → a.point.inside = true → s.downloading = true ∧
    ∀ j b, s.attempts j = some b → b.point.inside = true → j = i
  owns : ∀ i a, s.attempts i = some a → a.point.inside = true → s.Owns a
  old : ∀ k request point, s.cancels k = some (request, point) → request.epoch ≤ s.epoch
  flag : s.cancelRequested = true → s.requests ≠ []
  bounded : s.activationGeneration < 2 ^ 64

/-- The flags of the process. -/
structure SameFlags (s t : ZenzaiDownload f32) : Prop where
  downloading : t.downloading = s.downloading
  activeAttempt : t.activeAttempt = s.activeAttempt
  cancelRequested : t.cancelRequested = s.cancelRequested
  activationGeneration : t.activationGeneration = s.activationGeneration
  cancels : t.cancels = s.cancels
  epoch : t.epoch = s.epoch
  requests : t.requests = s.requests
  invalidations : t.invalidations = s.invalidations

/-- What an attempt keeps of itself from its beginning on. -/
structure SameCall (a b : DownloadAttempt f32) : Prop where
  activate : b.activate = a.activate
  attemptId : b.attemptId = a.attemptId
  activationGeneration : b.activationGeneration = a.activationGeneration
  before : b.before = a.before
  epoch : b.epoch = a.epoch

/-- A step of an attempt that leaves the flags alone. -/
def Steps (s : ZenzaiDownload f32) (i : Nat) (a : DownloadAttempt f32) (t : ZenzaiDownload f32) : Prop :=
  ∃ b, t.attempts = Function.update s.attempts i (some b) ∧ SameFlags s t ∧ SameCall a b ∧ b.point.intended = true

/-- An attempt that does not move stands where it stood. -/
theorem Steps.refl (there : s.attempts i = some a) (intended : a.point.intended = true) : Steps s i a s :=
  ⟨a, (Function.update_eq_self_iff.mpr there.symm).symm, ⟨rfl, rfl, rfl, rfl, rfl, rfl, rfl, rfl⟩,
    ⟨rfl, rfl, rfl, rfl, rfl⟩, intended⟩

/-- An attempt moves, and the process changes apart from its flags. -/
theorem Steps.put (attempts : t.attempts = s.attempts) (same : SameFlags s t) (call : SameCall a b)
    (intended : b.point.intended = true) : Steps s i a (t.put i b) :=
  ⟨b, by rw [ZenzaiDownload.put, attempts], ⟨same.1, same.2, same.3, same.4, same.5, same.6, same.7, same.8⟩, call,
    intended⟩

/-- Fetching leaves the flags alone. -/
theorem fetch_steps (there : s.attempts i = some a) {point : FetchPoint} (stands : a.point = .fetch point)
    (reply : Reply) : Steps s i a (s.fetch context i a point reply) := by
  have stays : Steps s i a s := .refl there (by rw [stands]; rfl)
  unfold fetch
  -- Every branch either stays or puts the attempt to one more place.
  split
  all_goals
    try dsimp only
    repeat' split
  all_goals first
    | exact stays
    | exact .put (by rfl) ⟨by rfl, by rfl, by rfl, by rfl, by rfl, by rfl, by rfl, by rfl⟩
        ⟨by rfl, by rfl, by rfl, by rfl, by rfl⟩ (by rfl)

/-- Placing leaves the flags alone. -/
theorem place_steps (there : s.attempts i = some a) {point : PlacePoint} (stands : a.point = .place point)
    (reply : Reply) : Steps s i a (s.place context i a point reply) := by
  have stays : Steps s i a s := .refl there (by rw [stands]; rfl)
  unfold place
  split
  all_goals
    try dsimp only
    repeat' split
  all_goals first
    | exact stays
    | exact .put (by rfl) ⟨by rfl, by rfl, by rfl, by rfl, by rfl, by rfl, by rfl, by rfl⟩
        ⟨by rfl, by rfl, by rfl, by rfl, by rfl⟩ (by rfl)

/-- Leaving leaves the flags alone until the attempt is no longer the active one. -/
theorem leave_steps {point : LeavePoint} {result : Except Text Text}
    (early : point ≠ .clearActive ∧ point ≠ .clearDownloading) (reply : Reply) :
    Steps s i a (s.leave i a result point reply) := by
  unfold leave
  split
  all_goals
    try dsimp only
    repeat' split
  all_goals first
    | exact absurd rfl early.1
    | exact absurd rfl early.2
    | exact .put (by rfl) ⟨by rfl, by rfl, by rfl, by rfl, by rfl, by rfl, by rfl, by rfl⟩
        ⟨by rfl, by rfl, by rfl, by rfl, by rfl⟩ (by rfl)

end ZenzaiDownload

namespace Point

variable {point : Point}

theorem cleared_of_intended (intended : point.intended = true) : point.cleared = true := by
  unfold cleared
  split
  · rfl
  · exact intended

theorem active_of_cleared (cleared : point.cleared = true) : point.active = true := by
  unfold active
  split
  · rfl
  · exact cleared

theorem inside_of_active (active : point.active = true) : point.inside = true := by
  cases point with
  | ended _ => cases active
  | _ => rfl

end Point

namespace ZenzaiDownload

variable {context : DownloadContext f32 f64} {s t : ZenzaiDownload f32} {i : Nat} {a b : DownloadAttempt f32}

/-- Before any download nobody is inside. -/
theorem new_exclusive (files : ModelFiles) (settings : SettingsDisk) :
    (ZenzaiDownload.new files settings : ZenzaiDownload f32).Exclusive where
  alone _ _ there := nomatch there
  owns _ _ there := nomatch there
  old _ _ _ there := nomatch there
  flag set := nomatch set
  bounded := Nat.two_pow_pos 64

/-- The attempt that is inside takes another step. -/
theorem Exclusive.replace (exclusive : s.Exclusive) (there : s.attempts i = some a) (inside : a.point.inside = true)
    (attempts : t.attempts = Function.update s.attempts i (some b))
    (downloading : b.point.inside = true → t.downloading = true) (owns : b.point.inside = true → t.Owns b)
    (old : ∀ k request point, t.cancels k = some (request, point) → request.epoch ≤ t.epoch)
    (flag : t.cancelRequested = true → t.requests ≠ []) (bounded : t.activationGeneration < 2 ^ 64) :
    t.Exclusive := by
  have unique := (exclusive.alone i a there inside).2
  -- Nobody else was inside.
  have only : ∀ j c, t.attempts j = some c → c.point.inside = true → j = i ∧ c = b := by
    intro j c found within
    rw [attempts] at found
    rcases eq_or_of_update found with same | ⟨other, found⟩
    · exact same
    · exact absurd (unique j c found within) other
  refine ⟨fun j c found within => ?_, fun j c found within => ?_, old, flag, bounded⟩
  · obtain ⟨rfl, rfl⟩ := only j c found within
    exact ⟨downloading within, fun k d among inner => (only k d among inner).1⟩
  · obtain ⟨rfl, rfl⟩ := only j c found within
    exact owns within

/-- The flags change while the attempts stand still. -/
theorem Exclusive.keep (exclusive : s.Exclusive) (attempts : t.attempts = s.attempts)
    (downloading : t.downloading = s.downloading)
    (owns : ∀ i a, s.attempts i = some a → a.point.inside = true → s.Owns a → t.Owns a)
    (old : ∀ k request point, t.cancels k = some (request, point) → request.epoch ≤ t.epoch)
    (flag : t.cancelRequested = true → t.requests ≠ []) (bounded : t.activationGeneration < 2 ^ 64) :
    t.Exclusive := by
  refine ⟨fun j c found within => ?_, fun j c found within => ?_, old, flag, bounded⟩
  · rw [attempts] at found
    rw [downloading]
    refine ⟨(exclusive.alone j c found within).1, fun k d among inner => ?_⟩
    rw [attempts] at among
    exact (exclusive.alone j c found within).2 k d among inner
  · rw [attempts] at found
    exact owns j c found within (exclusive.owns j c found within)

/-- An attempt whose call is the same owns the flags that are the same. -/
theorem Owns.same (owns : s.Owns a) (flags : SameFlags s t) (call : SameCall a b) (intended : a.point.intended = true) :
    t.Owns b := by
  have own (request : CancelRequest) (own : a.Own request) : b.Own request := by
    rw [DownloadAttempt.Own, call.attemptId, call.epoch]
    exact own
  have cleared := Point.cleared_of_intended intended
  obtain ⟨active, epoch, cancels⟩ := owns.active (Point.active_of_cleared cleared)
  refine ⟨fun _ => ?_, fun _ => ?_, fun _ => ?_⟩
  · rw [flags.activeAttempt, flags.epoch, flags.cancels, call.attemptId, call.epoch]
    exact ⟨active, epoch, fun k request point found => own request (cancels k request point found)⟩
  · rw [flags.requests]
    exact fun request among => own request (owns.cleared cleared request among)
  · rw [flags.invalidations, flags.activationGeneration, call.activationGeneration]
    exact ⟨fun request among => own request ((owns.intended intended).1 request among), (owns.intended intended).2⟩

/-- A step that leaves the flags alone keeps the exclusion. -/
theorem Exclusive.steps (exclusive : s.Exclusive) (there : s.attempts i = some a) (intended : a.point.intended = true)
    (steps : Steps s i a t) : t.Exclusive := by
  obtain ⟨b, attempts, flags, call, _⟩ := steps
  have inside := Point.inside_of_active (Point.active_of_cleared (Point.cleared_of_intended intended))
  refine exclusive.replace there inside attempts (fun _ => ?_) (fun _ => ?_) ?_ ?_ ?_
  · rw [flags.downloading]
    exact (exclusive.alone i a there inside).1
  · exact (exclusive.owns i a there inside).same flags call intended
  · rw [flags.cancels, flags.epoch]
    exact exclusive.old
  · rw [flags.cancelRequested, flags.requests]
    exact exclusive.flag
  · rw [flags.activationGeneration]
    exact exclusive.bounded

/-- An attempt that begins takes the flags over. -/
theorem start_exclusive (exclusive : s.Exclusive) (there : s.attempts i = some a) {point : StartPoint}
    (stands : a.point = .start point) : (s.start i a point).Exclusive := by
  have inside : a.point.inside = true := by rw [stands]; rfl
  have downloading := (exclusive.alone i a there inside).1
  have owns := exclusive.owns i a there inside
  cases point with
  | checkId =>
    unfold start
    simp only
    split
    · exact exclusive.replace there inside rfl nofun nofun exclusive.old exclusive.flag exclusive.bounded
    · refine exclusive.replace there inside rfl (fun _ => downloading)
        (fun _ => ⟨fun _ => ⟨rfl, rfl, fun k request point found => ?_⟩, fun h => (nomatch h), fun h => (nomatch h)⟩)
        (fun k request point found => ?_) exclusive.flag exclusive.bounded
      · -- Every cancel that is under way looked for its attempt earlier.
        exact .inr (Nat.lt_succ_of_le (exclusive.old k request point found))
      · exact Nat.le_succ_of_le (exclusive.old k request point found)
  | clearCancel =>
    have active := owns.active (by rw [stands]; rfl)
    exact exclusive.replace there inside rfl (fun _ => downloading)
      (fun _ => ⟨fun _ => active, fun _ _ among => (nomatch among), fun h => (nomatch h)⟩) exclusive.old nofun
      exclusive.bounded
  | beginIntent =>
    have active := owns.active (by rw [stands]; rfl)
    have cleared := owns.cleared (by rw [stands]; rfl)
    unfold start
    simp only
    split
    · refine exclusive.replace there inside rfl (fun _ => downloading)
        (fun _ => ⟨fun _ => active, fun _ => cleared, fun _ =>
          ⟨fun _ among => (nomatch among), fun generation begun => ?_⟩⟩)
        exclusive.old exclusive.flag (Nat.mod_lt _ (Nat.two_pow_pos 64))
      obtain rfl := Option.some.inj begun
      have small : nextUInt64 s.activationGeneration < 2 ^ 64 := Nat.mod_lt _ (Nat.two_pow_pos 64)
      exact ⟨small, (Nat.mod_eq_of_lt small).symm⟩
    · exact exclusive.replace there inside rfl (fun _ => downloading)
        (fun _ => ⟨fun _ => active, fun _ => cleared, fun _ =>
          ⟨fun _ among => (nomatch among), fun _ begun => (nomatch begun)⟩⟩)
        exclusive.old exclusive.flag exclusive.bounded
  | beginOperation =>
    exact exclusive.steps there (by rw [stands]; rfl)
      (.put rfl ⟨rfl, rfl, rfl, rfl, rfl, rfl, rfl, rfl⟩ ⟨rfl, rfl, rfl, rfl, rfl⟩ rfl)

/-- An attempt that leaves gives the flags back. -/
theorem leave_exclusive (exclusive : s.Exclusive) (there : s.attempts i = some a) {point : LeavePoint}
    {result : Except Text Text} (stands : a.point = .leave point result) (reply : Reply) :
    (s.leave i a result point reply).Exclusive := by
  have inside : a.point.inside = true := by rw [stands]; rfl
  by_cases active : point = .clearActive
  · subst active
    exact exclusive.replace there inside rfl (fun _ => (exclusive.alone i a there inside).1)
      (fun _ => ⟨fun h => (nomatch h), fun h => (nomatch h), fun h => (nomatch h)⟩) exclusive.old exclusive.flag
      exclusive.bounded
  · by_cases last : point = .clearDownloading
    · subst last
      exact exclusive.replace there inside rfl nofun nofun exclusive.old exclusive.flag exclusive.bounded
    · refine exclusive.steps there ?_ (leave_steps ⟨active, last⟩ reply)
      rw [stands]
      cases point with
      | clearDownloading => exact absurd rfl last
      | _ => rfl

/-- A step of an attempt keeps the exclusion. -/
theorem advance_exclusive (exclusive : s.Exclusive) (i : Nat) (reply : Reply) :
    (s.advance context i reply).Exclusive := by
  unfold advance
  split
  · exact exclusive
  · rename_i a there
    split
    · rename_i point stands
      exact start_exclusive exclusive there stands
    · rename_i point stands
      exact exclusive.steps there (by rw [stands]; rfl) (fetch_steps there stands reply)
    · rename_i point stands
      exact exclusive.steps there (by rw [stands]; rfl) (place_steps there stands reply)
    · rename_i point result stands
      exact leave_exclusive exclusive there stands reply
    · exact exclusive

/-- Whoever finds the flag down is alone. -/
theorem download_exclusive (exclusive : s.Exclusive) (i : Nat) (activate : Bool) (attemptId : Nat) :
    (s.download i activate attemptId).Exclusive := by
  unfold download
  split
  · exact exclusive
  · rename_i free
    rw [Bool.not_eq_true, Option.isSome_eq_false_iff, Option.isNone_iff_eq_none] at free
    simp only
    split
    · -- The attempt is turned away.
      rename_i downloading
      have same : ∀ j c, c.point.inside = true → ∀ b : DownloadAttempt f32, b.point.inside = false →
          Function.update s.attempts i (some b) j = some c → s.attempts j = some c := by
        intro j c within b out found
        rcases eq_or_of_update found with ⟨rfl, rfl⟩ | ⟨_, found⟩
        · rw [out] at within
          cases within
        · exact found
      refine ⟨fun j c found within => ⟨downloading, fun k d among inner => ?_⟩, fun j c found within => ?_,
        exclusive.old, exclusive.flag, exclusive.bounded⟩
      · exact (exclusive.alone j c (same j c within _ rfl found) within).2 k d (same k d inner _ rfl among) inner
      · obtain ⟨active, cleared, intended⟩ := exclusive.owns j c (same j c within _ rfl found) within
        exact ⟨active, cleared, intended⟩
    · rename_i idle
      -- Nobody was inside.
      have none' : ∀ j c, s.attempts j = some c → c.point.inside = false := by
        intro j c found
        by_contra within
        rw [Bool.not_eq_false] at within
        exact idle (exclusive.alone j c found within).1
      have only : ∀ j c, Function.update s.attempts i (some (.new activate attemptId (s.files .dest))) j = some c →
          c.point.inside = true → j = i ∧ c = .new activate attemptId (s.files .dest) := by
        intro j c found within
        rcases eq_or_of_update found with same | ⟨_, found⟩
        · exact same
        · rw [none' j c found] at within
          cases within
      refine ⟨fun j c found within => ⟨rfl, fun k d among inner => ?_⟩, fun j c found within => ?_, exclusive.old,
        exclusive.flag, exclusive.bounded⟩
      · rw [(only j c found within).1, (only k d among inner).1]
      · rw [(only j c found within).2]
        exact ⟨fun h => (nomatch h), fun h => (nomatch h), fun h => (nomatch h)⟩

/-- Who owns the flags owns them as well where they are the same. -/
theorem Owns.of_flags (owns : s.Owns a) (flags : SameFlags s t) : t.Owns a := by
  refine ⟨?_, ?_, ?_⟩
  · rw [flags.activeAttempt, flags.epoch, flags.cancels]
    exact owns.active
  · rw [flags.requests]
    exact owns.cleared
  · rw [flags.invalidations, flags.activationGeneration]
    exact owns.intended

/-- The exclusion is kept while attempts stand still and the flags are the same. -/
theorem Exclusive.of_flags (exclusive : s.Exclusive) (attempts : t.attempts = s.attempts) (flags : SameFlags s t) :
    t.Exclusive := by
  refine exclusive.keep attempts flags.downloading (fun _ _ _ _ owns => owns.of_flags flags) ?_ ?_ ?_
  · rw [flags.cancels, flags.epoch]
    exact exclusive.old
  · rw [flags.cancelRequested, flags.requests]
    exact exclusive.flag
  · rw [flags.activationGeneration]
    exact exclusive.bounded

/-- One more invalidation, by a patch or by a cancel that an attempt owns, is counted. -/
theorem invalidate_exclusive (exclusive : s.Exclusive) {invalidation : IntentInvalidation}
    (own : ∀ i a, s.attempts i = some a → a.point.intended = true → ∀ request, invalidation = .cancel request →
      a.Own request) :
    (s.invalidateActivationIntent invalidation).Exclusive := by
  refine exclusive.keep rfl rfl (fun i a there _ owns => ⟨owns.active, owns.cleared, fun intended => ⟨?_, ?_⟩⟩)
    exclusive.old exclusive.flag (Nat.mod_lt _ (Nat.two_pow_pos 64))
  · intro request among
    rcases List.mem_append.mp among with earlier | last
    · exact (owns.intended intended).1 request earlier
    · exact own i a there intended request (List.mem_singleton.mp last).symm
  · intro generation begun
    obtain ⟨small, counted⟩ := (owns.intended intended).2 generation begun
    refine ⟨small, ?_⟩
    show nextUInt64 s.activationGeneration = _
    rw [counted, nextUInt64, Nat.mod_add_mod, invalidateActivationIntent, List.length_append, List.length_singleton,
      Nat.add_assoc]

/-- A cancel moves on, and what it asked for stays. -/
theorem moveCancel_exclusive (exclusive : s.Exclusive) {k : Nat} {request : CancelRequest} {point next : CancelPoint}
    (there : s.cancels k = some (request, point)) :
    ({ s with cancels := Function.update s.cancels k (some (request, next)) } : ZenzaiDownload f32).Exclusive := by
  have found : ∀ l other at', Function.update s.cancels k (some (request, next)) l = some (other, at') →
      ∃ at'', s.cancels l = some (other, at'') := by
    intro l other at' found
    rcases eq_or_of_update found with ⟨rfl, same⟩ | ⟨_, found⟩
    · obtain ⟨rfl, rfl⟩ := Prod.mk.inj same
      exact ⟨point, there⟩
    · exact ⟨at', found⟩
  refine exclusive.keep rfl rfl (fun i a _ _ owns => ⟨fun active => ?_, owns.cleared, owns.intended⟩)
    (fun l other at' among => ?_) exclusive.flag exclusive.bounded
  · obtain ⟨current, epoch, cancels⟩ := owns.active active
    refine ⟨current, epoch, fun l other at' among => ?_⟩
    obtain ⟨at'', earlier⟩ := found l other at' among
    exact cancels l other at'' earlier
  · obtain ⟨at'', earlier⟩ := found l other at' among
    exact exclusive.old l other at'' earlier

/-- A cancel that finds its attempt is one of the attempt that is active. -/
theorem cancel_exclusive (exclusive : s.Exclusive) (k attemptId : Nat) :
    (s.cancelZenzaiDownload k attemptId).Exclusive := by
  unfold cancelZenzaiDownload
  split
  · exact exclusive
  · rename_i looked
    rw [Bool.or_eq_true, not_or, decide_eq_true_eq, not_not] at looked
    refine exclusive.keep rfl rfl (fun i a _ _ owns => ⟨fun active => ?_, owns.cleared, owns.intended⟩)
      (fun l other at' among => ?_) exclusive.flag exclusive.bounded
    · obtain ⟨current, epoch, cancels⟩ := owns.active active
      refine ⟨current, epoch, fun l other at' among => ?_⟩
      rcases eq_or_of_update among with ⟨_, same⟩ | ⟨_, earlier⟩
      · obtain ⟨rfl, _⟩ := Prod.mk.inj same
        exact .inl (looked.2.symm.trans current)
      · exact cancels l other at' earlier
    · rcases eq_or_of_update among with ⟨_, same⟩ | ⟨_, earlier⟩
      · obtain ⟨rfl, _⟩ := Prod.mk.inj same
        exact le_rfl
      · exact exclusive.old l other at' earlier

/-- What a cancel stores is stored for an attempt that it found, or too late. -/
theorem advanceCancel_exclusive (exclusive : s.Exclusive) (k : Nat) : (s.advanceCancel k).Exclusive := by
  unfold advanceCancel
  split
  · exact exclusive
  · rename_i request point there
    have own : ∀ i a, s.attempts i = some a → a.point.active = true → a.Own request := fun i a found active =>
      ((exclusive.owns i a found (Point.inside_of_active active)).active active).2.2 k request point there
    simp only
    split
    · -- The flag is set.
      refine moveCancel_exclusive (s := { s with cancelRequested := true, requests := s.requests ++ [request] })
        (exclusive.keep rfl rfl (fun i a found _ owns => ⟨owns.active, fun cleared other among => ?_, owns.intended⟩)
          exclusive.old (fun _ => by simp) exclusive.bounded) there
      rcases List.mem_append.mp among with earlier | last
      · exact owns.cleared cleared other earlier
      · rw [List.mem_singleton.mp last]
        exact own i a found (Point.active_of_cleared cleared)
    · exact moveCancel_exclusive (s := s.operate (Operations.requestCancel .zenzai request.attemptId))
        (exclusive.of_flags rfl ⟨rfl, rfl, rfl, rfl, rfl, rfl, rfl, rfl⟩) there
    · refine moveCancel_exclusive (s := s.invalidateActivationIntent (.cancel request))
        (invalidate_exclusive exclusive fun i a found intended other same => ?_) there
      obtain rfl := IntentInvalidation.cancel.inj same
      exact own i a found (Point.active_of_cleared (Point.cleared_of_intended intended))
    · exact exclusive

/-- Patches only invalidate. -/
theorem advancePatch_exclusive (exclusive : s.Exclusive) : s.advancePatch.Exclusive := by
  unfold advancePatch
  split
  · exact exclusive
  · exact exclusive.of_flags rfl ⟨rfl, rfl, rfl, rfl, rfl, rfl, rfl, rfl⟩
  · have invalidated : (s.invalidateActivationIntent .patch).Exclusive :=
      invalidate_exclusive exclusive fun _ _ _ _ _ same => nomatch same
    exact invalidated.of_flags rfl ⟨rfl, rfl, rfl, rfl, rfl, rfl, rfl, rfl⟩

/-- Up to its invalidations a patch leaves the flags alone. -/
theorem settingsPatch_flags (s : ZenzaiDownload f32) (context : DownloadContext f32 f64) (calls : LoadCalls)
    (change : Settings f32 → Option (Settings f32)) (invalidations : Nat) (read : ReadCall) (write : Option IoError) :
    (s.settingsPatch context calls change invalidations read write).attempts = s.attempts ∧
      (s.settingsPatch context calls change invalidations read write).files = s.files ∧
      SameFlags s (s.settingsPatch context calls change invalidations read write) := by
  unfold settingsPatch
  split
  · exact ⟨rfl, rfl, rfl, rfl, rfl, rfl, rfl, rfl, rfl, rfl⟩
  · dsimp only
    repeat' split
    all_goals exact ⟨rfl, rfl, rfl, rfl, rfl, rfl, rfl, rfl, rfl, rfl⟩

/-- Every step keeps the exclusion. -/
theorem Exclusive.step (exclusive : s.Exclusive) (op : DownloadOp f32) : (s.step context op).Exclusive := by
  cases op with
  | download i activate attemptId => exact download_exclusive exclusive i activate attemptId
  | advance i reply => exact advance_exclusive exclusive i reply
  | cancel k attemptId => exact cancel_exclusive exclusive k attemptId
  | advanceCancel k => exact advanceCancel_exclusive exclusive k
  | patch calls change invalidations read write =>
    obtain ⟨attempts, _, flags⟩ := s.settingsPatch_flags context calls change invalidations read write
    exact exclusive.of_flags attempts flags
  | advancePatch => exact advancePatch_exclusive exclusive

end ZenzaiDownload

end Nospacekey
