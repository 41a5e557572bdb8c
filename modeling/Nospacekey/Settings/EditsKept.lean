import Nospacekey.Library.Runs
import Nospacekey.Settings.SettingsStore

/-! The settings window loses no edit, as long as conflicts are decided one after the other. -/

namespace Nospacekey

namespace SettingsStore

open Runs

variable {ν ε : Type}

/-! ## The order of what is sent -/

section Order

variable {α : Type}

/-- What is sent later is of a later call, or is what is left of the same one. -/
def Follows (earlier later : Nat × List α) : Prop :=
  earlier.1 < later.1 ∨ (earlier.1 = later.1 ∧ later.2.Sublist earlier.2)

/-- Calls are sent in their order, and what waits comes after what was sent. -/
structure Ordered (made : List (List α)) (sent waiting : List (Nat × List α)) : Prop where
  inOrder : waiting.Pairwise fun item later => item.1 < later.1
  sentInOrder : sent.Pairwise Follows
  behind : ∀ op ∈ sent, ∀ item ∈ waiting, Follows op item
  original : ∀ item ∈ sent ++ waiting, ∃ changes, made[item.1]? = some changes ∧ item.2.Sublist changes

variable {made : List (List α)} {sent waiting : List (Nat × List α)}

/-- The calls that are known of were made. -/
theorem Ordered.call_lt (ordered : Ordered made sent waiting) {item : Nat × List α} (inside : item ∈ sent ++ waiting) :
    item.1 < made.length := by
  obtain ⟨changes, there, -⟩ := ordered.original item inside
  exact (List.getElem?_eq_some_iff.mp there).1

/-- A call joins the end. -/
theorem Ordered.make (ordered : Ordered made sent waiting) (changes : List α) :
    Ordered (made ++ [changes]) sent (waiting ++ [(made.length, changes)]) where
  inOrder := by
    refine List.pairwise_append.mpr ⟨ordered.inOrder, List.pairwise_singleton _ _, ?_⟩
    intro item inside later last
    rw [List.mem_singleton.mp last]
    exact ordered.call_lt (List.mem_append_right _ inside)
  sentInOrder := ordered.sentInOrder
  behind := by
    intro op there item inside
    rcases List.mem_append.mp inside with inside | last
    · exact ordered.behind op there item inside
    · -- Nothing of the new call has been sent.
      rw [List.mem_singleton.mp last]
      exact Or.inl (ordered.call_lt (List.mem_append_left _ there))
  original := by
    intro item inside
    rw [← List.append_assoc] at inside
    rcases List.mem_append.mp inside with inside | last
    · obtain ⟨all, there, kept⟩ := ordered.original item inside
      refine ⟨all, ?_, kept⟩
      rw [List.getElem?_append_left (List.getElem?_eq_some_iff.mp there).1]
      exact there
    · rw [List.mem_singleton.mp last]
      exact ⟨changes, by simp, List.Sublist.refl _⟩

/-- The first item is sent, and is not done yet. -/
theorem Ordered.send {item : Nat × List α} (ordered : Ordered made sent (item :: waiting)) :
    Ordered made (sent ++ [item]) (item :: waiting) where
  inOrder := ordered.inOrder
  sentInOrder := by
    refine List.pairwise_append.mpr ⟨ordered.sentInOrder, List.pairwise_singleton _ _, ?_⟩
    intro op there later last
    rw [List.mem_singleton.mp last]
    exact ordered.behind op there item List.mem_cons_self
  behind := by
    intro op there later inside
    rcases List.mem_append.mp there with there | last
    · exact ordered.behind op there later inside
    · rw [List.mem_singleton.mp last]
      rcases List.mem_cons.mp inside with rfl | inside
      · exact Or.inr ⟨rfl, List.Sublist.refl _⟩
      · exact Or.inl ((List.pairwise_cons.mp ordered.inOrder).1 later inside)
  original := by
    intro op inside
    refine ordered.original op ?_
    simp only [List.mem_append, List.mem_cons] at inside ⊢
    tauto

/-- The first item is done. -/
theorem Ordered.done {item : Nat × List α} (ordered : Ordered made sent (item :: waiting)) :
    Ordered made sent waiting where
  inOrder := (List.pairwise_cons.mp ordered.inOrder).2
  sentInOrder := ordered.sentInOrder
  behind op there later inside := ordered.behind op there later (List.mem_cons_of_mem _ inside)
  original op inside := by
    refine ordered.original op ?_
    rcases List.mem_append.mp inside with inside | inside
    · exact List.mem_append_left _ inside
    · exact List.mem_append_right _ (List.mem_cons_of_mem _ inside)

/-- Only some changes of the first item are left. -/
theorem Ordered.shrink {item : Nat × List α} (ordered : Ordered made sent (item :: waiting)) {changes : List α}
    (kept : changes.Sublist item.2) : Ordered made sent ((item.1, changes) :: waiting) where
  inOrder := by
    have before := List.pairwise_cons.mp ordered.inOrder
    exact List.pairwise_cons.mpr ⟨before.1, before.2⟩
  sentInOrder := ordered.sentInOrder
  behind := by
    intro op there later inside
    rcases List.mem_cons.mp inside with rfl | inside
    · -- What is left of the item follows whatever the item does.
      rcases ordered.behind op there item List.mem_cons_self with before | ⟨same, shorter⟩
      · exact Or.inl before
      · exact Or.inr ⟨same, kept.trans shorter⟩
    · exact ordered.behind op there later (List.mem_cons_of_mem _ inside)
  original := by
    intro op inside
    rcases List.mem_append.mp inside with inside | inside
    · exact ordered.original op (List.mem_append_left _ inside)
    · rcases List.mem_cons.mp inside with rfl | inside
      · obtain ⟨all, there, whole⟩ := ordered.original item (List.mem_append_right _ List.mem_cons_self)
        exact ⟨all, there, kept.trans whole⟩
      · exact ordered.original op (List.mem_append_right _ (List.mem_cons_of_mem _ inside))

end Order

/-! ## What is kept -/

namespace SettingsProvider

/-- The item that is sent, or held for the user with the changes that were not given up. -/
def held (store : SettingsProvider ν ε) : Option (QueueItem ν) :=
  match store.active with
  | some item => some item
  | none =>
    store.conflictItem.map fun item => { item with changes := keptChanges store.discardedConflictTargets item }

/-- All edits that are not settled, in the order they are sent in. -/
def waiting (store : SettingsProvider ν ε) : List (QueueItem ν) := store.held.toList ++ store.queue

end SettingsProvider

/-- The changes of items, with the calls that they come from. -/
def tagged (items : List (QueueItem ν)) : List (Nat × List (SettingChange ν)) :=
  items.map fun item => (item.call, item.changes)

/-- Every change that was made waits, was saved or rejected, or was given up. -/
def Accounted (history : EditHistory ν) (waiting : List (Nat × List (SettingChange ν))) : Prop :=
  ∀ call changes, history.made[call]? = some changes → ∀ change ∈ changes,
    (∃ item ∈ waiting, item.1 = call ∧ change ∈ item.2) ∨
      (∃ item ∈ history.saved, item.1 = call ∧ change ∈ item.2) ∨
      (∃ item ∈ history.rejected, item.1 = call ∧ change ∈ item.2) ∨
      (call, changeTarget change) ∈ history.discarded

/-- What the store keeps true of itself. -/
structure Sound (store : SettingsProvider ν ε) : Prop where
  one : store.patches ++ store.checks.map Prod.fst = store.active.toList
  busy : store.active.isSome = true → store.paused = false ∧ store.snapshot.isSome = true ∧ store.conflictItem = none
  asked : store.conflictItem.isSome = true →
    store.paused = true ∧ store.snapshot.isSome = true ∧
      ∃ conflict, store.conflict = some conflict ∧ conflict.fields ≠ []
  settled : store.saveState = .saved → store.queue = [] ∧ store.active = none ∧ store.conflictItem = none
  ordered : Ordered store.history.made (store.history.sent.map fun op => (op.1, op.2.changes)) (tagged store.waiting)
  accounted : Accounted store.history (tagged store.waiting)
  reported : ∀ errors, store.history.reported = some errors →
    store.errors = errors ∧ store.active = none ∧ store.queue = []
  displayed : store.values = store.snapshot.map fun snapshot => replay snapshot none store.waiting

/-- What the user does with a conflict first, and what comes back. -/
def Careful [DecidableEq ν] (store : SettingsProvider ν ε) : StoreEvent ν ε → Prop
  | .retry => store.conflictItem = none
  | .acceptSnapshot _ => store.conflictItem = none
  | .refreshed _ _ => store.conflictItem = none
  | .patched place (.ok result) => ∀ item, store.patches[place]? = some item → Answerable store item result
  | .checked place (some result) => ∀ item message, store.checks[place]? = some (item, message) →
      Answerable store item result
  | _ => True
where
  /-- A rejection finds no further edit waiting, and a second conflict has a field to ask for. -/
  Answerable (store : SettingsProvider ν ε) (item : QueueItem ν) : SettingsPatchResult ν ε → Prop
    | .saved _ _ => True
    | .conflict snapshot => item.conflictRetries.getD 0 < 1 ∨ SettingsProvider.changedFields item snapshot ≠ []
    | .rejected _ _ => store.queue = []

section Steps

variable {store : SettingsProvider ν ε}

theorem waiting_of_active {item : QueueItem ν} (active : store.active = some item) :
    store.waiting = item :: store.queue := by
  rw [SettingsProvider.waiting, SettingsProvider.held, active]
  rfl

theorem waiting_of_free (active : store.active = none) (free : store.conflictItem = none) :
    store.waiting = store.queue := by
  rw [SettingsProvider.waiting, SettingsProvider.held, active, free]
  rfl

theorem waiting_of_conflict {item : QueueItem ν} (active : store.active = none)
    (there : store.conflictItem = some item) :
    store.waiting =
      { item with changes := SettingsProvider.keptChanges store.discardedConflictTargets item } :: store.queue := by
  rw [SettingsProvider.waiting, SettingsProvider.held, active, there]
  rfl

/-- While nothing is on its way or asked about, the first edit can be sent. -/
theorem Sound.drain (sound : Sound store) (quiet : store.history.reported = none) : Sound store.drain := by
  unfold SettingsProvider.drain
  split
  · rename_i snapshot active paused there
    -- Nothing is asked about, as that would have paused the store.
    have free : store.conflictItem = none := by
      by_contra present
      have held := (sound.asked (Option.isSome_iff_ne_none.mpr present)).1
      rw [paused] at held
      cases held
    have before := waiting_of_free active free
    split
    · rename_i empty
      exact ⟨sound.one, sound.busy, sound.asked, fun _ => ⟨empty, active, free⟩, sound.ordered, sound.accounted,
        sound.reported, sound.displayed⟩
    · rename_i item queue split
      have tags : tagged store.waiting = (item.call, item.changes) :: tagged queue := by
        rw [before, split]
        rfl
      refine ⟨?_, ?_, ?_, ?_, ?_, ?_, ?_, ?_⟩
      · have one := sound.one
        rw [active, Option.toList_none, List.append_eq_nil_iff] at one
        simp [one.1, one.2]
      · exact fun _ => ⟨paused, by rw [there]; rfl, free⟩
      · intro held
        rw [free] at held
        cases held
      · intro saved
        cases saved
      · -- The item is now both sent and waiting for its answer.
        have ordered := sound.ordered
        rw [tags] at ordered
        have sent := ordered.send
        simpa [waiting_of_active, tagged] using sent
      · have accounted := sound.accounted
        rw [tags] at accounted
        exact accounted
      · intro errors reported
        rw [quiet] at reported
        cases reported
      · have displayed := sound.displayed
        rw [before, split] at displayed
        exact displayed
  · exact sound

theorem tagged_append (front back : List (QueueItem ν)) : tagged (front ++ back) = tagged front ++ tagged back :=
  List.map_append

/-- More edits are replayed on top of the others. -/
theorem replay_append (snapshot : SettingsSnapshot ν) (items : List (QueueItem ν)) (item : QueueItem ν) :
    replay snapshot none (items ++ [item]) = item.changes.foldl applyLocalChange (replay snapshot none items) := by
  simp [replay, List.foldl_append]

theorem waiting_enqueue (store : SettingsProvider ν ε) (changes : List (SettingChange ν)) :
    (store.enqueue changes).waiting =
      store.waiting ++ [⟨store.nextOperation, changes, none, none, store.history.made.length⟩] := by
  simp only [SettingsProvider.waiting, SettingsProvider.held, SettingsProvider.enqueue, List.append_assoc]

/-- An edit joins the others and is shown at once. -/
theorem Sound.save (sound : Sound store) (changes : List (SettingChange ν)) : Sound (store.save changes) := by
  refine Sound.drain ?_ rfl
  refine ⟨sound.one, sound.busy, sound.asked, ?_, ?_, ?_, ?_, ?_⟩
  · intro saved
    cases saved
  · rw [waiting_enqueue, tagged_append]
    exact sound.ordered.make changes
  · rw [waiting_enqueue, tagged_append]
    intro made all there change inside
    simp only [SettingsProvider.enqueue] at there
    by_cases old : made < store.history.made.length
    · rw [List.getElem?_append_left old] at there
      -- An earlier change is where it was.
      rcases sound.accounted made all there change inside with ⟨found, waits, same⟩ | rest
      · exact Or.inl ⟨found, List.mem_append_left _ waits, same⟩
      · exact Or.inr rest
    · have last := (List.getElem?_eq_some_iff.mp there).1
      rw [List.length_append, List.length_singleton] at last
      obtain rfl : made = store.history.made.length := by omega
      rw [List.getElem?_concat_length, Option.some.injEq] at there
      refine Or.inl ⟨(store.history.made.length, changes), by simp [tagged], rfl, ?_⟩
      rw [there]
      exact inside
  · intro errors reported
    cases reported
  · rw [waiting_enqueue]
    simp only [SettingsProvider.enqueue, sound.displayed, Option.map_map]
    congr 1
    funext snapshot
    rw [Function.comp_apply, replay_append]

theorem Sound.retry (sound : Sound store) (free : store.conflictItem = none) : Sound store.retry := by
  unfold SettingsProvider.retry
  refine Sound.drain ?_ rfl
  refine ⟨sound.one, ?_, ?_, ?_, sound.ordered, sound.accounted, ?_, sound.displayed⟩
  · exact fun sending => ⟨rfl, (sound.busy sending).2⟩
  · intro held
    rw [free] at held
    cases held
  · intro saved
    cases saved
  · intro errors reported
    cases reported

/-- Snapshots that are shown have the edits on them, as long as none is held for the user. -/
theorem replay_waiting (free : store.conflictItem = none) (snapshot : SettingsSnapshot ν) :
    replay snapshot store.active store.queue = replay snapshot none store.waiting := by
  cases active : store.active with
  | none => rw [waiting_of_free active free]
  | some item =>
    rw [waiting_of_active active]
    rfl

theorem Sound.acceptSnapshot (sound : Sound store) (free : store.conflictItem = none) (next : SettingsSnapshot ν) :
    Sound (store.acceptSnapshot next) := by
  refine ⟨sound.one, ?_, ?_, sound.settled, sound.ordered, sound.accounted, sound.reported, ?_⟩
  · exact fun sending => ⟨(sound.busy sending).1, rfl, (sound.busy sending).2.2⟩
  · intro held
    rw [SettingsProvider.acceptSnapshot, free] at held
    cases held
  · exact congrArg some (replay_waiting free next)

theorem Sound.refresh (sound : Sound store) (unknown : Bool) : Sound (store.refresh unknown) :=
  ⟨sound.one, sound.busy, sound.asked, sound.settled, sound.ordered, sound.accounted, sound.reported, sound.displayed⟩

theorem Sound.refreshed (sound : Sound store) (free : store.conflictItem = none) (place : Nat)
    (answer : Except Text (SettingsSnapshot ν)) : Sound (store.refreshed place answer) := by
  unfold SettingsProvider.refreshed
  split
  · exact sound
  · rename_i unknown there
    -- A store that is blocked claims nothing to be saved.
    have blocked {after : SettingsProvider ν ε} (done : Sound after) :
        Sound (if unknown then { after with saveState := .blocked } else after) := by
      split
      · exact ⟨done.one, done.busy, done.asked, fun saved => (nomatch saved), done.ordered, done.accounted,
          done.reported, done.displayed⟩
      · exact done
    refine blocked ?_
    cases answer with
    | error message =>
      exact ⟨sound.one, sound.busy, sound.asked, fun saved => (nomatch saved), sound.ordered, sound.accounted,
        sound.reported, sound.displayed⟩
    | ok next =>
      refine ⟨sound.one, ?_, ?_, ?_, sound.ordered, sound.accounted, sound.reported, ?_⟩
      · exact fun sending => ⟨(sound.busy sending).1, rfl, (sound.busy sending).2.2⟩
      · intro held
        rw [free] at held
        cases held
      · intro saved
        simp only [ite_eq_right_iff, reduceCtorEq, imp_false, Bool.or_eq_true, not_or, Bool.not_eq_true',
          Bool.not_eq_false, List.isEmpty_iff, Bool.not_eq_true, Option.isSome_eq_false_iff,
          Option.isNone_iff_eq_none] at saved
        exact ⟨saved.2, saved.1, free⟩
      · exact congrArg some (replay_waiting free next)

/-- The first edit is done once an answer has settled it. -/
theorem Accounted.done {history after : EditHistory ν} {item : Nat × List (SettingChange ν)}
    {rest : List (Nat × List (SettingChange ν))} (accounted : Accounted history (item :: rest))
    (made : after.made = history.made) (saved : history.saved ⊆ after.saved)
    (rejected : history.rejected ⊆ after.rejected) (discarded : after.discarded = history.discarded)
    (settled : item ∈ after.saved ∨ item ∈ after.rejected) : Accounted after rest := by
  intro call changes there change inside
  rw [made] at there
  obtain ⟨found, waits, same⟩ | ⟨found, known, same⟩ | ⟨found, known, same⟩ | given :=
    accounted call changes there change inside
  · rcases List.mem_cons.mp waits with rfl | waits
    · rcases settled with known | known
      · exact Or.inr (Or.inl ⟨found, known, same⟩)
      · exact Or.inr (Or.inr (Or.inl ⟨found, known, same⟩))
    · exact Or.inl ⟨found, waits, same⟩
  · exact Or.inr (Or.inl ⟨found, saved known, same⟩)
  · exact Or.inr (Or.inr (Or.inl ⟨found, rejected known, same⟩))
  · rw [← discarded] at given
    exact Or.inr (Or.inr (Or.inr given))

/-- All changes of an item are kept while none is given up. -/
theorem keptChanges_nil (item : QueueItem ν) : SettingsProvider.keptChanges [] item = item.changes := by
  simp [SettingsProvider.keptChanges]

/-- A store that has nothing on its way and nothing to ask about keeps what its queue has. -/
theorem Sound.of_free (active : store.active = none) (free : store.conflictItem = none) (patches : store.patches = [])
    (checks : store.checks = []) (settled : store.saveState = .saved → store.queue = [])
    (ordered : Ordered store.history.made (store.history.sent.map fun op => (op.1, op.2.changes)) (tagged store.queue))
    (accounted : Accounted store.history (tagged store.queue))
    (reported : ∀ errors, store.history.reported = some errors → store.errors = errors ∧ store.queue = [])
    (displayed : store.values = store.snapshot.map fun snapshot => replay snapshot none store.queue) :
    Sound store := by
  rw [← waiting_of_free active free] at ordered accounted displayed
  refine ⟨by rw [patches, checks, active]; rfl, ?_, ?_, ?_, ordered, accounted, ?_, displayed⟩
  · intro sending
    rw [active] at sending
    cases sending
  · intro held
    rw [free] at held
    cases held
  · exact fun saved => ⟨settled saved, active, free⟩
  · exact fun errors there => ⟨(reported errors there).1, active, (reported errors there).2⟩

/-- A store that asks about an item keeps the item's changes in front of its queue. -/
theorem Sound.of_conflict {item : QueueItem ν} {snapshot : SettingsSnapshot ν} {conflict : SettingsConflict ν}
    (active : store.active = none) (held : store.conflictItem = some item) (paused : store.paused = true)
    (latest : store.snapshot = some snapshot) (shown : store.conflict = some conflict) (asks : conflict.fields ≠ [])
    (patches : store.patches = []) (checks : store.checks = []) (unsaved : store.saveState ≠ .saved)
    (ordered : Ordered store.history.made (store.history.sent.map fun op => (op.1, op.2.changes))
      ((item.call, SettingsProvider.keptChanges store.discardedConflictTargets item) :: tagged store.queue))
    (accounted : Accounted store.history
      ((item.call, SettingsProvider.keptChanges store.discardedConflictTargets item) :: tagged store.queue))
    (quiet : store.history.reported = none)
    (displayed : store.values =
      some (replay snapshot
        (some { item with changes := SettingsProvider.keptChanges store.discardedConflictTargets item })
        store.queue)) :
    Sound store := by
  have waiting := waiting_of_conflict active held
  refine ⟨by rw [patches, checks, active]; rfl, ?_, ?_, fun saved => absurd saved unsaved, ?_, ?_, ?_, ?_⟩
  · intro sending
    rw [active] at sending
    cases sending
  · exact fun _ => ⟨paused, by rw [latest]; rfl, conflict, shown, asks⟩
  · rw [waiting]
    exact ordered
  · rw [waiting]
    exact accounted
  · intro errors reported
    rw [quiet] at reported
    cases reported
  · rw [waiting, latest, displayed]
    rfl

/-- While an edit is on its way, nothing is asked about, reported or claimed to be saved. -/
theorem Sound.sending (sound : Sound store) {item : QueueItem ν} (active : store.active = some item) :
    store.conflictItem = none ∧ store.snapshot.isSome = true ∧ store.saveState ≠ .saved ∧
      store.history.reported = none := by
  have busy := sound.busy (by rw [active]; rfl)
  refine ⟨busy.2.2, busy.2.1, ?_, ?_⟩
  · intro saved
    have idle := (sound.settled saved).2.1
    rw [active] at idle
    cases idle
  · by_contra present
    obtain ⟨errors, reported⟩ := Option.ne_none_iff_exists'.mp present
    have idle := (sound.reported errors reported).2.1
    rw [active] at idle
    cases idle

/-- An answer settles the edit that is on its way, sends it again, or holds it for the user. -/
theorem Sound.settle [DecidableEq ν] (sound : Sound store) {item : QueueItem ν} (active : store.active = some item)
    {result : SettingsPatchResult ν ε} (careful : Careful.Answerable store item result) :
    Sound (SettingsProvider.settle { store with patches := [], checks := [] } item result) := by
  obtain ⟨free, known, unsaved, quiet⟩ := sound.sending active
  have ordered := sound.ordered
  have accounted := sound.accounted
  rw [waiting_of_active active] at ordered accounted
  cases result with
  | saved snapshot effects =>
    refine Sound.drain (.of_free rfl free rfl rfl ?_ ordered.done ?_ ?_ rfl) quiet
    · exact fun saved => absurd saved unsaved
    · exact accounted.done rfl (List.subset_append_left _ _) (List.Subset.refl _) rfl (Or.inl (by simp))
    · intro errors reported
      rw [quiet] at reported
      cases reported
  | conflict snapshot =>
    unfold SettingsProvider.settle
    dsimp only
    split
    · -- The edit is the first of the queue again.
      refine Sound.drain (.of_free rfl free rfl rfl ?_ ordered accounted ?_ rfl) quiet
      · exact fun saved => absurd saved unsaved
      · intro errors reported
        rw [quiet] at reported
        cases reported
    · rename_i decide
      have asks : SettingsProvider.changedFields item snapshot ≠ [] := by
        rcases careful with fresh | asks
        · simp only [Bool.and_eq_true, decide_eq_true_eq, not_and, List.isEmpty_iff] at decide
          exact fun nothing => decide nothing fresh
        · exact asks
      refine .of_conflict rfl rfl rfl rfl rfl ?_ rfl rfl (by simp) ?_ ?_ quiet ?_
      · exact fun nothing => asks (List.map_eq_nil_iff.mp nothing)
      · rw [keptChanges_nil]
        exact ordered
      · rw [keptChanges_nil]
        exact accounted
      · rw [keptChanges_nil]
  | rejected errors snapshot =>
    have empty : store.queue = [] := careful
    unfold SettingsProvider.settle
    dsimp only
    rw [if_pos (by rw [empty]; rfl)]
    refine .of_free rfl free rfl rfl (fun _ => empty) ordered.done ?_ ?_ ?_
    · exact accounted.done rfl (List.Subset.refl _) (List.subset_append_left _ _) rfl (Or.inr (by simp))
    · exact fun shown reported => ⟨Option.some.inj reported, empty⟩
    · obtain ⟨before, there⟩ := Option.isSome_iff_exists.mp known
      cases snapshot with
      | none => simp [there]
      | some next => rfl

/-- A patch that is awaited is the only one, and nothing else is awaited for an edit. -/
theorem Sound.patch (sound : Sound store) {place : Nat} {item : QueueItem ν}
    (there : store.patches[place]? = some item) :
    store.active = some item ∧ place = 0 ∧ store.patches = [item] ∧ store.checks = [] := by
  have one := sound.one
  obtain ⟨within, at_place⟩ := List.getElem?_eq_some_iff.mp there
  cases active : store.active with
  | none =>
    rw [active, Option.toList_none, List.append_eq_nil_iff] at one
    rw [one.1] at within
    cases within
  | some sent =>
    rw [active, Option.toList_some, List.append_eq_singleton_iff] at one
    rcases one with ⟨nothing, -⟩ | ⟨only, rest⟩
    · rw [nothing] at within
      cases within
    · obtain rfl : place = 0 := by
        rw [only, List.length_singleton] at within
        omega
      simp only [only, List.getElem_cons_zero] at at_place
      rw [at_place] at only
      exact ⟨by rw [at_place], rfl, only, List.map_eq_nil_iff.mp rest⟩

/-- So is a question about an operation. -/
theorem Sound.check (sound : Sound store) {place : Nat} {item : QueueItem ν} {message : Text}
    (there : store.checks[place]? = some (item, message)) :
    store.active = some item ∧ place = 0 ∧ store.patches = [] ∧ store.checks = [(item, message)] := by
  have one := sound.one
  obtain ⟨within, at_place⟩ := List.getElem?_eq_some_iff.mp there
  cases active : store.active with
  | none =>
    rw [active, Option.toList_none, List.append_eq_nil_iff, List.map_eq_nil_iff] at one
    rw [one.2] at within
    cases within
  | some sent =>
    rw [active, Option.toList_some, List.append_eq_singleton_iff, List.map_eq_nil_iff] at one
    rcases one with ⟨nothing, only⟩ | ⟨-, rest⟩
    · obtain ⟨entry, only, same⟩ := List.map_eq_singleton_iff.mp only
      obtain rfl : place = 0 := by
        rw [only, List.length_singleton] at within
        omega
      simp only [only, List.getElem_cons_zero] at at_place
      rw [at_place] at only same
      exact ⟨by rw [← same], rfl, nothing, only⟩
    · rw [rest] at within
      cases within

theorem Sound.patched [DecidableEq ν] (sound : Sound store) {place : Nat}
    {answer : Except Text (SettingsPatchResult ν ε)} (careful : Careful store (.patched place answer)) :
    Sound (store.patched place answer) := by
  unfold SettingsProvider.patched
  split
  · exact sound
  · rename_i item there
    obtain ⟨active, rfl, only, checks⟩ := sound.patch there
    obtain ⟨free, known, unsaved, quiet⟩ := sound.sending active
    cases answer with
    | ok result =>
      have settled := sound.settle active (careful item there)
      simpa only [only, checks, List.eraseIdx_cons_zero] using settled
    | error message =>
      refine ⟨?_, sound.busy, sound.asked, fun saved => (nomatch saved), sound.ordered, sound.accounted,
        sound.reported, sound.displayed⟩
      simp [only, checks, active]

theorem Sound.checked [DecidableEq ν] (sound : Sound store) {place : Nat}
    {answer : Option (SettingsPatchResult ν ε)} (careful : Careful store (.checked place answer)) :
    Sound (store.checked place answer) := by
  unfold SettingsProvider.checked
  split
  · exact sound
  · rename_i item message there
    obtain ⟨active, rfl, patches, only⟩ := sound.check there
    obtain ⟨free, known, unsaved, quiet⟩ := sound.sending active
    cases answer with
    | some result =>
      have settled := sound.settle active (careful item message there)
      simpa only [only, patches, List.eraseIdx_cons_zero] using settled
    | none =>
      have ordered := sound.ordered
      have accounted := sound.accounted
      have displayed := sound.displayed
      rw [waiting_of_active active] at ordered accounted displayed
      -- The edit is the first of the queue again, and waits there.
      apply Sound.refresh
      refine .of_free rfl free patches ?_ (fun saved => (nomatch saved)) ordered accounted ?_ displayed
      · simp [only]
      · intro errors reported
        rw [quiet] at reported
        cases reported

/-- What the user gave up is accounted for by its field. -/
theorem Accounted.give_up {history : EditHistory ν} {call : Nat} {before kept : List (SettingChange ν)}
    {rest : List (Nat × List (SettingChange ν))} (accounted : Accounted history ((call, before) :: rest))
    (after : EditHistory ν) (made : after.made = history.made) (saved : after.saved = history.saved)
    (rejected : after.rejected = history.rejected) (discarded : history.discarded ⊆ after.discarded)
    (left : ∀ change ∈ before, change ∈ kept ∨ (call, changeTarget change) ∈ after.discarded) :
    Accounted after ((call, kept) :: rest) := by
  intro made_by changes there change inside
  rw [made] at there
  rw [saved, rejected]
  obtain ⟨found, waits, same⟩ | ⟨found, known, same⟩ | ⟨found, known, same⟩ | given :=
    accounted made_by changes there change inside
  · rcases List.mem_cons.mp waits with rfl | waits
    · obtain ⟨rfl, inside⟩ := same
      rcases left change inside with stays | given
      · exact Or.inl ⟨_, List.mem_cons_self, rfl, stays⟩
      · exact Or.inr (Or.inr (Or.inr given))
    · exact Or.inl ⟨found, List.mem_cons_of_mem _ waits, same⟩
  · exact Or.inr (Or.inl ⟨found, known, same⟩)
  · exact Or.inr (Or.inr (Or.inl ⟨found, known, same⟩))
  · exact Or.inr (Or.inr (Or.inr (discarded given)))

/-- An item without changes does not wait. -/
theorem Accounted.drop {history : EditHistory ν} {call : Nat} {rest : List (Nat × List (SettingChange ν))}
    (accounted : Accounted history ((call, []) :: rest)) : Accounted history rest := by
  intro made_by changes there change inside
  obtain ⟨found, waits, same⟩ | known := accounted made_by changes there change inside
  · rcases List.mem_cons.mp waits with rfl | waits
    · cases same.2
    · exact Or.inl ⟨found, waits, same⟩
  · exact Or.inr known

/-- A field that is decided takes its changes off, if they are not to be kept. -/
theorem keptChanges_decided (discarded : List Text) (field : Text) (keepEdited : Bool) (item : QueueItem ν) :
    SettingsProvider.keptChanges (if keepEdited then discarded else field :: discarded) item =
      (SettingsProvider.keptChanges discarded item).filter fun change => keepEdited || changeTarget change ≠ field := by
  cases keepEdited with
  | true => simp [SettingsProvider.keptChanges]
  | false =>
    simp only [SettingsProvider.keptChanges, Bool.false_eq_true, if_false, List.filter_filter, Bool.false_or]
    refine List.filter_congr fun change _ => ?_
    simp

/-- An item without changes is not worth replaying. -/
theorem replay_if_any (snapshot : SettingsSnapshot ν) (item : QueueItem ν) (queue : List (QueueItem ν)) :
    replay snapshot (if item.changes.isEmpty then none else some item) queue = replay snapshot (some item) queue := by
  split
  · rename_i empty
    simp [replay, List.isEmpty_iff.mp empty]
  · rfl

/-- A field that is decided leaves the other fields to be asked about, or sends what is left. -/
theorem Sound.resolveConflict (sound : Sound store) (field : Text) (keepEdited : Bool) :
    Sound (store.resolveConflict field keepEdited) := by
  unfold SettingsProvider.resolveConflict
  split
  · rename_i item latest conflict held there shown
    split
    · exact sound
    · have asked := sound.asked (by rw [held]; rfl)
      have active : store.active = none := by
        by_contra sending
        have busy := sound.busy (Option.isSome_iff_ne_none.mpr sending)
        rw [held] at busy
        cases busy.2.2
      have one := sound.one
      rw [active, Option.toList_none, List.append_eq_nil_iff, List.map_eq_nil_iff] at one
      have ordered := sound.ordered
      have accounted := sound.accounted
      rw [waiting_of_conflict active held] at ordered accounted
      have decided := keptChanges_decided store.discardedConflictTargets field keepEdited item
      generalize (if keepEdited then store.discardedConflictTargets
        else field :: store.discardedConflictTargets) = discarded at decided
      generalize given :
        (if keepEdited then store.history.discarded else (item.call, field) :: store.history.discarded) = gone
      -- Fewer changes are kept, and those that are not were given up for their field.
      have fewer : (SettingsProvider.keptChanges discarded item).Sublist
          (SettingsProvider.keptChanges store.discardedConflictTargets item) := by
        rw [decided]
        exact List.filter_sublist
      have left : ∀ change ∈ SettingsProvider.keptChanges store.discardedConflictTargets item,
          change ∈ SettingsProvider.keptChanges discarded item ∨ (item.call, changeTarget change) ∈ gone := by
        intro change inside
        rw [decided, List.mem_filter, ← given]
        cases keepEdited with
        | true => exact Or.inl ⟨inside, rfl⟩
        | false =>
          by_cases same : changeTarget change = field
          · exact Or.inr (by simp [same])
          · exact Or.inl ⟨inside, by simpa using same⟩
      have earlier : store.history.discarded ⊆ gone := by
        rw [← given]
        split
        · exact List.Subset.refl _
        · exact List.subset_cons_self _ _
      have less := ordered.shrink fewer
      have accounted_for :=
        accounted.give_up { store.history with discarded := gone, reported := none } rfl rfl rfl earlier left
      dsimp only
      split
      · rename_i remaining
        refine .of_conflict active held asked.1 there rfl ?_ one.1 one.2 ?_ less accounted_for rfl ?_
        · simpa using remaining
        · intro saved
          have idle := (sound.settled saved).2.2
          rw [held] at idle
          cases idle
        · exact congrArg some
            (replay_if_any latest { item with changes := SettingsProvider.keptChanges discarded item } store.queue)
      · refine Sound.drain ?_ rfl
        generalize SettingsProvider.keptChanges discarded item = changes at less accounted_for
        cases changes with
        | nil =>
          refine .of_free active rfl one.1 one.2 ?_ less.done accounted_for.drop ?_ (by rw [there]; rfl)
          · intro saved
            simpa using saved
          · intro errors reported
            cases reported
        | cons change changes =>
          refine .of_free active rfl one.1 one.2 ?_ less accounted_for ?_ (by rw [there]; rfl)
          · intro saved
            simp at saved
          · intro errors reported
            cases reported
  · exact sound

/-- Every step keeps it, with a conflict decided before anything else. -/
theorem Sound.step [DecidableEq ν] (sound : Sound store) {event : StoreEvent ν ε} (careful : Careful store event) :
    Sound (store.step event) := by
  cases event with
  | save changes => exact sound.save changes
  | retry => exact sound.retry careful
  | resolveConflict field keepEdited => exact sound.resolveConflict field keepEdited
  | acceptSnapshot next => exact sound.acceptSnapshot careful next
  | refresh => exact sound.refresh false
  | patched place answer => exact sound.patched careful
  | checked place answer => exact sound.checked careful
  | refreshed place answer => exact sound.refreshed careful place answer

end Steps

/-! ## Whole runs -/

/-- Where a change of a call is. -/
def Placed (store : SettingsProvider ν ε) (call : Nat) (change : SettingChange ν) : Prop :=
  (∃ item ∈ store.queue, item.call = call ∧ change ∈ item.changes) ∨
    (∃ item, store.active = some item ∧ item.call = call ∧ change ∈ item.changes) ∨
    (∃ item conflict, store.conflictItem = some item ∧ store.conflict = some conflict ∧ conflict.fields ≠ [] ∧
      item.call = call ∧ change ∈ item.changes ∧ changeTarget change ∉ store.discardedConflictTargets) ∨
    (∃ item ∈ store.history.saved, item.1 = call ∧ change ∈ item.2) ∨
    (∃ item ∈ store.history.rejected, item.1 = call ∧ change ∈ item.2) ∨
    (call, changeTarget change) ∈ store.history.discarded

/-- No edit is lost: it has a place, is sent in its turn, and is shown, and what was rejected is reported. -/
structure NoEditLost (store : SettingsProvider ν ε) : Prop where
  inFlight : store.patches.length ≤ 1
  placed : ∀ call changes, store.history.made[call]? = some changes → ∀ change ∈ changes, Placed store call change
  reported : ∀ errors, store.history.reported = some errors → store.errors = errors
  saved : store.saveState = .saved → store.queue = [] ∧ store.active = none ∧ store.conflictItem = none
  inTurn : store.history.sent.Pairwise fun earlier later =>
    earlier.1 < later.1 ∨ (earlier.1 = later.1 ∧ later.2.changes.Sublist earlier.2.changes)
  sent : ∀ op ∈ store.history.sent, ∃ changes, store.history.made[op.1]? = some changes ∧ op.2.changes.Sublist changes
  displayed : ∀ snapshot, store.snapshot = some snapshot →
    store.values = some (replay snapshot store.held store.queue)

/-- What waits has one of the places. -/
theorem Sound.placed {store : SettingsProvider ν ε} (sound : Sound store) {call : Nat} {change : SettingChange ν}
    {changes : List (SettingChange ν)} (made : store.history.made[call]? = some changes) (inside : change ∈ changes) :
    Placed store call change := by
  obtain ⟨found, waits, same, there⟩ | settled := sound.accounted call changes made change inside
  · obtain ⟨item, unsettled, rfl⟩ := List.mem_map.mp waits
    rcases List.mem_append.mp unsettled with held | queued
    · rw [Option.mem_toList, SettingsProvider.held] at held
      cases active : store.active with
      | some sending =>
        rw [active, Option.some.injEq] at held
        exact Or.inr (Or.inl ⟨sending, active, by rw [held]; exact same, by rw [held]; exact there⟩)
      | none =>
        -- The item is held for the user, without what was given up.
        rw [active] at held
        obtain ⟨whole, present, rfl⟩ := Option.map_eq_some_iff.mp held
        obtain ⟨-, -, conflict, shown, asks⟩ := sound.asked (by rw [present]; rfl)
        obtain ⟨mine, left⟩ := List.mem_filter.mp there
        exact Or.inr (Or.inr (Or.inl ⟨whole, conflict, present, shown, asks, same, mine, by simpa using left⟩))
    · exact Or.inl ⟨item, queued, same, there⟩
  · exact Or.inr (Or.inr (Or.inr settled))

theorem Sound.safe {store : SettingsProvider ν ε} (sound : Sound store) : NoEditLost store where
  inFlight := by
    have length := congrArg List.length sound.one
    have few : store.active.toList.length ≤ 1 := by cases store.active <;> simp
    rw [List.length_append] at length
    omega
  placed _ _ made _ inside := sound.placed made inside
  reported errors there := (sound.reported errors there).1
  saved := sound.settled
  inTurn := List.pairwise_map.mp sound.ordered.sentInOrder
  sent := by
    intro op there
    exact sound.ordered.original _ (List.mem_append_left _ (List.mem_map_of_mem there))
  displayed := by
    intro snapshot there
    rw [sound.displayed, there]
    rfl

end SettingsStore

end Nospacekey
