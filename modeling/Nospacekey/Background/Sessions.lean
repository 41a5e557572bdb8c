import Nospacekey.Background.Sequence
import Nospacekey.Library.Runs

/-! The engine's private session only ever holds the first intents that its generation accepted. -/

namespace Nospacekey

open Runs

namespace BackgroundMailbox

variable {s : BackgroundMailbox} {g p : Nat}

/-- The open session holds what the worker has handled of the generation, or belongs to another one. -/
def Live (s : BackgroundMailbox) (g : Nat) : Prop :=
  (s.workerGeneration = g ∧ s.session = ofGeneration g s.handled) ∨
    (s.workerGeneration ≠ g ∧ ofGeneration g s.handled = [])

/-- The numbers of a mailbox in a generation and a phase. -/
structure Counted (s : BackgroundMailbox) (g p : Nat) : Prop where
  pipeline : s.pipeline = encode g p
  small : p < 4
  raises : g = s.raises + 1
  closeBefore : s.closeBeforeGeneration ≤ g
  raised : ∀ next, s.worker = .raised next → next ≤ g
  spoiled : ∀ generation ∈ s.spoiled, generation < g
  reseeded : ∀ generation ∈ s.reseeded, generation ≤ g
  fresh : p = dirty ↔ g ∉ s.reseeded

/-- The way of the intents through the channel and the worker into the sessions. -/
structure Flow (s : BackgroundMailbox) (g p : Nat) : Prop where
  flow : s.sent = s.handled ++ s.worker.held ++ s.channel
  workerGeneration : s.workerGeneration ≤ g
  owned : ∀ queued ∈ s.session, queued.generation = s.workerGeneration
  checked : ∀ queued, s.worker = .checked queued →
    s.workerGeneration ≤ queued.generation ∧ queued.intent.isClose = false ∧ s.Live queued.generation
  applied : ∀ queued, s.worker = .applied queued →
    s.workerGeneration = queued.generation ∧ queued ∈ s.session ∧ queued ∈ s.handled
  failed : ∀ queued, s.worker = .failed queued → s.workerGeneration = queued.generation ∧ queued ∈ s.handled
  retired : s.worker = .retiring ∨ (∃ next, s.worker = .raised next) → s.workerGeneration < g
  /-- The current generation is live until an intent of it fails or its commit is applied. -/
  live : (∃ queued, s.worker = .failed queued ∧ queued.generation = g) ∨
    (∃ commit ∈ s.handled, commit.intent.isCommitAndClose = true ∧ commit.generation = g) ∨ s.Live g
  synced : p = BackgroundMailbox.synced → s.workerGeneration = g ∧ s.session ≠ []
  fronts : ∀ session ∈ s.session :: s.sessions, ∃ h, session <+: ofGeneration h s.sent

/-- What holds of a mailbox between any two steps, in its generation and phase. -/
structure Sound (s : BackgroundMailbox) (g p : Nat) : Prop where
  counted : s.Counted g p
  sequenced : Sequenced s.producer s.sent g p
  flow : s.Flow g p

/-- A session stays a front of its generation when more is sent. -/
theorem fronts_append {sessions : List (List QueuedIntent)} {sent : List QueuedIntent}
    (fronts : ∀ session ∈ sessions, ∃ h, session <+: ofGeneration h sent) (later : List QueuedIntent) :
    ∀ session ∈ sessions, ∃ h, session <+: ofGeneration h (sent ++ later) := by
  intro session member
  obtain ⟨h, front⟩ := fronts session member
  exact ⟨h, front.trans (by rw [ofGeneration_append]; exact List.prefix_append _ _)⟩

/-- Closing a session leaves only fronts. -/
theorem fronts_close {session : List QueuedIntent} {sessions : List (List QueuedIntent)} {sent : List QueuedIntent}
    (fronts : ∀ other ∈ session :: sessions, ∃ h, other <+: ofGeneration h sent) :
    ∀ other ∈ [] :: session :: sessions, ∃ h, other <+: ofGeneration h sent := by
  intro other member
  obtain rfl | open_ := List.mem_cons.mp member
  · exact ⟨0, List.nil_prefix⟩
  · exact fronts other open_

namespace Sound

/-- The word of a sound mailbox. -/
theorem generation_eq (sound : s.Sound g p) (fits : g < 2 ^ 62) : generation s.pipeline = g := by
  rw [sound.counted.pipeline, generation_encode fits sound.counted.small]

/-- The phase of a sound mailbox. -/
theorem phase_eq (sound : s.Sound g p) (fits : g < 2 ^ 62) : phase s.pipeline = p := by
  rw [sound.counted.pipeline, phase_encode fits sound.counted.small]

/-- The next generation of a sound mailbox. -/
theorem next_eq (sound : s.Sound g p) (fits : g < 2 ^ 62) : nextGeneration s.pipeline = g + 1 := by
  rw [sound.counted.pipeline, nextGeneration_encode fits sound.counted.small]

/-- What was handled was sent. -/
theorem sent_of_handled (sound : s.Sound g p) {queued : QueuedIntent} (handled : queued ∈ s.handled) :
    queued ∈ s.sent := by
  rw [sound.flow.flow]
  exact List.mem_append_left _ (List.mem_append_left _ handled)

/-- What the worker holds was sent. -/
theorem sent_of_held (sound : s.Sound g p) {queued : QueuedIntent} (held : queued ∈ s.worker.held) :
    queued ∈ s.sent := by
  rw [sound.flow.flow]
  exact List.mem_append_left _ (List.mem_append_right _ held)

/-- What the worker holds follows all that it has handled. -/
theorem follows_of_held (sound : s.Sound g p) {queued earlier : QueuedIntent} (held : queued ∈ s.worker.held)
    (handled : earlier ∈ s.handled) : Follows earlier queued := by
  have order := sound.sequenced.order
  rw [sound.flow.flow, List.append_assoc] at order
  exact (List.pairwise_append.mp order).2.2 earlier handled queued (List.mem_append_left _ held)

/-- In a generation that needs a reseed nothing was handled. -/
theorem ofGeneration_handled_of_dirty (sound : s.Sound g dirty) : ofGeneration g s.handled = [] := by
  refine ofGeneration_eq_nil fun queued member => ?_
  obtain close | older := sound.sequenced.dirty rfl queued (sound.sent_of_handled member)
  · exact .inl close
  · exact .inr (Nat.ne_of_lt older)

/-- A generation that has just begun is live. -/
theorem live_succ (sound : s.Sound g p) : s.Live (g + 1) := by
  refine .inr ⟨Nat.ne_of_lt (Nat.lt_succ_of_le sound.flow.workerGeneration), ofGeneration_eq_nil fun queued member => ?_⟩
  exact .inr (Nat.ne_of_lt (Nat.lt_succ_of_le (sound.sequenced.within queued (sound.sent_of_handled member))))

/-- A raised generation is sound, whatever the thread that raised it goes on with. -/
theorem raise (sound : s.Sound g p) (fits : g < 2 ^ 62) {producer : Producer} {worker : MailboxWorker}
    (spoiled : List Nat) {answer : Bool} (calling : Calling producer s.sent (g + 1) dirty)
    (working : worker = s.worker ∨ ((∃ queued, s.worker = .failed queued) ∧ worker = .raised (g + 1)))
    (left : ∀ generation ∈ spoiled, generation < g + 1) :
    Sound { s.advanceToDirty with producer, worker, spoiled, answer } (g + 1) dirty := by
  have held : worker.held = s.worker.held := by
    obtain rfl | ⟨⟨queued, failed⟩, rfl⟩ := working
    · rfl
    · rw [failed]
      rfl
  have newer : g + 1 ∉ s.reseeded := fun member => absurd (sound.counted.reseeded _ member) (Nat.not_succ_le_self g)
  refine
    { counted :=
        { pipeline := by rw [advanceToDirty, sound.next_eq fits], small := by decide, raises := by rw [sound.counted.raises]; rfl,
          closeBefore := Nat.le_succ_of_le sound.counted.closeBefore, raised := fun next raised => ?_, spoiled := left,
          reseeded := fun _ member => Nat.le_succ_of_le (sound.counted.reseeded _ member), fresh := iff_of_true rfl newer },
      sequenced := sound.sequenced.raise calling,
      flow :=
        { flow := by rw [held]; exact sound.flow.flow, workerGeneration := Nat.le_succ_of_le sound.flow.workerGeneration, owned := sound.flow.owned,
          checked := fun queued checked => ?_, applied := fun queued applied => ?_, failed := fun queued failed => ?_,
          retired := fun _ => Nat.lt_succ_of_le sound.flow.workerGeneration, live := .inr (.inr sound.live_succ),
          synced := nofun, fronts := sound.flow.fronts } }
  all_goals obtain rfl | ⟨_, rfl⟩ := working
  · exact Nat.le_succ_of_le (sound.counted.raised next raised)
  · exact Nat.le_of_eq (MailboxWorker.raised.inj raised).symm
  · exact sound.flow.checked queued checked
  · cases checked
  · exact sound.flow.applied queued applied
  · cases applied
  · exact sound.flow.failed queued failed
  · cases failed

/-- A call of the input thread that neither raises the generation nor sends anything. -/
theorem call (sound : s.Sound g p) {producer : Producer} {answer : Bool} {rejected p' : Nat}
    {closeBefore : Nat} (bound : closeBefore ≤ g) {reseeded : List Nat} (small : p' < 4)
    (sequenced : Sequenced producer s.sent g p') (unsynced : p' = synced → p = synced)
    (below : ∀ generation ∈ reseeded, generation ≤ g) (fresh : p' = dirty ↔ g ∉ reseeded) :
    Sound { s with pipeline := encode g p', producer, answer, rejected, reseeded, closeBeforeGeneration := closeBefore }
      g p' where
  counted :=
    { pipeline := rfl, small, raises := sound.counted.raises, closeBefore := bound, raised := sound.counted.raised,
      spoiled := sound.counted.spoiled, reseeded := below, fresh }
  sequenced := sequenced
  flow :=
    { flow := sound.flow.flow, workerGeneration := sound.flow.workerGeneration, owned := sound.flow.owned, checked := sound.flow.checked,
      applied := sound.flow.applied, failed := sound.flow.failed, retired := sound.flow.retired,
      live := sound.flow.live, synced := fun same => sound.flow.synced (unsynced same), fronts := sound.flow.fronts }

/-- A sent intent waits behind the others. -/
theorem append (sound : s.Sound g p) {producer : Producer} {answer : Bool} {queued : QueuedIntent}
    (sequenced : Sequenced producer (s.sent ++ [queued]) g p) :
    Sound { s with channel := s.channel ++ [queued], sent := s.sent ++ [queued], producer, answer } g p where
  counted := { sound.counted with }
  sequenced := sequenced
  flow :=
    { sound.flow with
      flow := by rw [sound.flow.flow, List.append_assoc]
      fronts := fronts_append sound.flow.fronts [queued] }

/-- A close that the input thread starts. -/
theorem requestClose (sound : s.Sound g p) (fits : g < 2 ^ 62) {spoiled : List Nat}
    (left : ∀ generation ∈ spoiled, generation ≤ g) (last answer : Bool) :
    Sound { s.requestClose spoiled last with answer } (g + 1) dirty := by
  have older : ∀ earlier ∈ s.sent, earlier.generation < g + 1 := fun earlier member =>
    Nat.lt_succ_of_le (sound.sequenced.within earlier member)
  simp only [BackgroundMailbox.requestClose, sound.next_eq fits, sound.generation_eq fits]
  refine sound.raise fits (spoiled ++ g :: s.spoiled) ⟨Nat.le_refl _, rfl, older⟩ (.inl rfl)
    fun generation member => ?_
  obtain now | rfl | before := by simpa using member
  · exact Nat.lt_succ_of_le (left generation now)
  · exact Nat.lt_succ_self _
  · exact Nat.lt_succ_of_lt (sound.counted.spoiled generation before)

/-- A step of the input thread within a call. -/
theorem proceed (sound : s.Sound g p) (fits : g < 2 ^ 62) : ∃ g' p', s.proceed.Sound g' p' := by
  have calling := sound.sequenced.calling
  unfold BackgroundMailbox.proceed
  split
  · rename_i queued sending
    have sequenced := sound.sequenced
    rw [sending] at sequenced calling
    split
    · exact ⟨g, p, sound.append sequenced.send⟩
    · -- A rejected push goes on with a close of its generation.
      have retreats : Sequenced (.retreating queued.generation) s.sent g p :=
        sequenced.leave (fun _ => nofun) calling.within
      exact ⟨g, p, sound.counted.pipeline ▸ sound.call sound.counted.closeBefore sound.counted.small retreats id
        sound.counted.reseeded sound.counted.fresh⟩
  · rename_i generation retreating
    rw [retreating] at calling
    exact ⟨g + 1, dirty, sound.requestClose fits (fun other member => List.mem_singleton.mp member ▸ calling) false false⟩
  · rename_i next last closing
    have sequenced := sound.sequenced
    rw [closing] at sequenced calling
    obtain ⟨within, isDirty, older⟩ := calling
    have announcing : Sequenced (.announcing next last) s.sent g p :=
      sequenced.leave (fun clean => absurd isDirty clean) ⟨within, isDirty, older⟩
    exact ⟨g, p, sound.counted.pipeline ▸ sound.call (Nat.max_le.mpr ⟨sound.counted.closeBefore, within⟩)
      sound.counted.small announcing id sound.counted.reseeded sound.counted.fresh⟩
  · rename_i next last announcing
    have sequenced := sound.sequenced
    rw [announcing] at sequenced calling
    have free : (if last then Producer.gone else .idle) = .idle ∨ (if last then Producer.gone else .idle) = .gone := by
      cases last
      · exact .inl rfl
      · exact .inr rfl
    generalize (if last then Producer.gone else .idle) = after at free
    dsimp only
    split
    · exact ⟨g, p, sound.append (sequenced.announce free)⟩
    · obtain ⟨_, isDirty, _⟩ := calling
      have left : Sequenced after s.sent g p := by
        refine sequenced.leave (fun clean => absurd isDirty clean) ?_
        obtain rfl | rfl := free
        · trivial
        · exact isDirty
      exact ⟨g, p, sound.counted.pipeline ▸ sound.call sound.counted.closeBefore sound.counted.small left id
        sound.counted.reseeded sound.counted.fresh⟩
  · exact ⟨g, p, sound⟩

/-- A call that the input thread starts. -/
theorem start_call (sound : s.Sound g p) (fits : g < 2 ^ 62) (idle : s.producer = .idle) {s' : BackgroundMailbox}
    (starts : s' = s.advanceToDirty ∨ (∃ request segments, s' = s.tryReseed request segments) ∨
      (∃ request segments, s' = s.tryDelta (.insert request segments false)) ∨ s' = s.tryCommitAndClose ∨
      ∃ last, s' = s.requestClose [] last) : ∃ g' p', s'.Sound g' p' := by
  have sequenced := sound.sequenced
  rw [idle] at sequenced
  have unchanged {answer : Bool} : Sound { s with answer } g p :=
    ⟨{ sound.counted with }, sound.sequenced, { sound.flow with }⟩
  obtain rfl | ⟨request, segments, rfl⟩ | ⟨request, segments, rfl⟩ | rfl | ⟨last, rfl⟩ := starts
  · exact ⟨g + 1, dirty, sound.raise fits s.spoiled sound.sequenced.calling_raise (.inl rfl) fun generation member =>
      Nat.lt_succ_of_lt (sound.counted.spoiled generation member)⟩
  · unfold BackgroundMailbox.tryReseed
    rw [sound.phase_eq fits, sound.generation_eq fits]
    split
    · exact ⟨g, p, unchanged⟩
    · rename_i isDirty
      obtain rfl : p = dirty := Classical.byContradiction isDirty
      refine ⟨g, reseedQueued, sound.call sound.counted.closeBefore (by decide) (sequenced.tryReseed request segments) nofun
        (fun generation member => ?_) (iff_of_false nofun fun noMember => noMember List.mem_cons_self)⟩
      obtain rfl | before := List.mem_cons.mp member
      · exact Nat.le_refl _
      · exact sound.counted.reseeded generation before
  · unfold BackgroundMailbox.tryDelta
    rw [sound.phase_eq fits, sound.generation_eq fits]
    split
    · rename_i running
      have offers : Sequenced (.enqueueing ⟨g, .insert request segments false⟩) s.sent g p :=
        sequenced.tryDelta (by simpa using running) rfl rfl (.inl ⟨rfl, rfl⟩)
      exact ⟨g, p, sound.counted.pipeline ▸ sound.call sound.counted.closeBefore sound.counted.small offers id
        sound.counted.reseeded sound.counted.fresh⟩
    · exact ⟨g, p, unchanged⟩
  · unfold BackgroundMailbox.tryCommitAndClose
    rw [sound.phase_eq fits, sound.generation_eq fits]
    split
    · rename_i running
      have open_ : p = reseedQueued ∨ p = BackgroundMailbox.synced := by simpa using running
      have offers : Sequenced (.enqueueing ⟨g, .commitAndClose⟩) s.sent g terminal :=
        sequenced.tryDelta open_ rfl rfl (.inr rfl)
      have seeded : ¬ g ∉ s.reseeded := fun noReseed => by
        have isDirty := sound.counted.fresh.mpr noReseed
        obtain rfl | rfl := open_ <;> cases isDirty
      exact ⟨g, terminal, sound.call sound.counted.closeBefore (by decide) offers
        (fun same => absurd same (by decide)) sound.counted.reseeded (iff_of_false (by decide) seeded)⟩
    · have retreats : Sequenced (.retreating g) s.sent g p := sequenced.leave (fun _ => nofun) (Nat.le_refl _)
      exact ⟨g, p, sound.counted.pipeline ▸ sound.call sound.counted.closeBefore sound.counted.small retreats id
        sound.counted.reseeded sound.counted.fresh⟩
  · exact ⟨g + 1, dirty, sound.requestClose fits (fun _ member => absurd member List.not_mem_nil) last s.answer⟩

/-- A step of the worker that only moves it on. -/
theorem move (sound : s.Sound g p) {worker : MailboxWorker} {rejected closeBefore : Nat} (bound : closeBefore ≤ g)
    (held : worker.held = s.worker.held) (unfailed : ∀ queued, s.worker ≠ .failed queued)
    (plain : worker = .looping ∨ worker = .receiving ∨ (worker = .retiring ∧ s.workerGeneration < g)) :
    Sound { s with worker, rejected, closeBeforeGeneration := closeBefore } g p := by
  refine
    { counted := { sound.counted with closeBefore := bound, raised := fun next raised => ?_ }
      sequenced := sound.sequenced
      flow :=
        { flow := by rw [held]; exact sound.flow.flow, workerGeneration := sound.flow.workerGeneration,
          owned := sound.flow.owned, checked := fun _ checked => ?_, applied := fun _ applied => ?_, failed := fun _ failed => ?_,
          retired := fun retired => ?_, live := ?_, synced := sound.flow.synced, fronts := sound.flow.fronts } }
  · obtain rfl | rfl | ⟨rfl, _⟩ := plain <;> cases raised
  · obtain rfl | rfl | ⟨rfl, _⟩ := plain <;> cases checked
  · obtain rfl | rfl | ⟨rfl, _⟩ := plain <;> cases applied
  · obtain rfl | rfl | ⟨rfl, _⟩ := plain <;> cases failed
  · obtain rfl | rfl | ⟨_, older⟩ := plain
    · obtain none | ⟨_, none⟩ := retired <;> cases none
    · obtain none | ⟨_, none⟩ := retired <;> cases none
    · exact older
  · obtain ⟨queued, failed, _⟩ | live := sound.flow.live
    · exact absurd failed (unfailed queued)
    · exact .inr live

/-- A session that belongs to an older generation is closed. -/
theorem close (sound : s.Sound g p) {worker : MailboxWorker} (held : worker.held = s.worker.held)
    (unfailed : ∀ queued, s.worker ≠ .failed queued) (plain : worker = .looping ∨ worker = .receiving)
    (older : s.workerGeneration < g) : Sound { s.closeTransport with workerGeneration := 0, worker } g p := by
  have positive : 0 < g := by rw [sound.counted.raises]; exact Nat.succ_pos _
  refine
    { counted := { sound.counted with raised := fun next raised => ?_ }
      sequenced := sound.sequenced
      flow :=
        { flow := by rw [held]; exact sound.flow.flow, workerGeneration := Nat.zero_le _, owned := nofun,
          checked := fun _ checked => ?_, applied := fun _ applied => ?_, failed := fun _ failed => ?_,
          retired := fun _ => positive, live := ?_, synced := fun synced => ?_,
          fronts := fronts_close sound.flow.fronts } }
  · obtain rfl | rfl := plain <;> cases raised
  · obtain rfl | rfl := plain <;> cases checked
  · obtain rfl | rfl := plain <;> cases applied
  · obtain rfl | rfl := plain <;> cases failed
  · obtain ⟨queued, failed, _⟩ | commit | ⟨same, _⟩ | ⟨_, none⟩ := sound.flow.live
    · exact absurd failed (unfailed queued)
    · exact .inr (.inl commit)
    · exact absurd same (Nat.ne_of_lt older)
    · exact .inr (.inr (.inr ⟨Nat.ne_of_lt positive, none⟩))
  · exact absurd (sound.flow.synced synced).1 (Nat.ne_of_lt older)

/-- The worker looks for a session to close. -/
theorem look (sound : s.Sound g p) (looping : s.worker = .looping) : s.look.Sound g p := by
  have unfailed : ∀ queued, s.worker ≠ .failed queued := fun queued failed => by
    rw [looping] at failed
    cases failed
  have held : MailboxWorker.receiving.held = s.worker.held := by rw [looping]; rfl
  unfold BackgroundMailbox.look
  split
  · rename_i outdated
    obtain ⟨_, before⟩ : s.workerGeneration ≠ 0 ∧ s.workerGeneration < s.closeBeforeGeneration := by
      simpa using outdated
    exact sound.close held unfailed (.inr rfl) (Nat.lt_of_lt_of_le before sound.counted.closeBefore)
  · exact sound.move sound.counted.closeBefore held unfailed (.inr (.inl rfl))

/-- The worker takes an intent from the channel, or the news that the mailbox is gone. -/
theorem receive (sound : s.Sound g p) (receiving : s.worker = .receiving) : s.receive.Sound g p := by
  have flow := sound.flow.flow
  have live := sound.flow.live
  rw [receiving] at flow live
  unfold BackgroundMailbox.receive
  split
  · rename_i queued channel waiting
    refine
      { counted := { sound.counted with raised := nofun }, sequenced := sound.sequenced,
        flow := { flow := ?_, workerGeneration := sound.flow.workerGeneration, owned := sound.flow.owned, checked := nofun, applied := nofun, failed := nofun,
                  retired := nofun, live := ?_, synced := sound.flow.synced, fronts := sound.flow.fronts } }
    · rw [waiting] at flow
      simpa [MailboxWorker.held] using flow
    · obtain ⟨_, failed, _⟩ | live := live
      · cases failed
      · exact .inr live
  · rename_i waiting
    split
    · rename_i gone
      have calling := sound.sequenced.calling
      rw [gone] at calling
      obtain rfl : p = dirty := calling
      refine
        { counted := { sound.counted with raised := nofun }, sequenced := sound.sequenced,
          flow := { flow := flow, workerGeneration := sound.flow.workerGeneration, owned := nofun, checked := nofun, applied := nofun, failed := nofun,
                    retired := nofun, live := .inr (.inr ?_), synced := nofun, fronts := fronts_close sound.flow.fronts } }
      -- A dropped mailbox has left every generation that an intent was sent in.
      have none := sound.ofGeneration_handled_of_dirty
      by_cases same : s.workerGeneration = g
      · exact .inl ⟨same, none.symm⟩
      · exact .inr ⟨same, none⟩
    · exact sound

/-- What was handled of a generation, with an intent that does not count for it. -/
theorem ofGeneration_handled_append {queued : QueuedIntent} (other : queued.generation ≠ g ∨ queued.intent.isClose = true) :
    ofGeneration g (s.handled ++ [queued]) = ofGeneration g s.handled := by
  rw [ofGeneration_append, ofGeneration_singleton_of_ne other, List.append_nil]

/-- The worker compares the generation of an intent. -/
theorem check (sound : s.Sound g p) (fits : g < 2 ^ 62) {queued : QueuedIntent} (received : s.worker = .received queued) :
    (s.check queued).Sound g p := by
  have flow := sound.flow.flow
  have held : queued ∈ s.worker.held := by rw [received]; exact List.mem_cons_self
  have live : (∃ commit ∈ s.handled, commit.intent.isCommitAndClose = true ∧ commit.generation = g) ∨ s.Live g := by
    obtain ⟨_, failed, _⟩ | live := sound.flow.live
    · rw [received] at failed
      cases failed
    · exact live
  rw [received] at flow
  have positive : 0 < g := by rw [sound.counted.raises]; exact Nat.succ_pos _
  have kept (commit : ∃ commit ∈ s.handled, commit.intent.isCommitAndClose = true ∧ commit.generation = g) :
      ∃ commit ∈ s.handled ++ [queued], commit.intent.isCommitAndClose = true ∧ commit.generation = g :=
    commit.imp fun _ found => ⟨List.mem_append_left _ found.1, found.2⟩
  unfold BackgroundMailbox.check
  rw [sound.generation_eq fits]
  split
  · rename_i stale
    refine
      { counted := { sound.counted with raised := nofun }, sequenced := sound.sequenced,
        flow := { flow := by simpa [MailboxWorker.held] using flow, workerGeneration := sound.flow.workerGeneration, owned := sound.flow.owned,
                  checked := nofun, applied := nofun, failed := nofun, retired := nofun, live := .inr ?_,
                  synced := sound.flow.synced, fronts := sound.flow.fronts } }
    obtain commit | live := live
    · exact .inl (kept commit)
    · exact .inr (by rw [Live]; dsimp only; rw [ofGeneration_handled_append (.inl stale)]; exact live)
  · rename_i current
    have current : queued.generation = g := Classical.byContradiction current
    split
    · rename_i close
      -- The announcement of a generation comes before all of its intents.
      have none : ofGeneration g s.handled = [] := ofGeneration_eq_nil fun earlier handled =>
        .inr (Nat.ne_of_lt (current ▸ (sound.follows_of_held held handled).2 (.inl close)))
      refine
        { counted := { sound.counted with raised := nofun }, sequenced := sound.sequenced,
          flow := { flow := by simpa [MailboxWorker.held, closeTransport] using flow, workerGeneration := Nat.zero_le _, owned := nofun, checked := nofun,
                    applied := nofun, failed := nofun, retired := nofun, live := .inr (.inr (.inr ⟨Nat.ne_of_lt positive, ?_⟩)),
                    synced := fun synced => ?_, fronts := fronts_close sound.flow.fronts } }
      · exact (ofGeneration_handled_append (.inr close)).trans none
      · obtain ⟨same, open_⟩ := sound.flow.synced synced
        obtain ⟨commit, handled, _, generation⟩ | ⟨_, session⟩ | ⟨other, _⟩ := live
        · have newer := (sound.follows_of_held held handled).2 (.inl close)
          omega
        · exact absurd (session.trans none) open_
        · exact absurd same other
    · rename_i noClose
      refine
        { counted := { sound.counted with raised := nofun }, sequenced := sound.sequenced,
          flow := { flow := flow, workerGeneration := sound.flow.workerGeneration, owned := sound.flow.owned, checked := fun other checked => ?_,
                    applied := nofun, failed := nofun, retired := nofun, live := .inr live, synced := sound.flow.synced,
                    fronts := sound.flow.fronts } }
      obtain rfl := MailboxWorker.checked.inj checked
      refine ⟨current ▸ sound.flow.workerGeneration, by simpa using noClose, ?_⟩
      obtain ⟨commit, handled, ended, generation⟩ | live := live
      · have newer := (sound.follows_of_held held handled).2 (.inr (.inl ended))
        omega
      · exact current ▸ live

/-- The session in which a checked intent is applied, fresh or not, holds what was handled of its generation. -/
theorem session_of_checked (sound : s.Sound g p) {queued : QueuedIntent} (checked : s.worker = .checked queued) :
    (if s.workerGeneration ≠ queued.generation then [] else s.session) = ofGeneration queued.generation s.handled := by
  obtain ⟨_, _, ⟨same, session⟩ | ⟨other, none⟩⟩ := sound.flow.checked queued checked
  · rw [if_neg (by simp [same]), session]
  · rw [if_pos other, none]

/-- The worker applies a checked intent. -/
theorem apply (sound : s.Sound g p) {queued : QueuedIntent} (checked : s.worker = .checked queued) (succeeds : Bool) :
    (s.apply queued succeeds).Sound g p := by
  have flow := sound.flow.flow
  have held : queued ∈ s.worker.held := by rw [checked]; exact List.mem_cons_self
  have within := sound.sequenced.within queued (sound.sent_of_held held)
  have session := sound.session_of_checked checked
  obtain ⟨older, noClose, _⟩ := sound.flow.checked queued checked
  have live := sound.flow.live
  rw [checked] at flow live
  -- The transport holds the session of the intent's generation, fresh or not.
  generalize openedEq : (if s.workerGeneration ≠ queued.generation then
    { s.closeTransport with workerGeneration := queued.generation } else s) = opened
  have opened_session : opened.session = ofGeneration queued.generation s.handled := by
    rw [← session, ← openedEq]
    split <;> rfl
  have opened_owned : ∀ other ∈ opened.session, other.generation = opened.workerGeneration := by
    rw [← openedEq]
    split
    · nofun
    · exact sound.flow.owned
  have opened_fronts : ∀ other ∈ opened.session :: opened.sessions, ∃ h, other <+: ofGeneration h s.sent := by
    rw [← openedEq]
    split
    · exact fronts_close sound.flow.fronts
    · exact sound.flow.fronts
  have opened_synced : p = synced → queued.generation = g ∧ opened.session ≠ [] := fun synced => by
    obtain ⟨same, open_⟩ := sound.flow.synced synced
    have current : queued.generation = g := by omega
    rw [← openedEq, if_neg (by simp [same, current])]
    exact ⟨current, open_⟩
  have opened_generation : opened.workerGeneration = queued.generation := by
    rw [← openedEq]
    split
    · rfl
    · rename_i same
      exact Classical.byContradiction same
  have grown : ofGeneration queued.generation (s.handled ++ [queued]) =
      ofGeneration queued.generation s.handled ++ [queued] := by
    rw [ofGeneration_append, ofGeneration_singleton noClose]
  -- Another generation has nothing to do with it.
  have elsewhere (other : queued.generation ≠ g) :
      (∃ commit ∈ s.handled ++ [queued], commit.intent.isCommitAndClose = true ∧ commit.generation = g) ∨
        (queued.generation ≠ g ∧ ofGeneration g (s.handled ++ [queued]) = []) := by
    obtain ⟨_, failed, _⟩ | ⟨commit, handled, ended⟩ | ⟨same, _⟩ | ⟨_, none⟩ := live
    · cases failed
    · exact .inl ⟨commit, List.mem_append_left _ handled, ended⟩
    · omega
    · exact .inr ⟨other, (ofGeneration_handled_append (.inl other)).trans none⟩
  have shared : opened.pipeline = s.pipeline ∧ opened.closeBeforeGeneration = s.closeBeforeGeneration ∧
      opened.channel = s.channel ∧ opened.producer = s.producer ∧ opened.sent = s.sent ∧
      opened.handled = s.handled ∧ opened.spoiled = s.spoiled ∧ opened.reseeded = s.reseeded ∧
      opened.raises = s.raises := by
    rw [← openedEq]
    split <;> exact ⟨rfl, rfl, rfl, rfl, rfl, rfl, rfl, rfl, rfl⟩
  obtain ⟨pipeline, closeBefore, channel, producer, sent, handled, spoiled, reseeded, raises⟩ := shared
  have counted {worker : MailboxWorker} {session : List QueuedIntent} (plain : ∀ next, worker ≠ .raised next) :
      Counted { opened with worker, session, handled := opened.handled ++ [queued] } g p :=
    { pipeline := pipeline.trans sound.counted.pipeline, small := sound.counted.small,
      raises := by dsimp only; rw [raises]; exact sound.counted.raises,
      closeBefore := by dsimp only; rw [closeBefore]; exact sound.counted.closeBefore,
      raised := fun next raised => absurd raised (plain next),
      spoiled := by dsimp only; rw [spoiled]; exact sound.counted.spoiled,
      reseeded := by dsimp only; rw [reseeded]; exact sound.counted.reseeded,
      fresh := by dsimp only; rw [reseeded]; exact sound.counted.fresh }
  have sequenced : Sequenced opened.producer opened.sent g p := by rw [producer, sent]; exact sound.sequenced
  have passed : opened.sent = opened.handled ++ [queued] ++ [] ++ opened.channel := by
    rw [sent, handled, channel, List.append_nil]
    exact flow
  unfold BackgroundMailbox.apply
  dsimp only
  rw [openedEq]
  split
  · refine
      { counted := counted nofun, sequenced,
        flow :=
          { flow := passed, workerGeneration := opened_generation ▸ within, owned := fun other member => ?_, checked := nofun,
            applied := fun other applied => ?_,
            failed := nofun, retired := fun retired => ?_, live := ?_, synced := fun synced => ?_, fronts := ?_ } }
    · obtain earlier | rfl := by simpa using member
      · exact opened_owned other earlier
      · exact opened_generation.symm
    · obtain rfl := MailboxWorker.applied.inj applied
      exact ⟨opened_generation, by simp, by simp⟩
    · obtain none | ⟨_, none⟩ := retired <;> cases none
    · by_cases current : queued.generation = g
      · refine .inr (.inr (.inl ⟨opened_generation.trans current, ?_⟩))
        show opened.session ++ [queued] = ofGeneration g (opened.handled ++ [queued])
        rw [handled, ← current, grown, opened_session]
      · obtain commit | none := elsewhere current
        · exact .inr (.inl (by dsimp only; rw [handled]; exact commit))
        · exact .inr (.inr (.inr (by dsimp only; rw [handled, opened_generation]; exact none)))
    · exact ⟨opened_generation.trans (opened_synced synced).1, by simp⟩
    · intro other member
      obtain rfl | closed := List.mem_cons.mp member
      · refine ⟨queued.generation, ?_⟩
        show opened.session ++ [queued] <+: ofGeneration queued.generation opened.sent
        rw [sent, flow, opened_session, ← grown, MailboxWorker.held, ofGeneration_append _ (s.handled ++ [queued])]
        exact List.prefix_append _ _
      · show ∃ h, other <+: ofGeneration h opened.sent
        rw [sent]
        exact opened_fronts other (List.mem_cons_of_mem _ closed)
  · refine
      { counted := counted nofun, sequenced,
        flow :=
          { flow := passed, workerGeneration := opened_generation ▸ within, owned := opened_owned, checked := nofun, applied := nofun,
            failed := fun other failed => ?_, retired := fun retired => ?_, live := ?_, synced := fun synced => ?_, fronts := ?_ } }
    · obtain rfl := MailboxWorker.failed.inj failed
      exact ⟨opened_generation, by simp⟩
    · obtain none | ⟨_, none⟩ := retired <;> cases none
    · by_cases current : queued.generation = g
      · exact .inl ⟨queued, rfl, current⟩
      · obtain commit | none := elsewhere current
        · exact .inr (.inl (by dsimp only; rw [handled]; exact commit))
        · exact .inr (.inr (.inr (by dsimp only; rw [handled, opened_generation]; exact none)))
    · exact ⟨opened_generation.trans (opened_synced synced).1, (opened_synced synced).2⟩
    · show ∀ other ∈ opened.session :: opened.sessions, ∃ h, other <+: ofGeneration h opened.sent
      rw [sent]
      exact opened_fronts

/-- The worker gives up the generation of an intent that it could not apply. -/
theorem markWorkerFailed (sound : s.Sound g p) (fits : g < 2 ^ 62) {queued : QueuedIntent}
    (failed : s.worker = .failed queued) : ∃ g' p', (s.markWorkerFailed queued).Sound g' p' := by
  obtain ⟨generation, handled⟩ := sound.flow.failed queued failed
  have within := sound.sequenced.within queued (sound.sent_of_handled handled)
  have flow := sound.flow.flow
  rw [failed] at flow
  unfold BackgroundMailbox.markWorkerFailed
  rw [sound.generation_eq fits, sound.next_eq fits]
  split
  · rename_i other
    refine ⟨g, p,
      { counted := { sound.counted with raised := nofun, spoiled := fun spoiled member => ?_ }, sequenced := sound.sequenced,
        flow := { flow := flow, workerGeneration := sound.flow.workerGeneration, owned := sound.flow.owned, checked := nofun, applied := nofun,
                  failed := nofun, retired := fun _ => by dsimp only; omega, live := .inr ?_,
                  synced := sound.flow.synced, fronts := sound.flow.fronts } }⟩
    · obtain rfl | before := List.mem_cons.mp member
      · omega
      · exact sound.counted.spoiled spoiled before
    · obtain ⟨again, same, current⟩ | live := sound.flow.live
      · obtain rfl := MailboxWorker.failed.inj (failed.symm.trans same)
        exact absurd current.symm other
      · exact live
  · refine ⟨g + 1, dirty, sound.raise fits (queued.generation :: s.spoiled) sound.sequenced.calling_raise
      (.inr ⟨⟨queued, failed⟩, rfl⟩) fun spoiled member => ?_⟩
    obtain rfl | before := List.mem_cons.mp member
    · omega
    · exact Nat.lt_succ_of_lt (sound.counted.spoiled spoiled before)

/-- The worker publishes an applied reseed, and closes the session after a commit. -/
theorem finish (sound : s.Sound g p) (fits : g < 2 ^ 62) {queued : QueuedIntent} (applied : s.worker = .applied queued) :
    ∃ p', (s.finish queued).Sound g p' := by
  obtain ⟨generation, session, handled⟩ := sound.flow.applied queued applied
  have within := sound.sequenced.within queued (sound.sent_of_handled handled)
  have flow := sound.flow.flow
  have live := sound.flow.live
  have positive : 0 < g := by rw [sound.counted.raises]; exact Nat.succ_pos _
  rw [applied] at flow live
  unfold BackgroundMailbox.finish
  cases commit : queued.intent.isCommitAndClose with
  | true =>
    have noReseed : queued.intent.isReseed = false := by
      cases intent : queued.intent <;> first | rfl | (rw [intent] at commit; cases commit)
    simp only [noReseed, Bool.false_and, Bool.false_eq_true, if_false, if_true]
    refine ⟨p,
      { counted := { sound.counted with raised := nofun }, sequenced := sound.sequenced,
        flow := { flow := flow, workerGeneration := Nat.zero_le _, owned := nofun, checked := nofun, applied := nofun, failed := nofun,
                  retired := nofun, live := .inr ?_, synced := fun synced => ?_, fronts := fronts_close sound.flow.fronts } }⟩
    · by_cases current : queued.generation = g
      · exact .inl ⟨queued, handled, commit, current⟩
      · obtain ⟨_, failed, _⟩ | ended | ⟨same, _⟩ | ⟨_, none⟩ := live
        · cases failed
        · exact .inl ended
        · omega
        · exact .inr (.inr ⟨Nat.ne_of_lt positive, none⟩)
    · -- A published generation has not been committed.
      obtain ⟨same, _⟩ := sound.flow.synced synced
      have ended := sound.sequenced.terminal queued (sound.sent_of_handled handled) commit (by omega)
      rw [synced] at ended
      exact absurd ended (by decide)
  | false =>
    simp only [Bool.false_eq_true, if_false]
    split
    · rename_i published
      have encoded : s.pipeline = encode queued.generation reseedQueued := by
        simpa using (Bool.and_eq_true_iff.mp published).2
      have current : queued.generation = g := by
        rw [← sound.generation_eq fits, encoded, generation_encode (Nat.lt_of_le_of_lt within fits) (by decide)]
      have queuedPhase : p = reseedQueued := by
        rw [← sound.phase_eq fits, encoded, phase_encode (Nat.lt_of_le_of_lt within fits) (by decide)]
      subst queuedPhase
      have seeded : ¬ g ∉ s.reseeded := fun noReseed => absurd (sound.counted.fresh.mpr noReseed) (by decide)
      refine ⟨BackgroundMailbox.synced,
        { counted :=
            { sound.counted with pipeline := by rw [current], small := by decide, raised := nofun,
                                 fresh := iff_of_false (by decide) seeded },
          sequenced := sound.sequenced.synced,
          flow := { flow := flow, workerGeneration := sound.flow.workerGeneration, owned := sound.flow.owned, checked := nofun, applied := nofun,
                    failed := nofun, retired := nofun, live := .inr ?_,
                    synced := fun _ => ⟨generation.trans current, List.ne_nil_of_mem session⟩, fronts := sound.flow.fronts } }⟩
      obtain ⟨_, failed, _⟩ | live := live
      · cases failed
      · exact live
    · refine ⟨p,
        { counted := { sound.counted with raised := nofun }, sequenced := sound.sequenced,
          flow := { flow := flow, workerGeneration := sound.flow.workerGeneration, owned := sound.flow.owned, checked := nofun, applied := nofun,
                    failed := nofun, retired := nofun, live := .inr ?_, synced := sound.flow.synced, fronts := sound.flow.fronts } }⟩
      obtain ⟨_, failed, _⟩ | live := live
      · cases failed
      · exact live

/-- A step of the worker. -/
theorem work (sound : s.Sound g p) (fits : g < 2 ^ 62) (succeeds : Bool) : ∃ g' p', (s.work succeeds).Sound g' p' := by
  unfold BackgroundMailbox.work
  split
  · rename_i looping
    exact ⟨g, p, sound.look looping⟩
  · rename_i receiving
    exact ⟨g, p, sound.receive receiving⟩
  · rename_i received
    exact ⟨g, p, sound.check fits received⟩
  · rename_i checked
    exact ⟨g, p, sound.apply checked succeeds⟩
  · rename_i applied
    exact ⟨g, sound.finish fits applied⟩
  · rename_i failed
    exact sound.markWorkerFailed fits failed
  · rename_i next raised
    have bound := Nat.max_le.mpr ⟨sound.counted.closeBefore, sound.counted.raised next raised⟩
    exact ⟨g, p, sound.move bound (by rw [raised]; rfl) (by rw [raised]; nofun)
      (.inr (.inr ⟨rfl, sound.flow.retired (.inr ⟨next, raised⟩)⟩))⟩
  · rename_i retiring
    exact ⟨g, p, sound.close (by rw [retiring]; rfl) (by rw [retiring]; nofun) (.inl rfl) (sound.flow.retired (.inl retiring))⟩
  · exact ⟨g, p, sound⟩

/-- A step of either thread. -/
theorem step (sound : s.Sound g p) (fits : g < 2 ^ 62) (op : MailboxOp) : ∃ g' p', (s.step op).Sound g' p' := by
  cases op with
  | proceed => exact sound.proceed fits
  | work succeeds => exact sound.work fits succeeds
  | timeout =>
    simp only [BackgroundMailbox.step]
    split
    · rename_i receiving
      exact ⟨g, p, sound.move sound.counted.closeBefore (by rw [receiving]; rfl) (by rw [receiving]; nofun) (.inl rfl)⟩
    · exact ⟨g, p, sound⟩
  | beginComposition =>
    simp only [BackgroundMailbox.step]
    split
    · rename_i idle
      exact sound.start_call fits idle (.inl rfl)
    · exact ⟨g, p, sound⟩
  | tryReseed request segments =>
    simp only [BackgroundMailbox.step]
    split
    · rename_i idle
      exact sound.start_call fits idle (.inr (.inl ⟨request, segments, rfl⟩))
    · exact ⟨g, p, sound⟩
  | tryInsert request segments =>
    simp only [BackgroundMailbox.step]
    split
    · rename_i idle
      exact sound.start_call fits idle (.inr (.inr (.inl ⟨request, segments, rfl⟩)))
    · exact ⟨g, p, sound⟩
  | tryCommitAndClose =>
    simp only [BackgroundMailbox.step]
    split
    · rename_i idle
      exact sound.start_call fits idle (.inr (.inr (.inr (.inl rfl))))
    · exact ⟨g, p, sound⟩
  | requestClose =>
    simp only [BackgroundMailbox.step]
    split
    · rename_i idle
      exact sound.start_call fits idle (.inr (.inr (.inr (.inr ⟨false, rfl⟩))))
    · exact ⟨g, p, sound⟩
  | drop =>
    simp only [BackgroundMailbox.step]
    split
    · rename_i idle
      exact sound.start_call fits idle (.inr (.inr (.inr (.inr ⟨true, rfl⟩))))
    · exact ⟨g, p, sound⟩

end Sound

/-- The generation is never raised back. -/
theorem raises_le_step (s : BackgroundMailbox) (op : MailboxOp) : s.raises ≤ (s.step op).raises := by
  cases op <;>
    simp only [step, advanceToDirty, BackgroundMailbox.tryReseed, BackgroundMailbox.tryDelta,
      BackgroundMailbox.tryCommitAndClose, BackgroundMailbox.requestClose, BackgroundMailbox.proceed,
      BackgroundMailbox.work, BackgroundMailbox.look, BackgroundMailbox.receive, BackgroundMailbox.check,
      BackgroundMailbox.apply, BackgroundMailbox.finish, BackgroundMailbox.markWorkerFailed, closeTransport]
  all_goals
    repeat' split
  all_goals first
    | exact Nat.le_refl _
    | exact Nat.le_succ _

/-- An intent passes the worker's check only in its own generation. -/
theorem checked_of_step {op : MailboxOp} {queued : QueuedIntent} (checked : (s.step op).worker = .checked queued) :
    s.worker = .checked queued ∨ queued.generation = generation s.pipeline := by
  cases op with
  | work succeeds =>
    simp only [step, BackgroundMailbox.work] at checked
    split at checked
    case h_3 received _ =>
      -- The comparison is the only way to a checked intent.
      unfold BackgroundMailbox.check at checked
      split at checked
      · cases checked
      · rename_i current
        split at checked
        · cases checked
        · obtain rfl := MailboxWorker.checked.inj checked
          exact .inr (Classical.byContradiction current)
    case h_9 => exact .inl checked
    all_goals
      simp only [BackgroundMailbox.look, BackgroundMailbox.receive, BackgroundMailbox.apply, BackgroundMailbox.finish,
        BackgroundMailbox.markWorkerFailed, closeTransport, advanceToDirty] at checked
      repeat' split at checked
    all_goals first
      | cases checked
      | exact .inl checked
  | _ =>
    simp only [step, advanceToDirty, BackgroundMailbox.tryReseed, BackgroundMailbox.tryDelta,
      BackgroundMailbox.tryCommitAndClose, BackgroundMailbox.requestClose, BackgroundMailbox.proceed] at checked
    repeat' split at checked
    all_goals first
      | exact .inl checked
      | cases checked

/-- The mailbox starts sound. -/
theorem start_sound (capacity : Nat) : (start capacity).Sound 1 dirty where
  counted :=
    { pipeline := rfl, small := by decide, raises := rfl, closeBefore := Nat.zero_le _, raised := nofun, spoiled := nofun,
      reseeded := nofun, fresh := iff_of_true rfl nofun }
  sequenced :=
    { within := nofun, order := .nil, seeded := nofun, dirty := nofun, running := fun clean => absurd rfl clean,
      terminal := nofun, calling := trivial }
  flow :=
    { flow := rfl, workerGeneration := Nat.zero_le _, owned := nofun, checked := nofun, applied := nofun, failed := nofun,
      retired := (Or.elim · nofun nofun), live := .inr (.inr (.inr ⟨nofun, rfl⟩)), synced := nofun,
      fronts := fun session member => ⟨0, List.mem_singleton.mp member ▸ List.nil_prefix⟩ }

/-- Every run in which the generation does not wrap around is sound. -/
theorem run_sound (capacity : Nat) (ops : List MailboxOp)
    (few : (exec step (start capacity) ops).raises < 2 ^ 62 - 1) :
    ∃ g p, (exec step (start capacity) ops).Sound g p ∧ g < 2 ^ 62 := by
  -- As raises only grow, the generation has fitted all along.
  refine exec_invariant_all (fun s : BackgroundMailbox => s.raises < 2 ^ 62 - 1 → ∃ g p, s.Sound g p ∧ g < 2 ^ 62)
    (fun s op ih few => ?_) (fun _ => ⟨1, dirty, start_sound capacity, by decide⟩) ops few
  obtain ⟨g, p, sound, fits⟩ := ih (Nat.lt_of_le_of_lt (s.raises_le_step op) few)
  obtain ⟨g', p', sound'⟩ := sound.step fits op
  exact ⟨g', p', sound', by rw [sound'.counted.raises]; omega⟩

/-- What holds of a mailbox between any two steps of its threads. -/
structure PrefixOnly (s : BackgroundMailbox) : Prop where
  /-- A session, open or closed, holds the first intents that its generation accepted, in their order. -/
  fronts : ∀ session ∈ s.session :: s.sessions, ∃ g, session <+: ofGeneration g s.sent
  reseeds : ∀ session ∈ s.session :: s.sessions, ∀ first later, session = first :: later →
    first.intent.isReseed = true
  /-- With its commit, a session holds all that its generation accepted. -/
  commits : ∀ session ∈ s.session :: s.sessions, ∀ commit ∈ session, commit.intent.isCommitAndClose = true →
    session = ofGeneration commit.generation s.sent
  /-- A generation that was left behind passes no further check of the worker. -/
  left : ∀ (op : MailboxOp) queued, queued.generation ∈ s.spoiled → (s.step op).worker = .checked queued →
    s.worker = .checked queued
  /-- A fresh session is opened by a reseed. -/
  opens : ∀ queued, s.worker = .checked queued → s.workerGeneration ≠ queued.generation →
    queued.intent.isReseed = true
  needsReseed : (∀ g ∈ s.spoiled, g < generation s.pipeline) ∧
    (s.needsReseed = true ↔ generation s.pipeline ∉ s.reseeded)
  synced : phase s.pipeline = synced → s.workerGeneration = generation s.pipeline ∧
    ∃ reseed ∈ s.session, reseed.intent.isReseed = true ∧ reseed.generation = generation s.pipeline

/-- In every run in which the generation does not wrap around, the engine's private session only ever
holds the first intents that its generation accepted, and no generation comes back. -/
theorem run_prefixOnly (capacity : Nat) (ops : List MailboxOp)
    (few : (exec step (start capacity) ops).raises < 2 ^ 62 - 1) : (exec step (start capacity) ops).PrefixOnly := by
  obtain ⟨g, p, sound, fits⟩ := run_sound capacity ops few
  generalize exec step (start capacity) ops = s at sound
  have begins : ∀ session ∈ s.session :: s.sessions, ∀ first later, session = first :: later →
      first.intent.isReseed = true := by
    rintro _ member first later rfl
    obtain ⟨h, rest, parts⟩ := sound.flow.fronts _ member
    exact sound.sequenced.first (parts ▸ List.cons_append)
  refine
    { fronts := sound.flow.fronts, reseeds := begins, commits := fun session member commit within ended => ?_,
      left := fun op queued spoiled checked => ?_, opens := fun queued checked other => ?_,
      needsReseed := ⟨?_, ?_⟩, synced := fun synced => ?_ }
  · obtain ⟨h, rest, parts⟩ := sound.flow.fronts session member
    obtain ⟨front, back, rfl⟩ := List.append_of_mem within
    obtain ⟨_, same, _⟩ : _ ∧ commit.generation = h ∧ _ := mem_ofGeneration.mp (parts ▸ List.mem_append_left _ within)
    rw [List.append_assoc, List.cons_append] at parts
    have none := sound.sequenced.last ended parts.symm
    obtain ⟨rfl, rfl⟩ := List.append_eq_nil_iff.mp none
    rw [same]
    exact parts
  · obtain before | current := checked_of_step checked
    · exact before
    · have older := sound.counted.spoiled queued.generation spoiled
      rw [current, sound.generation_eq fits] at older
      exact absurd older (Nat.lt_irrefl _)
  · -- Nothing of the generation was handled, so this is its first intent.
    obtain ⟨_, noClose, ⟨same, _⟩ | ⟨_, none⟩⟩ := sound.flow.checked queued checked
    · exact absurd same other
    · have flow := sound.flow.flow
      rw [checked] at flow
      have parts : ofGeneration queued.generation s.sent = queued :: ofGeneration queued.generation s.channel := by
        rw [flow, MailboxWorker.held, ofGeneration_append, ofGeneration_append, none, ofGeneration_singleton noClose]
        rfl
      exact sound.sequenced.first parts
  · rw [sound.generation_eq fits]
    exact sound.counted.spoiled
  · rw [sound.generation_eq fits, needsReseed, sound.phase_eq fits, decide_eq_true_eq]
    exact sound.counted.fresh
  · rw [sound.phase_eq fits] at synced
    obtain ⟨same, open_⟩ := sound.flow.synced synced
    rw [sound.generation_eq fits]
    refine ⟨same, ?_⟩
    cases session : s.session with
    | nil => exact absurd session open_
    | cons first later =>
      have reseed := begins _ List.mem_cons_self first later session
      exact ⟨first, List.mem_cons_self, reseed, (sound.flow.owned first (by simp [session])).trans same⟩

/-- A composition whose reseed, insert and commit are applied. -/
def committed : List MailboxOp :=
  [.tryReseed 1 [], .proceed, .tryInsert 2 [], .proceed, .tryCommitAndClose, .proceed] ++ List.replicate 15 (.work true)

/-- A committed composition leaves one closed session with all of its intents. -/
theorem run_prefixOnly_committed :
    (exec step (start 3) committed).sessions.head? =
        some [⟨1, .insert 1 [] true⟩, ⟨1, .insert 2 [] false⟩, ⟨1, .commitAndClose⟩] ∧
      (exec step (start 3) committed).PrefixOnly :=
  ⟨by decide, run_prefixOnly 3 committed (by decide)⟩

/-- The start of the run in which a reseed is under way while its generation is closed. -/
def overtaken : List MailboxOp :=
  [.tryReseed 1 [], .proceed, .work true, .work true, .work true, .requestClose]

/-- The run in which the generation wraps around, and comes back under an old announcement. -/
def wrapped : List MailboxOp :=
  List.replicate (2 ^ 62 - 2) .beginComposition ++
    [.requestClose, .proceed, .proceed, .beginComposition, .tryReseed 1 [], .proceed, .work true, .work true, .work true,
      .work true, .work true, .work true, .work true, .work true, .tryInsert 2 [], .proceed, .work true, .work true,
      .work true, .work true]

/-- Compositions that only begin raise the generation. -/
theorem exec_beginComposition (capacity : Nat) {count : Nat} (fits : count + 1 < 2 ^ 62) :
    exec step (start capacity) (List.replicate count .beginComposition) =
      { start capacity with pipeline := encode (count + 1) dirty, raises := count } := by
  induction count with
  | zero => rfl
  | succ count ih =>
    rw [List.replicate_succ', exec_append, ih (by omega)]
    simp only [exec_cons, exec_nil, step, start, if_true, advanceToDirty, nextGeneration_encode (by omega : count + 1 < 2 ^ 62) (by decide : dirty < 4)]

/-- A closed generation's reseed can still open a session, and a wrapped generation's session can begin in its middle. -/
theorem overtaken_or_wrapped :
    ((exec step (start 1) overtaken).spoiled = [1] ∧ (exec step (start 1) overtaken).session = [] ∧
        (exec step (start 1) (overtaken ++ [.work true])).session = [⟨1, .insert 1 [] true⟩]) ∧
      (exec step (start 4) wrapped).session = [⟨1, .insert 2 [] false⟩] := by
  refine ⟨by decide, ?_⟩
  rw [wrapped, exec_append, exec_beginComposition 4 (by decide)]
  decide

end BackgroundMailbox

end Nospacekey
