import Nospacekey.Engine.BackgroundMaintenance
import Nospacekey.Ipc.Clause

/-! The maintenance lane loses no job and runs none twice, and its two lanes take turns. -/

namespace Nospacekey

open Runs

namespace BackgroundMaintenance

variable {κ ω : Type} [DecidableEq κ] {s : BackgroundMaintenance κ ω}

/-- The job that waits for a label. -/
def waiting (s : BackgroundMaintenance κ ω) (label : κ) : Option ω :=
  s.coalesced.lookup label <|> (s.delayed.lookup label).map Prod.snd

/-- The order lists the ready labels, no label waits twice, and both lanes keep to their capacity. -/
structure Listed (s : BackgroundMaintenance κ ω) : Prop where
  distinct : s.coalescedOrder.Nodup
  listed : ∀ label, label ∈ s.coalescedOrder ↔ (s.coalesced.lookup label).isSome = true
  apart : ∀ label, (s.coalesced.lookup label).isSome = true → s.delayed.lookup label = none
  labels : s.labelCount ≤ s.capacity
  jobs : s.pending.length ≤ s.capacity

/-- The lane is in order, the timer is set to the first deadline, and nothing is ready without a drain. -/
structure Sound (s : BackgroundMaintenance κ ω) : Prop extends Listed s where
  timed : s.delayedTimer = (s.delayed.values.map Prod.fst).min?
  awake : s.running = false → s.pending = [] ∧ s.coalescedOrder = []

/-- What a request leaves: the jobs that wait, the turn, and the drains that are due. -/
structure Leaves (s t : BackgroundMaintenance κ ω) (waiting : κ → Option ω) (pending : List (κ × ω)) : Prop where
  sound : t.Sound
  waits : ∀ label, t.waiting label = waiting label
  pending : t.pending = pending
  turn : t.preferCoalesced = s.preferCoalesced
  drains : t.drains + (if s.running then 1 else 0) = s.drains + (if t.running then 1 else 0)

/-- A listed lane without ready labels has no ready job. -/
theorem Listed.coalesced_empty (listed : s.Listed) : s.coalesced.entries.isEmpty = s.coalescedOrder.isEmpty := by
  rw [Bool.eq_iff_iff, List.isEmpty_iff, List.isEmpty_iff]
  constructor
  · intro nothing
    -- A label of the order would have a job.
    refine List.eq_nil_iff_forall_not_mem.mpr fun label member => ?_
    have found := (listed.listed label).mp member
    have inside : label ∈ s.coalesced.entries.keys := AList.lookup_isSome.mp found
    simp [nothing] at inside
  · intro nothing
    refine List.eq_nil_iff_forall_not_mem.mpr fun entry member => ?_
    have inside : entry.1 ∈ s.coalesced := AList.mem_keys.mpr (List.mem_map_of_mem member)
    have found := (listed.listed entry.1).mpr (AList.lookup_isSome.mpr inside)
    simp [nothing] at found

/-- Nothing waits in a new lane. -/
theorem new_sound (capacity : Nat) : (new capacity : BackgroundMaintenance κ ω).Sound where
  distinct := List.nodup_nil
  listed _ := by simp [new]
  apart _ _ := rfl
  labels := Nat.zero_le _
  jobs := Nat.zero_le _
  timed := rfl
  awake _ := ⟨rfl, rfl⟩

omit [DecidableEq κ] in
/-- A started lane runs, and has one more drain due if it did not. -/
theorem start_eq (s : BackgroundMaintenance κ ω) :
    s.start = { s with running := true, drains := s.drains + if s.running then 0 else 1 } := by
  obtain ⟨_, _, _, _, _, _, running, _, _, _, _⟩ := s
  cases running <;> rfl

/-- A refused request changes nothing that matters to the jobs. -/
theorem Sound.drop (sound : s.Sound) : Leaves s s.drop s.waiting s.pending :=
  ⟨⟨⟨sound.distinct, sound.listed, sound.apart, sound.labels, sound.jobs⟩, sound.timed, sound.awake⟩,
    fun _ => rfl, rfl, rfl, rfl⟩

/-- A job is appended to the queue unless it is full. -/
theorem Sound.submit (sound : s.Sound) (label : κ) (work : ω) :
    (s.submit label work = (s.drop, false) ∧ s.capacity ≤ s.pending.length) ∨
      ((s.submit label work).2 = true ∧
        Leaves s (s.submit label work).1 s.waiting (s.pending ++ [(label, work)])) := by
  unfold BackgroundMaintenance.submit
  split
  · rename_i full
    exact .inl ⟨rfl, full⟩
  · rename_i free
    right
    rw [start_eq]
    refine ⟨rfl, ⟨⟨⟨sound.distinct, sound.listed, sound.apart, sound.labels, ?_⟩, sound.timed, nofun⟩,
      fun _ => rfl, rfl, rfl, ?_⟩⟩
    · simp only [List.length_append, List.length_singleton]
      omega
    · cases s.running <;> simp

/-- A withdrawn label is no longer delayed, and the timer follows. -/
theorem withdrawDelayed_eq (timed : s.delayedTimer = (s.delayed.values.map Prod.fst).min?) (label : κ) :
    s.withdrawDelayed label = { s with delayed := s.delayed.erase label }.scheduleNextDelayed := by
  unfold withdrawDelayed
  split
  · rfl
  · rename_i absent
    -- Nothing is erased, so the timer is set as it was.
    rw [Table.erase_of_absent (by simpa using absent)]
    obtain ⟨_, _, _, _, _, _, _, _, _, _, _⟩ := s
    simpa [scheduleNextDelayed] using timed

/-- An immediate job takes the place of whatever waits for its label, unless the labels are full. -/
theorem Sound.submitLatest (sound : s.Sound) (label : κ) (work : ω) :
    ((s.submitLatest label work).2 = false ∧ Leaves s (s.submitLatest label work).1 s.waiting s.pending ∧
        s.capacity ≤ s.labelCount) ∨
      ((s.submitLatest label work).2 = true ∧
        Leaves s (s.submitLatest label work).1 (Function.update s.waiting label (some work)) s.pending) := by
  unfold BackgroundMaintenance.submitLatest
  rw [withdrawDelayed_eq sound.timed]
  -- What waits behind the insertion, whether or not the label was ready before.
  have waits (other : κ) : ((s.coalesced.insert label work).lookup other <|>
      ((s.delayed.erase label).lookup other).map Prod.snd) = Function.update s.waiting label (some work) other := by
    rw [Table.lookup_insert_eq, Table.lookup_erase_eq]
    by_cases same : other = label
    · simp [same]
    · simp [same, waiting]
  have apart (other : κ) (_ : ((s.coalesced.insert label work).lookup other).isSome = true) :
      (s.delayed.erase label).lookup other = none := by
    rename_i ready
    rw [Table.lookup_insert_eq] at ready
    rw [Table.lookup_erase_eq]
    split
    · rfl
    · rename_i different
      exact sound.apart other (by simpa [different] using ready)
  dsimp only [scheduleNextDelayed]
  split
  · rename_i present
    right
    have count := Table.length_erase present
    refine ⟨rfl, ⟨⟨⟨sound.distinct, fun other => ?_, apart, ?_, sound.jobs⟩, rfl, sound.awake⟩, waits, rfl, rfl, rfl⟩⟩
    · rw [Table.lookup_insert_eq]
      split
      · rename_i same
        subst same
        simpa using (sound.listed other).mpr present
      · exact sound.listed other
    · rw [labelCount, Table.length_insert, Table.erase_of_absent (sound.apart label present), count]
      exact sound.labels
  · rename_i absent
    have absent : s.coalesced.lookup label = none := by simpa using absent
    split
    · rename_i full
      left
      -- A delayed job would have made room for this one.
      have idle : s.delayed.lookup label = none := by
        by_contra held
        have count := Table.length_erase (Option.isSome_iff_ne_none.mpr held)
        have labels := sound.labels
        unfold labelCount at full labels
        dsimp only at full
        omega
      rw [Table.erase_of_absent idle] at full ⊢
      exact ⟨rfl, ⟨⟨⟨sound.distinct, sound.listed, sound.apart, sound.labels, sound.jobs⟩, rfl, sound.awake⟩,
        fun _ => rfl, rfl, rfl, rfl⟩, full⟩
    · rename_i free
      right
      have fresh : label ∉ s.coalescedOrder := fun member => by
        simpa [absent] using (sound.listed label).mp member
      rw [start_eq]
      refine ⟨rfl, ⟨⟨⟨?_, fun other => ?_, apart, ?_, sound.jobs⟩, rfl, nofun⟩, waits, rfl, rfl, ?_⟩⟩
      · exact List.Nodup.append sound.distinct (List.nodup_singleton _) (by simpa using fresh)
      · rw [Table.lookup_insert_eq]
        by_cases same : other = label
        · simp [same]
        · simpa [same] using sound.listed other
      · unfold labelCount at free ⊢
        rw [Table.length_insert, Table.erase_of_absent absent]
        dsimp only at free ⊢
        omega
      · cases s.running <;> simp

/-- A delayed job takes the place of a delayed one, unless the labels are full or an immediate job waits. -/
theorem Sound.submitLatestAfter (sound : s.Sound) (label : κ) (deadline : Nat) (work : ω) :
    ((s.submitLatestAfter label deadline work).2 = false ∧
        Leaves s (s.submitLatestAfter label deadline work).1 s.waiting s.pending ∧
        ((s.coalesced.lookup label).isSome = true ∨ s.capacity ≤ s.labelCount)) ∨
      ((s.submitLatestAfter label deadline work).2 = true ∧
        Leaves s (s.submitLatestAfter label deadline work).1 (Function.update s.waiting label (some work)) s.pending) := by
  unfold BackgroundMaintenance.submitLatestAfter
  split
  · rename_i present
    exact .inl ⟨rfl, ⟨sound, fun _ => rfl, rfl, rfl, rfl⟩, .inl present⟩
  · rename_i absent
    have absent : s.coalesced.lookup label = none := by simpa using absent
    split
    · rename_i full
      simp only [Bool.and_eq_true, decide_eq_true_eq] at full
      exact .inl ⟨rfl, sound.drop, .inr full.2⟩
    · rename_i free
      right
      refine ⟨rfl, ⟨⟨⟨sound.distinct, sound.listed, fun other ready => ?_, ?_, sound.jobs⟩, rfl, sound.awake⟩,
        fun other => ?_, rfl, rfl, rfl⟩⟩
      · show (s.delayed.insert label (deadline, work)).lookup other = none
        rw [Table.lookup_insert_eq, if_neg]
        · exact sound.apart other ready
        · rintro rfl
          simp [scheduleNextDelayed, absent] at ready
      · -- A replaced job leaves the count as it was, and a new one found room.
        show s.coalesced.entries.length + (s.delayed.insert label (deadline, work)).entries.length ≤ s.capacity
        rw [Table.length_insert]
        cases held : s.delayed.lookup label with
        | none =>
          rw [Table.erase_of_absent held]
          have free : s.labelCount < s.capacity := by simpa [held] using free
          exact free
        | some job =>
          rw [Table.length_erase (by simp [held])]
          exact sound.labels
      · show (s.coalesced.lookup other <|> ((s.delayed.insert label (deadline, work)).lookup other).map Prod.snd) = _
        rw [Table.lookup_insert_eq]
        by_cases same : other = label
        · subst same
          simp [absent]
        · simp [same, waiting]

/-- A promoted job waits on, in the other table. -/
theorem promote_spec (listed : s.Listed) (label : κ) :
    (s.promote label).Listed ∧ (∀ other, (s.promote label).waiting other = s.waiting other) ∧
      (s.promote label).pending = s.pending ∧ (s.promote label).preferCoalesced = s.preferCoalesced ∧
      (s.promote label).running = s.running ∧ (s.promote label).drains = s.drains := by
  cases held : s.delayed.lookup label with
  | none =>
    have same : s.promote label = s := by simp [promote, held]
    rw [same]
    exact ⟨listed, fun _ => rfl, rfl, rfl, rfl, rfl⟩
  | some job =>
    obtain ⟨deadline, work⟩ := job
    have absent : s.coalesced.lookup label = none := by
      by_contra ready
      cases held.symm.trans (listed.apart label (Option.isSome_iff_ne_none.mpr ready))
    have fresh : label ∉ s.coalescedOrder := fun member => by
      simpa [absent] using (listed.listed label).mp member
    have moved : s.promote label = { s with
        delayed := s.delayed.erase label
        coalesced := s.coalesced.insert label work
        coalescedOrder := s.coalescedOrder ++ [label] } := by simp [promote, held, absent]
    rw [moved]
    refine ⟨⟨?_, fun other => ?_, fun other ready => ?_, ?_, listed.jobs⟩, fun other => ?_, rfl, rfl, rfl, rfl⟩
    · exact List.Nodup.append listed.distinct (List.nodup_singleton _) (by simpa using fresh)
    · rw [Table.lookup_insert_eq]
      split
      · rename_i same
        simp [same]
      · rename_i different
        simpa [different] using listed.listed other
    · rw [Table.lookup_insert_eq] at ready
      rw [Table.lookup_erase_eq]
      split
      · rfl
      · rename_i different
        exact listed.apart other (by simpa [different] using ready)
    · have count : (s.delayed.erase label).entries.length + 1 = s.delayed.entries.length :=
        Table.length_erase (by simp [held])
      have labels := listed.labels
      unfold labelCount at labels ⊢
      rw [Table.length_insert, Table.erase_of_absent absent]
      dsimp only
      omega
    · simp only [waiting]
      rw [Table.lookup_insert_eq, Table.lookup_erase_eq]
      by_cases same : other = label
      · subst same
        simp [held, absent]
      · simp [same]

/-- Promoted jobs wait on, in the other table. -/
theorem foldl_promote_spec (labels : List κ) (listed : s.Listed) :
    (labels.foldl promote s).Listed ∧ (∀ other, (labels.foldl promote s).waiting other = s.waiting other) ∧
      (labels.foldl promote s).pending = s.pending ∧
      (labels.foldl promote s).preferCoalesced = s.preferCoalesced ∧
      (labels.foldl promote s).running = s.running ∧ (labels.foldl promote s).drains = s.drains := by
  -- One label after the other.
  induction labels generalizing s with
  | nil => exact ⟨listed, fun _ => rfl, rfl, rfl, rfl, rfl⟩
  | cons label labels ih =>
    obtain ⟨still, waits, pending, turn, running, drains⟩ := promote_spec listed label
    obtain ⟨still', waits', pending', turn', running', drains'⟩ := ih still
    exact ⟨still', fun other => (waits' other).trans (waits other), pending'.trans pending, turn'.trans turn,
      running'.trans running, drains'.trans drains⟩

/-- The jobs that the timer promotes are served by the drain that goes on, or by the one on its way. -/
theorem Sound.promoteDueDelayed (sound : s.Sound) (labels : List κ) :
    let t := (s.promoteDueDelayed labels).1
    let started := (s.promoteDueDelayed labels).2
    t.Sound ∧ (∀ label, t.waiting label = s.waiting label) ∧ t.pending = s.pending ∧
      t.preferCoalesced = s.preferCoalesced ∧ t.drains = s.drains ∧ t.running = (s.running || started) ∧
      (started = true → s.running = false) := by
  obtain ⟨listed, waits, pending, turn, running, drains⟩ := foldl_promote_spec labels sound.toListed
  generalize promoted : labels.foldl promote s = u at listed waits pending turn running drains
  have order : u.coalesced.entries.isEmpty = u.coalescedOrder.isEmpty := listed.coalesced_empty
  unfold BackgroundMaintenance.promoteDueDelayed
  simp only [promoted, scheduleNextDelayed]
  have ordered (running' : Bool) : Listed { u with
      delayedTimer := (u.delayed.values.map Prod.fst).min?, running := running' } :=
    ⟨listed.distinct, listed.listed, listed.apart, listed.labels, listed.jobs⟩
  split
  · rename_i started
    simp only [Bool.and_eq_true, Bool.not_eq_true'] at started
    have stopped : s.running = false := running.symm.trans started.1.2
    refine ⟨⟨ordered true, rfl, nofun⟩, waits, pending, turn, drains, ?_, fun _ => stopped⟩
    simp [started]
  · rename_i unstarted
    have unstarted : (!labels.isEmpty && !u.running && !u.coalesced.entries.isEmpty) = false := by
      simpa only [Bool.not_eq_true] using unstarted
    refine ⟨⟨ordered u.running, rfl, fun stopped => ?_⟩, waits, pending, turn, drains, ?_, ?_⟩
    · -- Nothing was ready before, and what was promoted would have started a drain.
      have before := sound.awake (running.symm.trans stopped)
      refine ⟨pending.trans before.1, ?_⟩
      cases labels with
      | nil =>
        obtain rfl : s = u := promoted
        exact before.2
      | cons label labels =>
        have stopped : u.running = false := stopped
        rw [order, stopped] at unstarted
        simpa using unstarted
    · rw [unstarted, Bool.or_false]
      exact running
    · simp [unstarted]

/-- What one lock region of a drain does. -/
inductive Drains (s t : BackgroundMaintenance κ ω) : DrainStep κ ω → Prop where
  /-- The oldest submitted job is taken, while no label is ready or it is not the labels' turn. -/
  | submitted (label : κ) (work : ω) (sound : t.Sound) (pending : s.pending = (label, work) :: t.pending)
      (waits : ∀ other, t.waiting other = s.waiting other) (turn : t.preferCoalesced = true)
      (fair : s.coalescedOrder ≠ [] → s.preferCoalesced = false) (running : t.running = s.running)
      (drains : t.drains = s.drains) (less : t.coalescedOrder = s.coalescedOrder) :
      Drains s t (.run ⟨.submitted, label, work⟩)
  /-- The job that waits for the first label is taken, while nothing is submitted or it is the labels' turn. -/
  | latest (label : κ) (work : ω) (sound : t.Sound) (pending : t.pending = s.pending)
      (held : s.waiting label = some work) (waits : ∀ other, t.waiting other = Function.update s.waiting label none other)
      (turn : t.preferCoalesced = false) (fair : s.pending ≠ [] → s.preferCoalesced = true)
      (running : t.running = s.running) (drains : t.drains = s.drains)
      (less : s.coalescedOrder = label :: t.coalescedOrder) : Drains s t (.run ⟨.latest, label, work⟩)
  /-- Nothing is ready, so the drain ends. -/
  | stop (noJob : s.pending = []) (noLabel : s.coalescedOrder = []) (stopped : t = { s with running := false }) :
      Drains s t .stop

/-- The job of the first label is taken. -/
theorem Sound.takeCoalesced (sound : s.Sound) (running : s.running = true) (ready : s.coalescedOrder ≠ [])
    (fair : s.pending ≠ [] → s.preferCoalesced = true) : Drains s s.takeCoalesced.1 s.takeCoalesced.2 := by
  obtain ⟨label, order, ordered⟩ := List.exists_cons_of_ne_nil ready
  have present : (s.coalesced.lookup label).isSome = true := (sound.listed label).mp (by simp [ordered])
  obtain ⟨work, held⟩ := Option.isSome_iff_exists.mp present
  have distinct := sound.distinct
  rw [ordered, List.nodup_cons] at distinct
  have taken : s.takeCoalesced =
      ({ s with coalescedOrder := order, coalesced := s.coalesced.erase label, preferCoalesced := false },
        .run ⟨.latest, label, work⟩) := by
    simp [BackgroundMaintenance.takeCoalesced, ordered, held]
  rw [taken]
  refine .latest label work ⟨⟨distinct.2, fun other => ?_, fun other ready => ?_, ?_, sound.jobs⟩, sound.timed, ?_⟩ rfl
    (by simp [waiting, held]) (fun other => ?_) rfl fair rfl rfl ordered
  · rw [Table.lookup_erase_eq]
    by_cases same : other = label
    · subst same
      simpa using distinct.1
    · simpa [same, ordered] using sound.listed other
  · rw [Table.lookup_erase_eq] at ready
    by_cases same : other = label
    · simp [same] at ready
    · exact sound.apart other (by simpa [same] using ready)
  · have count := Table.length_erase present
    have labels := sound.labels
    unfold labelCount at labels ⊢
    dsimp only
    omega
  · intro stopped
    cases running.symm.trans stopped
  · simp only [waiting]
    rw [Table.lookup_erase_eq]
    by_cases same : other = label
    · subst same
      simp [sound.apart other present]
    · simp [same, waiting]

/-- A lock region of a drain takes a job as long as one is ready. -/
theorem Sound.drainStep (sound : s.Sound) (running : s.running = true) : Drains s s.drainStep.1 s.drainStep.2 := by
  unfold BackgroundMaintenance.drainStep
  split
  · rename_i turn
    simp only [Bool.and_eq_true, Bool.not_eq_true', List.isEmpty_eq_false_iff, Bool.or_eq_true,
      List.isEmpty_iff] at turn
    exact sound.takeCoalesced running turn.1 fun submitted => turn.2.resolve_right submitted
  · rename_i turn
    split
    · rename_i label work pending queued
      have fair : s.coalescedOrder ≠ [] → s.preferCoalesced = false := by
        intro ready
        simpa [queued, ready] using turn
      have jobs := sound.jobs
      rw [queued, List.length_cons] at jobs
      refine .submitted label work ⟨⟨sound.distinct, sound.listed, sound.apart, sound.labels, ?_⟩, sound.timed, ?_⟩ queued
        (fun _ => rfl) rfl fair rfl rfl rfl
      · exact Nat.le_of_succ_le jobs
      · intro stopped
        cases running.symm.trans stopped
    · rename_i queued
      split
      · rename_i ready
        exact sound.takeCoalesced running (by simpa using ready) (fun submitted => absurd queued submitted)
      · rename_i nothing
        exact .stop queued (by simpa using nothing) rfl

end BackgroundMaintenance

namespace MaintenanceRun

variable {κ ω : Type} [DecidableEq κ] {s : MaintenanceRun κ ω}

/-- The job that was accepted last for a label. -/
def lastAccepted (s : MaintenanceRun κ ω) (label : κ) : Option ω :=
  (s.latest.reverse.find? fun accepted => accepted.1 = label).map Prod.snd

/-- The job that was run last for a label. -/
def lastRan (s : MaintenanceRun κ ω) (label : κ) : Option ω :=
  (s.ran.reverse.find? fun job => job.lane = .latest && job.label = label).map MaintenanceJob.work

/-- The submitted jobs that were run. -/
def ranSubmitted (s : MaintenanceRun κ ω) : List (κ × ω) :=
  (s.ran.filter fun job => job.lane = .submitted).map fun job => (job.label, job.work)

/-- The queue is at a drain. -/
def busy (s : MaintenanceRun κ ω) : Nat :=
  match s.worker with
  | .idle => 0
  | _ => 1

/-- Every accepted job is accounted for, and a ready one is on its way. -/
structure Accounted (s : MaintenanceRun κ ω) : Prop where
  sound : s.lane.Sound
  submitted : s.submitted = s.ranSubmitted ++ s.lane.pending
  latest : ∀ label, s.lastAccepted label = (s.lane.waiting label <|> s.lastRan label)
  turn : s.lane.preferCoalesced = s.ran.getLast?.all fun job => job.lane = .submitted
  awake : s.lane.drains + s.busy = if s.lane.running then 1 else 0

/-- Nothing is accepted before the first request. -/
theorem new_accounted (capacity : Nat) : (new capacity : MaintenanceRun κ ω).Accounted where
  sound := BackgroundMaintenance.new_sound capacity
  submitted := rfl
  latest _ := rfl
  turn := rfl
  awake := rfl

/-- A request that changes the lane and the accepted jobs alike keeps them accounted for. -/
theorem Accounted.request (accounted : s.Accounted) {t : MaintenanceRun κ ω} {waiting : κ → Option ω}
    {pending : List (κ × ω)} (left : BackgroundMaintenance.Leaves s.lane t.lane waiting pending)
    (worker : t.worker = s.worker) (ran : t.ran = s.ran) (submitted : t.submitted = s.ranSubmitted ++ pending)
    (latest : ∀ label, t.lastAccepted label = (waiting label <|> s.lastRan label)) : t.Accounted where
  sound := left.sound
  submitted := by rw [submitted, left.pending, ranSubmitted, ranSubmitted, ran]
  latest label := by rw [latest label, left.waits label, lastRan, lastRan, ran]
  turn := by rw [left.turn, ran, accounted.turn]
  awake := by
    have awake := accounted.awake
    have drains := left.drains
    have busy : t.busy = s.busy := by simp [MaintenanceRun.busy, worker]
    omega

/-- An accepted job is the one accepted last for its label. -/
theorem lastAccepted_append {t : MaintenanceRun κ ω} {label : κ} {work : ω}
    (latest : t.latest = s.latest ++ [(label, work)]) (other : κ) :
    t.lastAccepted other = Function.update s.lastAccepted label (some work) other := by
  unfold lastAccepted
  rw [latest, List.reverse_append, List.reverse_singleton, List.singleton_append, List.find?_cons]
  by_cases same : other = label
  · subst same
    simp
  · simp [same, Ne.symm same]

/-- An accepted job for a label waits for it, and the other labels are as they were. -/
theorem Accounted.accept (accounted : s.Accounted) {t : MaintenanceRun κ ω} {label : κ} {work : ω}
    (latest : t.latest = s.latest ++ [(label, work)]) (other : κ) :
    t.lastAccepted other = (Function.update s.lane.waiting label (some work) other <|> s.lastRan other) := by
  rw [lastAccepted_append latest]
  by_cases same : other = label
  · subst same
    simp
  · simp [same, accounted.latest other]

/-- A queue that is at a drain runs. -/
theorem Accounted.running (accounted : s.Accounted) (busy : s.busy = 1) : s.lane.running = true := by
  have awake := accounted.awake
  cases running : s.lane.running with
  | true => rfl
  | false => simp [running, busy] at awake

/-- A job that was taken for a label is the one run last for it. -/
theorem lastRan_append {t : MaintenanceRun κ ω} {label : κ} {work : ω} (ran : t.ran = s.ran ++ [⟨.latest, label, work⟩])
    (other : κ) : t.lastRan other = Function.update s.lastRan label (some work) other := by
  unfold lastRan
  rw [ran, List.reverse_append, List.reverse_singleton, List.singleton_append, List.find?_cons]
  by_cases same : other = label
  · subst same
    simp
  · simp [same, Ne.symm same]

/-- A submitted job that is run is no label's. -/
theorem lastRan_append_submitted {t : MaintenanceRun κ ω} {label : κ} {work : ω}
    (ran : t.ran = s.ran ++ [⟨.submitted, label, work⟩]) (other : κ) : t.lastRan other = s.lastRan other := by
  unfold lastRan
  rw [ran, List.reverse_append, List.reverse_singleton, List.singleton_append, List.find?_cons]
  simp

/-- A lock region of a drain keeps the jobs accounted for. -/
theorem Accounted.drainStep (accounted : s.Accounted) (draining : s.worker = .draining) :
    (s.step .drainStep).Accounted := by
  have busy : s.busy = 1 := by simp [MaintenanceRun.busy, draining]
  have running := accounted.running busy
  have awake := accounted.awake
  rw [running, busy] at awake
  have spec := accounted.sound.drainStep running
  simp only [MaintenanceRun.step]
  generalize s.lane.drainStep = result at spec
  obtain ⟨lane, decision⟩ := result
  dsimp only at spec
  cases spec with
  | submitted label work sound pending waits turn _ running' drains =>
    refine ⟨sound, ?_, fun other => ?_, ?_, ?_⟩
    · simp [accounted.submitted, pending, ranSubmitted]
    · rw [lastRan_append_submitted (s := s) rfl, waits other]
      exact accounted.latest other
    · simp [turn]
    · simpa [MaintenanceRun.busy, running', running, drains] using awake
  | latest label work sound pending held waits turn _ running' drains =>
    refine ⟨sound, ?_, fun other => ?_, ?_, ?_⟩
    · simp [accounted.submitted, pending, ranSubmitted]
    · -- What waited for the label is run last now, and the other labels are as they were.
      rw [lastRan_append (s := s) rfl, waits other]
      refine (accounted.latest other).trans ?_
      by_cases same : other = label
      · subst same
        simp [held]
      · simp [same]
    · simp [turn]
    · simpa [MaintenanceRun.busy, running', running, drains] using awake
  | stop noJob noLabel stopped =>
    subst stopped
    have sound := accounted.sound
    refine ⟨⟨⟨sound.distinct, sound.listed, sound.apart, sound.labels, sound.jobs⟩, sound.timed,
      fun _ => ⟨noJob, noLabel⟩⟩, accounted.submitted, accounted.latest, accounted.turn, ?_⟩
    simpa [MaintenanceRun.busy] using awake

/-- Every allowed step keeps the jobs accounted for. -/
theorem Accounted.step (accounted : s.Accounted) {op : MaintenanceOp κ ω} (allowed : s.Allowed op) :
    (s.step op).Accounted := by
  have sound := accounted.sound
  cases op with
  | submit label work =>
    simp only [MaintenanceRun.step]
    obtain ⟨refused, _⟩ | ⟨accepted, left⟩ := sound.submit label work
    · rw [refused]
      exact accounted.request sound.drop rfl rfl accounted.submitted accounted.latest
    · exact accounted.request left rfl rfl (by simp [accepted, accounted.submitted]) accounted.latest
  | submitLatest label work =>
    simp only [MaintenanceRun.step]
    obtain ⟨refused, left, _⟩ | ⟨accepted, left⟩ := sound.submitLatest label work
    · exact accounted.request left rfl rfl accounted.submitted (by rw [refused]; exact accounted.latest)
    · exact accounted.request left rfl rfl accounted.submitted (accounted.accept (by simp [accepted]))
  | submitLatestAfter label deadline work =>
    simp only [MaintenanceRun.step]
    obtain ⟨refused, left, _⟩ | ⟨accepted, left⟩ := sound.submitLatestAfter label deadline work
    · exact accounted.request left rfl rfl accounted.submitted (by rw [refused]; exact accounted.latest)
    · exact accounted.request left rfl rfl accounted.submitted (accounted.accept (by simp [accepted]))
  | promoteDueDelayed now labels =>
    obtain ⟨still, waits, pending, turn, drains, running, stopped⟩ := sound.promoteDueDelayed labels
    have awake := accounted.awake
    have idle : s.worker = .idle := allowed.1
    refine ⟨still, ?_, fun label => ?_, turn.trans accounted.turn, ?_⟩
    · exact accounted.submitted.trans (congrArg (s.ranSubmitted ++ ·) pending.symm)
    · exact (accounted.latest label).trans (congrArg (· <|> s.lastRan label) (waits label).symm)
    · simp only [MaintenanceRun.step, MaintenanceRun.busy, idle] at awake ⊢
      rw [drains, running]
      cases started : (s.lane.promoteDueDelayed labels).2 with
      | false => simpa [started] using awake
      | true =>
        -- No drain was on its way, so the one that goes on is the only one.
        simpa [started, stopped started] using awake
  | startDrain =>
    have awake := accounted.awake
    obtain ⟨idle, due⟩ : s.worker = .idle ∧ 0 < s.lane.drains := allowed
    refine ⟨⟨⟨sound.distinct, sound.listed, sound.apart, sound.labels, sound.jobs⟩, sound.timed, sound.awake⟩,
      accounted.submitted, accounted.latest, accounted.turn, ?_⟩
    have nothing : s.busy = 0 := by simp [MaintenanceRun.busy, idle]
    rw [nothing] at awake
    show s.lane.drains - 1 + 1 = if s.lane.running then 1 else 0
    omega
  | drainStep => exact accounted.drainStep allowed
  | finish failed =>
    have awake := accounted.awake
    obtain ⟨job, working⟩ : ∃ job, s.worker = .working job := allowed
    refine ⟨⟨⟨sound.distinct, sound.listed, sound.apart, sound.labels, sound.jobs⟩, sound.timed, sound.awake⟩,
      accounted.submitted, accounted.latest, accounted.turn, ?_⟩
    simpa [MaintenanceRun.step, MaintenanceRun.busy, working] using awake

/-- The queue works on its own. -/
def ofQueue : MaintenanceOp κ ω → Bool
  | .startDrain | .drainStep | .finish _ => true
  | _ => false

/-- The queue is idle, and nothing is ready. -/
structure Served (s : MaintenanceRun κ ω) : Prop where
  idle : s.worker = .idle
  undrained : s.lane.drains = 0
  noJob : s.lane.pending = []
  noLabel : s.lane.coalescedOrder = []

/-- The queue can go on by itself until everything that was ready is run. -/
def CanServe (s : MaintenanceRun κ ω) : Prop :=
  ∃ ops, (∀ op ∈ ops, ofQueue op = true) ∧ Admissible step Allowed s ops ∧ (exec step s ops).Served ∧
    (exec step s ops).submitted = s.submitted

/-- A step of the queue before a run that serves everything. -/
theorem CanServe.cons {op : MaintenanceOp κ ω} (own : ofQueue op = true) (allowed : s.Allowed op)
    (submitted : (s.step op).submitted = s.submitted) (rest : (s.step op).CanServe) : s.CanServe := by
  obtain ⟨ops, all, admissible, served, same⟩ := rest
  refine ⟨op :: ops, fun other member => ?_, ⟨allowed, admissible⟩, served, same.trans submitted⟩
  rcases List.mem_cons.mp member with rfl | later
  · exact own
  · exact all other later

/-- A drain runs one ready job after the other, and ends. -/
theorem Accounted.canServe_draining (ready : Nat) (accounted : s.Accounted) (draining : s.worker = .draining)
    (count : s.lane.pending.length + s.lane.coalescedOrder.length = ready) : s.CanServe := by
  -- Each job that is taken leaves one fewer.
  induction ready generalizing s with
  | zero =>
    have busy : s.busy = 1 := by simp [MaintenanceRun.busy, draining]
    have running := accounted.running busy
    have undrained : s.lane.drains = 0 := by
      have awake := accounted.awake
      rw [busy, running, if_pos rfl] at awake
      omega
    have spec := accounted.sound.drainStep running
    refine ⟨[.drainStep], by simp [ofQueue], ⟨draining, trivial⟩, ?_⟩
    simp only [exec_cons, exec_nil, MaintenanceRun.step]
    generalize s.lane.drainStep = result at spec
    obtain ⟨lane, decision⟩ := result
    dsimp only at spec
    cases spec with
    | submitted label work _ pending => simp [pending] at count
    | latest label work _ _ _ _ _ _ _ _ less => simp [less] at count
    | stop noJob noLabel stopped =>
      subst stopped
      exact ⟨⟨rfl, undrained, noJob, noLabel⟩, rfl⟩
  | succ ready ih =>
    have allowed : s.Allowed .drainStep := draining
    have still := accounted.step allowed
    have spec := accounted.sound.drainStep (accounted.running (by simp [MaintenanceRun.busy, draining]))
    have taken : ∃ job, (s.step .drainStep).worker = .working job ∧
        (s.step .drainStep).lane.pending.length + (s.step .drainStep).lane.coalescedOrder.length = ready ∧
        (s.step .drainStep).submitted = s.submitted := by
      simp only [MaintenanceRun.step]
      generalize s.lane.drainStep = result at spec
      obtain ⟨lane, decision⟩ := result
      dsimp only at spec
      cases spec with
      | submitted label work _ pending _ _ _ _ _ same =>
        refine ⟨_, rfl, ?_, rfl⟩
        show lane.pending.length + lane.coalescedOrder.length = ready
        rw [pending, List.length_cons] at count
        rw [same]
        omega
      | latest label work _ same _ _ _ _ _ _ less =>
        refine ⟨_, rfl, ?_, rfl⟩
        show lane.pending.length + lane.coalescedOrder.length = ready
        rw [less, List.length_cons] at count
        rw [same]
        omega
      | stop noJob noLabel _ => simp [noJob, noLabel] at count
    obtain ⟨job, working, left, submitted⟩ := taken
    have finishes : (s.step .drainStep).Allowed (.finish false) := ⟨job, working⟩
    refine .cons rfl allowed submitted ?_
    refine .cons rfl finishes rfl ?_
    exact ih (still.step finishes) rfl left

/-- The queue can always go on until everything that was ready is run. -/
theorem Accounted.canServe (accounted : s.Accounted) : s.CanServe := by
  cases worker : s.worker with
  | draining => exact accounted.canServe_draining _ worker rfl
  | working job =>
    have finishes : s.Allowed (.finish false) := ⟨job, worker⟩
    refine .cons rfl finishes rfl ?_
    exact (accounted.step finishes).canServe_draining _ rfl rfl
  | idle =>
    have awake := accounted.awake
    have nothing : s.busy = 0 := by simp [MaintenanceRun.busy, worker]
    rw [nothing] at awake
    cases running : s.lane.running with
    | true =>
      have due : 0 < s.lane.drains := by
        simp only [running, if_true] at awake
        omega
      have starts : s.Allowed .startDrain := ⟨worker, due⟩
      refine .cons rfl starts rfl ?_
      exact (accounted.step starts).canServe_draining _ rfl rfl
    | false =>
      obtain ⟨noJob, noLabel⟩ := accounted.sound.awake running
      exact ⟨[], by simp, trivial, ⟨worker, by simpa [running] using awake, noJob, noLabel⟩, rfl⟩

/-- What holds of the lane after every run. -/
structure Maintained (s : MaintenanceRun κ ω) : Prop where
  /-- The submitted jobs are run once, in the order in which they were accepted, and wait until then. -/
  submitted : s.submitted = s.ranSubmitted ++ s.lane.pending
  /-- No label waits twice. -/
  single : ∀ label, (s.lane.coalesced.lookup label).isSome = true → s.lane.delayed.lookup label = none
  /-- The job accepted last for a label waits for it, and else it is the one run last. -/
  latest : ∀ label, s.lastAccepted label = (s.lane.waiting label <|> s.lastRan label)
  distinct : s.lane.coalescedOrder.Nodup
  listed : ∀ label, label ∈ s.lane.coalescedOrder ↔ (s.lane.coalesced.lookup label).isSome = true
  bounded : s.lane.labelCount ≤ s.lane.capacity ∧ s.lane.pending.length ≤ s.lane.capacity
  refused : ∀ label work, (s.lane.submit label work).2 = false → s.lane.capacity ≤ s.lane.pending.length
  refusedLatest : ∀ label work, (s.lane.submitLatest label work).2 = false → s.lane.capacity ≤ s.lane.labelCount
  refusedAfter : ∀ label deadline work, (s.lane.submitLatestAfter label deadline work).2 = false →
    (s.lane.coalesced.lookup label).isSome = true ∨ s.lane.capacity ≤ s.lane.labelCount
  /-- A ready job has a drain on its way. -/
  awake : s.lane.pending ≠ [] ∨ s.lane.coalescedOrder ≠ [] →
    s.lane.running = true ∧ (0 < s.lane.drains ∨ s.worker ≠ .idle)
  /-- A drain takes the job accepted last for a label. -/
  takesLatest : s.worker = .draining → ∀ job, s.takes = some job → job.lane = .latest →
    s.lastAccepted job.label = some job.work
  /-- No two submitted jobs are run in a row while a label is ready. -/
  takesSubmitted : s.worker = .draining → ∀ job, s.takes = some job → job.lane = .submitted →
    s.lane.coalescedOrder ≠ [] → ∃ last, s.ran.getLast? = some last ∧ last.lane = .latest
  /-- No two labels' jobs are run in a row while a submitted job is ready. -/
  takesTurns : s.worker = .draining → ∀ job, s.takes = some job → job.lane = .latest →
    s.lane.pending ≠ [] → ∀ last, s.ran.getLast? = some last → last.lane = .submitted
  served : s.CanServe

/-- An accounted lane is maintained. -/
theorem Accounted.maintained (accounted : s.Accounted) : s.Maintained := by
  have sound := accounted.sound
  -- The job that a drain takes, with what the lock region knows of it.
  have drains (draining : s.worker = .draining) {job : MaintenanceJob κ ω} (taken : s.takes = some job) :
      BackgroundMaintenance.Drains s.lane s.lane.drainStep.1 (.run job) := by
    have spec := sound.drainStep (accounted.running (by simp [busy, draining]))
    unfold takes at taken
    split at taken
    · rename_i found
      obtain rfl := Option.some.inj taken
      rwa [found] at spec
    · cases taken
  have turn := accounted.turn
  refine ⟨accounted.submitted, sound.apart, accounted.latest, sound.distinct, sound.listed, ⟨sound.labels, sound.jobs⟩,
    ?_, ?_, ?_, ?_, ?_, ?_, ?_, accounted.canServe⟩
  · intro label work refused
    obtain ⟨_, full⟩ | ⟨accepted, _⟩ := sound.submit label work
    · exact full
    · cases refused.symm.trans accepted
  · intro label work refused
    obtain ⟨_, _, full⟩ | ⟨accepted, _⟩ := sound.submitLatest label work
    · exact full
    · cases refused.symm.trans accepted
  · intro label deadline work refused
    obtain ⟨_, _, full⟩ | ⟨accepted, _⟩ := sound.submitLatestAfter label deadline work
    · exact full
    · cases refused.symm.trans accepted
  · intro ready
    have awake := accounted.awake
    cases running : s.lane.running with
    | false =>
      obtain ⟨noJob, noLabel⟩ := sound.awake running
      exact absurd noLabel (ready.resolve_left fun submitted => submitted noJob)
    | true =>
      refine ⟨rfl, ?_⟩
      rw [running, if_pos rfl] at awake
      by_contra asleep
      obtain ⟨none_due, idle⟩ := not_or.mp asleep
      have idle : s.worker = .idle := Classical.not_not.mp idle
      simp only [busy, idle] at awake
      omega
  · intro draining job taken latest
    cases drains draining taken with
    | submitted => cases latest
    | latest label work _ _ held => simpa [held] using accounted.latest label
  · intro draining job taken submitted ready
    cases drains draining taken with
    | latest => cases submitted
    | submitted label work _ _ _ _ fair =>
      -- It is the labels' turn unless one of them was served last.
      rw [fair ready] at turn
      cases last : s.ran.getLast? with
      | none => simp [last] at turn
      | some job =>
        refine ⟨job, rfl, ?_⟩
        cases lane : job.lane with
        | latest => rfl
        | submitted => simp [last, lane] at turn
  · intro draining job taken latest ready last found
    cases drains draining taken with
    | submitted => cases latest
    | latest label work _ _ _ _ _ fair =>
      rw [fair ready, found] at turn
      simpa using turn.symm

/-- In every run, with callers and the timer coming in any order between the lock regions, the lane loses no job, runs
none twice, keeps to its capacity and lets its two lanes take turns. -/
theorem run_maintenance (capacity : Nat) (ops : List (MaintenanceOp κ ω))
    (allowed : Admissible step Allowed (new capacity) ops) : (exec step (new capacity) ops).Maintained :=
  (exec_invariant Accounted (fun _ _ accounted allowed => accounted.step allowed) (new_accounted capacity)
    allowed).maintained

/-- A delayed job that is promoted by the timer while a submitted one runs. -/
theorem run_maintenance_promoted :
    (exec step (new 2 : MaintenanceRun Text Nat)
      [.submitLatestAfter ['a'] 5 1, .submit ['b'] 2, .promoteDueDelayed 7 [['a']], .startDrain, .drainStep]).Maintained :=
  run_maintenance 2 _ ⟨trivial, trivial, ⟨rfl, .refl _⟩, ⟨rfl, by decide⟩, rfl, trivial⟩

/-- Of three ready labels the last is overtaken by both of two jobs that were submitted after it was ready. -/
theorem drain_overtakes :
    let ready := exec step (new 64 : MaintenanceRun Text Nat)
      [.submitLatest ['a'] 1, .submitLatest ['b'] 2, .submitLatest ['c'] 3]
    let s := exec step ready [.submit ['d'] 4, .submit ['e'] 5, .startDrain, .drainStep, .finish false, .drainStep,
      .finish false, .drainStep, .finish false, .drainStep, .finish false, .drainStep]
    ready.lane.waiting ['c'] = some 3 ∧ ready.submitted = [] ∧
      s.ran.map MaintenanceJob.work = [1, 4, 2, 5, 3] := by
  decide

end MaintenanceRun

end Nospacekey
