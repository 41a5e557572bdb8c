import Mathlib.Data.List.Infix
import Mathlib.Data.List.Pairwise
import Nospacekey.Background.Mailbox

/-! The order of the intents in the mailbox's channel, and how the calls of the input thread keep it. -/

namespace Nospacekey

/-- A close commits nothing. -/
theorem WorkerIntent.isCommitAndClose_of_isClose {intent : WorkerIntent} (close : intent.isClose = true) :
    intent.isCommitAndClose = false := by
  cases intent <;> first | rfl | cases close

namespace BackgroundMailbox

/-- A generation and a phase that fit the word are laid side by side. -/
theorem encode_eq {g p : Nat} (fits : g < 2 ^ 62) (small : p < 4) : encode g p = 4 * g + p := by
  have whole : g <<< 2 % 2 ^ 64 = 2 ^ 2 * g := by
    rw [Nat.shiftLeft_eq]
    omega
  rw [encode, whole, ← Nat.two_pow_add_eq_or_of_lt (i := 2) small]

/-- The generation of a word. -/
theorem generation_encode {g p : Nat} (fits : g < 2 ^ 62) (small : p < 4) : generation (encode g p) = g := by
  rw [generation, encode_eq fits small, Nat.shiftRight_eq_div_pow]
  omega

/-- The phase of a word. -/
theorem phase_encode {g p : Nat} (fits : g < 2 ^ 62) (small : p < 4) : phase (encode g p) = p := by
  rw [phase, encode_eq fits small, Nat.and_two_pow_sub_one_eq_mod _ 2]
  omega

/-- The generation after a word's, before the word wraps around. -/
theorem nextGeneration_encode {g p : Nat} (fits : g < 2 ^ 62) (small : p < 4) :
    nextGeneration (encode g p) = g + 1 := by
  rw [nextGeneration, generation_encode fits small, u64WrappingSucc]
  omega

/-- A later intent has no older generation, and a newer one when it begins one or follows an end. -/
def Follows (earlier later : QueuedIntent) : Prop :=
  earlier.generation ≤ later.generation ∧
    (later.intent.isClose = true ∨ earlier.intent.isCommitAndClose = true ∨
        (later.intent.isReseed = true ∧ earlier.intent.isClose = false) →
      earlier.generation < later.generation)

/-- A newer generation follows whatever the intents are. -/
theorem Follows.of_lt {earlier later : QueuedIntent} (newer : earlier.generation < later.generation) :
    Follows earlier later := ⟨Nat.le_of_lt newer, fun _ => newer⟩

/-- Whether a reseed of the generation was sent. -/
def Seeded (sent : List QueuedIntent) (g : Nat) : Prop :=
  ∃ reseed ∈ sent, reseed.intent.isReseed = true ∧ reseed.generation = g

/-- A seeded generation stays seeded. -/
theorem Seeded.append {sent : List QueuedIntent} {g : Nat} (seeded : Seeded sent g) (later : List QueuedIntent) :
    Seeded (sent ++ later) g :=
  seeded.imp fun _ found => ⟨List.mem_append_left _ found.1, found.2⟩

/-- An intent that the input thread is about to send in a generation and phase. -/
structure Offered (queued : QueuedIntent) (sent : List QueuedIntent) (g p : Nat) : Prop where
  noClose : queued.intent.isClose = false
  within : queued.generation ≤ g
  follows : ∀ earlier ∈ sent, Follows earlier queued
  seeded : queued.intent.isReseed = false → Seeded sent queued.generation
  current : queued.generation = g → p ≠ dirty
  stale : queued.generation < g → p = dirty
  terminal : queued.intent.isCommitAndClose = true → queued.generation = g → p = terminal

/-- What holds of a call of the input thread between its steps. -/
def Calling (producer : Producer) (sent : List QueuedIntent) (g p : Nat) : Prop :=
  match producer with
  | .idle => True
  | .enqueueing queued => Offered queued sent g p
  | .retreating generation => generation ≤ g
  | .closing next _ | .announcing next _ => next ≤ g ∧ p = dirty ∧ ∀ earlier ∈ sent, earlier.generation < next
  | .gone => p = dirty

/-- What holds of the intents that were sent. -/
structure Sequenced (producer : Producer) (sent : List QueuedIntent) (g p : Nat) : Prop where
  within : ∀ queued ∈ sent, queued.generation ≤ g
  order : sent.Pairwise Follows
  seeded : ∀ queued ∈ sent, queued.intent.isClose = false → Seeded sent queued.generation
  dirty : p = dirty → ∀ queued ∈ sent, queued.intent.isClose = true ∨ queued.generation < g
  running : p ≠ BackgroundMailbox.dirty → producer = .idle → Seeded sent g
  terminal : ∀ queued ∈ sent, queued.intent.isCommitAndClose = true → queued.generation = g → p = terminal
  calling : Calling producer sent g p

namespace Sequenced

variable {producer : Producer} {sent : List QueuedIntent} {g p : Nat}

/-- A raised generation needs a reseed, whatever the input thread goes on with. -/
theorem raise (sequenced : Sequenced producer sent g p) {producer' : Producer}
    (calling : Calling producer' sent (g + 1) BackgroundMailbox.dirty) :
    Sequenced producer' sent (g + 1) BackgroundMailbox.dirty where
  within queued member := Nat.le_succ_of_le (sequenced.within queued member)
  order := sequenced.order
  seeded := sequenced.seeded
  dirty _ queued member := .inr (Nat.lt_succ_of_le (sequenced.within queued member))
  running clean := absurd rfl clean
  terminal queued member _ same := by
    have old := sequenced.within queued member
    omega
  calling := calling

/-- A call goes on when the worker raises the generation under it. -/
theorem calling_raise (sequenced : Sequenced producer sent g p) :
    Calling producer sent (g + 1) BackgroundMailbox.dirty := by
  have calling := sequenced.calling
  cases producer with
  | idle => trivial
  | gone => rfl
  | retreating generation => exact Nat.le_succ_of_le calling
  | closing next last | announcing next last =>
    obtain ⟨within, _, earlier⟩ := calling
    exact ⟨Nat.le_succ_of_le within, rfl, earlier⟩
  | enqueueing queued =>
    have old := calling.within
    exact { noClose := calling.noClose, within := Nat.le_succ_of_le old, follows := calling.follows,
            seeded := calling.seeded, current := fun same => by omega, stale := fun _ => rfl,
            terminal := fun _ same => by omega }

/-- The worker's publication of a reseed changes nothing for the calls. -/
theorem synced (sequenced : Sequenced producer sent g reseedQueued) :
    Sequenced producer sent g BackgroundMailbox.synced where
  within := sequenced.within
  order := sequenced.order
  seeded := sequenced.seeded
  dirty := nofun
  running _ idle := sequenced.running nofun idle
  terminal queued member commit same := absurd (sequenced.terminal queued member commit same) nofun
  calling := by
    have calling := sequenced.calling
    cases producer with
    | idle => trivial
    | gone => exact absurd calling nofun
    | retreating generation => exact calling
    | closing next last | announcing next last => exact absurd calling.2.1 nofun
    | enqueueing queued =>
      exact { noClose := calling.noClose, within := calling.within, follows := calling.follows,
              seeded := calling.seeded, current := fun _ => nofun,
              stale := fun older => absurd (calling.stale older) nofun,
              terminal := fun commit same => absurd (calling.terminal commit same) nofun }

/-- The start of a reseed offers the first intent of its generation. -/
theorem tryReseed (sequenced : Sequenced .idle sent g BackgroundMailbox.dirty) (request : Nat)
    (segments : List InputSegment) :
    Sequenced (.enqueueing ⟨g, .insert request segments true⟩) sent g reseedQueued where
  within := sequenced.within
  order := sequenced.order
  seeded := sequenced.seeded
  dirty := nofun
  running _ := nofun
  terminal queued member commit same := absurd (sequenced.terminal queued member commit same) nofun
  calling :=
    { noClose := rfl
      within := Nat.le_refl _
      follows := fun earlier member => by
        refine ⟨sequenced.within earlier member, fun strict => ?_⟩
        -- Only the announcement of this generation can have been sent in it.
        obtain close | older := sequenced.dirty rfl earlier member
        · obtain none | commit | ⟨_, other⟩ := strict
          · cases none
          · exact absurd (commit.symm.trans (WorkerIntent.isCommitAndClose_of_isClose close)) nofun
          · exact absurd (close.symm.trans other) nofun
        · exact older
      seeded := nofun
      current := fun _ => nofun
      stale := fun older => absurd older (Nat.lt_irrefl _)
      terminal := nofun }

/-- The start of an intent without a reseed offers it behind the reseed of its generation. -/
theorem tryDelta (sequenced : Sequenced .idle sent g p) (open_ : p = reseedQueued ∨ p = BackgroundMailbox.synced)
    {intent : WorkerIntent} (noClose : intent.isClose = false) (noReseed : intent.isReseed = false) {p' : Nat}
    (phase : (p' = p ∧ intent.isCommitAndClose = false) ∨ p' = BackgroundMailbox.terminal) :
    Sequenced (.enqueueing ⟨g, intent⟩) sent g p' := by
  have clean : p ≠ BackgroundMailbox.dirty := by obtain rfl | rfl := open_ <;> nofun
  have uncommitted : ∀ queued ∈ sent, queued.intent.isCommitAndClose = true → queued.generation ≠ g := by
    intro queued member commit same
    have ended := sequenced.terminal queued member commit same
    obtain rfl | rfl := open_ <;> exact absurd ended nofun
  have clean' : p' ≠ BackgroundMailbox.dirty := by
    obtain ⟨rfl, _⟩ | rfl := phase
    · exact clean
    · nofun
  refine
    { within := sequenced.within, order := sequenced.order, seeded := sequenced.seeded,
      dirty := fun dirty => absurd dirty clean', running := fun _ => nofun,
      terminal := fun queued member commit same => absurd same (uncommitted queued member commit),
      calling :=
        { noClose, within := Nat.le_refl _, follows := fun earlier member => ⟨sequenced.within earlier member, ?_⟩,
          seeded := fun _ => sequenced.running clean rfl, current := fun _ => clean',
          stale := fun older => absurd older (Nat.lt_irrefl _), terminal := fun commit _ => ?_ } }
  · rintro (close | commit | ⟨reseed, _⟩)
    · exact absurd (noClose.symm.trans close) nofun
    · exact Nat.lt_of_le_of_ne (sequenced.within earlier member) (uncommitted earlier member commit)
    · exact absurd (noReseed.symm.trans reseed) nofun
  · obtain ⟨_, other⟩ | ended := phase
    · exact absurd (other.symm.trans commit) nofun
    · exact ended

/-- An offered intent is sent behind all others. -/
theorem send {queued : QueuedIntent} (sequenced : Sequenced (.enqueueing queued) sent g p) :
    Sequenced .idle (sent ++ [queued]) g p := by
  have offered : Offered queued sent g p := sequenced.calling
  have seeded : Seeded (sent ++ [queued]) queued.generation := by
    cases reseed : queued.intent.isReseed with
    | true => exact ⟨queued, by simp, reseed, rfl⟩
    | false => exact (offered.seeded reseed).append _
  refine
    { within := fun other member => ?_, order := ?_, seeded := fun other member noClose => ?_,
      dirty := fun dirty other member => ?_, running := fun clean _ => ?_,
      terminal := fun other member commit same => ?_, calling := trivial }
  · obtain earlier | rfl := by simpa using member
    · exact sequenced.within other earlier
    · exact offered.within
  · exact List.pairwise_append.mpr ⟨sequenced.order, List.pairwise_singleton _ _,
      fun earlier member other same => List.mem_singleton.mp same ▸ offered.follows earlier member⟩
  · obtain earlier | rfl := by simpa using member
    · exact (sequenced.seeded other earlier noClose).append _
    · exact seeded
  · obtain earlier | rfl := by simpa using member
    · exact sequenced.dirty dirty other earlier
    · exact .inr (Nat.lt_of_le_of_ne offered.within fun same => offered.current same dirty)
  · -- Only a raised generation can have outdated the offer, and that one is dirty.
    obtain older | same := Nat.lt_or_eq_of_le offered.within
    · exact absurd (offered.stale older) clean
    · exact same ▸ seeded
  · obtain earlier | rfl := by simpa using member
    · exact sequenced.terminal other earlier commit same
    · exact offered.terminal commit same

/-- A raised generation is announced behind all older intents. -/
theorem announce {next : Nat} {last : Bool} (sequenced : Sequenced (.announcing next last) sent g p)
    {producer' : Producer} (free : producer' = .idle ∨ producer' = .gone) :
    Sequenced producer' (sent ++ [⟨next, .close⟩]) g p := by
  obtain ⟨within, dirty, older⟩ : next ≤ g ∧ p = BackgroundMailbox.dirty ∧ ∀ earlier ∈ sent, earlier.generation < next :=
    sequenced.calling
  refine
    { within := fun other member => ?_, order := ?_, seeded := fun other member noClose => ?_,
      dirty := fun _ other member => ?_, running := fun clean => absurd dirty clean,
      terminal := fun other member commit same => ?_, calling := ?_ }
  · obtain earlier | rfl := by simpa using member
    · exact sequenced.within other earlier
    · exact within
  · refine List.pairwise_append.mpr ⟨sequenced.order, List.pairwise_singleton _ _, fun earlier member other same => ?_⟩
    rw [List.mem_singleton.mp same]
    exact .of_lt (older earlier member)
  · obtain earlier | rfl := by simpa using member
    · exact (sequenced.seeded other earlier noClose).append _
    · cases noClose
  · obtain earlier | rfl := by simpa using member
    · exact sequenced.dirty dirty other earlier
    · exact .inl rfl
  · obtain earlier | rfl := by simpa using member
    · exact sequenced.terminal other earlier commit same
    · cases commit
  · obtain rfl | rfl := free
    · trivial
    · exact dirty

/-- A call that ends without sending leaves the order. -/
theorem leave (sequenced : Sequenced producer sent g p) {producer' : Producer}
    (running : p ≠ BackgroundMailbox.dirty → producer' ≠ .idle) (calling : Calling producer' sent g p) :
    Sequenced producer' sent g p where
  within := sequenced.within
  order := sequenced.order
  seeded := sequenced.seeded
  dirty := sequenced.dirty
  running clean idle := absurd idle (running clean)
  terminal := sequenced.terminal
  calling := calling

end Sequenced

/-- The intents of a generation that the transport is asked to apply. -/
def ofGeneration (g : Nat) (intents : List QueuedIntent) : List QueuedIntent :=
  intents.filter fun queued => queued.generation = g && !queued.intent.isClose

/-- An intent is among those of its generation. -/
theorem mem_ofGeneration {g : Nat} {intents : List QueuedIntent} {queued : QueuedIntent} :
    queued ∈ ofGeneration g intents ↔
      queued ∈ intents ∧ queued.generation = g ∧ queued.intent.isClose = false := by
  simp [ofGeneration]

/-- The intents of a generation are cut where the list is. -/
theorem ofGeneration_append (g : Nat) (front back : List QueuedIntent) :
    ofGeneration g (front ++ back) = ofGeneration g front ++ ofGeneration g back := List.filter_append _ _

/-- An intent of the generation is one of it. -/
theorem ofGeneration_singleton {queued : QueuedIntent} (noClose : queued.intent.isClose = false) :
    ofGeneration queued.generation [queued] = [queued] := by
  simp [ofGeneration, noClose]

/-- An intent of another generation, or a close, is none of it. -/
theorem ofGeneration_singleton_of_ne {g : Nat} {queued : QueuedIntent}
    (other : queued.generation ≠ g ∨ queued.intent.isClose = true) : ofGeneration g [queued] = [] := by
  obtain other | close := other
  · simp [ofGeneration, other]
  · simp [ofGeneration, close]

/-- A generation without intents. -/
theorem ofGeneration_eq_nil {g : Nat} {intents : List QueuedIntent}
    (none : ∀ queued ∈ intents, queued.intent.isClose = true ∨ queued.generation ≠ g) : ofGeneration g intents = [] := by
  refine List.filter_eq_nil_iff.mpr fun queued member accepted => ?_
  obtain close | other := none queued member
  · simp [close] at accepted
  · simp [other] at accepted

/-- The first intent of a generation is its reseed. -/
theorem Sequenced.first {producer : Producer} {sent : List QueuedIntent} {g p h : Nat}
    (sequenced : Sequenced producer sent g p) {first : QueuedIntent} {later : List QueuedIntent}
    (begins : ofGeneration h sent = first :: later) : first.intent.isReseed = true := by
  have order : (first :: later).Pairwise Follows := begins ▸ sequenced.order.filter _
  have member : first ∈ ofGeneration h sent := begins ▸ List.mem_cons_self
  obtain ⟨belongs, generation, noClose⟩ := mem_ofGeneration.mp member
  obtain ⟨reseed, found, isReseed, same⟩ := sequenced.seeded first belongs noClose
  have counted : reseed ∈ first :: later := by
    rw [← begins]
    refine mem_ofGeneration.mpr ⟨found, same.trans generation, ?_⟩
    cases intent : reseed.intent <;> first | rfl | (rw [intent] at isReseed; cases isReseed)
  -- A reseed behind the first intent would begin a newer generation.
  obtain rfl | behind := List.mem_cons.mp counted
  · exact isReseed
  · have newer := ((List.pairwise_cons.mp order).1 reseed behind).2 (.inr (.inr ⟨isReseed, noClose⟩))
    omega

/-- The commit of a generation is its last intent. -/
theorem Sequenced.last {producer : Producer} {sent : List QueuedIntent} {g p h : Nat}
    (sequenced : Sequenced producer sent g p) {front back : List QueuedIntent} {commit : QueuedIntent}
    (isCommit : commit.intent.isCommitAndClose = true) (parts : ofGeneration h sent = front ++ commit :: back) :
    back = [] := by
  have order : (front ++ commit :: back).Pairwise Follows := parts ▸ sequenced.order.filter _
  refine List.eq_nil_iff_forall_not_mem.mpr fun later behind => ?_
  have newer := ((List.pairwise_cons.mp (List.pairwise_append.mp order).2.1).1 later behind).2 (.inr (.inl isCommit))
  have same : ∀ other ∈ front ++ commit :: back, other.generation = h := fun other member =>
    (mem_ofGeneration.mp (parts ▸ member)).2.1
  have commitSame := same commit (by simp)
  have laterSame := same later (by simp [behind])
  omega

end BackgroundMailbox

end Nospacekey
