import Mathlib.Order.Basic
import Mathlib.Data.List.Basic
import Mathlib.Data.List.Nodup
import Mathlib.Data.List.TakeDrop

/-! Consecutive nonempty spans, and lists edited by replacing one block of their elements. -/

namespace Tiling

variable {α : Type*}

/-- The spans follow one another without gaps from the first bound to the last, none of them empty. -/
def Tiles [LT α] : α → List (α × α) → α → Prop
  -- An empty run covers nothing, so its two bounds coincide.
  | lo, [], hi => lo = hi
  | lo, span :: rest, hi => span.1 = lo ∧ span.1 < span.2 ∧ Tiles span.2 rest hi

section Order

variable [Preorder α]

/-- A run of spans never ends before it starts. -/
theorem Tiles.le {lo hi : α} {spans : List (α × α)} (tiles : Tiles lo spans hi) : lo ≤ hi := by
  -- Each span moves the cursor strictly upwards.
  induction spans generalizing lo with
  | nil => exact le_of_eq tiles
  | cons span rest ih =>
    obtain ⟨start, nonempty, rest⟩ := tiles
    exact start ▸ le_trans (le_of_lt nonempty) (ih rest)

/-- Splitting a run at any place splits the covered interval at one point. -/
theorem tiles_append {lo hi : α} {front back : List (α × α)} :
    Tiles lo (front ++ back) hi ↔ ∃ mid, Tiles lo front mid ∧ Tiles mid back hi := by
  -- The meeting point is the end of the front run.
  induction front generalizing lo with
  | nil => exact ⟨fun tiles => ⟨lo, rfl, tiles⟩, fun ⟨_, same, tiles⟩ => same ▸ tiles⟩
  | cons span rest ih =>
    constructor
    · rintro ⟨start, nonempty, tiles⟩
      obtain ⟨mid, left, right⟩ := ih.mp tiles
      exact ⟨mid, ⟨start, nonempty, left⟩, right⟩
    · rintro ⟨mid, ⟨start, nonempty, left⟩, right⟩
      exact ⟨start, nonempty, ih.mpr ⟨mid, left, right⟩⟩

/-- One span covers exactly its own interval. -/
theorem tiles_singleton {lo hi : α} {span : α × α} :
    Tiles lo [span] hi ↔ span.1 = lo ∧ span.1 < span.2 ∧ span.2 = hi := by
  simp [Tiles]

/-- Every span lies inside the covered interval and is itself nonempty. -/
theorem Tiles.bounds {lo hi : α} {spans : List (α × α)} (tiles : Tiles lo spans hi)
    {span : α × α} (member : span ∈ spans) : lo ≤ span.1 ∧ span.1 < span.2 ∧ span.2 ≤ hi := by
  -- Cut the run around the member and read the two outer runs as inequalities.
  obtain ⟨front, back, rfl⟩ := List.append_of_mem member
  obtain ⟨mid, left, start, nonempty, right⟩ := tiles_append.mp tiles
  exact ⟨start ▸ left.le, nonempty, right.le⟩

/-- Each span starts where the run does or where another span ends. -/
theorem Tiles.starts {lo hi : α} {spans : List (α × α)} (tiles : Tiles lo spans hi)
    (holds : α → Prop) (first : holds lo) (ends : ∀ span ∈ spans, holds span.2) :
    ∀ span ∈ spans, holds span.1 := by
  -- The cursor always stands at the run's start or at the end of the previous span.
  induction spans generalizing lo with
  | nil => simp
  | cons head rest ih =>
    obtain ⟨start, _, rest⟩ := tiles
    intro span member
    rcases List.mem_cons.mp member with rfl | later
    · exact start ▸ first
    · exact ih rest (ends head (by simp)) (fun other inRest => ends other (by simp [inRest])) span later

/-- A nonempty run starts with its first span and ends with its last one. -/
theorem Tiles.ends {lo hi : α} {spans : List (α × α)} (tiles : Tiles lo spans hi) {first last : α × α}
    (head : spans.head? = some first) (tail : spans.getLast? = some last) :
    first.1 = lo ∧ last.2 = hi ∧ lo < hi := by
  -- The rest of the run is empty exactly when the first span is also the last.
  induction spans generalizing lo first with
  | nil => cases head
  | cons span rest ih =>
    obtain ⟨start, nonempty, later⟩ := tiles
    simp only [List.head?_cons, Option.some.injEq] at head
    subst head
    cases rest with
    | nil =>
      simp only [List.getLast?_singleton, Option.some.injEq] at tail
      subst tail
      have stop : span.2 = hi := later
      exact ⟨start, stop, start ▸ stop ▸ nonempty⟩
    | cons next rest =>
      rw [List.getLast?_cons_cons] at tail
      obtain ⟨_, stop, onward⟩ := ih later rfl tail
      exact ⟨start, stop, start ▸ lt_trans nonempty onward⟩

/-- A run is empty exactly when its bounds coincide. -/
theorem Tiles.eq_nil_iff {lo hi : α} {spans : List (α × α)} (tiles : Tiles lo spans hi) :
    spans = [] ↔ lo = hi := by
  -- A first span would move the end strictly above the start.
  cases spans with
  | nil => exact ⟨fun _ => tiles, fun _ => rfl⟩
  | cons span rest =>
    obtain ⟨start, nonempty, rest⟩ := tiles
    constructor
    · intro absurdity; cases absurdity
    · intro same
      subst same
      exact absurd (start ▸ lt_of_lt_of_le nonempty rest.le) (lt_irrefl _)

/-- A map that is strictly monotone from the lower bound upwards carries a run to a run. -/
theorem Tiles.map {β : Type*} [Preorder β] {lo hi : α} {spans : List (α × α)}
    (tiles : Tiles lo spans hi) (f : α → β) (mono : ∀ x y, lo ≤ x → x < y → f x < f y) :
    Tiles (f lo) (spans.map fun span => (f span.1, f span.2)) (f hi) := by
  -- The remaining run starts at a higher bound, where monotonicity still applies.
  induction spans generalizing lo with
  | nil => exact congrArg f tiles
  | cons span rest ih =>
    obtain ⟨start, nonempty, rest⟩ := tiles
    subst start
    exact ⟨rfl, mono _ _ le_rfl nonempty,
      ih rest fun x y above => mono x y (le_trans (le_of_lt nonempty) above)⟩

end Order

/-- Two spans of one run that end at the same point are at the same place. -/
theorem Tiles.end_injective [PartialOrder α] {lo hi : α} {spans : List (α × α)}
    (tiles : Tiles lo spans hi) {i j : Nat} {a b : α × α} (first : spans[i]? = some a)
    (second : spans[j]? = some b) (same : a.2 = b.2) : i = j := by
  -- Otherwise the later span starts no earlier than the earlier one ends.
  have ordered : ∀ {i j : Nat} {a b : α × α}, spans[i]? = some a → spans[j]? = some b →
      i < j → a.2 < b.2 := by
    intro i j a b first second before
    have split : spans = spans.take (i + 1) ++ spans.drop (i + 1) := (List.take_append_drop _ _).symm
    rw [split] at tiles
    obtain ⟨mid, left, right⟩ := tiles_append.mp tiles
    have inFront : a ∈ spans.take (i + 1) :=
      List.mem_of_getElem? (show (spans.take (i + 1))[i]? = some a by
        rw [List.getElem?_take_of_lt (by omega)]; exact first)
    have inBack : b ∈ spans.drop (i + 1) :=
      List.mem_of_getElem? (show (spans.drop (i + 1))[j - (i + 1)]? = some b by
        rw [List.getElem?_drop, show i + 1 + (j - (i + 1)) = j by omega]; exact second)
    have below := (left.bounds inFront).2.2
    obtain ⟨above, nonempty, _⟩ := right.bounds inBack
    exact lt_of_le_of_lt (le_trans below above) nonempty
  rcases Nat.lt_trichotomy i j with before | equal | after
  · exact absurd same (ne_of_lt (ordered first second before))
  · exact equal
  · exact absurd same.symm (ne_of_lt (ordered second first after))

/-- A list with the block from one index up to another replaced by a new block. -/
def splice (list : List α) (start stop : Nat) (block : List α) : List α :=
  list.take start ++ block ++ list.drop stop

/-- Elements after a replacement are old elements outside the block, or new ones. -/
theorem mem_splice {list block : List α} {start stop : Nat} {x : α}
    (member : x ∈ splice list start stop block) :
    x ∈ list.take start ∨ x ∈ block ∨ x ∈ list.drop stop := by
  simpa [splice, or_assoc] using member

/-- Elements after a replacement come from the old list or from the new block. -/
theorem mem_or_mem_of_mem_splice {list block : List α} {start stop : Nat} {x : α}
    (member : x ∈ splice list start stop block) : x ∈ list ∨ x ∈ block := by
  -- Both outer parts are parts of the old list.
  rcases mem_splice member with front | new | back
  · exact .inl (List.mem_of_mem_take front)
  · exact .inr new
  · exact .inl (List.mem_of_mem_drop back)

/-- Mapping a replaced list replaces the block in the mapped list. -/
theorem map_splice {β : Type*} (f : α → β) (list block : List α) (start stop : Nat) :
    (splice list start stop block).map f = splice (list.map f) start stop (block.map f) := by
  simp [splice, List.map_take, List.map_drop]

/-- The length after a replacement inside the list. -/
theorem length_splice {list block : List α} {start stop : Nat} (ordered : start ≤ stop)
    (within : stop ≤ list.length) :
    (splice list start stop block).length = list.length - (stop - start) + block.length := by
  simp [splice]
  omega

/-- A block between two lists is replaced between them. -/
theorem splice_between (front old back block : List α) {start stop : Nat} (starts : start = front.length)
    (stops : stop = front.length + old.length) :
    splice (front ++ (old ++ back)) start stop block = front ++ (block ++ back) := by
  subst starts stops
  have length : (front ++ old).length = front.length + old.length := List.length_append
  rw [splice, List.take_left, ← List.append_assoc front, ← length, List.drop_left, List.append_assoc]

/-- Positions before the replaced block are untouched. -/
theorem getElem?_splice_of_lt {list block : List α} {start stop i : Nat} (before : i < start)
    (within : start ≤ list.length) : (splice list start stop block)[i]? = list[i]? := by
  -- The index falls in the retained front.
  have short : i < (list.take start).length := by simp; omega
  rw [splice, List.append_assoc, List.getElem?_append_left short, List.getElem?_take_of_lt before]

/-- The retained front is exactly the old one. -/
theorem take_splice {list block : List α} {start stop : Nat} (within : start ≤ list.length) :
    (splice list start stop block).take start = list.take start := by
  -- The front has exactly the requested length.
  have length : (list.take start).length = start := by simp; omega
  rw [splice, List.append_assoc, List.take_append_of_le_length (by omega), List.take_take, Nat.min_self]

/-- The new block starts where the replaced one did. -/
theorem getElem?_splice_start {list block : List α} {start stop : Nat} {x : α} {rest : List α}
    (within : start ≤ list.length) (shape : block = x :: rest) :
    (splice list start stop block)[start]? = some x := by
  -- The front has exactly the requested length, so the block's head follows it.
  have length : (list.take start).length = start := by simp; omega
  subst shape
  rw [splice, List.append_assoc, List.getElem?_append_right (by omega), length]
  simp

/-- Replacing a block by another covering the same interval keeps the whole run. -/
theorem Tiles.splice [Preorder α] {lo hi : α} {spans : List (α × α)} (tiles : Tiles lo spans hi)
    {start stop : Nat} (ordered : start ≤ stop) {block : List (α × α)}
    (same : ∀ a b, Tiles a ((spans.drop start).take (stop - start)) b → Tiles a block b) :
    Tiles lo (Tiling.splice spans start stop block) hi := by
  -- Cut the run at both ends of the block and reassemble it around the new one.
  have split : spans = spans.take start ++ ((spans.drop start).take (stop - start)
      ++ spans.drop stop) := by
    have inner := (List.take_append_drop (stop - start) (spans.drop start)).symm
    rw [List.drop_drop, show start + (stop - start) = stop by omega] at inner
    rw [← inner, List.take_append_drop]
  rw [split] at tiles
  obtain ⟨a, front, tiles⟩ := tiles_append.mp tiles
  obtain ⟨b, middle, back⟩ := tiles_append.mp tiles
  rw [Tiling.splice, List.append_assoc]
  exact tiles_append.mpr ⟨a, front, tiles_append.mpr ⟨b, same a b middle, back⟩⟩

/-- Keys stay distinct when the new block's keys are distinct and collide only with replaced ones. -/
theorem nodup_splice {β : Type*} (key : α → β) {list block : List α} {start stop : Nat}
    (ordered : start ≤ stop) (distinct : (list.map key).Nodup) (fresh : (block.map key).Nodup)
    (outside : ∀ x ∈ block, ∀ y, y ∈ list.take start ∨ y ∈ list.drop stop → key x ≠ key y) :
    ((splice list start stop block).map key).Nodup := by
  -- The two retained parts are disjoint parts of the old list, and the block avoids both.
  have split : list = list.take stop ++ list.drop stop := (List.take_append_drop _ _).symm
  have parts := distinct
  rw [split, List.map_append, List.nodup_append] at parts
  obtain ⟨front, back, apart⟩ := parts
  have frontShort : (list.take start).Sublist (list.take stop) := by
    rw [show list.take start = (list.take stop).take start by rw [List.take_take, Nat.min_eq_left ordered]]
    exact List.take_sublist _ _
  have frontNodup := (frontShort.map key).nodup front
  simp only [splice, List.map_append, List.nodup_append, List.mem_append, List.mem_map]
  refine ⟨⟨frontNodup, fresh, ?_⟩, back, ?_⟩
  · rintro _ ⟨x, inFront, rfl⟩ _ ⟨y, inBlock, rfl⟩
    exact (outside y inBlock x (.inl inFront)).symm
  · rintro _ (⟨x, inFront, rfl⟩ | ⟨x, inBlock, rfl⟩) _ ⟨y, inBack, rfl⟩
    · exact apart _ (List.mem_map_of_mem (frontShort.subset inFront)) _ (List.mem_map_of_mem inBack)
    · exact outside x inBlock y (.inr inBack)

end Tiling
