import Nospacekey.Composer.Journal
import Nospacekey.Library.Partition
import Nospacekey.Library.Tiling

/-! The units of a journal stay in order, and inside the positions they were laid out for. -/

namespace Nospacekey

open Partition Tiling

/-- Units that hold at least a position each, one behind the other from one position to another. -/
structure Laid (units : List InputUnit) (start stop : Nat) : Prop where
  ordered : units.Pairwise fun u v => u.stop ≤ v.start
  inside : ∀ u ∈ units, start ≤ u.start ∧ u.start < u.stop ∧ u.stop ≤ stop

/-- A unit whose positions are moved on. -/
def InputUnit.shift (unit : InputUnit) (offset : Nat) : InputUnit :=
  { unit with start := unit.start + offset, stop := unit.stop + offset }

namespace Laid

variable {units front back : List InputUnit} {start stop middle : Nat}

/-- No units are laid out anywhere. -/
theorem nil (start stop : Nat) : Laid [] start stop := ⟨.nil, by simp⟩

/-- Some of the units are laid out like all of them. -/
theorem sublist (laid : Laid units start stop) (part : front.Sublist units) : Laid front start stop :=
  ⟨laid.ordered.sublist part, fun u member => laid.inside u (part.subset member)⟩

/-- Units that happen to lie between other positions are laid out between them. -/
theorem between (laid : Laid units start stop) {lo hi : Nat}
    (bounds : ∀ u ∈ units, lo ≤ u.start ∧ u.stop ≤ hi) : Laid units lo hi :=
  ⟨laid.ordered, fun u member => ⟨(bounds u member).1, (laid.inside u member).2.1, (bounds u member).2⟩⟩

/-- Units may be given more room. -/
theorem mono (laid : Laid units start stop) {lo hi : Nat} (low : lo ≤ start) (high : stop ≤ hi) : Laid units lo hi :=
  laid.between fun u member => by
    obtain ⟨before, _, after⟩ := laid.inside u member
    omega

/-- Units are laid out behind others. -/
theorem append (first : Laid front start middle) (second : Laid back middle stop) (low : start ≤ middle)
    (high : middle ≤ stop) : Laid (front ++ back) start stop where
  ordered := List.pairwise_append.mpr ⟨first.ordered, second.ordered, fun u inFront v inBack =>
    (first.inside u inFront).2.2.trans (second.inside v inBack).1⟩
  inside := by
    intro u member
    rcases List.mem_append.mp member with inFront | inBack
    · exact (first.mono (Nat.le_refl _) high).inside u inFront
    · exact (second.mono low (Nat.le_refl _)).inside u inBack

/-- Units that are moved on stay in order. -/
theorem shift (laid : Laid units start stop) (offset : Nat) :
    Laid (units.map fun u => u.shift offset) (start + offset) (stop + offset) where
  ordered := List.pairwise_map.mpr (laid.ordered.imp fun {u v} less => by simpa [InputUnit.shift] using less)
  inside := by
    intro u member
    obtain ⟨v, inUnits, rfl⟩ := List.mem_map.mp member
    obtain ⟨before, filled, after⟩ := laid.inside v inUnits
    simp only [InputUnit.shift]
    omega

/-- A unit that ends before a position is preceded by such units only. -/
theorem leading_stop (laid : Laid units start stop) (position : Nat) :
    Leading (fun u : InputUnit => decide (u.stop ≤ position)) units := by
  refine laid.ordered.imp_of_mem fun {u v} _ inUnits less ends => ?_
  have := (laid.inside v inUnits).2.1
  rw [decide_eq_true_eq] at ends ⊢
  omega

/-- A unit that starts before a position is preceded by such units only. -/
theorem leading_start (laid : Laid units start stop) (position : Nat) :
    Leading (fun u : InputUnit => decide (u.start < position)) units := by
  refine laid.ordered.imp_of_mem fun {u v} inUnits _ less starts => ?_
  have := (laid.inside u inUnits).2.1
  rw [decide_eq_true_eq] at starts ⊢
  omega

end Laid

namespace InputJournal

variable {journal suffix : InputJournal} {start stop : Nat}

/-- The units that end at or before a position are kept. -/
theorem retainPrefix_units (laid : Laid journal.units start stop) (position : Nat) :
    (journal.retainPrefix position).units = journal.units.filter fun u => u.stop ≤ position :=
  (laid.leading_stop position).takeWhile_eq

/-- What is kept before a position ends there. -/
theorem laid_retainPrefix (laid : Laid journal.units start stop) (position : Nat) :
    Laid (journal.retainPrefix position).units start position := by
  rw [retainPrefix_units laid]
  refine (laid.sublist List.filter_sublist).between fun u member => ?_
  obtain ⟨inUnits, ends⟩ := List.mem_filter.mp member
  exact ⟨(laid.inside u inUnits).1, of_decide_eq_true ends⟩

/-- The units from a position on are moved to the beginning. -/
theorem laid_removePrefix {units : List InputUnit} (laid : Laid units start stop) (count : Nat) :
    Laid (removePrefix ⟨units⟩ count).units 0 (stop - count) where
  ordered := by
    refine List.pairwise_map.mpr ((laid.ordered.filter _).imp fun {u v} less => ?_)
    dsimp only
    omega
  inside := by
    intro u member
    obtain ⟨v, inUnits, rfl⟩ := List.mem_map.mp member
    obtain ⟨inUnits, behind⟩ := List.mem_filter.mp inUnits
    obtain ⟨before, filled, after⟩ := laid.inside v inUnits
    rw [decide_eq_true_eq] at behind
    dsimp only
    omega

/-- Before an edit at a position, what ends there stays, and what starts there or later is set aside. -/
theorem detachSuffix_units (laid : Laid journal.units start stop) (position : Nat) :
    (journal.detachSuffix position).1.units =
        (journal.units.filter fun u => u.start < position).filter (fun u => u.stop ≤ position) ∧
      (journal.detachSuffix position).2 = removePrefix journal position := by
  have starts := laid.leading_start position
  constructor
  · have front : Laid (journal.units.filter fun u => u.start < position) start stop :=
      laid.sublist List.filter_sublist
    have taken := starts.takeWhile_eq
    simp only [detachSuffix, taken]
    exact retainPrefix_units (show Laid (InputJournal.mk _).units start stop from front) position
  · have dropped := starts.dropWhile_eq
    simp only [detachSuffix, removePrefix, dropped, List.filter_filter]
    congr 2
    refine List.filter_congr fun u _ => ?_
    rcases Nat.lt_or_ge u.start position with less | more
    · simp [less]
    · simp [more]

/-- The two parts that an edit sets apart are laid out before the position, and from the beginning. -/
theorem laid_detachSuffix (laid : Laid journal.units start stop) (position : Nat) :
    Laid (journal.detachSuffix position).1.units start position ∧
      Laid (journal.detachSuffix position).2.units 0 (stop - position) := by
  obtain ⟨before, after⟩ := detachSuffix_units laid position
  constructor
  · rw [before]
    refine (laid.sublist ?_).between fun u member => ?_
    · exact List.filter_sublist.trans List.filter_sublist
    · obtain ⟨inUnits, ends⟩ := List.mem_filter.mp member
      exact ⟨(laid.inside u (List.mem_of_mem_filter inUnits)).1, of_decide_eq_true ends⟩
  · rw [after]
    exact laid_removePrefix laid position

/-- What was set aside is laid out behind what an edit leaves, or dropped. -/
theorem laid_appendSuffix {position length : Nat} (laid : Laid journal.units start position)
    (set : Laid suffix.units 0 length) (low : start ≤ position) :
    Laid (journal.appendSuffix suffix position).units start (position + length) := by
  unfold appendSuffix
  split
  · exact laid.mono (Nat.le_refl _) (Nat.le_add_right _ _)
  · have moved := set.shift position
    rw [Nat.zero_add, Nat.add_comm] at moved
    exact laid.append moved low (Nat.le_add_right _ _)

/-- A unit with keys and some length is appended. -/
theorem append_of_filled (journal : InputJournal) {first last : Nat} {original : Text} (less : first < last)
    (keys : original ≠ []) :
    journal.append first last original =
      ⟨(journal.retainPrefix first).units ++ [{ start := first, stop := last, original := original }]⟩ := by
  unfold append
  rw [decide_eq_false (Nat.not_le.mpr less), List.isEmpty_eq_false_iff.mpr keys]
  rfl

/-- A unit without keys is not appended. -/
theorem append_nil (journal : InputJournal) (first last : Nat) : journal.append first last [] = journal := by
  unfold append
  rw [List.isEmpty_nil, Bool.or_true]
  rfl

/-- A unit is laid out behind the others. -/
theorem laid_append (laid : Laid journal.units 0 stop) (length : Nat) (original : Text) :
    Laid (journal.append stop (stop + length) original).units 0 (stop + length) := by
  unfold append
  split
  · exact laid.mono (Nat.le_refl _) (Nat.le_add_right _ _)
  · rename_i filled
    simp only [Bool.or_eq_true, decide_eq_true_eq, not_or, not_le] at filled
    refine (laid_retainPrefix laid stop).append ⟨by simp, ?_⟩ (Nat.zero_le _) (Nat.le_add_right _ _)
    intro u member
    obtain rfl := List.mem_singleton.mp member
    exact ⟨Nat.le_refl _, filled.1, Nat.le_refl _⟩

end InputJournal

/-- The positions of a unit. -/
def InputUnit.span (unit : InputUnit) : Nat × Nat := (unit.start, unit.stop)

/-- The units cover the positions exactly, one behind the other. -/
def Covers (units : List InputUnit) (start stop : Nat) : Prop := Tiles start (units.map InputUnit.span) stop

namespace Covers

variable {units front back : List InputUnit} {start middle stop : Nat}

/-- Units that cover some positions are laid out over them. -/
theorem bounds (covers : Covers units start stop) : ∀ u ∈ units, start ≤ u.start ∧ u.stop ≤ stop := by
  intro u member
  obtain ⟨before, _, after⟩ := Tiles.bounds covers (List.mem_map_of_mem member)
  exact ⟨before, after⟩

/-- Two blocks that meet cover what both cover. -/
theorem append (first : Covers front start middle) (second : Covers back middle stop) :
    Covers (front ++ back) start stop := by
  unfold Covers
  rw [List.map_append]
  exact tiles_append.mpr ⟨middle, first, second⟩

/-- Nothing covers some positions. -/
theorem ne_nil (covers : Covers units start stop) (less : start < stop) : units ≠ [] := by
  rintro rfl
  exact absurd (show start = stop from covers) (Nat.ne_of_lt less)

/-- The first unit of a block starts where the block does. -/
theorem head (covers : Covers units start stop) {first : InputUnit} {rest : List InputUnit}
    (same : units = first :: rest) : first.start = start ∧ first.start < first.stop := by
  subst same
  exact ⟨covers.1, covers.2.1⟩

/-- Moving the units on moves what they cover. -/
theorem shift (covers : Covers units start stop) (offset : Nat) :
    Covers (units.map fun u => u.shift offset) (start + offset) (stop + offset) := by
  have moved := Tiles.map covers (· + offset) fun x y _ less => Nat.add_lt_add_right less offset
  unfold Covers
  rw [List.map_map] at moved ⊢
  exact moved

end Covers

namespace InputJournal

variable {journal suffix : InputJournal} {start stop : Nat}

/-- The original input from a position on is that of a block of the units. -/
theorem originalFrom_eq_some_iff {units : List InputUnit} (filled : ∀ u ∈ units, u.start < u.stop) {next : Nat}
    (less : next < stop) (sofar : Text) {text : Text} :
    originalFrom stop next sofar units = some text ↔
      ∃ block back, units = block ++ back ∧ Covers block next stop ∧
        text = sofar ++ block.flatMap InputUnit.original := by
  induction units generalizing next sofar with
  | nil =>
    refine ⟨nofun, ?_⟩
    rintro ⟨block, back, same, covers, _⟩
    obtain ⟨rfl, _⟩ := List.append_eq_nil_iff.mp same.symm
    exact absurd rfl (covers.ne_nil less)
  | cons unit rest ih =>
    have ih := fun {next : Nat} (less : next < stop) (sofar : Text) =>
      ih (fun u member => filled u (List.mem_cons_of_mem _ member)) less sofar
    unfold originalFrom
    split
    · -- The first unit does not start where it should, or reaches too far.
      rename_i bad
      refine ⟨nofun, ?_⟩
      rintro ⟨block, back, same, covers, _⟩
      obtain ⟨first, block, rfl⟩ := List.exists_cons_of_ne_nil (covers.ne_nil less)
      obtain ⟨rfl, _⟩ := List.cons_eq_cons.mp same
      have starts := (covers.head rfl).1
      have ends := (covers.bounds unit List.mem_cons_self).2
      simp only [starts, ne_eq, not_true_eq_false, decide_false, Bool.false_or, decide_eq_true_eq] at bad
      omega
    rename_i good
    simp only [ne_eq, Bool.or_eq_true, decide_eq_true_eq, not_or, not_not, not_lt] at good
    split
    · rename_i done
      constructor
      · intro same
        refine ⟨[unit], rest, rfl, ⟨good.1, filled unit List.mem_cons_self, done⟩, ?_⟩
        rw [← Option.some.inj same]
        simp
      · rintro ⟨block, back, same, covers, rfl⟩
        obtain ⟨first, block, rfl⟩ := List.exists_cons_of_ne_nil (covers.ne_nil less)
        obtain ⟨rfl, _⟩ := List.cons_eq_cons.mp same
        have later : Tiles unit.stop (block.map InputUnit.span) stop := covers.2.2
        rw [done] at later
        have empty := later.eq_nil_iff.mpr rfl
        rw [List.map_eq_nil_iff.mp empty]
        simp
    · rename_i more
      rw [ih (by omega)]
      constructor
      · rintro ⟨block, back, rfl, covers, rfl⟩
        exact ⟨unit :: block, back, rfl, ⟨good.1, filled unit List.mem_cons_self, covers⟩, by simp⟩
      · rintro ⟨block, back, same, covers, rfl⟩
        obtain ⟨first, block, rfl⟩ := List.exists_cons_of_ne_nil (covers.ne_nil less)
        obtain ⟨rfl, rest'⟩ := List.cons_eq_cons.mp same
        exact ⟨block, back, rest', covers.2.2, by simp⟩

/-- In a layout, what ends at or before the end of a block is the block and what precedes it. -/
theorem dropWhile_block {front block back : List InputUnit} (laid : Laid (front ++ block ++ back) start stop)
    {first last position : Nat} (covers : Covers block first last) (less : first < last) :
    (position = first → (front ++ block ++ back).dropWhile (fun u => u.stop ≤ position) = block ++ back) ∧
      (position = last → (front ++ block ++ back).dropWhile (fun u => u.stop ≤ position) = back) := by
  obtain ⟨head, rest, same⟩ := List.exists_cons_of_ne_nil (covers.ne_nil less)
  have ordered := List.pairwise_append.mp laid.ordered
  have before : ∀ u ∈ front, u.stop ≤ first := by
    intro u member
    rw [← (covers.head same).1]
    exact (List.pairwise_append.mp ordered.1).2.2 u member head (by rw [same]; exact List.mem_cons_self)
  -- The last unit of the block ends where the block does.
  have behind : ∀ u ∈ back, last ≤ u.start := by
    intro u member
    have final := Tiles.ends covers (show (block.map InputUnit.span).head? = some head.span by rw [same]; rfl)
      (List.getLast?_eq_some_getLast (l := block.map InputUnit.span) (by rw [same]; simp))
    rw [List.getLast_map] at final
    have := ordered.2.2 (block.getLast (by rw [same]; simp)) (List.mem_append_right _ (List.getLast_mem _)) u member
    have ends := final.2.1
    simp only [InputUnit.span] at ends
    omega
  have filled : ∀ u ∈ front ++ block ++ back, u.start < u.stop := fun u member => (laid.inside u member).2.1
  constructor
  · rintro rfl
    rw [(laid.leading_stop _).dropWhile_eq, List.append_assoc, List.filter_append]
    rw [List.filter_eq_nil_iff.mpr fun u member => by simp [before u member], List.nil_append]
    refine List.filter_eq_self.mpr fun u member => ?_
    have here := filled u (by rw [List.append_assoc]; exact List.mem_append_right _ member)
    rcases List.mem_append.mp member with inBlock | inBack
    · have := (covers.bounds u inBlock).1
      simp
      omega
    · have := behind u inBack
      simp
      omega
  · rintro rfl
    rw [(laid.leading_stop _).dropWhile_eq, List.filter_append]
    rw [List.filter_eq_nil_iff.mpr, List.nil_append]
    · refine List.filter_eq_self.mpr fun u member => ?_
      have := filled u (List.mem_append_right _ member)
      have := behind u member
      simp
      omega
    · intro u member
      rcases List.mem_append.mp member with inFront | inBlock
      · have := before u inFront
        simp
        omega
      · have := (covers.bounds u inBlock).2
        simpa using this

/-- The original input of some positions is that of the units that cover them exactly. -/
theorem original_eq_some_iff (laid : Laid journal.units start stop) {first last : Nat} {text : Text} :
    journal.original first last = some text ↔ first < last ∧ ∃ front block back,
      journal.units = front ++ block ++ back ∧ Covers block first last ∧
        text = block.flatMap InputUnit.original := by
  unfold original
  split
  · rename_i empty
    exact ⟨nofun, fun ⟨less, _⟩ => by omega⟩
  rename_i less
  have less : first < last := by omega
  have filled : ∀ u ∈ journal.units.dropWhile (fun unit => unit.stop ≤ first), u.start < u.stop := fun u member =>
    (laid.inside u ((List.dropWhile_sublist _).subset member)).2.1
  rw [originalFrom_eq_some_iff filled less []]
  constructor
  · rintro ⟨block, back, same, covers, rfl⟩
    refine ⟨less, journal.units.takeWhile (fun unit => unit.stop ≤ first), block, back, ?_, covers, rfl⟩
    rw [List.append_assoc, ← same, List.takeWhile_append_dropWhile]
  · rintro ⟨_, front, block, back, whole, covers, rfl⟩
    rw [whole] at laid ⊢
    exact ⟨block, back, (dropWhile_block laid covers less).1 rfl, covers, rfl⟩

/-- Moving all units on moves their original input. -/
theorem original_shift (units : List InputUnit) (first last offset : Nat) :
    original ⟨units.map fun u => u.shift offset⟩ (first + offset) (last + offset) = original ⟨units⟩ first last := by
  have from' : ∀ (units : List InputUnit) (next : Nat) (sofar : Text),
      originalFrom (last + offset) (next + offset) sofar (units.map fun u => u.shift offset) =
        originalFrom last next sofar units := by
    intro units
    induction units with
    | nil => intros; rfl
    | cons unit rest ih =>
      intro next sofar
      simp only [List.map_cons, originalFrom, InputUnit.shift, ne_eq, Nat.add_right_cancel_iff,
        Nat.add_lt_add_iff_right]
      split
      · rfl
      split
      · rfl
      · exact ih unit.stop (sofar ++ unit.original)
  unfold original
  rw [List.dropWhile_map]
  simp only [Function.comp_def, InputUnit.shift, Nat.add_le_add_iff_right]
  split
  · rfl
  · exact from' _ first []

/-- Of the units that a range needs, none starts before it. -/
theorem original_filter (laid : Laid journal.units start stop) {position first last : Nat} (behind : position ≤ first) :
    original ⟨journal.units.filter fun u => position ≤ u.start⟩ first last = journal.original first last := by
  have laid' : Laid (journal.units.filter fun u => position ≤ u.start) start stop := laid.sublist List.filter_sublist
  refine Option.ext fun text => ?_
  rw [original_eq_some_iff (show Laid (InputJournal.mk _).units start stop from laid'), original_eq_some_iff laid]
  refine and_congr_right fun less => ?_
  constructor
  · rintro ⟨front, block, back, whole, covers, rfl⟩
    -- The filter keeps the end of the units.
    have dropped := (laid.leading_start position).dropWhile_eq
    have same : (journal.units.filter fun u => !decide (u.start < position)) =
        journal.units.filter fun u => position ≤ u.start := by
      refine List.filter_congr fun u _ => ?_
      rcases Nat.lt_or_ge u.start position with before | after
      · simp [before]
      · simp [after]
    refine ⟨journal.units.takeWhile (fun u => u.start < position) ++ front, block, back, ?_, covers, rfl⟩
    have whole : journal.units.filter (fun u => position ≤ u.start) = front ++ block ++ back := whole
    rw [List.append_assoc, List.append_assoc, ← List.append_assoc front, ← whole, ← same, ← dropped,
      List.takeWhile_append_dropWhile]
  · rintro ⟨front, block, back, whole, covers, rfl⟩
    refine ⟨front.filter fun u => position ≤ u.start, block, back, ?_, covers, rfl⟩
    obtain ⟨head, rest, same⟩ := List.exists_cons_of_ne_nil (covers.ne_nil less)
    have starts := covers.head same
    show journal.units.filter (fun u => position ≤ u.start) = _
    rw [whole, List.filter_append, List.filter_append]
    congr 1
    · congr 1
      exact List.filter_eq_self.mpr fun u member => by
        have := (covers.bounds u member).1
        simp
        omega
    · refine List.filter_eq_self.mpr fun u member => ?_
      have ordered := (List.pairwise_append.mp (whole ▸ laid.ordered)).2.2 head
        (List.mem_append_right _ (by rw [same]; exact List.mem_cons_self)) u member
      simp
      omega

/-- Units that were moved back and are moved on are where they were. -/
theorem removePrefix_shift (units : List InputUnit) (filled : ∀ u ∈ units, u.start < u.stop) (count : Nat) :
    (removePrefix ⟨units⟩ count).units.map (fun u => u.shift count) = units.filter fun u => count ≤ u.start := by
  unfold removePrefix
  rw [List.map_map]
  conv_rhs => rw [← List.map_id (units.filter fun u => count ≤ u.start)]
  refine List.map_congr_left fun u member => ?_
  obtain ⟨inUnits, behind⟩ := List.mem_filter.mp member
  have := filled u inUnits
  rw [decide_eq_true_eq] at behind
  simp only [Function.comp, InputUnit.shift, id]
  rw [Nat.sub_add_cancel behind, Nat.sub_add_cancel (by omega)]

/-- Without the units before a position, the original input behind it is the same. -/
theorem original_removePrefix (laid : Laid journal.units start stop) (position first last : Nat) :
    (journal.removePrefix position).original first last = journal.original (position + first) (position + last) := by
  have filled : ∀ u ∈ journal.units, u.start < u.stop := fun u member => (laid.inside u member).2.1
  have moved := original_shift (journal.removePrefix position).units first last position
  rw [removePrefix_shift journal.units filled, Nat.add_comm first, Nat.add_comm last,
    original_filter laid (Nat.le_add_right _ _)] at moved
  exact moved.symm

/-- What was put back behind the cursor is behind it. -/
theorem removePrefix_appendSuffix {position length : Nat} (laid : Laid journal.units start position)
    (set : Laid suffix.units 0 length) (fits : position + length < 2 ^ 32) :
    (journal.appendSuffix suffix position).removePrefix position = suffix := by
  unfold appendSuffix
  rw [if_neg]
  · unfold removePrefix
    rw [List.filter_append]
    have before : (journal.units.filter fun u => position ≤ u.start) = [] := by
      refine List.filter_eq_nil_iff.mpr fun u member => ?_
      have := laid.inside u member
      simp
      omega
    have after : ((suffix.units.map fun u => { u with start := u.start + position, stop := u.stop + position }).filter
        fun u : InputUnit => position ≤ u.start) =
        suffix.units.map fun u => { u with start := u.start + position, stop := u.stop + position } := by
      refine List.filter_eq_self.mpr fun u member => ?_
      obtain ⟨v, _, rfl⟩ := List.mem_map.mp member
      simp
    rw [before, after, List.nil_append, List.map_map]
    simp [Function.comp_def]
  · -- No unit is moved beyond the last position.
    simp only [Option.any_eq_true, decide_eq_true_eq, not_exists, not_and, not_le]
    intro unit last
    have := (set.inside unit (List.mem_of_getLast? last)).2.2
    omega

end InputJournal

end Nospacekey
