import Mathlib.Data.List.Infix
import Nospacekey.Composer.Operations

/-! When a retained beginning of the reading stays as it is under later typing. -/

namespace Nospacekey

open Utf8 Runs

/-- What follows the first key of a spelling but its last one begins a spelling as well. -/
theorem romanKana_tails : (romanKana.all fun entry => entry.1.length ≤ 3 ||
    romanKana.any fun other => entry.1.tail.dropLast.isPrefixOf other.1 && entry.1.tail.dropLast != other.1) = true := by
  decide +kernel

/-- Waiting keys wait without the first one too. -/
theorem Waiting.tail {first : Char} {rest : Text} (waiting : Waiting (first :: rest)) : Waiting rest := by
  have consonants := waiting.consonant
  rcases waiting with ⟨c, same, _⟩ | ⟨entry, member, ⟨more, whole⟩, proper⟩
  · obtain ⟨_, rfl⟩ := List.cons_eq_cons.mp same
    exact waiting_nil
  have lower := (regular_of_mem member).lower
  cases rest with
  | nil => exact waiting_nil
  | cons second rest =>
    -- The last key of the spelling is not among the waiting ones.
    have filled : more ≠ [] := by
      rintro rfl
      exact proper (by simpa using whole)
    by_cases short : entry.1.length ≤ 3
    · have single : rest = [] := by
        have length := congrArg List.length whole
        have := List.length_pos_iff.mpr filled
        simp only [List.length_append, List.length_cons] at length
        exact List.length_eq_zero_iff.mp (by omega)
      subst single
      refine .inl ⟨second, rfl, ?_, consonants second (by simp)⟩
      have isLower := lower second (by rw [← whole]; simp)
      delta Char.isAlpha
      simp [isLower]
    · have listed := List.all_eq_true.mp romanKana_tails entry member
      simp only [Bool.or_eq_true, decide_eq_true_eq, short, false_or, List.any_eq_true, Bool.and_eq_true,
        List.isPrefixOf_iff_prefix, bne_iff_ne] at listed
      obtain ⟨other, among, begins, other'⟩ := listed
      have onward : second :: rest <+: entry.1.tail.dropLast := by
        rw [← whole]
        simp only [List.cons_append, List.tail_cons]
        rw [← List.cons_append, List.dropLast_append_of_ne_nil filled]
        exact List.prefix_append _ _
      refine .inr ⟨other, among, onward.trans begins, fun same => other' ?_⟩
      exact begins.eq_of_length_le (by rw [← same]; exact onward.length_le)

namespace LocalKanaComposer

section Doubling

variable {c : LocalKanaComposer}

/-- The parser only adds to the stable text. -/
theorem stable_prefix_advanceWithin (fuel : Nat) (c : LocalKanaComposer) :
    c.stable <+: (c.advanceWithin fuel).stable := by
  induction fuel generalizing c with
  | zero => exact List.prefix_rfl
  | succ fuel ih =>
    unfold advanceWithin
    split
    · exact List.prefix_rfl
    · rename_i unit _
      have added : c.stable <+: (c.acceptUnit unit).stable := List.prefix_append _ _
      exact added.trans (ih _)

/-- No spelling begins keys that wait and are followed by the last of them again. -/
theorem lookupRoman_doubled {keys : Text} {last : Char} (waiting : Waiting (keys ++ [last])) :
    lookupRoman (keys ++ [last, last]) = none ∧
      (isRomanPrefix (keys ++ [last, last]) = false) := by
  -- A spelling never has the same key twice in a row.
  have twice (front back : Text) {entry : Text × Text} (member : entry ∈ romanKana) :
      entry.1 ≠ front ++ last :: last :: back := by
    intro same
    have regular := regular_of_mem member
    refine regular.apart (last, last) ?_ rfl
    rw [same]
    cases front with
    | nil => simp
    | cons head tail =>
      rw [List.cons_append, List.tail_cons]
      have : ∀ (front : Text) (head : Char), (last, last) ∈ (head :: (front ++ last :: last :: back)).zip
          (front ++ last :: last :: back) := by
        intro front
        induction front with
        | nil => intro head; simp
        | cons next front ih => intro head; exact List.mem_cons_of_mem _ (ih next)
      exact this tail head
  have missing := lookupRoman_eq_none_iff.mp waiting.lookup
  refine ⟨lookupRoman_eq_none_iff.mpr fun entry member begins => ?_, ?_⟩
  · have whole : keys ++ [last, last] = (keys ++ [last]) ++ [last] := by simp
    rw [whole] at begins
    rcases List.prefix_concat_iff.mp begins with same | shorter
    · exact twice keys [] member (by rw [same]; simp)
    · exact missing entry member shorter
  · cases completes : isRomanPrefix (keys ++ [last, last]) with
    | false => rfl
    | true =>
      rcases isRomanPrefix_iff.mp completes with ⟨c, same, _⟩ | ⟨entry, member, back, whole⟩
      · have length := congrArg List.length same
        simp only [List.length_append, List.length_cons, List.length_nil] at length
        omega
      · exact absurd (by rw [← whole]; simp) (twice keys back member)

/-- A letter is not turned into kana and still there. -/
theorem not_prefix_of_letter {front text more : Text} {letter kana : Char} (isAlpha : letter.isAlpha = true)
    (other : kana.isAlpha = false) : ¬ front ++ letter :: text <+: front ++ kana :: more := by
  intro begins
  rw [List.prefix_append_right_inj] at begins
  rw [(List.cons_prefix_cons.mp begins).1, other] at isAlpha
  cases isAlpha

/-- Where the keys wait, the parser is done. -/
theorem advanceWithin_of_waiting (fuel : Nat) (waiting : Waiting c.pending) : c.advanceWithin fuel = c := by
  cases fuel with
  | zero => rfl
  | succ fuel => simp only [advanceWithin, nextUnit_eq_none_iff.mpr waiting]

/-- Waiting keys whose last one is typed again turn into something else, and into no less text. -/
theorem advanceWithin_doubled {keys : Text} {last : Char} (waiting : Waiting (keys ++ [last]))
    (pending : c.pending = keys ++ [last, last]) {fuel : Nat} (enough : c.pending.length ≤ fuel) :
    ¬ c.stable ++ (keys ++ [last]) <+: (c.advanceWithin fuel).stable ++ (c.advanceWithin fuel).pending ∧
      c.stable.length + keys.length + 1 ≤ (c.advanceWithin fuel).cursor := by
  -- The keys are frozen one by one, until a pair of equal ones is reached.
  induction keys generalizing c fuel with
  | nil =>
    have letter : last.isAlpha = true := isAlpha_of_waiting waiting last (by simp)
    have consonant : isVowel last = false := waiting.consonant last (by simp)
    have missing : lookupRoman [last, last] = none := (lookupRoman_doubled waiting).1
    obtain ⟨fuel, rfl⟩ : ∃ n, fuel = n + 1 := ⟨fuel - 1, by rw [pending] at enough; simp at enough; omega⟩
    have pending : c.pending = [last, last] := pending
    by_cases isN : last = 'n'
    · subst isN
      have unit : nextUnit c.pending = some ⟨['ん'], .kana, ['n', 'n'], []⟩ := by rw [pending]; rfl
      simp only [advanceWithin, unit]
      rw [advanceWithin_of_waiting fuel (c := c.acceptUnit ⟨['ん'], .kana, ['n', 'n'], []⟩) waiting_nil]
      refine ⟨fun begins => ?_, ?_⟩
      · have begins : c.stable ++ ['n'] <+: (c.stable ++ ['ん']) ++ [] := begins
        rw [List.append_nil] at begins
        exact not_prefix_of_letter letter (by decide) begins
      · show c.stable.length + 0 + 1 ≤ (c.stable ++ ['ん']).length + 0
        rw [List.length_append]
        simp
    · have unit : nextUnit c.pending = some ⟨['っ'], .kana, [last], [last]⟩ := by
        rw [pending]
        unfold nextUnit
        simp [missing, isN, letter, consonant, Ne.symm isN]
      simp only [advanceWithin, unit]
      rw [advanceWithin_of_waiting fuel (c := c.acceptUnit ⟨['っ'], .kana, [last], [last]⟩) waiting]
      refine ⟨fun begins => ?_, ?_⟩
      · have begins : c.stable ++ [last] <+: (c.stable ++ ['っ']) ++ [last] := begins
        rw [List.append_assoc] at begins
        exact not_prefix_of_letter letter (by decide) begins
      · show c.stable.length + 0 + 1 ≤ (c.stable ++ ['っ']).length + 1
        rw [List.length_append]
        simp
  | cons first keys ih =>
    have letter : first.isAlpha = true := isAlpha_of_waiting waiting first (by simp)
    obtain ⟨fuel, rfl⟩ : ∃ n, fuel = n + 1 := ⟨fuel - 1, by rw [pending] at enough; simp at enough; omega⟩
    obtain ⟨second, rest, following⟩ : ∃ second rest, keys ++ [last] = second :: rest := by
      cases keys with
      | nil => exact ⟨last, [], rfl⟩
      | cons second keys => exact ⟨second, keys ++ [last], rfl⟩
    have behind : keys ++ [last, last] = second :: (rest ++ [last]) := by
      rw [← List.cons_append, ← following]
      simp
    have apart : first ≠ second := by
      rw [List.cons_append, following] at waiting
      exact waiting.second.1
    have whole : c.pending = first :: second :: (rest ++ [last]) := by
      rw [pending, List.cons_append, behind]
    obtain ⟨missing, ends⟩ := lookupRoman_doubled waiting
    rw [List.cons_append, behind] at missing ends
    -- Either the key is frozen, or it is an n, which turns into kana.
    have unit : nextUnit c.pending = some ⟨[first], .direct, [first], second :: (rest ++ [last])⟩ ∨
        nextUnit c.pending = some ⟨['ん'], .kana, [first], second :: (rest ++ [last])⟩ := by
      rw [whole]
      unfold nextUnit
      by_cases isN : first = 'n'
      · subst isN
        right
        have notDoubled : second ≠ 'n' := Ne.symm apart
        simp [missing, List.isPrefixOf, Ne.symm notDoubled]
      · left
        simp [missing, ends, List.isPrefixOf, isN, Ne.symm isN, letter, Ne.symm apart]
    have later : ∀ unit : RomanUnit, unit.rest = second :: (rest ++ [last]) → unit.text.length = 1 →
        c.stable.length + (first :: keys).length + 1 ≤ ((c.acceptUnit unit).advanceWithin fuel).cursor ∧
          ¬ (c.acceptUnit unit).stable ++ (keys ++ [last]) <+:
            ((c.acceptUnit unit).advanceWithin fuel).stable ++ ((c.acceptUnit unit).advanceWithin fuel).pending := by
      intro unit rest' single
      have left : (c.acceptUnit unit).pending = keys ++ [last, last] := by rw [behind]; exact rest'
      have fits : (c.acceptUnit unit).pending.length ≤ fuel := by
        rw [left]
        rw [pending] at enough
        simp only [List.length_append, List.length_cons, List.length_nil] at enough ⊢
        omega
      obtain ⟨apart', length⟩ := ih waiting.tail left fits
      have stable : (c.acceptUnit unit).stable.length = c.stable.length + 1 := by
        show (c.stable ++ unit.text).length = _
        rw [List.length_append, single]
      rw [stable] at length
      exact ⟨by simp only [List.length_cons]; omega, apart'⟩
    rcases unit with frozen | converted
    · simp only [advanceWithin, frozen]
      obtain ⟨length, apart'⟩ := later ⟨[first], .direct, [first], second :: (rest ++ [last])⟩ rfl rfl
      refine ⟨fun begins => apart' ?_, length⟩
      have same : c.stable ++ (first :: keys ++ [last]) = (c.stable ++ [first]) ++ (keys ++ [last]) := by simp
      rw [same] at begins
      exact begins
    · simp only [advanceWithin, converted]
      obtain ⟨length, _⟩ := later ⟨['ん'], .kana, [first], second :: (rest ++ [last])⟩ rfl rfl
      refine ⟨fun begins => ?_, length⟩
      obtain ⟨more, extended⟩ := stable_prefix_advanceWithin fuel
        (c.acceptUnit ⟨['ん'], .kana, [first], second :: (rest ++ [last])⟩)
      rw [← extended] at begins
      have start : (c.acceptUnit ⟨['ん'], .kana, [first], second :: (rest ++ [last])⟩).stable = c.stable ++ ['ん'] := rfl
      rw [start, List.append_assoc, List.append_assoc] at begins
      exact not_prefix_of_letter letter (by decide) begins

end Doubling

/-- An operation that types or deletes before the cursor. -/
def ComposerOp.Types : ComposerOp → Prop
  | .push _ _ | .backspace | .backspaceAtCursor => True
  | _ => False

/-- The reading is the retained text, and later typing and deleting behind it leave it in place. -/
def Seals (segmentation : Segmentation) (front : Text) (c : LocalKanaComposer) : Prop :=
  c.reading = front ∧ ∀ ops : List ComposerOp, (∀ op ∈ ops, op.Types) →
    (∀ part, part <+: ops → front.length ≤ (exec (apply segmentation) c part).cursor) →
      front <+: (exec (apply segmentation) c ops).reading

/-- The text is sealed by its retention: no automatic literal ends it, unless the cursor has first to be
moved to the end, which takes a reading that has positions. -/
def Sealable (c : LocalKanaComposer) (front : Text) : Prop :=
  (c.suffix = [] → ∀ offset ∈ c.automaticLiterals, offset + 1 ≠ byteLength front) ∧
    (c.suffix ≠ [] → c.reading.length < 2 ^ 32)

/-- What the sealing of a text rests on. -/
structure Sealed (front : Text) (c : LocalKanaComposer) : Prop where
  begins : front <+: c.stable
  suffix : c.suffix = []
  literals : ∀ offset ∈ c.automaticLiterals, offset + 1 ≠ byteLength front

section Sealing

variable {c : LocalKanaComposer} {front : Text}

/-- The parser adds behind the sealed text, and freezes literals behind it. -/
theorem Sealed.advanceWithin (sealed : Sealed front c) (fuel : Nat) : Sealed front (c.advanceWithin fuel) := by
  induction fuel generalizing c with
  | zero => exact sealed
  | succ fuel ih =>
    unfold LocalKanaComposer.advanceWithin
    split
    · exact sealed
    rename_i unit _
    refine ih ⟨sealed.begins.trans (List.prefix_append _ _), sealed.suffix, ?_⟩
    intro offset member
    have member : offset ∈ (if unit.style = .direct then c.automaticLiterals ++ [byteLength c.stable] else
      c.automaticLiterals) := member
    split at member
    · rcases List.mem_append.mp member with before | last
      · exact sealed.literals offset before
      · -- The new literal is behind the sealed text.
        obtain ⟨rest, whole⟩ := sealed.begins
        rw [List.mem_singleton.mp last, ← whole, byteLength_append]
        omega
    · exact sealed.literals offset member

/-- The search for a tail stops where the sealed text ends. -/
theorem reopenFrom_sealed {stable pending : Text} {stop : Nat} {lower : List Nat} {start : Nat}
    {reopen : Option (Nat × Text)} {found : Nat × Text} (result : reopenFrom stable pending start reopen lower = some found)
    (literals : ∀ offset ∈ lower, offset + 1 ≠ stop) (behind : stop ≤ start)
    (sofar : ∀ found, reopen = some found → stop ≤ found.1) : stop ≤ found.1 := by
  induction lower generalizing start reopen with
  | nil => exact sofar found result
  | cons offset lower ih =>
    unfold reopenFrom at result
    split at result
    · exact sofar found result
    rename_i adjacent
    rw [not_not] at adjacent
    have apart := literals offset List.mem_cons_self
    refine ih result (fun other member => literals other (List.mem_cons_of_mem _ member)) (by omega) ?_
    intro other isOther
    split at isOther
    · rw [← Option.some.inj isOther]
      dsimp only
      omega
    · exact sofar other isOther

/-- Reopening takes nothing of the sealed text back. -/
theorem Sealed.reopenRomanTail (sealed : Sealed front c) : Sealed front c.reopenRomanTail := by
  unfold LocalKanaComposer.reopenRomanTail
  split
  · rename_i start candidate found
    have behind : byteLength front ≤ start := by
      refine reopenFrom_sealed found (fun offset member => sealed.literals offset (List.mem_reverse.mp member)) ?_ nofun
      obtain ⟨rest, whole⟩ := sealed.begins
      rw [← whole, byteLength_append]
      omega
    exact ⟨prefix_takeBytes sealed.begins behind, sealed.suffix, fun offset member =>
      sealed.literals offset (List.mem_of_mem_filter member)⟩
  · exact sealed

/-- Typing and deleting behind the sealed text leave it sealed. -/
theorem Sealed.apply (sealed : Sealed front c) (composed : c.Composed) (segmentation : Segmentation)
    {op : ComposerOp} (types : op.Types) (stays : front.length ≤ (c.apply segmentation op).cursor) :
    Sealed front (c.apply segmentation op) := by
  have set (journal : InputJournal) : Sealed front { c with journal := journal } :=
    ⟨sealed.begins, sealed.suffix, sealed.literals⟩
  have erase (readingBoundary : Bool) (stays : front.length ≤ (c.deleteBeforeCursor segmentation readingBoundary).cursor) :
      Sealed front (c.deleteBeforeCursor segmentation readingBoundary) := by
    unfold deleteBeforeCursor withDetached refreshReading at stays ⊢
    dsimp only at stays ⊢
    split at stays
    · rename_i empty
      rw [if_pos empty]
      have empty : c.pending = [] := by simpa using empty
      have settles := composed.settles.journal (c.journal.detachSuffix c.cursor).1
      have truncated : ({ c with journal := (c.journal.detachSuffix c.cursor).1 }.truncateStable
          (retainedLen segmentation { c with journal := (c.journal.detachSuffix c.cursor).1 } readingBoundary)).Parsed := by
        refine settles.toParsed.truncate ?_
        rw [empty, List.append_nil, List.append_nil]
        exact ⟨_, takeBytes_append_dropBytes _ _⟩
      have same := (reopenRomanTail_settles truncated (by rw [truncateStable]; exact settles.waiting)).2
      generalize retainedLen segmentation _ readingBoundary = len at *
      -- What the deletion leaves is long enough to hold the sealed text.
      have length := congrArg List.length same
      rw [List.length_append, List.length_append] at length
      have left : ({ c with journal := (c.journal.detachSuffix c.cursor).1 }.truncateStable len).pending = [] := empty
      rw [left, List.length_nil, Nat.add_zero] at length
      have long : front.length ≤ (takeBytes len c.stable).length := by
        rw [← show _ = (takeBytes len c.stable).length from length]
        exact stays
      have kept : Sealed front ({ c with journal := (c.journal.detachSuffix c.cursor).1 }.truncateStable len) :=
        ⟨List.prefix_of_prefix_length_le sealed.begins ⟨_, takeBytes_append_dropBytes len c.stable⟩ long,
          sealed.suffix, fun offset member => sealed.literals offset (List.mem_of_mem_filter member)⟩
      obtain ⟨begins, suffix, literals⟩ := kept.reopenRomanTail
      exact ⟨begins, suffix, literals⟩
    · rename_i some'
      rw [if_neg some']
      have dropped : Sealed front { c with journal := (c.journal.detachSuffix c.cursor).1, pending := c.pending.dropLast } :=
        ⟨sealed.begins, sealed.suffix, sealed.literals⟩
      obtain ⟨begins, suffix, literals⟩ := dropped.reopenRomanTail
      exact ⟨begins, suffix, literals⟩
  cases op with
  | push ch style =>
    cases style with
    | kana =>
      have typed : Sealed front
          { c with journal := (c.journal.detachSuffix c.cursor).1, pending := c.pending ++ [ch] } :=
        ⟨sealed.begins, sealed.suffix, sealed.literals⟩
      obtain ⟨begins, suffix, literals⟩ := typed.advanceWithin (c.pending ++ [ch]).length
      exact ⟨begins, suffix, literals⟩
    | direct =>
      refine ⟨?_, sealed.suffix, fun _ member => by cases member⟩
      show front <+: (c.stable ++ c.pending) ++ [ch]
      rw [List.append_assoc]
      exact sealed.begins.trans (List.prefix_append _ _)
  | backspace => exact erase false stays
  | backspaceAtCursor => exact erase true stays
  | _ => cases types

/-- The sealed text stays in place as long as the cursor stays behind it. -/
theorem Sealed.run (sealed : Sealed front c) (composed : c.Composed) (segmentation : Segmentation)
    (ops : List ComposerOp) (types : ∀ op ∈ ops, op.Types)
    (stays : ∀ part, part <+: ops → front.length ≤ (exec (LocalKanaComposer.apply segmentation) c part).cursor) :
    front <+: (exec (LocalKanaComposer.apply segmentation) c ops).reading := by
  induction ops generalizing c with
  | nil =>
    rw [exec_nil, composed.reading, List.append_assoc]
    exact sealed.begins.trans (List.prefix_append _ _)
  | cons op ops ih =>
    have first := stays [op] (List.prefix_iff_eq_append.mpr rfl)
    refine ih (sealed.apply composed segmentation (types op List.mem_cons_self) first)
      (composed.apply segmentation op) (fun other member => types other (List.mem_cons_of_mem _ member)) ?_
    exact fun part begins => stays (op :: part) (List.cons_prefix_cons.mpr ⟨rfl, begins⟩)

/-- The composer that a retention works on, with the cursor at the end if it can be moved there. -/
theorem cursorToEnd (composed : c.Composed) :
    (if c.suffix.isEmpty then c else (c.setCursor c.reading.length).1).Composed ∧
      (if c.suffix.isEmpty then c else (c.setCursor c.reading.length).1).reading = c.reading ∧
      (c.suffix = [] → (if c.suffix.isEmpty then c else (c.setCursor c.reading.length).1) = c) ∧
      (c.suffix ≠ [] → c.reading.length < 2 ^ 32 →
        (if c.suffix.isEmpty then c else (c.setCursor c.reading.length).1).suffix = [] ∧
        (if c.suffix.isEmpty then c else (c.setCursor c.reading.length).1).automaticLiterals = []) ∧
      (c.suffix ≠ [] → ¬ c.reading.length < 2 ^ 32 →
        (if c.suffix.isEmpty then c else (c.setCursor c.reading.length).1) = c) := by
  cases empty : c.suffix with
  | nil => exact ⟨composed, rfl, fun _ => rfl, fun filled => absurd rfl filled, fun filled => absurd rfl filled⟩
  | cons ch rest =>
    obtain ⟨moved, shown⟩ := composed.setCursor c.reading.length
    refine ⟨moved, shown, nofun, fun _ fits => ?_, fun _ long => ?_⟩
    · obtain ⟨positions, built⟩ := legalBoundaries_of_lt fits
      have last : c.reading.length ∈ positions := (mem_legalBoundaries built).mpr (.inr (.inl rfl))
      -- The last boundary is the end of the reading, where the cursor is not.
      have next : (positions.reverse.find? fun position => position ≤ c.reading.length).getD 0 = c.reading.length := by
        obtain ⟨_, same⟩ := legalBoundaries_ok_iff.mp built
        have some' : c.reading.length ≠ 0 := by rw [composed.reading, empty]; simp
        rw [if_pos some'] at same
        rw [same]
        simp
      have apart : c.reading.length ≠ c.cursor := by
        rw [composed.reading, empty, cursor]
        simp
      have moves : (c.setCursor c.reading.length).1.suffix = dropBytes (byteLength (c.freezePending.reading.take c.reading.length))
          c.freezePending.reading ∧ (c.setCursor c.reading.length).1.automaticLiterals = [] := by
        unfold setCursor
        rw [built]
        dsimp only
        rw [next, if_neg apart]
        exact ⟨rfl, rfl⟩
      refine ⟨?_, moves.2⟩
      show (c.setCursor c.reading.length).1.suffix = []
      obtain ⟨_, _, same, _⟩ := freezePending_parsed composed.settles
      rw [moves.1, same, List.take_length, dropBytes_byteLength]
    · show (c.setCursor c.reading.length).1 = c
      have refused : legalBoundaries c.reading = .error .range := by
        simp only [legalBoundaries, u32TryFrom, if_neg long]
      unfold setCursor
      rw [refused]

/-- What a retention leaves behind. -/
theorem retainPrefix_spec (composed : c.Composed) {d : LocalKanaComposer}
    (moved : d = if c.suffix.isEmpty then c else (c.setCursor c.reading.length).1) (begins : front <+: c.reading) :
    (c.retainPrefix front).1.stable = front ∧ (c.retainPrefix front).1.pending = [] ∧
      (c.retainPrefix front).1.suffix = d.suffix ∧ (c.retainPrefix front).1.reading = front ++ d.suffix ∧
      (∀ offset, offset ∈ (c.retainPrefix front).1.automaticLiterals ↔
        offset ∈ d.automaticLiterals ∧ offset < byteLength front) ∧
      (d.suffix = [] → (c.retainPrefix front).1.Parsed) := by
  obtain ⟨composed', shown, _⟩ := cursorToEnd composed
  unfold LocalKanaComposer.retainPrefix
  rw [if_neg (by simpa [List.isPrefixOf_iff_prefix] using begins)]
  dsimp only
  rw [← moved] at composed' shown ⊢
  rw [← shown] at begins
  have stable : d.stable <+: d.reading := ⟨d.pending ++ d.suffix, by rw [composed'.reading, List.append_assoc]⟩
  split
  · rename_i shorter
    obtain ⟨rest, whole⟩ := prefix_of_byteLength_le begins stable shorter
    have cut : takeBytes (byteLength front) d.stable = front := by rw [← whole, takeBytes_append]
    have truncated : { d.truncateStable (byteLength front) with pending := [] }.Parsed := by
      refine composed'.toParsed.truncate ?_
      rw [List.append_nil]
      exact List.IsPrefix.trans ⟨_, takeBytes_append_dropBytes _ _⟩ (List.prefix_append _ _)
    refine ⟨cut, rfl, rfl, ?_, fun offset => ?_, fun _ => { truncated with }⟩
    · show takeBytes (byteLength front) d.stable ++ [] ++ d.suffix = _
      rw [cut, List.append_nil]
    · show offset ∈ d.automaticLiterals.filter (fun offset => offset < byteLength front) ↔ _
      rw [List.mem_filter, decide_eq_true_eq]
  · rename_i longer
    obtain ⟨rest, whole⟩ := prefix_of_byteLength_le stable begins (by omega)
    have cut : dropBytes (byteLength d.stable) front = rest := by rw [← whole, dropBytes_append]
    rw [cut]
    have filled : rest ≠ [] := by
      rintro rfl
      rw [← whole, List.append_nil] at longer
      exact longer (Nat.le_refl _)
    refine ⟨whole, rfl, rfl, ?_, fun offset => ?_, fun noSuffix => ?_⟩
    · show (d.stable ++ rest) ++ [] ++ d.suffix = _
      rw [whole, List.append_nil]
    · refine (and_iff_left_of_imp fun member => ?_).symm
      have := composed'.marked.inside offset member
      omega
    · -- The rest of the retained text is the beginning of the pending keys.
      obtain ⟨more, total⟩ := begins
      rw [← whole, composed'.reading, noSuffix, List.append_nil, List.append_assoc] at total
      have keys : rest ++ more = d.pending := List.append_cancel_left total
      have marked : Marked (d.stable ++ rest) [] d.automaticLiterals := by
        have whole' : Marked d.stable (d.pending ++ []) d.automaticLiterals := by
          rw [List.append_nil]
          exact composed'.marked
        refine whole'.extend ?_ filled fun ch first => .inr ?_
        · rw [← keys]
          exact fun empty => filled (List.append_eq_nil_iff.mp empty).1
        · rw [← keys, List.head?_append, first]
          rfl
      have frozen := composed'.toParsed.appendInputUnit rest
        (show InputStyle.direct = .kana → _ from fun direct => by cases direct) marked
      exact { frozen with }

/-- Keys that wait leave the literals as they are. -/
theorem push_waiting_literals {ch : Char} (waiting : Waiting (c.pending ++ [ch])) :
    (c.push ch .kana).automaticLiterals = c.automaticLiterals := by
  have none' := nextUnit_eq_none_iff.mpr waiting
  simp [push, withDetached, refreshReading, advancePending, advanceWithin, none']

/-- A literal at the end of the text is reopened by a deletion, and typing it again changes it. -/
theorem breaks_of_literal (parsed : c.Parsed) (stable : c.stable = front) (pending : c.pending = [])
    (suffix : c.suffix = []) {offset : Nat} (literal : offset ∈ c.automaticLiterals)
    (last : offset + 1 = byteLength front) (segmentation : Segmentation) :
    ∃ ops : List ComposerOp, (∀ op ∈ ops, op.Types) ∧
      (∀ part, part <+: ops → front.length ≤ (exec (LocalKanaComposer.apply segmentation) c part).cursor) ∧
        ¬ front <+: (exec (LocalKanaComposer.apply segmentation) c ops).reading := by
  have marked : Marked front [] c.automaticLiterals := by
    have marked := parsed.marked
    rwa [stable, pending] at marked
  -- A key is typed that waits.
  have waits : Waiting (c.pending ++ ['k']) := by rw [pending]; exact .inl ⟨'k', rfl, by decide, by decide⟩
  obtain ⟨stable₁, pending₁, suffix₁⟩ := push_waiting waits
  have literals₁ := push_waiting_literals waits
  rw [stable] at stable₁
  rw [pending, List.nil_append] at pending₁
  rw [suffix] at suffix₁
  -- Deleting it reopens the literal, and perhaps those before it.
  have reopens : ∃ letters front', front = front' ++ letters ∧ letters ≠ [] ∧ Waiting letters ∧
      ((c.push 'k' .kana).backspace segmentation).stable = front' ∧
      ((c.push 'k' .kana).backspace segmentation).pending = letters ∧
      ((c.push 'k' .kana).backspace segmentation).suffix = [] := by
    have dropped : (c.push 'k' .kana).pending.dropLast = [] := by rw [pending₁]; rfl
    unfold backspace deleteBeforeCursor withDetached refreshReading
    dsimp only
    rw [if_neg (by rw [pending₁]; simp), dropped]
    unfold reopenRomanTail
    rw [stable₁, literals₁]
    cases found : reopenFrom front [] (byteLength front) none c.automaticLiterals.reverse with
    | none => exact absurd found (reopenFrom_last marked literal last)
    | some reopened =>
      have spec : Reopens front [] c.automaticLiterals reopened.1 reopened.2 :=
        reopenFrom_spec marked _ _ _ (by simp) ⟨front, [], by simp, rfl, by simp⟩
          (fun _ same => by cases same) _ found
      obtain ⟨front', letters, whole, start, filled, _, candidate⟩ := spec.letters
      have waiting := spec.waiting marked waiting_nil
      rw [List.append_nil] at candidate
      rw [candidate] at waiting
      refine ⟨letters, front', whole, filled, waiting, ?_, candidate, suffix₁⟩
      show takeBytes reopened.1 front = front'
      rw [whole, ← start, takeBytes_append]
  obtain ⟨letters, front', whole, filled, waiting, stable₂, pending₂, suffix₂⟩ := reopens
  obtain ⟨keys, last', rfl⟩ := List.eq_nil_or_concat' letters |>.resolve_left filled
  generalize second : (c.push 'k' .kana).backspace segmentation = d at *
  have typed : (d.push last' .kana).stable ++ (d.push last' .kana).pending = (d.push last' .kana).reading ∧
      ¬ d.stable ++ (keys ++ [last']) <+: (d.push last' .kana).stable ++ (d.push last' .kana).pending ∧
      d.stable.length + keys.length + 1 ≤ (d.push last' .kana).cursor := by
    have doubled : d.pending ++ [last'] = keys ++ [last', last'] := by rw [pending₂]; simp
    refine ⟨?_, ?_⟩
    · have noSuffix : (d.push last' .kana).suffix = [] := by
        show (advancePending _).suffix = []
        unfold advancePending
        rw [advanceWithin_suffix]
        exact suffix₂
      have shown : (d.push last' .kana).reading = (d.push last' .kana).stable ++ (d.push last' .kana).pending ++
        (d.push last' .kana).suffix := rfl
      rw [shown, noSuffix, List.append_nil]
    · exact advanceWithin_doubled (c := { d with
        journal := (d.journal.detachSuffix d.cursor).1
        pending := d.pending ++ [last'] }) waiting doubled (Nat.le_refl _)
  have length : front.length = front'.length + keys.length + 1 := by
    rw [whole, List.length_append, List.length_append]
    simp
    omega
  refine ⟨[.push 'k' .kana, .backspace, .push last' .kana], by simp [ComposerOp.Types], ?_, ?_⟩
  · -- The cursor is never before the end of the retained text.
    intro part begins
    have start : front.length ≤ c.cursor := by rw [cursor, stable]; omega
    have first : front.length ≤ (c.push 'k' .kana).cursor := by rw [cursor, stable₁]; omega
    have next : front.length ≤ d.cursor := by
      rw [cursor, stable₂, pending₂, List.length_append, length, List.length_singleton]
      omega
    have final : front.length ≤ (d.push last' .kana).cursor := by
      have := typed.2.2
      rw [stable₂] at this
      omega
    rcases List.prefix_cons_iff.mp begins with rfl | ⟨later₁, rfl, begins₁⟩
    · exact start
    rcases List.prefix_cons_iff.mp begins₁ with rfl | ⟨later₂, rfl, begins₂⟩
    · exact first
    rcases List.prefix_cons_iff.mp begins₂ with rfl | ⟨later₃, rfl, begins₃⟩
    · simp only [exec_cons, exec_nil, LocalKanaComposer.apply, second]
      exact next
    · obtain rfl := List.prefix_nil.mp begins₃
      simp only [exec_cons, exec_nil, LocalKanaComposer.apply, second]
      exact final
  · simp only [exec_cons, exec_nil, LocalKanaComposer.apply, second]
    rw [← typed.1, whole, ← stable₂]
    exact typed.2.1

end Sealing

section Retained

variable (segmentation : Segmentation)

/-- A retained beginning of the reading is sealed exactly when no automatic literal ends it, or the
cursor was moved to the end. -/
theorem retainPrefix_seals_iff (ops : List ComposerOp) (front : Text)
    (retained : ((exec (LocalKanaComposer.apply segmentation) empty ops).retainPrefix front).2 = true) :
    Seals segmentation front ((exec (LocalKanaComposer.apply segmentation) empty ops).retainPrefix front).1 ↔
      Sealable (exec (LocalKanaComposer.apply segmentation) empty ops) front := by
  have composed := run_composed segmentation ops
  generalize exec (LocalKanaComposer.apply segmentation) empty ops = c at *
  have begins : front <+: c.reading := by
    unfold LocalKanaComposer.retainPrefix at retained
    split at retained
    · cases retained
    · rename_i accepted
      simpa [List.isPrefixOf_iff_prefix] using accepted
  obtain ⟨composed', _, atEnd, moves, stuck⟩ := cursorToEnd composed
  obtain ⟨stable, pending, suffix, shown, literals, parsed⟩ := retainPrefix_spec composed rfl begins
  generalize (if c.suffix.isEmpty then c else (c.setCursor c.reading.length).1) = d at *
  constructor
  · rintro ⟨reading, onward⟩
    have noSuffix : d.suffix = [] := by
      rw [shown] at reading
      simpa using reading
    refine ⟨fun empty offset member last => ?_, fun filled => ?_⟩
    · have inside : offset ∈ (c.retainPrefix front).1.automaticLiterals :=
        (literals offset).mpr ⟨by rw [atEnd empty]; exact member, by omega⟩
      obtain ⟨ops, types, stays, broken⟩ := breaks_of_literal (parsed noSuffix) stable pending
        (suffix.trans noSuffix) inside last segmentation
      exact broken (onward ops types stays)
    · by_contra long
      rw [stuck filled long] at noSuffix
      exact filled noSuffix
  · rintro ⟨apart, fits⟩
    have ended : d.suffix = [] ∧ ∀ offset ∈ d.automaticLiterals, offset + 1 ≠ byteLength front := by
      by_cases empty : c.suffix = []
      · rw [atEnd empty]
        exact ⟨empty, apart empty⟩
      · obtain ⟨noSuffix, forgotten⟩ := moves empty (fits empty)
        exact ⟨noSuffix, fun offset member => by rw [forgotten] at member; cases member⟩
    have free : ∀ offset ∈ (c.retainPrefix front).1.automaticLiterals, offset + 1 ≠ byteLength front :=
      fun offset member => ended.2 offset ((literals offset).mp member).1
    have sealed : Sealed front (c.retainPrefix front).1 :=
      ⟨by rw [stable], suffix.trans ended.1, free⟩
    have recomposed : (c.retainPrefix front).1.Composed :=
      { parsed ended.1 with
        reading := by rw [shown, stable, pending, suffix, List.append_nil]
        waiting := by rw [pending]; exact waiting_nil
        followed := fun _ offset member => by rw [stable]; exact free offset member }
    refine ⟨by rw [shown, ended.1, List.append_nil], fun later types stays => ?_⟩
    exact sealed.run recomposed segmentation later types stays

/-- A retained text that no literal ends is sealed. -/
theorem retainPrefix_seals_ka :
    Seals .scalars ['か'] ((exec (LocalKanaComposer.apply .scalars) empty
      [.push 'k' .kana, .push 'a' .kana, .push 't' .kana]).retainPrefix ['か']).1 :=
  (retainPrefix_seals_iff .scalars [.push 'k' .kana, .push 'a' .kana, .push 't' .kana] ['か'] (by decide +kernel)).mpr
    ⟨by decide +kernel, by decide +kernel⟩

/-- After kq is typed and k retained, typing t, deleting it and typing a turns the k into か. -/
theorem retainPrefix_k_recombines :
    ¬ ∀ (ops : List ComposerOp) (front : Text),
      ((exec (LocalKanaComposer.apply .scalars) empty ops).retainPrefix front).2 = true →
        Seals .scalars front ((exec (LocalKanaComposer.apply .scalars) empty ops).retainPrefix front).1 := by
  intro all
  have seals := (all [.push 'k' .kana, .push 'q' .kana] ['k'] (by decide +kernel)).2
    [.push 't' .kana, .backspace, .push 'a' .kana] (by simp [ComposerOp.Types])
  have stays : ∀ part ∈ List.inits [ComposerOp.push 't' .kana, .backspace, .push 'a' .kana],
      1 ≤ (exec (LocalKanaComposer.apply .scalars) ((exec (LocalKanaComposer.apply .scalars) empty
        [.push 'k' .kana, .push 'q' .kana]).retainPrefix ['k']).1 part).cursor := by decide +kernel
  have begins := seals fun part begins => stays part ((List.mem_inits _ _).mpr begins)
  exact absurd begins (by decide +kernel)

end Retained

end LocalKanaComposer

end Nospacekey
