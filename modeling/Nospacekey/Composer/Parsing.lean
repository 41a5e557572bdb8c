import Nospacekey.Composer.LocalKana

/-! What the roman parser freezes can be replayed, and what it reopens waits for more keys. -/

namespace Nospacekey

open Utf8

/-- A letter that may be frozen as a literal. -/
def Literal (c : Char) : Prop := c.isAlpha = true ∧ isVowel c = false

/-- A letter and what follows it are neither doubled nor a spelling. -/
def Apart (c next : Char) : Prop := c ≠ next ∧ ∀ kana, ([c, next], kana) ∉ romanKana

/-- An ASCII letter takes one byte. -/
theorem utf8Size_of_isAlpha {c : Char} (letter : c.isAlpha = true) : c.utf8Size = 1 := by
  rw [Char.utf8Size_eq_one_iff]
  delta Char.isAlpha Char.isUpper Char.isLower at letter
  simp only [Bool.or_eq_true, Bool.and_eq_true, decide_eq_true_eq] at letter
  rcases letter with ⟨_, upper⟩ | ⟨_, lower⟩
  · exact UInt32.le_trans upper (by decide)
  · exact UInt32.le_trans lower (by decide)

/-- The keys of a spelling are letters. -/
theorem isAlpha_of_spelling {entry : Text × Text} (member : entry ∈ romanKana) :
    ∀ c ∈ entry.1, c.isAlpha = true := by
  intro c inside
  delta Char.isAlpha
  simp [(regular_of_mem member).lower c inside]

/-- A letter is apart from what is no letter. -/
theorem apart_of_not_alpha {c next : Char} (letter : c.isAlpha = true) (other : next.isAlpha = false) :
    Apart c next := by
  refine ⟨?_, fun kana member => ?_⟩
  · rintro rfl
    rw [letter] at other
    cases other
  · rw [isAlpha_of_spelling member next (by simp)] at other
    cases other

/-- The automatic literals of a text are ordered, and each one stands at its offset, apart from
what follows it. -/
structure Marked (text pending : Text) (literals : List Nat) : Prop where
  sorted : literals.Pairwise (· < ·)
  stands : ∀ offset ∈ literals, ∃ front c back, text = front ++ c :: back ∧ byteLength front = offset ∧
    Literal c ∧ ∀ next, (back ++ pending).head? = some next → Apart c next

/-- While nothing is pending, no automatic literal is last. -/
def Followed (text pending : Text) (literals : List Nat) : Prop :=
  pending = [] → ∀ offset ∈ literals, offset + 1 ≠ byteLength text

section Marks

variable {text pending : Text} {literals : List Nat}

/-- No literals are always in order. -/
theorem marked_nil (text pending : Text) : Marked text pending [] := ⟨.nil, by simp⟩

/-- A literal ends inside its text. -/
theorem Marked.inside (marked : Marked text pending literals) :
    ∀ offset ∈ literals, offset + 1 ≤ byteLength text := by
  intro offset member
  obtain ⟨front, c, back, rfl, rfl, literal, _⟩ := marked.stands offset member
  have := c.utf8Size_pos
  simp only [byteLength_append, byteLength_cons]
  omega

/-- More pending keys change nothing for literals that something follows. -/
theorem Marked.more (marked : Marked text pending literals) (followed : Followed text pending literals)
    (more : Text) : Marked text (pending ++ more) literals where
  sorted := marked.sorted
  stands := by
    intro offset member
    obtain ⟨front, c, back, whole, start, literal, apart⟩ := marked.stands offset member
    refine ⟨front, c, back, whole, start, literal, fun next found => apart next ?_⟩
    rw [← List.append_assoc] at found
    cases rest : back ++ pending with
    | cons head tail => rw [rest] at found; simpa using found
    | nil =>
      -- Otherwise the literal would be last while nothing is pending.
      obtain ⟨rfl, rfl⟩ := List.append_eq_nil_iff.mp rest
      refine absurd ?_ (followed rfl offset member)
      rw [whole, ← start, byteLength_append, byteLength_cons, utf8Size_of_isAlpha literal.1]
      simp

/-- Pending keys may be replaced by a text whose first character is no letter or their own. -/
theorem Marked.extend {taken rest : Text} (marked : Marked text (taken ++ rest) literals) {out : Text}
    (used : taken ≠ []) (nonempty : out ≠ [])
    (onward : ∀ c, out.head? = some c → c.isAlpha = false ∨ taken.head? = some c) :
    Marked (text ++ out) rest literals where
  sorted := marked.sorted
  stands := by
    intro offset member
    obtain ⟨front, c, back, whole, start, literal, apart⟩ := marked.stands offset member
    refine ⟨front, c, back ++ out, by rw [whole]; simp, start, literal, fun next found => ?_⟩
    cases back with
    | cons head tail => exact apart next (by simpa using found)
    | nil =>
      obtain ⟨first, out, rfl⟩ := List.exists_cons_of_ne_nil nonempty
      obtain ⟨key, taken, rfl⟩ := List.exists_cons_of_ne_nil used
      obtain rfl := Option.some.inj (show Option.some first = Option.some next by simpa using found)
      rcases onward first rfl with other | same
      · exact apart_of_not_alpha literal.1 other
      · exact apart first (by simpa using same)

/-- A pending letter may be frozen as a literal. -/
theorem Marked.freeze {c : Char} {rest : Text} (marked : Marked text (c :: rest) literals)
    (literal : Literal c) (apart : ∀ next, rest.head? = some next → Apart c next) :
    Marked (text ++ [c]) rest (literals ++ [byteLength text]) where
  sorted := by
    refine List.pairwise_append.mpr ⟨marked.sorted, by simp, ?_⟩
    intro offset member last isLast
    obtain rfl := List.mem_singleton.mp isLast
    have := marked.inside offset member
    omega
  stands := by
    intro offset member
    rcases List.mem_append.mp member with old | new
    · have extended : Marked (text ++ [c]) rest literals :=
        Marked.extend (show Marked text ([c] ++ rest) literals from marked) (by simp) (by simp) (by simp)
      exact extended.stands offset old
    · obtain rfl := List.mem_singleton.mp new
      exact ⟨text, c, [], rfl, rfl, literal, by simpa using apart⟩

/-- Fewer pending keys change nothing for literals. -/
theorem Marked.fewer (marked : Marked text pending literals) {left : Text} (begins : left <+: pending) :
    Marked text left literals where
  sorted := marked.sorted
  stands := by
    intro offset member
    obtain ⟨front, c, back, whole, start, literal, apart⟩ := marked.stands offset member
    refine ⟨front, c, back, whole, start, literal, fun next found => apart next ?_⟩
    obtain ⟨more, rfl⟩ := begins
    rw [← List.append_assoc, List.head?_append, found]
    rfl

/-- Cutting the text off keeps the literals before the cut. -/
theorem Marked.cut (marked : Marked text pending literals) {len : Nat} {left : Text}
    (begins : takeBytes len text ++ left <+: text ++ pending) :
    Marked (takeBytes len text) left (literals.filter fun offset => offset < len) where
  sorted := marked.sorted.filter _
  stands := by
    intro offset member
    obtain ⟨member, before⟩ := List.mem_filter.mp member
    rw [decide_eq_true_eq] at before
    obtain ⟨front, c, back, whole, start, literal, apart⟩ := marked.stands offset member
    -- The literal itself is kept.
    have kept : front ++ [c] <+: takeBytes len text := by
      refine prefix_takeBytes ⟨back, by rw [whole]; simp⟩ ?_
      rw [byteLength_append, byteLength_cons, utf8Size_of_isAlpha literal.1, start]
      exact before
    obtain ⟨rest, same⟩ := kept
    refine ⟨front, c, rest, by rw [← same]; simp, start, literal, fun next found => apart next ?_⟩
    obtain ⟨more, total⟩ := begins
    rw [← same, whole] at total
    simp only [List.append_assoc, List.cons_append, List.nil_append, List.append_cancel_left_eq,
      List.cons.injEq, true_and] at total
    rw [← total, ← List.append_assoc, List.head?_append, found]
    rfl

/-- Dropping the text before an offset keeps the literals behind it. -/
theorem Marked.drop {gone : Text} (marked : Marked (gone ++ text) pending literals) :
    Marked text pending
      ((literals.filter fun offset => byteLength gone ≤ offset).map (· - byteLength gone)) where
  sorted := by
    rw [List.pairwise_map]
    refine (marked.sorted.filter _).imp_of_mem fun {a b} inA inB less => ?_
    have := of_decide_eq_true (List.mem_filter.mp inA).2
    omega
  stands := by
    intro offset member
    obtain ⟨old, inOld, rfl⟩ := List.mem_map.mp member
    obtain ⟨inOld, behind⟩ := List.mem_filter.mp inOld
    rw [decide_eq_true_eq] at behind
    obtain ⟨front, c, back, whole, start, literal, apart⟩ := marked.stands old inOld
    obtain ⟨rest, rfl⟩ := prefix_of_byteLength_le (List.prefix_append gone text)
      (show front <+: gone ++ text from ⟨c :: back, whole.symm⟩) (by omega)
    rw [List.append_assoc] at whole
    refine ⟨rest, c, back, List.append_cancel_left whole, ?_, literal, apart⟩
    rw [byteLength_append] at start
    omega

end Marks

namespace LocalKanaComposer

section Reopening

variable {stable pending : Text} {literals : List Nat}

/-- A text up to some place, and the literals from there on. -/
structure Reopens (stable pending : Text) (literals : List Nat) (start : Nat) (candidate : Text) : Prop where
  member : start ∈ literals
  letters : ∃ front letters, stable = front ++ letters ∧ byteLength front = start ∧ letters ≠ [] ∧
    (∀ c ∈ letters, Literal c) ∧ candidate = letters ++ pending
  completes : isRomanPrefix candidate = true

/-- What the search finds are the literals from some mark on. -/
theorem reopenFrom_spec (marked : Marked stable pending literals) :
    ∀ (lower : List Nat) (start : Nat) (reopen : Option (Nat × Text)), lower ⊆ literals →
      (∃ front letters, stable = front ++ letters ∧ byteLength front = start ∧ ∀ c ∈ letters, Literal c) →
      (∀ found, reopen = some found → Reopens stable pending literals found.1 found.2) →
      ∀ found, reopenFrom stable pending start reopen lower = some found →
        Reopens stable pending literals found.1 found.2 := by
  -- The literals seen so far join up to the end of the text.
  intro lower
  induction lower with
  | nil => exact fun start reopen _ _ valid => valid
  | cons offset lower ih =>
    intro start reopen subset joined valid found result
    unfold reopenFrom at result
    split at result
    · exact valid found result
    rename_i adjacent
    rw [not_not] at adjacent
    obtain ⟨front, letters, whole, stop, literals'⟩ := joined
    obtain ⟨before, c, back, whole', offset', literal, _⟩ := marked.stands offset (subset (by simp))
    -- The letter before the joined ones ends where they start.
    have same : before ++ [c] = front := by
      refine eq_of_byteLength_eq (show before ++ [c] <+: stable from ⟨back, by rw [whole']; simp⟩)
        ⟨letters, whole.symm⟩ ?_
      rw [byteLength_append, byteLength_cons, utf8Size_of_isAlpha literal.1, stop, offset', ← adjacent]
      simp
    have rest : back = letters := by
      rw [← same, whole'] at whole
      simpa using whole
    subst rest
    have all : ∀ l ∈ c :: back, Literal l := by
      intro l member
      rcases List.mem_cons.mp member with rfl | later
      · exact literal
      · exact literals' l later
    have behind : dropBytes offset stable = c :: back := by
      rw [whole', ← offset', dropBytes_append]
    refine ih offset _ (fun o member => subset (List.mem_cons_of_mem _ member))
      ⟨before, c :: back, whole', offset', all⟩ ?_ found result
    intro other isOther
    split at isOther
    · rename_i completes
      obtain rfl := Option.some.inj isOther
      exact ⟨subset (by simp), ⟨before, c :: back, whole', offset', by simp, all, by rw [behind]⟩, completes⟩
    · exact valid other isOther

/-- Once something can be reopened, something will be. -/
theorem reopenFrom_some {found : Nat × Text} (lower : List Nat) (start : Nat) :
    reopenFrom stable pending start (some found) lower ≠ none := by
  induction lower generalizing start found with
  | nil => exact Option.some_ne_none found
  | cons offset lower ih =>
    unfold reopenFrom
    dsimp only
    split
    · simp
    · split
      · exact ih offset
      · exact ih offset

/-- A literal at the end of the text is reopened where nothing is pending. -/
theorem reopenFrom_last (marked : Marked stable [] literals) {offset : Nat} (member : offset ∈ literals)
    (last : offset + 1 = byteLength stable) :
    reopenFrom stable [] (byteLength stable) none literals.reverse ≠ none := by
  -- The literal is the greatest one, so the search starts with it.
  obtain ⟨front, greatest, rfl⟩ := List.eq_nil_or_concat' literals |>.resolve_left (List.ne_nil_of_mem member)
  have greatest' : greatest = offset := by
    have inside := marked.inside greatest (by simp)
    rcases List.mem_append.mp member with lower | same
    · have := (List.pairwise_append.mp marked.sorted).2.2 offset lower greatest (by simp)
      omega
    · exact (List.mem_singleton.mp same).symm
  subst greatest'
  obtain ⟨before, c, back, whole, start, literal, _⟩ := marked.stands greatest (by simp)
  have empty : back = [] := by
    rw [whole, ← start, byteLength_append, byteLength_cons, utf8Size_of_isAlpha literal.1] at last
    exact byteLength_eq_zero.mp (by omega)
  subst empty
  rw [List.reverse_append, List.reverse_singleton, List.singleton_append]
  unfold reopenFrom
  rw [if_neg (by simpa using last)]
  have behind : dropBytes greatest stable = [c] := by rw [whole, ← start, dropBytes_append]
  dsimp only
  rw [behind, List.append_nil, if_pos (isRomanPrefix_iff.mpr (.inl ⟨c, rfl, literal.1⟩))]
  exact reopenFrom_some _ _

/-- What is reopened waits for more keys. -/
theorem Reopens.waiting {start : Nat} {candidate : Text} (marked : Marked stable pending literals)
    (waiting : Waiting pending) (reopens : Reopens stable pending literals start candidate) :
    Waiting candidate := by
  obtain ⟨front, letters, whole, offset, nonempty, all, rfl⟩ := reopens.letters
  refine waiting_of_consonants reopens.completes ?_ ?_
  · intro c member
    rcases List.mem_append.mp member with letter | key
    · exact (all c letter).2
    · exact waiting.consonant c key
  · intro first second pair kana
    obtain ⟨before, c, back, whole', offset', _, apart⟩ := marked.stands start reopens.member
    have same : before = front := eq_of_byteLength_eq (show before <+: stable from ⟨c :: back, whole'.symm⟩)
      ⟨letters, whole.symm⟩ (by rw [offset, offset'])
    subst same
    have letters' : c :: back = letters := by
      rw [whole'] at whole
      exact List.append_cancel_left whole
    subst letters'
    rw [pair]
    obtain ⟨rfl, rest⟩ : c = first ∧ back ++ pending = [second] := by simpa using pair
    exact (apart second (by rw [rest]; rfl)).2 kana

end Reopening

section Units

variable {pending : Text} {unit : RomanUnit}

/-- A unit turns pending keys into kana, or freezes the first of them as a literal. -/
inductive Parses (pending : Text) : RomanUnit → Prop where
  | converted (taken : Text) {text original rest : Text} (keys : pending = taken ++ rest) (used : taken ≠ [])
      (nonempty : text ≠ []) (other : ∀ c ∈ text, c.isAlpha = false) :
      Parses pending ⟨text, .kana, original, rest⟩
  | frozen {first : Char} {rest : Text} (keys : pending = first :: rest) (more : rest ≠ [])
      (literal : Literal first) (apart : ∀ next, rest.head? = some next → Apart first next) :
      Parses pending ⟨[first], .direct, [first], rest⟩

/-- The parser waits exactly where more keys may complete the pending ones. -/
theorem nextUnit_eq_none_iff : nextUnit pending = none ↔ Waiting pending := by
  constructor
  · intro waits
    unfold nextUnit at waits
    split at waits
    · exact waiting_nil
    rename_i first rest
    split at waits
    · rename_i ny
      rw [ny]
      exact .inr ⟨(['n', 'y', 'a'], ['に', 'ゃ']), by decide, ⟨['a'], rfl⟩, by decide⟩
    split at waits
    · cases waits
    split at waits
    · cases waits
    rename_i missing
    split at waits
    · cases waits
    split at waits
    · cases waits
    split at waits
    · rename_i completes
      exact waiting_of_completable completes missing
    · cases waits
  · intro waiting
    unfold nextUnit
    split
    · rfl
    rename_i first rest
    split
    · rfl
    rename_i other
    have second : ∀ next more, rest = next :: more → first ≠ next ∧ (first = 'n' → next = 'y' ∧ more = []) := by
      rintro next more rfl
      exact waiting.second
    -- A waiting key is not doubled, and n is followed by y alone.
    have final : first = 'n' → rest = [] := by
      rintro rfl
      cases rest with
      | nil => rfl
      | cons next more =>
        obtain ⟨rfl, rfl⟩ := (second next more rfl).2 rfl
        exact absurd rfl other
    rw [if_neg, waiting.lookup]
    · dsimp only
      rw [if_neg, if_neg, if_pos waiting.isRomanPrefix]
      · cases rest with
        | nil => simp
        | cons next more => simp [((second next more rfl).1).symm]
      · simp only [Bool.and_eq_true, decide_eq_true_eq, not_and]
        intro n
        simp [final n]
    · rw [List.isPrefixOf_iff_prefix]
      rintro ⟨more, same⟩
      obtain ⟨rfl, rfl⟩ : first = 'n' ∧ rest = 'n' :: more := by simpa [eq_comm] using same
      cases final rfl

/-- Every unit of the parser is one of the two kinds. -/
theorem nextUnit_parses (found : nextUnit pending = some unit) : Parses pending unit := by
  unfold nextUnit at found
  split at found
  · cases found
  rename_i first rest
  split at found
  · cases found
  split at found
  · rename_i doubled
    obtain rfl := Option.some.inj found
    obtain ⟨more, same⟩ := List.isPrefixOf_iff_prefix.mp doubled
    exact .converted ['n', 'n'] (by rw [← same]; simp) (by simp) (by simp)
      (List.forall_mem_singleton.mpr (by decide))
  split at found
  · rename_i roman kana spelt
    obtain rfl := Option.some.inj found
    obtain ⟨member, more, same⟩ := lookupRoman_some spelt
    have regular := regular_of_mem member
    exact .converted roman (by rw [← same]; simp) regular.nonempty regular.kana regular.literal
  rename_i missing
  split at found
  · obtain rfl := Option.some.inj found
    exact .converted [first] rfl (by simp) (by simp) (List.forall_mem_singleton.mpr (by decide))
  rename_i notN
  split at found
  · obtain rfl := Option.some.inj found
    exact .converted [first] rfl (by simp) (by simp) (List.forall_mem_singleton.mpr (by decide))
  rename_i notDoubled
  split at found
  · cases found
  rename_i completes
  obtain rfl := Option.some.inj found
  cases letter : first.isAlpha with
  | false => exact .converted [first] rfl (by simp) (by simp) (by simpa using letter)
  | true =>
    rw [lookupRoman_eq_none_iff] at missing
    have consonant : isVowel first = false := by
      cases vowel : isVowel first with
      | false => rfl
      | true =>
        obtain ⟨kana, member⟩ := vowel_spelling vowel
        exact absurd ⟨rest, rfl⟩ (missing _ member)
    refine .frozen rfl ?_ ⟨letter, consonant⟩ ?_
    · rintro rfl
      exact completes (isRomanPrefix_iff.mpr (.inl ⟨first, rfl, letter⟩))
    · intro second follows
      obtain ⟨more, rfl⟩ : ∃ more, rest = second :: more := by
        cases rest with
        | nil => cases follows
        | cons head more => exact ⟨more, by rw [Option.some.inj follows]⟩
      refine ⟨?_, fun kana member => missing _ member ⟨more, rfl⟩⟩
      rintro rfl
      simp only [List.head?_cons, Bool.and_eq_true, decide_eq_true_eq, Option.isSome_some, and_true] at notN
      simp [notN, letter, consonant] at notDoubled

/-- A unit takes a pending key at least. -/
theorem Parses.rest_lt (parses : Parses pending unit) : unit.rest.length < pending.length := by
  cases parses with
  | converted taken keys used _ _ =>
    have := List.length_pos_iff.mpr used
    rw [keys, List.length_append]
    dsimp only
    omega
  | frozen keys _ _ _ => rw [keys]; simp

end Units

end LocalKanaComposer

end Nospacekey
