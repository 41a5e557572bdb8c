import Mathlib.Data.List.Chain
import Nospacekey.Dictionary.UserDictionary

/-! Keys, words and parts of speech are as they would be after another normalisation. -/

namespace Nospacekey

/-! ## Sound marks -/

/-- All kana that take a sound mark, with what they are then. -/
def soundPairs : List (Char × Char) := voicedPairs ++ semiVoicedPairs

def isHiragana (c : Char) : Bool := 0x3041 ≤ c.toNat && c.toNat ≤ 0x3096

/-- What is composed takes no other mark, is no mark itself and no blank, and is of the script that it was. -/
theorem soundPairs_closed : ∀ pair ∈ soundPairs,
    (soundPairs.all fun other => other.1 ≠ pair.2) ∧ pair.2 ≠ '\u3099' ∧ pair.2 ≠ '\u309A' ∧
      isTrimWsChar pair.2 = false ∧ (isHiragana pair.2 = true → isHiragana pair.1 = true) := by
  decide

theorem mem_soundPairs {base mark composed : Char} (together : composePair base mark = some composed) :
    (mark = '\u3099' ∨ mark = '\u309A') ∧ (base, composed) ∈ soundPairs := by
  have listed {pairs : List (Char × Char)} (found : pairs.lookup base = some composed) : (base, composed) ∈ pairs := by
    obtain ⟨before, after, split, -⟩ := List.lookup_eq_some_iff.mp found
    simp [split]
  rw [composePair] at together
  split at together
  · exact ⟨.inl ‹_›, List.mem_append_left _ (listed together)⟩
  · split at together
    · exact ⟨.inr ‹_›, List.mem_append_right _ (listed together)⟩
    · cases together

/-- Nothing is composed with what is no mark. -/
theorem composePair_composed (base : Char) {pair : Char × Char} (composed : pair ∈ soundPairs) :
    composePair base pair.2 = none := by
  obtain ⟨-, voiced, semiVoiced, -⟩ := soundPairs_closed pair composed
  rw [composePair, if_neg voiced, if_neg semiVoiced]

/-- What is composed takes no mark. -/
theorem composePair_of_composed {pair : Char × Char} (composed : pair ∈ soundPairs) (mark : Char) :
    composePair pair.2 mark = none := by
  by_contra some_mark
  obtain ⟨other, together⟩ := Option.ne_none_iff_exists'.mp some_mark
  have base := List.all_eq_true.mp (soundPairs_closed pair composed).1 _ (mem_soundPairs together).2
  simp at base

/-- A character of a composed text was there, or was composed of one that was. -/
theorem mem_composeKana {s : Text} {c : Char} (mem : c ∈ composeKana s) :
    c ∈ s ∨ ∃ base ∈ s, (base, c) ∈ soundPairs := by
  fun_induction composeKana s with
  | case1 => exact .inl mem
  | case2 base => exact .inl mem
  | case3 base mark rest composed together ih =>
    rcases List.mem_cons.mp mem with rfl | mem
    · exact .inr ⟨base, .head _, (mem_soundPairs together).2⟩
    · rcases ih mem with there | ⟨other, there, pair⟩
      · exact .inl (.tail _ (.tail _ there))
      · exact .inr ⟨other, .tail _ (.tail _ there), pair⟩
  | case4 base mark rest apart ih =>
    rcases List.mem_cons.mp mem with rfl | mem
    · exact .inl (.head _)
    · rcases ih mem with there | ⟨other, there, pair⟩
      · exact .inl (.tail _ there)
      · exact .inr ⟨other, .tail _ there, pair⟩

/-- A composed text begins with what the text begins with, or with what is composed of it. -/
theorem head_composeKana (c : Char) (rest : Text) :
    ∃ d tail, composeKana (c :: rest) = d :: tail ∧ (d = c ∨ (c, d) ∈ soundPairs) := by
  cases rest with
  | nil => exact ⟨c, [], rfl, .inl rfl⟩
  | cons mark rest =>
    rw [composeKana]
    split
    · rename_i composed together
      exact ⟨composed, _, rfl, .inr (mem_soundPairs together).2⟩
    · exact ⟨c, _, rfl, .inl rfl⟩

/-- A composed text ends with what the text ends with, or with something composed. -/
theorem last_composeKana {s : Text} {d : Char} (last : (composeKana s).getLast? = some d) :
    s.getLast? = some d ∨ ∃ base, (base, d) ∈ soundPairs := by
  fun_induction composeKana s with
  | case1 => exact .inl last
  | case2 base => exact .inl last
  | case3 base mark rest composed together ih =>
    rw [List.getLast?_cons] at last
    cases tail : (composeKana rest).getLast? with
    | none =>
      rw [tail] at last
      exact .inr ⟨base, Option.some.inj last ▸ (mem_soundPairs together).2⟩
    | some e =>
      rw [tail, Option.getD_some] at last
      refine (ih (tail.trans last)).imp_left fun ends => ?_
      rw [List.getLast?_cons_cons, List.getLast?_cons, ends, Option.getD_some]
  | case4 base mark rest apart ih =>
    obtain ⟨e, tail, split, -⟩ := head_composeKana mark rest
    rw [split, List.getLast?_cons_cons, ← split] at last
    refine (ih last).imp_left fun ends => ?_
    rwa [List.getLast?_cons_cons]

/-- Nothing in a text can be put together any more. -/
def Composed (s : Text) : Prop := s.IsChain fun base mark => composePair base mark = none

theorem composed_composeKana (s : Text) : Composed (composeKana s) := by
  fun_induction composeKana s with
  | case1 => exact .nil
  | case2 base => exact .singleton base
  | case3 base mark rest composed together ih =>
    -- What was composed takes no mark, whatever comes next.
    cases tail : composeKana rest with
    | nil => exact .singleton composed
    | cons next tail' =>
      rw [tail] at ih
      exact .cons_cons (composePair_of_composed (mem_soundPairs together).2 next) ih
  | case4 base mark rest apart ih =>
    obtain ⟨next, tail, split, same⟩ := head_composeKana mark rest
    rw [split] at ih ⊢
    refine .cons_cons ?_ ih
    -- The next character is the one that was no mark for this one, or something composed.
    rcases same with rfl | pair
    · exact apart
    · exact composePair_composed base pair

theorem composeKana_of_composed {s : Text} (composed : Composed s) : composeKana s = s := by
  fun_induction composeKana s with
  | case1 => rfl
  | case2 base => rfl
  | case3 base mark rest found together ih =>
    cases composed with
    | cons_cons apart _ => rw [apart] at together; cases together
  | case4 base mark rest apart ih =>
    cases composed with
    | cons_cons _ rest_composed => rw [ih rest_composed]

theorem composeKana_idempotent (s : Text) : composeKana (composeKana s) = composeKana s :=
  composeKana_of_composed (composed_composeKana s)

/-! ## Blanks around a text -/

/-- A text that neither begins nor ends with a blank. -/
structure Trimmed (s : Text) : Prop where
  head : ∀ c, s.head? = some c → isTrimWsChar c = false
  last : ∀ c, s.getLast? = some c → isTrimWsChar c = false

theorem head_dropWhile_not {p : Char → Bool} {s : Text} {c : Char} (head : (s.dropWhile p).head? = some c) :
    p c = false := by
  have := List.head?_dropWhile_not p s
  rw [head] at this
  simpa using this

theorem trimmed_trimWs (s : Text) : Trimmed (trimWs s) := by
  constructor
  · intro c head
    rw [trimWs, List.head?_reverse] at head
    -- The front is what it was before the end was cut, as something is left.
    have kept : (s.dropWhile isTrimWsChar).reverse.dropWhile isTrimWsChar <:+ (s.dropWhile isTrimWsChar).reverse :=
      List.dropWhile_suffix _
    obtain ⟨cut, whole⟩ := kept
    refine head_dropWhile_not (s := s) ?_
    rw [← List.getLast?_reverse, ← whole, List.getLast?_append, head, Option.some_or]
  · intro c last
    rw [trimWs, List.getLast?_reverse] at last
    exact head_dropWhile_not last

theorem trimWs_of_trimmed {s : Text} (trimmed : Trimmed s) : trimWs s = s := by
  have front : s.dropWhile isTrimWsChar = s := by
    cases s with
    | nil => rfl
    | cons c rest => simp [trimmed.head c rfl]
  have back : s.reverse.dropWhile isTrimWsChar = s.reverse := by
    cases ends : s.reverse with
    | nil => rfl
    | cons c rest =>
      have : isTrimWsChar c = false := trimmed.last c (by rw [← List.head?_reverse, ends]; rfl)
      simp [this]
  rw [trimWs, front, back, List.reverse_reverse]

/-- What is composed of a text without blanks around it has none either. -/
theorem Trimmed.composeKana {s : Text} (trimmed : Trimmed s) : Trimmed (composeKana s) := by
  constructor
  · intro d head
    cases s with
    | nil => cases head
    | cons c rest =>
      obtain ⟨e, tail, split, same⟩ := head_composeKana c rest
      rw [split, List.head?_cons, Option.some.injEq] at head
      subst head
      rcases same with rfl | pair
      · exact trimmed.head e rfl
      · exact (soundPairs_closed _ pair).2.2.2.1
  · intro d last
    rcases last_composeKana last with ends | ⟨base, pair⟩
    · exact trimmed.last d ends
    · exact (soundPairs_closed _ pair).2.2.2.1

/-! ## Keys -/

/-- The katakana of a character. -/
def katakanaOf (c : Char) : Char := if 0x3041 ≤ c.toNat ∧ c.toNat ≤ 0x3096 then Char.ofNat (c.toNat + 0x60) else c

theorem hiraganaToKatakana_eq (s : Text) : hiraganaToKatakana s = s.map katakanaOf := rfl

theorem isHiragana_katakanaOf (c : Char) : isHiragana (katakanaOf c) = false := by
  rw [katakanaOf]
  split
  · rw [isHiragana, toNat_charOfNat (by simp only [Nat.isValidChar]; omega)]
    simp
    omega
  · simp [isHiragana]
    omega

/-- Kana do not become blanks. -/
theorem isTrimWsChar_katakanaOf {c : Char} (visible : isTrimWsChar c = false) : isTrimWsChar (katakanaOf c) = false := by
  rw [katakanaOf]
  split
  · rw [isTrimWsChar, toNat_charOfNat (by simp only [Nat.isValidChar]; omega)]
    simp
    omega
  · exact visible

theorem hiraganaToKatakana_of_forall {s : Text} (none_left : ∀ c ∈ s, isHiragana c = false) :
    hiraganaToKatakana s = s := by
  rw [hiraganaToKatakana_eq]
  refine (List.map_congr_left fun c mem => ?_).trans (List.map_id s)
  have := none_left c mem
  rw [isHiragana, Bool.and_eq_false_iff, decide_eq_false_iff_not, decide_eq_false_iff_not] at this
  exact if_neg (by omega)

theorem Trimmed.hiraganaToKatakana {s : Text} (trimmed : Trimmed s) : Trimmed (hiraganaToKatakana s) := by
  constructor <;> intro c ends
  · rw [hiraganaToKatakana_eq, List.head?_map, Option.map_eq_some_iff] at ends
    obtain ⟨d, head, rfl⟩ := ends
    exact isTrimWsChar_katakanaOf (trimmed.head d head)
  · rw [hiraganaToKatakana_eq, List.getLast?_map, Option.map_eq_some_iff] at ends
    obtain ⟨d, last, rfl⟩ := ends
    exact isTrimWsChar_katakanaOf (trimmed.last d last)

theorem normalizeKey_idempotent (ruby : Text) : normalizeKey (normalizeKey ruby) = normalizeKey ruby := by
  have trimmed : Trimmed (normalizeKey ruby) := (trimmed_trimWs ruby).hiraganaToKatakana.composeKana
  have none_left : ∀ c ∈ normalizeKey ruby, isHiragana c = false := by
    intro c mem
    have katakana : ∀ d ∈ hiraganaToKatakana (trimWs ruby), isHiragana d = false := by
      intro d mem
      rw [hiraganaToKatakana_eq, List.mem_map] at mem
      obtain ⟨e, -, rfl⟩ := mem
      exact isHiragana_katakanaOf e
    rcases mem_composeKana mem with there | ⟨base, there, pair⟩
    · exact katakana c there
    · -- A composed kana is hiragana only if its base is.
      by_contra hiragana
      have := (soundPairs_closed _ pair).2.2.2.2 (by simpa using hiragana)
      rw [katakana base there] at this
      cases this
  -- Neither the blanks, nor the kana, nor the marks have anything left to change.
  conv_lhs => rw [normalizeKey, trimWs_of_trimmed trimmed, hiraganaToKatakana_of_forall none_left]
  exact composeKana_idempotent _

/-! ## Parts of speech -/

/-- The parts of speech that there are. -/
def canonicalPositions : List Text :=
  ["名詞".toList, "姓".toList, "名".toList, "人名".toList, "組織".toList, "地名".toList, "固有名詞".toList, "数".toList]

theorem canonicalPos_mem (pos : Option Text) : canonicalPos pos ∈ canonicalPositions := by
  unfold canonicalPos
  simp only
  repeat' split
  all_goals decide

theorem canonicalPos_of_mem : ∀ pos ∈ canonicalPositions, canonicalPos (some pos) = pos := by
  decide

theorem canonicalPos_idempotent (pos : Option Text) : canonicalPos (some (canonicalPos pos)) = canonicalPos pos :=
  canonicalPos_of_mem _ (canonicalPos_mem pos)

theorem hasControlChar_canonicalPos (pos : Option Text) : hasControlChar (canonicalPos pos) = false := by
  have plain : ∀ pos ∈ canonicalPositions, hasControlChar pos = false := by decide
  exact plain _ (canonicalPos_mem pos)

/-! ## Rubies -/

/-- The kana that take a mark are what a ruby may have in it, or stand for a repetition. -/
theorem soundPairs_bases : ∀ pair ∈ soundPairs, 0x3041 ≤ pair.1.toNat ∧ pair.1.toNat ≤ 0x30FF := by
  decide

/-- A ruby that is taken begins with a blank or with kana. -/
theorem head_of_validateEntry {ruby word : Text} (valid : validateEntry ruby word = .ok ()) :
    ∃ c rest, ruby = c :: rest ∧ (isTrimWsChar c = true ∨ (0x3041 ≤ c.toNat ∧ c.toNat ≤ 0x30FF)) := by
  -- What is judged is not empty, and all of it is kana.
  obtain ⟨some_left, kana⟩ : composeKana (trimWs ruby) ≠ [] ∧ ∀ d ∈ composeKana (trimWs ruby), isValidRubyChar d = true := by
    unfold validateEntry at valid
    cases checked : checkGeneric (composeKana (trimWs ruby)) with
    | error wrong => simp [checked, bind, Except.bind] at valid
    | ok _ =>
      refine ⟨?_, ?_⟩
      · intro empty
        simp [checkGeneric, empty] at checked
      · by_contra other
        rw [← List.all_eq_true, Bool.not_eq_true] at other
        simp [checked, other, bind, Except.bind, throw, throwThe, MonadExceptOf.throw] at valid
  cases ruby with
  | nil => exact absurd rfl some_left
  | cons c rest =>
    refine ⟨c, rest, rfl, ?_⟩
    by_cases blank : isTrimWsChar c = true
    · exact .inl blank
    · -- Nothing is cut off at the front, so the ruby begins with what is judged, or what it was composed of.
      right
      have front : ∃ tail, trimWs (c :: rest) = c :: tail := by
        rw [trimWs, List.dropWhile_cons_of_neg blank, List.reverse_cons, List.dropWhile_append]
        split
        · exact ⟨[], by rw [List.dropWhile_cons_of_neg blank]; rfl⟩
        · exact ⟨_, by rw [List.reverse_append]; rfl⟩
      obtain ⟨tail, split⟩ := front
      obtain ⟨d, composed, found, same⟩ := head_composeKana c tail
      rw [split, found] at kana
      have judged : isValidRubyChar d = true := kana d (.head _)
      rcases same with rfl | pair
      · unfold isValidRubyChar at judged
        simp only [Bool.or_eq_true, Bool.and_eq_true, decide_eq_true_eq] at judged
        omega
      · exact soundPairs_bases _ pair

end Nospacekey
