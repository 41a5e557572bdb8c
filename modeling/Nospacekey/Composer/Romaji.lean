import Nospacekey.Ipc.Clause

/-! The roman spellings of kana and the prefix questions the composer asks about them. -/

namespace Nospacekey

/-- Spellings found without a search. -/
def fastRoman : List (Text × Text) :=
  [(['a'], ['あ']), (['i'], ['い']), (['u'], ['う']), (['e'], ['え']), (['o'], ['お']), (['k', 'a'], ['か']),
   (['k', 'i'], ['き']), (['k', 'u'], ['く']), (['k', 'e'], ['け']), (['k', 'o'], ['こ']),
   (['s', 'a'], ['さ']), (['s', 'i'], ['し']), (['s', 'u'], ['す']), (['s', 'e'], ['せ']),
   (['s', 'o'], ['そ']), (['t', 'a'], ['た']), (['t', 'i'], ['ち']), (['t', 'u'], ['つ']),
   (['t', 'e'], ['て']), (['t', 'o'], ['と']), (['n', 'a'], ['な']), (['n', 'i'], ['に']),
   (['n', 'u'], ['ぬ']), (['n', 'e'], ['ね']), (['n', 'o'], ['の'])]

/-- All spellings with the kana they stand for. -/
def romanKana : List (Text × Text) :=
  [(['l', 't', 's', 'u'], ['っ']), (['x', 't', 's', 'u'], ['っ']), (['l', 't', 'u'], ['っ']),
   (['x', 't', 'u'], ['っ']), (['l', 'y', 'a'], ['ゃ']), (['l', 'y', 'u'], ['ゅ']),
   (['l', 'y', 'o'], ['ょ']), (['x', 'y', 'a'], ['ゃ']), (['x', 'y', 'u'], ['ゅ']),
   (['x', 'y', 'o'], ['ょ']), (['x', 'n'], ['ん']), (['x', 'w', 'a'], ['ゎ']), (['l', 'w', 'a'], ['ゎ']),
   (['x', 'k', 'a'], ['ゕ']), (['l', 'k', 'a'], ['ゕ']), (['x', 'k', 'e'], ['ゖ']),
   (['l', 'k', 'e'], ['ゖ']), (['w', 'y', 'i'], ['ゐ']), (['w', 'y', 'e'], ['ゑ']),
   (['y', 'e'], ['い', 'ぇ']), (['v', 'a'], ['ゔ', 'ぁ']), (['v', 'i'], ['ゔ', 'ぃ']), (['v', 'u'], ['ゔ']),
   (['v', 'e'], ['ゔ', 'ぇ']), (['v', 'o'], ['ゔ', 'ぉ']), (['k', 'y', 'e'], ['き', 'ぇ']),
   (['g', 'y', 'e'], ['ぎ', 'ぇ']), (['q', 'a'], ['く', 'ぁ']), (['q', 'w', 'a'], ['く', 'ぁ']),
   (['q', 'i'], ['く', 'ぃ']), (['q', 'w', 'i'], ['く', 'ぃ']), (['q', 'u'], ['く', 'ぅ']),
   (['k', 'w', 'u'], ['く', 'ぅ']), (['q', 'w', 'u'], ['く', 'ぅ']), (['q', 'e'], ['く', 'ぇ']),
   (['q', 'w', 'e'], ['く', 'ぇ']), (['q', 'o'], ['く', 'ぉ']), (['q', 'w', 'o'], ['く', 'ぉ']),
   (['k', 'y', 'a'], ['き', 'ゃ']), (['k', 'y', 'u'], ['き', 'ゅ']), (['k', 'y', 'o'], ['き', 'ょ']),
   (['g', 'y', 'a'], ['ぎ', 'ゃ']), (['g', 'y', 'u'], ['ぎ', 'ゅ']), (['g', 'y', 'o'], ['ぎ', 'ょ']),
   (['s', 'h', 'a'], ['し', 'ゃ']), (['s', 'h', 'u'], ['し', 'ゅ']), (['s', 'h', 'o'], ['し', 'ょ']),
   (['s', 'h', 'e'], ['し', 'ぇ']), (['s', 'y', 'e'], ['し', 'ぇ']), (['s', 'y', 'a'], ['し', 'ゃ']),
   (['s', 'y', 'u'], ['し', 'ゅ']), (['s', 'y', 'o'], ['し', 'ょ']), (['z', 'y', 'a'], ['じ', 'ゃ']),
   (['z', 'y', 'u'], ['じ', 'ゅ']), (['z', 'y', 'o'], ['じ', 'ょ']), (['j', 'y', 'a'], ['じ', 'ゃ']),
   (['j', 'y', 'u'], ['じ', 'ゅ']), (['j', 'y', 'o'], ['じ', 'ょ']), (['j', 'a'], ['じ', 'ゃ']),
   (['j', 'u'], ['じ', 'ゅ']), (['j', 'e'], ['じ', 'ぇ']), (['j', 'o'], ['じ', 'ょ']),
   (['j', 'y', 'i'], ['じ', 'ぃ']), (['z', 'y', 'e'], ['じ', 'ぇ']), (['j', 'y', 'e'], ['じ', 'ぇ']),
   (['s', 'w', 'a'], ['す', 'ぁ']), (['s', 'w', 'i'], ['す', 'ぃ']), (['s', 'w', 'u'], ['す', 'ぅ']),
   (['s', 'w', 'e'], ['す', 'ぇ']), (['s', 'w', 'o'], ['す', 'ぉ']), (['c', 'h', 'a'], ['ち', 'ゃ']),
   (['c', 'h', 'u'], ['ち', 'ゅ']), (['c', 'h', 'o'], ['ち', 'ょ']), (['c', 'y', 'a'], ['ち', 'ゃ']),
   (['c', 'y', 'u'], ['ち', 'ゅ']), (['c', 'y', 'o'], ['ち', 'ょ']), (['t', 'y', 'a'], ['ち', 'ゃ']),
   (['t', 'y', 'u'], ['ち', 'ゅ']), (['t', 'y', 'o'], ['ち', 'ょ']), (['t', 'y', 'i'], ['ち', 'ぃ']),
   (['c', 'y', 'i'], ['ち', 'ぃ']), (['c', 'h', 'e'], ['ち', 'ぇ']), (['c', 'y', 'e'], ['ち', 'ぇ']),
   (['t', 'y', 'e'], ['ち', 'ぇ']), (['d', 'y', 'a'], ['ぢ', 'ゃ']), (['d', 'y', 'u'], ['ぢ', 'ゅ']),
   (['d', 'y', 'o'], ['ぢ', 'ょ']), (['d', 'y', 'i'], ['ぢ', 'ぃ']), (['d', 'y', 'e'], ['ぢ', 'ぇ']),
   (['t', 'h', 'a'], ['て', 'ゃ']), (['t', 'h', 'u'], ['て', 'ゅ']), (['t', 'h', 'e'], ['て', 'ぇ']),
   (['t', 'h', 'o'], ['て', 'ょ']), (['t', 'w', 'a'], ['と', 'ぁ']), (['t', 'w', 'i'], ['と', 'ぃ']),
   (['t', 'w', 'e'], ['と', 'ぇ']), (['t', 'w', 'o'], ['と', 'ぉ']), (['d', 'h', 'a'], ['で', 'ゃ']),
   (['d', 'h', 'u'], ['で', 'ゅ']), (['d', 'h', 'e'], ['で', 'ぇ']), (['d', 'h', 'o'], ['で', 'ょ']),
   (['d', 'w', 'a'], ['ど', 'ぁ']), (['d', 'w', 'i'], ['ど', 'ぃ']), (['d', 'w', 'e'], ['ど', 'ぇ']),
   (['d', 'w', 'o'], ['ど', 'ぉ']), (['n', 'y', 'a'], ['に', 'ゃ']), (['n', 'y', 'u'], ['に', 'ゅ']),
   (['n', 'y', 'o'], ['に', 'ょ']), (['n', 'y', 'i'], ['に', 'ぃ']), (['n', 'y', 'e'], ['に', 'ぇ']),
   (['h', 'y', 'a'], ['ひ', 'ゃ']), (['h', 'y', 'u'], ['ひ', 'ゅ']), (['h', 'y', 'o'], ['ひ', 'ょ']),
   (['h', 'y', 'i'], ['ひ', 'ぃ']), (['h', 'y', 'e'], ['ひ', 'ぇ']), (['b', 'y', 'a'], ['び', 'ゃ']),
   (['b', 'y', 'u'], ['び', 'ゅ']), (['b', 'y', 'o'], ['び', 'ょ']), (['b', 'y', 'i'], ['び', 'ぃ']),
   (['b', 'y', 'e'], ['び', 'ぇ']), (['p', 'y', 'a'], ['ぴ', 'ゃ']), (['p', 'y', 'u'], ['ぴ', 'ゅ']),
   (['p', 'y', 'o'], ['ぴ', 'ょ']), (['p', 'y', 'i'], ['ぴ', 'ぃ']), (['p', 'y', 'e'], ['ぴ', 'ぇ']),
   (['m', 'y', 'a'], ['み', 'ゃ']), (['m', 'y', 'u'], ['み', 'ゅ']), (['m', 'y', 'o'], ['み', 'ょ']),
   (['m', 'y', 'i'], ['み', 'ぃ']), (['m', 'y', 'e'], ['み', 'ぇ']), (['r', 'y', 'a'], ['り', 'ゃ']),
   (['r', 'y', 'u'], ['り', 'ゅ']), (['r', 'y', 'o'], ['り', 'ょ']), (['r', 'y', 'i'], ['り', 'ぃ']),
   (['r', 'y', 'e'], ['り', 'ぇ']), (['f', 'y', 'a'], ['ふ', 'ゃ']), (['f', 'y', 'u'], ['ふ', 'ゅ']),
   (['f', 'y', 'o'], ['ふ', 'ょ']), (['f', 'a'], ['ふ', 'ぁ']), (['f', 'i'], ['ふ', 'ぃ']),
   (['f', 'e'], ['ふ', 'ぇ']), (['f', 'o'], ['ふ', 'ぉ']), (['h', 'w', 'a'], ['ふ', 'ぁ']),
   (['h', 'w', 'i'], ['ふ', 'ぃ']), (['h', 'w', 'e'], ['ふ', 'ぇ']), (['h', 'w', 'o'], ['ふ', 'ぉ']),
   (['t', 's', 'a'], ['つ', 'ぁ']), (['t', 's', 'i'], ['つ', 'ぃ']), (['t', 's', 'e'], ['つ', 'ぇ']),
   (['t', 's', 'o'], ['つ', 'ぉ']), (['k', 'w', 'a'], ['く', 'ぁ']), (['k', 'w', 'i'], ['く', 'ぃ']),
   (['k', 'w', 'e'], ['く', 'ぇ']), (['k', 'w', 'o'], ['く', 'ぉ']), (['g', 'w', 'a'], ['ぐ', 'ぁ']),
   (['g', 'w', 'i'], ['ぐ', 'ぃ']), (['g', 'w', 'e'], ['ぐ', 'ぇ']), (['g', 'w', 'o'], ['ぐ', 'ぉ']),
   (['g', 'w', 'u'], ['ぐ', 'ぅ']), (['s', 'h', 'i'], ['し']), (['c', 'h', 'i'], ['ち']),
   (['t', 's', 'u'], ['つ']), (['t', 'h', 'i'], ['て', 'ぃ']), (['d', 'h', 'i'], ['で', 'ぃ']),
   (['t', 'w', 'u'], ['と', 'ぅ']), (['d', 'w', 'u'], ['ど', 'ぅ']), (['f', 'w', 'u'], ['ふ', 'ぅ']),
   (['f', 'w', 'a'], ['ふ', 'ぁ']), (['f', 'w', 'i'], ['ふ', 'ぃ']), (['f', 'w', 'e'], ['ふ', 'ぇ']),
   (['f', 'w', 'o'], ['ふ', 'ぉ']), (['w', 'h', 'i'], ['う', 'ぃ']), (['w', 'h', 'u'], ['う']),
   (['w', 'h', 'a'], ['う', 'ぁ']), (['w', 'h', 'e'], ['う', 'ぇ']), (['w', 'h', 'o'], ['う', 'ぉ']),
   (['c', 'a'], ['か']), (['k', 'a'], ['か']), (['k', 'i'], ['き']), (['c', 'u'], ['く']),
   (['k', 'u'], ['く']), (['c', 'e'], ['せ']), (['k', 'e'], ['け']), (['c', 'o'], ['こ']),
   (['k', 'o'], ['こ']), (['g', 'a'], ['が']), (['g', 'i'], ['ぎ']), (['g', 'u'], ['ぐ']),
   (['g', 'e'], ['げ']), (['g', 'o'], ['ご']), (['c', 'i'], ['し']), (['s', 'a'], ['さ']),
   (['s', 'i'], ['し']), (['s', 'u'], ['す']), (['s', 'e'], ['せ']), (['s', 'o'], ['そ']),
   (['z', 'a'], ['ざ']), (['z', 'i'], ['じ']), (['j', 'i'], ['じ']), (['z', 'u'], ['ず']),
   (['z', 'e'], ['ぜ']), (['z', 'o'], ['ぞ']), (['t', 'a'], ['た']), (['t', 'i'], ['ち']),
   (['t', 'u'], ['つ']), (['t', 'e'], ['て']), (['t', 'o'], ['と']), (['d', 'a'], ['だ']),
   (['d', 'i'], ['ぢ']), (['d', 'u'], ['づ']), (['d', 'e'], ['で']), (['d', 'o'], ['ど']),
   (['n', 'a'], ['な']), (['n', 'i'], ['に']), (['n', 'u'], ['ぬ']), (['n', 'e'], ['ね']),
   (['n', 'o'], ['の']), (['h', 'a'], ['は']), (['h', 'i'], ['ひ']), (['h', 'u'], ['ふ']),
   (['f', 'u'], ['ふ']), (['h', 'e'], ['へ']), (['h', 'o'], ['ほ']), (['b', 'a'], ['ば']),
   (['b', 'i'], ['び']), (['b', 'u'], ['ぶ']), (['b', 'e'], ['べ']), (['b', 'o'], ['ぼ']),
   (['p', 'a'], ['ぱ']), (['p', 'i'], ['ぴ']), (['p', 'u'], ['ぷ']), (['p', 'e'], ['ぺ']),
   (['p', 'o'], ['ぽ']), (['m', 'a'], ['ま']), (['m', 'i'], ['み']), (['m', 'u'], ['む']),
   (['m', 'e'], ['め']), (['m', 'o'], ['も']), (['y', 'a'], ['や']), (['y', 'u'], ['ゆ']),
   (['y', 'o'], ['よ']), (['r', 'a'], ['ら']), (['r', 'i'], ['り']), (['r', 'u'], ['る']),
   (['r', 'e'], ['れ']), (['r', 'o'], ['ろ']), (['w', 'a'], ['わ']), (['w', 'i'], ['う', 'ぃ']),
   (['w', 'e'], ['う', 'ぇ']), (['w', 'o'], ['を']), (['l', 'a'], ['ぁ']), (['l', 'i'], ['ぃ']),
   (['l', 'u'], ['ぅ']), (['l', 'e'], ['ぇ']), (['l', 'o'], ['ぉ']), (['x', 'a'], ['ぁ']),
   (['x', 'i'], ['ぃ']), (['x', 'u'], ['ぅ']), (['x', 'e'], ['ぇ']), (['x', 'o'], ['ぉ']),
   (['z', 'h'], ['←']), (['z', 'j'], ['↓']), (['z', 'k'], ['↑']), (['z', 'l'], ['→']), (['a'], ['あ']),
   (['i'], ['い']), (['u'], ['う']), (['w', 'u'], ['う']), (['e'], ['え']), (['o'], ['お'])]

/-- The vowels, each of which is a spelling of its own. -/
def isVowel (c : Char) : Bool := c == 'a' || c == 'i' || c == 'u' || c == 'e' || c == 'o'

/-- The entry with the longest spelling, the last one among several. -/
def longestSpelling (entries : List (Text × Text)) : Option (Text × Text) :=
  entries.foldl
    (fun best entry =>
      if best.all fun found => found.1.length ≤ entry.1.length then some entry else best) none

/-- The longest spelling that an input starts with. -/
def lookupRoman (input : Text) : Option (Text × Text) :=
  match fastRoman.find? fun entry => entry.1 == input with
  | some entry => some entry
  | none => longestSpelling (romanKana.filter fun entry => entry.1.isPrefixOf input)

/-- Whether later keys may still complete an input to a spelling. -/
def isRomanPrefix (input : Text) : Bool :=
  (match input with
    | [c] => c.isAlpha
    | _ => false) || romanKana.any fun entry => input.isPrefixOf entry.1

section Table

/-- What every entry of the table is like. -/
def regularEntry (entry : Text × Text) : Bool :=
  !entry.1.isEmpty && entry.1.all Char.isLower && entry.1.dropLast.all (fun c => !isVowel c)
    && (entry.1.length == 2 || entry.1.getLast?.any isVowel)
    && (entry.1.zip entry.1.tail).all (fun pair => pair.1 != pair.2)
    && !entry.2.isEmpty && entry.2.all (fun c => !c.isAlpha)

/-- What the table is like, entry by entry. -/
theorem romanKana_table : romanKana.all regularEntry = true
    ∧ (romanKana.all fun entry => entry.1.getLast?.any isVowel ||
        romanKana.all fun other => !entry.1.isPrefixOf other.1 || entry.1 == other.1) = true
    ∧ (fastRoman.all fun entry => romanKana.contains entry) = true
    ∧ (['a', 'i', 'u', 'e', 'o'].all fun c => romanKana.any fun entry => entry.1 == [c]) = true
    ∧ (romanKana.all fun entry => entry.1.head? != some 'n' ||
        entry.1.length ≤ 3 && entry.1.tail.head?.any fun c => isVowel c || c == 'y') = true := by
  -- One evaluation goes over the table for all of them.
  decide +kernel

/-- Every entry of the table is regular. -/
theorem romanKana_regular : romanKana.all regularEntry = true := romanKana_table.1

/-- A spelling that does not end in a vowel starts no other one. -/
theorem romanKana_unvowelled : (romanKana.all fun entry => entry.1.getLast?.any isVowel ||
    romanKana.all fun other => !entry.1.isPrefixOf other.1 || entry.1 == other.1) = true := romanKana_table.2.1

/-- The spellings found without a search are in the table. -/
theorem fastRoman_subset : (fastRoman.all fun entry => romanKana.contains entry) = true := romanKana_table.2.2.1

/-- Every vowel is spelt by itself. -/
theorem romanKana_vowels :
    (['a', 'i', 'u', 'e', 'o'].all fun c => romanKana.any fun entry => entry.1 == [c]) = true :=
  romanKana_table.2.2.2.1

/-- A spelling that starts with n goes on with a vowel, or with y and one more key. -/
theorem romanKana_n : (romanKana.all fun entry =>
    entry.1.head? != some 'n' || entry.1.length ≤ 3 && entry.1.tail.head?.any fun c => isVowel c || c == 'y')
      = true :=
  romanKana_table.2.2.2.2

variable {entry : Text × Text}

/-- The shape of a spelling and of the kana it stands for. -/
structure Regular (entry : Text × Text) : Prop where
  nonempty : entry.1 ≠ []
  lower : ∀ c ∈ entry.1, c.isLower = true
  inner : ∀ c ∈ entry.1.dropLast, isVowel c = false
  ending : entry.1.length = 2 ∨ ∃ c, entry.1.getLast? = some c ∧ isVowel c = true
  apart : ∀ pair ∈ entry.1.zip entry.1.tail, pair.1 ≠ pair.2
  kana : entry.2 ≠ []
  literal : ∀ c ∈ entry.2, c.isAlpha = false

/-- Every spelling is regular. -/
theorem regular_of_mem (member : entry ∈ romanKana) : Regular entry := by
  have regular := List.all_eq_true.mp romanKana_regular entry member
  simp only [regularEntry, Bool.and_eq_true, Bool.not_eq_true', List.all_eq_true, Bool.or_eq_true,
    beq_iff_eq, bne_iff_ne, Option.any_eq_true, List.isEmpty_eq_false_iff] at regular
  obtain ⟨⟨⟨⟨⟨⟨nonempty, lower⟩, inner⟩, ending⟩, apart⟩, kana⟩, literal⟩ := regular
  exact ⟨nonempty, lower, inner, ending, apart, kana, literal⟩

/-- A spelling that begins another one is that spelling. -/
theorem spelling_eq_of_prefix {other : Text × Text} (member : entry ∈ romanKana)
    (among : other ∈ romanKana) (begins : entry.1 <+: other.1) : entry.1 = other.1 := by
  have free := List.all_eq_true.mp romanKana_unvowelled entry member
  rw [Bool.or_eq_true] at free
  rcases free with vowel | free
  · obtain ⟨rest, whole⟩ := begins
    by_contra longer
    have proper : rest ≠ [] := by
      rintro rfl
      exact longer (by rw [← whole, List.append_nil])
    -- A vowel would stand before the end of the longer spelling.
    obtain ⟨c, last, isVowel⟩ := (Option.any_eq_true _ _).mp vowel
    have inside : c ∈ other.1.dropLast := by
      rw [← whole, List.dropLast_append_of_ne_nil proper]
      exact List.mem_append_left _ (List.mem_of_getLast? last)
    rw [(regular_of_mem among).inner c inside] at isVowel
    cases isVowel
  · have free := List.all_eq_true.mp free other among
    simp only [Bool.or_eq_true, Bool.not_eq_true', beq_iff_eq] at free
    rcases free with apart | same
    · rw [List.isPrefixOf_iff_prefix.mpr begins] at apart
      cases apart
    · exact same

/-- A vowel is a spelling. -/
theorem vowel_spelling {c : Char} (vowel : isVowel c = true) : ∃ kana, ([c], kana) ∈ romanKana := by
  have listed : c ∈ ['a', 'i', 'u', 'e', 'o'] := by
    simp only [isVowel, Bool.or_eq_true, beq_iff_eq] at vowel
    simp only [List.mem_cons, List.not_mem_nil, or_false]
    tauto
  have found := List.all_eq_true.mp romanKana_vowels c listed
  obtain ⟨⟨key, kana⟩, member, same⟩ := List.any_eq_true.mp found
  rw [beq_iff_eq] at same
  exact ⟨kana, by rw [← same]; exact member⟩

end Table

section Lookup

/-- The longest spelling of a list is one of its entries. -/
theorem longestSpelling_mem {entries : List (Text × Text)} {entry : Text × Text}
    (found : longestSpelling entries = some entry) : entry ∈ entries := by
  -- The running best is always an entry that has been seen.
  have seen : ∀ (rest : List (Text × Text)) (best : Option (Text × Text)),
      rest.foldl (fun best entry =>
        if best.all fun found => found.1.length ≤ entry.1.length then some entry else best) best = some entry →
      best = some entry ∨ entry ∈ rest := by
    intro rest
    induction rest with
    | nil => exact fun best found => .inl found
    | cons head rest ih =>
      intro best found
      rw [List.foldl_cons] at found
      rcases ih _ found with here | later
      · split at here
        · exact .inr (by rw [Option.some.inj here]; simp)
        · exact .inl here
      · exact .inr (List.mem_cons_of_mem _ later)
  rcases seen entries none found with absurdity | member
  · cases absurdity
  · exact member

/-- There is a longest spelling unless there is none at all. -/
theorem longestSpelling_eq_none {entries : List (Text × Text)} (none' : longestSpelling entries = none) :
    entries = [] := by
  -- Once there is a best entry, there stays one.
  have stays : ∀ (rest : List (Text × Text)) (best : Text × Text),
      rest.foldl (fun best entry =>
        if best.all fun found => found.1.length ≤ entry.1.length then some entry else best) (some best) ≠ none := by
    intro rest
    induction rest with
    | nil => simp
    | cons head rest ih =>
      intro best
      rw [List.foldl_cons]
      split
      · exact ih head
      · exact ih best
  cases entries with
  | nil => rfl
  | cons head rest => exact absurd none' (stays rest head)

/-- What is looked up is a spelling that the input starts with. -/
theorem lookupRoman_some {input : Text} {entry : Text × Text} (found : lookupRoman input = some entry) :
    entry ∈ romanKana ∧ entry.1 <+: input := by
  unfold lookupRoman at found
  split at found
  · rename_i fast quick
    obtain rfl := Option.some.inj found
    have same : fast.1 = input := by simpa using List.find?_some quick
    have listed := List.all_eq_true.mp fastRoman_subset fast (List.mem_of_find?_eq_some quick)
    exact ⟨by simpa using listed, same ▸ List.prefix_rfl⟩
  · have member := longestSpelling_mem found
    rw [List.mem_filter] at member
    exact ⟨member.1, List.isPrefixOf_iff_prefix.mp member.2⟩

/-- Nothing is looked up where no spelling begins the input. -/
theorem lookupRoman_eq_none_iff {input : Text} :
    lookupRoman input = none ↔ ∀ entry ∈ romanKana, ¬ entry.1 <+: input := by
  constructor
  · intro missing entry member begins
    unfold lookupRoman at missing
    split at missing
    · cases missing
    · have empty := longestSpelling_eq_none missing
      have kept : entry ∈ romanKana.filter fun entry => entry.1.isPrefixOf input :=
        List.mem_filter.mpr ⟨member, List.isPrefixOf_iff_prefix.mpr begins⟩
      rw [empty] at kept
      cases kept
  · intro none'
    cases found : lookupRoman input with
    | none => rfl
    | some entry => exact absurd (lookupRoman_some found).2 (none' entry (lookupRoman_some found).1)

/-- More keys may complete a single letter, or what begins a spelling. -/
theorem isRomanPrefix_iff {input : Text} : isRomanPrefix input = true ↔
    (∃ c, input = [c] ∧ c.isAlpha = true) ∨ ∃ entry ∈ romanKana, input <+: entry.1 := by
  unfold isRomanPrefix
  rw [Bool.or_eq_true, List.any_eq_true]
  simp only [List.isPrefixOf_iff_prefix]
  refine or_congr_left ?_
  split <;> simp_all

end Lookup

section Waiting

/-- Roman input that waits for more keys: a single consonant, or the beginning of a spelling. -/
def Waiting (input : Text) : Prop :=
  (∃ c, input = [c] ∧ c.isAlpha = true ∧ isVowel c = false) ∨
    ∃ entry ∈ romanKana, input <+: entry.1 ∧ input ≠ entry.1

/-- No input waits as well. -/
theorem waiting_nil : Waiting [] :=
  .inr ⟨(['a'], ['あ']), by decide, List.nil_prefix, by simp⟩

variable {input : Text}

/-- Whatever begins waiting input waits. -/
theorem Waiting.of_prefix {shorter : Text} (waiting : Waiting input) (begins : shorter <+: input) :
    Waiting shorter := by
  rcases waiting with ⟨c, rfl, letter, consonant⟩ | ⟨entry, member, onward, proper⟩
  · rcases List.prefix_cons_iff.mp begins with rfl | ⟨rest, rfl, empty⟩
    · exact waiting_nil
    · obtain rfl := List.prefix_nil.mp empty
      exact .inl ⟨c, rfl, letter, consonant⟩
  · refine .inr ⟨entry, member, begins.trans onward, ?_⟩
    rintro rfl
    exact proper (onward.eq_of_length_le (begins.length_le))

/-- There is no vowel in waiting input. -/
theorem Waiting.consonant (waiting : Waiting input) : ∀ c ∈ input, isVowel c = false := by
  rcases waiting with ⟨c, rfl, _, consonant⟩ | ⟨entry, member, ⟨rest, whole⟩, proper⟩
  · simpa using consonant
  · intro c inside
    -- The input leaves out the last key of the spelling at least.
    refine (regular_of_mem member).inner c ?_
    cases rest with
    | nil => exact absurd (by simpa using whole) proper
    | cons next rest =>
      rw [← whole, List.dropLast_append_of_ne_nil (by simp)]
      exact List.mem_append_left _ inside

/-- Waiting input starts with no spelling. -/
theorem Waiting.lookup (waiting : Waiting input) : lookupRoman input = none := by
  rw [lookupRoman_eq_none_iff]
  intro other among begins
  rcases waiting with ⟨c, rfl, _, consonant⟩ | ⟨entry, member, onward, proper⟩
  · have regular := regular_of_mem among
    rcases List.prefix_cons_iff.mp begins with empty | ⟨rest, same, empty⟩
    · exact regular.nonempty empty
    · obtain rfl := List.prefix_nil.mp empty
      rcases regular.ending with two | ⟨last, found, vowel⟩
      · rw [same] at two; cases two
      · rw [same, List.getLast?_singleton] at found
        obtain rfl := Option.some.inj found
        rw [consonant] at vowel
        cases vowel
  · have same := spelling_eq_of_prefix among member (begins.trans onward)
    rw [← same] at onward proper
    exact proper (onward.eq_of_length_le begins.length_le)

/-- Two keys at the beginning of waiting input differ, and n is followed by y alone. -/
theorem Waiting.second {first second : Char} {rest : Text} (waiting : Waiting (first :: second :: rest)) :
    first ≠ second ∧ (first = 'n' → second = 'y' ∧ rest = []) := by
  have consonants := waiting.consonant
  rcases waiting with ⟨c, same, _⟩ | ⟨entry, member, ⟨more, whole⟩, proper⟩
  · cases same
  have regular := regular_of_mem member
  refine ⟨?_, ?_⟩
  · have := regular.apart (first, second) (by rw [← whole]; simp)
    exact this
  · rintro rfl
    have shape := List.all_eq_true.mp romanKana_n entry member
    rw [← whole] at shape
    simp only [List.cons_append, List.head?_cons, bne_self_eq_false, Bool.false_or, List.tail_cons,
      Option.any_some, Bool.and_eq_true, decide_eq_true_eq, beq_iff_eq, consonants second (by simp),
      List.length_cons, List.length_append] at shape
    refine ⟨shape.2, ?_⟩
    cases more with
    | nil => exact absurd (by simpa using whole) proper
    | cons next more =>
      have := shape.1
      simp only [List.length_cons] at this
      exact List.length_eq_zero_iff.mp (by omega)

/-- Waiting input may be completed by more keys. -/
theorem Waiting.isRomanPrefix (waiting : Waiting input) : isRomanPrefix input = true := by
  rw [isRomanPrefix_iff]
  rcases waiting with ⟨c, same, letter, _⟩ | ⟨entry, member, onward, _⟩
  · exact .inl ⟨c, same, letter⟩
  · exact .inr ⟨entry, member, onward⟩

/-- Input that begins a spelling but starts with none waits. -/
theorem waiting_of_completable (completes : Nospacekey.isRomanPrefix input = true) (missing : lookupRoman input = none) :
    Waiting input := by
  rw [lookupRoman_eq_none_iff] at missing
  rcases isRomanPrefix_iff.mp completes with ⟨c, rfl, letter⟩ | ⟨entry, member, onward⟩
  · refine .inl ⟨c, rfl, letter, ?_⟩
    cases vowel : isVowel c with
    | false => rfl
    | true =>
      obtain ⟨kana, member⟩ := vowel_spelling vowel
      exact absurd List.prefix_rfl (missing _ member)
  · exact .inr ⟨entry, member, onward, fun same => missing entry member (same ▸ List.prefix_rfl)⟩

/-- Consonants that begin a spelling wait, unless they spell an arrow or a final n. -/
theorem waiting_of_consonants (completes : Nospacekey.isRomanPrefix input = true)
    (consonants : ∀ c ∈ input, isVowel c = false)
    (apart : ∀ first second, input = [first, second] → ∀ kana, (input, kana) ∉ romanKana) : Waiting input := by
  rcases isRomanPrefix_iff.mp completes with ⟨c, rfl, letter⟩ | ⟨entry, member, onward⟩
  · exact .inl ⟨c, rfl, letter, consonants c (by simp)⟩
  · refine .inr ⟨entry, member, onward, ?_⟩
    rintro rfl
    rcases (regular_of_mem member).ending with two | ⟨last, found, vowel⟩
    · obtain ⟨first, second, same⟩ := List.length_eq_two.mp two
      exact apart first second same entry.2 member
    · rw [consonants last (List.mem_of_getLast? found)] at vowel
      cases vowel

end Waiting

end Nospacekey
