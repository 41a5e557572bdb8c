import Mathlib.Data.Rat.Encodable
import Mathlib.Tactic.DeriveEncodable
import Nospacekey.Library.Serde

/-! A parser and a printer as they are relied on: known texts are read as JSON, and values are printed in a code. -/

namespace Nospacekey

namespace Serde

open Json

/-- Rational numbers in the place of floating-point ones. -/
def rationals : Floats ℚ ℚ where
  toRat := some
  ofRat := id
  widen := id
  narrow := id
  ofUInt64 value := value.toNat
  ofInt64 value := value.toInt
  narrow_widen _ _ := rfl
  toRat_half _ _ := rfl

/-- Trees that all data of a value can be written as. -/
inductive Code where
  | leaf (n : Nat)
  | pair (left right : Code)
  deriving Encodable

namespace Code

def ofText : List Char → Code
  | [] => .leaf 0
  | c :: text => .pair (.leaf c.toNat) (ofText text)

def toText : Code → List Char
  | .pair (.leaf c) text => Char.ofNat c :: toText text
  | _ => []

theorem toText_ofText (text : List Char) : toText (ofText text) = text := by
  induction text with
  | nil => rfl
  | cons c text ih => rw [ofText, toText, ih, Char.ofNat_toNat]

mutual

def ofJson : Value ℚ → Code
  | .null => .leaf 0
  | .bool false => .leaf 1
  | .bool true => .leaf 2
  | .number (.posInt value) => .pair (.leaf 0) (.leaf value.toNat)
  | .number (.negInt value) => .pair (.leaf 1) (.leaf value.toUInt64.toNat)
  | .number (.float value) => .pair (.leaf 2) (.leaf (Encodable.encode value))
  | .string value => .pair (.leaf 3) (ofText value)
  | .array items => .pair (.leaf 4) (ofItems items)
  | .object members => .pair (.leaf 5) (ofMembers members)
  | .unreadable => .leaf 3

def ofItems : List (Value ℚ) → Code
  | [] => .leaf 0
  | item :: items => .pair (ofJson item) (ofItems items)

def ofMembers : List (String × Value ℚ) → Code
  | [] => .leaf 0
  | (key, item) :: members => .pair (.pair (ofText key.toList) (ofJson item)) (ofMembers members)

end

mutual

def toJson : Code → Value ℚ
  | .leaf 0 => .null
  | .leaf 1 => .bool false
  | .leaf 2 => .bool true
  | .leaf _ => .unreadable
  | .pair (.leaf 0) (.leaf value) => .number (.posInt (UInt64.ofNat value))
  | .pair (.leaf 1) (.leaf value) => .number (.negInt (UInt64.ofNat value).toInt64)
  | .pair (.leaf 2) (.leaf value) => .number (.float ((Encodable.decode value).getD 0))
  | .pair (.leaf 3) value => .string (toText value)
  | .pair (.leaf 4) items => .array (toItems items)
  | .pair (.leaf 5) members => .object (toMembers members)
  | .pair _ _ => .null

def toItems : Code → List (Value ℚ)
  | .pair item items => toJson item :: toItems items
  | _ => []

def toMembers : Code → List (String × Value ℚ)
  | .pair (.pair key item) members => (String.ofList (toText key), toJson item) :: toMembers members
  | _ => []

end

mutual

theorem toJson_ofJson : ∀ json : Value ℚ, toJson (ofJson json) = json
  | .null => rfl
  | .bool false => rfl
  | .bool true => rfl
  | .number (.posInt value) => by simp [ofJson, toJson]
  | .number (.negInt value) => by simp [ofJson, toJson]
  | .number (.float value) => by simp [ofJson, toJson]
  | .string value => by rw [ofJson, toJson, toText_ofText]
  | .array items => by rw [ofJson, toJson, toItems_ofItems items]
  | .object members => by rw [ofJson, toJson, toMembers_ofMembers members]
  | .unreadable => rfl

theorem toItems_ofItems : ∀ items : List (Value ℚ), toItems (ofItems items) = items
  | [] => rfl
  | item :: items => by rw [ofItems, toItems, toJson_ofJson item, toItems_ofItems items]

theorem toMembers_ofMembers : ∀ members : List (String × Value ℚ), toMembers (ofMembers members) = members
  | [] => rfl
  | (key, item) :: members => by
    rw [ofMembers, toMembers, toText_ofText, String.ofList_toList, toJson_ofJson item, toMembers_ofMembers members]

end

end Code

/-- Known texts are read as given, other ones as the codes that values are printed as. -/
def codedSerdeJson (known : List (List Char × Value ℚ))
    (apart : ∀ entry ∈ known, isBlank entry.1 = false ∧ ∃ c ∈ entry.1, c ≠ 'x') : SerdeJson ℚ where
  fromStr text :=
    match known.lookup text with
    | some document => some document
    | none => if text.isEmpty || text.any (· ≠ 'x') then none else (Encodable.decode (text.length - 1)).map Code.toJson
  toStringPretty value := List.replicate (Encodable.encode (Code.ofJson value) + 1) 'x'
  error text := text
  fromStr_toStringPretty value _ := by
    have strange : known.lookup (List.replicate (Encodable.encode (Code.ofJson value) + 1) 'x') = none := by
      rw [List.lookup_eq_none_iff]
      intro entry inside
      obtain ⟨c, here, other⟩ := (apart entry inside).2
      rw [bne_iff_ne]
      intro same
      rw [← same] at here
      exact other (List.eq_of_mem_replicate here)
    rw [strange]
    simp [Code.toJson_ofJson]
  fromStr_blank text blank := by
    cases found : known.lookup text with
    | some document =>
      obtain ⟨before, after, split, _⟩ := List.lookup_eq_some_iff.mp found
      have inside : (text, document) ∈ known := by simp [split]
      rw [(apart _ inside).1] at blank
      cases blank
    | none =>
      simp only
      rw [if_pos]
      cases text with
      | nil => rfl
      | cons c text =>
        have white : isWhitespace c = true := List.all_eq_true.mp blank c List.mem_cons_self
        have other : c ≠ 'x' := by
          rintro rfl
          exact absurd white (by decide)
        simp [other]

end Serde

end Nospacekey
