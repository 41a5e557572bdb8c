import Nospacekey.Library.Json
import Mathlib.Data.Rat.Defs

/-! Structures written as JSON objects, and read back from what they were laid on. -/

namespace Nospacekey

/-- A number of a JSON value. -/
inductive JsonNumber (f64 : Type) where
  | posInt (value : UInt64)
  | negInt (value : Int64)
  | float (value : f64)
  deriving DecidableEq, Repr

namespace Serde

open Json

variable {f64 α β σ : Type}

abbrev Value (f64 : Type) := Json (JsonNumber f64)

/-- How a type is written and read. What is written is read back also where it was laid on another value, if it
fits. -/
structure Codec (f64 α : Type) where
  write : α → Value f64
  read : Value f64 → Option α
  Fits : α → Prop
  canonical : ∀ x, Fits x → (write x).Canonical
  reads : ∀ x destination, Fits x → destination.Canonical → read (mergeKnownFields destination (write x)) = some x

/-- A type that is not written as an object. -/
def Codec.leaf (write : α → Value f64) (read : Value f64 → Option α) (Fits : α → Prop)
    (canonical : ∀ x, (write x).Canonical) (plain : ∀ x members, write x ≠ .object members)
    (reads : ∀ x, Fits x → read (write x) = some x) : Codec f64 α where
  write := write
  read := read
  Fits := Fits
  canonical x _ := canonical x
  reads x destination fits _ := by rw [merge_of_not_object (plain x), reads x fits]

/-- The values of the fields that a structure knows. In an object none of them may be there twice, and others are
skipped; an array has them in their order, the last ones possibly missing. -/
def visitStruct (names : List String) : Value f64 → Option (String → Option (Value f64))
  | .object members =>
    if names.all fun name => members.countP (fun member => member.1 = name) ≤ 1 then some fun name => members.lookup name
    else none
  | .array items => if items.length ≤ names.length then some fun name => items[names.idxOf name]? else none
  | _ => none

/-- The fields of a structure `σ`, as far as they make up an `α`. -/
structure Record (f64 σ α : Type) where
  value : σ → α
  names : List String
  fields : σ → List (String × Value f64)
  read : (String → Option (Value f64)) → Option α
  Fits : σ → Prop
  named : ∀ x, (fields x).map Prod.fst = names
  canonical : ∀ x, Fits x → ∀ member ∈ fields x, member.2.Canonical
  reads : ∀ x (visit below : String → Option (Value f64)), Fits x →
    (∀ name item, below name = some item → item.Canonical) →
    (∀ member ∈ fields x, visit member.1 = some (mergeKnownFields ((below member.1).getD .null) member.2)) →
    read visit = some (value x)

namespace Record

/-- A structure without fields yet. -/
def of (make : α) : Record f64 σ α where
  value _ := make
  names := []
  fields _ := []
  read _ := some make
  Fits _ := True
  named _ := rfl
  canonical _ _ := by simp
  reads _ _ _ _ _ _ := rfl

/-- One more field, and what it is read as where it is missing. -/
def field (record : Record f64 σ (α → β)) (name : String) (codec : Codec f64 α) (get : σ → α) (missing : Option α) :
    Record f64 σ β where
  value x := record.value x (get x)
  names := record.names ++ [name]
  fields x := record.fields x ++ [(name, codec.write (get x))]
  read visit := do
    let make ← record.read visit
    match visit name with
    | some item => (codec.read item).map make
    | none => missing.map make
  Fits x := record.Fits x ∧ codec.Fits (get x)
  named x := by rw [List.map_append, record.named]; rfl
  canonical x fits := List.forall_mem_append.mpr
    ⟨record.canonical x fits.1, List.forall_mem_singleton.mpr (codec.canonical (get x) fits.2)⟩
  reads x visit below fits canonical found := by
    obtain ⟨before, here⟩ := List.forall_mem_append.mp found
    have base : ((below name).getD .null).Canonical := by
      cases there : below name with
      | none => exact .null
      | some item => exact canonical name item there
    rw [record.reads x visit below fits.1 canonical before, List.forall_mem_singleton.mp here]
    simp only [Option.bind_eq_bind, Option.bind_some]
    rw [codec.reads (get x) _ fits.2 base, Option.map_some]

/-- A field that must be there. -/
def required (record : Record f64 σ (α → β)) (name : String) (codec : Codec f64 α) (get : σ → α) : Record f64 σ β :=
  record.field name codec get none

/-- A field that has a default. -/
def defaulted (record : Record f64 σ (α → β)) (name : String) (codec : Codec f64 α) (get : σ → α) (default : α) :
    Record f64 σ β :=
  record.field name codec get (some default)

section Lemmas

variable (record : Record f64 σ (α → β)) (name : String) (codec : Codec f64 α) (get : σ → α) (default : α) (x : σ)

@[simp] theorem names_of (make : α) : (of make : Record f64 σ α).names = [] := rfl

@[simp] theorem names_required : (record.required name codec get).names = record.names ++ [name] := rfl

@[simp] theorem names_defaulted : (record.defaulted name codec get default).names = record.names ++ [name] := rfl

@[simp] theorem fits_of (make : α) : (of make : Record f64 σ α).Fits x = True := rfl

@[simp] theorem fits_required :
    (record.required name codec get).Fits x = (record.Fits x ∧ codec.Fits (get x)) := rfl

@[simp] theorem fits_defaulted :
    (record.defaulted name codec get default).Fits x = (record.Fits x ∧ codec.Fits (get x)) := rfl

@[simp] theorem fields_of (make : α) : (of make : Record f64 σ α).fields x = [] := rfl

@[simp] theorem fields_required :
    (record.required name codec get).fields x = record.fields x ++ [(name, codec.write (get x))] := rfl

@[simp] theorem fields_defaulted :
    (record.defaulted name codec get default).fields x = record.fields x ++ [(name, codec.write (get x))] := rfl

end Lemmas

end Record

/-- The fields make up the whole structure, and no name is there twice. -/
structure Record.Whole (record : Record f64 σ σ) : Prop where
  value : ∀ x, record.value x = x
  nodup : record.names.Nodup

/-- An object with the members of a structure. -/
def structValue (fields : List (String × Value f64)) : Value f64 := .object (ofMembers fields)

/-- A member that is there once is counted once. -/
theorem countP_le_one {members : List (String × Value f64)} (nodup : (members.map Prod.fst).Nodup) (name : String) :
    members.countP (fun member => member.1 = name) ≤ 1 := by
  have counted := List.nodup_iff_count.mp nodup name
  rw [List.count, List.countP_map] at counted
  refine le_trans (le_of_eq (List.countP_congr fun member _ => ?_)) counted
  simp

/-- The fields of a structure that was laid on a value are visited where it was laid. -/
theorem visitStruct_merge (names : List String) {fields : List (String × Value f64)}
    (nodup : (fields.map Prod.fst).Nodup) {destination : Value f64} (canonical : destination.Canonical) :
    ∃ visit, visitStruct names (mergeKnownFields destination (structValue fields)) = some visit ∧
      ∀ member ∈ fields, visit member.1 = some (mergeKnownFields ((destination.get? member.1).getD .null) member.2) := by
  have sorted := sorted_ofMembers fields
  have looked : ∀ member ∈ fields, (ofMembers fields).lookup member.1 = some member.2 := fun member inside => by
    rw [lookup_ofMembers nodup, lookup_of_mem nodup inside]
  -- The visitor accepts every map.
  have visited : ∀ members : List (String × Value f64), Sorted members →
      visitStruct names (.object members) = some fun name => members.lookup name := by
    intro members sorted
    rw [visitStruct, if_pos]
    exact List.all_eq_true.mpr fun name _ => decide_eq_true (countP_le_one sorted.nodup name)
  cases destination with
  | object members =>
    cases canonical with
    | object below _ =>
      rw [structValue, mergeKnownFields]
      refine ⟨_, visited _ (sorted_mergeMembers _ below), fun member inside => ?_⟩
      rw [lookup_mergeMembers sorted.nodup, looked member inside]
      rfl
  | _ =>
    refine ⟨_, visited _ sorted, fun member inside => ?_⟩
    rw [looked member inside, ← merge_getD]
    rfl

/-- A structure that is written as an object with its fields. -/
def Codec.struct (record : Record f64 σ σ) (whole : record.Whole) :
    Codec f64 σ where
  write x := structValue (record.fields x)
  read json := (visitStruct record.names json).bind record.read
  Fits := record.Fits
  canonical x fits := .object (sorted_ofMembers _) fun member inside => record.canonical x fits member (mem_ofMembers inside)
  reads x destination fits canonical := by
    obtain ⟨visit, visited, found⟩ := visitStruct_merge record.names (record.named x ▸ whole.nodup) canonical
    rw [visited, Option.bind_some, record.reads x visit destination.get? fits (fun _ _ => canonical.get?) found, whole.value]

@[simp] theorem Codec.fits_struct (record : Record f64 σ σ) (whole : record.Whole)
    (x : σ) : (Codec.struct record whole).Fits x = record.Fits x := rfl

section Leaves

/-- Truth values. -/
def Codec.bool : Codec f64 Bool :=
  .leaf .bool (fun | .bool value => some value | _ => none) (fun _ => True) .bool (by simp) fun _ _ => rfl

/-- Texts. -/
def Codec.text : Codec f64 (List Char) :=
  .leaf .string (fun | .string value => some value | _ => none) (fun _ => True) .string (by simp) fun _ _ => rfl

/-- Texts that may be null. -/
def Codec.optionText : Codec f64 (Option (List Char)) :=
  .leaf (fun | some value => .string value | none => .null)
    (fun | .null => some none | .string value => some (some value) | _ => none) (fun _ => True)
    (fun | some value => .string value | none => .null) (by rintro (_ | _) _ <;> simp)
    (by rintro (_ | _) _ <;> rfl)

/-- Whole numbers of 32 bits. -/
def Codec.u32 : Codec f64 UInt32 :=
  .leaf (fun value => .number (.posInt value.toUInt64))
    (fun | .number (.posInt value) => if value.toNat < 2 ^ 32 then some value.toUInt32 else none | _ => none)
    (fun _ => True) (fun _ => .number _) (by simp)
    (fun value _ => by
      have small : value.toUInt64.toNat < 2 ^ 32 := by simpa using value.toNat_lt
      simp only [small, if_true]
      simp)

/-- Whole numbers of 64 bits. -/
def Codec.u64 : Codec f64 UInt64 :=
  .leaf (fun value => .number (.posInt value)) (fun | .number (.posInt value) => some value | _ => none)
    (fun _ => True) (fun _ => .number _) (by simp) fun _ _ => rfl

/-- Floating-point numbers of 32 bits (`f32`) beside those of 64 that JSON numbers are read as. -/
structure Floats (f32 f64 : Type) where
  /-- The number that it is, unless it is none or infinite. -/
  toRat : f32 → Option ℚ
  /-- The literal of a number. -/
  ofRat : ℚ → f32
  widen : f32 → f64
  narrow : f64 → f32
  ofUInt64 : UInt64 → f32
  ofInt64 : Int64 → f32
  narrow_widen : ∀ x, (toRat x).isSome → narrow (widen x) = x
  /-- Half a number below a million is one of them. -/
  toRat_half : ∀ n : Nat, n < 1000000 → toRat (ofRat (mkRat n 2)) = some (mkRat n 2)

def Floats.isFinite {f32 : Type} (floats : Floats f32 f64) (x : f32) : Bool := (floats.toRat x).isSome

/-- Floating-point numbers of 32 bits. What is not finite is written as null. -/
def Codec.f32 {f32 : Type} (floats : Floats f32 f64) : Codec f64 f32 :=
  .leaf (fun value => if floats.isFinite value then .number (.float (floats.widen value)) else .null)
    (fun
      | .number (.float value) => some (floats.narrow value)
      | .number (.posInt value) => some (floats.ofUInt64 value)
      | .number (.negInt value) => some (floats.ofInt64 value)
      | _ => none)
    (fun value => floats.isFinite value = true)
    (fun value => by split; exacts [.number _, .null])
    (fun value members => by split <;> simp)
    (fun value finite => by simp only [finite, if_true, floats.narrow_widen value finite])

section Fitting

@[simp] theorem Codec.fits_bool (x : Bool) : (Codec.bool : Codec f64 Bool).Fits x = True := rfl

@[simp] theorem Codec.fits_text (x : List Char) : (Codec.text : Codec f64 (List Char)).Fits x = True := rfl

@[simp] theorem Codec.fits_optionText (x : Option (List Char)) :
    (Codec.optionText : Codec f64 (Option (List Char))).Fits x = True := rfl

@[simp] theorem Codec.fits_u32 (x : UInt32) : (Codec.u32 : Codec f64 UInt32).Fits x = True := rfl

@[simp] theorem Codec.fits_f32 {f32 : Type} (floats : Floats f32 f64) (x : f32) :
    (Codec.f32 floats).Fits x = (floats.isFinite x = true) := rfl

end Fitting

end Leaves

/-- White space of Unicode. -/
def isWhitespace (c : Char) : Bool :=
  let code := c.toNat
  (9 ≤ code && code ≤ 13) || code = 0x20 || code = 0x85 || code = 0xA0 || code = 0x1680
    || (0x2000 ≤ code && code ≤ 0x200A) || code = 0x2028 || code = 0x2029 || code = 0x202F || code = 0x205F
    || code = 0x3000

/-- Whether nothing of a text is left when it is trimmed. -/
def isBlank (text : List Char) : Bool := text.all isWhitespace

/-- The parser and the printer of JSON, as far as they are relied on. -/
structure SerdeJson (f64 : Type) where
  fromStr : List Char → Option (Value f64)
  toStringPretty : Value f64 → List Char
  /-- What is said of a text that can be skipped but not read as a value. -/
  error : List Char → List Char
  fromStr_toStringPretty : ∀ value, value.Canonical → fromStr (toStringPretty value) = some value
  fromStr_blank : ∀ text, isBlank text = true → fromStr text = none

end Serde

end Nospacekey
