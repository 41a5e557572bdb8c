import Mathlib.Data.List.Induction
import Mathlib.Data.List.Perm.Subperm
import Nospacekey.Library.Table

/-! Tables that are built from a list in one pass: the first value, all values or the number of places of each key. -/

namespace Index

variable {κ ν : Type*} [DecidableEq κ]

/-- The values that a list has for a key. -/
def valuesOf (entries : List (κ × ν)) (key : κ) : List ν :=
  entries.filterMap fun entry => if entry.1 = key then some entry.2 else none

/-- The first value of each key. -/
def firsts (entries : List (κ × ν)) : Table κ ν :=
  entries.foldl (fun table entry => if (table.lookup entry.1).isNone then table.insert entry.1 entry.2 else table) ∅

/-- All values of each key, in their order. -/
def group (entries : List (κ × ν)) : Table κ (List ν) :=
  entries.foldl (fun table entry => table.insert entry.1 ((table.lookup entry.1).getD [] ++ [entry.2])) ∅

/-- The number of places of each key. -/
def tally (keys : List κ) : Table κ Nat :=
  keys.foldl (fun table key => table.insert key ((table.lookup key).getD 0 + 1)) ∅

/-- Each key in turn is taken off a table of numbers, as long as there is one left. -/
def drawAll (table : Table κ Nat) : List κ → Bool
  | [] => true
  | key :: keys =>
    match table.lookup key with
    | some (left + 1) => drawAll (table.insert key left) keys
    | _ => false

/-- One more entry is the last value of its key. -/
theorem valuesOf_concat (entries : List (κ × ν)) (entry : κ × ν) (key : κ) :
    valuesOf (entries ++ [entry]) key = valuesOf entries key ++ if entry.1 = key then [entry.2] else [] := by
  by_cases same : entry.1 = key <;> simp [valuesOf, List.filterMap_append, same]

/-- The first value of a key is the first that the list has for it. -/
theorem lookup_firsts (entries : List (κ × ν)) (key : κ) :
    (firsts entries).lookup key = (valuesOf entries key).head? := by
  -- The list is read from the front, so the induction takes its last entry off.
  induction entries using List.reverseRecOn with
  | nil => rfl
  | append_singleton entries entry ih =>
    have grown : firsts (entries ++ [entry]) = if ((firsts entries).lookup entry.1).isNone then
        (firsts entries).insert entry.1 entry.2 else firsts entries := by
      simp [firsts]
    rw [grown, valuesOf_concat]
    by_cases same : entry.1 = key
    · subst same
      cases front : valuesOf entries entry.1 with
      | nil => simp [ih, front]
      | cons value rest => simp [ih, front]
    · rw [if_neg same, List.append_nil]
      split
      · rw [Table.lookup_insert_eq, if_neg (Ne.symm same), ih]
      · rw [ih]

/-- All values of a key are those that the list has for it, and a key without values is absent. -/
theorem lookup_group (entries : List (κ × ν)) (key : κ) :
    (group entries).lookup key = if valuesOf entries key = [] then none else some (valuesOf entries key) := by
  -- The list is read from the front, so the induction takes its last entry off.
  induction entries using List.reverseRecOn with
  | nil => rfl
  | append_singleton entries entry ih =>
    have grown : group (entries ++ [entry]) =
        (group entries).insert entry.1 (((group entries).lookup entry.1).getD [] ++ [entry.2]) := by
      simp [group]
    rw [grown, valuesOf_concat, Table.lookup_insert_eq]
    by_cases same : entry.1 = key
    · subst same
      rw [ih]
      by_cases empty : valuesOf entries entry.1 = [] <;> simp [empty]
    · rw [if_neg (Ne.symm same), ih]
      simp [same]

/-- The number of places of a key is how often the list has it. -/
theorem lookup_tally (keys : List κ) (key : κ) : ((tally keys).lookup key).getD 0 = keys.count key := by
  induction keys using List.reverseRecOn with
  | nil => rfl
  | append_singleton keys last ih =>
    have grown : tally (keys ++ [last]) = (tally keys).insert last (((tally keys).lookup last).getD 0 + 1) := by
      simp [tally]
    rw [grown, Table.lookup_insert_eq, List.count_append]
    by_cases same : key = last
    · subst same
      simp [ih]
    · rw [if_neg same, ih]
      simp [Ne.symm same]

/-- Keys can be taken off a table exactly when it has a place for each of them. -/
theorem drawAll_iff (table : Table κ Nat) (keys : List κ) :
    drawAll table keys = true ↔ ∀ key, keys.count key ≤ (table.lookup key).getD 0 := by
  induction keys generalizing table with
  | nil => simp [drawAll]
  | cons first keys ih =>
    -- One place of the first key is used up, and the other keys keep theirs.
    rw [drawAll]
    split
    · rename_i left found
      rw [ih]
      refine forall_congr' fun key => ?_
      rw [Table.lookup_insert_eq]
      by_cases same : key = first
      · subst same
        simp [found]
      · simp [same, Ne.symm same]
    · rename_i missing
      simp only [Bool.false_eq_true, false_iff, not_forall, not_le]
      refine ⟨first, ?_⟩
      cases found : table.lookup first with
      | none => simp
      | some left =>
        cases left with
        | zero => simp
        | succ left => exact absurd found (missing left)

/-- As many keys can be taken off the table of a list as the list has when they are the list in another order. -/
theorem drawAll_tally_iff {keys other : List κ} (length : keys.length = other.length) :
    drawAll (tally other) keys = true ↔ keys.Perm other := by
  rw [drawAll_iff]
  constructor
  · intro places
    refine List.Subperm.perm_of_length_le (List.subperm_ext_iff.mpr fun key _ => ?_) (Nat.le_of_eq length.symm)
    simpa [lookup_tally] using places key
  · intro perm key
    rw [lookup_tally, perm.count_eq]

/-- The first place of a key, among the places that pass a test, is the first of the list that passes both. -/
theorem lookup_firsts_zipIdx {ι : Type*} (keep : ι → Bool) (key : ι → κ) (list : List ι) (wanted : κ) :
    (firsts ((list.zipIdx.filter fun entry => keep entry.1).map fun entry => (key entry.1, entry.2))).lookup wanted =
      list.findIdx? fun entry => keep entry && key entry = wanted := by
  rw [lookup_firsts]
  -- The numbers start anywhere, so that the induction can pass over the first entry.
  suffices from_any : ∀ start, (valuesOf (((list.zipIdx start).filter fun entry => keep entry.1).map fun entry =>
      (key entry.1, entry.2)) wanted).head? =
        (list.findIdx? fun entry => keep entry && key entry = wanted).map (· + start) by
    simpa using from_any 0
  induction list with
  | nil => simp [valuesOf]
  | cons first rest ih =>
    intro start
    rw [List.zipIdx_cons, List.findIdx?_cons]
    have later := ih (start + 1)
    have shift (found : Option Nat) : found.map (· + (start + 1)) = (found.map (· + 1)).map (· + start) := by
      cases found with
      | none => rfl
      | some place => simp [Nat.add_comm, Nat.add_left_comm]
    rw [shift] at later
    cases kept : keep first with
    | false =>
      rw [List.filter_cons_of_neg (by simp [kept]), later]
      simp
    | true =>
      rw [List.filter_cons_of_pos (by simpa using kept), List.map_cons, valuesOf, List.filterMap_cons]
      by_cases same : key first = wanted
      · simp [same]
      · rw [valuesOf] at later
        simp only [same, if_false, later]
        simp

/-- The places of a key in a list lead to the entries that have the key. -/
theorem map_getElem?_valuesOf {ι : Type*} (key : ι → κ) (list : List ι) (wanted : κ) :
    (valuesOf (list.zipIdx.map fun entry => (key entry.1, entry.2)) wanted).map (list[·]?) =
      (list.filter fun entry => key entry = wanted).map some := by
  -- An entry of the numbered list is found again under its number.
  have found : ∀ entry ∈ list.zipIdx, (if key entry.1 = wanted then some list[entry.2]? else none) =
      if key entry.1 = wanted then some (some entry.1) else none := by
    intro entry member
    rw [List.mem_zipIdx_iff_getElem?.mp member]
  calc (valuesOf (list.zipIdx.map fun entry => (key entry.1, entry.2)) wanted).map (list[·]?)
      = list.zipIdx.filterMap fun entry => if key entry.1 = wanted then some list[entry.2]? else none := by
        rw [valuesOf, List.filterMap_map, List.map_filterMap]
        refine List.filterMap_congr fun entry _ => ?_
        by_cases same : key entry.1 = wanted <;> simp [same]
    _ = list.zipIdx.filterMap fun entry => if key entry.1 = wanted then some (some entry.1) else none :=
        List.filterMap_congr found
    _ = (list.zipIdx.map Prod.fst).filterMap fun entry => if key entry = wanted then some (some entry) else none := by
        rw [List.filterMap_map]
        rfl
    _ = (list.filter fun entry => key entry = wanted).map some := by
        rw [List.zipIdx_map_fst, ← List.filterMap_eq_map, List.filterMap_filter]
        refine List.filterMap_congr fun entry _ => ?_
        by_cases same : key entry = wanted <;> simp [same]

/-- A partial function succeeds along a list when it does at each place. -/
theorem mapM_eq_some_iff {ι : Type*} {f : ι → Option ν} {inputs : List ι} {outputs : List ν} :
    inputs.mapM f = some outputs ↔ List.Forall₂ (fun input output => f input = some output) inputs outputs := by
  induction inputs generalizing outputs with
  | nil =>
    cases outputs <;> simp
  | cons input inputs ih =>
    rw [List.mapM_cons]
    cases first : f input with
    | none =>
      simp only [Option.bind_eq_bind, Option.bind_none, reduceCtorEq, false_iff]
      intro each
      cases each with
      | cons found => simp [first] at found
    | some output =>
      cases rest : inputs.mapM f with
      | none =>
        simp only [Option.bind_eq_bind, Option.bind_some, Option.bind_none, reduceCtorEq, false_iff]
        intro each
        cases each with
        | cons _ others => simp [ih.mpr others] at rest
      | some others =>
        simp only [Option.bind_eq_bind, Option.bind_some, Option.pure_def, Option.some.injEq]
        constructor
        · rintro rfl
          exact .cons first (ih.mp rest)
        · intro each
          cases each with
          | cons found remaining =>
            rw [first] at found
            cases found
            rw [ih.mpr remaining] at rest
            cases rest
            rfl

end Index
