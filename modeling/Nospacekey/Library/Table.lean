import Mathlib.Data.List.AList

/-! Finite maps from keys to values of one type, with the removal of all keys failing a test. -/

/-- A finite map whose values all have one type. -/
abbrev Table (κ ν : Type*) := AList fun _ : κ => ν

namespace Table

variable {κ ν : Type*}

/-- The map restricted to the keys that pass a test. -/
def retain (table : Table κ ν) (keep : κ → Bool) : Table κ ν where
  entries := table.entries.filter fun entry => keep entry.1
  nodupKeys := table.nodupKeys.sublist List.filter_sublist

/-- The map restricted to the values that pass a test. -/
def sift (table : Table κ ν) (keep : ν → Bool) : Table κ ν where
  entries := table.entries.filter fun entry => keep entry.2
  nodupKeys := table.nodupKeys.sublist List.filter_sublist

/-- The stored values, in no order that matters. -/
def values (table : Table κ ν) : List ν := table.entries.map Sigma.snd

variable [DecidableEq κ]

/-- A key keeps its value when it passes the test and loses it otherwise. -/
theorem lookup_retain (table : Table κ ν) (keep : κ → Bool) (key : κ) :
    (table.retain keep).lookup key = if keep key then table.lookup key else none := by
  -- Walk the entry list, where at most one entry has the requested key.
  obtain ⟨entries, distinct⟩ := table
  simp only [retain, AList.lookup]
  clear distinct
  induction entries with
  | nil => simp
  | cons entry rest ih =>
    obtain ⟨stored, value⟩ := entry
    by_cases same : stored = key
    · subst same
      cases kept : keep stored with
      | true => simp [kept]
      | false => simpa [kept] using ih
    · cases kept : keep stored with
      | true =>
        rw [List.filter_cons_of_pos (by simpa using kept), List.dlookup_cons_ne _ _ (Ne.symm same),
          List.dlookup_cons_ne _ _ (Ne.symm same)]
        exact ih
      | false =>
        rw [List.filter_cons_of_neg (by simpa using kept), List.dlookup_cons_ne _ _ (Ne.symm same)]
        exact ih

/-- What a restricted map holds, the whole map held. -/
theorem lookup_of_lookup_retain {table : Table κ ν} {keep : κ → Bool} {key : κ} {value : ν}
    (found : (table.retain keep).lookup key = some value) : table.lookup key = some value := by
  rw [lookup_retain] at found
  split at found
  · exact found
  · cases found

/-- A value that passes the test is kept under its key, and one that fails it is lost. -/
theorem lookup_sift (table : Table κ ν) (keep : ν → Bool) (key : κ) :
    (table.sift keep).lookup key = (table.lookup key).filter keep := by
  -- As keys are distinct, an entry that is lost leaves none of its key behind.
  obtain ⟨entries, distinct⟩ := table
  simp only [sift, AList.lookup]
  induction entries with
  | nil => simp
  | cons entry rest ih =>
    obtain ⟨stored, value⟩ := entry
    obtain ⟨fresh, others⟩ := List.nodupKeys_cons.mp distinct
    by_cases same : stored = key
    · subst same
      cases kept : keep value with
      | true => simp [Option.filter, kept]
      | false =>
        have missing : List.dlookup stored rest = none := List.dlookup_eq_none.mpr fresh
        rw [List.filter_cons_of_neg (by simpa using kept), ih others, missing]
        simp [Option.filter, kept]
    · cases kept : keep value with
      | true =>
        rw [List.filter_cons_of_pos (by simpa using kept), List.dlookup_cons_ne _ _ (Ne.symm same),
          List.dlookup_cons_ne _ _ (Ne.symm same)]
        exact ih others
      | false =>
        rw [List.filter_cons_of_neg (by simpa using kept), List.dlookup_cons_ne _ _ (Ne.symm same)]
        exact ih others

/-- What a map holds after an insertion is the new value or an old one under another key. -/
theorem lookup_insert_cases {table : Table κ ν} {key other : κ} {value stored : ν}
    (found : (AList.insert key value table).lookup other = some stored) :
    (other = key ∧ stored = value) ∨ (other ≠ key ∧ table.lookup other = some stored) := by
  by_cases same : other = key
  · subst same
    rw [AList.lookup_insert] at found
    exact .inl ⟨rfl, (Option.some.inj found).symm⟩
  · rw [AList.lookup_insert_ne same] at found
    exact .inr ⟨same, found⟩

/-- What a map holds after a removal it held before, under another key. -/
theorem lookup_of_lookup_erase {table : Table κ ν} {key other : κ} {stored : ν}
    (found : (AList.erase key table).lookup other = some stored) :
    other ≠ key ∧ table.lookup other = some stored := by
  by_cases same : other = key
  · subst same
    rw [AList.lookup_erase] at found
    cases found
  · rw [AList.lookup_erase_ne same] at found
    exact ⟨same, found⟩

/-- The stored values are exactly those found under some key. -/
theorem mem_values {table : Table κ ν} {value : ν} :
    value ∈ table.values ↔ ∃ key, table.lookup key = some value := by
  simp only [values, List.mem_map]
  constructor
  · rintro ⟨⟨key, stored⟩, member, rfl⟩
    exact ⟨key, AList.mem_lookup_iff.mpr member⟩
  · rintro ⟨key, found⟩
    exact ⟨⟨key, value⟩, AList.mem_lookup_iff.mp found, rfl⟩

/-- An inserted key has its value, and the other keys have theirs. -/
theorem lookup_insert_eq (table : Table κ ν) (key other : κ) (value : ν) :
    (table.insert key value).lookup other = if other = key then some value else table.lookup other := by
  split
  · rename_i same
    subst same
    exact AList.lookup_insert _
  · rename_i different
    exact AList.lookup_insert_ne different

/-- A removed key has no value, and the other keys have theirs. -/
theorem lookup_erase_eq (table : Table κ ν) (key other : κ) :
    (table.erase key).lookup other = if other = key then none else table.lookup other := by
  split
  · rename_i same
    subst same
    exact AList.lookup_erase _ _
  · rename_i different
    exact AList.lookup_erase_ne different

/-- An inserted entry comes on top of what is left of the map without its key. -/
theorem length_insert (table : Table κ ν) (key : κ) (value : ν) :
    (table.insert key value).entries.length = (table.erase key).entries.length + 1 := by
  rw [AList.entries_insert]
  rfl

/-- A removed key takes one entry with it. -/
theorem length_erase {table : Table κ ν} {key : κ} (present : (table.lookup key).isSome) :
    (table.erase key).entries.length + 1 = table.entries.length := by
  -- The entry of the key is erased from the list, which therefore is not empty.
  have member : key ∈ table.entries.keys := AList.lookup_isSome.mp present
  obtain ⟨entry, inside, rfl⟩ := List.mem_map.mp member
  have erased : (table.erase entry.1).entries.length = table.entries.length - 1 :=
    List.length_eraseP_of_mem inside (by simp)
  have positive := List.length_pos_of_mem inside
  omega

/-- Removing a key that is not there changes nothing. -/
theorem erase_of_absent {table : Table κ ν} {key : κ} (absent : table.lookup key = none) :
    table.erase key = table := by
  have member : key ∉ table.entries.keys := AList.lookup_eq_none.mp absent
  exact AList.ext (List.kerase_of_notMem_keys member)

end Table
