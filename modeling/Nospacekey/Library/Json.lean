import Mathlib.Data.List.Basic
import Mathlib.Data.String.Basic

/-! JSON documents, the values they are read as, and one value laid on another. -/

namespace Nospacekey

/-- A JSON document. Members stand as they are written, and something that can be skipped but not read as a value
(a number out of range, half a surrogate pair, too deep a nesting) is a leaf of its own. -/
inductive Json (ν : Type) where
  | null
  | bool (value : Bool)
  | number (value : ν)
  | string (value : List Char)
  | array (items : List (Json ν))
  | object (members : List (String × Json ν))
  | unreadable
  deriving Repr

namespace Json

variable {ν : Type}

/-- The member of a key, if this is an object that has one. -/
def get? (key : String) : Json ν → Option (Json ν)
  | .object members => members.lookup key
  | _ => none

/-- What is reached through objects. -/
def at? (json : Json ν) : List String → Option (Json ν)
  | [] => some json
  | key :: path => (json.get? key).bind fun item => item.at? path

/-- A member is put into a map, which is kept in the order of its keys. -/
@[grind =] def insertMember (key : String) (item : Json ν) : List (String × Json ν) → List (String × Json ν)
  | [] => [(key, item)]
  | (name, old) :: rest =>
    if key = name then (key, item) :: rest
    else if key < name then (key, item) :: (name, old) :: rest
    else (name, old) :: insertMember key item rest

/-- A map of members. The last one of a key is the one that stays. -/
def ofMembers (members : List (String × Json ν)) : List (String × Json ν) :=
  members.foldl (fun map member => insertMember member.1 member.2 map) []

mutual

/-- A document read as a value, with maps for its objects. -/
def value : Json ν → Option (Json ν)
  | .array items => (values items).map .array
  | .object members => (memberValues members).map fun members => .object (ofMembers members)
  | .unreadable => none
  | .null => some .null
  | .bool value => some (.bool value)
  | .number value => some (.number value)
  | .string value => some (.string value)

def values : List (Json ν) → Option (List (Json ν))
  | [] => some []
  | item :: items => do return (← value item) :: (← values items)

def memberValues : List (String × Json ν) → Option (List (String × Json ν))
  | [] => some []
  | (key, item) :: rest => do return (key, ← value item) :: (← memberValues rest)

end

mutual

/-- One value laid on another: members of objects on members, and anything else in the place of what was there. -/
def mergeKnownFields : Json ν → Json ν → Json ν
  | .object destination, .object known => .object (mergeMembers destination known)
  | _, known => known

def mergeMembers (destination : List (String × Json ν)) : List (String × Json ν) → List (String × Json ν)
  | [] => destination
  | (key, item) :: rest =>
    mergeMembers (insertMember key (match destination.lookup key with
      | some current => mergeKnownFields current item
      | none => item) destination) rest

end

/-- Members in the order of their keys, none of which is there twice. -/
def Sorted (members : List (String × Json ν)) : Prop := members.Pairwise fun a b => a.1 < b.1

/-- A value: nothing unreadable in it, and every object a map. -/
inductive Canonical : Json ν → Prop where
  | null : Canonical .null
  | bool (value : Bool) : Canonical (.bool value)
  | number (value : ν) : Canonical (.number value)
  | string (value : List Char) : Canonical (.string value)
  | array {items : List (Json ν)} (all : ∀ item ∈ items, Canonical item) : Canonical (.array items)
  | object {members : List (String × Json ν)} (sorted : Sorted members) (all : ∀ member ∈ members, Canonical member.2) :
    Canonical (.object members)

/-- A document no object of which has a key twice. -/
inductive Distinct : Json ν → Prop where
  | null : Distinct .null
  | bool (value : Bool) : Distinct (.bool value)
  | number (value : ν) : Distinct (.number value)
  | string (value : List Char) : Distinct (.string value)
  | array {items : List (Json ν)} (all : ∀ item ∈ items, Distinct item) : Distinct (.array items)
  | object {members : List (String × Json ν)} (nodup : (members.map Prod.fst).Nodup)
    (all : ∀ member ∈ members, Distinct member.2) : Distinct (.object members)
  | unreadable : Distinct .unreadable

section Maps

/-- The first member decides, where the key is its. -/
theorem lookup_cons (name key : String) (item : Json ν) (rest : List (String × Json ν)) :
    ((key, item) :: rest).lookup name = if name = key then some item else rest.lookup name := by
  by_cases same : name = key
  · simp [same]
  · rw [if_neg same, List.lookup_cons, beq_false_of_ne same]

theorem mem_of_lookup {key : String} {item : Json ν} {members : List (String × Json ν)}
    (there : members.lookup key = some item) : (key, item) ∈ members := by
  induction members with
  | nil => cases there
  | cons first rest ih =>
    rw [lookup_cons] at there
    split at there
    · rename_i same
      rw [same, ← Option.some.inj there]
      exact List.mem_cons_self
    · exact List.mem_cons_of_mem _ (ih there)

/-- Where no key is there twice, looking one up finds its member. -/
theorem lookup_of_mem {key : String} {item : Json ν} {members : List (String × Json ν)}
    (nodup : (members.map Prod.fst).Nodup) (there : (key, item) ∈ members) : members.lookup key = some item := by
  induction members with
  | nil => cases there
  | cons first rest ih =>
    obtain ⟨fresh, nodup⟩ := List.nodup_cons.mp nodup
    rw [lookup_cons]
    rcases List.mem_cons.mp there with here | later
    · rw [← here, if_pos rfl]
    · rw [if_neg, ih nodup later]
      rintro rfl
      exact fresh (List.mem_map.mpr ⟨_, later, rfl⟩)

theorem lookup_eq_none_iff {key : String} {members : List (String × Json ν)} :
    members.lookup key = none ↔ key ∉ members.map Prod.fst := by
  induction members with
  | nil => simp
  | cons first rest ih =>
    rw [lookup_cons, List.map_cons, List.mem_cons, not_or, ← ih]
    by_cases same : key = first.1 <;> simp [same]

/-- Looking a member up after one was put in. -/
@[simp] theorem lookup_insertMember (key name : String) (item : Json ν) (members : List (String × Json ν)) :
    (insertMember key item members).lookup name = if name = key then some item else members.lookup name := by
  induction members with
  | nil => rw [insertMember, lookup_cons]
  | cons member rest ih =>
    obtain ⟨first, old⟩ := member
    unfold insertMember
    split
    · rename_i same
      rw [lookup_cons, lookup_cons, ← same]
      split <;> rfl
    · rename_i other
      split
      · rw [lookup_cons]
      · rw [lookup_cons, lookup_cons, ih]
        by_cases here : name = first
        · rw [if_pos here, if_neg (here ▸ Ne.symm other), if_pos here]
        · rw [if_neg here, if_neg here]

theorem mem_insertMember {key : String} {item : Json ν} {members : List (String × Json ν)} {member : String × Json ν}
    (inside : member ∈ insertMember key item members) : member = (key, item) ∨ member ∈ members := by
  induction members with
  | nil => simpa [insertMember] using inside
  | cons first rest ih =>
    unfold insertMember at inside
    split at inside
    · rcases List.mem_cons.mp inside with here | later
      · exact .inl here
      · exact .inr (List.mem_cons_of_mem _ later)
    · split at inside
      · rcases List.mem_cons.mp inside with here | later
        · exact .inl here
        · exact .inr later
      · rcases List.mem_cons.mp inside with here | later
        · exact .inr (here ▸ List.mem_cons_self)
        · exact (ih later).imp_right (List.mem_cons_of_mem _)

/-- A map stays one when a member is put in. -/
theorem sorted_insertMember (key : String) (item : Json ν) {members : List (String × Json ν)} (sorted : Sorted members) :
    Sorted (insertMember key item members) := by
  induction members with
  | nil => simp [insertMember, Sorted]
  | cons first rest ih =>
    obtain ⟨below, sorted⟩ := List.pairwise_cons.mp sorted
    unfold insertMember
    split
    · rename_i same
      exact List.pairwise_cons.mpr ⟨fun member inside => same ▸ below member inside, sorted⟩
    · rename_i other
      split
      · rename_i before
        refine List.pairwise_cons.mpr ⟨fun member inside => ?_, List.pairwise_cons.mpr ⟨below, sorted⟩⟩
        rcases List.mem_cons.mp inside with rfl | later
        · exact before
        · exact lt_trans before (below member later)
      · rename_i after
        refine List.pairwise_cons.mpr ⟨fun member inside => ?_, ih sorted⟩
        rcases mem_insertMember inside with rfl | later
        · exact lt_of_le_of_ne (not_lt.mp after) (Ne.symm other)
        · exact below member later

/-- Putting in what is there already changes nothing. -/
theorem insertMember_self {key : String} {item : Json ν} {members : List (String × Json ν)} (sorted : Sorted members)
    (there : members.lookup key = some item) : insertMember key item members = members := by
  induction members with
  | nil => cases there
  | cons first rest ih =>
    obtain ⟨name, old⟩ := first
    obtain ⟨below, sorted⟩ := List.pairwise_cons.mp sorted
    unfold insertMember
    split
    · rename_i same
      subst same
      rw [List.lookup_cons_self] at there
      rw [Option.some.inj there]
    · rename_i other
      rw [lookup_cons, if_neg other] at there
      rw [if_neg (not_lt.mpr (below _ (mem_of_lookup there)).le), ih sorted there]

/-- A map has no key twice. -/
theorem Sorted.nodup {members : List (String × Json ν)} (sorted : Sorted members) : (members.map Prod.fst).Nodup :=
  List.pairwise_map.mpr (sorted.imp fun before => ne_of_lt before)

/-- Of a key that is there once, a map keeps the member. -/
theorem lookup_ofMembers {members : List (String × Json ν)} (nodup : (members.map Prod.fst).Nodup) (key : String) :
    (ofMembers members).lookup key = members.lookup key := by
  -- For every map that the members are put into.
  have all : ∀ map : List (String × Json ν), (members.foldl (fun map member => insertMember member.1 member.2 map)
      map).lookup key = ((members.lookup key).or (map.lookup key)) := by
    induction members with
    | nil => exact fun _ => rfl
    | cons first rest ih =>
      intro map
      obtain ⟨fresh, nodup⟩ := List.nodup_cons.mp nodup
      rw [List.foldl_cons, ih nodup, lookup_insertMember, lookup_cons]
      split
      · rename_i same
        rw [lookup_eq_none_iff.mpr (same ▸ fresh)]
        rfl
      · rfl
  rw [ofMembers, all]
  simp

theorem sorted_ofMembers (members : List (String × Json ν)) : Sorted (ofMembers members) := by
  have all : ∀ map : List (String × Json ν), Sorted map →
      Sorted (members.foldl (fun map member => insertMember member.1 member.2 map) map) := by
    induction members with
    | nil => exact fun _ sorted => sorted
    | cons first rest ih => exact fun map sorted => ih _ (sorted_insertMember _ _ sorted)
  exact all [] .nil

/-- A map has no member but those it is made of. -/
theorem mem_ofMembers {members : List (String × Json ν)} {member : String × Json ν} (inside : member ∈ ofMembers members) :
    member ∈ members := by
  have all : ∀ map : List (String × Json ν), member ∈ members.foldl (fun map member => insertMember member.1 member.2 map)
      map → member ∈ members ∨ member ∈ map := by
    clear inside
    induction members with
    | nil => exact fun _ inside => .inr inside
    | cons first rest ih =>
      intro map inside
      rcases ih _ inside with later | put
      · exact .inl (List.mem_cons_of_mem _ later)
      · rcases mem_insertMember put with rfl | before
        · exact .inl List.mem_cons_self
        · exact .inr before
  rcases all [] inside with there | absurdity
  · exact there
  · cases absurdity

/-- A member behind all others is put in at the end. -/
theorem insertMember_behind {key : String} {item : Json ν} {members : List (String × Json ν)}
    (behind : ∀ member ∈ members, member.1 < key) : insertMember key item members = members ++ [(key, item)] := by
  induction members with
  | nil => rfl
  | cons first rest ih =>
    have before := behind first List.mem_cons_self
    rw [insertMember, if_neg (ne_of_gt before), if_neg (not_lt.mpr before.le),
      ih fun member inside => behind member (List.mem_cons_of_mem _ inside)]
    rfl

/-- Members in order make the map that they are. -/
theorem ofMembers_of_sorted {members : List (String × Json ν)} (sorted : Sorted members) : ofMembers members = members := by
  have all : ∀ map : List (String × Json ν), Sorted (map ++ members) →
      members.foldl (fun map member => insertMember member.1 member.2 map) map = map ++ members := by
    clear sorted
    induction members with
    | nil => exact fun map _ => (List.append_nil map).symm
    | cons first rest ih =>
      intro map sorted
      have behind : ∀ member ∈ map, member.1 < first.1 := fun member inside =>
        (List.pairwise_append.mp sorted).2.2 member inside first List.mem_cons_self
      rw [List.foldl_cons, insertMember_behind behind, ih _ (by rwa [List.append_assoc]), List.append_assoc]
      rfl
  exact all [] sorted

end Maps

section Values

mutual

/-- What a document is read as is a value. -/
theorem canonical_value : ∀ {json result : Json ν}, json.value = some result → result.Canonical
  | .null, _, rfl => .null
  | .bool _, _, rfl => .bool _
  | .number _, _, rfl => .number _
  | .string _, _, rfl => .string _
  | .array items, _, read => by
    rw [value, Option.map_eq_some_iff] at read
    obtain ⟨read', found, rfl⟩ := read
    exact .array (canonical_values found)
  | .object members, _, read => by
    rw [value, Option.map_eq_some_iff] at read
    obtain ⟨read', found, rfl⟩ := read
    exact .object (sorted_ofMembers _) fun member inside => canonical_memberValues found _ (mem_ofMembers inside)

theorem canonical_values : ∀ {items results : List (Json ν)}, values items = some results →
    ∀ result ∈ results, result.Canonical
  | [], _, rfl => by simp
  | item :: items, results, read => by
    simp only [values, Option.bind_eq_bind, Option.bind_eq_some_iff, Option.pure_def, Option.some.injEq] at read
    obtain ⟨first, here, rest, later, rfl⟩ := read
    exact List.forall_mem_cons.mpr ⟨canonical_value here, canonical_values later⟩

theorem canonical_memberValues : ∀ {members results : List (String × Json ν)}, memberValues members = some results →
    ∀ result ∈ results, result.2.Canonical
  | [], _, rfl => by simp
  | (key, item) :: members, results, read => by
    simp only [memberValues, Option.bind_eq_bind, Option.bind_eq_some_iff, Option.pure_def, Option.some.injEq] at read
    obtain ⟨first, here, rest, later, rfl⟩ := read
    exact List.forall_mem_cons.mpr ⟨canonical_value here, canonical_memberValues later⟩

end

mutual

/-- A value is read as itself. -/
theorem value_of_canonical : ∀ {json : Json ν}, json.Canonical → json.value = some json
  | .null, _ => rfl
  | .bool _, _ => rfl
  | .number _, _ => rfl
  | .string _, _ => rfl
  | .array items, canonical => by
    cases canonical with | array all => rw [value, values_of_canonical all, Option.map_some]
  | .object members, canonical => by
    cases canonical with
    | object sorted all => rw [value, memberValues_of_canonical all, Option.map_some, ofMembers_of_sorted sorted]

theorem values_of_canonical : ∀ {items : List (Json ν)}, (∀ item ∈ items, item.Canonical) → values items = some items
  | [], _ => rfl
  | item :: items, all => by
    obtain ⟨first, rest⟩ := List.forall_mem_cons.mp all
    rw [values, value_of_canonical first, values_of_canonical rest]
    rfl

theorem memberValues_of_canonical : ∀ {members : List (String × Json ν)}, (∀ member ∈ members, member.2.Canonical) →
    memberValues members = some members
  | [], _ => rfl
  | (key, item) :: members, all => by
    obtain ⟨first, rest⟩ := List.forall_mem_cons.mp all
    rw [memberValues, value_of_canonical first, memberValues_of_canonical rest]
    rfl

end

/-- The members of a map have the keys of the document's object. -/
theorem memberValues_lookup {members results : List (String × Json ν)} (read : memberValues members = some results)
    (key : String) : results.map Prod.fst = members.map Prod.fst ∧
      results.lookup key = (members.lookup key).bind value := by
  induction members generalizing results with
  | nil =>
    obtain rfl := Option.some.inj read
    exact ⟨rfl, rfl⟩
  | cons first members ih =>
    obtain ⟨name, item⟩ := first
    simp only [memberValues, Option.bind_eq_bind, Option.bind_eq_some_iff, Option.pure_def, Option.some.injEq] at read
    obtain ⟨first, here, rest, later, rfl⟩ := read
    obtain ⟨same, found⟩ := ih later
    refine ⟨congrArg (name :: ·) same, ?_⟩
    rw [lookup_cons, lookup_cons, found]
    split
    · exact here.symm
    · rfl

/-- Every member of an object that was read could be read. -/
theorem readable_of_lookup {members results : List (String × Json ν)} (read : memberValues members = some results)
    {key : String} {item : Json ν} (there : members.lookup key = some item) : ∃ result, item.value = some result := by
  obtain ⟨keys, here⟩ := memberValues_lookup read key
  cases known : item.value with
  | some result => exact ⟨result, rfl⟩
  | none =>
    rw [there, Option.bind_some, known] at here
    have absent := lookup_eq_none_iff.mp here
    rw [keys] at absent
    exact absurd (List.mem_map_of_mem (mem_of_lookup there)) absent

/-- Everything that is reached in a document that was read could be read. -/
theorem readable_of_at? {json result item : Json ν} (read : json.value = some result) {path : List String}
    (there : json.at? path = some item) : ∃ value, item.value = some value := by
  induction path generalizing json result with
  | nil =>
    obtain rfl := Option.some.inj there
    exact ⟨result, read⟩
  | cons key path ih =>
    obtain ⟨below, found, deeper⟩ := Option.bind_eq_some_iff.mp there
    cases json with
    | object members =>
      rw [value, Option.map_eq_some_iff] at read
      obtain ⟨results, all, _⟩ := read
      obtain ⟨_, known⟩ := readable_of_lookup all found
      exact ih known deeper
    | _ => cases found

/-- What is reached in a document without repeated keys is reached in its value, as a value. -/
theorem at?_value {json result : Json ν} (distinct : json.Distinct) (read : json.value = some result)
    (path : List String) : result.at? path = (json.at? path).bind value := by
  induction path generalizing json result with
  | nil => exact read.symm
  | cons key path ih =>
    rw [at?, at?]
    cases json with
    | object members =>
      cases distinct with
      | object nodup all =>
        rw [value, Option.map_eq_some_iff] at read
        obtain ⟨results, found, rfl⟩ := read
        obtain ⟨keys, here⟩ := memberValues_lookup found key
        rw [get?, get?, lookup_ofMembers (keys ▸ nodup), here]
        cases there : members.lookup key with
        | none => rfl
        | some item =>
          obtain ⟨known, value⟩ := readable_of_lookup found there
          rw [Option.bind_some, Option.bind_some, value]
          exact ih (all _ (mem_of_lookup there)) value
    | array items =>
      rw [value, Option.map_eq_some_iff] at read
      obtain ⟨results, found, rfl⟩ := read
      rfl
    | unreadable => cases read
    | null => cases read; rfl
    | bool => cases read; rfl
    | number => cases read; rfl
    | string => cases read; rfl

end Values

section Merging

/-- What is no object stands in the place of what was there. -/
theorem merge_of_not_object {known : Json ν} (plain : ∀ members, known ≠ .object members) (destination : Json ν) :
    mergeKnownFields destination known = known := by
  cases known with
  | object members => exact absurd rfl (plain members)
  | _ => rw [mergeKnownFields]; simp

/-- What is laid on nothing stands as it is. -/
theorem merge_getD (current : Option (Json ν)) (item : Json ν) :
    (match current with
      | some current => mergeKnownFields current item
      | none => item) = mergeKnownFields (current.getD .null) item := by
  cases current with
  | some current => rfl
  | none => cases item <;> rfl

/-- What the members of a merged object are. -/
theorem lookup_mergeMembers {destination known : List (String × Json ν)} (nodup : (known.map Prod.fst).Nodup)
    (key : String) : (mergeMembers destination known).lookup key = match known.lookup key with
      | some item => some (mergeKnownFields ((destination.lookup key).getD .null) item)
      | none => destination.lookup key := by
  induction known generalizing destination with
  | nil => rw [mergeMembers]; rfl
  | cons first known ih =>
    obtain ⟨name, item⟩ := first
    obtain ⟨fresh, nodup⟩ := List.nodup_cons.mp nodup
    rw [mergeMembers, ih nodup, lookup_cons, merge_getD, lookup_insertMember]
    by_cases same : key = name
    · rw [if_pos same, if_pos same, lookup_eq_none_iff.mpr (same ▸ fresh), same]
    · rw [if_neg same, if_neg same]

/-- A map stays one when members are laid on it. -/
theorem sorted_mergeMembers {destination : List (String × Json ν)} (known : List (String × Json ν))
    (sorted : Sorted destination) : Sorted (mergeMembers destination known) := by
  induction known generalizing destination with
  | nil => rwa [mergeMembers]
  | cons first known ih =>
    rw [mergeMembers]
    exact ih (sorted_insertMember _ _ sorted)

/-- A member that an object is asked for is a value if the object is. -/
theorem Canonical.get? {json : Json ν} (canonical : json.Canonical) {key : String} {item : Json ν}
    (found : json.get? key = some item) : item.Canonical := by
  cases canonical with
  | object sorted all => exact all _ (mem_of_lookup found)
  | _ => cases found

theorem Canonical.getD {json : Json ν} (canonical : json.Canonical) (key : String) :
    ((json.get? key).getD .null).Canonical := by
  cases found : json.get? key with
  | none => exact .null
  | some item => exact canonical.get? found

mutual

/-- A value laid on a value is one. -/
theorem canonical_merge : ∀ {known destination : Json ν}, destination.Canonical → known.Canonical →
    (mergeKnownFields destination known).Canonical
  | .object known, .object destination, below, above => by
    cases below with
    | object sorted all =>
      cases above with
      | object _ all' =>
        rw [mergeKnownFields]
        exact .object (sorted_mergeMembers _ sorted) (canonical_mergeMembers all all')
  | .object _, .null, _, above => above
  | .object _, .bool _, _, above => above
  | .object _, .number _, _, above => above
  | .object _, .string _, _, above => above
  | .object _, .array _, _, above => above
  | .object _, .unreadable, _, above => above
  | .null, _, _, above => by rwa [merge_of_not_object (by simp)]
  | .bool _, _, _, above => by rwa [merge_of_not_object (by simp)]
  | .number _, _, _, above => by rwa [merge_of_not_object (by simp)]
  | .string _, _, _, above => by rwa [merge_of_not_object (by simp)]
  | .array _, _, _, above => by rwa [merge_of_not_object (by simp)]
  | .unreadable, _, _, above => by cases above

theorem canonical_mergeMembers : ∀ {known destination : List (String × Json ν)},
    (∀ member ∈ destination, member.2.Canonical) → (∀ member ∈ known, member.2.Canonical) →
    ∀ member ∈ mergeMembers destination known, member.2.Canonical
  | [], _, below, _ => by rwa [mergeMembers]
  | (key, item) :: known, destination, below, above => by
    obtain ⟨first, rest⟩ := List.forall_mem_cons.mp above
    rw [mergeMembers, merge_getD]
    refine canonical_mergeMembers (fun member inside => ?_) rest
    rcases mem_insertMember inside with rfl | before
    · cases found : destination.lookup key with
      | none => exact canonical_merge .null first
      | some current => exact canonical_merge (below _ (mem_of_lookup found)) first
    · exact below _ before

end

/-- Laying members on what already has them changes nothing. -/
theorem mergeMembers_self {members known : List (String × Json ν)} (sorted : Sorted members)
    (there : ∀ member ∈ known, ∃ current, members.lookup member.1 = some current ∧
      mergeKnownFields current member.2 = current) : mergeMembers members known = members := by
  induction known with
  | nil => rw [mergeMembers]
  | cons first known ih =>
    obtain ⟨⟨current, found, same⟩, rest⟩ := List.forall_mem_cons.mp there
    rw [mergeMembers, found]
    simp only
    rw [same, insertMember_self sorted found, ih rest]

mutual

/-- A value laid on itself. -/
theorem merge_self : ∀ {known : Json ν}, known.Canonical → mergeKnownFields known known = known
  | .object known, canonical => by
    cases canonical with
    | object sorted all =>
      rw [mergeKnownFields]
      refine congrArg Json.object (mergeMembers_self sorted fun member inside => ?_)
      exact ⟨_, lookup_of_mem sorted.nodup inside, merge_self_members (all member inside) inside⟩
  | .null, _ => merge_of_not_object (by simp) _
  | .bool _, _ => merge_of_not_object (by simp) _
  | .number _, _ => merge_of_not_object (by simp) _
  | .string _, _ => merge_of_not_object (by simp) _
  | .array _, _ => merge_of_not_object (by simp) _

theorem merge_self_members : ∀ {known : List (String × Json ν)} {member : String × Json ν}, member.2.Canonical →
    member ∈ known → mergeKnownFields member.2 member.2 = member.2
  | (key, item) :: known, member, canonical, inside => by
    rcases List.mem_cons.mp inside with rfl | later
    · exact merge_self canonical
    · exact merge_self_members canonical later

end

mutual

/-- A value laid on something twice is laid on it once. -/
theorem merge_merge : ∀ {known destination : Json ν}, destination.Canonical → known.Canonical →
    mergeKnownFields (mergeKnownFields destination known) known = mergeKnownFields destination known
  | .object known, .object destination, below, above => by
    cases below with
    | object sorted all =>
      cases above with
      | object ordered all' =>
        rw [mergeKnownFields, mergeKnownFields]
        refine congrArg Json.object (mergeMembers_self (sorted_mergeMembers _ sorted) fun member inside => ?_)
        have below := (Canonical.object sorted all).getD member.1
        refine ⟨_, ?_, merge_merge_members (all' member inside) inside below⟩
        rw [lookup_mergeMembers ordered.nodup, lookup_of_mem ordered.nodup inside]
        rfl
  | .object known, .null, _, above => merge_self above
  | .object _, .bool _, _, above => merge_self above
  | .object _, .number _, _, above => merge_self above
  | .object _, .string _, _, above => merge_self above
  | .object _, .array _, _, above => merge_self above
  | .object _, .unreadable, _, above => merge_self above
  | .null, _, _, _ => by rw [merge_of_not_object (by simp), merge_of_not_object (by simp)]
  | .bool _, _, _, _ => by rw [merge_of_not_object (by simp), merge_of_not_object (by simp)]
  | .number _, _, _, _ => by rw [merge_of_not_object (by simp), merge_of_not_object (by simp)]
  | .string _, _, _, _ => by rw [merge_of_not_object (by simp), merge_of_not_object (by simp)]
  | .array _, _, _, _ => by rw [merge_of_not_object (by simp), merge_of_not_object (by simp)]
  | .unreadable, _, _, above => by cases above

theorem merge_merge_members : ∀ {known : List (String × Json ν)} {member : String × Json ν} {destination : Json ν},
    member.2.Canonical → member ∈ known → destination.Canonical →
    mergeKnownFields (mergeKnownFields destination member.2) member.2 = mergeKnownFields destination member.2
  | (key, item) :: known, member, destination, above, inside, below => by
    rcases List.mem_cons.mp inside with rfl | later
    · exact merge_merge below above
    · exact merge_merge_members above later below

end

end Merging

section Paths

/-- The members of a merged object. -/
theorem get?_merge {destination known : List (String × Json ν)} (nodup : (known.map Prod.fst).Nodup) (key : String) :
    (mergeKnownFields (.object destination) (.object known)).get? key = match known.lookup key with
      | some item => some (mergeKnownFields ((destination.lookup key).getD .null) item)
      | none => destination.lookup key := by
  rw [mergeKnownFields]
  exact lookup_mergeMembers nodup key

/-- A member that the upper value does not know, in an object that it has too, is left as it is. -/
theorem at?_merge_unknown {destination known : Json ν} (canonical : known.Canonical) {path : List String}
    {members : List (String × Json ν)} {key : String} (parent : known.at? path = some (.object members))
    (unknown : members.lookup key = none) {item : Json ν} (there : destination.at? (path ++ [key]) = some item) :
    (mergeKnownFields destination known).at? (path ++ [key]) = some item := by
  induction path generalizing destination known with
  | nil =>
    obtain rfl := Option.some.inj parent
    cases destination with
    | object destination =>
      cases canonical with
      | object sorted all =>
        rw [List.nil_append, at?, get?_merge sorted.nodup, unknown]
        exact there
    | _ => cases there
  | cons first path ih =>
    rw [List.cons_append, at?] at there ⊢
    rw [at?] at parent
    cases destination with
    | object destination =>
      cases known with
      | object known =>
        cases canonical with
        | object sorted all =>
          obtain ⟨below, found, deeper⟩ := Option.bind_eq_some_iff.mp there
          obtain ⟨above, found', deeper'⟩ := Option.bind_eq_some_iff.mp parent
          rw [get?] at found found'
          rw [get?_merge sorted.nodup, found', found]
          exact ih (all _ (mem_of_lookup found')) deeper' deeper
      | _ => cases parent
    | _ => cases there

end Paths

end Json

end Nospacekey
