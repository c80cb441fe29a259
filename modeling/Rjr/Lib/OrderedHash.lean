import Mathlib.Data.List.Nodup

/-!
# Insertion-ordered hashes

A hash that remembers the order in which its keys were first written. Writing an existing key
replaces its value in place; writing a new key appends it. The structure carries the
distinctness of its keys, so a lookup is the unique entry of its key and two hashes are equal
exactly when their entry lists are. Nothing here depends on what the keys and values are.
-/

/-- Entries in order of first insertion, one for each key. -/
structure OrderedHash (κ ν : Type) where
  /-- The entries, oldest key first. -/
  entries : List (κ × ν)
  /-- Every key has one entry. -/
  distinct : (entries.map Prod.fst).Nodup

namespace OrderedHash

variable {κ ν : Type}

/-- Equal entry lists are equal hashes; the distinctness proof carries no data. -/
@[ext]
theorem ext_entries {left right : OrderedHash κ ν} (same : left.entries = right.entries) :
    left = right := by
  cases left
  cases right
  cases same
  rfl

instance [DecidableEq κ] [DecidableEq ν] : DecidableEq (OrderedHash κ ν) := fun left right =>
  decidable_of_iff (left.entries = right.entries) ⟨ext_entries, fun same => same ▸ rfl⟩

/-- The hash without entries. -/
def empty : OrderedHash κ ν := ⟨[], List.nodup_nil⟩

/-- The keys, oldest first. -/
def keys (hash : OrderedHash κ ν) : List κ := hash.entries.map Prod.fst

variable [DecidableEq κ]

/-- The value of a key, absent when the key was never written. -/
def get? (hash : OrderedHash κ ν) (key : κ) : Option ν := hash.entries.lookup key

/-- Whether a key was written. -/
def has (hash : OrderedHash κ ν) (key : κ) : Bool := (hash.get? key).isSome

/-- Write one key of an entry list, in place when it is present. -/
def putEntry (key : κ) (value : ν) : List (κ × ν) → List (κ × ν)
  | [] => [(key, value)]
  | (found, old) :: rest =>
    if found = key then (key, value) :: rest else (found, old) :: putEntry key value rest

/-- A present key keeps the key list; an absent one is appended to it. -/
theorem putEntry_keys (key : κ) (value : ν) (entries : List (κ × ν)) :
    (putEntry key value entries).map Prod.fst =
      if key ∈ entries.map Prod.fst then entries.map Prod.fst
      else entries.map Prod.fst ++ [key] := by
  induction entries with
  | nil => rfl
  | cons entry rest ih =>
    obtain ⟨found, old⟩ := entry
    by_cases same : found = key
    · simp [putEntry, same]
    · simp only [putEntry, if_neg same, List.map_cons, ih, List.mem_cons, Ne.symm same,
        false_or, List.cons_append]
      split <;> rfl

/-- Writing a key keeps the keys distinct. -/
theorem putEntry_distinct (key : κ) (value : ν) (entries : List (κ × ν))
    (distinct : (entries.map Prod.fst).Nodup) :
    ((putEntry key value entries).map Prod.fst).Nodup := by
  rw [putEntry_keys]
  split
  · exact distinct
  · rename_i absent
    exact List.Nodup.append distinct (List.nodup_singleton key)
      (List.disjoint_singleton.mpr absent)

/-- `hash[key] = value`. -/
def put (hash : OrderedHash κ ν) (key : κ) (value : ν) : OrderedHash κ ν :=
  ⟨putEntry key value hash.entries, putEntry_distinct key value _ hash.distinct⟩

/-- Write the entries of a list one after the other. -/
def putAll (hash : OrderedHash κ ν) (entries : List (κ × ν)) : OrderedHash κ ν :=
  entries.foldl (fun hash entry => hash.put entry.1 entry.2) hash

/-- `left.merge(right)`: the right hash wins on common keys. -/
def merge (left right : OrderedHash κ ν) : OrderedHash κ ν := left.putAll right.entries

/-- The hash of an entry list in which a later value of a key replaces an earlier one. -/
def ofList (entries : List (κ × ν)) : OrderedHash κ ν := empty.putAll entries

omit [DecidableEq κ] in
/-- Dropping entries keeps the keys distinct. -/
theorem filter_distinct (hash : OrderedHash κ ν) (kept : κ × ν → Bool) :
    ((hash.entries.filter kept).map Prod.fst).Nodup :=
  hash.distinct.sublist (List.filter_sublist.map Prod.fst)

/-- The entries that satisfy a test, in their order. -/
def select (hash : OrderedHash κ ν) (kept : κ × ν → Bool) : OrderedHash κ ν :=
  ⟨hash.entries.filter kept, hash.filter_distinct kept⟩

/-! ## Lookup laws -/

/-- The head entry answers for its own key, the rest for every other one. -/
theorem lookup_cons_if (key found : κ) (value : ν) (rest : List (κ × ν)) :
    ((found, value) :: rest).lookup key = if key = found then some value else rest.lookup key := by
  rw [List.lookup_cons]
  by_cases same : key = found
  · simp [same]
  · have differs : (key == found) = false := by simpa using same
    simp only [differs, if_neg same]

/-- A value that is changed is found under its key. -/
theorem lookup_mapValues {ω : Type} (change : ν → ω) (entries : List (κ × ν)) (key : κ) :
    (entries.map fun entry => (entry.1, change entry.2)).lookup key =
      (entries.lookup key).map change := by
  induction entries with
  | nil => rfl
  | cons entry rest ih =>
    rw [List.map_cons, lookup_cons_if, lookup_cons_if key entry.1, ih]
    by_cases same : key = entry.1 <;> simp [same]

/-- A lookup is membership of the entry list, since keys are distinct. -/
theorem get?_eq_some_iff (hash : OrderedHash κ ν) (key : κ) (value : ν) :
    hash.get? key = some value ↔ (key, value) ∈ hash.entries := by
  obtain ⟨entries, distinct⟩ := hash
  unfold get?
  induction entries with
  | nil => simp
  | cons entry rest ih =>
    obtain ⟨found, old⟩ := entry
    simp only [List.map_cons, List.nodup_cons] at distinct
    rw [lookup_cons_if]
    by_cases same : key = found
    · subst same
      have absent : (key, value) ∉ rest := fun member =>
        distinct.1 (List.mem_map.mpr ⟨_, member, rfl⟩)
      simp [absent, eq_comm]
    · simp only [List.mem_cons, Prod.mk.injEq, same, false_and, false_or]
      exact ih distinct.2

/-- A key was written exactly when it is listed. -/
theorem has_eq_true_iff (hash : OrderedHash κ ν) (key : κ) :
    hash.has key = true ↔ key ∈ hash.keys := by
  rw [has, Option.isSome_iff_exists]
  simp only [get?_eq_some_iff, keys, List.mem_map, Prod.exists, exists_and_right, exists_eq_right]

/-- A lookup is absent exactly when the key is not listed. -/
theorem get?_eq_none_iff (hash : OrderedHash κ ν) (key : κ) :
    hash.get? key = none ↔ key ∉ hash.keys := by
  rw [← has_eq_true_iff, has]
  cases hash.get? key <;> simp

/-- Reading after dropping entries. -/
theorem get?_select_eq_some_iff (hash : OrderedHash κ ν) (kept : κ × ν → Bool) (key : κ)
    (value : ν) :
    (hash.select kept).get? key = some value ↔
      hash.get? key = some value ∧ kept (key, value) = true := by
  rw [get?_eq_some_iff, get?_eq_some_iff, select, List.mem_filter]

/-- Lookup in an entry list after writing one key. -/
theorem lookup_putEntry (key other : κ) (value : ν) (entries : List (κ × ν)) :
    (putEntry key value entries).lookup other =
      if other = key then some value else entries.lookup other := by
  induction entries with
  | nil => rw [putEntry, lookup_cons_if]
  | cons entry rest ih =>
    obtain ⟨found, old⟩ := entry
    by_cases same : found = key
    · subst same
      rw [putEntry, if_pos rfl, lookup_cons_if, lookup_cons_if]
      split <;> rfl
    · rw [putEntry, if_neg same, lookup_cons_if, lookup_cons_if, ih]
      by_cases hit : other = found
      · subst hit
        simp [same]
      · simp [hit]

/-- Reading after writing one key. -/
@[simp]
theorem get?_put (hash : OrderedHash κ ν) (key other : κ) (value : ν) :
    (hash.put key value).get? other = if other = key then some value else hash.get? other :=
  lookup_putEntry key other value hash.entries

@[simp]
theorem get?_empty (key : κ) : (empty : OrderedHash κ ν).get? key = none := rfl

/-- The keys after writing one key. -/
theorem mem_keys_put (hash : OrderedHash κ ν) (key other : κ) (value : ν) :
    other ∈ (hash.put key value).keys ↔ other = key ∨ other ∈ hash.keys := by
  rw [← has_eq_true_iff, ← has_eq_true_iff, has, has, get?_put]
  by_cases same : other = key <;> simp [same]

/-- Rewriting the value a key already has changes nothing. -/
theorem put_same (hash : OrderedHash κ ν) (key : κ) (value : ν)
    (present : hash.get? key = some value) : hash.put key value = hash := by
  apply ext_entries
  have member := (hash.get?_eq_some_iff key value).mp present
  have written : ∀ entries : List (κ × ν), (entries.map Prod.fst).Nodup →
      (key, value) ∈ entries → putEntry key value entries = entries := by
    intro entries
    induction entries with
    | nil => intro _ impossible; cases impossible
    | cons entry rest ih =>
      obtain ⟨found, old⟩ := entry
      intro distinct inside
      simp only [List.map_cons, List.nodup_cons] at distinct
      by_cases same : found = key
      · subst same
        rcases List.mem_cons.mp inside with head | tail
        · cases head
          simp [putEntry]
        · exact absurd (List.mem_map.mpr ⟨_, tail, rfl⟩) distinct.1
      · have tail : (key, value) ∈ rest := by
          rcases List.mem_cons.mp inside with head | tail
          · cases head
            exact absurd rfl same
          · exact tail
        rw [putEntry, if_neg same, ih distinct.2 tail]
  exact written hash.entries hash.distinct member

/-- Writing an absent key appends its entry. -/
theorem put_absent (hash : OrderedHash κ ν) (key : κ) (value : ν) (absent : key ∉ hash.keys) :
    (hash.put key value).entries = hash.entries ++ [(key, value)] := by
  have appended : ∀ entries : List (κ × ν), key ∉ entries.map Prod.fst →
      putEntry key value entries = entries ++ [(key, value)] := by
    intro entries
    induction entries with
    | nil => intro _; rfl
    | cons entry rest ih =>
      obtain ⟨found, old⟩ := entry
      intro missing
      simp only [List.map_cons, List.mem_cons, not_or] at missing
      rw [putEntry, if_neg (Ne.symm missing.1), ih missing.2]
      rfl
  exact appended hash.entries absent

/-- The last of two writes of one key counts, at the place of the first. -/
@[simp]
theorem put_put (hash : OrderedHash κ ν) (key : κ) (first second : ν) :
    (hash.put key first).put key second = hash.put key second := by
  apply ext_entries
  change putEntry key second (putEntry key first hash.entries) = putEntry key second hash.entries
  induction hash.entries with
  | nil => simp [putEntry]
  | cons entry rest ih =>
    obtain ⟨found, old⟩ := entry
    by_cases same : found = key
    · simp [putEntry, same]
    · simp only [putEntry, if_neg same, ih]

/-- The first key with a property, after writing one key: a new key comes last. -/
theorem find?_keys_put (hash : OrderedHash κ ν) (key : κ) (value : ν) (holds : κ → Bool) :
    (hash.put key value).keys.find? holds = (hash.keys ++ [key]).find? holds := by
  have keys : (hash.put key value).keys =
      if key ∈ hash.keys then hash.keys else hash.keys ++ [key] :=
    putEntry_keys key value hash.entries
  rw [keys]
  by_cases present : key ∈ hash.keys
  · rw [if_pos present, List.find?_append]
    cases found : hash.keys.find? holds with
    | some other => rfl
    | none =>
      have missed := List.find?_eq_none.mp found key present
      simp [missed]
  · rw [if_neg present]

/-- The first entry whose key has a property is that of the first such key. -/
theorem find?_entries (hash : OrderedHash κ ν) (holds : κ → Bool) :
    hash.entries.find? (fun entry => holds entry.1) =
      (hash.keys.find? holds).bind fun key => (hash.get? key).map fun value => (key, value) := by
  have keys : hash.keys.find? holds =
      (hash.entries.find? fun entry => holds entry.1).map Prod.fst := by
    rw [OrderedHash.keys, List.find?_map]
    rfl
  rw [keys]
  cases found : hash.entries.find? fun entry => holds entry.1 with
  | none => rfl
  | some entry =>
    have value := (hash.get?_eq_some_iff entry.1 entry.2).mpr (List.mem_of_find?_eq_some found)
    simp [value]

/-! ## Merging -/

@[simp]
theorem putAll_nil (hash : OrderedHash κ ν) : hash.putAll [] = hash := rfl

@[simp]
theorem putAll_cons (hash : OrderedHash κ ν) (entry : κ × ν) (rest : List (κ × ν)) :
    hash.putAll (entry :: rest) = (hash.put entry.1 entry.2).putAll rest := rfl

/-- Entry lists are written one after the other. -/
theorem putAll_append (hash : OrderedHash κ ν) (first second : List (κ × ν)) :
    hash.putAll (first ++ second) = (hash.putAll first).putAll second := List.foldl_append

/-- Reading after writing a list of entries: the last entry of the key answers first. -/
theorem get?_putAll (entries : List (κ × ν)) : ∀ (hash : OrderedHash κ ν) (key : κ),
    (hash.putAll entries).get? key = (entries.reverse.lookup key).or (hash.get? key) := by
  induction entries with
  | nil => exact fun hash key => rfl
  | cons entry rest ih =>
    intro hash key
    rw [putAll_cons, ih, get?_put, List.reverse_cons, List.lookup_append]
    cases rest.reverse.lookup key with
    | some value => rfl
    | none =>
      change _ = (List.lookup key [(entry.1, entry.2)]).or (hash.get? key)
      rw [lookup_cons_if]
      by_cases same : key = entry.1
      · rw [if_pos same, if_pos same]
        rfl
      · rw [if_neg same, if_neg same]
        rfl

/-- Entries with changed values hold the changed values. -/
theorem get?_ofList_mapValues {ω : Type} (change : ν → ω) (entries : List (κ × ν)) (key : κ) :
    (ofList (entries.map fun entry => (entry.1, change entry.2))).get? key =
      ((ofList entries).get? key).map change := by
  rw [ofList, ofList, get?_putAll, get?_putAll, ← List.map_reverse, lookup_mapValues]
  cases entries.reverse.lookup key <;> rfl

/-- The keys of a hash that is written from a list are those of the list. -/
theorem mem_keys_ofList (entries : List (κ × ν)) (key : κ) :
    key ∈ (ofList entries).keys ↔ key ∈ entries.map Prod.fst := by
  have written : ∀ hash : OrderedHash κ ν,
      key ∈ (hash.putAll entries).keys ↔ key ∈ hash.keys ∨ key ∈ entries.map Prod.fst := by
    induction entries with
    | nil => intro hash; simp
    | cons entry rest ih =>
      intro hash
      rw [putAll_cons, ih, mem_keys_put, List.map_cons, List.mem_cons, or_assoc, or_left_comm]
  rw [ofList, written]
  exact or_iff_right List.not_mem_nil

/-- The first key with a property, after writing a list of entries. -/
theorem find?_keys_putAll (entries : List (κ × ν)) (holds : κ → Bool) :
    ∀ hash : OrderedHash κ ν, (hash.putAll entries).keys.find? holds =
      (hash.keys ++ entries.map Prod.fst).find? holds := by
  induction entries with
  | nil => intro hash; simp
  | cons entry rest ih =>
    intro hash
    rw [putAll_cons, ih, List.find?_append, find?_keys_put, ← List.find?_append]
    simp

/-- Writing fresh distinct keys appends their entries. -/
theorem putAll_absent (entries : List (κ × ν)) : ∀ (hash : OrderedHash κ ν),
    (entries.map Prod.fst).Nodup → (∀ key ∈ entries.map Prod.fst, key ∉ hash.keys) →
      (hash.putAll entries).entries = hash.entries ++ entries := by
  induction entries with
  | nil => intro hash _ _; simp
  | cons entry rest ih =>
    obtain ⟨key, value⟩ := entry
    intro hash distinct absent
    simp only [List.map_cons, List.nodup_cons] at distinct
    have missing : key ∉ hash.keys := absent key (by simp)
    rw [putAll_cons, ih (hash.put key value) distinct.2, put_absent hash key value missing]
    · simp
    · intro other member
      rw [mem_keys_put, not_or]
      refine ⟨fun same => distinct.1 (same ▸ member), absent other ?_⟩
      exact List.mem_cons_of_mem _ member

/-- Dropping keys before or after writing makes no difference. -/
theorem select_putAll (kept : κ → Bool) (entries : List (κ × ν)) : ∀ hash : OrderedHash κ ν,
    (hash.putAll entries).select (fun entry => kept entry.1) =
      (hash.select fun entry => kept entry.1).putAll
        (entries.filter fun entry => kept entry.1) := by
  have single : ∀ (hash : OrderedHash κ ν) (key : κ) (value : ν),
      (hash.put key value).select (fun entry => kept entry.1) =
        if kept key then (hash.select fun entry => kept entry.1).put key value
        else hash.select fun entry => kept entry.1 := by
    intro hash key value
    apply ext_entries
    have written : ∀ list : List (κ × ν),
        (putEntry key value list).filter (fun entry => kept entry.1) =
          if kept key then putEntry key value (list.filter fun entry => kept entry.1)
          else list.filter fun entry => kept entry.1 := by
      intro list
      induction list with
      | nil => cases keeps : kept key <;> simp [putEntry, keeps]
      | cons entry rest ih =>
        obtain ⟨found, old⟩ := entry
        by_cases same : found = key
        · subst same
          cases keeps : kept found <;> simp [putEntry, keeps]
        · cases keeps : kept key <;> cases others : kept found <;>
            simp_all [putEntry]
    refine (written hash.entries).trans ?_
    cases kept key <;> rfl
  induction entries with
  | nil => intro hash; rfl
  | cons entry rest ih =>
    obtain ⟨key, value⟩ := entry
    intro hash
    rw [putAll_cons, ih, single, List.filter_cons]
    cases kept key <;> simp

/-- Reading after merging: the right hash answers first. -/
@[simp]
theorem get?_merge (left right : OrderedHash κ ν) (key : κ) :
    (left.merge right).get? key = (right.get? key).or (left.get? key) := by
  obtain ⟨entries, distinct⟩ := right
  unfold merge
  induction entries generalizing left with
  | nil => rfl
  | cons entry rest ih =>
    obtain ⟨found, value⟩ := entry
    simp only [List.map_cons, List.nodup_cons] at distinct
    rw [putAll_cons, ih (left.put found value) distinct.2, get?_put]
    simp only [get?, lookup_cons_if]
    by_cases same : key = found
    · subst same
      have absent : rest.lookup key = none :=
        (get?_eq_none_iff ⟨rest, distinct.2⟩ key).mpr distinct.1
      simp [absent]
    · simp [same]

/-- Merging hashes without a common key appends their entries. -/
theorem merge_disjoint (left right : OrderedHash κ ν)
    (disjoint : ∀ key ∈ right.keys, key ∉ left.keys) :
    (left.merge right).entries = left.entries ++ right.entries :=
  putAll_absent right.entries left right.distinct disjoint

/-- Merging onto the empty hash copies. -/
@[simp]
theorem empty_merge (hash : OrderedHash κ ν) : empty.merge hash = hash := by
  apply ext_entries
  rw [merge_disjoint empty hash (fun _ _ => List.not_mem_nil)]
  rfl

/-- The hash of a hash's own entries is that hash. -/
@[simp]
theorem ofList_entries (hash : OrderedHash κ ν) : ofList hash.entries = hash := empty_merge hash

/-- Writing entries the hash already has changes nothing. -/
theorem putAll_same (hash : OrderedHash κ ν) (entries : List (κ × ν))
    (present : ∀ entry ∈ entries, hash.get? entry.1 = some entry.2) :
    hash.putAll entries = hash := by
  induction entries with
  | nil => rfl
  | cons entry rest ih =>
    rw [putAll_cons, put_same hash entry.1 entry.2 (present entry List.mem_cons_self)]
    exact ih fun other member => present other (List.mem_cons_of_mem _ member)

/-- Merging a hash into itself changes nothing. -/
@[simp]
theorem merge_self (hash : OrderedHash κ ν) : hash.merge hash = hash := by
  apply putAll_same
  intro entry member
  exact (get?_eq_some_iff hash entry.1 entry.2).mpr member

/-! ## The same members in any order -/

/-- Hashes are the same if they have the same members, in whatever order. -/
def Same (left right : OrderedHash κ ν) : Prop := ∀ key, left.get? key = right.get? key

/-- A hash is the same as itself. -/
theorem Same.refl (hash : OrderedHash κ ν) : hash.Same hash := fun _ => rfl

/-- The order of the two hashes does not matter. -/
theorem Same.symm {left right : OrderedHash κ ν} (same : left.Same right) : right.Same left :=
  fun key => (same key).symm

/-- Hashes that are the same as a third one are the same. -/
theorem Same.trans {first second third : OrderedHash κ ν} (left : first.Same second)
    (right : second.Same third) : first.Same third :=
  fun key => (left key).trans (right key)

/-- The same members merged into the same hash make the same hash. -/
theorem Same.merge {left other : OrderedHash κ ν} (same : left.Same other)
    (right : OrderedHash κ ν) : (left.merge right).Same (other.merge right) := by
  intro key
  rw [get?_merge, get?_merge, same key]

/-- A merge leaves the left hash the same exactly when every entry of the right one is already in
it. -/
theorem merge_same_left_iff (left right : OrderedHash κ ν) :
    (left.merge right).Same left ↔
      ∀ key value, right.get? key = some value → left.get? key = some value := by
  constructor
  · intro same key value found
    rw [← same key, get?_merge, found]
    rfl
  · intro present key
    rw [get?_merge]
    cases found : right.get? key with
    | none => rfl
    | some value => exact (present key value found).symm

end OrderedHash
