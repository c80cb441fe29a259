import Rjr.Verif.SiteTrees

/-!
# Results as a script should see them

A server writes a classed object as an object with exactly two members, its `json_class` and its
`data`. A script should see the class together with the members of the data, at every depth, and
everything else as it was written. The flattened tree differs from the tree that arrives wherever
there is such an object, because no tree is as high as what it is inside of; and a number can
differ because the browser holds every number as a binary64 word.
-/

namespace Rjr.Verif.SiteFlattening

open Site SiteCodec SiteTrees

/-! ## The form of the server -/

/-- The data of an object that has a class and `data` and nothing else, if its data is an
object. -/
def formData (members : List (String × Json)) : Option (List (String × Json)) :=
  match hasClass members &&
      members.all (fun member => member.1 = "json_class" || member.1 = "data"),
    members.lookup "data" with
  | true, some (.obj data) => some data
  | _, _ => none

/-- A classed object in the form of the server. -/
structure Form (members data : List (String × Json)) : Prop where
  /-- It has a class. -/
  classed : hasClass members = true
  /-- It has its data. -/
  found : members.lookup "data" = some (.obj data)
  /-- There is nothing else. -/
  nothing : ∀ key, key ≠ "json_class" → key ≠ "data" → members.lookup key = none

/-- No other name than these two is found. -/
theorem lookup_none_of_all {members : List (String × Json)}
    (names : members.all (fun member => member.1 = "json_class" || member.1 = "data") = true)
    {key : String} (notClass : key ≠ "json_class") (notData : key ≠ "data") :
    members.lookup key = none := by
  rw [List.all_eq_true] at names
  cases looked : members.lookup key with
  | none => rfl
  | some value =>
    have either := names (key, value) (mem_of_lookup looked)
    simp [notClass, notData] at either

/-- The data that was found is that of an object in form. -/
theorem form_of_formData {members data : List (String × Json)}
    (found : formData members = some data) : Form members data := by
  rw [formData] at found
  split at found
  · rename_i inner test looked
    cases found
    rw [Bool.and_eq_true] at test
    exact ⟨test.1, looked, fun key => lookup_none_of_all test.2⟩
  · cases found

/-! ## Flattening -/

/-- A class and the members of its data, which come after it. -/
def classWith (jsonClass : Json) (data : List (String × Json)) : Json :=
  .obj ((OrderedHash.empty.put "json_class" jsonClass).putAll data).entries

mutual

/-- A tree with every classed object in form flattened to its class and the members of its
data. -/
def flatten : Json → Json
  | .arr elements => .arr (flattenEach elements)
  | .obj members =>
    match formData members with
    | some _ => classWith (member "json_class" (flattenMembers members)) (flattenData members)
    | none => .obj (flattenMembers members)
  | value => value

/-- Elements, flattened one by one. -/
def flattenEach : List Json → List Json
  | [] => []
  | value :: rest => flatten value :: flattenEach rest

/-- Members, flattened one by one. -/
def flattenMembers : List (String × Json) → List (String × Json)
  | [] => []
  | (key, value) :: rest => (key, flatten value) :: flattenMembers rest

/-- The members of `data`, which is looked for among the members, flattened one by one. -/
def flattenData : List (String × Json) → List (String × Json)
  | [] => []
  | (key, value) :: rest => if key = "data" then flattenInside value else flattenData rest

/-- The members of an object, flattened one by one. -/
def flattenInside : Json → List (String × Json)
  | .obj members => flattenMembers members
  | _ => []

end

/-- An array is flattened element by element. -/
theorem flatten_arr (elements : List Json) :
    flatten (.arr elements) = .arr (elements.map flatten) := by
  rw [flatten]
  congr 1
  induction elements with
  | nil => rfl
  | cons value rest ih => rw [flattenEach, List.map_cons, ih]

/-- The members of an object are flattened one by one. -/
theorem flattenMembers_eq (members : List (String × Json)) :
    flattenMembers members = members.map fun member => (member.1, flatten member.2) := by
  induction members with
  | nil => rfl
  | cons member rest ih =>
    obtain ⟨key, value⟩ := member
    rw [flattenMembers, List.map_cons, ih]

/-- A member that is changed with the others is read under its name. -/
theorem member_mapValues (change : Json → Json) (null : change .null = .null) (key : String)
    (members : List (String × Json)) :
    member key (members.map fun member => (member.1, change member.2)) =
      change (member key members) := by
  rw [member, member, OrderedHash.lookup_mapValues]
  cases members.lookup key with
  | none => exact null.symm
  | some value => rfl

/-- An object in form is flattened to its class and the members of its data. -/
theorem flatten_form {members data : List (String × Json)}
    (found : formData members = some data) :
    flatten (.obj members) = classWith (flatten (member "json_class" members))
      (data.map fun member => (member.1, flatten member.2)) := by
  have form := form_of_formData found
  have inner : flattenData members = flattenMembers data := by
    rw [visit_data flattenData flattenInside (fun key value rest => by rw [flattenData]) form.found,
      flattenInside]
  rw [flatten, found, inner, flattenMembers_eq, flattenMembers_eq,
    member_mapValues flatten rfl]

/-- Another object is flattened member by member. -/
theorem flatten_other {members : List (String × Json)} (other : formData members = none) :
    flatten (.obj members) = .obj (members.map fun member => (member.1, flatten member.2)) := by
  rw [flatten, other, flattenMembers_eq]

/-- What is read from a class with the members of its data. -/
theorem lookup_classWith (jsonClass : Json) {data : List (String × Json)}
    (distinct : (data.map Prod.fst).Nodup) :
    ∃ entries, classWith jsonClass data = .obj entries ∧ (entries.map Prod.fst).Nodup ∧
      ∀ key, entries.lookup key =
        (data.lookup key).or (if key = "json_class" then some jsonClass else none) := by
  refine ⟨_, rfl, OrderedHash.distinct _, fun key => ?_⟩
  have read := OrderedHash.get?_merge (OrderedHash.empty.put "json_class" jsonClass)
    ⟨data, distinct⟩ key
  rw [OrderedHash.get?_put] at read
  exact read

/-- Objects with distinct names are equal when they answer alike under every name. -/
theorem deepEqual_obj_lookup_iff {left right : List (String × Json)}
    (distinct : (left.map Prod.fst).Nodup) :
    deepEqual (.obj left) (.obj right) = true ↔
      ∀ key, Option.Rel (fun value other => deepEqual value other = true)
        (left.lookup key) (right.lookup key) := by
  rw [deepEqual_obj_iff]
  constructor
  · rintro ⟨keys, each⟩ key
    cases found : left.lookup key with
    | some value =>
      obtain ⟨other, looked, equal⟩ := each _ (mem_of_lookup found)
      rw [looked]
      exact .some equal
    | none =>
      cases looked : right.lookup key with
      | none => exact .none
      | some other =>
        obtain ⟨member, inside, named⟩ :=
          List.mem_map.mp (keys key (List.mem_map.mpr ⟨_, mem_of_lookup looked, rfl⟩))
        have missing := List.lookup_eq_none_iff.mp found member inside
        simp [named] at missing
  · intro alike
    constructor
    · intro key inside
      have related := alike key
      cases found : left.lookup key with
      | some value => exact List.mem_map.mpr ⟨_, mem_of_lookup found, rfl⟩
      | none =>
        rw [found] at related
        cases looked : right.lookup key with
        | some other =>
          rw [looked] at related
          cases related
        | none =>
          obtain ⟨member, listed, named⟩ := List.mem_map.mp inside
          have missing := List.lookup_eq_none_iff.mp looked member listed
          simp [named] at missing
    · intro member inside
      have related := alike member.1
      rw [lookup_of_mem distinct inside] at related
      cases looked : right.lookup member.1 with
      | none =>
        rw [looked] at related
        cases related
      | some other =>
        rw [looked] at related
        cases related with
        | some equal => exact ⟨other, rfl, equal⟩

/-! ## Parts of an object in form -/

section Parts

variable {members data : List (String × Json)}

/-- A member of the data of an object: it is lower than the object, and as well formed. -/
theorem form_data (form : Form members data) (formed : wellFormed (.obj members) = true)
    {entry : String × Json} (inside : entry ∈ data) :
    height entry.2 < height (.obj members) ∧ wellFormed entry.2 = true := by
  have within : ("data", Json.obj data) ∈ members := mem_of_lookup form.found
  have lower := height_member inside
  have outer := height_member within
  have formedData := ((wellFormed_obj_iff members).mp formed).2 _ within
  simp only at outer
  exact ⟨by omega, ((wellFormed_obj_iff data).mp formedData).2 entry inside⟩

/-- The class of an object: it is lower than the object, and as well formed. -/
theorem form_class (formed : wellFormed (.obj members) = true) :
    height (member "json_class" members) < height (.obj members) ∧
      wellFormed (member "json_class" members) = true := by
  rw [member]
  cases found : members.lookup "json_class" with
  | none => exact ⟨Nat.succ_pos _, rfl⟩
  | some own =>
    have inside : ("json_class", own) ∈ members := mem_of_lookup found
    exact ⟨height_member inside, ((wellFormed_obj_iff members).mp formed).2 _ inside⟩

/-- The names of the data are distinct. -/
theorem form_distinct (form : Form members data) (formed : wellFormed (.obj members) = true) :
    (data.map Prod.fst).Nodup := by
  have formedData := ((wellFormed_obj_iff members).mp formed).2 _ (mem_of_lookup form.found)
  exact ((wellFormed_obj_iff data).mp formedData).1

/-- The data as it is flattened has distinct names. -/
theorem form_distinct_flat (form : Form members data) (formed : wellFormed (.obj members) = true) :
    ((data.map fun member => (member.1, flatten member.2)).map Prod.fst).Nodup := by
  rw [keys_mapValues]
  exact form_distinct form formed

end Parts

/-- Flattening makes no tree higher. -/
theorem height_flatten (value : Json) : wellFormed value = true →
    height (flatten value) ≤ height value := by
  induction value using height_induct with
  | step value ih =>
    intro formed
    cases value with
    | null | bool | int | float | str | object => exact Nat.le_refl _
    | arr elements =>
      rw [wellFormed_arr_iff] at formed
      have positive : 0 < height (.arr elements) := Nat.succ_pos _
      rw [flatten_arr]
      refine height_arr_le (List.forall_mem_map.mpr fun value inside => ?_) positive
      have lower := height_element inside
      have own := ih value lower (formed value inside)
      omega
    | obj members =>
      have positive : 0 < height (.obj members) := Nat.succ_pos _
      cases found : formData members with
      | none =>
        rw [flatten_other found]
        refine height_obj_le (List.forall_mem_map.mpr fun member inside => ?_) positive
        have lower := height_member inside
        have own := ih member.2 lower (((wellFormed_obj_iff members).mp formed).2 member inside)
        simp only
        omega
      | some data =>
        have form := form_of_formData found
        rw [flatten_form found]
        obtain ⟨entries, same, distinct, looked⟩ :=
          lookup_classWith (flatten (member "json_class" members))
            (form_distinct_flat form formed)
        rw [same]
        refine height_obj_le (fun entry inside => ?_) positive
        have read := lookup_of_mem distinct inside
        rw [looked, Option.or_eq_some_iff, OrderedHash.lookup_mapValues,
          Option.map_eq_some_iff] at read
        rcases read with ⟨value, own, flat⟩ | ⟨-, named⟩
        · obtain ⟨lower, formedEntry⟩ := form_data form formed (mem_of_lookup own)
          have bounded := ih value lower formedEntry
          rw [← flat]
          simp only at lower
          omega
        · rw [Option.ite_none_right_eq_some, Option.some.injEq] at named
          obtain ⟨lower, formedClass⟩ := form_class formed
          have bounded := ih _ lower formedClass
          rw [← named.2]
          omega

/-! ## Numbers -/

section Numbers

variable (number : Int → Json)

/-- What is read for an integer is a number, which is zero only for zero. -/
structure Numeric : Prop where
  /-- It is a number. -/
  scalar : ∀ integer, (∃ other, number integer = .int other) ∨ ∃ word, number integer = .float word
  /-- It is falsy only if the integer is. -/
  zero : ∀ integer, truthy (number integer) = truthy (.int integer)

mutual

/-- A tree as it is read, with each integer as the number that is read for it. -/
def asRead : Json → Json
  | .int integer => number integer
  | .arr elements => .arr (asReadEach elements)
  | .obj members => .obj (asReadMembers members)
  | value => value

/-- Elements as they are read. -/
def asReadEach : List Json → List Json
  | [] => []
  | value :: rest => asRead value :: asReadEach rest

/-- Members as they are read. -/
def asReadMembers : List (String × Json) → List (String × Json)
  | [] => []
  | (key, value) :: rest => (key, asRead value) :: asReadMembers rest

end

/-- An array is read element by element. -/
theorem asRead_arr (elements : List Json) :
    asRead number (.arr elements) = .arr (elements.map (asRead number)) := by
  rw [asRead]
  congr 1
  induction elements with
  | nil => rfl
  | cons value rest ih => rw [asReadEach, List.map_cons, ih]

/-- An object is read member by member. -/
theorem asRead_obj (members : List (String × Json)) :
    asRead number (.obj members) =
      .obj (members.map fun member => (member.1, asRead number member.2)) := by
  rw [asRead]
  congr 1
  induction members with
  | nil => rfl
  | cons member rest ih =>
    obtain ⟨key, value⟩ := member
    rw [asReadMembers, List.map_cons, ih]

variable {number}

/-- A condition is passed by what is read if it is passed by what is written. -/
theorem truthy_asRead (numeric : Numeric number) (value : Json) :
    truthy (asRead number value) = truthy value := by
  cases value with
  | int integer => exact numeric.zero integer
  | _ => rfl

/-- Only `null` is read as `null`. -/
theorem isNil_asRead (numeric : Numeric number) (value : Json) :
    (asRead number value).isNil = value.isNil := by
  cases value with
  | int integer =>
    rcases numeric.scalar integer with ⟨other, same⟩ | ⟨word, same⟩ <;> rw [asRead, same] <;> rfl
  | _ => rfl

/-- Nothing else than `null` is read as `null`. -/
theorem asRead_eq_null_iff (numeric : Numeric number) (value : Json) :
    asRead number value = .null ↔ value = .null := by
  have same := isNil_asRead numeric value
  constructor
  · intro read
    rw [read] at same
    cases value with
    | null => rfl
    | _ => cases same
  · rintro rfl
    rfl

/-- A classed object is read as one. -/
theorem isJrObject_asRead (numeric : Numeric number) (value : Json) :
    isJrObject (asRead number value) = isJrObject value := by
  cases value with
  | int integer =>
    rcases numeric.scalar integer with ⟨other, same⟩ | ⟨word, same⟩ <;> rw [asRead, same] <;> rfl
  | obj members =>
    rw [asRead_obj, isJrObject, member_mapValues _ rfl, truthy_asRead numeric, isJrObject]
  | _ => rfl

/-- What is taken for an array is read as such. -/
theorem isArray_asRead (numeric : Numeric number) (value : Json) :
    isArray (asRead number value) = isArray value := by
  cases value with
  | int integer =>
    rcases numeric.scalar integer with ⟨other, same⟩ | ⟨word, same⟩ <;> rw [asRead, same] <;> rfl
  | obj members =>
    rw [asRead_obj, isArray, member_mapValues _ rfl, isNil_asRead numeric, isArray]
  | _ => rfl

/-- A tree is read as high as it is written. -/
theorem height_asRead (value : Json) :
    height value ≤ height (asRead number value) := by
  induction value using Json.induct with
  | null | bool | int | float | str | object => exact Nat.zero_le _
  | arr elements ih =>
    rw [asRead_arr]
    refine height_arr_le (fun value inside => ?_) (Nat.succ_pos _)
    have higher := height_element (List.mem_map_of_mem (f := asRead number) inside)
    have own := ih value inside
    omega
  | obj members ih =>
    rw [asRead_obj]
    refine height_obj_le (fun member inside => ?_) (Nat.succ_pos _)
    have higher := height_member
      (List.mem_map_of_mem (f := fun member => (member.1, asRead number member.2)) inside)
    have own := ih member inside
    simp only at higher
    omega

variable (number)

/-- Whether a value is neither an object in form nor an integer that is read as another number. -/
def untouched : Json → Bool
  | .obj members => (formData members).isNone
  | .int integer => deepEqual (number integer) (.int integer)
  | _ => true

/-- A tree has no object in form, and its integers are read as they are. -/
def flat : Json → Bool := everyNode (untouched number)

/-- What is read equals the flattened tree exactly when the tree is flat: an object in form would
have to have its data inside of that data. -/
theorem deepEqual_flatten_iff (value : Json) :
    wellFormed value = true →
      (deepEqual (asRead number value) (flatten value) = true ↔ flat number value = true) := by
  induction value using Json.induct with
  | null | bool | float | str =>
    intro _
    exact iff_of_true (by simp [asRead, flatten, deepEqual]) rfl
  | object => intro formed; cases formed
  | int integer => intro _; exact Iff.rfl
  | arr elements ih =>
    intro formed
    rw [wellFormed_arr_iff] at formed
    rw [asRead_arr, flatten_arr, deepEqual, deepEqualElements_iff, List.forall₂_map_left_iff,
      List.forall₂_map_right_iff, List.forall₂_same, flat, everyNode_arr_iff]
    exact (forall₂_congr fun value inside => ih value inside (formed value inside)).trans
      (and_iff_right rfl).symm
  | obj members ih =>
    intro formed
    obtain ⟨distinct, each⟩ := (wellFormed_obj_iff members).mp formed
    rw [flat, everyNode_obj_iff, untouched, asRead_obj]
    cases found : formData members with
    | none =>
      have aligned : (members.map fun member => (member.1, asRead number member.2)).map Prod.fst =
          (members.map fun member => (member.1, flatten member.2)).map Prod.fst := by
        rw [keys_mapValues, keys_mapValues]
      have flatDistinct :
          ((members.map fun member => (member.1, flatten member.2)).map Prod.fst).Nodup := by
        rw [keys_mapValues]
        exact distinct
      rw [flatten_other found, deepEqual_aligned_iff flatDistinct aligned,
        List.forall₂_map_left_iff, List.forall₂_map_right_iff, List.forall₂_same]
      refine Iff.trans ?_ (and_iff_right rfl).symm
      refine forall₂_congr fun member inside => ?_
      exact (and_iff_right rfl).trans (ih member inside (each member inside))
    | some data =>
      refine iff_of_false ?_ fun both => Bool.noConfusion both.1
      intro same
      have form := form_of_formData found
      obtain ⟨entries, written, -, looked⟩ :=
        lookup_classWith (flatten (member "json_class" members)) (form_distinct_flat form formed)
      have own : ("data", asRead number (.obj data)) ∈
          members.map fun member => (member.1, asRead number member.2) :=
        List.mem_map.mpr ⟨_, mem_of_lookup form.found, rfl⟩
      rw [flatten_form found, written] at same
      obtain ⟨other, read, equal⟩ := ((deepEqual_obj_iff _ _).mp same).2 _ own
      have notClass : ¬"data" = "json_class" := by decide
      rw [looked, if_neg notClass, Option.or_none, OrderedHash.lookup_mapValues,
        Option.map_eq_some_iff] at read
      obtain ⟨inner, inside, rfl⟩ := read
      obtain ⟨-, formedInner⟩ := form_data form formed (mem_of_lookup inside)
      have lower := height_member (mem_of_lookup inside)
      have bounded := height_le_of_deepEqual _ _ equal
      have higher : height (.obj data) ≤ height (asRead number (.obj data)) := height_asRead _
      have flattened := height_flatten inner formedInner
      simp only at lower bounded
      omega

end Numbers

/-! ## Data inside of data -/

/-- One if an object has a member that is neither its class nor its data. -/
def wide (members : List (String × Json)) : Nat :=
  if members.all (fun member => member.1 = "json_class" || member.1 = "data") then 0 else 1

mutual

/-- The number of wide objects on the way from member `data` to member `data`, as far as there
is one. -/
def tower : Json → Nat
  | .obj members => towerData (wide members) members
  | _ => 0

/-- The rest of the way, from the members of an object. -/
def towerData (own : Nat) : List (String × Json) → Nat
  | [] => 0
  | (key, value) :: rest => if key = "data" then own + tower value else towerData own rest

end

/-- The way goes on at the data of an object. -/
theorem tower_found {members : List (String × Json)} {data : Json}
    (found : members.lookup "data" = some data) :
    tower (.obj members) = wide members + tower data := by
  rw [tower, visit_data (towerData (wide members)) (fun value => wide members + tower value)
    (fun key value rest => by rw [towerData]) found]

/-- The way ends where there is no data. -/
theorem tower_none {members : List (String × Json)} (missing : members.lookup "data" = none) :
    tower (.obj members) = 0 := by
  rw [tower]
  generalize wide members = own
  induction members with
  | nil => rfl
  | cons entry rest ih =>
    rw [OrderedHash.lookup_cons_if] at missing
    by_cases named : "data" = entry.1
    · rw [if_pos named] at missing
      cases missing
    · rw [if_neg named] at missing
      rw [towerData, if_neg fun same => named same.symm, ih missing]

/-- An object that has the other names of a second one is at least as wide. -/
theorem wide_le {left right : List (String × Json)}
    (names : ∀ key, key ≠ "json_class" → key ≠ "data" →
      key ∈ left.map Prod.fst → key ∈ right.map Prod.fst) : wide left ≤ wide right := by
  rw [wide, wide]
  split
  · exact Nat.zero_le _
  · rename_i other
    rw [if_neg]
    intro all
    apply other
    rw [List.all_eq_true] at all ⊢
    intro member inside
    by_contra outside
    simp only [Bool.or_eq_true, decide_eq_true_eq, not_or] at outside
    obtain ⟨found, listed, same⟩ := List.mem_map.mp
      (names member.1 outside.1 outside.2 (List.mem_map_of_mem inside))
    have either := all found listed
    rw [same] at either
    simp [outside.1, outside.2] at either

/-- Deeply equal trees have equally long ways. -/
theorem tower_of_deepEqual (left : Json) : ∀ right : Json, deepEqual left right = true →
    tower left = tower right := by
  induction left using Json.induct with
  | null | bool | int | float | str | object | arr =>
    intro right same
    cases right <;> first | rfl | cases same
  | obj members ih =>
    intro right same
    cases right with
    | obj others =>
      obtain ⟨keys, each⟩ := (deepEqual_obj_iff _ _).mp same
      have back : ∀ key ∈ members.map Prod.fst, key ∈ others.map Prod.fst := by
        intro key inside
        obtain ⟨member, listed, rfl⟩ := List.mem_map.mp inside
        obtain ⟨other, found, -⟩ := each member listed
        exact List.mem_map.mpr ⟨_, mem_of_lookup found, rfl⟩
      have width : wide members = wide others :=
        Nat.le_antisymm (wide_le fun key _ _ => back key) (wide_le fun key _ _ => keys key)
      cases found : members.lookup "data" with
      | some data =>
        have inside := mem_of_lookup found
        obtain ⟨other, looked, equal⟩ := each _ inside
        rw [tower_found found, tower_found looked, width, ih _ inside other equal]
      | none =>
        cases looked : others.lookup "data" with
        | none => rw [tower_none found, tower_none looked]
        | some other =>
          obtain ⟨member, inside, named⟩ :=
            List.mem_map.mp (keys "data" (List.mem_map.mpr ⟨_, mem_of_lookup looked, rfl⟩))
          have missing := List.lookup_eq_none_iff.mp found member inside
          simp [named] at missing
    | _ => cases same

/-- Members that are changed one by one are as wide. -/
theorem wide_mapValues (change : Json → Json) (members : List (String × Json)) :
    wide (members.map fun member => (member.1, change member.2)) = wide members := by
  apply Nat.le_antisymm <;>
    exact wide_le fun key _ _ inside => by rwa [keys_mapValues] at *

/-- Flattening does not change the length of the way: what is left out is not wide. -/
theorem tower_flatten (value : Json) : wellFormed value = true →
    tower (flatten value) = tower value := by
  induction value using height_induct with
  | step value ih =>
    intro formed
    cases value with
    | null | bool | int | float | str | object => rfl
    | arr elements =>
      rw [flatten_arr]
      rfl
    | obj members =>
      cases found : formData members with
      | none =>
        have looked := OrderedHash.lookup_mapValues flatten members "data"
        rw [flatten_other found]
        cases own : members.lookup "data" with
        | none =>
          rw [own] at looked
          rw [tower_none own, tower_none looked]
        | some data =>
          have inside := mem_of_lookup own
          have lower := height_member inside
          rw [own] at looked
          rw [tower_found own, tower_found looked, wide_mapValues,
            ih data lower (((wellFormed_obj_iff members).mp formed).2 _ inside)]
      | some data =>
        have form := form_of_formData found
        have narrow : wide members = 0 := by
          rw [formData] at found
          split at found
          · rename_i test _
            rw [Bool.and_eq_true] at test
            rw [wide, if_pos test.2]
          · cases found
        obtain ⟨entries, same, distinct, looked⟩ :=
          lookup_classWith (flatten (member "json_class" members))
            (form_distinct_flat form formed)
        have read := looked "data"
        have notClass : ¬"data" = "json_class" := by decide
        rw [if_neg notClass, Option.or_none, OrderedHash.lookup_mapValues] at read
        rw [flatten_form found, same, tower_found form.found, narrow, Nat.zero_add]
        cases own : data.lookup "data" with
        | none =>
          rw [own] at read
          rw [tower_none own, tower_none read]
        | some inner =>
          obtain ⟨lower, formedInner⟩ := form_data form formed (mem_of_lookup own)
          have width : wide entries = wide data := by
            apply Nat.le_antisymm <;> refine wide_le fun key notClass _ inside => ?_
            · obtain ⟨entry, listed, rfl⟩ := List.mem_map.mp inside
              have named := lookup_of_mem distinct listed
              rw [looked, if_neg notClass, Option.or_none, OrderedHash.lookup_mapValues,
                Option.map_eq_some_iff] at named
              obtain ⟨value, found, -⟩ := named
              exact List.mem_map.mpr ⟨_, mem_of_lookup found, rfl⟩
            · obtain ⟨entry, listed, rfl⟩ := List.mem_map.mp inside
              have named := lookup_of_mem (form_distinct form formed) listed
              have kept := looked entry.1
              rw [OrderedHash.lookup_mapValues, named, Option.map_some, Option.some_or] at kept
              exact List.mem_map.mpr ⟨_, mem_of_lookup kept, rfl⟩
          rw [own] at read
          rw [tower_found own, tower_found read, width, ih inner lower formedInner]

end Rjr.Verif.SiteFlattening
