import Rjr.Verif.SiteCodec

/-!
# Trees with classed objects

What the results about the converters and the parsers of `site/jrw.js` share. An object has a
class when it has the member `json_class`, whatever its value; the script asks for more, that the
value is truthy. Where a classed object is left in another form than it should have, the two forms
differ because one is higher than the other: `height` is what tells them apart.
-/

namespace Rjr.Verif.SiteTrees

open Site SiteCodec

/-! ## Every depth -/

mutual

/-- A tree and all that is inside of it pass a test. -/
def everyNode (holds : Json → Bool) : Json → Bool
  | .arr elements => holds (.arr elements) && everyElement holds elements
  | .obj members => holds (.obj members) && everyMember holds members
  | value => holds value

/-- The elements and all that is inside of them pass. -/
def everyElement (holds : Json → Bool) : List Json → Bool
  | [] => true
  | value :: rest => everyNode holds value && everyElement holds rest

/-- The members and all that is inside of them pass. -/
def everyMember (holds : Json → Bool) : List (String × Json) → Bool
  | [] => true
  | (_, value) :: rest => everyNode holds value && everyMember holds rest

end

/-- Inside of an array are its elements. -/
theorem everyNode_arr_iff (holds : Json → Bool) (elements : List Json) :
    everyNode holds (.arr elements) = true ↔
      holds (.arr elements) = true ∧ ∀ value ∈ elements, everyNode holds value = true := by
  have each : everyElement holds elements = true ↔
      ∀ value ∈ elements, everyNode holds value = true := by
    induction elements with
    | nil => simp [everyElement]
    | cons value rest ih => simp [everyElement, ih]
  rw [everyNode, Bool.and_eq_true, each]

/-- Inside of an object are its members. -/
theorem everyNode_obj_iff (holds : Json → Bool) (members : List (String × Json)) :
    everyNode holds (.obj members) = true ↔
      holds (.obj members) = true ∧ ∀ member ∈ members, everyNode holds member.2 = true := by
  have each : everyMember holds members = true ↔
      ∀ member ∈ members, everyNode holds member.2 = true := by
    induction members with
    | nil => simp [everyMember]
    | cons member rest ih =>
      obtain ⟨key, value⟩ := member
      simp [everyMember, ih]
  rw [everyNode, Bool.and_eq_true, each]

/-- Whether an object has the member `json_class`. -/
def hasClass (members : List (String × Json)) : Bool := (members.lookup "json_class").isSome

/-- Whether a value is something else than an object with a class. -/
def notClassed : Json → Bool
  | .obj members => !hasClass members
  | _ => true

/-- No object of a tree has a class. -/
def unclassed : Json → Bool := everyNode notClassed

/-- An array has no classed object when no element has one. -/
theorem unclassed_arr_iff (elements : List Json) :
    unclassed (.arr elements) = true ↔ ∀ value ∈ elements, unclassed value = true := by
  rw [unclassed, everyNode_arr_iff]
  exact and_iff_right rfl

/-- An object has no classed object when it is none and no member has one. -/
theorem unclassed_obj_iff (members : List (String × Json)) :
    unclassed (.obj members) = true ↔
      hasClass members = false ∧ ∀ member ∈ members, unclassed member.2 = true := by
  rw [unclassed, everyNode_obj_iff, notClassed, Bool.not_eq_true']

/-- Whether a value is something else than an object with a member `__proto__`. -/
def withoutProto : Json → Bool
  | .obj members => !(members.map Prod.fst).contains "__proto__"
  | _ => true

/-- No member of a tree is named `__proto__`. -/
def ordinary : Json → Bool := everyNode withoutProto

/-- A value that a script builds: JSON can express it, and no member is named `__proto__`. -/
structure ScriptValue where
  /-- The value. -/
  tree : Json
  /-- Names are distinct and numbers are finite. -/
  formed : wellFormed tree = true
  /-- `$.extend` would assign the prototype instead of a member of that name. -/
  ordinary : ordinary tree = true

/-! ## Height -/

mutual

/-- How deep a tree is. -/
def height : Json → Nat
  | .arr elements => heightElements elements + 1
  | .obj members => heightMembers members + 1
  | _ => 0

/-- How deep the deepest element is. -/
def heightElements : List Json → Nat
  | [] => 0
  | value :: rest => max (height value) (heightElements rest)

/-- How deep the deepest member is. -/
def heightMembers : List (String × Json) → Nat
  | [] => 0
  | (_, value) :: rest => max (height value) (heightMembers rest)

end

/-- An array is higher than its elements, and not more than that. -/
theorem height_arr_le_iff (elements : List Json) (bound : Nat) :
    height (.arr elements) ≤ bound + 1 ↔ ∀ value ∈ elements, height value ≤ bound := by
  rw [height, Nat.add_le_add_iff_right]
  induction elements with
  | nil => simp [heightElements]
  | cons value rest ih => rw [heightElements, Nat.max_le, ih, List.forall_mem_cons]

/-- An object is higher than its members, and not more than that. -/
theorem height_obj_le_iff (members : List (String × Json)) (bound : Nat) :
    height (.obj members) ≤ bound + 1 ↔ ∀ member ∈ members, height member.2 ≤ bound := by
  rw [height, Nat.add_le_add_iff_right]
  induction members with
  | nil => simp [heightMembers]
  | cons member rest ih =>
    obtain ⟨key, value⟩ := member
    rw [heightMembers, Nat.max_le, ih, List.forall_mem_cons]

/-- An element is lower than the array. -/
theorem height_element {elements : List Json} {value : Json} (inside : value ∈ elements) :
    height value < height (.arr elements) := by
  have below :=
    (height_arr_le_iff elements (heightElements elements)).mp (Nat.le_refl _) value inside
  rw [height]
  omega

/-- A member is lower than the object. -/
theorem height_member {members : List (String × Json)} {member : String × Json}
    (inside : member ∈ members) : height member.2 < height (.obj members) := by
  have below := (height_obj_le_iff members (heightMembers members)).mp (Nat.le_refl _) member inside
  rw [height]
  omega

/-- An array is not higher than something above all its elements. -/
theorem height_arr_le {elements : List Json} {bound : Nat}
    (below : ∀ value ∈ elements, height value < bound) (positive : 0 < bound) :
    height (.arr elements) ≤ bound := by
  obtain ⟨previous, rfl⟩ := Nat.exists_eq_add_of_lt positive
  rw [Nat.zero_add, height_arr_le_iff]
  intro value inside
  have less := below value inside
  omega

/-- An object is not higher than something above all its members. -/
theorem height_obj_le {members : List (String × Json)} {bound : Nat}
    (below : ∀ member ∈ members, height member.2 < bound) (positive : 0 < bound) :
    height (.obj members) ≤ bound := by
  obtain ⟨previous, rfl⟩ := Nat.exists_eq_add_of_lt positive
  rw [Nat.zero_add, height_obj_le_iff]
  intro member inside
  have less := below member inside
  omega

/-- Induction over trees, with the hypothesis for every lower tree. -/
theorem height_induct {motive : Json → Prop}
    (step : ∀ value, (∀ lower, height lower < height value → motive lower) → motive value)
    (value : Json) : motive value :=
  (measure height).wf.induction value step

/-- Deeply equal trees are not of different height. -/
theorem height_le_of_deepEqual (left : Json) : ∀ right : Json, deepEqual left right = true →
    height left ≤ height right := by
  induction left using Json.induct with
  | null | bool | int | float | str | object => intro right _; exact Nat.zero_le _
  | arr elements ih =>
    intro right same
    cases right with
    | arr others =>
      rw [deepEqual, deepEqualElements_iff] at same
      have positive : 0 < height (.arr others) := Nat.succ_pos _
      refine height_arr_le ?_ positive
      intro value inside
      obtain ⟨other, own, equal⟩ := Traversal.exists_of_mem_left same inside
      have higher := height_element own
      have le := ih value inside other equal
      omega
    | _ => cases same
  | obj members ih =>
    intro right same
    cases right with
    | obj others =>
      rw [deepEqual_obj_iff] at same
      have positive : 0 < height (.obj others) := Nat.succ_pos _
      refine height_obj_le ?_ positive
      intro member inside
      obtain ⟨other, found, equal⟩ := same.2 member inside
      have higher := height_member (mem_of_lookup found)
      have le := ih member inside other equal
      simp only at higher
      omega
    | _ => cases same

/-! ## Members by name -/

/-- A search for the first member `data` finds the one that is looked up. -/
theorem visit_data {β : Type} (visit : List (String × Json) → β) (inside : Json → β)
    (step : ∀ key value rest,
      visit ((key, value) :: rest) = if key = "data" then inside value else visit rest)
    {members : List (String × Json)} {data : Json} (found : members.lookup "data" = some data) :
    visit members = inside data := by
  induction members with
  | nil => cases found
  | cons entry rest ih =>
    obtain ⟨key, value⟩ := entry
    rw [OrderedHash.lookup_cons_if] at found
    rw [step]
    by_cases named : key = "data"
    · rw [if_pos named.symm, Option.some.injEq] at found
      rw [if_pos named, found]
    · rw [if_neg fun same => named same.symm] at found
      rw [if_neg named, ih found]

/-- Objects with the same names in the same order are equal when their members are, one by one. -/
theorem deepEqual_aligned_iff {left right : List (String × Json)}
    (distinct : (right.map Prod.fst).Nodup) (aligned : left.map Prod.fst = right.map Prod.fst) :
    deepEqual (.obj left) (.obj right) = true ↔ List.Forall₂ Same left right := by
  rw [deepEqual_obj_iff, forall_lookup_iff distinct (fun _ inside => inside) aligned, aligned]
  exact and_iff_right fun _ inside => inside

/-- Members that are changed one by one keep their names. -/
theorem keys_mapValues (change : Json → Json) (members : List (String × Json)) :
    (members.map fun member => (member.1, change member.2)).map Prod.fst =
      members.map Prod.fst := by
  rw [List.map_map]
  rfl

/-- The properties of changed members are the changed properties. -/
theorem properties_mapValues (change : Json → Json) (members : List (String × Json)) :
    properties (members.map fun member => (member.1, change member.2)) =
      (properties members).map fun member => (member.1, change member.2) := by
  rw [properties, properties, List.filter_map]
  rfl

/-- The converted properties have the names of the properties. -/
theorem written_keys {engine : Engine} {members data : List (String × Json)}
    (forth : List.Forall₂ (Written engine) (properties members) data) :
    data.map Prod.fst = (properties members).map Prod.fst :=
  (Traversal.keys_forall₂ (forth.imp fun _ _ both => both.1)).symm

/-- The properties of an object with distinct names have distinct names. -/
theorem properties_distinct {members : List (String × Json)}
    (distinct : (members.map Prod.fst).Nodup) : ((properties members).map Prod.fst).Nodup :=
  distinct.sublist (List.filter_sublist.map Prod.fst)

/-- With distinct names, the class is a member of that name. -/
theorem class_unique {members : List (String × Json)} (distinct : (members.map Prod.fst).Nodup)
    {entry : String × Json} (inside : entry ∈ members) (named : entry.1 = "json_class") :
    member "json_class" members = entry.2 := by
  have found : members.lookup entry.1 = some entry.2 := lookup_of_mem distinct inside
  rw [member, ← named, found]
  rfl

end Rjr.Verif.SiteTrees
