import Rjr.Json

/-!
# Values in the browser

`site/jrw.js` works on the trees that JSON can express; the instantiated objects of Ruby do not
reach it. A member that an object does not have reads as `undefined`; no test of the script tells
it from `null`, so it reads as `null` here. The tests the script dispatches on are duck-typed: an
object with a truthy `json_class` is a classed object, and whatever else has a `length` is an
array.
-/

namespace Rjr.Site

/-- What the script can throw. -/
inductive Thrown where
  /-- A member of `null` or `undefined` was read, or something else than a function was called. -/
  | typeError
  /-- An array was given an impossible length. -/
  | rangeError
  /-- A text was not JSON. -/
  | syntaxError
  /-- Something was sent on a socket that is still connecting. -/
  | invalidStateError
  deriving DecidableEq, Repr

/-- Conversions of values that the language makes, where a value is used for a number or a text. -/
structure Engine where
  /-- How many of the indexes `0`, `1`, … a comparison with `<` finds below a value. -/
  bound : Json → Except Thrown Nat
  /-- The length of an array whose `length` was assigned a value. -/
  arrayLength : Json → Except Thrown Nat
  /-- The characters of a string, by index. -/
  characters : String → List String
  /-- A value other than a string, as the name of a member. -/
  text : Json → String

/-- Whether a value passes a condition. -/
def truthy : Json → Bool
  | .null => false
  | .bool flag => flag
  | .int number => number != 0
  | .float word =>
    -- Without the sign, zero is the least word, and the words above infinity are not numbers.
    let magnitude := word &&& 0x7fffffffffffffff
    magnitude != 0 && magnitude ≤ 0x7ff0000000000000
  | .str text => text != ""
  | .arr _ | .obj _ | .object _ _ => true

/-- A member of an object. -/
def member (key : String) (members : List (String × Json)) : Json :=
  (members.lookup key).getD .null

/-- `RJR.is_jr_object`. -/
def isJrObject : Json → Bool
  | .obj members => truthy (member "json_class" members)
  | _ => false

/-- `RJR.is_array`. -/
def isArray : Json → Bool
  | .arr _ => true
  | .obj members => !(member "length" members).isNil
  | _ => false

/-- `target[key] = value` for the members of an object in turn. To assign `__proto__` sets the
prototype and makes no member. -/
def assignAll (target : OrderedHash String Json) (members : List (String × Json)) :
    OrderedHash String Json :=
  target.putAll (members.filter fun member => member.1 != "__proto__")

/-- Fresh members are appended, when none is `__proto__`. -/
theorem assignAll_entries {target : OrderedHash String Json} {members : List (String × Json)}
    (distinct : (members.map Prod.fst).Nodup)
    (fresh : ∀ key ∈ members.map Prod.fst, key ∉ target.keys)
    (ordinary : "__proto__" ∉ members.map Prod.fst) :
    (assignAll target members).entries = target.entries ++ members := by
  have kept : members.filter (fun member => member.1 != "__proto__") = members := by
    rw [List.filter_eq_self]
    intro member inside
    rw [bne_iff_ne]
    intro named
    exact ordinary (List.mem_map.mpr ⟨member, inside, named⟩)
  rw [assignAll, kept]
  exact OrderedHash.putAll_absent members target distinct fresh

/-- A name that is not assigned reads as before. -/
theorem get?_assignAll_absent {target : OrderedHash String Json} {members : List (String × Json)}
    {key : String} (absent : key ∉ members.map Prod.fst) :
    (assignAll target members).get? key = target.get? key := by
  have missing : (members.filter fun member => member.1 != "__proto__").reverse.lookup key =
      none := by
    rw [List.lookup_eq_none_iff]
    intro member inside
    rw [List.mem_reverse] at inside
    rw [bne_iff_ne]
    intro same
    exact absent (List.mem_map.mpr ⟨member, List.mem_of_mem_filter inside, same.symm⟩)
  rw [assignAll, OrderedHash.get?_putAll, missing]
  rfl

/-- A member is one of those assigned or was there before. -/
theorem mem_assignAll {target : OrderedHash String Json} {members : List (String × Json)}
    {entry : String × Json} (inside : entry ∈ (assignAll target members).entries) :
    entry ∈ members ∨ entry ∈ target.entries := by
  rw [← OrderedHash.get?_eq_some_iff, assignAll, OrderedHash.get?_putAll,
    Option.or_eq_some_iff] at inside
  rcases inside with found | ⟨-, found⟩
  · obtain ⟨before, after, split, -⟩ := List.lookup_eq_some_iff.mp found
    have listed : entry ∈ (members.filter fun member => member.1 != "__proto__").reverse := by
      rw [split]
      simp
    rw [List.mem_reverse] at listed
    exact .inl (List.mem_of_mem_filter listed)
  · exact .inr ((target.get?_eq_some_iff entry.1 entry.2).mp found)

/-- No member named `__proto__` is made. -/
theorem proto_not_mem_assignAll {target : OrderedHash String Json}
    (members : List (String × Json)) (ordinary : "__proto__" ∉ target.keys) :
    "__proto__" ∉ (assignAll target members).keys := by
  rw [← OrderedHash.get?_eq_none_iff] at ordinary ⊢
  have dropped : (members.filter fun member => member.1 != "__proto__").reverse.lookup
      "__proto__" = none := by
    rw [List.lookup_eq_none_iff]
    intro member inside
    simp only [List.mem_reverse, List.mem_filter, bne_iff_ne] at inside
    simpa using inside.2.symm
  rw [assignAll, OrderedHash.get?_putAll, dropped, ordinary]
  rfl

/-! ## Well-formed trees -/

mutual

/-- A tree that JSON can express: the members of an object have distinct names, and numbers are
finite. -/
def wellFormed : Json → Bool
  | .null | .bool _ | .int _ | .str _ => true
  | .float word => Json.finiteWord word
  | .arr elements => wellFormedElements elements
  | .obj members => decide (members.map Prod.fst).Nodup && wellFormedMembers members
  | .object _ _ => false

/-- All elements are well formed. -/
def wellFormedElements : List Json → Bool
  | [] => true
  | value :: rest => wellFormed value && wellFormedElements rest

/-- All members are well formed. -/
def wellFormedMembers : List (String × Json) → Bool
  | [] => true
  | (_, value) :: rest => wellFormed value && wellFormedMembers rest

end

/-- An array is well formed when its elements are. -/
theorem wellFormed_arr_iff (elements : List Json) :
    wellFormed (.arr elements) = true ↔ ∀ value ∈ elements, wellFormed value = true := by
  rw [wellFormed]
  induction elements with
  | nil => simp [wellFormedElements]
  | cons value rest ih => simp [wellFormedElements, ih]

/-- An object is well formed when its names are distinct and its values are well formed. -/
theorem wellFormed_obj_iff (members : List (String × Json)) :
    wellFormed (.obj members) = true ↔
      (members.map Prod.fst).Nodup ∧ ∀ member ∈ members, wellFormed member.2 = true := by
  rw [wellFormed, Bool.and_eq_true, decide_eq_true_eq]
  have each : wellFormedMembers members = true ↔
      ∀ member ∈ members, wellFormed member.2 = true := by
    induction members with
    | nil => simp [wellFormedMembers]
    | cons member rest ih =>
      obtain ⟨key, value⟩ := member
      simp [wellFormedMembers, ih]
  rw [each]

/-- With distinct names, a member is found under its name. -/
theorem lookup_of_mem {members : List (String × Json)} (distinct : (members.map Prod.fst).Nodup)
    {key : String} {value : Json} (inside : (key, value) ∈ members) :
    members.lookup key = some value :=
  (OrderedHash.get?_eq_some_iff ⟨members, distinct⟩ key value).mpr inside

/-- What is found under a name is a member. -/
theorem mem_of_lookup {members : List (String × Json)} {key : String} {value : Json}
    (found : members.lookup key = some value) : (key, value) ∈ members := by
  obtain ⟨before, after, rfl, -⟩ := List.lookup_eq_some_iff.mp found
  simp

/-! ## Deep equality -/

mutual

/-- Deep equality: the order of the members of an object does not count. -/
def deepEqual : Json → Json → Bool
  | .null, .null => true
  | .bool left, .bool right => left == right
  | .int left, .int right => left == right
  | .float left, .float right => left == right
  | .str left, .str right => left == right
  | .arr left, .arr right => deepEqualElements left right
  | .obj left, .obj right =>
    right.all (fun member => (left.map Prod.fst).contains member.1) && deepEqualMembers left right
  | _, _ => false

/-- Equal in length and element by element. -/
def deepEqualElements : List Json → List Json → Bool
  | [], [] => true
  | left :: lefts, right :: rights => deepEqual left right && deepEqualElements lefts rights
  | _, _ => false

/-- Each of the members is in the other object. -/
def deepEqualMembers : List (String × Json) → List (String × Json) → Bool
  | [], _ => true
  | (key, value) :: rest, other =>
    (match other.lookup key with
      | some found => deepEqual value found
      | none => false) && deepEqualMembers rest other

end

/-- Arrays are equal when their elements are, one by one. -/
theorem deepEqualElements_iff (left : List Json) : ∀ right : List Json,
    deepEqualElements left right = true ↔
      List.Forall₂ (fun value other => deepEqual value other = true) left right := by
  induction left with
  | nil =>
    intro right
    cases right <;> simp [deepEqualElements]
  | cons value rest ih =>
    intro right
    cases right <;> simp [deepEqualElements, ih]

/-- Objects are equal when they have the same names with equal values. -/
theorem deepEqual_obj_iff (left right : List (String × Json)) :
    deepEqual (.obj left) (.obj right) = true ↔
      (∀ key ∈ right.map Prod.fst, key ∈ left.map Prod.fst) ∧
        ∀ member ∈ left, ∃ other, right.lookup member.1 = some other ∧
          deepEqual member.2 other = true := by
  have each : ∀ members : List (String × Json), deepEqualMembers members right = true ↔
      ∀ member ∈ members, ∃ other, right.lookup member.1 = some other ∧
        deepEqual member.2 other = true := by
    intro members
    induction members with
    | nil => simp [deepEqualMembers]
    | cons member rest ih =>
      obtain ⟨key, value⟩ := member
      cases found : right.lookup key <;> simp [deepEqualMembers, found, ih]
  rw [deepEqual, Bool.and_eq_true, each]
  apply and_congr_left
  intro _
  simp

/-- A well-formed tree equals itself. -/
theorem deepEqual_refl (value : Json) : wellFormed value = true → deepEqual value value = true := by
  induction value using Json.induct with
  | null | bool | int | float | str => intro _; simp [deepEqual]
  | object => intro formed; cases formed
  | arr elements ih =>
    intro formed
    rw [wellFormed_arr_iff] at formed
    rw [deepEqual, deepEqualElements_iff, List.forall₂_same]
    intro value inside
    exact ih value inside (formed value inside)
  | obj members ih =>
    intro formed
    rw [wellFormed_obj_iff] at formed
    rw [deepEqual_obj_iff]
    refine ⟨fun key inside => inside, ?_⟩
    intro member inside
    exact ⟨member.2, lookup_of_mem formed.1 inside, ih member inside (formed.2 member inside)⟩

/-- Deep equality goes on. -/
theorem deepEqual_trans (left : Json) : ∀ middle right : Json, deepEqual left middle = true →
    deepEqual middle right = true → deepEqual left right = true := by
  induction left using Json.induct with
  | null | bool | int | float | str | object =>
    intro middle right first second
    cases middle <;> cases right <;> simp_all [deepEqual]
  | arr elements ih =>
    intro middle right first second
    cases middle with
    | arr others =>
      cases right with
      | arr lasts =>
        rw [deepEqual, deepEqualElements_iff, List.forall₂_iff_get] at first second ⊢
        obtain ⟨length, same⟩ := first
        obtain ⟨length', same'⟩ := second
        refine ⟨length.trans length', ?_⟩
        intro index low high
        have middle : index < others.length := length ▸ low
        exact ih _ (List.get_mem elements ⟨index, low⟩) _ _ (same index low middle)
          (same' index middle high)
      | _ => cases second
    | _ => cases first
  | obj members ih =>
    intro middle right first second
    cases middle with
    | obj others =>
      cases right with
      | obj lasts =>
        rw [deepEqual_obj_iff] at first second ⊢
        refine ⟨fun key inside => first.1 key (second.1 key inside), ?_⟩
        intro member inside
        obtain ⟨other, found, equal⟩ := first.2 member inside
        obtain ⟨last, reached, same⟩ := second.2 _ (mem_of_lookup found)
        exact ⟨last, reached, ih member inside other last equal same⟩
      | _ => cases second
    | _ => cases first

/-- Deep equality with a well-formed tree can be turned around. -/
theorem deepEqual_symm (left : Json) : ∀ right : Json, wellFormed right = true →
    deepEqual left right = true → deepEqual right left = true := by
  induction left using Json.induct with
  | null | bool | int | float | str | object =>
    intro right _ same
    cases right <;> simp_all [deepEqual]
  | arr elements ih =>
    intro right formed same
    cases right with
    | arr others =>
      rw [wellFormed_arr_iff] at formed
      rw [deepEqual, deepEqualElements_iff, List.forall₂_iff_get] at same ⊢
      obtain ⟨length, each⟩ := same
      refine ⟨length.symm, ?_⟩
      intro index low high
      exact ih _ (List.get_mem elements ⟨index, high⟩) _
        (formed _ (List.get_mem others ⟨index, low⟩)) (each index high low)
    | _ => cases same
  | obj members ih =>
    intro right formed same
    cases right with
    | obj others =>
      obtain ⟨distinct, each⟩ := (wellFormed_obj_iff others).mp formed
      rw [deepEqual_obj_iff] at same ⊢
      constructor
      · intro key inside
        obtain ⟨member, listed, rfl⟩ := List.mem_map.mp inside
        obtain ⟨other, found, -⟩ := same.2 member listed
        exact List.mem_map.mpr ⟨_, mem_of_lookup found, rfl⟩
      · intro other inside
        have named := same.1 other.1 (List.mem_map_of_mem inside)
        cases found : members.lookup other.1 with
        | none =>
          obtain ⟨member, listed, matching⟩ := List.mem_map.mp named
          have missing := List.lookup_eq_none_iff.mp found member listed
          simp [matching] at missing
        | some value =>
          have listed := mem_of_lookup found
          obtain ⟨own, looked, equal⟩ := same.2 _ listed
          rw [lookup_of_mem distinct inside, Option.some.injEq] at looked
          subst looked
          exact ⟨value, rfl, ih _ listed other.2 (each other inside) equal⟩
    | _ => cases same

/-- An object is not equal to one of its own members. -/
theorem deepEqual_own_member (key : String) (value : Json) : ∀ members : List (String × Json),
    (key, value) ∈ members → deepEqual (.obj members) value = false := by
  induction value using Json.induct with
  | null | bool | int | float | str | arr | object => intro members _; rfl
  | obj inner ih =>
    intro members inside
    rw [Bool.eq_false_iff]
    intro same
    obtain ⟨-, each⟩ := (deepEqual_obj_iff members inner).mp same
    obtain ⟨other, found, equal⟩ := each (key, .obj inner) inside
    have member : (key, other) ∈ inner := mem_of_lookup found
    rw [ih (key, other) member inner member] at equal
    cases equal

end Rjr.Site
