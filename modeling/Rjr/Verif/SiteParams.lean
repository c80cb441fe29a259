import Rjr.Verif.SiteTrees

/-!
# Parameters as they are written

A server reads a classed object only as an object of a `json_class` and its `data`. The form that
the parameters of a request should have is stated on its own: every object with a class is
wrapped, from the leaves up, and nothing else changes. The converters reach it for some trees
only. They do not look into plain objects, they stop at an array inside an array property, and an
object with a `length` becomes an array.
-/

namespace Rjr.Verif.SiteParams

open Site Site.JRMessage SiteCodec SiteTrees

/-! ## The form on the wire -/

/-- An object is wrapped if it has a class. -/
def wrapClassed (members : List (String × Json)) : Json :=
  if hasClass members then wrap (member "json_class" members) (properties members)
  else .obj members

mutual

/-- The form that a value should have on the wire. -/
def wire : Json → Json
  | .arr elements => .arr (wireEach elements)
  | .obj members => wrapClassed (wireMembers members)
  | value => value

/-- The form of elements. -/
def wireEach : List Json → List Json
  | [] => []
  | value :: rest => wire value :: wireEach rest

/-- The form of members, before their object is wrapped. -/
def wireMembers : List (String × Json) → List (String × Json)
  | [] => []
  | (key, value) :: rest => (key, wire value) :: wireMembers rest

end

/-- An array is written element by element. -/
theorem wire_arr (elements : List Json) : wire (.arr elements) = .arr (elements.map wire) := by
  rw [wire]
  congr 1
  induction elements with
  | nil => rfl
  | cons value rest ih => rw [wireEach, List.map_cons, ih]

/-- An object is written member by member and wrapped if it has a class. -/
theorem wire_obj (members : List (String × Json)) :
    wire (.obj members) =
      if hasClass members then wrap (wire (member "json_class" members))
        ((properties members).map fun member => (member.1, wire member.2))
      else .obj (members.map fun member => (member.1, wire member.2)) := by
  have each : wireMembers members = members.map fun member => (member.1, wire member.2) := by
    induction members with
    | nil => rfl
    | cons member rest ih =>
      obtain ⟨key, value⟩ := member
      rw [wireMembers, List.map_cons, ih]
  have found : (wireMembers members).lookup "json_class" =
      (members.lookup "json_class").map wire := by rw [each, OrderedHash.lookup_mapValues]
  have same : hasClass (wireMembers members) = hasClass members := by
    rw [hasClass, found, Option.isSome_map, hasClass]
  have own : member "json_class" (wireMembers members) = wire (member "json_class" members) := by
    rw [member, found, member]
    cases members.lookup "json_class" <;> rfl
  rw [wire, wrapClassed, same, own, each, properties_mapValues]

/-- A wrapped object is higher than its class. -/
theorem height_wrap_class (jsonClass : Json) (data : List (String × Json)) :
    height jsonClass < height (wrap jsonClass data) := by
  have inside : ("json_class", jsonClass) ∈
      [("json_class", jsonClass), ("data", Json.obj data)] := List.mem_cons_self
  exact height_member inside

/-- A wrapped object is higher than its properties. -/
theorem height_wrap_property (jsonClass : Json) {data : List (String × Json)}
    {property : String × Json} (inside : property ∈ data) :
    height property.2 < height (wrap jsonClass data) := by
  have inner := height_member inside
  have wrapped : ("data", Json.obj data) ∈
      [("json_class", jsonClass), ("data", Json.obj data)] := by simp
  have outer : height (.obj data) < height (wrap jsonClass data) := height_member wrapped
  omega

/-- The form of an object is higher than that of each member. -/
theorem height_wire_member {members : List (String × Json)}
    (distinct : (members.map Prod.fst).Nodup) {entry : String × Json} (inside : entry ∈ members) :
    height (wire entry.2) < height (wire (.obj members)) := by
  rw [wire_obj]
  cases hasClass members with
  | false =>
    exact height_member (List.mem_map_of_mem (f := fun member => (member.1, wire member.2)) inside)
  | true =>
    by_cases named : entry.1 = "json_class"
    · rw [if_pos rfl, class_unique distinct inside named]
      exact height_wrap_class _ _
    · have property : entry ∈ properties members :=
        List.mem_filter.mpr ⟨inside, bne_iff_ne.mpr named⟩
      exact height_wrap_property _
        (List.mem_map_of_mem (f := fun member => (member.1, wire member.2)) property)

/-- A tree is not higher than its form. -/
theorem height_wire (value : Json) :
    wellFormed value = true → height value ≤ height (wire value) := by
  induction value using Json.induct with
  | null | bool | int | float | str | object => intro _; exact Nat.le_refl _
  | arr elements ih =>
    intro formed
    rw [wellFormed_arr_iff] at formed
    rw [wire_arr]
    have positive : 0 < height (.arr (elements.map wire)) := Nat.succ_pos _
    refine height_arr_le ?_ positive
    intro value inside
    have own := ih value inside (formed value inside)
    have higher := height_element (List.mem_map_of_mem (f := wire) inside)
    omega
  | obj members ih =>
    intro formed
    obtain ⟨distinct, each⟩ := (wellFormed_obj_iff members).mp formed
    have below : ∀ member ∈ members, height member.2 < height (wire (.obj members)) := by
      intro member inside
      have own := ih member inside (each member inside)
      have higher := height_wire_member distinct inside
      omega
    have positive : 0 < height (wire (.obj members)) := by
      rw [wire_obj]
      cases hasClass members <;> exact Nat.succ_pos _
    exact height_obj_le below positive

/-! ## Trees that are in their form -/

/-- An object with a class is not in its form. -/
theorem deepEqual_wire_classed {members : List (String × Json)}
    (formed : wellFormed (.obj members) = true) (classed : hasClass members = true) :
    deepEqual (wire (.obj members)) (.obj members) = false := by
  obtain ⟨distinct, each⟩ := (wellFormed_obj_iff members).mp formed
  rw [Bool.eq_false_iff, wire_obj, if_pos classed, wrap]
  intro same
  -- The wrapped properties contain the form of the member that they should equal.
  obtain ⟨data, found, equal⟩ := ((deepEqual_obj_iff _ _).mp same).2
    ("data", .obj ((properties members).map fun member => (member.1, wire member.2)))
    (List.mem_cons_of_mem _ List.mem_cons_self)
  have inside : ("data", data) ∈ members := mem_of_lookup found
  have property : ("data", data) ∈ properties members :=
    List.mem_filter.mpr ⟨inside, rfl⟩
  have wrapped := height_member
    (List.mem_map_of_mem (f := fun member => (member.1, wire member.2)) property)
  have grown := height_wire data (each _ inside)
  have bounded := height_le_of_deepEqual _ _ equal
  simp only at wrapped bounded
  omega

/-- A tree is in its form exactly when no object has a class. -/
theorem deepEqual_wire_iff (value : Json) : wellFormed value = true →
    (deepEqual (wire value) value = true ↔ unclassed value = true) := by
  induction value using Json.induct with
  | null | bool | int | float | str | object =>
    intro formed
    exact iff_of_true (deepEqual_refl _ formed) rfl
  | arr elements ih =>
    intro formed
    rw [wellFormed_arr_iff] at formed
    rw [wire_arr, deepEqual, deepEqualElements_iff, List.forall₂_map_left_iff, List.forall₂_same,
      unclassed_arr_iff]
    exact forall₂_congr fun value inside => ih value inside (formed value inside)
  | obj members ih =>
    intro formed
    obtain ⟨distinct, each⟩ := (wellFormed_obj_iff members).mp formed
    rw [unclassed_obj_iff]
    cases classed : hasClass members with
    | true =>
      rw [deepEqual_wire_classed formed classed]
      simp
    | false =>
      rw [wire_obj, classed, if_neg Bool.false_ne_true,
        deepEqual_aligned_iff distinct (keys_mapValues wire members),
        List.forall₂_map_left_iff, List.forall₂_same]
      simp only [true_and]
      apply forall₂_congr
      intro member inside
      rw [← ih member inside (each member inside)]
      exact and_iff_right rfl

/-! ## What the converters reach -/

mutual

/-- Whether a value comes out of its converter in its form. -/
def converts (position : Position) : Json → Bool
  | .arr elements =>
    match position with
    | .param => convertsEach .param elements
    | .property => convertsEach .element elements
    | .element => false
  | .obj members =>
    if hasClass members then isJrObject (.obj members) && convertsMembers members
    else !isArray (.obj members) && unclassed (.obj members)
  | _ => true

/-- All elements come out in their form. -/
def convertsEach (position : Position) : List Json → Bool
  | [] => true
  | value :: rest => converts position value && convertsEach position rest

/-- All members of a classed object come out in their form; its class is left as it is. -/
def convertsMembers : List (String × Json) → Bool
  | [] => true
  | (key, value) :: rest =>
    (if key = "json_class" then unclassed value else converts .property value) &&
      convertsMembers rest

end

/-- Elements come out in their form when each of them does. -/
theorem convertsEach_iff (position : Position) (elements : List Json) :
    convertsEach position elements = true ↔
      ∀ value ∈ elements, converts position value = true := by
  induction elements with
  | nil => simp [convertsEach]
  | cons value rest ih => simp [convertsEach, ih]

/-- The members of a classed object come out in their form when its class has none to convert and
each property does. -/
theorem convertsMembers_iff {members : List (String × Json)}
    (distinct : (members.map Prod.fst).Nodup) (classed : hasClass members = true) :
    convertsMembers members = true ↔
      unclassed (member "json_class" members) = true ∧
        ∀ member ∈ properties members, converts .property member.2 = true := by
  have each : ∀ list, convertsMembers list = true ↔ ∀ member ∈ list,
      (if member.1 = "json_class" then unclassed member.2 else converts .property member.2) =
        true := by
    intro list
    induction list with
    | nil => simp [convertsMembers]
    | cons member rest ih =>
      obtain ⟨key, value⟩ := member
      rw [convertsMembers, Bool.and_eq_true, ih, List.forall_mem_cons]
  obtain ⟨own, found⟩ := Option.isSome_iff_exists.mp classed
  have inside : ("json_class", own) ∈ members := mem_of_lookup found
  rw [each, class_unique distinct inside rfl]
  constructor
  · intro all
    refine ⟨by simpa using all _ inside, ?_⟩
    intro member listed
    obtain ⟨within, other⟩ := List.mem_filter.mp listed
    have converted := all member within
    rw [if_neg (bne_iff_ne.mp other)] at converted
    exact converted
  · rintro ⟨plain, rest⟩ member within
    by_cases named : member.1 = "json_class"
    · have same : own = member.2 :=
        (class_unique distinct inside rfl).symm.trans (class_unique distinct within named)
      rw [if_pos named, ← same]
      exact plain
    · rw [if_neg named]
      exact rest member (List.mem_filter.mpr ⟨within, bne_iff_ne.mpr named⟩)

section Converters

variable (engine : Engine)

/-- A value is converted to its form. -/
def Converted (position : Position) (value : Json) : Prop :=
  ∃ written, convert engine position value = .ok written ∧ deepEqual (wire value) written = true

variable {engine}

/-- A wrapped object is in its form when its class and its properties are. -/
theorem deepEqual_wrap_iff (jsonClass other : Json) (data others : List (String × Json)) :
    deepEqual (wrap jsonClass data) (wrap other others) = true ↔
      deepEqual jsonClass other = true ∧ deepEqual (.obj data) (.obj others) = true := by
  rw [wrap, wrap, deepEqual_obj_iff]
  simp [OrderedHash.lookup_cons_if]

/-- Elements are converted to their form one by one. -/
theorem convertEach_form_iff (position : Position) (elements : List Json) :
    (∃ written, convertEach engine position elements = .ok written ∧
      deepEqualElements (elements.map wire) written = true) ↔
        ∀ value ∈ elements, Converted engine position value := by
  unfold Converted
  rw [← Traversal.exists_forall₂_and_iff]
  simp only [convertEach_ok_iff, deepEqualElements_iff, List.forall₂_map_left_iff]

/-- An array is converted to its form when its elements are. -/
theorem converted_arr_iff {position inner : Position} {elements : List Json}
    (converts : convert engine position (.arr elements) =
      (convertEach engine inner elements).map .arr) :
    Converted engine position (.arr elements) ↔
      ∀ value ∈ elements, Converted engine inner value := by
  rw [← convertEach_form_iff, Converted, converts, wire_arr]
  constructor
  · rintro ⟨written, converted, same⟩
    obtain ⟨others, each, rfl⟩ := (Traversal.map_eq_ok_iff _ _ _).mp converted
    exact ⟨others, each, same⟩
  · rintro ⟨others, each, same⟩
    exact ⟨.arr others, (Traversal.map_eq_ok_iff _ _ _).mpr ⟨others, each, rfl⟩, same⟩

/-- A classed object is converted to its form when nothing in its class has to be converted and
its properties are. -/
theorem converted_classed_iff {members : List (String × Json)}
    (formed : wellFormed (.obj members) = true) (classed : isJrObject (.obj members) = true)
    (position : Position) :
    Converted engine position (.obj members) ↔
      unclassed (member "json_class" members) = true ∧
        ∀ member ∈ properties members, Converted engine .property member.2 := by
  obtain ⟨distinct, each⟩ := (wellFormed_obj_iff members).mp formed
  have found := lookup_class classed
  have formedClass := each _ (mem_of_lookup found)
  have has : hasClass members = true := by rw [hasClass, found]; rfl
  have single : ∀ member : String × Json,
      Converted engine .property member.2 ↔
        ∃ written, Written engine member written ∧ Same (member.1, wire member.2) written := by
    intro member
    constructor
    · rintro ⟨written, converted, same⟩
      exact ⟨(member.1, written), ⟨rfl, converted⟩, rfl, same⟩
    · rintro ⟨⟨key, written⟩, ⟨-, converted⟩, -, same⟩
      exact ⟨written, converted, same⟩
  simp only [single]
  rw [← Traversal.exists_forall₂_and_iff, ← deepEqual_wire_iff _ formedClass, Converted,
    convert_classed engine classed, convertObjToJrObj, wire_obj, if_pos has]
  have aligned : ∀ {data}, List.Forall₂ (Written engine) (properties members) data →
      ((properties members).map fun member => (member.1, wire member.2)).map Prod.fst =
        data.map Prod.fst := by
    intro data forth
    rw [keys_mapValues, written_keys forth]
  have dataDistinct : ∀ {data}, List.Forall₂ (Written engine) (properties members) data →
      (data.map Prod.fst).Nodup := by
    intro data forth
    rw [written_keys forth]
    exact properties_distinct distinct
  constructor
  · rintro ⟨written, converted, same⟩
    obtain ⟨data, done, rfl⟩ := (Traversal.map_eq_ok_iff _ _ _).mp converted
    have forth := (convertProperties_ok_iff engine members data).mp done
    obtain ⟨sameClass, sameData⟩ := (deepEqual_wrap_iff _ _ _ _).mp same
    rw [deepEqual_aligned_iff (dataDistinct forth) (aligned forth),
      List.forall₂_map_left_iff] at sameData
    exact ⟨sameClass, data, forth, sameData⟩
  · rintro ⟨sameClass, data, forth, sameData⟩
    have done := (convertProperties_ok_iff engine members data).mpr forth
    refine ⟨_, (Traversal.map_eq_ok_iff _ _ _).mpr ⟨data, done, rfl⟩, ?_⟩
    rw [deepEqual_wrap_iff, deepEqual_aligned_iff (dataDistinct forth) (aligned forth),
      List.forall₂_map_left_iff]
    exact ⟨sameClass, sameData⟩

/-- An object that becomes an array is not converted to its form. -/
theorem not_converted_arrayLike {members : List (String × Json)}
    (classed : isJrObject (.obj members) = false) (array : isArray (.obj members) = true)
    (position : Position) : ¬ Converted engine position (.obj members) := by
  rintro ⟨written, converted, same⟩
  obtain ⟨-, -, elements, -, rfl⟩ := convert_arrayLike engine classed array position converted
  rw [wire_obj] at same
  cases has : hasClass members <;> rw [has] at same <;> cases same

variable (engine) in
/-- A well-formed value is converted to its form exactly when `converts` says so. -/
theorem converted_iff (value : Json) : ∀ position, wellFormed value = true →
    (Converted engine position value ↔ converts position value = true) := by
  induction value using Json.induct with
  | null | bool | int | float | str | object =>
    intro position formed
    exact iff_of_true ⟨_, rfl, deepEqual_refl _ formed⟩ rfl
  | arr elements ih =>
    intro position formed
    rw [wellFormed_arr_iff] at formed
    cases position with
    | param =>
      rw [converted_arr_iff (convert_param_arr engine elements), converts, convertsEach_iff]
      exact forall₂_congr fun value inside => ih value inside .param (formed value inside)
    | property =>
      rw [converted_arr_iff (convert_property_arr engine elements), converts, convertsEach_iff]
      exact forall₂_congr fun value inside => ih value inside .element (formed value inside)
    | element =>
      refine iff_of_false ?_ Bool.false_ne_true
      rintro ⟨written, converted, -⟩
      cases converted
  | obj members ih =>
    intro position formed
    obtain ⟨distinct, each⟩ := (wellFormed_obj_iff members).mp formed
    rw [converts]
    cases classed : isJrObject (.obj members) with
    | true =>
      have has : hasClass members = true := by rw [hasClass, lookup_class classed]; rfl
      rw [if_pos has, Bool.true_and, converted_classed_iff formed classed,
        convertsMembers_iff distinct has]
      apply and_congr_right
      intro _
      apply forall₂_congr
      intro member inside
      have listed := List.mem_of_mem_filter inside
      exact ih member listed .property (each member listed)
    | false =>
      cases array : isArray (.obj members) with
      | true =>
        refine iff_of_false (not_converted_arrayLike classed array position) ?_
        cases hasClass members <;> simp
      | false =>
        -- The object is left as it is, so it has to be in its form already.
        have left : Converted engine position (.obj members) ↔
            deepEqual (wire (.obj members)) (.obj members) = true := by
          rw [Converted, convert_plain engine classed array]
          simp
        rw [left, deepEqual_wire_iff _ formed]
        cases has : hasClass members with
        | true => simp [unclassed_obj_iff, has]
        | false => simp

end Converters

/-- **Which parameters are converted for the server.** For every list of parameters of any depth,
`convert_params` returns them with every object that has a class wrapped and nothing else changed
exactly when each parameter `converts`: a class is truthy and its value has no class inside, no
array stands inside an array property of a classed object, no object with a class stands inside an
object without one, and no object without a class has a `length`. -/
theorem params_converted_iff (engine : Engine) (params : List ScriptValue) :
    (∃ written, convertParams engine (params.map ScriptValue.tree) = .ok written ∧
      deepEqualElements ((params.map ScriptValue.tree).map wire) written = true) ↔
        ∀ param ∈ params, converts .param param.tree = true := by
  rw [convertParams, convertEach_form_iff, List.forall_mem_map]
  apply forall₂_congr
  intro param _
  exact converted_iff engine param.tree .param param.formed

/-- The conversion of an array inside an array property throws. -/
theorem nested_array_throws :
    ∃ param : ScriptValue,
      param.tree = .obj [("json_class", .str "Foo"), ("rows", .arr [.arr [.int 1]])] ∧
        convertParams plainEngine [param.tree] = .error .typeError :=
  ⟨⟨_, by decide, by decide⟩, rfl, by decide⟩

end Rjr.Verif.SiteParams
