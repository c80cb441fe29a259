import Rjr.Verif.SiteTrees

/-!
# The two decoders

`site/jrw.js` turns the written form of a classed object back in two ways. `parse_obj` builds a new
object from the `data`; `convert_obj_from_jr_obj` copies the whole, spreads the `data` over the
copy and deletes the member of that name. They agree with each other and with the object for trees
of classed objects in which no property is named `data` or `__proto__` and arrays hold scalars
only. A property `data` is deleted with the wrapper, a property `__proto__` is not copied, classed
objects in an array are restored by the second only, and an array in an array is not written at
all.
-/

namespace Rjr.Verif.SiteDecoders

open Site Site.JRMessage SiteCodec SiteTrees

/-! ## Classed objects -/

/-- Whether a value is something else than an object, or an object that names its class. -/
def namesClass : Json → Bool
  | .obj members =>
    match members.lookup "json_class" with
    | some (.str name) => name != ""
    | _ => false
  | _ => true

/-- A classed object that is built from scalars, arrays and classed objects. -/
structure ClassedObject where
  /-- Its members. -/
  members : List (String × Json)
  /-- Names are distinct and numbers are finite. -/
  formed : wellFormed (.obj members) = true
  /-- Every object in it names its class. -/
  classes : everyNode namesClass (.obj members) = true

/-- What is known of a tree inside of a classed object without a member `__proto__`. -/
structure Inside (value : Json) : Prop where
  /-- It is well formed. -/
  formed : wellFormed value = true
  /-- No member is named `__proto__`. -/
  ordinary : ordinary value = true
  /-- Every object names its class. -/
  classes : everyNode namesClass value = true

/-- The elements of an array inside of a classed object. -/
theorem Inside.element {elements : List Json} (inside : Inside (.arr elements)) {value : Json}
    (listed : value ∈ elements) : Inside value where
  formed := (wellFormed_arr_iff elements).mp inside.formed value listed
  ordinary := ((everyNode_arr_iff _ elements).mp inside.ordinary).2 value listed
  classes := ((everyNode_arr_iff _ elements).mp inside.classes).2 value listed

/-- The members of an object inside of a classed object. -/
theorem Inside.member {members : List (String × Json)} (inside : Inside (.obj members))
    {entry : String × Json} (listed : entry ∈ members) : Inside entry.2 where
  formed := ((wellFormed_obj_iff members).mp inside.formed).2 entry listed
  ordinary := ((everyNode_obj_iff _ members).mp inside.ordinary).2 entry listed
  classes := ((everyNode_obj_iff _ members).mp inside.classes).2 entry listed

/-- An object inside of a classed object has no member `__proto__`. -/
theorem Inside.proto {members : List (String × Json)} (inside : Inside (.obj members)) :
    "__proto__" ∉ members.map Prod.fst := by
  have test := ((everyNode_obj_iff _ members).mp inside.ordinary).1
  simpa [withoutProto] using test

/-- An object inside of a classed object has the name of its class. -/
theorem Inside.name {members : List (String × Json)} (inside : Inside (.obj members)) :
    ∃ name, name ≠ "" ∧ members.lookup "json_class" = some (.str name) := by
  have test := ((everyNode_obj_iff _ members).mp inside.classes).1
  rw [namesClass] at test
  split at test
  · next name found => exact ⟨name, bne_iff_ne.mp test, found⟩
  · cases test

/-- The class of an object inside of a classed object is a string. -/
theorem Inside.class_string {members : List (String × Json)} (inside : Inside (.obj members))
    {entry : String × Json} (listed : entry ∈ members) (named : entry.1 = "json_class") :
    ∃ name, entry.2 = .str name := by
  obtain ⟨name, -, found⟩ := inside.name
  have distinct := ((wellFormed_obj_iff members).mp inside.formed).1
  have same : members.lookup entry.1 = some entry.2 := lookup_of_mem distinct listed
  rw [named, found, Option.some.injEq] at same
  exact ⟨name, same.symm⟩

/-- An object inside of a classed object is one itself. -/
theorem Inside.classed {members : List (String × Json)} (inside : Inside (.obj members)) :
    isJrObject (.obj members) = true := by
  obtain ⟨name, nonempty, found⟩ := inside.name
  rw [isJrObject, Site.member, found]
  exact bne_iff_ne.mpr nonempty

/-! ## What is restored -/

mutual

/-- Whether a value is written and restored as it was. -/
def restored (position : Position) : Json → Bool
  | .arr elements => position != .element && restoredEach elements
  | .obj members => restoredMembers members
  | _ => true

/-- All elements are restored. -/
def restoredEach : List Json → Bool
  | [] => true
  | value :: rest => restored .element value && restoredEach rest

/-- All members are restored, and none is named `data`. -/
def restoredMembers : List (String × Json) → Bool
  | [] => true
  | (key, value) :: rest => key != "data" && restored .property value && restoredMembers rest

end

/-- Elements are restored when each of them is. -/
theorem restoredEach_iff (elements : List Json) :
    restoredEach elements = true ↔ ∀ value ∈ elements, restored .element value = true := by
  induction elements with
  | nil => simp [restoredEach]
  | cons value rest ih => simp [restoredEach, ih]

/-- Members are restored when each of them is and none is named `data`. -/
theorem restoredMembers_iff (members : List (String × Json)) :
    restoredMembers members = true ↔ "data" ∉ members.map Prod.fst ∧
      ∀ member ∈ members, restored .property member.2 = true := by
  induction members with
  | nil => simp [restoredMembers]
  | cons member rest ih =>
    obtain ⟨key, value⟩ := member
    rw [restoredMembers, Bool.and_eq_true, Bool.and_eq_true, ih, List.forall_mem_cons,
      List.map_cons, List.mem_cons, not_or, bne_iff_ne, ne_comm]
    exact and_and_and_comm

section Restorers

variable (engine : Engine)

/-- A value is written and restored to an equal one. -/
def Restores (position : Position) (value : Json) : Prop :=
  ∃ written result, convert engine position value = .ok written ∧
    restore engine written = .ok result ∧ deepEqual result value = true

/-- A written property and what it is restored to. -/
def RestoredTo (written result : String × Json) : Prop :=
  written.1 = result.1 ∧ restore engine written.2 = .ok result.2

variable {engine}

/-- The wrapper is spread to the class and the properties other than `data`. -/
theorem spread_wrap (jsonClass wrapper : Except Thrown Json)
    {data : List (String × Except Thrown Json)} (distinct : (data.map Prod.fst).Nodup)
    (noClass : "json_class" ∉ data.map Prod.fst) (noProto : "__proto__" ∉ data.map Prod.fst) :
    spread [("json_class", jsonClass), ("data", wrapper)] data =
      ("json_class", jsonClass) :: data.filter fun member => member.1 != "data" := by
  have kept : data.filter (fun member => member.1 != "__proto__") = data := by
    rw [List.filter_eq_self]
    intro member inside
    rw [bne_iff_ne]
    intro named
    exact noProto (named ▸ List.mem_map_of_mem inside)
  have first : ((OrderedHash.ofList [("json_class", jsonClass), ("data", wrapper)]).select
      fun member => member.1 != "data").entries = [("json_class", jsonClass)] := rfl
  have sublist : ((data.filter fun member => member.1 != "data").map Prod.fst).Sublist
      (data.map Prod.fst) := List.filter_sublist.map Prod.fst
  have fresh : ∀ key ∈ (data.filter fun member => member.1 != "data").map Prod.fst,
      key ∉ ((OrderedHash.ofList [("json_class", jsonClass), ("data", wrapper)]).select
        fun member => member.1 != "data").keys := by
    intro key inside
    rw [OrderedHash.keys, first]
    intro same
    have equal : key = "json_class" := List.mem_singleton.mp same
    exact noClass (equal ▸ sublist.subset inside)
  rw [spread, kept, OrderedHash.select_putAll (fun key => key != "data"),
    OrderedHash.putAll_absent _ _ (distinct.sublist sublist) fresh, first]
  rfl

/-- What `parse_obj` would build from fresh properties. -/
theorem build_entries (jsonClass : Json) {properties : List (String × Json)}
    (distinct : (properties.map Prod.fst).Nodup) (noClass : "json_class" ∉ properties.map Prod.fst)
    (noProto : "__proto__" ∉ properties.map Prod.fst) :
    build jsonClass properties = .obj (("json_class", jsonClass) :: properties) := by
  have fresh : ∀ key ∈ properties.map Prod.fst,
      key ∉ (OrderedHash.empty.put "json_class" jsonClass).keys := by
    intro key inside
    rw [OrderedHash.mem_keys_put]
    rintro (same | impossible)
    · exact noClass (same ▸ inside)
    · cases impossible
  rw [build, assignAll_entries distinct fresh noProto]
  rfl

/-- The written form of a classed object is restored to its class and its properties other than
`data`. -/
theorem restore_wrap_iff {members data : List (String × Json)} (inside : Inside (.obj members))
    (converted : List.Forall₂ (Written engine) (properties members) data) (result : Json) :
    restore engine (wrap (member "json_class" members) data) = .ok result ↔
      ∃ values, List.Forall₂ (RestoredTo engine)
          (data.filter fun member => member.1 != "data") values ∧
        result = .obj (("json_class", member "json_class" members) :: values) := by
  obtain ⟨name, nonempty, found⟩ := inside.name
  have own : member "json_class" members = .str name := by rw [member, found, Option.getD_some]
  have names : ∀ key ∈ data.map Prod.fst, key ∈ members.map Prod.fst ∧ key ≠ "json_class" := by
    intro key listed
    rw [written_keys converted] at listed
    exact (mem_properties_keys members key).mp listed
  have distinct : (data.map Prod.fst).Nodup := by
    rw [written_keys converted]
    exact properties_distinct ((wellFormed_obj_iff members).mp inside.formed).1
  have keys : (restoreMembers engine data).map Prod.fst = data.map Prod.fst := by
    rw [restoreMembers_eq, List.map_map]
    rfl
  have noClass : "json_class" ∉ (restoreMembers engine data).map Prod.fst := by
    rw [keys]
    exact fun listed => (names _ listed).2 rfl
  have noProto : "__proto__" ∉ (restoreMembers engine data).map Prod.fst := by
    rw [keys]
    exact fun listed => inside.proto (names _ listed).1
  have classed : isJrObject (.obj [("json_class", .str name), ("data", .obj data)]) = true :=
    bne_iff_ne.mpr nonempty
  have results : restoreMembers engine [("json_class", .str name), ("data", .obj data)] =
      [("json_class", .ok (.str name)), ("data", restore engine (.obj data))] := rfl
  have filtered : (restoreMembers engine data).filter (fun member => member.1 != "data") =
      (data.filter fun member => member.1 != "data").map
        fun member => (member.1, restore engine member.2) := by
    rw [restoreMembers_eq, List.filter_map]
    rfl
  have restores : restore engine (wrap (.str name) data) =
      (collected (("json_class", .ok (.str name)) ::
        (data.filter fun member => member.1 != "data").map
          fun member => (member.1, restore engine member.2))).map .obj := by
    rw [wrap, restore_classed engine classed, convertObjFromJrObj, results]
    change (collected (spread _ (restoreMembers engine data))).map _ = _
    rw [spread_wrap _ _ (keys ▸ distinct) noClass noProto, filtered]
  rw [own, restores, Traversal.map_eq_ok_iff]
  simp only [collected_ok_iff]
  constructor
  · rintro ⟨values, each, rfl⟩
    cases each with
    | @cons _ first _ rest same later =>
      obtain ⟨key, value⟩ := first
      obtain ⟨rfl, same⟩ := same
      cases same
      rw [List.forall₂_map_left_iff] at later
      exact ⟨rest, later, rfl⟩
  · rintro ⟨values, each, rfl⟩
    refine ⟨_, .cons ⟨rfl, rfl⟩ ?_, rfl⟩
    rw [List.forall₂_map_left_iff]
    exact each

/-- A classed object is written as its class and its converted properties. -/
theorem convert_classed_iff {members : List (String × Json)}
    (classed : isJrObject (.obj members) = true) (position : Position) (written : Json) :
    convert engine position (.obj members) = .ok written ↔
      ∃ data, List.Forall₂ (Written engine) (properties members) data ∧
        wrap (member "json_class" members) data = written := by
  rw [convert_classed engine classed, convertObjToJrObj, Traversal.map_eq_ok_iff]
  simp only [convertProperties_ok_iff]
  exact Iff.rfl

/-- A property is restored when its value is. -/
theorem restores_property_iff (member : String × Json) :
    (∃ written value, Written engine member written ∧ RestoredTo engine written value ∧
      Same value member) ↔ Restores engine .property member.2 := by
  constructor
  · rintro ⟨⟨key, written⟩, ⟨name, value⟩, ⟨rfl, converted⟩, ⟨-, back⟩, -, same⟩
    exact ⟨written, value, converted, back, same⟩
  · rintro ⟨written, value, converted, back, same⟩
    exact ⟨(member.1, written), (member.1, value), ⟨rfl, converted⟩, ⟨rfl, back⟩, rfl, same⟩

/-- Written properties are all kept if none is named `data`. -/
theorem written_kept {members data : List (String × Json)} (unnamed : "data" ∉ members.map Prod.fst)
    (forth : List.Forall₂ (Written engine) (properties members) data) :
    (data.filter fun member => member.1 != "data") = data := by
  rw [List.filter_eq_self]
  intro member listed
  rw [bne_iff_ne]
  intro equal
  have among := List.mem_map_of_mem (f := Prod.fst) listed
  rw [written_keys forth, equal] at among
  exact unnamed ((mem_properties_keys members "data").mp among).1

/-- The class and the restored properties equal the original when the properties do. -/
theorem restored_equal_iff {members data values : List (String × Json)}
    (inside : Inside (.obj members))
    (forth : List.Forall₂ (Written engine) (properties members) data)
    (back : List.Forall₂ (RestoredTo engine) data values) :
    deepEqual (.obj (("json_class", member "json_class" members) :: values)) (.obj members) = true ↔
      List.Forall₂ Same values (properties members) := by
  have aligned : values.map Prod.fst = (properties members).map Prod.fst := by
    rw [← written_keys forth, Traversal.keys_forall₂ (back.imp fun _ _ both => both.1)]
  have noClass : "json_class" ∉ values.map Prod.fst := by
    rw [aligned, mem_properties_keys]
    exact fun both => both.2 rfl
  have noProto : "__proto__" ∉ values.map Prod.fst := by
    rw [aligned, mem_properties_keys]
    exact fun both => inside.proto both.1
  have distinct : (values.map Prod.fst).Nodup := by
    rw [aligned]
    exact properties_distinct ((wellFormed_obj_iff members).mp inside.formed).1
  rw [← build_entries _ distinct noClass noProto,
    deepEqual_build_iff inside.formed inside.classed values aligned]
  exact and_iff_right inside.proto

/-- A classed object is restored when none of its properties is named `data` and each of them is
restored. -/
theorem restores_classed_iff {members : List (String × Json)} (inside : Inside (.obj members))
    (position : Position) :
    Restores engine position (.obj members) ↔
      "data" ∉ members.map Prod.fst ∧
        ∀ member ∈ properties members, Restores engine .property member.2 := by
  have writes : ∀ written, convert engine position (.obj members) = .ok written ↔ _ :=
    convert_classed_iff inside.classed position
  by_cases named : "data" ∈ members.map Prod.fst
  · refine iff_of_false ?_ fun both => both.1 named
    rintro ⟨written, result, converted, restores, same⟩
    obtain ⟨data, forth, rfl⟩ := (writes written).mp converted
    obtain ⟨values, back, rfl⟩ := (restore_wrap_iff inside forth result).mp restores
    have keys := Traversal.keys_forall₂ (back.imp fun _ _ both => both.1)
    have listed := ((deepEqual_obj_iff _ _).mp same).1 "data" named
    rw [List.map_cons, ← keys, List.mem_cons] at listed
    rcases listed with impossible | kept
    · simp at impossible
    · obtain ⟨member, within, equal⟩ := List.mem_map.mp kept
      exact bne_iff_ne.mp (List.mem_filter.mp within).2 equal
  · simp only [← restores_property_iff]
    rw [← Traversal.exists_forall₂_iff]
    constructor
    · rintro ⟨written, result, converted, restores, same⟩
      obtain ⟨data, forth, rfl⟩ := (writes written).mp converted
      obtain ⟨values, back, rfl⟩ := (restore_wrap_iff inside forth result).mp restores
      rw [written_kept named forth] at back
      exact ⟨named, data, values, forth, back, (restored_equal_iff inside forth back).mp same⟩
    · rintro ⟨-, data, values, forth, back, same⟩
      refine ⟨_, _, (writes _).mpr ⟨data, forth, rfl⟩,
        (restore_wrap_iff inside forth _).mpr ⟨values, ?_, rfl⟩,
        (restored_equal_iff inside forth back).mpr same⟩
      rw [written_kept named forth]
      exact back

/-- An array property is restored when its elements are. -/
theorem restores_arr_iff (elements : List Json) :
    Restores engine .property (.arr elements) ↔
      ∀ value ∈ elements, Restores engine .element value := by
  unfold Restores
  rw [← Traversal.exists_forall₂_iff, convert_property_arr, convertArrayToJrArray]
  constructor
  · rintro ⟨written, result, converted, restores, same⟩
    obtain ⟨middle, forth, rfl⟩ := (Traversal.map_eq_ok_iff _ _ _).mp converted
    rw [restore_arr, convertArrayFromJrArray] at restores
    obtain ⟨last, back, rfl⟩ := (Traversal.map_eq_ok_iff _ _ _).mp restores
    exact ⟨middle, last, (convertEach_ok_iff engine .element elements middle).mp forth,
      (restoreEach_ok_iff engine middle last).mp back,
      (deepEqualElements_iff last elements).mp same⟩
  · rintro ⟨middle, last, forth, back, same⟩
    have written := (convertEach_ok_iff engine .element elements middle).mpr forth
    have results := (restoreEach_ok_iff engine middle last).mpr back
    refine ⟨.arr middle, .arr last, ?_, ?_, (deepEqualElements_iff last elements).mpr same⟩
    · rw [written]
      rfl
    · rw [restore_arr, convertArrayFromJrArray, results]
      rfl

variable (engine) in
/-- A value inside of a classed object is restored exactly when `restored` says so. -/
theorem restores_iff (value : Json) : ∀ position, position ≠ .param → Inside value →
    (Restores engine position value ↔ restored position value = true) := by
  induction value using Json.induct with
  | null | bool | int | float | str | object =>
    intro position _ inside
    exact iff_of_true ⟨_, _, rfl, rfl, deepEqual_refl _ inside.formed⟩ rfl
  | arr elements ih =>
    intro position notParam inside
    cases position with
    | param => exact absurd rfl notParam
    | property =>
      have within : (Position.property != .element) = true := rfl
      rw [restores_arr_iff, restored, within, Bool.true_and, restoredEach_iff]
      apply forall₂_congr
      intro value listed
      exact ih value listed .element (by decide) (inside.element listed)
    | element =>
      refine iff_of_false ?_ Bool.false_ne_true
      rintro ⟨written, result, converted, -⟩
      cases converted
  | obj members ih =>
    intro position _ inside
    rw [restores_classed_iff inside, restored, restoredMembers_iff]
    apply and_congr_right
    intro _
    have each : ∀ member ∈ members,
        (Restores engine .property member.2 ↔ restored .property member.2 = true) := by
      intro member listed
      exact ih member listed .property (by decide) (inside.member listed)
    constructor
    · intro all member listed
      by_cases named : member.1 = "json_class"
      · obtain ⟨name, string⟩ := inside.class_string listed named
        rw [string]
        rfl
      · exact (each member listed).mp
          (all member (List.mem_filter.mpr ⟨listed, bne_iff_ne.mpr named⟩))
    · intro all member listed
      have within := List.mem_of_mem_filter listed
      exact (each member within).mpr (all member within)

end Restorers

/-! ## Both decoders -/

/-- Whether a value is neither an array nor an object. -/
def isScalar : Json → Bool
  | .arr _ | .obj _ => false
  | _ => true

mutual

/-- Whether both decoders bring a value back: no property is named `data`, and arrays hold
scalars. -/
def agreed : Json → Bool
  | .arr elements => elements.all isScalar
  | .obj members => agreedMembers members
  | _ => true

/-- All members are brought back, and none is named `data`. -/
def agreedMembers : List (String × Json) → Bool
  | [] => true
  | (key, value) :: rest => key != "data" && agreed value && agreedMembers rest

end

/-- Members are brought back when each of them is and none is named `data`. -/
theorem agreedMembers_iff (members : List (String × Json)) :
    agreedMembers members = true ↔ "data" ∉ members.map Prod.fst ∧
      ∀ member ∈ members, agreed member.2 = true := by
  induction members with
  | nil => simp [agreedMembers]
  | cons member rest ih =>
    obtain ⟨key, value⟩ := member
    rw [agreedMembers, Bool.and_eq_true, Bool.and_eq_true, ih, List.forall_mem_cons,
      List.map_cons, List.mem_cons, not_or, bne_iff_ne, ne_comm]
    exact and_and_and_comm

/-- A value is brought back by both decoders when it is by each. -/
theorem agreed_iff (value : Json) : Inside value →
    (restored .property value = true ∧ carried .property false value = true ↔
      agreed value = true) := by
  induction value using Json.induct with
  | null | bool | int | float | str | object => intro _; exact iff_of_true ⟨rfl, rfl⟩ rfl
  | arr elements ih =>
    intro inside
    have within : (Position.property != .element) = true := rfl
    rw [restored, within, Bool.true_and, restoredEach_iff, carried, carriedEach_iff, agreed,
      List.all_eq_true, ← forall₂_and]
    apply forall₂_congr
    intro value listed
    cases value with
    | null | bool | int | float | str | object => exact iff_of_true ⟨rfl, rfl⟩ rfl
    | arr others => exact iff_of_false (fun both => Bool.false_ne_true both.1) Bool.false_ne_true
    | obj members =>
      have classed := (inside.element listed).classed
      refine iff_of_false ?_ Bool.false_ne_true
      rw [carried, if_pos classed]
      exact fun both => Bool.false_ne_true both.2
  | obj members ih =>
    intro inside
    have flag : (Position.property != .element || false) = true := rfl
    have other : "data" ∉ members.map Prod.fst → ∀ {member : String × Json}, member ∈ members →
        (member.1 == "data") = false := by
      intro noData member listed
      rw [beq_eq_false_iff_ne]
      exact fun same => noData (same ▸ List.mem_map_of_mem listed)
    rw [restored, restoredMembers_iff, carried, if_pos inside.classed, flag, Bool.true_and,
      carriedProperties_iff, agreed, agreedMembers_iff]
    constructor
    · rintro ⟨⟨noData, each⟩, -, properties⟩
      refine ⟨noData, ?_⟩
      intro member listed
      by_cases named : member.1 = "json_class"
      · obtain ⟨name, string⟩ := inside.class_string listed named
        rw [string]
        rfl
      · have property := properties member (List.mem_filter.mpr ⟨listed, bne_iff_ne.mpr named⟩)
        rw [other noData listed, Bool.false_and] at property
        exact (ih member listed (inside.member listed)).mp ⟨each member listed, property⟩
    · rintro ⟨noData, each⟩
      have both := fun member listed =>
        (ih member listed (inside.member listed)).mpr (each member listed)
      refine ⟨⟨noData, fun member listed => (both member listed).1⟩, inside.proto, ?_⟩
      intro member property
      have listed := List.mem_of_mem_filter property
      rw [other noData listed, Bool.false_and]
      exact (both member listed).2

/-! ## Copies -/

/-- `$.extend(true, {}, ...)`, the copy that is made before a classed object is written and before
it is restored. To assign `__proto__` sets the prototype, at any depth, so no copy has a member of
that name, and what else becomes of such an object is left open. -/
structure Extend where
  /-- The members of the copy. -/
  copy : List (String × Json) → Except Thrown (List (String × Json))
  /-- A tree without such a member is copied. -/
  faithful : ∀ members, ordinary (.obj members) = true → copy members = .ok members
  /-- No copy has such a member. -/
  drops : ∀ members copied, copy members = .ok copied → ordinary (.obj copied) = true

/-- The elements of an array have no member `__proto__` inside when it has none. -/
theorem ordinary_arr_iff (elements : List Json) :
    ordinary (.arr elements) = true ↔ ∀ value ∈ elements, ordinary value = true := by
  rw [ordinary, everyNode_arr_iff]
  exact and_iff_right rfl

/-- An object has no member `__proto__` inside when it has none and its members have none. -/
theorem ordinary_obj_iff (members : List (String × Json)) :
    ordinary (.obj members) = true ↔
      "__proto__" ∉ members.map Prod.fst ∧ ∀ member ∈ members, ordinary member.2 = true := by
  rw [ordinary, everyNode_obj_iff]
  simp [withoutProto]

/-- What equals a tree without `__proto__` has none. -/
theorem ordinary_of_deepEqual (left : Json) : ∀ right : Json, wellFormed right = true →
    deepEqual left right = true → ordinary left = true → ordinary right = true := by
  induction left using Json.induct with
  | null | bool | int | float | str | object =>
    intro right _ same _
    cases right <;> first | rfl | cases same
  | arr elements ih =>
    intro right formed same without
    cases right with
    | arr others =>
      rw [wellFormed_arr_iff] at formed
      rw [ordinary_arr_iff] at without ⊢
      rw [deepEqual, deepEqualElements_iff] at same
      intro other inside
      obtain ⟨value, own, equal⟩ := Traversal.exists_of_mem_right same inside
      exact ih value own other (formed other inside) equal (without value own)
    | _ => cases same
  | obj members ih =>
    intro right formed same without
    cases right with
    | obj others =>
      obtain ⟨distinct, each⟩ := (wellFormed_obj_iff others).mp formed
      obtain ⟨keys, equal⟩ := (deepEqual_obj_iff _ _).mp same
      rw [ordinary_obj_iff] at without ⊢
      refine ⟨fun named => without.1 (keys _ named), fun other inside => ?_⟩
      obtain ⟨member, own, named⟩ := List.mem_map.mp (keys _ (List.mem_map_of_mem inside))
      obtain ⟨found, looked, alike⟩ := equal member own
      rw [named, lookup_of_mem distinct inside, Option.some.injEq] at looked
      subst looked
      exact ih member own other.2 (each other inside) alike (without.2 member own)
    | _ => cases same

section Copies

variable {engine : Engine}

/-- A member of an object without `__proto__` inside has none inside. -/
theorem ordinary_member {members : List (String × Json)}
    (without : ordinary (.obj members) = true) (key : String) :
    ordinary (member key members) = true := by
  rw [member]
  cases found : members.lookup key with
  | none => rfl
  | some value => exact ((ordinary_obj_iff members).mp without).2 _ (mem_of_lookup found)

/-- A written object has no `__proto__` inside when the object has none and its properties are
written without one. -/
theorem wrap_ordinary {members : List (String × Json)} (without : ordinary (.obj members) = true)
    (each : ∀ member ∈ members, ∀ written, convert engine .property member.2 = .ok written →
      ordinary written = true)
    {written : Json} (converted : convertObjToJrObj engine members = .ok written) :
    ordinary written = true := by
  rw [convertObjToJrObj, Traversal.map_eq_ok_iff] at converted
  obtain ⟨data, done, rfl⟩ := converted
  rw [convertProperties_ok_iff] at done
  have inner : ordinary (.obj data) = true := by
    rw [ordinary_obj_iff, written_keys done, mem_properties_keys]
    refine ⟨fun both => ((ordinary_obj_iff members).mp without).1 both.1, fun other inside => ?_⟩
    obtain ⟨member, own, -, result⟩ := Traversal.exists_of_mem_right done inside
    exact each member (List.mem_of_mem_filter own) other.2 result
  rw [wrap, ordinary_obj_iff]
  refine ⟨by simp, ?_⟩
  simp only [List.forall_mem_cons, List.not_mem_nil, IsEmpty.forall_iff, implies_true, and_true]
  exact ⟨ordinary_member without "json_class", inner⟩

/-- What is converted from a tree without `__proto__` has none. -/
theorem convert_ordinary (value : Json) : ∀ position written, ordinary value = true →
    convert engine position value = .ok written → ordinary written = true := by
  induction value using Json.induct with
  | null | bool | int | float | str | object =>
    intro position written without converted
    cases converted
    exact without
  | arr elements ih =>
    intro position written without converted
    rw [ordinary_arr_iff] at without
    have listed : ∀ inner, (convertEach engine inner elements).map .arr = .ok written →
        ordinary written = true := by
      intro inner each
      obtain ⟨others, done, rfl⟩ := (Traversal.map_eq_ok_iff _ _ _).mp each
      rw [convertEach_ok_iff] at done
      rw [ordinary_arr_iff]
      intro other inside
      obtain ⟨value, own, result⟩ := Traversal.exists_of_mem_right done inside
      exact ih value own inner other (without value own) result
    cases position with
    | param => exact listed .param converted
    | property => exact listed .element converted
    | element => cases converted
  | obj members ih =>
    intro position written without converted
    obtain ⟨-, each⟩ := (ordinary_obj_iff members).mp without
    cases classed : isJrObject (.obj members) with
    | true =>
      rw [convert_classed engine classed] at converted
      exact wrap_ordinary without
        (fun member own written => ih member own .property written (each member own)) converted
    | false =>
      cases array : isArray (.obj members) with
      | true =>
        obtain ⟨inner, count, elements, listed, rfl⟩ :=
          convert_arrayLike engine classed array position converted
        rw [ordinary_arr_iff]
        intro element inside
        obtain rfl | ⟨member, own, result⟩ := mem_indexed_convertMembers engine listed inside
        · rfl
        · exact ih member own inner element (each member own) result
      | false =>
        rw [convert_plain engine classed array] at converted
        cases converted
        exact without

/-- What `parse_obj` builds has no `__proto__` inside when the class and the properties have
none. -/
theorem build_ordinary {jsonClass : Json} {properties : List (String × Json)}
    (own : ordinary jsonClass = true)
    (each : ∀ property ∈ properties, ordinary property.2 = true) :
    ordinary (build jsonClass properties) = true := by
  rw [build, ordinary_obj_iff]
  constructor
  · refine proto_not_mem_assignAll properties ?_
    rw [OrderedHash.mem_keys_put]
    rintro (same | inside)
    · exact absurd same (by decide)
    · cases inside
  · intro entry inside
    rcases mem_assignAll inside with property | first
    · exact each entry property
    · rw [List.mem_singleton.mp first]
      exact own

/-- The properties that are read from an element each are read by `parse_obj`. -/
theorem mem_parseElements {array : String → Bool} (elements : List Json) : ∀ index parsed,
    parseElements engine array index elements = .ok parsed → ∀ property ∈ parsed,
      ∃ element ∈ elements, ∃ flag, parseValue engine flag element = .ok property.2 := by
  induction elements with
  | nil =>
    intro index parsed read
    cases read
    exact nofun
  | cons element rest ih =>
    intro index parsed read
    rw [parseElements] at read
    obtain ⟨first, own, read⟩ := (Traversal.bind_eq_ok_iff _ _ _).mp read
    obtain ⟨others, later, ⟨⟩⟩ := (Traversal.bind_eq_ok_iff _ _ _).mp read
    rw [List.forall_mem_cons]
    refine ⟨⟨element, List.mem_cons_self, _, own⟩, fun property inside => ?_⟩
    obtain ⟨found, listed, flag, parse⟩ := ih (index + 1) others later property inside
    exact ⟨found, List.mem_cons_of_mem _ listed, flag, parse⟩

/-- The properties of `data` are scalars, arrays of characters, or read from what is inside of
it. -/
theorem mem_parseForIn {array : String → Bool} {data : Json} {parsed : List (String × Json)}
    (read : parseForIn engine array data = .ok parsed) {property : String × Json}
    (inside : property ∈ parsed) :
    ordinary property.2 = true ∨ ∃ value flag, height value < height data ∧
      (ordinary data = true → ordinary value = true) ∧
      parseValue engine flag value = .ok property.2 := by
  cases data with
  | obj properties =>
    rw [parseForIn, parseProperties_ok_iff] at read
    obtain ⟨own, listed, -, parse⟩ := Traversal.exists_of_mem_right read inside
    exact .inr ⟨own.2, _, height_member listed,
      fun without => ((ordinary_obj_iff _).mp without).2 own listed, parse⟩
  | arr elements =>
    obtain ⟨element, listed, flag, parse⟩ := mem_parseElements elements 0 parsed read property
      inside
    exact .inr ⟨element, flag, height_element listed,
      fun without => (ordinary_arr_iff _).mp without element listed, parse⟩
  | str text =>
    cases read
    obtain ⟨⟨character, index⟩, -, rfl⟩ := List.mem_map.mp inside
    left
    simp only
    split
    · rw [ordinary_arr_iff, List.forall_mem_map]
      exact fun _ _ => rfl
    · rfl
  | null | bool | int | float | object =>
    cases read
    cases inside

/-- What `parse_obj` reads from an object without `__proto__` inside has none, if what is read from
the lower trees has none. -/
theorem read_ordinary {members : List (String × Json)} (without : ordinary (.obj members) = true)
    (lower : ∀ value, height value < height (.obj members) → ∀ flag parsed,
      ordinary value = true → parseValue engine flag value = .ok parsed → ordinary parsed = true)
    {parsed : Json} (read : parseObj engine members = .ok parsed) : ordinary parsed = true := by
  rw [parseObj, Traversal.map_eq_ok_iff] at read
  obtain ⟨properties, data, rfl⟩ := read
  refine build_ordinary (ordinary_member without "json_class") ?_
  intro property inside
  cases found : members.lookup "data" with
  | none =>
    rw [parseData_missing engine found] at data
    cases data
    cases inside
  | some value =>
    have among := mem_of_lookup found
    rw [visit_data (parseData engine (testedArray members))
      (parseForIn engine (testedArray members)) (fun key value rest => by rw [parseData])
      found] at data
    rcases mem_parseForIn data inside with already | ⟨inner, flag, below, kept, parse⟩
    · exact already
    · have outer := height_member among
      have own := ((ordinary_obj_iff members).mp without).2 _ among
      simp only at outer
      exact lower inner (by omega) flag _ (kept own) parse

/-- What is parsed from a tree without `__proto__` has none. The induction is on the height, since
the properties of a classed object are two levels below it. -/
theorem parseValue_ordinary (value : Json) : ∀ array parsed, ordinary value = true →
    parseValue engine array value = .ok parsed → ordinary parsed = true := by
  induction value using height_induct with
  | step value ih =>
    intro array parsed without read
    cases value with
    | null =>
      cases array with
      | false => cases read; rfl
      | true => cases read
    | bool | int | float | object => cases array <;> cases read <;> rfl
    | str text =>
      cases array with
      | false => cases read; rfl
      | true =>
        cases read
        rw [if_pos rfl, ordinary_arr_iff, List.forall_mem_map]
        exact fun _ _ => rfl
    | arr elements =>
      rw [ordinary_arr_iff] at without
      obtain ⟨others, rfl, each⟩ := (parseValue_arr_iff array elements parsed).mp read
      rw [ordinary_arr_iff]
      intro other inside
      obtain ⟨element, listed, parse⟩ := Traversal.exists_of_mem_right each inside
      rw [readBack] at parse
      cases array with
      | false =>
        cases parse
        exact without _ listed
      | true => exact ih element (height_element listed) _ other (without element listed) parse
    | obj members =>
      obtain ⟨-, each⟩ := (ordinary_obj_iff members).mp without
      cases classed : isJrObject (.obj members) with
      | true =>
        rw [parseValue_classed engine classed] at read
        exact read_ordinary without ih read
      | false =>
        simp only [parseValue, classed, Bool.false_eq_true, if_false] at read
        cases array with
        | false =>
          cases read
          exact without
        | true =>
          obtain ⟨count, -, counted⟩ := (Traversal.bind_eq_ok_iff _ _ _).mp read
          obtain ⟨elements, listed, ⟨⟩⟩ := (Traversal.bind_eq_ok_iff _ _ _).mp counted
          rw [ordinary_arr_iff]
          intro element inside
          obtain rfl | ⟨member, own, parse⟩ := mem_indexed_parseMembers engine listed inside
          · rfl
          · exact ih member.2 (height_member own) _ element (each member own) parse

end Copies

/-! ## Agreement -/

/-- The decoders agree on the written form of an object, with each other and with the object. What
is copied inside of a copy is copied as it is, so one copy stands for all of them. -/
def Agree (engine : Engine) (extend : Extend) (object : ClassedObject) : Prop :=
  ∃ copied wire again result parsed, extend.copy object.members = .ok copied ∧
    convertObjToJrObj engine copied = .ok (.obj wire) ∧
    extend.copy wire = .ok again ∧ convertObjFromJrObj engine again = .ok result ∧
    parseObj engine wire = .ok parsed ∧
    deepEqual result parsed = true ∧ deepEqual result (.obj object.members) = true ∧
    deepEqual parsed (.obj object.members) = true

/-- An object that is classed is written as one. -/
theorem convertObjToJrObj_classed {engine : Engine} {members wire : List (String × Json)}
    (classed : isJrObject (.obj members) = true)
    (converted : convertObjToJrObj engine members = .ok (.obj wire)) :
    isJrObject (.obj wire) = true := by
  obtain ⟨data, -, same⟩ := (Traversal.map_eq_ok_iff _ _ _).mp converted
  cases same
  exact classed

/-- No object is agreed on that has a member `__proto__` inside: what was copied has none. -/
theorem ordinary_of_agree {engine : Engine} {extend : Extend} {object : ClassedObject}
    (agree : Agree engine extend object) : ordinary (.obj object.members) = true := by
  obtain ⟨copied, wire, again, result, parsed, copies, converted, -, -, reads, -, -, same⟩ := agree
  have without := extend.drops _ _ copies
  have written : ordinary (.obj wire) = true := wrap_ordinary without
    (fun member own written => convert_ordinary member.2 .property written
      (((ordinary_obj_iff copied).mp without).2 member own)) converted
  have read : ordinary parsed = true :=
    read_ordinary written (fun value _ => parseValue_ordinary value) reads
  exact ordinary_of_deepEqual parsed _ object.formed same read

/-- The decoders agree on an object without `__proto__` when each of them brings it back. -/
theorem agree_iff_both (engine : Engine) (extend : Extend) {object : ClassedObject}
    (inside : Inside (.obj object.members)) :
    Agree engine extend object ↔ Restores engine .property (.obj object.members) ∧
      Returns engine .property false (.obj object.members) := by
  have classed := inside.classed
  have copies := extend.faithful _ inside.ordinary
  have writes := convert_classed engine classed .property
  have again : ∀ {wire}, convertObjToJrObj engine object.members = .ok (.obj wire) →
      extend.copy wire = .ok wire := by
    intro wire converted
    exact extend.faithful _ (convert_ordinary _ .property _ inside.ordinary
      (writes.trans converted))
  constructor
  · rintro ⟨_, wire, _, result, parsed, copied, converted, recopied, restores, reads, -,
      sameResult, sameParsed⟩
    cases copies.symm.trans copied
    cases (again converted).symm.trans recopied
    have tagged := convertObjToJrObj_classed classed converted
    refine ⟨⟨.obj wire, result, writes.trans converted, ?_, sameResult⟩,
      ⟨.obj wire, parsed, writes.trans converted, ?_, sameParsed⟩⟩
    · rw [restore_classed engine tagged, restores]
    · rw [readBack, parseValue_classed engine tagged, reads]
  · rintro ⟨⟨written, result, converted, restores, sameResult⟩,
      ⟨other, parsed, second, reads, sameParsed⟩⟩
    rw [writes] at converted second
    rw [converted, Except.ok.injEq] at second
    subst second
    obtain ⟨data, -, rfl⟩ := (Traversal.map_eq_ok_iff _ _ _).mp converted
    rw [wrap] at converted restores reads
    have tagged := convertObjToJrObj_classed classed converted
    rw [restore_classed engine tagged] at restores
    rw [readBack, parseValue_classed engine tagged] at reads
    have turned := deepEqual_symm parsed _ object.formed sameParsed
    exact ⟨_, _, _, result, parsed, copies, converted, again converted, restores, reads,
      deepEqual_trans result _ parsed sameResult turned, sameResult, sameParsed⟩

/-- **When the two decoders agree.** For every classed object that is built from scalars, arrays
and classed objects of any depth, with any names of members, its written form exists and is turned
back into the object by `convert_obj_from_jr_obj` and by `parse_obj` alike exactly when no object
in it has a member named `data` or `__proto__` and no array in it holds an array or an object. -/
theorem decoders_agree_iff (engine : Engine) (extend : Extend) (object : ClassedObject) :
    Agree engine extend object ↔
      ordinary (.obj object.members) = true ∧ agreed (.obj object.members) = true := by
  by_cases without : ordinary (.obj object.members) = true
  · have inside : Inside (.obj object.members) := ⟨object.formed, without, object.classes⟩
    rw [agree_iff_both engine extend inside, restores_iff engine _ .property (by decide) inside,
      returns_iff engine _ .property false object.formed, agreed_iff _ inside]
    exact (and_iff_right without).symm
  · exact iff_of_false (fun agree => without (ordinary_of_agree agree)) fun both => without both.1

/-- Copies that leave an object with a member `__proto__` inside out altogether. -/
def plainExtend : Extend where
  copy members := .ok (if ordinary (.obj members) then members else [])
  faithful members without := by rw [if_pos without]
  drops members copied copies := by
    cases copies
    split
    · assumption
    · rfl

/-- An object with a property named `data`. -/
def dataObject : ClassedObject :=
  ⟨[("json_class", .str "Foo"), ("data", .int 1)], by decide, by decide⟩

/-- The property `data` is lost by one decoder only. -/
theorem data_property_lost :
    ∃ wire, convertObjToJrObj plainEngine dataObject.members = .ok (.obj wire) ∧
      convertObjFromJrObj plainEngine wire = .ok (.obj [("json_class", .str "Foo")]) ∧
      parseObj plainEngine wire = .ok (.obj dataObject.members) ∧
      ¬ Agree plainEngine plainExtend dataObject := by
  refine ⟨_, rfl, by decide, by decide, ?_⟩
  rintro ⟨copied, wire, again, result, parsed, copies, converted, recopied, restores, -, -, same, -⟩
  have first : plainExtend.copy dataObject.members = .ok dataObject.members := by decide
  cases first.symm.trans copies
  cases converted
  have second : plainExtend.copy [("json_class", .str "Foo"), ("data", .obj [("data", .int 1)])] =
      .ok [("json_class", .str "Foo"), ("data", .obj [("data", .int 1)])] := by decide
  cases second.symm.trans recopied
  have lost : convertObjFromJrObj plainEngine
      [("json_class", .str "Foo"), ("data", .obj [("data", .int 1)])] =
        .ok (.obj [("json_class", .str "Foo")]) := by decide
  cases lost.symm.trans restores
  revert same
  decide

end Rjr.Verif.SiteDecoders
