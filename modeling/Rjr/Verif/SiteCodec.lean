import Rjr.Site.JRMessage
import Rjr.Util.JsonText

/-!
# Parameters from the browser and back

A request of `site/jrw.js` is written with its parameters converted, and a received one is parsed.
The parameters that arrive as they were are characterised, for trees of any depth. Three things go
wrong on the way. An array inside an array property of a classed object is converted through a
misspelt name. The parser tests the classed object instead of its property for an array, so
classed objects inside an array property are not converted back. And an object with a `length` is
taken for an array wherever the codec looks.
-/

namespace Rjr.Verif.SiteCodec

open Site Site.JRMessage

/-! ## What arrives -/

mutual

/-- Whether a value arrives as it was. An element of an array property, and the property, depend
on whether `parse_obj` gives the property to `parse_array`. -/
def carried (position : Position) (array : Bool) : Json → Bool
  | .arr elements =>
    match position with
    | .param => carriedEach .param array elements
    | .property => carriedEach .element array elements
    | .element => false
  | .obj members =>
    if isJrObject (.obj members) then
      (position != .element || array) && carriedProperties (isArray (.obj members)) members
    else !isArray (.obj members) && (position != .property || !array)
  | _ => position != .property || !array

/-- All elements arrive as they were. -/
def carriedEach (position : Position) (array : Bool) : List Json → Bool
  | [] => true
  | value :: rest => carried position array value && carriedEach position array rest

/-- All properties of a classed object arrive as they were. Only the property `data` of an object
that has a `length` is given to `parse_array`. -/
def carriedProperties (length : Bool) : List (String × Json) → Bool
  | [] => true
  | (key, value) :: rest =>
    (key == "json_class" ||
      key != "__proto__" && carried .property (key == "data" && length) value) &&
      carriedProperties length rest

end

/-- Elements arrive when each of them does. -/
theorem carriedEach_iff (position : Position) (array : Bool) (elements : List Json) :
    carriedEach position array elements = true ↔
      ∀ value ∈ elements, carried position array value = true := by
  induction elements with
  | nil => simp [carriedEach]
  | cons value rest ih => simp [carriedEach, ih]

/-- Properties arrive when each of them does and none is named `__proto__`. -/
theorem carriedProperties_iff (length : Bool) (members : List (String × Json)) :
    carriedProperties length members = true ↔
      "__proto__" ∉ members.map Prod.fst ∧
        ∀ member ∈ members.filter fun member => member.1 != "json_class",
          carried .property (member.1 == "data" && length) member.2 = true := by
  induction members with
  | nil => simp [carriedProperties]
  | cons member rest ih =>
    obtain ⟨key, value⟩ := member
    rw [carriedProperties, Bool.and_eq_true, ih, List.filter_cons]
    by_cases named : key = "json_class"
    · simp [named]
    · have kept : (key != "json_class") = true := by simpa using named
      have other : (key == "json_class") = false := by simpa using named
      rw [if_pos kept, List.forall_mem_cons]
      rw [other, Bool.false_or, Bool.and_eq_true, bne_iff_ne, ne_comm, List.map_cons,
        List.mem_cons, not_or]
      exact and_and_and_comm

section Values

variable (engine : Engine)

/-- How a converted value is read back: a property by the test that `parse_obj` makes, the element
of an array property only if that test gives the property to `parse_array`. -/
def readBack (position : Position) (array : Bool) (written : Json) : Except Thrown Json :=
  match position with
  | .param => parseValue engine (isArray written) written
  | .property => parseValue engine array written
  | .element => if array then parseValue engine (isArray written) written else .ok written

/-- A value is converted and read back as an equal one. -/
def Returns (position : Position) (array : Bool) (value : Json) : Prop :=
  ∃ written parsed, convert engine position value = .ok written ∧
    readBack engine position array written = .ok parsed ∧ deepEqual parsed value = true

variable {engine}

/-- An array is read as an array, element by element. -/
theorem parseValue_arr_iff (array : Bool) (elements : List Json) (parsed : Json) :
    parseValue engine array (.arr elements) = .ok parsed ↔
      ∃ others, parsed = .arr others ∧
        List.Forall₂ (fun written read => readBack engine .element array written = .ok read)
          elements others := by
  rw [parseValue]
  cases array with
  | true =>
    simp only [readBack, if_true, ← parseEach_ok_iff]
    cases parseEach engine elements <;> simp [Except.map, eq_comm]
  | false =>
    simp only [readBack, Bool.false_eq_true, if_false, Except.ok.injEq, List.forall₂_eq_eq_eq]
    simp [eq_comm]

/-- What was converted to an array is read as an array. -/
theorem readBack_arr {position : Position} {array : Bool} {elements : List Json} {parsed : Json}
    (read : readBack engine position array (.arr elements) = .ok parsed) :
    ∃ others, parsed = .arr others := by
  have listed : ∀ flag, parseValue engine flag (.arr elements) = .ok parsed →
      ∃ others, parsed = .arr others := by
    intro flag succeeded
    obtain ⟨others, same, -⟩ := (parseValue_arr_iff flag elements parsed).mp succeeded
    exact ⟨others, same⟩
  cases position with
  | param => exact listed true read
  | property => exact listed array read
  | element =>
    cases array with
    | true => exact listed true read
    | false =>
      cases read
      exact ⟨elements, rfl⟩

/-- An object whose conversion is an array does not return. -/
theorem not_returns_of_arr {position : Position} {array : Bool} {members : List (String × Json)}
    (listed : ∀ written, convert engine position (.obj members) = .ok written →
      ∃ elements, written = .arr elements) :
    ¬Returns engine position array (.obj members) := by
  rintro ⟨written, parsed, converted, read, same⟩
  obtain ⟨elements, rfl⟩ := listed written converted
  obtain ⟨others, rfl⟩ := readBack_arr read
  cases same

/-- A value that is converted to itself returns unless it is given to `parse_array`. -/
theorem returns_unchanged_iff {value : Json} {position : Position} {array : Bool}
    (formed : wellFormed value = true) (same : convert engine position value = .ok value)
    (notArray : isArray value = false) (kept : parseValue engine false value = .ok value)
    (lost : ∀ parsed, parseValue engine true value = .ok parsed → deepEqual parsed value = false) :
    Returns engine position array value ↔ (position != .property || !array) = true := by
  have equal := deepEqual_refl value formed
  have item : parseValue engine (isArray value) value = .ok value := by rw [notArray, kept]
  cases position with
  | param => exact iff_of_true ⟨value, value, same, item, equal⟩ rfl
  | element =>
    refine iff_of_true ⟨value, value, same, ?_, equal⟩ rfl
    cases array with
    | true => exact item
    | false => rfl
  | property =>
    cases array with
    | false => exact iff_of_true ⟨value, value, same, kept, equal⟩ rfl
    | true =>
      refine iff_of_false ?_ Bool.false_ne_true
      rintro ⟨written, parsed, converted, read, agree⟩
      rw [same] at converted
      cases converted
      rw [lost parsed read] at agree
      cases agree

/-- An array returns when its elements return one by one. -/
theorem returns_arr_iff {position inner : Position} {array : Bool} (elements : List Json)
    (converts : convert engine position (.arr elements) =
      (convertEach engine inner elements).map .arr)
    (reads : ∀ written parsed, readBack engine position array (.arr written) = .ok parsed ↔
      ∃ others, parsed = .arr others ∧
        List.Forall₂ (fun value read => readBack engine inner array value = .ok read)
          written others) :
    Returns engine position array (.arr elements) ↔
      ∀ value ∈ elements, Returns engine inner array value := by
  have elementwise := Traversal.exists_forall₂_iff
    (fun value written => convert engine inner value = .ok written)
    (fun written read => readBack engine inner array written = .ok read)
    (fun read value => deepEqual read value = true) elements
  unfold Returns
  rw [← elementwise]
  constructor
  · rintro ⟨written, parsed, converted, read, same⟩
    rw [converts, Traversal.map_eq_ok_iff] at converted
    obtain ⟨middle, each, rfl⟩ := converted
    obtain ⟨last, rfl, back⟩ := (reads middle parsed).mp read
    exact ⟨middle, last, (convertEach_ok_iff engine inner elements middle).mp each, back,
      (deepEqualElements_iff last elements).mp same⟩
  · rintro ⟨middle, last, forth, back, same⟩
    have each := (convertEach_ok_iff engine inner elements middle).mpr forth
    refine ⟨.arr middle, .arr last, ?_, (reads middle _).mpr ⟨last, rfl, back⟩,
      (deepEqualElements_iff last elements).mpr same⟩
    rw [converts, each]
    rfl

/-! ## Classed objects -/

/-- The properties of an object without its class. -/
def properties (members : List (String × Json)) : List (String × Json) :=
  members.filter fun member => member.1 != "json_class"

variable (engine) in
/-- A property and its converted form. -/
def Written (property written : String × Json) : Prop :=
  property.1 = written.1 ∧ convert engine .property property.2 = .ok written.2

variable (engine) in
/-- A converted property and what `parse_obj` reads from it. Only the property `data` of an object
that has a `length` is given to `parse_array`. -/
def Read (members : List (String × Json)) (written read : String × Json) : Prop :=
  written.1 = read.1 ∧
    parseValue engine (written.1 == "data" && isArray (.obj members)) written.2 = .ok read.2

/-- What was read and the property it should be. -/
def Same (read property : String × Json) : Prop :=
  read.1 = property.1 ∧ deepEqual read.2 property.2 = true

/-- A classed object has a class, which is found under its name. -/
theorem lookup_class {members : List (String × Json)} (classed : isJrObject (.obj members) = true) :
    members.lookup "json_class" = some (member "json_class" members) := by
  rw [isJrObject, member] at classed
  cases found : members.lookup "json_class" with
  | none =>
    rw [found] at classed
    cases classed
  | some value => rw [member, found, Option.getD_some]

/-- A name is a property's when it is not that of the class. -/
theorem mem_properties_keys (members : List (String × Json)) (key : String) :
    key ∈ (properties members).map Prod.fst ↔
      key ∈ members.map Prod.fst ∧ key ≠ "json_class" := by
  simp only [properties, List.mem_map, List.mem_filter, bne_iff_ne]
  constructor
  · rintro ⟨member, ⟨inside, other⟩, rfl⟩
    exact ⟨⟨member, inside, rfl⟩, other⟩
  · rintro ⟨⟨member, inside, rfl⟩, other⟩
    exact ⟨member, ⟨inside, other⟩, rfl⟩

/-- Values that are found in the original under their names equal its properties one by one. -/
theorem forall_lookup_iff {members parsed : List (String × Json)}
    (distinct : (members.map Prod.fst).Nodup) :
    ∀ {listed : List (String × Json)}, (∀ member ∈ listed, member ∈ members) →
      parsed.map Prod.fst = listed.map Prod.fst →
      ((∀ read ∈ parsed, ∃ other, members.lookup read.1 = some other ∧
          deepEqual read.2 other = true) ↔
        List.Forall₂ Same parsed listed) := by
  induction parsed with
  | nil =>
    intro listed _ aligned
    rw [List.map_nil, eq_comm, List.map_eq_nil_iff] at aligned
    simp [aligned]
  | cons read rest ih =>
    intro listed inside aligned
    cases listed with
    | nil => cases aligned
    | cons member others =>
      obtain ⟨named, following⟩ := List.cons_eq_cons.mp aligned
      rw [List.forall_mem_cons] at inside ⊢
      have found : members.lookup read.1 = some member.2 :=
        named ▸ lookup_of_mem distinct inside.1
      rw [List.forall₂_cons, ih inside.2 following, found]
      simp [Same, named]

/-- What `parse_obj` builds equals the original when no property is named `__proto__` and the
properties are equal one by one. -/
theorem deepEqual_build_iff {members : List (String × Json)}
    (formed : wellFormed (.obj members) = true) (classed : isJrObject (.obj members) = true)
    (parsed : List (String × Json))
    (aligned : parsed.map Prod.fst = (properties members).map Prod.fst) :
    deepEqual (build (member "json_class" members) parsed) (.obj members) = true ↔
      "__proto__" ∉ members.map Prod.fst ∧
        List.Forall₂ Same parsed (properties members) := by
  obtain ⟨distinct, each⟩ := (wellFormed_obj_iff members).mp formed
  have classKey : "json_class" ∉ parsed.map Prod.fst := by
    rw [aligned, mem_properties_keys]
    rintro ⟨-, other⟩
    exact other rfl
  rw [build, deepEqual_obj_iff]
  by_cases named : "__proto__" ∈ members.map Prod.fst
  · refine iff_of_false ?_ (fun both => both.1 named)
    rintro ⟨keys, -⟩
    refine proto_not_mem_assignAll parsed ?_ (keys "__proto__" named)
    rw [OrderedHash.mem_keys_put]
    exact fun either => either.elim (by decide) nofun
  · have ordinary : "__proto__" ∉ parsed.map Prod.fst := by
      rw [aligned, mem_properties_keys]
      exact fun both => named both.1
    have fresh : ∀ key ∈ parsed.map Prod.fst,
        key ∉ (OrderedHash.empty.put "json_class" (member "json_class" members)).keys := by
      intro key inside
      rw [OrderedHash.mem_keys_put]
      rintro (same | impossible)
      · exact classKey (same ▸ inside)
      · cases impossible
    have parsedDistinct : (parsed.map Prod.fst).Nodup := by
      rw [aligned]
      exact distinct.sublist (List.filter_sublist.map Prod.fst)
    have listed : (OrderedHash.empty.put "json_class" (member "json_class" members)).entries =
        [("json_class", member "json_class" members)] := rfl
    have formedClass : wellFormed (member "json_class" members) = true :=
      each _ (mem_of_lookup (lookup_class classed))
    have sameKeys : ∀ key ∈ members.map Prod.fst,
        key = "json_class" ∨ key ∈ parsed.map Prod.fst := by
      intro key inside
      rw [aligned, mem_properties_keys]
      by_cases same : key = "json_class"
      · exact .inl same
      · exact .inr ⟨inside, same⟩
    rw [assignAll_entries parsedDistinct fresh ordinary, listed, List.singleton_append,
      List.forall_mem_cons, forall_lookup_iff distinct
        (fun member inside => List.mem_of_mem_filter inside) aligned]
    have classEqual : ∃ other, members.lookup "json_class" = some other ∧
        deepEqual (member "json_class" members) other = true :=
      ⟨_, lookup_class classed, deepEqual_refl _ formedClass⟩
    constructor
    · rintro ⟨-, -, equal⟩
      exact ⟨named, equal⟩
    · rintro ⟨-, equal⟩
      refine ⟨?_, classEqual, equal⟩
      intro key inside
      rw [List.map_cons, List.mem_cons]
      exact sameKeys key inside

/-- A property is found in the object. -/
theorem lookup_properties (members : List (String × Json)) {key : String}
    (other : key ≠ "json_class") : (properties members).lookup key = members.lookup key := by
  unfold properties
  induction members with
  | nil => rfl
  | cons member rest ih =>
    obtain ⟨name, value⟩ := member
    rw [List.filter_cons, OrderedHash.lookup_cons_if key name]
    by_cases named : name = "json_class"
    · simp [named, other, ih]
    · have kept : (name != "json_class") = true := by simpa using named
      rw [if_pos kept, OrderedHash.lookup_cons_if, ih]

/-- Only `null` is converted to `null`. -/
theorem convert_isNil {position : Position} {value written : Json}
    (converted : convert engine position value = .ok written) : written.isNil = value.isNil := by
  cases value with
  | null | bool | int | float | str | object =>
    simp only [convert, Except.ok.injEq] at converted
    rw [converted]
  | arr elements =>
    have listed : ∀ inner, (convertEach engine inner elements).map .arr = .ok written →
        written.isNil = false := by
      intro inner each
      obtain ⟨others, -, rfl⟩ := (Traversal.map_eq_ok_iff _ _ _).mp each
      rfl
    cases position with
    | param => exact listed .param (convert_param_arr engine elements ▸ converted)
    | property => exact listed .element (convert_property_arr engine elements ▸ converted)
    | element => simp [convert] at converted
  | obj members =>
    cases classed : isJrObject (.obj members) with
    | true =>
      rw [convert_classed engine classed, convertObjToJrObj, Traversal.map_eq_ok_iff] at converted
      obtain ⟨data, -, rfl⟩ := converted
      rfl
    | false =>
      cases array : isArray (.obj members) with
      | true =>
        obtain ⟨-, -, -, -, rfl⟩ := convert_arrayLike engine classed array position converted
        rfl
      | false =>
        rw [convert_plain engine classed array] at converted
        cases converted
        rfl

/-- The converted properties have a `length` when the object has one. -/
theorem isArray_data {members data : List (String × Json)}
    (converted : List.Forall₂ (Written engine) (properties members) data) :
    isArray (.obj data) = isArray (.obj members) := by
  have related := Traversal.lookup_forall₂
    (fun value written => convert engine .property value = .ok written) converted "length"
  rw [lookup_properties members (by decide)] at related
  rw [isArray, isArray, member, member]
  cases found : members.lookup "length" with
  | none =>
    rw [found] at related
    cases missing : data.lookup "length" with
    | none => rfl
    | some written =>
      rw [missing] at related
      cases related
  | some value =>
    rw [found] at related
    cases present : data.lookup "length" with
    | none =>
      rw [present] at related
      cases related
    | some written =>
      rw [present] at related
      cases related with
      | some conversion => rw [Option.getD_some, Option.getD_some, convert_isNil conversion]

/-- The test that `parse_obj` makes for a property of a converted object. -/
theorem testedArray_wrap (jsonClass : Json) (data : List (String × Json)) {key : String}
    (other : key ≠ "json_class") :
    testedArray [("json_class", jsonClass), ("data", .obj data)] key =
      (key == "data" && isArray (.obj data)) := by
  rw [testedArray, member, OrderedHash.lookup_cons_if, if_neg other, OrderedHash.lookup_cons_if]
  by_cases named : key = "data"
  · simp [named]
  · simp [named, isArray]

/-- A converted object is read by `parse_obj`, property by property. -/
theorem parseValue_wrap_ok_iff (array : Bool) {members data : List (String × Json)}
    (classed : isJrObject (.obj members) = true)
    (converted : List.Forall₂ (Written engine) (properties members) data) (result : Json) :
    parseValue engine array (wrap (member "json_class" members) data) = .ok result ↔
      ∃ parsed, List.Forall₂ (Read engine members) data parsed ∧
        build (member "json_class" members) parsed = result := by
  have wrapped : isJrObject (.obj [("json_class", member "json_class" members),
    ("data", .obj data)]) = true := classed
  have unfolded : parseValue engine array (wrap (member "json_class" members) data) =
      (parseProperties engine (testedArray [("json_class", member "json_class" members),
        ("data", .obj data)]) data).map (build (member "json_class" members)) := by
    rw [wrap, parseValue_classed engine wrapped]
    rfl
  have tests : ∀ written ∈ data, testedArray [("json_class", member "json_class" members),
      ("data", .obj data)] written.1 = (written.1 == "data" && isArray (.obj members)) := by
    intro written inside
    have named : written.1 ∈ (properties members).map Prod.fst := by
      rw [Traversal.keys_forall₂ (converted.imp fun _ _ both => both.1)]
      exact List.mem_map.mpr ⟨written, inside, rfl⟩
    rw [testedArray_wrap _ data ((mem_properties_keys members written.1).mp named).2,
      isArray_data converted]
  have agree := parseProperties_congr engine
    (fun key => key == "data" && isArray (.obj members)) tests
  rw [unfolded, agree, Traversal.map_eq_ok_iff]
  simp only [parseProperties_ok_iff]
  exact Iff.rfl

/-- The written form of a classed object is never equal to the object. -/
theorem deepEqual_wrap {members data : List (String × Json)}
    (converted : List.Forall₂ (Written engine) (properties members) data) :
    deepEqual (wrap (member "json_class" members) data) (.obj members) = false := by
  rw [Bool.eq_false_iff, wrap]
  intro same
  obtain ⟨keys, each⟩ := (deepEqual_obj_iff _ _).mp same
  obtain ⟨inner, found, equal⟩ := each ("data", .obj data) (by simp)
  have names : ∀ key ∈ data.map Prod.fst, key = "data" := by
    intro key inside
    rw [← Traversal.keys_forall₂ (converted.imp fun _ _ both => both.1),
      mem_properties_keys] at inside
    have either := keys key inside.1
    simpa [inside.2] using either
  have related := Traversal.lookup_forall₂
    (fun value written => convert engine .property value = .ok written) converted "data"
  rw [lookup_properties members (by decide), found] at related
  cases inner with
  | obj own =>
    -- An object with at most the member `data` has no class and no length, so it is not converted.
    have absent : ∀ key, key ≠ "data" → own.lookup key = none := by
      intro key other
      cases looked : own.lookup key with
      | none => rfl
      | some value =>
        have inside : key ∈ own.map Prod.fst := List.mem_map.mpr ⟨_, mem_of_lookup looked, rfl⟩
        exact absurd (names key (((deepEqual_obj_iff _ _).mp equal).1 key inside)) other
    have classed : isJrObject (.obj own) = false := by
      rw [isJrObject, member, absent "json_class" (by decide)]
      rfl
    have array : isArray (.obj own) = false := by
      rw [isArray, member, absent "length" (by decide)]
      rfl
    cases written : data.lookup "data" with
    | none =>
      rw [written] at related
      cases related
    | some value =>
      rw [written] at related
      cases related with
      | some conversion =>
        rw [convert_plain engine classed array] at conversion
        cases conversion
        rw [deepEqual_own_member "data" (.obj own) data (mem_of_lookup written)] at equal
        cases equal
  | _ => cases equal

/-- A classed object that is read by `parse_obj` returns when none of its properties is named
`__proto__` and each of them returns. -/
theorem returns_classed_iff {position : Position} {array : Bool} {members : List (String × Json)}
    (formed : wellFormed (.obj members) = true) (classed : isJrObject (.obj members) = true)
    (parsed : (position != .element || array) = true) :
    Returns engine position array (.obj members) ↔
      "__proto__" ∉ members.map Prod.fst ∧ ∀ member ∈ properties members,
        Returns engine .property (member.1 == "data" && isArray (.obj members)) member.2 := by
  have reads : ∀ data, ∃ flag,
      readBack engine position array (wrap (member "json_class" members) data) =
        parseValue engine flag (wrap (member "json_class" members) data) := by
    intro data
    cases position with
    | param => exact ⟨_, rfl⟩
    | property => exact ⟨_, rfl⟩
    | element =>
      cases array with
      | true => exact ⟨_, rfl⟩
      | false => cases parsed
  have single : ∀ member : String × Json,
      (∃ written read, Written engine member written ∧ Read engine members written read ∧
        Same read member) ↔
      Returns engine .property (member.1 == "data" && isArray (.obj members)) member.2 := by
    intro member
    constructor
    · rintro ⟨⟨key, written⟩, ⟨name, read⟩, ⟨rfl, converted⟩, ⟨-, back⟩, -, same⟩
      exact ⟨written, read, converted, back, same⟩
    · rintro ⟨written, read, converted, back, same⟩
      exact ⟨(member.1, written), (member.1, read), ⟨rfl, converted⟩, ⟨rfl, back⟩, rfl, same⟩
  have elementwise := Traversal.exists_forall₂_iff (Written engine) (Read engine members) Same
    (properties members)
  have keys : ∀ {data parsed}, List.Forall₂ (Written engine) (properties members) data →
      List.Forall₂ (Read engine members) data parsed →
      parsed.map Prod.fst = (properties members).map Prod.fst := by
    intro data parsed forth back
    rw [Traversal.keys_forall₂ (forth.imp fun _ _ both => both.1),
      Traversal.keys_forall₂ (back.imp fun _ _ both => both.1)]
  constructor
  · rintro ⟨written, result, converted, read, same⟩
    rw [convert_classed engine classed, convertObjToJrObj, Traversal.map_eq_ok_iff] at converted
    obtain ⟨data, each, rfl⟩ := converted
    have forth := (convertProperties_ok_iff engine members data).mp each
    obtain ⟨flag, given⟩ := reads data
    rw [given, parseValue_wrap_ok_iff flag classed forth] at read
    obtain ⟨parsed, back, rfl⟩ := read
    obtain ⟨ordinary, compared⟩ :=
      (deepEqual_build_iff formed classed parsed (keys forth back)).mp same
    refine ⟨ordinary, fun member inside => (single member).mp ?_⟩
    exact elementwise.mp ⟨data, parsed, forth, back, compared⟩ member inside
  · rintro ⟨ordinary, each⟩
    obtain ⟨data, parsed, forth, back, compared⟩ :=
      elementwise.mpr fun member inside => (single member).mpr (each member inside)
    obtain ⟨flag, given⟩ := reads data
    refine ⟨wrap (member "json_class" members) data, build (member "json_class" members) parsed,
      ?_, ?_, (deepEqual_build_iff formed classed parsed (keys forth back)).mpr
        ⟨ordinary, compared⟩⟩
    · rw [convert_classed engine classed, convertObjToJrObj, Traversal.map_eq_ok_iff]
      exact ⟨data, (convertProperties_ok_iff engine members data).mpr forth, rfl⟩
    · rw [given, parseValue_wrap_ok_iff flag classed forth]
      exact ⟨parsed, back, rfl⟩

/-- A classed object in an array property that is not given to `parse_array` stays wrapped. -/
theorem not_returns_wrapped {members : List (String × Json)}
    (classed : isJrObject (.obj members) = true) :
    ¬Returns engine .element false (.obj members) := by
  rintro ⟨written, parsed, converted, read, same⟩
  rw [convert_classed engine classed, convertObjToJrObj, Traversal.map_eq_ok_iff] at converted
  obtain ⟨data, each, rfl⟩ := converted
  cases read
  rw [deepEqual_wrap ((convertProperties_ok_iff engine members data).mp each)] at same
  cases same

/-! ## Whole trees -/

/-- An object that is given to `parse_array` is read as an array. -/
theorem parseValue_obj_array {members : List (String × Json)}
    (classed : isJrObject (.obj members) = false) {parsed : Json}
    (read : parseValue engine true (.obj members) = .ok parsed) :
    deepEqual parsed (.obj members) = false := by
  simp only [parseValue, classed, Bool.false_eq_true, if_false, if_true] at read
  obtain ⟨count, -, counted⟩ := (Traversal.bind_eq_ok_iff _ _ _).mp read
  obtain ⟨elements, -, ⟨⟩⟩ := (Traversal.bind_eq_ok_iff _ _ _).mp counted
  rfl

variable (engine) in
/-- A well-formed value returns exactly when it is carried. The proof follows the tree; at each
node the position decides which converter and which parser meet it. -/
theorem returns_iff (value : Json) : ∀ position array, wellFormed value = true →
    (Returns engine position array value ↔ carried position array value = true) := by
  induction value using Json.induct with
  | null =>
    intro position array formed
    exact returns_unchanged_iff formed rfl rfl rfl (fun parsed read => by cases read)
  | bool | int | float | str | object =>
    intro position array formed
    refine returns_unchanged_iff formed rfl rfl rfl ?_
    intro parsed read
    cases read
    rfl
  | arr elements ih =>
    intro position array formed
    rw [wellFormed_arr_iff] at formed
    cases position with
    | param =>
      have elementwise : Returns engine .param array (.arr elements) ↔
          ∀ value ∈ elements, Returns engine .param array value :=
        returns_arr_iff elements (convert_param_arr engine elements) (parseValue_arr_iff true)
      rw [elementwise, carried, carriedEach_iff]
      exact forall₂_congr fun value inside => ih value inside .param array (formed value inside)
    | property =>
      have elementwise : Returns engine .property array (.arr elements) ↔
          ∀ value ∈ elements, Returns engine .element array value :=
        returns_arr_iff elements (convert_property_arr engine elements) (parseValue_arr_iff array)
      rw [elementwise, carried, carriedEach_iff]
      exact forall₂_congr fun value inside => ih value inside .element array (formed value inside)
    | element =>
      refine iff_of_false ?_ Bool.false_ne_true
      rintro ⟨written, parsed, converted, -⟩
      cases converted
  | obj members ih =>
    intro position array formed
    obtain ⟨distinct, each⟩ := (wellFormed_obj_iff members).mp formed
    rw [carried]
    cases classed : isJrObject (.obj members) with
    | true =>
      rw [if_pos rfl, Bool.and_eq_true]
      by_cases parsed : (position != .element || array) = true
      · rw [returns_classed_iff formed classed parsed, carriedProperties_iff]
        simp only [parsed, true_and]
        apply and_congr_right
        intro _
        apply forall₂_congr
        intro member inside
        have listed := List.mem_of_mem_filter inside
        exact ih member listed .property _ (each member listed)
      · refine iff_of_false ?_ (fun both => parsed both.1)
        simp only [Bool.or_eq_true, bne_iff_ne, not_or, ne_eq, not_not, Bool.not_eq_true] at parsed
        obtain ⟨rfl, rfl⟩ := parsed
        exact not_returns_wrapped classed
    | false =>
      rw [if_neg Bool.false_ne_true, Bool.and_eq_true, Bool.not_eq_true']
      cases taken : isArray (.obj members) with
      | true =>
        refine iff_of_false ?_ (fun both => nomatch both.1)
        apply not_returns_of_arr
        intro written converted
        obtain ⟨-, -, elements, -, same⟩ :=
          convert_arrayLike engine classed taken position converted
        exact ⟨elements, same⟩
      | false =>
        rw [returns_unchanged_iff formed (convert_plain engine classed taken position) taken]
        · simp
        · simp only [parseValue, classed, Bool.false_eq_true, if_false]
        · exact fun parsed read => parseValue_obj_array classed read

/-- What is converted from a well-formed value is well formed. -/
theorem convert_wellFormed (value : Json) : ∀ position written, wellFormed value = true →
    convert engine position value = .ok written → wellFormed written = true := by
  induction value using Json.induct with
  | null | bool | int | float | str | object =>
    intro position written formed converted
    cases converted
    exact formed
  | arr elements ih =>
    intro position written formed converted
    rw [wellFormed_arr_iff] at formed
    have listed : ∀ inner, (convertEach engine inner elements).map .arr = .ok written →
        wellFormed written = true := by
      intro inner each
      obtain ⟨others, done, rfl⟩ := (Traversal.map_eq_ok_iff _ _ _).mp each
      rw [convertEach_ok_iff] at done
      rw [wellFormed_arr_iff]
      intro other inside
      obtain ⟨value, own, result⟩ := Traversal.exists_of_mem_right done inside
      exact ih value own inner other (formed value own) result
    cases position with
    | param => exact listed .param converted
    | property => exact listed .element converted
    | element => cases converted
  | obj members ih =>
    intro position written formed converted
    obtain ⟨distinct, each⟩ := (wellFormed_obj_iff members).mp formed
    cases classed : isJrObject (.obj members) with
    | true =>
      rw [convert_classed engine classed, convertObjToJrObj, Traversal.map_eq_ok_iff] at converted
      obtain ⟨data, done, rfl⟩ := converted
      rw [convertProperties_ok_iff] at done
      have formedData : wellFormed (.obj data) = true := by
        rw [wellFormed_obj_iff, ← Traversal.keys_forall₂ (done.imp fun _ _ both => both.1)]
        refine ⟨distinct.sublist (List.filter_sublist.map Prod.fst), ?_⟩
        intro other inside
        obtain ⟨member, own, -, result⟩ := Traversal.exists_of_mem_right done inside
        have listed := List.mem_of_mem_filter own
        exact ih member listed .property other.2 (each member listed) result
      have formedClass : wellFormed (member "json_class" members) = true :=
        each _ (mem_of_lookup (lookup_class classed))
      rw [wrap, wellFormed_obj_iff]
      simp [formedData, formedClass]
    | false =>
      cases taken : isArray (.obj members) with
      | true =>
        obtain ⟨inner, count, elements, listed, rfl⟩ :=
          convert_arrayLike engine classed taken position converted
        rw [wellFormed_arr_iff]
        intro element inside
        obtain rfl | ⟨member, own, result⟩ := mem_indexed_convertMembers engine listed inside
        · rfl
        · exact ih member own inner element (each member own) result
      | false =>
        rw [convert_plain engine classed taken] at converted
        cases converted
        exact formed

end Values

/-! ## Messages -/

/-- A request whose values JSON can express and whose headers leave `params` and `result` alone. -/
structure Request (message : JRMessage) : Prop where
  /-- The id is well formed. -/
  id : wellFormed message.id = true
  /-- The method is well formed. -/
  rpcMethod : wellFormed message.rpcMethod = true
  /-- The parameters are well formed. -/
  params : ∀ param ∈ message.params, wellFormed param = true
  /-- The headers are well formed. -/
  headers : ∀ header ∈ message.headers.entries, wellFormed header.2 = true
  /-- No header replaces the parameters. -/
  noParams : "params" ∉ message.headers.keys
  /-- No header makes the request look like a response. -/
  noResult : "result" ∉ message.headers.keys

section Messages

variable (engine : Engine) (native : NativeJson)

/-- A request is written and parsed, and its parameters are deeply equal to the original ones. -/
def Returned (message : JRMessage) : Prop :=
  ∃ json parsed, message.toJson engine native = .ok json ∧
    JRMessage.parse engine native json = .ok parsed ∧
    deepEqualElements parsed.params message.params = true

/-- The written members are parsed back. -/
theorem parse_members {message : JRMessage} (request : Request message) {params : List Json}
    (formed : ∀ param ∈ params, wellFormed param = true) :
    JRMessage.parse engine native (native.stringify (.obj (message.members params).entries)) =
      (parseEach engine params).map fun parsed =>
        { id := member "id" (message.members params).entries
          rpcMethod := member "method" (message.members params).entries
          params := parsed
          error := member "error" (message.members params).entries } := by
  have formedMembers : wellFormed (.obj (message.members params).entries) = true := by
    rw [wellFormed_obj_iff]
    refine ⟨(message.members params).distinct, ?_⟩
    intro entry inside
    rcases mem_assignAll inside with header | standard
    · exact request.headers entry header
    · have listed : wellFormed (.arr params) = true := (wellFormed_arr_iff params).mpr formed
      simp only [List.mem_cons, List.not_mem_nil, or_false] at standard
      rcases standard with rfl | rfl | rfl | rfl
      · rfl
      · exact request.rpcMethod
      · exact listed
      · exact request.id
  have read := native.parse_stringify _ formedMembers
  have hasParams : member "params" (message.members params).entries = .arr params := by
    have found : (message.members params).get? "params" = some (.arr params) :=
      get?_assignAll_absent request.noParams
    exact congrArg (Option.getD · .null) found
  have noResult : member "result" (message.members params).entries = .null := by
    have missing : (message.members params).get? "result" = none :=
      get?_assignAll_absent request.noResult
    exact congrArg (Option.getD · .null) missing
  simp only [JRMessage.parse, read, bind, Except.bind, hasParams, noResult]
  change Except.bind (parseEach engine params) _ = _
  cases parseEach engine params <;> rfl

/-- The parameters of a request return together when each of them returns. -/
theorem returned_iff {message : JRMessage} (request : Request message) :
    Returned engine native message ↔
      ∀ param ∈ message.params, Returns engine .param false param := by
  have elementwise := Traversal.exists_forall₂_iff
    (fun value written => convert engine .param value = .ok written)
    (fun written read => parseValue engine (isArray written) written = .ok read)
    (fun read value => deepEqual read value = true) message.params
  have formed : ∀ {written},
      List.Forall₂ (fun value written => convert engine .param value = .ok written)
        message.params written → ∀ value ∈ written, wellFormed value = true := by
    intro written forth value inside
    obtain ⟨param, own, result⟩ := Traversal.exists_of_mem_right forth inside
    exact convert_wellFormed param .param value (request.params param own) result
  refine Iff.trans ?_ elementwise
  constructor
  · rintro ⟨json, parsed, encoded, decoded, same⟩
    obtain ⟨written, converted, ⟨⟩⟩ := (Traversal.bind_eq_ok_iff _ _ _).mp encoded
    have forth := (convertEach_ok_iff engine .param message.params written).mp converted
    rw [parse_members engine native request (formed forth), Traversal.map_eq_ok_iff] at decoded
    obtain ⟨read, back, rfl⟩ := decoded
    exact ⟨written, read, forth, (parseEach_ok_iff engine written read).mp back,
      (deepEqualElements_iff read message.params).mp same⟩
  · rintro ⟨written, read, forth, back, same⟩
    have converted := (convertEach_ok_iff engine .param message.params written).mpr forth
    have parsed := (parseEach_ok_iff engine written read).mpr back
    have encoded : message.toJson engine native =
        .ok (native.stringify (.obj (message.members written).entries)) := by
      rw [JRMessage.toJson, Traversal.bind_eq_ok_iff]
      exact ⟨written, converted, rfl⟩
    have decoded := parse_members engine native request (formed forth)
    rw [parsed] at decoded
    exact ⟨_, _, encoded, decoded, (deepEqualElements_iff read message.params).mpr same⟩

/-- **Which parameters arrive as they were.** For every request, with parameters of any depth, the
text of the request is parsed to deeply equal parameters exactly when each parameter is carried:
no array stands inside an array property of a classed object, no classed object stands there
either, no object with a `length` stands where the codec tests for an array, and no property of a
classed object is named `__proto__`. The property `data` of a classed object that has a `length`
is the exception that `parse_obj` reads as an array. -/
theorem params_returned_iff (message : JRMessage) (request : Request message) :
    Returned engine native message ↔
      ∀ param ∈ message.params, carried .param false param = true := by
  rw [returned_iff engine native request]
  apply forall₂_congr
  intro param inside
  exact returns_iff engine param .param false (request.params param inside)

end Messages

/-! ## Two requests -/

/-- Native JSON with a printer and a reader that are proved to be inverse. -/
def textJson : NativeJson where
  stringify tree := String.ofList (JsonText.write tree)
  parse text := (JsonText.read text).mapError fun _ => .syntaxError
  parse_stringify tree formed := by
    rw [JsonText.read_write formed]
    rfl

/-- An engine that reads only integers as numbers. -/
def plainEngine : Engine where
  bound
    | .int number => .ok number.toNat
    | _ => .ok 0
  arrayLength
    | .int number => if 0 ≤ number then .ok number.toNat else .error .rangeError
    | _ => .error .rangeError
  characters text := text.toList.map String.singleton
  text _ := "[object Object]"

/-- A request with one parameter. -/
def requestWith (param : Json) : JRMessage :=
  { id := .str "1", rpcMethod := .str "echo", params := [param] }

/-- A request with one well-formed parameter and no headers. -/
theorem requestWith_request {param : Json} (formed : wellFormed param = true) :
    Request (requestWith param) where
  id := rfl
  rpcMethod := rfl
  params := by
    intro other inside
    rw [List.mem_singleton.mp inside]
    exact formed
  headers := nofun
  noParams := nofun
  noResult := nofun

/-- A classed object in a plain array, with a classed property and a flat array property. -/
theorem params_returned_nested :
    Returned plainEngine textJson (requestWith (.arr [.obj [("json_class", .str "Foo"),
      ("bar", .obj [("json_class", .str "Bar"), ("a", .int 1)]),
      ("list", .arr [.int 1, .str "x", .null])]])) := by
  rw [params_returned_iff plainEngine textJson _ (requestWith_request (by decide))]
  decide

/-- A classed object in an array property of a classed object arrives in its written form. -/
theorem params_classed_in_array :
    ¬Returned plainEngine textJson (requestWith (.obj [("json_class", .str "Foo"),
      ("bars", .arr [.obj [("json_class", .str "Bar"), ("a", .int 1)]])])) := by
  rw [returned_iff plainEngine textJson (requestWith_request (by decide))]
  intro all
  have returns := all _ (List.mem_singleton.mpr rfl)
  rw [returns_iff plainEngine _ .param false (by decide)] at returns
  revert returns
  decide

end Rjr.Verif.SiteCodec
