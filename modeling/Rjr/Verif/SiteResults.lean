import Rjr.Messages
import Rjr.Verif.SiteFlattening

/-!
# Results from the server

A server writes a result, with its classed objects as a `json_class` and their `data`, and
`RJR.JRMessage.parse` reads the text in the browser. For results of every form it is characterised
when the script sees the flattened result. The parser loses a result that is falsy. It flattens
classed objects only below classed objects and below arrays that are themselves reached through
arrays, and it does not look into an array that is a property. Of a classed object with other
members than its class and its data it keeps only these two, so such an object is never seen as it
was written; that its data might have the members that are lost, with the right values, is
excluded by counting the objects inside of one another that have such members.
-/

namespace Rjr.Verif.SiteResults

open Site Site.JRMessage SiteCodec SiteTrees SiteFlattening

/-! ## What the script sees -/

section Shown

variable (number : Int → Json)

mutual

/-- Whether a value is seen as it should, given whether it is handed to `parse_array`. -/
def shown (array : Bool) : Json → Bool
  | .arr elements => if array then shownEach elements else flat number (.arr elements)
  | .obj members =>
    if isJrObject (.obj members) then
      match formData members with
      | some data =>
        -- a class in the data takes the place of the class
        (hasClass data || flat number (member "json_class" members)) &&
          shownData (testedArray members) members
      | none =>
        members.all (fun member => member.1 = "json_class") &&
          flat number (member "json_class" members)
    else !array && flat number (.obj members)
  | value => !array && flat number value

/-- All items of an array are seen as they should. -/
def shownEach : List Json → Bool
  | [] => true
  | item :: rest => shown (isArray item) item && shownEach rest

/-- The properties in the `data` of a classed object are seen as they should. -/
def shownData (array : String → Bool) : List (String × Json) → Bool
  | [] => true
  | (key, value) :: rest => if key = "data" then shownForIn array value else shownData array rest

/-- The properties of an object are seen as they should. -/
def shownForIn (array : String → Bool) : Json → Bool
  | .obj data => shownProperties array data
  | _ => true

/-- All properties are seen as they should, and none is named `__proto__`. -/
def shownProperties (array : String → Bool) : List (String × Json) → Bool
  | [] => true
  | (key, value) :: rest =>
    key != "__proto__" && shown (array key) value && shownProperties array rest

end

/-- Items are seen as they should when each of them is. -/
theorem shownEach_iff (items : List Json) :
    shownEach number items = true ↔ ∀ item ∈ items, shown number (isArray item) item = true := by
  induction items with
  | nil => simp [shownEach]
  | cons item rest ih => simp [shownEach, ih]

/-- Properties are seen as they should when each of them is. -/
theorem shownProperties_iff (array : String → Bool) (data : List (String × Json)) :
    shownProperties number array data = true ↔ "__proto__" ∉ data.map Prod.fst ∧
      ∀ property ∈ data, shown number (array property.1) property.2 = true := by
  induction data with
  | nil => simp [shownProperties]
  | cons property rest ih =>
    obtain ⟨key, value⟩ := property
    rw [shownProperties, Bool.and_eq_true, Bool.and_eq_true, ih, List.forall_mem_cons,
      List.map_cons, List.mem_cons, not_or, bne_iff_ne, ne_comm]
    exact and_and_and_comm

/-- The data of a classed object is found among its members. -/
theorem shownData_eq {members data : List (String × Json)} (form : Form members data)
    (array : String → Bool) :
    shownData number array members = shownProperties number array data := by
  rw [visit_data (shownData number array) (shownForIn number array)
    (fun key value rest => by rw [shownData]) form.found, shownForIn]

end Shown

section Parsers

variable (engine : Engine) (number : Int → Json)

/-- A value is read and parsed to its flattened form. -/
def Shows (array : Bool) (value : Json) : Prop :=
  ∃ parsed, parseValue engine array (asRead number value) = .ok parsed ∧
    deepEqual parsed (flatten value) = true

/-- A property and what `parse_obj` makes of it. -/
def ReadFrom (array : String → Bool) (property read : String × Json) : Prop :=
  property.1 = read.1 ∧
    parseValue engine (array property.1) (asRead number property.2) = .ok read.2

variable {engine number}

/-- The parsed properties have the names of the properties. -/
theorem readFrom_keys {array : String → Bool} {data parsed : List (String × Json)}
    (read : List.Forall₂ (ReadFrom engine number array) data parsed) :
    parsed.map Prod.fst = data.map Prod.fst :=
  (Traversal.keys_forall₂ (read.imp fun _ _ both => both.1)).symm

/-- The members of a classed object as they are read. -/
def readMembers (number : Int → Json) (members : List (String × Json)) : List (String × Json) :=
  members.map fun member => (member.1, asRead number member.2)

/-- What is found among the members as they are read. -/
theorem lookup_readMembers (members : List (String × Json)) (key : String) :
    (readMembers number members).lookup key = (members.lookup key).map (asRead number) :=
  OrderedHash.lookup_mapValues _ members key

/-- `parse_obj` makes its tests on what was written. -/
theorem testedArray_readMembers (numeric : Numeric number) (members : List (String × Json)) :
    testedArray (readMembers number members) = testedArray members := by
  funext key
  rw [testedArray, readMembers, member_mapValues _ rfl, isArray_asRead numeric, testedArray]

/-- `parse_obj` reads the properties in the data of a classed object, if it is an object. -/
theorem parseObj_obj_iff (numeric : Numeric number) {members data : List (String × Json)}
    (found : members.lookup "data" = some (.obj data)) (result : Json) :
    parseObj engine (readMembers number members) = .ok result ↔
      ∃ parsed, List.Forall₂ (ReadFrom engine number (testedArray members)) data parsed ∧
        build (asRead number (member "json_class" members)) parsed = result := by
  have inside : (readMembers number members).lookup "data" =
      some (.obj (readMembers number data)) := by
    rw [lookup_readMembers, found, Option.map_some, asRead_obj]
    rfl
  have read : parseData engine (testedArray members) (readMembers number members) =
      parseProperties engine (testedArray members) (readMembers number data) := by
    rw [visit_data (parseData engine (testedArray members))
      (parseForIn engine (testedArray members)) (fun key value rest => by rw [parseData])
      inside, parseForIn]
  have jsonClass : member "json_class" (readMembers number members) =
      asRead number (member "json_class" members) := member_mapValues _ rfl _ _
  rw [parseObj, testedArray_readMembers numeric, read, jsonClass, Traversal.map_eq_ok_iff]
  simp only [parseProperties_ok_iff, readMembers, List.forall₂_map_left_iff]
  exact Iff.rfl

/-- No index is named as the data is. -/
theorem toString_ne_data (index : Nat) : toString index ≠ "data" := by
  intro same
  have digits : (toString index).toList = Nat.toDigits 10 index := by
    simp [toString, Nat.repr]
  have letter : 'd' ∈ Nat.toDigits 10 index := by
    rw [← digits, same]
    decide
  exact absurd (Nat.isDigit_of_mem_toDigits (by decide) (by decide) letter) (by decide)

/-- The properties of something else than an object are not named as the data is. -/
theorem parseForIn_names {array : String → Bool} {value : Json} (other : ∀ data, value ≠ .obj data)
    {parsed : List (String × Json)} (read : parseForIn engine array value = .ok parsed) :
    "data" ∉ parsed.map Prod.fst := by
  cases value with
  | obj data => exact absurd rfl (other data)
  | arr elements =>
    have indexed : ∀ elements index parsed,
        parseElements engine array index elements = .ok parsed →
          "data" ∉ parsed.map Prod.fst := by
      intro elements
      induction elements with
      | nil =>
        intro index parsed read
        cases read
        simp
      | cons element rest ih =>
        intro index parsed read
        rw [parseElements] at read
        obtain ⟨first, -, read⟩ := (Traversal.bind_eq_ok_iff _ _ _).mp read
        obtain ⟨others, later, ⟨⟩⟩ := (Traversal.bind_eq_ok_iff _ _ _).mp read
        rw [List.map_cons, List.mem_cons, not_or]
        exact ⟨(toString_ne_data index).symm, ih (index + 1) others later⟩
    exact indexed elements 0 parsed read
  | str text =>
    cases read
    intro inside
    obtain ⟨property, listed, named⟩ := List.mem_map.mp inside
    obtain ⟨⟨character, index⟩, -, rfl⟩ := List.mem_map.mp listed
    exact toString_ne_data index named
  | null | bool | int | float | object =>
    cases read
    simp

/-- `parse_obj` makes no member `data` if there is no data, or if it is no object. -/
theorem parseObj_no_data {members : List (String × Json)}
    (other : ∀ data, members.lookup "data" ≠ some (.obj data)) {result : Json}
    (read : parseObj engine members = .ok result) :
    ∃ entries, result = .obj entries ∧ entries.lookup "data" = none := by
  rw [parseObj, Traversal.map_eq_ok_iff] at read
  obtain ⟨parsed, properties, rfl⟩ := read
  have absent : "data" ∉ parsed.map Prod.fst := by
    cases found : members.lookup "data" with
    | some value =>
      rw [visit_data (parseData engine (testedArray members))
        (parseForIn engine (testedArray members)) (fun key value rest => by rw [parseData])
        found] at properties
      refine parseForIn_names (fun data same => other data ?_) properties
      rw [found, same]
    | none =>
      rw [parseData_missing engine found] at properties
      cases properties
      simp
  refine ⟨_, rfl, ?_⟩
  have unnamed : ¬"data" = "json_class" := by decide
  have read : (assignAll (OrderedHash.empty.put "json_class" (member "json_class" members))
      parsed).get? "data" = _ := get?_assignAll_absent absent
  rw [OrderedHash.get?_put, if_neg unnamed] at read
  exact read

/-- What is read from what `parse_obj` builds. -/
theorem lookup_build (jsonClass : Json) {parsed : List (String × Json)}
    (distinct : (parsed.map Prod.fst).Nodup) :
    ∃ entries, build jsonClass parsed = .obj entries ∧ (entries.map Prod.fst).Nodup ∧
      ∀ key, entries.lookup key = if key = "__proto__" then none else
        (parsed.lookup key).or (if key = "json_class" then some jsonClass else none) := by
  refine ⟨_, rfl, OrderedHash.distinct _, fun key => ?_⟩
  have kept : ((parsed.filter fun member => member.1 != "__proto__").map Prod.fst).Nodup :=
    distinct.sublist (List.filter_sublist.map Prod.fst)
  have read := OrderedHash.get?_merge (OrderedHash.empty.put "json_class" jsonClass)
    ⟨parsed.filter fun member => member.1 != "__proto__", kept⟩ key
  have filtered : (parsed.filter fun member => member.1 != "__proto__").lookup key =
      if key = "__proto__" then none else parsed.lookup key := by
    by_cases named : key = "__proto__"
    · rw [if_pos named, List.lookup_eq_none_iff]
      intro member inside
      have other := (List.mem_filter.mp inside).2
      rw [bne_iff_ne] at other ⊢
      exact fun same => other (same.symm.trans named)
    · rw [if_neg named]
      apply Option.ext
      intro value
      refine (OrderedHash.get?_select_eq_some_iff ⟨parsed, distinct⟩ _ key value).trans ?_
      exact and_iff_left (by simpa using named)
  rw [OrderedHash.get?_put] at read
  refine read.trans ?_
  change ((parsed.filter fun member => member.1 != "__proto__").lookup key).or _ = _
  rw [filtered]
  by_cases named : key = "__proto__"
  · have notClass : ¬key = "json_class" := by
      rw [named]
      decide
    rw [if_pos named, if_pos named, if_neg notClass]
    rfl
  · rw [if_neg named, if_neg named]
    rfl

/-- A classed object is read as one, and parsed by `parse_obj`. -/
theorem parseValue_read (numeric : Numeric number) {members : List (String × Json)}
    (classed : isJrObject (.obj members) = true) (array : Bool) :
    parseValue engine array (asRead number (.obj members)) =
      parseObj engine (readMembers number members) := by
  have still := isJrObject_asRead numeric (.obj members)
  rw [asRead_obj, classed] at still
  rw [asRead_obj, parseValue_classed engine still]
  rfl

/-- What `parse_obj` builds is compared with the flattened object name by name. -/
theorem deepEqual_build_classWith_iff (jsonClass other : Json)
    {data parsed : List (String × Json)} (distinct : (data.map Prod.fst).Nodup)
    (keys : parsed.map Prod.fst = data.map Prod.fst) :
    deepEqual (build jsonClass parsed)
        (classWith other (data.map fun member => (member.1, flatten member.2))) = true ↔
      ∀ key, Option.Rel (fun value other => deepEqual value other = true)
        (if key = "__proto__" then none else
          (parsed.lookup key).or (if key = "json_class" then some jsonClass else none))
        (((data.lookup key).map flatten).or (if key = "json_class" then some other else none)) := by
  obtain ⟨built, isBuilt, builtDistinct, answers⟩ :=
    lookup_build jsonClass (keys.symm ▸ distinct : (parsed.map Prod.fst).Nodup)
  obtain ⟨entries, written, -, looked⟩ :=
    lookup_classWith other (keys_mapValues flatten data ▸ distinct)
  rw [isBuilt, written, deepEqual_obj_lookup_iff builtDistinct]
  simp only [answers, looked, OrderedHash.lookup_mapValues]

/-- If what `parse_obj` builds is the flattened object, then the classes are equal, or one in the
data takes their place; no property is named `__proto__`; and the properties are equal. -/
theorem equal_of_build {jsonClass other : Json} {data parsed : List (String × Json)}
    (distinct : (data.map Prod.fst).Nodup) (keys : parsed.map Prod.fst = data.map Prod.fst)
    (same : deepEqual (build jsonClass parsed)
      (classWith other (data.map fun member => (member.1, flatten member.2))) = true) :
    (hasClass data = true ∨ deepEqual jsonClass other = true) ∧
      "__proto__" ∉ data.map Prod.fst ∧ ∀ property ∈ data, ∀ read ∈ parsed,
        property.1 = read.1 → deepEqual read.2 (flatten property.2) = true := by
  rw [deepEqual_build_classWith_iff _ _ distinct keys] at same
  have parsedDistinct : (parsed.map Prod.fst).Nodup := keys.symm ▸ distinct
  have ordinary : "__proto__" ∉ data.map Prod.fst := by
    intro inside
    obtain ⟨property, listed, named⟩ := List.mem_map.mp inside
    have related := same "__proto__"
    rw [if_pos rfl, ← named, lookup_of_mem distinct listed] at related
    cases related
  refine ⟨?_, ordinary, fun property inside read listed named => ?_⟩
  · cases taken : hasClass data with
    | true => exact .inl rfl
    | false =>
      rw [hasClass, Option.isSome_eq_false_iff, Option.isNone_iff_eq_none] at taken
      have missing : parsed.lookup "json_class" = none := by
        have absent : "json_class" ∉ data.map Prod.fst :=
          (OrderedHash.get?_eq_none_iff ⟨data, distinct⟩ _).mp taken
        rw [← keys] at absent
        exact (OrderedHash.get?_eq_none_iff ⟨parsed, parsedDistinct⟩ _).mpr absent
      have notProto : ¬"json_class" = "__proto__" := by decide
      have related := same "json_class"
      rw [if_neg notProto, missing, taken] at related
      cases related with
      | some equal => exact .inr equal
  · have notProto : ¬property.1 = "__proto__" := by
      intro proto
      exact ordinary (proto ▸ List.mem_map_of_mem inside)
    have related := same property.1
    rw [if_neg notProto, lookup_of_mem distinct inside, named,
      lookup_of_mem parsedDistinct listed] at related
    cases related with
    | some equal => exact equal

/-- What `parse_obj` builds is the flattened object if these hold. -/
theorem build_equal {jsonClass other : Json} {data parsed : List (String × Json)}
    (distinct : (data.map Prod.fst).Nodup)
    (classes : hasClass data = true ∨ deepEqual jsonClass other = true)
    (ordinary : "__proto__" ∉ data.map Prod.fst)
    (equal : List.Forall₂ (fun property read => property.1 = read.1 ∧
      deepEqual read.2 (flatten property.2) = true) data parsed) :
    deepEqual (build jsonClass parsed)
      (classWith other (data.map fun member => (member.1, flatten member.2))) = true := by
  have keys : parsed.map Prod.fst = data.map Prod.fst :=
    (Traversal.keys_forall₂ (equal.imp fun _ _ both => both.1)).symm
  rw [deepEqual_build_classWith_iff _ _ distinct keys]
  intro key
  have related := Traversal.lookup_forall₂
    (fun value result => deepEqual result (flatten value) = true) equal key
  by_cases proto : key = "__proto__"
  · have missing : data.lookup key = none :=
      (OrderedHash.get?_eq_none_iff ⟨data, distinct⟩ _).mpr (proto ▸ ordinary)
    have notClass : ¬key = "json_class" := by
      rw [proto]
      decide
    rw [if_pos proto, missing, if_neg notClass]
    exact .none
  · rw [if_neg proto]
    cases own : data.lookup key with
    | some value =>
      cases result : parsed.lookup key with
      | none =>
        rw [own, result] at related
        cases related
      | some found =>
        rw [own, result] at related
        cases related with
        | some same => exact .some same
    | none =>
      cases result : parsed.lookup key with
      | some found =>
        rw [own, result] at related
        cases related
      | none =>
        by_cases named : key = "json_class"
        · have without : hasClass data = false := by
            rw [hasClass, ← named, own]
            rfl
          rw [without] at classes
          rw [if_pos named, if_pos named]
          exact .some (classes.resolve_left Bool.false_ne_true)
        · rw [if_neg named, if_neg named]
          exact .none

/-- A classed object in form is seen as it should when its class is flat, or one in the data takes
its place, and its properties are seen as they should. -/
theorem shows_form_iff (numeric : Numeric number) {members data : List (String × Json)}
    (formed : wellFormed (.obj members) = true) (classed : isJrObject (.obj members) = true)
    (found : formData members = some data) (array : Bool) :
    Shows engine number array (.obj members) ↔
      (hasClass data = true ∨ flat number (member "json_class" members) = true) ∧
        "__proto__" ∉ data.map Prod.fst ∧
        ∀ property ∈ data, Shows engine number (testedArray members property.1) property.2 := by
  have form := form_of_formData found
  have distinct := form_distinct form formed
  obtain ⟨-, formedClass⟩ := form_class formed
  rw [← deepEqual_flatten_iff number _ formedClass, Shows, parseValue_read numeric classed,
    flatten_form found]
  simp only [parseObj_obj_iff numeric form.found]
  constructor
  · rintro ⟨_, ⟨parsed, read, rfl⟩, same⟩
    obtain ⟨classes, ordinary, equal⟩ := equal_of_build distinct (readFrom_keys read) same
    refine ⟨classes, ordinary, fun property inside => ?_⟩
    obtain ⟨result, listed, named, parse⟩ := Traversal.exists_of_mem_left read inside
    exact ⟨result.2, parse, equal property inside result listed named⟩
  · rintro ⟨classes, ordinary, each⟩
    have outcomes : ∀ property ∈ data, ∃ read,
        ReadFrom engine number (testedArray members) property read ∧
          (property.1 = read.1 ∧ deepEqual read.2 (flatten property.2) = true) := by
      intro property inside
      obtain ⟨read, parse, same⟩ := each property inside
      exact ⟨(property.1, read), ⟨rfl, parse⟩, rfl, same⟩
    obtain ⟨parsed, read, equal⟩ := (Traversal.exists_forall₂_and_iff _ _ _).mpr outcomes
    exact ⟨_, ⟨parsed, read, rfl⟩, build_equal distinct classes ordinary equal⟩

/-! ## Other classed objects -/

/-- What is read has as long a way through data inside of data as what was written. -/
theorem tower_asRead (numeric : Numeric number) (value : Json) :
    tower (asRead number value) = tower value := by
  induction value using Json.induct with
  | null | bool | float | str | object => rfl
  | int integer =>
    rcases numeric.scalar integer with ⟨other, same⟩ | ⟨word, same⟩ <;> rw [asRead, same] <;> rfl
  | arr elements => rw [asRead_arr]; rfl
  | obj members ih =>
    have looked := OrderedHash.lookup_mapValues (asRead number) members "data"
    rw [asRead_obj]
    cases found : members.lookup "data" with
    | none =>
      rw [found] at looked
      rw [tower_none found, tower_none looked]
    | some data =>
      rw [found] at looked
      rw [tower_found found, tower_found looked, wide_mapValues, ih _ (mem_of_lookup found)]

/-- What `parse_obj` builds has no longer a way through data inside of data than the data has. -/
theorem tower_parseObj (numeric : Numeric number) {members : List (String × Json)}
    (formed : wellFormed (.obj members) = true)
    (lower : ∀ value, height value < height (.obj members) → wellFormed value = true →
      ∀ array parsed, parseValue engine array (asRead number value) = .ok parsed →
        tower parsed ≤ tower value)
    {result : Json} (read : parseObj engine (readMembers number members) = .ok result) :
    tower result ≤ tower (member "data" members) := by
  by_cases object : ∃ data, members.lookup "data" = some (.obj data)
  · obtain ⟨data, found⟩ := object
    have within := mem_of_lookup found
    have formedData := ((wellFormed_obj_iff members).mp formed).2 _ within
    obtain ⟨distinct, each⟩ := (wellFormed_obj_iff data).mp formedData
    obtain ⟨parsed, properties, rfl⟩ := (parseObj_obj_iff numeric found result).mp read
    have keys := readFrom_keys properties
    obtain ⟨built, isBuilt, builtDistinct, answers⟩ :=
      lookup_build (asRead number (member "json_class" members)) (keys.symm ▸ distinct)
    have notProto : ¬"data" = "__proto__" := by decide
    have notClass : ¬"data" = "json_class" := by decide
    have inside := answers "data"
    rw [if_neg notProto, if_neg notClass, Option.or_none] at inside
    rw [isBuilt, member, found, Option.getD_some]
    cases own : parsed.lookup "data" with
    | none =>
      rw [own] at inside
      rw [tower_none inside]
      exact Nat.zero_le _
    | some value =>
      obtain ⟨property, listed, named, parse⟩ :=
        Traversal.exists_of_mem_right properties (mem_of_lookup own)
      have looked : data.lookup "data" = some property.2 := by
        rw [← show property.1 = "data" from named]
        exact lookup_of_mem distinct listed
      have higher := height_member within
      have high := height_member listed
      have bounded := lower property.2 (by simp only at higher; omega) (each property listed) _ _
        parse
      have width : wide built ≤ wide data := by
        refine wide_le fun key notClass _ inside => ?_
        obtain ⟨entry, among, rfl⟩ := List.mem_map.mp inside
        have answered := lookup_of_mem builtDistinct among
        rw [answers, if_neg notClass, Option.or_none, Option.ite_none_left_eq_some] at answered
        rw [← keys]
        exact List.mem_map.mpr ⟨_, mem_of_lookup answered.2, rfl⟩
      rw [own] at inside
      rw [tower_found inside, tower_found looked]
      simp only at bounded
      omega
  · have other : ∀ data, (readMembers number members).lookup "data" ≠ some (.obj data) := by
      intro data same
      rw [lookup_readMembers, Option.map_eq_some_iff] at same
      obtain ⟨value, found, same⟩ := same
      cases value with
      | obj inner => exact object ⟨inner, found⟩
      | int integer =>
        rcases numeric.scalar integer with ⟨other, shape⟩ | ⟨word, shape⟩ <;>
          rw [asRead, shape] at same <;> cases same
      | arr elements =>
        rw [asRead_arr] at same
        cases same
      | null | bool | float | str | object => cases same
    obtain ⟨entries, rfl, missing⟩ := parseObj_no_data other read
    rw [tower_none missing]
    exact Nat.zero_le _

variable (engine) in
/-- What is parsed has no longer a way through data inside of data than what was written. -/
theorem tower_parseValue (numeric : Numeric number) (value : Json) : wellFormed value = true →
    ∀ array parsed, parseValue engine array (asRead number value) = .ok parsed →
      tower parsed ≤ tower value := by
  induction value using height_induct with
  | step value ih =>
    intro formed array parsed read
    cases value with
    | null | bool | float | str | object =>
      cases array <;> first | (cases read; exact Nat.le_refl _) | cases read
    | int integer =>
      rcases numeric.scalar integer with ⟨other, same⟩ | ⟨word, same⟩ <;>
        rw [asRead, same] at read <;> cases array <;> cases read <;> exact Nat.le_refl _
    | arr elements =>
      rw [asRead_arr] at read
      obtain ⟨others, rfl, -⟩ := (parseValue_arr_iff array _ parsed).mp read
      exact Nat.le_refl _
    | obj members =>
      by_cases classed : isJrObject (.obj members) = true
      · rw [parseValue_read numeric classed] at read
        have bounded := tower_parseObj numeric formed ih read
        refine Nat.le_trans bounded ?_
        rw [member]
        cases found : members.lookup "data" with
        | none => exact Nat.zero_le _
        | some data =>
          rw [tower_found found]
          exact Nat.le_add_left _ _
      · have still := isJrObject_asRead numeric (.obj members)
        rw [Bool.eq_false_iff.mpr classed, asRead_obj] at still
        have kept := tower_asRead numeric (.obj members)
        rw [asRead_obj] at read kept
        rw [parseValue, if_neg (by rw [still]; exact Bool.false_ne_true)] at read
        cases array with
        | false =>
          cases read
          exact Nat.le_of_eq kept
        | true =>
          obtain ⟨count, -, counted⟩ := (Traversal.bind_eq_ok_iff _ _ _).mp read
          obtain ⟨elements, -, ⟨⟩⟩ := (Traversal.bind_eq_ok_iff _ _ _).mp counted
          exact Nat.zero_le _

/-- A classed object has a class. -/
theorem hasClass_of_isJrObject {members : List (String × Json)}
    (classed : isJrObject (.obj members) = true) : hasClass members = true := by
  rw [hasClass, lookup_class classed]
  rfl

/-- A classed object with data that is not in form is not seen as it should. Either its data is no
object and lost; or it has another member, and one wide object less is seen. -/
theorem not_shows_data (numeric : Numeric number) {members : List (String × Json)}
    (formed : wellFormed (.obj members) = true) (classed : isJrObject (.obj members) = true)
    (other : formData members = none) {data : Json}
    (found : members.lookup "data" = some data) (array : Bool) :
    ¬Shows engine number array (.obj members) := by
  rintro ⟨result, read, same⟩
  rw [parseValue_read numeric classed] at read
  have lowest := tower_parseObj numeric formed
    (fun value _ => tower_parseValue engine numeric value) read
  have way := (tower_of_deepEqual _ _ same).trans (tower_flatten _ formed)
  rw [tower_found found] at way
  rw [member, found, Option.getD_some] at lowest
  have narrow : wide members = 0 := by omega
  have names : members.all (fun member => member.1 = "json_class" || member.1 = "data") = true := by
    by_contra some
    rw [wide, if_neg some] at narrow
    cases narrow
  have noObject : ∀ inner, data ≠ .obj inner := by
    intro inner isObject
    rw [formData, hasClass_of_isJrObject classed, names, found, isObject] at other
    cases other
  have nowhere : ∀ inner, (readMembers number members).lookup "data" ≠ some (.obj inner) := by
    intro inner looked
    rw [lookup_readMembers, found, Option.map_some, Option.some.injEq] at looked
    cases data with
    | obj own => exact noObject own rfl
    | int integer =>
      rcases numeric.scalar integer with ⟨other, shape⟩ | ⟨word, shape⟩ <;>
        rw [asRead, shape] at looked <;> cases looked
    | arr elements =>
      rw [asRead_arr] at looked
      cases looked
    | null | bool | float | str | object => cases looked
  obtain ⟨entries, rfl, missing⟩ := parseObj_no_data nowhere read
  rw [flatten_other other, deepEqual_obj_iff] at same
  have inside : "data" ∈ entries.map Prod.fst := by
    apply same.1
    rw [keys_mapValues]
    exact List.mem_map.mpr ⟨_, mem_of_lookup found, rfl⟩
  obtain ⟨entry, listed, named⟩ := List.mem_map.mp inside
  have unnamed := List.lookup_eq_none_iff.mp missing entry listed
  simp [named] at unnamed

/-- A classed object that is not in form is seen as it should when it has only its class, which is
flat. -/
theorem shows_other_iff (numeric : Numeric number) {members : List (String × Json)}
    (formed : wellFormed (.obj members) = true) (classed : isJrObject (.obj members) = true)
    (other : formData members = none) (array : Bool) :
    Shows engine number array (.obj members) ↔
      members.all (fun member => member.1 = "json_class") = true ∧
        flat number (member "json_class" members) = true := by
  cases found : members.lookup "data" with
  | some data =>
    refine iff_of_false (not_shows_data numeric formed classed other found array) ?_
    rintro ⟨only, -⟩
    have named := List.all_eq_true.mp only _ (mem_of_lookup found)
    simp at named
  | none =>
    have missing : (readMembers number members).lookup "data" = none := by
      rw [lookup_readMembers, found, Option.map_none]
    obtain ⟨-, formedClass⟩ := form_class formed
    have jsonClass : member "json_class" (readMembers number members) =
        asRead number (member "json_class" members) := member_mapValues _ rfl _ _
    have looked : (members.map fun member => (member.1, flatten member.2)).lookup "json_class" =
        some (flatten (member "json_class" members)) := by
      rw [OrderedHash.lookup_mapValues, lookup_class classed, Option.map_some]
    rw [Shows, parseValue_read numeric classed, parseObj, parseData_missing engine missing,
      jsonClass, flatten_other other, ← deepEqual_flatten_iff number _ formedClass]
    have parsed : (Except.ok [] : Except Thrown _).map
        (build (asRead number (member "json_class" members))) =
          .ok (.obj [("json_class", asRead number (member "json_class" members))]) := rfl
    rw [parsed]
    simp only [Except.ok.injEq, exists_eq_left', deepEqual_obj_iff, keys_mapValues,
      List.map_cons, List.map_nil, List.mem_singleton, forall_eq, looked, Option.some.injEq,
      List.all_eq_true, decide_eq_true_eq]
    refine and_congr_left fun _ => ?_
    exact List.forall_mem_map

/-! ## Every value -/

/-- A value that is left as it is read is seen as it should when it is flat. -/
theorem shows_left_iff {array : Bool} {value : Json} (formed : wellFormed value = true)
    (left : parseValue engine array (asRead number value) = .ok (asRead number value)) :
    Shows engine number array value ↔ flat number value = true := by
  rw [← deepEqual_flatten_iff number _ formed, Shows, left]
  simp

/-- An object is not flattened to anything else than an object. -/
theorem flatten_ne_arr (members : List (String × Json)) (elements : List Json) :
    deepEqual (.arr elements) (flatten (.obj members)) = false := by
  rw [flatten]
  split <;> rfl

/-- An object without a class that is handed to `parse_array` is not seen as it should. -/
theorem not_shows_array (numeric : Numeric number) {members : List (String × Json)}
    (classed : isJrObject (.obj members) = false) :
    ¬Shows engine number true (.obj members) := by
  rintro ⟨parsed, read, same⟩
  have still := isJrObject_asRead numeric (.obj members)
  rw [classed, asRead_obj] at still
  rw [asRead_obj] at read
  simp only [parseValue, still, Bool.false_eq_true, if_false, if_true] at read
  obtain ⟨count, -, counted⟩ := (Traversal.bind_eq_ok_iff _ _ _).mp read
  obtain ⟨elements, -, ⟨⟩⟩ := (Traversal.bind_eq_ok_iff _ _ _).mp counted
  rw [flatten_ne_arr] at same
  cases same

/-- An array that is handed to `parse_array` is seen as it should when its items are. -/
theorem shows_arr_iff (numeric : Numeric number) (elements : List Json) :
    Shows engine number true (.arr elements) ↔
      ∀ item ∈ elements, Shows engine number (isArray item) item := by
  unfold Shows
  rw [← Traversal.exists_forall₂_and_iff, flatten_arr, asRead_arr]
  simp only [parseValue, if_true, Traversal.map_eq_ok_iff, parseEach_ok_iff,
    List.forall₂_map_left_iff, isArray_asRead numeric]
  constructor
  · rintro ⟨_, ⟨parsed, read, rfl⟩, same⟩
    rw [deepEqual, deepEqualElements_iff, List.forall₂_map_right_iff] at same
    exact ⟨parsed, read, same.flip⟩
  · rintro ⟨parsed, read, same⟩
    refine ⟨_, ⟨parsed, read, rfl⟩, ?_⟩
    rw [deepEqual, deepEqualElements_iff, List.forall₂_map_right_iff]
    exact same.flip

variable (engine) in
/-- A well-formed value is seen as it should exactly when `shown` says so. The induction is on the
height, since the properties of a classed object are two levels below it. -/
theorem shows_iff (numeric : Numeric number) (value : Json) : ∀ array, wellFormed value = true →
    (Shows engine number array value ↔ shown number array value = true) := by
  induction value using height_induct with
  | step value ih =>
    intro array formed
    cases value with
    | null =>
      cases array with
      | false => exact iff_of_true ⟨_, rfl, rfl⟩ rfl
      | true => exact iff_of_false (fun ⟨_, read, _⟩ => by cases read) Bool.false_ne_true
    | int integer =>
      cases array with
      | false =>
        refine (shows_left_iff formed ?_).trans Iff.rfl
        rcases numeric.scalar integer with ⟨other, same⟩ | ⟨word, same⟩ <;>
          rw [asRead, same] <;> rfl
      | true =>
        refine iff_of_false ?_ Bool.false_ne_true
        rintro ⟨_, read, same⟩
        rcases numeric.scalar integer with ⟨other, shape⟩ | ⟨word, shape⟩ <;>
          rw [asRead, shape] at read <;> cases read <;> cases same
    | bool | float | str =>
      cases array with
      | false => exact iff_of_true ⟨_, rfl, deepEqual_refl _ formed⟩ rfl
      | true =>
        refine iff_of_false ?_ Bool.false_ne_true
        rintro ⟨_, read, same⟩
        cases read
        cases same
    | object => cases formed
    | arr elements =>
      cases array with
      | false =>
        rw [shown, if_neg Bool.false_ne_true]
        refine shows_left_iff formed ?_
        rw [asRead_arr]
        rfl
      | true =>
        rw [wellFormed_arr_iff] at formed
        rw [shows_arr_iff numeric, shown, if_pos rfl, shownEach_iff]
        apply forall₂_congr
        intro item inside
        exact ih item (height_element inside) _ (formed item inside)
    | obj members =>
      rw [shown]
      cases classed : isJrObject (.obj members) with
      | false =>
        rw [if_neg Bool.false_ne_true]
        cases array with
        | true => exact iff_of_false (not_shows_array numeric classed) Bool.false_ne_true
        | false =>
          rw [Bool.not_false, Bool.true_and]
          refine shows_left_iff formed ?_
          have still := isJrObject_asRead numeric (.obj members)
          rw [classed, asRead_obj] at still
          simp only [asRead_obj, parseValue, still, Bool.false_eq_true, if_false]
      | true =>
        rw [if_pos rfl]
        cases found : formData members with
        | none => rw [shows_other_iff numeric formed classed found, Bool.and_eq_true]
        | some data =>
          have form := form_of_formData found
          simp only [shownData_eq number form, shownProperties_iff, Bool.and_eq_true,
            Bool.or_eq_true]
          rw [shows_form_iff numeric formed classed found]
          refine and_congr_right fun _ => and_congr_right fun _ => ?_
          apply forall₂_congr
          intro property inside
          obtain ⟨lower, formedProperty⟩ := form_data form formed inside
          exact ih property.2 lower _ formedProperty

end Parsers

/-! ## Responses -/

/-- The browser reads what the server writes. Integers that a binary64 word cannot hold are read
as other numbers. -/
structure Crossing (lib : JsonLib) (native : NativeJson) where
  /-- The number that is read for an integer. -/
  number : Int → Json
  /-- It is a number, which is zero only for zero. -/
  numeric : Numeric number
  /-- A well-formed tree is written, and is read with these numbers. -/
  reads : ∀ tree, wellFormed tree = true →
    ∃ text, lib.generate tree = .ok text ∧ native.parse text = .ok (asRead number tree)

/-- How parameters are parsed, which a response should not have. -/
def parsedParams (engine : Engine) (number : Int → Json) (params : Json) :
    Except Thrown (List Json) :=
  if truthy params then parseArray engine (asRead number params) else .ok []

/-- How the value of a result is parsed. -/
def parsedResult (engine : Engine) (number : Int → Json) (result : Json) : Except Thrown Json :=
  if truthy result then parseValue engine (isArray result) (asRead number result) else .ok .null

section Responses

variable (engine : Engine) {native : NativeJson} {lib : JsonLib} (crossing : Crossing lib native)
  (hashes : Hashes) (response : Messages.Response)

/-- The text of a response is parsed in the browser to a message that has its id, no error, and
its flattened result. -/
def Received (native : NativeJson) (lib : JsonLib) : Prop :=
  ∃ text message, response.toS lib hashes = .ok text ∧
    JRMessage.parse engine native text = .ok message ∧
    deepEqual message.id response.msgId = true ∧ message.error = .null ∧
    deepEqual message.result (flatten response.result.result) = true

/-- Whether a result is received: it is `null`, or it is truthy and its parts are seen as they
should. -/
def received (number : Int → Json) (result : Json) : Bool :=
  result.isNil || truthy result && shown number (isArray result) result

/-- A response that is received. Its headers are written over its id and beside its result, so
they must not say anything else of the members that the browser reads. -/
structure Receivable : Prop where
  /-- The id is read as it is, also if a header takes its place. -/
  id : deepEqual (asRead crossing.number
    (((hashes.read response.headers).get? "id").getD response.msgId)) response.msgId = true
  /-- No header makes it an error. -/
  error : ((hashes.read response.headers).get? "error").getD .null = .null
  /-- No header makes the parser throw over parameters. -/
  params : ∃ items, parsedParams engine crossing.number
    (((hashes.read response.headers).get? "params").getD .null) = .ok items
  /-- The result is received. -/
  result : received crossing.number response.result.result = true

end Responses

section Responses

variable {native : NativeJson} {response : Messages.Response}

/-- The members of a success response that the browser reads. -/
theorem success_members (hashes : Hashes) (success : response.result.success = true) :
    ∃ members, response.toJson hashes = .obj members ∧
      (∀ key, key ≠ "id" → key ≠ "jsonrpc" → key ≠ "result" →
        members.lookup key = (hashes.read response.headers).get? key) ∧
      members.lookup "id" =
        some (((hashes.read response.headers).get? "id").getD response.msgId) ∧
      members.lookup "result" = some response.result.result := by
  have own : ∀ key, ((response.standard.merge (hashes.read response.headers)).merge
      response.successJson).entries.lookup key = (response.successJson.get? key).or
        (((hashes.read response.headers).get? key).or (response.standard.get? key)) := by
    intro key
    change ((response.standard.merge (hashes.read response.headers)).merge
      response.successJson).get? key = _
    rw [OrderedHash.get?_merge, OrderedHash.get?_merge]
  rw [Messages.Response.toJson, if_pos success]
  refine ⟨_, rfl, ?_, ?_, ?_⟩
  · intro key notId notVersion notResult
    have unsaid : response.successJson.get? key = none := by
      rw [OrderedHash.get?_eq_none_iff]
      simpa [OrderedHash.keys, Messages.Response.successJson] using notResult
    have free : response.standard.get? key = none := by
      rw [OrderedHash.get?_eq_none_iff]
      simp [OrderedHash.keys, Messages.Response.standard, notId, notVersion]
    rw [own, unsaid, free, Option.none_or, Option.or_none]
  · rw [own]
    cases (hashes.read response.headers).get? "id" <;> rfl
  · rw [own]
    rfl

/-- A result is received when it is parsed to its flattened form. -/
theorem received_iff_parsed (engine : Engine) {number : Int → Json} (numeric : Numeric number)
    {result : Json} (formed : wellFormed result = true) :
    received number result = true ↔ ∃ value, parsedResult engine number result = .ok value ∧
      deepEqual value (flatten result) = true := by
  rw [received, parsedResult]
  cases passes : truthy result with
  | true =>
    have present : result.isNil = false := by
      cases result with
      | null => cases passes
      | _ => rfl
    rw [if_pos rfl, present, Bool.false_or, Bool.true_and]
    exact (shows_iff engine numeric result _ formed).symm
  | false =>
    rw [if_neg Bool.false_ne_true, Bool.false_and, Bool.or_false]
    cases result with
    | null => exact iff_of_true rfl ⟨_, rfl, rfl⟩
    | arr | obj => cases passes
    | _ =>
      refine iff_of_false Bool.false_ne_true ?_
      rintro ⟨_, parsed, same⟩
      cases parsed
      cases same

/-- The message that a tree is parsed to. -/
theorem parse_read (engine : Engine) {number : Int → Json} (numeric : Numeric number)
    {text : String} {members : List (String × Json)}
    (read : native.parse text = .ok (asRead number (.obj members))) :
    JRMessage.parse engine native text =
      (do
        let parsed ← parsedParams engine number (member "params" members)
        let value ← parsedResult engine number (member "result" members)
        return { id := asRead number (member "id" members),
                 rpcMethod := asRead number (member "method" members), params := parsed,
                 error := asRead number (member "error" members), result := value }) := by
  have own : ∀ key, member key (readMembers number members) =
      asRead number (member key members) := fun key => member_mapValues _ rfl _ _
  have written : asRead number (.obj members) = .obj (readMembers number members) :=
    asRead_obj number members
  simp only [JRMessage.parse, read, written, bind, Except.bind, own, truthy_asRead numeric,
    isArray_asRead numeric, parsedParams, parsedResult]
  cases truthy (member "params" members) <;> cases truthy (member "result" members) <;> rfl

/-- **Which results the browser sees.** For every success response that JSON can express, with a
result of any form and depth and any headers, the parsed message has the id of the response, no
error, and the result with every classed object in form flattened exactly when the response is
receivable: no header says otherwise, and the result is `null`, or is truthy and `shown`. Then
classed objects in form stand only below arrays that are reached through arrays and below classed
objects in form, not inside array properties or other objects; a class is truthy and flat; a
classed object that is not in form has no other member than its class; no property of a classed
object is named `__proto__`; no object without a class has a `length` where an array is tested
for; and integers are read as they are. -/
theorem result_received_iff (engine : Engine) (native : NativeJson) (lib : JsonLib)
    (crossing : Crossing lib native) (hashes : Hashes) (response : Messages.Response)
    (success : response.result.success = true)
    (formed : wellFormed (response.toJson hashes) = true) :
    Received engine hashes response native lib ↔
      Receivable engine crossing hashes response := by
  obtain ⟨members, written, others, id, result⟩ := success_members hashes success
  obtain ⟨text, generated, read⟩ := crossing.reads _ formed
  have formedResult : wellFormed response.result.result = true := by
    rw [written, wellFormed_obj_iff] at formed
    exact formed.2 _ (mem_of_lookup result)
  have whole := received_iff_parsed engine crossing.numeric formedResult
  rw [written] at read
  have parse := parse_read engine crossing.numeric read
  have idRead : member "id" members =
      ((hashes.read response.headers).get? "id").getD response.msgId := by
    rw [member, id, Option.getD_some]
  have resultRead : member "result" members = response.result.result := by
    rw [member, result, Option.getD_some]
  have errorRead : member "error" members =
      ((hashes.read response.headers).get? "error").getD .null := by
    rw [member, others "error" (by decide) (by decide) (by decide)]
  have paramsRead : member "params" members =
      ((hashes.read response.headers).get? "params").getD .null := by
    rw [member, others "params" (by decide) (by decide) (by decide)]
  rw [idRead, resultRead, errorRead, paramsRead] at parse
  constructor
  · rintro ⟨other, message, wrote, parsed, sameId, noError, sameResult⟩
    rw [Messages.Response.toS, generated] at wrote
    cases wrote
    rw [parse] at parsed
    obtain ⟨items, params, parsed⟩ := (Traversal.bind_eq_ok_iff _ _ _).mp parsed
    obtain ⟨value, outcome, ⟨⟩⟩ := (Traversal.bind_eq_ok_iff _ _ _).mp parsed
    exact ⟨sameId, (asRead_eq_null_iff crossing.numeric _).mp noError, ⟨items, params⟩,
      whole.mpr ⟨value, outcome, sameResult⟩⟩
  · rintro ⟨sameId, noError, ⟨items, params⟩, sameResult⟩
    obtain ⟨value, outcome, same⟩ := whole.mp sameResult
    rw [params, outcome, noError] at parse
    exact ⟨text, _, generated, parse, sameId, rfl, same⟩

end Responses

/-! ## Two responses -/

/-- The browser reads what the printer writes. -/
def textCrossing : Crossing JsonText.lib textJson where
  number := .int
  numeric := ⟨fun integer => .inl ⟨integer, rfl⟩, fun _ => rfl⟩
  reads tree formed := by
    have same : ∀ tree : Json, asRead .int tree = tree := by
      intro tree
      induction tree using Json.induct with
      | null | bool | int | float | str | object => rfl
      | arr elements ih => rw [asRead_arr, List.map_congr_left ih, List.map_id']
      | obj members ih =>
        have each : ∀ member ∈ members, (member.1, asRead .int member.2) = member := by
          intro member inside
          rw [ih member inside]
        rw [asRead_obj, List.map_congr_left each, List.map_id']
    exact ⟨_, JsonText.generate_wellFormed formed,
      (textJson.parse_stringify tree formed).trans (congrArg Except.ok (same tree).symm)⟩

/-- A response without headers, to a request whose handler returned a value. -/
def answering (value : Json) : Messages.Response := ⟨.str "1", .ofReturn value, 0⟩

/-- A classed object in an array, with a classed property, is seen flattened. -/
theorem result_received_nested :
    Received plainEngine (Heap.new .empty) (answering (.arr [.str "x", .obj
      [("json_class", .str "Foo"), ("data", .obj [("a", .int 1), ("bar", .obj
        [("json_class", .str "Bar"), ("data", .obj [("b", .null)])])])]])) textJson JsonText.lib :=
  (result_received_iff plainEngine textJson JsonText.lib textCrossing _ _ (by decide)
    (by decide)).mpr ⟨rfl, rfl, ⟨[], rfl⟩, by decide +kernel⟩

/-- The number 0 that a handler returns is seen as `null`. -/
theorem zero_result_lost :
    (∃ text message, (answering (.int 0)).toS JsonText.lib (Heap.new .empty) = .ok text ∧
        JRMessage.parse plainEngine textJson text = .ok message ∧
          message.id = .str "1" ∧ message.result = .null) ∧
      ¬ Received plainEngine (Heap.new .empty) (answering (.int 0)) textJson JsonText.lib := by
  have formed : wellFormed ((answering (.int 0)).toJson (Heap.new .empty)) = true := by decide
  obtain ⟨text, generated, read⟩ := textCrossing.reads _ formed
  have parse := parse_read plainEngine textCrossing.numeric read
  refine ⟨⟨text, _, generated, parse, rfl, rfl⟩, ?_⟩
  rintro ⟨other, message, wrote, parsed, -, -, same⟩
  rw [Messages.Response.toS, generated] at wrote
  cases wrote
  rw [parse] at parsed
  cases parsed
  cases same

end Rjr.Verif.SiteResults
