import Rjr.Lib.Traversal
import Rjr.Site.Value

/-!
# Messages in the browser

`RJR.JRMessage` of `site/jrw.js`. Three converters turn the parameters of a request into the tree
that is written, two converters undo that, and two parsers turn a received tree back. The
converters run one loop body at three positions, which differ in what becomes of an array; the
parsers run one loop body under two tests for an array. An object with a `length` is taken for an
array and read by index; these loops read the members of the object, so the results of all members
are collected first and the loop picks those of its indexes.
-/

namespace Rjr.Site

/-- The native `JSON` of the browser, behind `$.toJSON` and `$.evalJSON`. -/
structure NativeJson where
  /-- `JSON.stringify`. -/
  stringify : Json → String
  /-- `JSON.parse`. -/
  parse : String → Except Thrown Json
  /-- A well-formed tree is copied. -/
  parse_stringify : ∀ tree, wellFormed tree = true → parse (stringify tree) = .ok tree

/-- The results for the indexes below a count; an index without a member reads as `null`. -/
def indexed (results : List (String × Except Thrown Json)) (count : Nat) :
    Except Thrown (List Json) :=
  (List.range count).mapM fun index => (results.lookup (toString index)).getD (.ok .null)

/-- What is listed for an index is one of the results, or `null`. -/
theorem mem_indexed {results : List (String × Except Thrown Json)} {count : Nat}
    {elements : List Json} (listed : indexed results count = .ok elements) {element : Json}
    (inside : element ∈ elements) : element = .null ∨ ∃ key, (key, .ok element) ∈ results := by
  rw [indexed, Traversal.mapM_eq_ok_iff] at listed
  obtain ⟨index, -, picked⟩ := Traversal.exists_of_mem_right listed inside
  cases found : results.lookup (toString index) with
  | none =>
    rw [found] at picked
    cases picked
    exact .inl rfl
  | some result =>
    rw [found, Option.getD_some] at picked
    obtain ⟨before, after, split, -⟩ := List.lookup_eq_some_iff.mp found
    refine .inr ⟨toString index, ?_⟩
    rw [split, ← picked]
    simp

namespace JRMessage

/-! ## Converters -/

/-- Where a converter looks at a value. -/
inductive Position where
  /-- An element of a list of parameters, in `convert_params`. -/
  | param
  /-- A property of a classed object, in `convert_obj_to_jr_obj`. -/
  | property
  /-- An element of an array, in `convert_array_to_jr_array`. -/
  | element
  deriving DecidableEq, Repr

/-- The form in which a classed object is written. -/
def wrap (jsonClass : Json) (properties : List (String × Json)) : Json :=
  .obj [("json_class", jsonClass), ("data", .obj properties)]

section Converters

variable (engine : Engine)

mutual

/-- One value in the loop of a converter. -/
def convert (position : Position) : Json → Except Thrown Json
  | .arr elements =>
    match position with
    | .param => (convertEach .param elements).map .arr
    | .property => (convertEach .element elements).map .arr
    -- The recursive call goes through `RJR.JRMesage`, which does not exist.
    | .element => .error .typeError
  | .obj members =>
    if isJrObject (.obj members) then
      (convertProperties members).map (wrap (member "json_class" members))
    else if isArray (.obj members) then
      match position with
      | .param => do
        let count ← engine.bound (member "length" members)
        return .arr (← indexed (convertMembers .param members) count)
      | .property => do
        -- The members are copied onto an array: indexes become elements, `length` its length.
        let count ← engine.arrayLength (member "length" members)
        return .arr (← indexed (convertMembers .element members) count)
      | .element => .error .typeError
    else .ok (.obj members)
  | value => .ok value

/-- The elements of a list or an array. -/
def convertEach (position : Position) : List Json → Except Thrown (List Json)
  | [] => .ok []
  | value :: rest => do
    let converted ← convert position value
    return converted :: (← convertEach position rest)

/-- The properties of a copy of a classed object, without its `json_class`. -/
def convertProperties : List (String × Json) → Except Thrown (List (String × Json))
  | [] => .ok []
  | (key, value) :: rest =>
    if key = "json_class" then convertProperties rest
    else do
      let converted ← convert .property value
      return (key, converted) :: (← convertProperties rest)

/-- The members of an object that is read by index. -/
def convertMembers (position : Position) :
    List (String × Json) → List (String × Except Thrown Json)
  | [] => []
  | (key, value) :: rest => (key, convert position value) :: convertMembers position rest

end

/-- The elements are converted one by one. -/
theorem convertEach_ok_iff (position : Position) (elements converted : List Json) :
    convertEach engine position elements = .ok converted ↔
      List.Forall₂ (fun value written => convert engine position value = .ok written)
        elements converted := by
  have traversed : convertEach engine position elements =
      elements.mapM (convert engine position) := by
    induction elements with
    | nil => rfl
    | cons value rest ih => rw [convertEach, List.mapM_cons, ih]
  rw [traversed, Traversal.mapM_eq_ok_iff]

/-- What is converted for an index is what a member is converted to, or `null`. -/
theorem mem_indexed_convertMembers {position : Position} {members : List (String × Json)}
    {count : Nat} {elements : List Json}
    (listed : indexed (convertMembers engine position members) count = .ok elements)
    {element : Json} (inside : element ∈ elements) :
    element = .null ∨ ∃ member ∈ members, convert engine position member.2 = .ok element := by
  have results : ∀ members, convertMembers engine position members =
      members.map fun member => (member.1, convert engine position member.2) := by
    intro members
    induction members with
    | nil => rfl
    | cons member rest ih => rw [convertMembers, List.map_cons, ih]
  obtain rfl | ⟨key, among⟩ := mem_indexed listed inside
  · exact .inl rfl
  · rw [results, List.mem_map] at among
    obtain ⟨member, own, same⟩ := among
    exact .inr ⟨member, own, congrArg Prod.snd same⟩

/-- The properties other than `json_class` are converted one by one and keep their names. -/
theorem convertProperties_ok_iff (members converted : List (String × Json)) :
    convertProperties engine members = .ok converted ↔
      List.Forall₂ (fun member written =>
          member.1 = written.1 ∧ convert engine .property member.2 = .ok written.2)
        (members.filter fun member => member.1 != "json_class") converted := by
  have traversed : convertProperties engine members =
      (members.filter fun member => member.1 != "json_class").mapM fun member =>
        (convert engine .property member.2).map fun written => (member.1, written) := by
    induction members with
    | nil => rfl
    | cons member rest ih =>
      obtain ⟨key, value⟩ := member
      rw [convertProperties, List.filter_cons]
      by_cases named : key = "json_class"
      · simp only [named, if_true, bne_self_eq_false, Bool.false_eq_true, if_false, ih]
      · have kept : (key != "json_class") = true := by simpa using named
        simp only [if_neg named, kept, if_true, List.mapM_cons, ← ih]
        cases convert engine .property value <;> rfl
  rw [traversed, Traversal.mapM_eq_ok_iff]
  apply iff_of_eq
  congr
  funext member written
  cases convert engine .property member.2 <;> simp [Except.map, Prod.ext_iff]

/-- `convert_params`. -/
def convertParams (params : List Json) : Except Thrown (List Json) :=
  convertEach engine .param params

/-- `convert_obj_to_jr_obj`. -/
def convertObjToJrObj (members : List (String × Json)) : Except Thrown Json :=
  (convertProperties engine members).map (wrap (member "json_class" members))

/-- `convert_array_to_jr_array`. -/
def convertArrayToJrArray (elements : List Json) : Except Thrown (List Json) :=
  convertEach engine .element elements

/-- An array among the parameters is converted by `convert_params`. -/
theorem convert_param_arr (elements : List Json) :
    convert engine .param (.arr elements) = (convertParams engine elements).map .arr := rfl

/-- An array property is converted by `convert_array_to_jr_array`. -/
theorem convert_property_arr (elements : List Json) :
    convert engine .property (.arr elements) = (convertArrayToJrArray engine elements).map .arr :=
  rfl

/-- A classed object is converted by `convert_obj_to_jr_obj`, wherever it stands. -/
theorem convert_classed {members : List (String × Json)}
    (classed : isJrObject (.obj members) = true) (position : Position) :
    convert engine position (.obj members) = convertObjToJrObj engine members := by
  simp only [convert, if_pos classed, convertObjToJrObj]

/-- An object that is neither classed nor taken for an array is left as it is. -/
theorem convert_plain {members : List (String × Json)}
    (classed : isJrObject (.obj members) = false) (array : isArray (.obj members) = false)
    (position : Position) : convert engine position (.obj members) = .ok (.obj members) := by
  simp only [convert, classed, array, Bool.false_eq_true, if_false]

/-- An object that is taken for an array is converted to an array or not at all. -/
theorem convert_arrayLike {members : List (String × Json)}
    (classed : isJrObject (.obj members) = false) (array : isArray (.obj members) = true)
    (position : Position) {written : Json}
    (converted : convert engine position (.obj members) = .ok written) :
    ∃ inner count elements, indexed (convertMembers engine inner members) count = .ok elements ∧
      written = .arr elements := by
  simp only [convert, classed, array, Bool.false_eq_true, if_false, if_true] at converted
  cases position with
  | param =>
    obtain ⟨count, -, counted⟩ := (Traversal.bind_eq_ok_iff _ _ _).mp converted
    obtain ⟨elements, listed, ⟨⟩⟩ := (Traversal.bind_eq_ok_iff _ _ _).mp counted
    exact ⟨.param, count, elements, listed, rfl⟩
  | property =>
    obtain ⟨count, -, counted⟩ := (Traversal.bind_eq_ok_iff _ _ _).mp converted
    obtain ⟨elements, listed, ⟨⟩⟩ := (Traversal.bind_eq_ok_iff _ _ _).mp counted
    exact ⟨.element, count, elements, listed, rfl⟩
  | element => cases converted

end Converters

/-! ## Converters back -/

/-- The results for the members of a classed object, after those of its `data` were assigned to it
and `data` was deleted. -/
def spread (own data : List (String × Except Thrown Json)) :
    List (String × Except Thrown Json) :=
  (((OrderedHash.ofList own).putAll (data.filter fun member => member.1 != "__proto__")).select
    fun member => member.1 != "data").entries

/-- The results under their names, if none is an error. -/
def collected (results : List (String × Except Thrown Json)) :
    Except Thrown (List (String × Json)) :=
  results.mapM fun result => result.2.map fun value => (result.1, value)

section Restorers

variable (engine : Engine)

mutual

/-- One value in the loops of `convert_obj_from_jr_obj` and `convert_array_from_jr_array`. -/
def restore : Json → Except Thrown Json
  | .arr elements => (restoreEach elements).map .arr
  | .obj members =>
    if isJrObject (.obj members) then
      let own := restoreMembers members
      (collected (if truthy (member "data" members) then spread own (restoreData members)
        else own)).map .obj
    else if isArray (.obj members) then do
      -- The members are copied onto an array: indexes become elements, `length` its length.
      let count ← engine.arrayLength (member "length" members)
      return .arr (← indexed (restoreMembers members) count)
    else .ok (.obj members)
  | value => .ok value

/-- The elements of an array. -/
def restoreEach : List Json → Except Thrown (List Json)
  | [] => .ok []
  | value :: rest => do
    let restored ← restore value
    return restored :: (← restoreEach rest)

/-- The results for the members of an object. -/
def restoreMembers : List (String × Json) → List (String × Except Thrown Json)
  | [] => []
  | (key, value) :: rest => (key, restore value) :: restoreMembers rest

/-- The results for the properties of the `data` of a classed object. -/
def restoreData : List (String × Json) → List (String × Except Thrown Json)
  | [] => []
  | (key, value) :: rest => if key = "data" then restoreForIn value else restoreData rest

/-- The results for the properties of `data`, whatever it is. -/
def restoreForIn : Json → List (String × Except Thrown Json)
  | .obj properties => restoreMembers properties
  | .arr elements => restoreElements 0 elements
  | .str text => (engine.characters text).zipIdx.map fun (character, index) =>
      (toString index, .ok (.str character))
  | _ => []

/-- The results for the elements of an array, as properties from an index on. -/
def restoreElements (index : Nat) : List Json → List (String × Except Thrown Json)
  | [] => []
  | value :: rest => (toString index, restore value) :: restoreElements (index + 1) rest

end

/-- `convert_obj_from_jr_obj`. -/
def convertObjFromJrObj (members : List (String × Json)) : Except Thrown Json :=
  let own := restoreMembers engine members
  (collected (if truthy (member "data" members) then spread own (restoreData engine members)
    else own)).map .obj

/-- `convert_array_from_jr_array`. -/
def convertArrayFromJrArray (elements : List Json) : Except Thrown (List Json) :=
  restoreEach engine elements

/-- A classed object is restored by `convert_obj_from_jr_obj`. -/
theorem restore_classed {members : List (String × Json)}
    (classed : isJrObject (.obj members) = true) :
    restore engine (.obj members) = convertObjFromJrObj engine members := by
  rw [restore, if_pos classed, convertObjFromJrObj]

/-- An array is restored by `convert_array_from_jr_array`. -/
theorem restore_arr (elements : List Json) :
    restore engine (.arr elements) = (convertArrayFromJrArray engine elements).map .arr := rfl

/-- The elements are restored one by one. -/
theorem restoreEach_ok_iff (elements restored : List Json) :
    restoreEach engine elements = .ok restored ↔
      List.Forall₂ (fun value result => restore engine value = .ok result) elements restored := by
  have traversed : restoreEach engine elements = elements.mapM (restore engine) := by
    induction elements with
    | nil => rfl
    | cons value rest ih => rw [restoreEach, List.mapM_cons, ih]
  rw [traversed, Traversal.mapM_eq_ok_iff]

/-- The members of an object are restored one by one. -/
theorem restoreMembers_eq (members : List (String × Json)) :
    restoreMembers engine members =
      members.map fun member => (member.1, restore engine member.2) := by
  induction members with
  | nil => rfl
  | cons member rest ih => rw [restoreMembers, List.map_cons, ih]

/-- Results are collected when all are values, and keep their names. -/
theorem collected_ok_iff (results : List (String × Except Thrown Json))
    (values : List (String × Json)) :
    collected results = .ok values ↔
      List.Forall₂ (fun result value => result.1 = value.1 ∧ result.2 = .ok value.2)
        results values := by
  rw [collected, Traversal.mapM_eq_ok_iff]
  apply iff_of_eq
  congr
  funext result value
  cases result.2 <;> simp [Except.map, Prod.ext_iff]

end Restorers

/-! ## Parsers -/

/-- The object `parse_obj` builds. -/
def build (jsonClass : Json) (properties : List (String × Json)) : Json :=
  .obj (assignAll (OrderedHash.empty.put "json_class" jsonClass) properties).entries

section Parsers

variable (engine : Engine)

/-- The test for an array that `parse_obj` makes for a property: on the member of that name of the
classed object itself, not on the property. -/
def testedArray (obj : List (String × Json)) (key : String) : Bool := isArray (member key obj)

mutual

/-- One value in the loop of a parser, with the outcome of the test that decides whether it is
given to `parse_array`. -/
def parseValue (array : Bool) : Json → Except Thrown Json
  | .obj members =>
    if isJrObject (.obj members) then
      (parseData (testedArray members) members).map (build (member "json_class" members))
    else if array then do
      let count ← engine.bound (member "length" members)
      return .arr (← indexed (parseMembers members) count)
    else .ok (.obj members)
  | .arr elements => if array then (parseEach elements).map .arr else .ok (.arr elements)
  | .str text =>
    .ok (if array then .arr ((engine.characters text).map .str) else .str text)
  | .null => if array then .error .typeError else .ok .null
  | value => .ok (if array then .arr [] else value)

/-- The items of an array. -/
def parseEach : List Json → Except Thrown (List Json)
  | [] => .ok []
  | item :: rest => do
    let parsed ← parseValue (isArray item) item
    return parsed :: (← parseEach rest)

/-- The members of an object that is read by index. -/
def parseMembers : List (String × Json) → List (String × Except Thrown Json)
  | [] => []
  | (key, item) :: rest => (key, parseValue (isArray item) item) :: parseMembers rest

/-- The properties in the `data` of a classed object, which is looked for among its members. -/
def parseData (array : String → Bool) :
    List (String × Json) → Except Thrown (List (String × Json))
  | [] => .ok []
  | (key, value) :: rest => if key = "data" then parseForIn array value else parseData array rest

/-- The loop over the properties of `data`, whatever it is. -/
def parseForIn (array : String → Bool) : Json → Except Thrown (List (String × Json))
  | .obj properties => parseProperties array properties
  | .arr elements => parseElements array 0 elements
  | .str text => .ok ((engine.characters text).zipIdx.map fun (character, index) =>
      (toString index, if array (toString index)
        then .arr ((engine.characters character).map .str) else .str character))
  | _ => .ok []

/-- The properties of an object. -/
def parseProperties (array : String → Bool) :
    List (String × Json) → Except Thrown (List (String × Json))
  | [] => .ok []
  | (key, property) :: rest => do
    let parsed ← parseValue (array key) property
    return (key, parsed) :: (← parseProperties array rest)

/-- The elements of an array, as properties from an index on. -/
def parseElements (array : String → Bool) (index : Nat) :
    List Json → Except Thrown (List (String × Json))
  | [] => .ok []
  | property :: rest => do
    let parsed ← parseValue (array (toString index)) property
    return (toString index, parsed) :: (← parseElements array (index + 1) rest)

end

/-- The items are parsed one by one. -/
theorem parseEach_ok_iff (items parsed : List Json) :
    parseEach engine items = .ok parsed ↔
      List.Forall₂ (fun item read => parseValue engine (isArray item) item = .ok read)
        items parsed := by
  have traversed : parseEach engine items =
      items.mapM fun item => parseValue engine (isArray item) item := by
    induction items with
    | nil => rfl
    | cons item rest ih => rw [parseEach, List.mapM_cons, ih]
  rw [traversed, Traversal.mapM_eq_ok_iff]

/-- What is parsed for an index is what a member is parsed to, or `null`. -/
theorem mem_indexed_parseMembers {members : List (String × Json)} {count : Nat}
    {elements : List Json} (listed : indexed (parseMembers engine members) count = .ok elements)
    {element : Json} (inside : element ∈ elements) :
    element = .null ∨
      ∃ member ∈ members, parseValue engine (isArray member.2) member.2 = .ok element := by
  have results : ∀ members, parseMembers engine members =
      members.map fun member => (member.1, parseValue engine (isArray member.2) member.2) := by
    intro members
    induction members with
    | nil => rfl
    | cons member rest ih => rw [parseMembers, List.map_cons, ih]
  obtain rfl | ⟨key, among⟩ := mem_indexed listed inside
  · exact .inl rfl
  · rw [results, List.mem_map] at among
    obtain ⟨member, own, same⟩ := among
    exact .inr ⟨member, own, congrArg Prod.snd same⟩

/-- Without data there are no properties. -/
theorem parseData_missing {members : List (String × Json)}
    (missing : members.lookup "data" = none) (array : String → Bool) :
    parseData engine array members = .ok [] := by
  induction members with
  | nil => rfl
  | cons entry rest ih =>
    rw [OrderedHash.lookup_cons_if] at missing
    by_cases named : "data" = entry.1
    · rw [if_pos named] at missing
      cases missing
    · rw [if_neg named] at missing
      rw [parseData, if_neg fun same => named same.symm, ih missing]

/-- Only the tests of names that are there matter. -/
theorem parseProperties_congr {array : String → Bool} (other : String → Bool)
    {properties : List (String × Json)}
    (agree : ∀ property ∈ properties, array property.1 = other property.1) :
    parseProperties engine array properties = parseProperties engine other properties := by
  induction properties with
  | nil => rfl
  | cons property rest ih =>
    obtain ⟨key, value⟩ := property
    rw [List.forall_mem_cons] at agree
    rw [parseProperties, parseProperties, agree.1, ih agree.2]

/-- The properties are parsed one by one and keep their names. -/
theorem parseProperties_ok_iff (array : String → Bool) (properties parsed : List (String × Json)) :
    parseProperties engine array properties = .ok parsed ↔
      List.Forall₂ (fun property read =>
          property.1 = read.1 ∧ parseValue engine (array property.1) property.2 = .ok read.2)
        properties parsed := by
  have traversed : parseProperties engine array properties = properties.mapM fun property =>
      (parseValue engine (array property.1) property.2).map fun read => (property.1, read) := by
    induction properties with
    | nil => rfl
    | cons property rest ih =>
      obtain ⟨key, value⟩ := property
      rw [parseProperties, List.mapM_cons, ih]
      cases parseValue engine (array key) value <;> rfl
  rw [traversed, Traversal.mapM_eq_ok_iff]
  apply iff_of_eq
  congr
  funext property read
  cases parseValue engine (array property.1) property.2 <;> simp [Except.map, Prod.ext_iff]

/-- `parse_obj`. -/
def parseObj (members : List (String × Json)) : Except Thrown Json :=
  (parseData engine (testedArray members) members).map (build (member "json_class" members))

/-- A classed object is parsed by `parse_obj`, whatever the test for an array says. -/
theorem parseValue_classed {members : List (String × Json)}
    (classed : isJrObject (.obj members) = true) (array : Bool) :
    parseValue engine array (.obj members) = parseObj engine members := by
  rw [parseValue, if_pos classed, parseObj]

/-- `parse_array`, for whatever is given to it. -/
def parseArray (value : Json) : Except Thrown (List Json) :=
  match value with
  | .arr elements => parseEach engine elements
  | .obj members => do
    let count ← engine.bound (member "length" members)
    indexed (parseMembers engine members) count
  | .str text => .ok ((engine.characters text).map .str)
  | .null => .error .typeError
  | _ => .ok []

end Parsers

end JRMessage

/-- `RJR.JRMessage`. -/
structure JRMessage where
  /-- Id, `null` or what the message has for it. -/
  id : Json := .null
  /-- Method of a request. -/
  rpcMethod : Json := .null
  /-- Parameters of a request. -/
  params : List Json := []
  /-- Error of a response. -/
  error : Json := .null
  /-- Result of a response. -/
  result : Json := .null
  /-- Whether a handler of the response was given. -/
  onresponse : Bool := false
  /-- Headers written beside the standard members. -/
  headers : OrderedHash String Json := OrderedHash.empty
  deriving DecidableEq

namespace JRMessage

/-- The members of a message with converted parameters. -/
def members (message : JRMessage) (params : List Json) : OrderedHash String Json :=
  assignAll ⟨[("jsonrpc", .str "2.0"), ("method", message.rpcMethod), ("params", .arr params),
    ("id", message.id)], by simp⟩ message.headers.entries

/-- `to_json`. -/
def toJson (engine : Engine) (native : NativeJson) (message : JRMessage) :
    Except Thrown String := do
  let params ← convertParams engine message.params
  return native.stringify (.obj (message.members params).entries)

/-- `RJR.JRMessage.parse`. -/
def parse (engine : Engine) (native : NativeJson) (json : String) : Except Thrown JRMessage := do
  let data ← match ← native.parse json with
    | .null => .error .typeError
    | .obj members => .ok members
    | _ => .ok []
  let params := member "params" data
  let parsed ← if truthy params then parseArray engine params else .ok []
  let result := member "result" data
  let value ← if truthy result then parseValue engine (isArray result) result else .ok .null
  return { id := member "id" data, rpcMethod := member "method" data, params := parsed,
           error := member "error" data, result := value }

/-! ## Requests -/

/-- `RJR.S4`, for the sixteen random bits. -/
def s4 (bits : Fin 0x10000) : List Char := (Nat.toDigits 16 (0x10000 + bits)).drop 1

/-- `RJR.guid`. -/
def guid (bits : Fin 8 → Fin 0x10000) : String :=
  String.ofList (s4 (bits 0) ++ s4 (bits 1) ++ ['-'] ++ s4 (bits 2) ++ ['-'] ++ s4 (bits 3) ++
    ['-'] ++ s4 (bits 4) ++ ['-'] ++ s4 (bits 5) ++ s4 (bits 6) ++ s4 (bits 7))

/-- A guid has dashes, so it is not a name with a meaning of its own. -/
theorem guid_ne_proto (bits : Fin 8 → Fin 0x10000) : guid bits ≠ "__proto__" := by
  intro same
  have dash : '-' ∈ (guid bits).toList := by
    simp only [guid, String.toList_ofList, List.mem_append, List.mem_singleton, or_true, true_or]
  rw [same] at dash
  revert dash
  decide

/-- `new_request`. -/
def newRequest (bits : Fin 8 → Fin 0x10000) (rpcMethod : Json) (params : List Json) : JRMessage :=
  { id := .str (guid bits), rpcMethod := rpcMethod, params := params }

/-- An argument of `invoke`. -/
inductive Argument where
  /-- A value. -/
  | value (tree : Json)
  /-- A function. -/
  | callback
  deriving DecidableEq

/-- An argument that is not a function. -/
def Argument.tree? : Argument → Option Json
  | .value tree => some tree
  | .callback => none

/-- `prepare_args`: the method, the parameters, and whether the last argument is a function. -/
def prepareArgs (args : List Argument) : Json × List Json × Bool :=
  ((args.head?.bind Argument.tree?).getD .null, args.tail.filterMap Argument.tree?,
    args.getLast? == some .callback)

/-- `request_for_node`, for a node with these headers and this id; the headers of the request are
those of the node itself. -/
def requestForNode (headers : OrderedHash String Json) (nodeId : Json)
    (bits : Fin 8 → Fin 0x10000) (args : List Argument) : JRMessage :=
  let prepared := prepareArgs args
  { newRequest bits prepared.1 prepared.2.1 with
    onresponse := prepared.2.2, headers := headers.put "node_id" nodeId }

end JRMessage

end Rjr.Site
