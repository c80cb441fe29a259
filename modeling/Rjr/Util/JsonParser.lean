import Rjr.CoreExt

/-!
# The two stage parser

`JSONParser.parse` of `lib/rjr/util/json_parser.rb` reads a document twice. The first pass builds
plain data, which two mutually recursive traversals check; only then does the second pass
instantiate an object for every hash that names a class in its `JSON.create_id` member. Both
passes and the printer belong to the `json` library. `JsonLib` carries the first pass and the
printer, with the law the callers rely on, that a plain tree is written and read back, and what
the library puts in the place of a hash that names a class. The printer may raise on a tree that
is not plain, as it does on a number that is not finite, and `json_create` of a class may raise or
return anything.
-/

namespace Rjr

/-- The `json` library, and the classes it instantiates. -/
structure JsonLib where
  /-- `JSON.create_id`, the member that names a class. -/
  createId : String
  /-- `to_json`. -/
  generate : Json → Except Exn String
  /-- `JSON.parse` without additions. -/
  parse : String → Except Exn Json
  /-- What `JSON.parse` with additions puts in the place of a hash that names a class: what
  `json_create` of the class returns, or the hash itself if the class has no such method. -/
  create : List (String × Json) → Except Exn Json
  /-- A plain tree is written, and is read back. -/
  roundTrip : ∀ tree : Json, tree.plain createId = true →
    ∃ text, generate tree = .ok text ∧ parse text = .ok tree

/-- A text that was written from a plain tree is read back. -/
theorem JsonLib.parse_generate (lib : JsonLib) {tree : Json} {text : String}
    (plain : tree.plain lib.createId = true) (written : lib.generate tree = .ok text) :
    lib.parse text = .ok tree := by
  obtain ⟨other, generated, read⟩ := lib.roundTrip tree plain
  rw [written] at generated
  cases generated
  exact read

namespace JsonParser

variable (runtime : Runtime) (object : Constant) (lib : JsonLib)

/-- A class name as the value compared with a JSON value. -/
def nameValue : Option String → Json
  | none => .null
  | some name => .str name

/-- `JSONParser.invalid_json_class?`. Without a table the name must be that of a constant. -/
def invalidJsonClass (classes : JsonClasses) (jc : Json) : Except Exn Bool :=
  if classes.whitelist.getD false then
    match classes.permitted with
    | none => .error (runtime.noMethodError "include?" "nil")
    | some permitted => .ok (!(permitted.map nameValue).contains jc)
  else
    match CoreExt.toClass runtime object (runtime.toS jc) with
    | .error raised => .error raised
    | .ok found => .ok found.isNone

/-- The class check of one member: `k == ::JSON.create_id && invalid_json_class?(v)`. -/
def checkMember (classes : JsonClasses) (key : String) (value : Json) : Except Exn Unit := do
  if key = lib.createId then
    if ← invalidJsonClass runtime object classes value then
      .error ⟨"ArgumentError", "can't create json class " ++ runtime.toS value⟩

mutual

/-- The descent into a value: arrays and hashes are validated, anything else is passed. -/
def validateChild (classes : JsonClasses) : Json → Except Exn Unit
  | .arr elements => validateJsonArray classes elements
  | .obj members => validateJsonHash classes members
  | _ => .ok ()

/-- `JSONParser.validate_json_hash`, over the members of a hash. -/
def validateJsonHash (classes : JsonClasses) : List (String × Json) → Except Exn Unit
  | [] => .ok ()
  | (key, value) :: rest => do
    checkMember runtime object lib classes key value
    validateChild classes value
    validateJsonHash classes rest

/-- `JSONParser.validate_json_array`, over the elements of an array. -/
def validateJsonArray (classes : JsonClasses) : List Json → Except Exn Unit
  | [] => .ok ()
  | value :: rest => do
    validateChild classes value
    validateJsonArray classes rest

end

/-- Whether a hash names a class; `nil` names none. -/
def namesClass (members : List (String × Json)) : Bool :=
  members.any fun member => member.1 == lib.createId && !member.2.isNil

mutual

/-- The hashes that name a class, at every depth, in the order of the second pass. -/
def additions : Json → List Json
  | .arr elements => additionsElements elements
  | .obj members =>
    additionsMembers members ++ if namesClass lib members then [.obj members] else []
  | _ => []

/-- `additions` of the elements of an array. -/
def additionsElements : List Json → List Json
  | [] => []
  | value :: rest => additions value ++ additionsElements rest

/-- `additions` of the member values of a hash. -/
def additionsMembers : List (String × Json) → List Json
  | [] => []
  | (_, value) :: rest => additions value ++ additionsMembers rest

end

/-- What a pass does: its outcome, and the hashes for which it asked a class for an object. -/
@[ext]
structure Parsed (α : Type) where
  /-- The exception raised, or what was read. -/
  outcome : Except Exn α
  /-- The hashes whose classes were asked, as they were read. -/
  instantiated : List Json

/-- A pass goes on with what was read, unless it raised. -/
def Parsed.andThen {α β : Type} (first : Parsed α) (next : α → Parsed β) : Parsed β :=
  match first.outcome with
  | .error raised => ⟨.error raised, first.instantiated⟩
  | .ok value => ⟨(next value).outcome, first.instantiated ++ (next value).instantiated⟩

mutual

/-- `JSON.parse` with additions, on the tree of a document: what is inside of a hash comes before
the hash itself. -/
def instantiate : Json → Parsed Json
  | .arr elements => (instantiateElements elements).andThen fun built => ⟨.ok (.arr built), []⟩
  | .obj members => (instantiateMembers members).andThen fun built =>
    if namesClass lib members then ⟨lib.create built, [.obj members]⟩ else ⟨.ok (.obj built), []⟩
  | value => ⟨.ok value, []⟩

/-- The elements of an array. -/
def instantiateElements : List Json → Parsed (List Json)
  | [] => ⟨.ok [], []⟩
  | value :: rest => (instantiate value).andThen fun built =>
    (instantiateElements rest).andThen fun others => ⟨.ok (built :: others), []⟩

/-- The member values of a hash. -/
def instantiateMembers : List (String × Json) → Parsed (List (String × Json))
  | [] => ⟨.ok [], []⟩
  | (key, value) :: rest => (instantiate value).andThen fun built =>
    (instantiateMembers rest).andThen fun others => ⟨.ok ((key, built) :: others), []⟩

end

/-- `JSONParser.parse`. -/
def parse (classes : JsonClasses) (js : String) : Parsed Json :=
  match lib.parse js with
  | .error raised => ⟨.error raised, []⟩
  | .ok (.arr elements) =>
    match validateJsonArray runtime object lib classes elements with
    | .error raised => ⟨.error raised, []⟩
    | .ok () => instantiate lib (.arr elements)
  | .ok (.obj members) =>
    match validateJsonHash runtime object lib classes members with
    | .error raised => ⟨.error raised, []⟩
    | .ok () => instantiate lib (.obj members)
  | .ok scalar => ⟨.ok scalar, []⟩

/-! ## Plain trees -/

/-- A member that is not named `create_id` passes the class check. -/
theorem checkMember_other (classes : JsonClasses) (key : String) (value : Json)
    (other : key ≠ lib.createId) : checkMember runtime object lib classes key value = .ok () := by
  simp only [checkMember, other, ↓reduceIte]
  rfl

/-- No member of a plain hash names a class. -/
theorem namesClass_plain {members : List (String × Json)}
    (names : ∀ member ∈ members, member.1 ≠ lib.createId ∧ member.2.plain lib.createId = true) :
    namesClass lib members = false := by
  rw [namesClass, List.any_eq_false]
  intro member inside
  simp [(names member inside).1]

/-- A plain tree is what the second pass reads. -/
theorem instantiate_plain (tree : Json) (plain : tree.plain lib.createId = true) :
    instantiate lib tree = ⟨.ok tree, []⟩ := by
  induction tree using Json.induct with
  | null => rfl
  | bool flag => rfl
  | int number => rfl
  | float word => rfl
  | str text => rfl
  | object cls identity => rfl
  | arr elements each =>
    rw [Json.plain, Json.plainElements_iff] at plain
    have built : instantiateElements lib elements = ⟨.ok elements, []⟩ := by
      induction elements with
      | nil => rfl
      | cons value rest ih =>
        have head := each value List.mem_cons_self (plain value List.mem_cons_self)
        have tail := ih (fun inner inside => each inner (List.mem_cons_of_mem _ inside))
          fun inner inside => plain inner (List.mem_cons_of_mem _ inside)
        rw [instantiateElements, head, tail]
        rfl
    rw [instantiate, built]
    rfl
  | obj members each =>
    rw [Json.plain, Bool.and_eq_true, Json.plainMembers_iff] at plain
    have names := plain.2
    have built : instantiateMembers lib members = ⟨.ok members, []⟩ := by
      clear plain
      induction members with
      | nil => rfl
      | cons member rest ih =>
        obtain ⟨key, value⟩ := member
        have head := each (key, value) List.mem_cons_self (names _ List.mem_cons_self).2
        have tail := ih (fun inner inside => each inner (List.mem_cons_of_mem _ inside))
          fun inner inside => names inner (List.mem_cons_of_mem _ inside)
        rw [instantiateMembers, head, tail]
        rfl
    rw [instantiate, built, namesClass_plain lib names]
    rfl

/-- A plain tree is passed, whatever classes are permitted. -/
theorem validateChild_plain (classes : JsonClasses) (tree : Json)
    (plain : tree.plain lib.createId = true) :
    validateChild runtime object lib classes tree = .ok () := by
  induction tree using Json.induct with
  | null => rfl
  | bool flag => rfl
  | int number => rfl
  | float word => rfl
  | str text => rfl
  | object cls identity => rfl
  | arr elements each =>
    rw [Json.plain, Json.plainElements_iff] at plain
    rw [validateChild]
    induction elements with
    | nil => rfl
    | cons value rest ih =>
      have head := each value List.mem_cons_self (plain value List.mem_cons_self)
      have tail := ih (fun inner inside => each inner (List.mem_cons_of_mem _ inside))
        fun inner inside => plain inner (List.mem_cons_of_mem _ inside)
      rw [validateJsonArray, head]
      exact tail
  | obj members each =>
    rw [Json.plain, Bool.and_eq_true, Json.plainMembers_iff] at plain
    have names := plain.2
    rw [validateChild]
    clear plain
    induction members with
    | nil => rfl
    | cons member rest ih =>
      obtain ⟨key, value⟩ := member
      have named := names (key, value) List.mem_cons_self
      have check := checkMember_other runtime object lib classes key value named.1
      have head := each (key, value) List.mem_cons_self named.2
      have tail := ih (fun inner inside => each inner (List.mem_cons_of_mem _ inside))
        fun inner inside => names inner (List.mem_cons_of_mem _ inside)
      rw [validateJsonHash, check, head]
      exact tail

/-- A plain tree that was written is read back by the two stage parser. -/
theorem parse_plain (classes : JsonClasses) {tree : Json} {text : String}
    (plain : tree.plain lib.createId = true) (written : lib.generate tree = .ok text) :
    (parse runtime object lib classes text).outcome = .ok tree := by
  have read := lib.parse_generate plain written
  have valid := validateChild_plain runtime object lib classes tree plain
  have built := instantiate_plain lib tree plain
  unfold parse
  rw [read]
  cases tree with
  | arr elements =>
    rw [validateChild] at valid
    simp only [valid, built]
  | obj members =>
    rw [validateChild] at valid
    simp only [valid, built]
  | _ => rfl

end JsonParser

end Rjr
