import Rjr.Util.JsonText

/-!
# Safe instantiation

The check of `JSONParser.parse` against its purpose, stated on the tree alone: once a class has
been permitted, a document passes exactly when every hash in it, below any alternation of arrays
and hashes, that has the `create_id` member carries the name of a permitted class there. The two
traversals are proved complete by induction over the value; a document that fails is rejected
before anything is instantiated, and one that passes is read again with its classes instantiated.
-/

namespace Rjr.Verif.SafeParse

open JsonParser

/-- A value and everything below it, through arrays and hashes. -/
inductive Subtree : Json → Json → Prop where
  | self (value : Json) : Subtree value value
  | element {inner value : Json} {elements : List Json} : value ∈ elements →
      Subtree inner value → Subtree inner (.arr elements)
  | member {inner value : Json} {key : String} {members : List (String × Json)} :
      (key, value) ∈ members → Subtree inner value → Subtree inner (.obj members)

/-- A scalar contains no hash. -/
def Scalar : Json → Prop
  | .arr _ => False
  | .obj _ => False
  | _ => True

/-- Every hash of a tree that names a class names a permitted one. -/
def OnlyPermitted (createId : String) (names : List (Option String)) (tree : Json) : Prop :=
  ∀ members, Subtree (.obj members) tree → ∀ value, (createId, value) ∈ members →
    ∃ name ∈ names, value = nameValue name

/-- A value without containers has nothing to check. -/
theorem onlyPermitted_scalar (createId : String) (names : List (Option String)) (tree : Json)
    (scalar : Scalar tree) : OnlyPermitted createId names tree := by
  intro members below
  cases below with
  | self => exact scalar.elim
  | element => exact scalar.elim
  | member => exact scalar.elim

/-- An array is checked through its elements. -/
theorem onlyPermitted_arr (createId : String) (names : List (Option String))
    (elements : List Json) :
    OnlyPermitted createId names (.arr elements) ↔
      ∀ value ∈ elements, OnlyPermitted createId names value := by
  constructor
  · intro permitted value inside members below
    exact permitted members (.element inside below)
  · intro permitted members below
    cases below with
    | element inside below => exact permitted _ inside members below

/-- A hash is checked at its own `create_id` member and through its member values. -/
theorem onlyPermitted_obj (createId : String) (names : List (Option String))
    (members : List (String × Json)) :
    OnlyPermitted createId names (.obj members) ↔
      ∀ entry ∈ members, (entry.1 = createId → ∃ name ∈ names, entry.2 = nameValue name) ∧
        OnlyPermitted createId names entry.2 := by
  constructor
  · rintro permitted ⟨key, value⟩ inside
    refine ⟨?_, ?_⟩
    · rintro rfl
      exact permitted members (.self _) value inside
    · intro inner below
      exact permitted inner (.member inside below)
  · intro permitted inner below
    cases below with
    | self =>
      intro value inside
      exact (permitted _ inside).1 rfl
    | member inside below => exact (permitted _ inside).2 inner below

section Whitelisted

variable (runtime : Runtime) (object : Constant) (lib : JsonLib) (classes : JsonClasses)
  (permitted : List (Option String))

/-- With the table enabled, a class check passes exactly on the names in the table. -/
theorem invalidJsonClass_listed (listed : classes = ⟨some true, some permitted⟩) (value : Json) :
    invalidJsonClass runtime object classes value =
      .ok (!decide (∃ name ∈ permitted, value = nameValue name)) := by
  subst listed
  have member : (permitted.map nameValue).contains value =
      decide (∃ name ∈ permitted, value = nameValue name) := by
    rw [Bool.eq_iff_iff]
    simp [eq_comm]
  simp only [invalidJsonClass, Option.getD_some, ↓reduceIte, member]

/-- What a check does on a document that is to be rejected: it raises an `ArgumentError` that
names the class. -/
def Rejects (outcome : Except Exn Unit) : Prop :=
  ∃ value, outcome = .error ⟨"ArgumentError", "can't create json class " ++ runtime.toS value⟩

/-- A check that decides a property: it passes where the property holds and otherwise rejects. -/
def Decides (outcome : Except Exn Unit) (legal : Prop) : Prop :=
  (outcome = .ok () ∧ legal) ∨ (Rejects runtime outcome ∧ ¬ legal)

/-- A check that decides a property decides every property equivalent to it. -/
theorem Decides.congr {outcome : Except Exn Unit} {legal legal' : Prop}
    (decides : Decides runtime outcome legal) (same : legal ↔ legal') :
    Decides runtime outcome legal' := by
  rwa [Decides, ← same]

/-- Passing checks decide a property that always holds. -/
theorem Decides.pass {legal : Prop} (holds : legal) : Decides runtime (.ok ()) legal :=
  .inl ⟨rfl, holds⟩

/-- Two checks in sequence decide both properties. -/
theorem Decides.andThen {first second : Except Exn Unit} {legal legal' : Prop}
    (left : Decides runtime first legal) (right : Decides runtime second legal') :
    Decides runtime (do first; second) (legal ∧ legal') := by
  rcases left with ⟨rfl, holds⟩ | ⟨⟨value, rfl⟩, fails⟩
  · rcases right with ⟨rfl, holds'⟩ | ⟨rejects, fails⟩
    · exact .inl ⟨rfl, holds, holds'⟩
    · exact .inr ⟨rejects, fun both => fails both.2⟩
  · exact .inr ⟨⟨value, rfl⟩, fun both => fails both.1⟩

/-- The class check of a member decides whether it names a permitted class, if it names one. -/
theorem checkMember_decides (listed : classes = ⟨some true, some permitted⟩) (key : String)
    (value : Json) :
    Decides runtime (checkMember runtime object lib classes key value)
      (key = lib.createId → ∃ name ∈ permitted, value = nameValue name) := by
  have check := invalidJsonClass_listed runtime object classes permitted listed value
  by_cases named : key = lib.createId
  · by_cases known : ∃ name ∈ permitted, value = nameValue name
    · left
      refine ⟨?_, fun _ => known⟩
      simp only [checkMember, named, ↓reduceIte, check, known, decide_true, Bool.not_true]
      rfl
    · right
      refine ⟨⟨value, ?_⟩, fun passes => known (passes named)⟩
      simp only [checkMember, named, ↓reduceIte, check, known, decide_false, Bool.not_false]
      rfl
  · left
    refine ⟨?_, fun same => absurd same named⟩
    simp only [checkMember, named, ↓reduceIte]
    rfl

/-- The traversal of an array decides what the descents into its elements decide. -/
theorem validateJsonArray_decides (legal : Json → Prop) (elements : List Json)
    (each : ∀ value ∈ elements,
      Decides runtime (validateChild runtime object lib classes value) (legal value)) :
    Decides runtime (validateJsonArray runtime object lib classes elements)
      (∀ value ∈ elements, legal value) := by
  induction elements with
  | nil => exact Decides.pass runtime (by simp)
  | cons value rest ih =>
    have head := each value List.mem_cons_self
    have tail := ih fun inner inside => each inner (List.mem_cons_of_mem _ inside)
    have both := Decides.andThen runtime head tail
    apply both.congr
    rw [List.forall_mem_cons]

/-- The traversal of a hash decides the class checks of its members and what the descents into
their values decide. -/
theorem validateJsonHash_decides (listed : classes = ⟨some true, some permitted⟩)
    (legal : Json → Prop) (members : List (String × Json))
    (each : ∀ entry ∈ members,
      Decides runtime (validateChild runtime object lib classes entry.2) (legal entry.2)) :
    Decides runtime (validateJsonHash runtime object lib classes members)
      (∀ entry ∈ members, (entry.1 = lib.createId → ∃ name ∈ permitted, entry.2 = nameValue name) ∧
        legal entry.2) := by
  induction members with
  | nil => exact Decides.pass runtime (by simp)
  | cons entry rest ih =>
    obtain ⟨key, value⟩ := entry
    have check := checkMember_decides runtime object lib classes permitted listed key value
    have head := each (key, value) List.mem_cons_self
    have tail := ih fun inner inside => each inner (List.mem_cons_of_mem _ inside)
    have all := Decides.andThen runtime check (Decides.andThen runtime head tail)
    apply all.congr
    rw [List.forall_mem_cons, and_assoc]

/-- The descent into any value decides whether it names permitted classes only. -/
theorem validateChild_decides (listed : classes = ⟨some true, some permitted⟩) (tree : Json) :
    Decides runtime (validateChild runtime object lib classes tree)
      (OnlyPermitted lib.createId permitted tree) := by
  induction tree using Json.induct with
  | null => exact Decides.pass runtime (onlyPermitted_scalar _ _ _ trivial)
  | bool => exact Decides.pass runtime (onlyPermitted_scalar _ _ _ trivial)
  | int => exact Decides.pass runtime (onlyPermitted_scalar _ _ _ trivial)
  | float => exact Decides.pass runtime (onlyPermitted_scalar _ _ _ trivial)
  | str => exact Decides.pass runtime (onlyPermitted_scalar _ _ _ trivial)
  | object => exact Decides.pass runtime (onlyPermitted_scalar _ _ _ trivial)
  | arr elements each =>
    have elementsDecided := validateJsonArray_decides runtime object lib classes _ elements each
    apply elementsDecided.congr
    rw [onlyPermitted_arr]
  | obj members each =>
    have membersDecided :=
      validateJsonHash_decides runtime object lib classes permitted listed _ members each
    apply membersDecided.congr
    rw [onlyPermitted_obj]

end Whitelisted

/-- The tree of a document is validated by the descent into it, whatever it is. -/
theorem parse_eq (runtime : Runtime) (object : Constant) (lib : JsonLib) (classes : JsonClasses)
    (js : String) (tree : Json) (read : lib.parse js = .ok tree) :
    parse runtime object lib classes js =
      match validateChild runtime object lib classes tree with
      | .error raised => ⟨.error raised, []⟩
      | .ok () => instantiate lib tree := by
  unfold parse
  rw [read]
  cases tree with
  | null => rfl
  | bool => rfl
  | int => rfl
  | float => rfl
  | str => rfl
  | object => rfl
  | arr elements =>
    unfold validateChild
    rfl
  | obj members =>
    unfold validateChild
    rfl

section SecondPass

variable {α β : Type}

/-- A pass asks the classes of hashes in their order: of some of them if it raises, and of all of
them if it returns. -/
def Asks (pass : Parsed α) (hashes : List Json) : Prop :=
  pass.instantiated <+: hashes ∧ ∀ value, pass.outcome = .ok value → pass.instantiated = hashes

/-- A pass that asks no class. -/
theorem asks_none (outcome : Except Exn α) : Asks ⟨outcome, []⟩ [] :=
  ⟨List.prefix_rfl, fun _ _ => rfl⟩

/-- A pass that goes on asks for more hashes. -/
theorem Asks.andThen {first : Parsed α} {next : α → Parsed β} {hashes others : List Json}
    (asks : Asks first hashes) (goes : ∀ value, Asks (next value) others) :
    Asks (first.andThen next) (hashes ++ others) := by
  cases read : first.outcome with
  | error raised =>
    simp only [Parsed.andThen, read]
    exact ⟨asks.1.trans (List.prefix_append _ _), fun value => nofun⟩
  | ok value =>
    simp only [Parsed.andThen, read]
    have all := asks.2 value read
    refine ⟨?_, fun other returned => ?_⟩
    · rw [all]
      exact List.prefix_append_right_inj _ |>.mpr (goes value).1
    · rw [all, (goes value).2 other returned]

variable (lib : JsonLib)

/-- The second pass asks the classes of the hashes that name one. -/
theorem instantiate_asks (tree : Json) : Asks (instantiate lib tree) (additions lib tree) := by
  induction tree using Json.induct with
  | null => exact asks_none _
  | bool => exact asks_none _
  | int => exact asks_none _
  | float => exact asks_none _
  | str => exact asks_none _
  | object => exact asks_none _
  | arr elements each =>
    have elementsAsk : Asks (instantiateElements lib elements)
        (additionsElements lib elements) := by
      induction elements with
      | nil => exact asks_none _
      | cons value rest ih =>
        have tail := ih fun inner inside => each inner (List.mem_cons_of_mem _ inside)
        refine (each value List.mem_cons_self).andThen fun built => ?_
        simpa using tail.andThen fun others => asks_none (.ok (built :: others))
    simpa [instantiate, additions] using
      elementsAsk.andThen fun built => asks_none (.ok (Json.arr built))
  | obj members each =>
    have membersAsk : Asks (instantiateMembers lib members) (additionsMembers lib members) := by
      induction members with
      | nil => exact asks_none _
      | cons member rest ih =>
        have tail := ih fun inner inside => each inner (List.mem_cons_of_mem _ inside)
        refine (each member List.mem_cons_self).andThen fun built => ?_
        simpa using tail.andThen fun others => asks_none (.ok ((member.1, built) :: others))
    refine membersAsk.andThen fun built => ?_
    -- the hash itself comes after what is inside of it
    by_cases named : namesClass lib members = true
    · simp only [named, ↓reduceIte]
      exact ⟨List.prefix_rfl, fun _ _ => rfl⟩
    · simp only [named]
      exact asks_none _

/-- A pass and what follows it return. -/
theorem andThen_returns {first : Parsed α} {next : α → Parsed β} {value : α} {outcome : β}
    (read : first.outcome = .ok value) (went : (next value).outcome = .ok outcome) :
    (first.andThen next).outcome = .ok outcome := by
  simp only [Parsed.andThen, read, went]

/-- The second pass returns if no class raises. -/
theorem instantiate_returns (returns : ∀ members, ∃ value, lib.create members = .ok value)
    (tree : Json) : ∃ value, (instantiate lib tree).outcome = .ok value := by
  induction tree using Json.induct with
  | null => exact ⟨_, rfl⟩
  | bool => exact ⟨_, rfl⟩
  | int => exact ⟨_, rfl⟩
  | float => exact ⟨_, rfl⟩
  | str => exact ⟨_, rfl⟩
  | object => exact ⟨_, rfl⟩
  | arr elements each =>
    have elementsReturn : ∃ built, (instantiateElements lib elements).outcome = .ok built := by
      induction elements with
      | nil => exact ⟨_, rfl⟩
      | cons value rest ih =>
        obtain ⟨head, readHead⟩ := each value List.mem_cons_self
        obtain ⟨tail, readTail⟩ := ih fun inner inside => each inner (List.mem_cons_of_mem _ inside)
        exact ⟨_, andThen_returns readHead (andThen_returns readTail rfl)⟩
    obtain ⟨built, read⟩ := elementsReturn
    exact ⟨_, andThen_returns read rfl⟩
  | obj members each =>
    have membersReturn : ∃ built, (instantiateMembers lib members).outcome = .ok built := by
      induction members with
      | nil => exact ⟨_, rfl⟩
      | cons member rest ih =>
        obtain ⟨head, readHead⟩ := each member List.mem_cons_self
        obtain ⟨tail, readTail⟩ := ih fun inner inside => each inner (List.mem_cons_of_mem _ inside)
        exact ⟨_, andThen_returns readHead (andThen_returns readTail rfl)⟩
    obtain ⟨built, read⟩ := membersReturn
    obtain ⟨value, created⟩ := returns built
    by_cases named : namesClass lib members = true
    · exact ⟨value, andThen_returns read (by simp only [named, ↓reduceIte, created])⟩
    · exact ⟨.obj built, andThen_returns read (by simp only [named]; rfl)⟩

/-- The second pass reads the tree itself if no class puts anything else in the place of a
hash. -/
theorem instantiate_same (same : ∀ members, lib.create members = .ok (.obj members))
    (tree : Json) : (instantiate lib tree).outcome = .ok tree := by
  induction tree using Json.induct with
  | null => rfl
  | bool => rfl
  | int => rfl
  | float => rfl
  | str => rfl
  | object => rfl
  | arr elements each =>
    have elementsSame : (instantiateElements lib elements).outcome = .ok elements := by
      induction elements with
      | nil => rfl
      | cons value rest ih =>
        have tail := ih fun inner inside => each inner (List.mem_cons_of_mem _ inside)
        exact andThen_returns (each value List.mem_cons_self) (andThen_returns tail rfl)
    exact andThen_returns elementsSame rfl
  | obj members each =>
    have membersSame : (instantiateMembers lib members).outcome = .ok members := by
      induction members with
      | nil => rfl
      | cons member rest ih =>
        have tail := ih fun inner inside => each inner (List.mem_cons_of_mem _ inside)
        exact andThen_returns (each member List.mem_cons_self) (andThen_returns tail rfl)
    refine andThen_returns membersSame ?_
    split
    · exact same members
    · rfl

end SecondPass

/-- Only the names in the table matter, not their order. -/
theorem onlyPermitted_congr (createId : String) (names names' : List (Option String)) (tree : Json)
    (same : ∀ name, name ∈ names ↔ name ∈ names') :
    OnlyPermitted createId names tree ↔ OnlyPermitted createId names' tree := by
  simp only [OnlyPermitted, same]

/-- **The second stage is reached exactly on documents that name permitted classes only.** After
any registrations, at least one, every document that can be read either is a scalar or a tree
whose hashes name permitted classes wherever they have the `create_id` member, and then the second
pass is what returns: it asks the classes of these hashes in their order, of all of them unless
one raises, and gives the tree back where no class puts anything else in the place of a hash; or
the document is rejected with an `ArgumentError`, and no class has been asked. -/
theorem parse_instantiates_permitted_only (runtime : Runtime) (object : Constant) (lib : JsonLib)
    (whitelist : Option Bool) (names : List (Option String)) (registered : names ≠ [])
    (js : String) (tree : Json) (read : lib.parse js = .ok tree) :
    let parsed := parse runtime object lib (JsonClasses.permitAll ⟨whitelist, none⟩ names) js
    ((Scalar tree ∨ OnlyPermitted lib.createId names tree) →
        parsed = instantiate lib tree ∧
        parsed.instantiated <+: additions lib tree ∧
        ((∀ members, ∃ value, lib.create members = .ok value) →
          ∃ value, parsed = ⟨.ok value, additions lib tree⟩) ∧
        ((∀ members, lib.create members = .ok (.obj members)) →
          parsed = ⟨.ok tree, additions lib tree⟩)) ∧
      (¬ (Scalar tree ∨ OnlyPermitted lib.createId names tree) →
        parsed.instantiated = [] ∧ ∃ value, parsed.outcome =
          .error ⟨"ArgumentError", "can't create json class " ++ runtime.toS value⟩) := by
  obtain ⟨permitted, table, members⟩ :=
    JsonClasses.permitAll_permitted names ⟨whitelist, none⟩ registered
  have same : ∀ name, name ∈ permitted ↔ name ∈ names := by
    intro name
    rw [members]
    simp
  have decided := validateChild_decides runtime object lib _ permitted table tree
  rw [onlyPermitted_congr _ _ _ _ same] at decided
  have parsed := parse_eq runtime object lib (JsonClasses.permitAll ⟨whitelist, none⟩ names) js
    tree read
  have asks := instantiate_asks lib tree
  rcases decided with ⟨passes, legal⟩ | ⟨⟨value, rejects⟩, illegal⟩
  · rw [passes] at parsed
    simp only [parsed]
    refine ⟨fun _ => ⟨trivial, asks.1, fun returns => ?_, fun unchanged => ?_⟩,
      fun fails => absurd (.inr legal) fails⟩
    · obtain ⟨value, returned⟩ := instantiate_returns lib returns tree
      exact ⟨value, Parsed.ext returned (asks.2 value returned)⟩
    · have returned := instantiate_same lib unchanged tree
      exact Parsed.ext returned (asks.2 tree returned)
  · rw [rejects] at parsed
    refine ⟨?_, fun _ => by rw [parsed]; exact ⟨rfl, value, rfl⟩⟩
    rintro (scalar | legal)
    · exact absurd (onlyPermitted_scalar _ _ _ scalar) illegal
    · exact absurd legal illegal

/-- A hash that names a class. -/
def classed (name : String) : Json := .obj [("json_class", .str name), ("data", .null)]

/-- A document parsed after `Rect` alone has been permitted. -/
def parsedByRect (tree : Json) : Parsed Json :=
  parse JsonText.terse (.space "Object" []) JsonText.lib
    (JsonClasses.permitAll ⟨none, none⟩ [some "Rect"]) (String.ofList (JsonText.write tree))

/-- A permitted class below a hash in an array is instantiated; a class that was not permitted is
not, and the permitted one before it is not instantiated either. -/
theorem parse_instantiates_permitted_only_nested :
    (parsedByRect (.arr [.obj [("shape", classed "Rect")]])).instantiated = [classed "Rect"] ∧
      (parsedByRect (.arr [classed "Rect", .obj [("shape", classed "Kernel")]])).instantiated =
        [] := by
  have whole := fun tree formed => parse_instantiates_permitted_only JsonText.terse
    (.space "Object" []) JsonText.lib none [some "Rect"] (by decide)
    (String.ofList (JsonText.write tree)) tree (JsonText.read_write formed)
  refine ⟨?_, ?_⟩
  · have name := onlyPermitted_scalar "json_class" [some "Rect"] (.str "Rect") trivial
    have data := onlyPermitted_scalar "json_class" [some "Rect"] .null trivial
    have legal : OnlyPermitted "json_class" [some "Rect"]
        (.arr [.obj [("shape", classed "Rect")]]) := by
      rw [onlyPermitted_arr]
      simp [onlyPermitted_obj, classed, name, data, nameValue]
    have parsed := ((whole _ (by decide)).1 (.inr legal)).2.2.2 fun _ => rfl
    rw [parsedByRect, parsed]
    decide
  · have kernel : Subtree (classed "Kernel")
        (.arr [classed "Rect", .obj [("shape", classed "Kernel")]]) :=
      .element (List.mem_cons_of_mem _ List.mem_cons_self) (.member List.mem_cons_self (.self _))
    have illegal : ¬ OnlyPermitted "json_class" [some "Rect"]
        (.arr [classed "Rect", .obj [("shape", classed "Kernel")]]) := by
      intro legal
      have named := legal _ kernel (.str "Kernel") List.mem_cons_self
      simp [nameValue] at named
    exact ((whole _ (by decide)).2 fun either => either.elim id illegal).1

end Rjr.Verif.SafeParse
