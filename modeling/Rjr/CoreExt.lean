import Rjr.Ruby

/-!
# Core extensions

`lib/rjr/core_ext.rb`: the lookup of a class by name, and the table of classes that may be
instantiated from JSON. The table is shared state of `Class`; it is enabled by the first
registration and only grows.
-/

namespace Rjr

/-- A constant: a module or class with further constants, or any other object. -/
inductive Constant where
  /-- A module or class, with what its `constants` and `const_get` give. -/
  | space (name : String) (constants : List (String × Constant))
  /-- An object without constants, by its printed form. -/
  | object (printed : String)

namespace CoreExt

/-- The segments of a name between its `::` separators. -/
def segments : List Char → List Char → List (List Char)
  | ':' :: ':' :: rest, segment => segment.reverse :: segments rest []
  | char :: rest, segment => segments rest (char :: segment)
  | [], segment => [segment.reverse]

/-- One iteration of `String#to_class`: `nil` and plain objects have no `constants` method. -/
def resolve (runtime : Runtime) (reached : Option Constant) (segment : List Char) :
    Except Exn (Option Constant) :=
  if segment = [] then .ok reached
  else match reached with
    | none => .error (runtime.noMethodError "constants" "nil")
    | some (.object printed) => .error (runtime.noMethodError "constants" printed)
    | some (.space _ constants) => .ok (constants.lookup (String.ofList segment))

/-- `String#to_class`, from the top-level constants. -/
def toClass (runtime : Runtime) (object : Constant) (name : String) :
    Except Exn (Option Constant) :=
  (segments name.toList []).foldlM (resolve runtime) (some object)

end CoreExt

/-- `Class.whitelist_json_classes` and `Class.permitted_json_classes`. -/
structure JsonClasses where
  /-- Whether the table of permitted classes is used; unset at first. -/
  whitelist : Option Bool
  /-- Names of the permitted classes; an anonymous class has none. -/
  permitted : Option (List (Option String))
  deriving DecidableEq, Repr

/-- No registration has happened. -/
def JsonClasses.unset : JsonClasses := ⟨none, none⟩

/-- `Class#permit_json_create`, called on the class with this name. -/
def JsonClasses.permitJsonCreate (classes : JsonClasses) (name : Option String) : JsonClasses :=
  let permitted := classes.permitted.getD []
  { whitelist := some true
    permitted := some (if name ∈ permitted then permitted else permitted ++ [name]) }

/-- A sequence of registrations. -/
def JsonClasses.permitAll (classes : JsonClasses) (names : List (Option String)) : JsonClasses :=
  names.foldl permitJsonCreate classes

/-- The table holds exactly the names registered so far, once registration has begun. -/
theorem JsonClasses.permitAll_permitted (names : List (Option String)) (classes : JsonClasses)
    (registered : names ≠ []) :
    ∃ permitted, classes.permitAll names = ⟨some true, some permitted⟩ ∧
      ∀ name, name ∈ permitted ↔ name ∈ classes.permitted.getD [] ∨ name ∈ names := by
  induction names generalizing classes with
  | nil => exact absurd rfl registered
  | cons first rest ih =>
    have step : ∀ name, name ∈ ((classes.permitJsonCreate first).permitted.getD []) ↔
        name ∈ classes.permitted.getD [] ∨ name = first := by
      intro name
      simp only [permitJsonCreate, Option.getD_some]
      split
      · rename_i known
        exact ⟨.inl, fun either => either.elim id fun same => same ▸ known⟩
      · simp
    by_cases last : rest = []
    · subst last
      refine ⟨_, rfl, fun name => ?_⟩
      have one := step name
      simp only [permitJsonCreate, Option.getD_some] at one
      simpa using one
    · obtain ⟨permitted, same, members⟩ := ih (classes.permitJsonCreate first) last
      refine ⟨permitted, same, fun name => ?_⟩
      rw [members, step, List.mem_cons, or_assoc]

end Rjr
