import Rjr.Util.JsonText

/-!
# Looking up a class by its name

`String#to_class` says that it converts a string safely. It follows the segments of a name from
module to module, and a name that leads nowhere should give `nil`. It does so only for the last
segment: after a segment that names nothing, or an object that is not a module, the next one is
looked up in `nil` or in that object, which have no constants and raise. And an object that is not
a module is returned where the name ends there.
-/

namespace Rjr.Verif.ClassLookup

open CoreExt JsonText

/-- The segments of a name that are not empty. -/
def names (name : String) : List (List Char) := (segments name.toList []).filter (· ≠ [])

/-- What is reached when every segment names a constant of the module reached so far. -/
def walk : Constant → List (List Char) → Option Constant
  | constant, [] => some constant
  | .object _, _ :: _ => none
  | .space _ constants, segment :: rest =>
    (constants.lookup (String.ofList segment)).bind fun inner => walk inner rest

/-- The constant is a module or a class. -/
def IsModule (constant : Constant) : Prop :=
  ∃ name constants, constant = .space name constants

/-- What a safe lookup does, given what the name leads to: it returns, with `nil` for a name that
leads nowhere, and otherwise with what was reached, which is a module. -/
def Safe (reached : Option Constant) (result : Except Exn (Option Constant)) : Prop :=
  ∃ found, result = .ok found ∧ (reached = none → found = none) ∧
    ∀ constant, reached = some constant → found = some constant ∧ IsModule constant

/-- Every part of a name before its last segment leads to a module, and the name itself leads to
a module or nowhere. -/
def Regular (object : Constant) (segments : List (List Char)) : Prop :=
  ∀ front rest, front ++ rest = segments →
    (∀ printed, walk object front ≠ some (.object printed)) ∧
      (rest ≠ [] → walk object front ≠ none)

section Regular

/-- The empty name leads to a module from a module only. -/
theorem regular_nil (object : Constant) : Regular object [] ↔ IsModule object := by
  constructor
  · intro regular
    cases object with
    | space name constants => exact ⟨name, constants, rfl⟩
    | object printed => exact absurd rfl ((regular [] [] rfl).1 printed)
  · rintro ⟨name, constants, rfl⟩ front rest whole
    obtain ⟨rfl, rfl⟩ := List.append_eq_nil_iff.mp whole
    exact ⟨nofun, fun more => absurd rfl more⟩

/-- No name is regular from an object. -/
theorem not_regular_object (printed : String) (segments : List (List Char)) :
    ¬ Regular (.object printed) segments := by
  intro regular
  exact (regular [] segments rfl).1 printed rfl

/-- A name is regular when the rest of it is, from what its first segment names; a segment that
names nothing has to be the last. -/
theorem regular_cons (name : String) (constants : List (String × Constant)) (segment : List Char)
    (rest : List (List Char)) :
    Regular (.space name constants) (segment :: rest) ↔
      match constants.lookup (String.ofList segment) with
      | none => rest = []
      | some inner => Regular inner rest := by
  have walked : ∀ front, walk (.space name constants) (segment :: front) =
      (constants.lookup (String.ofList segment)).bind fun inner => walk inner front :=
    fun _ => rfl
  cases found : constants.lookup (String.ofList segment) with
  | none =>
    rw [found] at walked
    constructor
    · intro regular
      by_contra more
      exact (regular [segment] rest rfl).2 more (walked [])
    · intro last front after whole
      rw [last] at whole
      cases front with
      | nil => exact ⟨nofun, fun _ => nofun⟩
      | cons first others =>
        obtain ⟨rfl, others⟩ := List.cons.inj whole
        obtain ⟨rfl, rfl⟩ := List.append_eq_nil_iff.mp others
        rw [walked]
        exact ⟨nofun, fun more => absurd rfl more⟩
  | some inner =>
    rw [found] at walked
    constructor
    · intro regular front after whole
      have further := regular (segment :: front) after (congrArg (segment :: ·) whole)
      rw [walked] at further
      exact further
    · intro regular front after whole
      cases front with
      | nil => exact ⟨nofun, fun _ => nofun⟩
      | cons first others =>
        obtain ⟨rfl, tail⟩ := List.cons.inj whole
        rw [walked]
        exact regular others after tail

end Regular

section Lookup

variable (runtime : Runtime)

/-- Empty segments change nothing. -/
theorem foldlM_filter (segments : List (List Char)) (reached : Option Constant) :
    segments.foldlM (resolve runtime) reached =
      (segments.filter (· ≠ [])).foldlM (resolve runtime) reached := by
  induction segments generalizing reached with
  | nil => rfl
  | cons segment rest ih =>
    by_cases empty : segment = []
    · have kept : resolve runtime reached segment = .ok reached := by
        unfold resolve
        rw [if_pos empty]
      rw [List.foldlM_cons, kept, List.filter_cons_of_neg (by simp [empty])]
      exact ih reached
    · rw [List.filter_cons_of_pos (by simp [empty]), List.foldlM_cons, List.foldlM_cons]
      congr 1
      funext next
      exact ih next

/-- Nothing is found in `nil`. -/
theorem foldlM_nil_raises (reached : Option Constant) (segment : List Char)
    (rest : List (List Char)) (nonempty : segment ≠ []) :
    ¬ Safe reached ((segment :: rest).foldlM (resolve runtime) none) := by
  rintro ⟨found, returned, _⟩
  rw [List.foldlM_cons, resolve, if_neg nonempty] at returned
  cases returned

/-- A lookup along segments that are not empty is safe exactly where they are regular. -/
theorem foldlM_safe_iff (segments : List (List Char)) (nonempty : ∀ segment ∈ segments,
    segment ≠ []) (object : Constant) :
    Safe (walk object segments) (segments.foldlM (resolve runtime) (some object)) ↔
      Regular object segments := by
  induction segments generalizing object with
  | nil =>
    rw [regular_nil]
    constructor
    · rintro ⟨found, _, _, reaches⟩
      exact (reaches object rfl).2
    · intro isModule
      refine ⟨some object, rfl, nofun, ?_⟩
      rintro constant ⟨⟩
      exact ⟨rfl, isModule⟩
  | cons segment rest ih =>
    have first : segment ≠ [] := nonempty segment List.mem_cons_self
    have others : ∀ other ∈ rest, other ≠ [] :=
      fun other inside => nonempty other (List.mem_cons_of_mem _ inside)
    cases object with
    | object printed =>
      refine iff_of_false ?_ (not_regular_object printed _)
      rintro ⟨found, returned, _⟩
      rw [List.foldlM_cons, resolve, if_neg first] at returned
      cases returned
    | space name constants =>
      have step : resolve runtime (some (.space name constants)) segment =
          .ok (constants.lookup (String.ofList segment)) := by
        rw [resolve, if_neg first]
      rw [regular_cons, List.foldlM_cons, step, walk]
      change Safe _ (rest.foldlM (resolve runtime) _) ↔ _
      cases found : constants.lookup (String.ofList segment) with
      | some inner => exact ih others inner
      | none =>
        cases rest with
        | nil => exact iff_of_true ⟨none, rfl, fun _ => rfl, nofun⟩ rfl
        | cons next rest =>
          have raises := foldlM_nil_raises runtime
            ((none : Option Constant).bind fun inner => walk inner (next :: rest)) next rest
            (others next List.mem_cons_self)
          exact iff_of_false raises nofun

/-- **A class is looked up safely exactly where its name is regular.** For every string and every
tree of constants: `to_class` returns, with `nil` unless every segment that is not empty names a
constant of the module reached so far, and otherwise with the module reached, if and only if
every part of the name before its last segment leads to a module and the name itself does not
lead to another object. -/
theorem toClass_safe_iff (object : Constant) (name : String) :
    Safe (walk object (names name)) (toClass runtime object name) ↔
      Regular object (names name) := by
  rw [toClass, foldlM_filter]
  apply foldlM_safe_iff
  intro segment inside
  simpa using (List.mem_filter.mp inside).2

end Lookup

/-- The constants of a program with a module, a class in it, and the version of the language, an
object that is a string. -/
def program : Constant :=
  .space "Object" [("RJR", .space "RJR" [("Node", .space "RJR::Node" [])]),
    ("RUBY_VERSION", .object "2.0.0")]

/-- Two segments that name nothing: the second one is looked up in `nil`, which raises. A constant
that is a string is returned although it is not a module, and looking further in it raises. -/
theorem toClass_raises :
    toClass terse program "Gone::Node" = .error (terse.noMethodError "constants" "nil") ∧
      toClass terse program "RUBY_VERSION" = .ok (some (.object "2.0.0")) ∧
      toClass terse program "RUBY_VERSION::Node" =
        .error (terse.noMethodError "constants" "2.0.0") ∧
      ¬ Safe (walk program (names "Gone::Node")) (toClass terse program "Gone::Node") ∧
      ¬ Safe (walk program (names "RUBY_VERSION")) (toClass terse program "RUBY_VERSION") := by
  have raises : toClass terse program "Gone::Node" =
      .error (terse.noMethodError "constants" "nil") := rfl
  have returns : toClass terse program "RUBY_VERSION" = .ok (some (.object "2.0.0")) := rfl
  refine ⟨raises, returns, rfl, ?_, ?_⟩
  · rintro ⟨found, returned, _⟩
    rw [raises] at returned
    cases returned
  · rintro ⟨found, _, _, reaches⟩
    obtain ⟨_, name, constants, isModule⟩ := reaches (.object "2.0.0") rfl
    cases isModule

end Rjr.Verif.ClassLookup
