import Rjr.Util.Inspect
import Rjr.Util.JsonText

/-!
# Which stored requests are selected

A filter of `select_stats` is meant as the conjunction of its criteria, each with its own argument.
The closures share one variable for the arguments of `on_node` and one for those of `for_method`,
so each criterion is compared with the last argument of its kind. The order of the criteria decides
which argument that is. So a filter means what it says, in every order, exactly when no stored
request satisfies one criterion of each kind but not all of them.
-/

namespace Rjr.Verif.Selection

open Inspect

/-- A criterion, with its own argument. -/
inductive Criterion where
  /-- `'on_node', n`. -/
  | onNode (n : Json)
  /-- `'for_method', m`. -/
  | forMethod (m : Json)
  /-- `'successful'`. -/
  | successful
  /-- `'failed'`. -/
  | failed
  deriving DecidableEq

namespace Criterion

/-- The words of a criterion. -/
def words : Criterion → List Json
  | .onNode n => [.str "on_node", n]
  | .forMethod m => [.str "for_method", m]
  | .successful => [.str "successful"]
  | .failed => [.str "failed"]

/-- Whether a stored request satisfies a criterion; `equal` is `==`. -/
def holds (runtime : Runtime) (equal : Json → Json → Bool) (stored : StoredRequest) :
    Criterion → Bool
  | .onNode n => .str (runtime.toS stored.rjrNodeType) = n
  | .forMethod m => equal stored.rjrMethod m
  | .successful => stored.result.any Result.success
  | .failed => stored.result.any Result.failed

/-- The closure that is made for a criterion. -/
def closure : Criterion → Closure
  | .onNode _ => .onNode
  | .forMethod _ => .forMethod
  | .successful => .successful
  | .failed => .failed

/-- A criterion with the argument that the variables hold. -/
def held (shared : Shared) : Criterion → Criterion
  | .onNode _ => .onNode shared.n
  | .forMethod _ => .forMethod shared.m
  | .successful => .successful
  | .failed => .failed

/-- What a criterion assigns. -/
def assign (shared : Shared) : Criterion → Shared
  | .onNode n => { shared with n := n }
  | .forMethod m => { shared with m := m }
  | .successful | .failed => shared

end Criterion

open Criterion

/-- The words of a list of criteria. -/
def filterOf (criteria : List Criterion) : List Json := criteria.flatMap words

/-! ## The loop -/

/-- The words of one criterion make its closure and assign its argument. -/
theorem gather_words (shared : Shared) (criterion : Criterion) (rest : List Json) :
    gather shared (criterion.words ++ rest) =
      (some criterion.closure :: (gather (criterion.assign shared) rest).1,
        (gather (criterion.assign shared) rest).2) := by
  cases criterion with
  | onNode n => simp [words, gather, shift, Criterion.closure, assign, Json.truthy]
  | forMethod m => simp [words, gather, shift, Criterion.closure, assign, Json.truthy]
  | successful => simp [words, gather, Criterion.closure, assign, Json.truthy]
  | failed => simp [words, gather, Criterion.closure, assign, Json.truthy]

/-- A list of criteria makes its closures, and leaves the arguments that came last. -/
theorem gather_filterOf (criteria : List Criterion) : ∀ shared,
    gather shared (filterOf criteria) =
      (criteria.map fun criterion => some criterion.closure, criteria.foldl assign shared) := by
  induction criteria with
  | nil => intro shared; simp [filterOf, gather]
  | cons criterion rest ih =>
    intro shared
    have split : filterOf (criterion :: rest) = criterion.words ++ filterOf rest := rfl
    rw [split, gather_words, ih]
    rfl

/-- Criteria of one kind are compared with the same argument. -/
theorem held_congr {criterion other : Criterion} (kind : other.closure = criterion.closure)
    (shared : Shared) : other.held shared = criterion.held shared := by
  cases criterion <;> cases other <;> first | rfl | cases kind

/-- A criterion that is held is one of its kind. -/
theorem closure_held (shared : Shared) (criterion : Criterion) :
    (criterion.held shared).closure = criterion.closure := by
  cases criterion <;> rfl

/-- Right after its words, a criterion is compared with its own argument. -/
theorem held_assign_self (shared : Shared) (criterion : Criterion) :
    criterion.held (criterion.assign shared) = criterion := by
  cases criterion <;> rfl

/-- The words of a criterion replace the argument of its own kind only. -/
theorem held_assign (shared : Shared) (criterion next : Criterion) :
    criterion.held (next.assign shared) = criterion.held shared ∨
      criterion.held (next.assign shared) = next := by
  cases criterion <;> cases next <;> first | exact .inl rfl | exact .inr rfl

/-- After the loop a criterion is compared with the argument of one of the criteria, or with what
the variables held before. -/
theorem held_foldl (criterion : Criterion) (criteria : List Criterion) : ∀ shared : Shared,
    criterion.held (criteria.foldl assign shared) = criterion.held shared ∨
      criterion.held (criteria.foldl assign shared) ∈ criteria := by
  induction criteria with
  | nil => exact fun shared => .inl rfl
  | cons next rest ih =>
    intro shared
    rw [List.foldl_cons]
    rcases ih (next.assign shared) with kept | later
    · rw [kept]
      rcases held_assign shared criterion next with before | own
      · exact .inl before
      · rw [own]
        exact .inr List.mem_cons_self
    · exact .inr (List.mem_cons_of_mem _ later)

/-- A criterion of the list is compared with an argument that the list has. -/
theorem held_mem {criterion : Criterion} {criteria : List Criterion}
    (inside : criterion ∈ criteria) (shared : Shared) :
    criterion.held (criteria.foldl assign shared) ∈ criteria := by
  obtain ⟨before, after, rfl⟩ := List.append_of_mem inside
  rw [List.foldl_append, List.foldl_cons]
  rcases held_foldl criterion after (criterion.assign (before.foldl assign shared)) with
    kept | later
  · rw [kept, held_assign_self]
    exact inside
  · exact List.mem_append_right _ (List.mem_cons_of_mem _ later)

/-! ## The selection -/

section Selecting

variable (runtime : Runtime) (equal : Json → Json → Bool)

/-- A closure compares a request that has a result with the argument the variables hold. -/
theorem call_closure (shared : Shared) {stored : StoredRequest}
    (answered : stored.result.isSome = true) (criterion : Criterion) :
    criterion.closure.call runtime equal shared stored =
      .ok ((criterion.held shared).holds runtime equal stored) := by
  obtain ⟨result, present⟩ := Option.isSome_iff_exists.mp answered
  cases criterion with
  | onNode n => rfl
  | forMethod m => rfl
  | successful => simp only [Criterion.closure, Closure.call, held, holds, present, Option.any_some]
  | failed => simp only [Criterion.closure, Closure.call, held, holds, present, Option.any_some]

/-- All closures hold when all criteria do, with the arguments the variables hold. -/
theorem callAll_closures (shared : Shared) {stored : StoredRequest}
    (answered : stored.result.isSome = true) (criteria : List Criterion) :
    callAll runtime equal shared stored (criteria.map fun criterion => some criterion.closure) =
      .ok (criteria.all fun criterion => (criterion.held shared).holds runtime equal stored) := by
  induction criteria with
  | nil => rfl
  | cons criterion rest ih =>
    rw [List.map_cons, callAll, call_closure runtime equal shared answered, ih, List.all_cons]
    cases (criterion.held shared).holds runtime equal stored <;> rfl

/-- The requests that pass are selected, in their order. -/
theorem selectFrom_eq {shared : Shared} {closures : List (Option Closure)}
    {passes : StoredRequest → Bool} {requests : List StoredRequest}
    (called : ∀ stored ∈ requests,
      callAll runtime equal shared stored closures = .ok (passes stored)) :
    selectFrom runtime equal shared closures requests = .ok (requests.filter passes) := by
  induction requests with
  | nil => rfl
  | cons stored rest ih =>
    rw [List.forall_mem_cons] at called
    rw [selectFrom, called.1, ih called.2, List.filter_cons]
    rfl

/-- A request satisfies one criterion of each kind that is listed. -/
def Kinds (criteria : List Criterion) (stored : StoredRequest) : Prop :=
  ∀ criterion ∈ criteria, ∃ other ∈ criteria,
    other.closure = criterion.closure ∧ other.holds runtime equal stored = true

/-- Where all criteria of a kind have the same argument, a request that satisfies one of each kind
satisfies them all. -/
theorem holds_of_same_arguments {criteria : List Criterion}
    (same : ∀ first ∈ criteria, ∀ second ∈ criteria, first.closure = second.closure →
      first = second) {stored : StoredRequest} (kinds : Kinds runtime equal criteria stored) :
    ∀ criterion ∈ criteria, criterion.holds runtime equal stored = true := by
  intro criterion inside
  obtain ⟨other, listed, kind, holds⟩ := kinds criterion inside
  rw [← same other listed criterion inside kind]
  exact holds

variable {requests : List StoredRequest}
  (answered : ∀ stored ∈ requests, stored.result.isSome = true)
include answered

/-- Every filter selects by its criteria with the arguments that came last. -/
theorem selectStats_filterOf (criteria : List Criterion) :
    selectStats runtime equal requests (filterOf criteria) =
      .ok (requests.filter fun stored => criteria.all fun criterion =>
        (criterion.held (criteria.foldl assign {})).holds runtime equal stored) := by
  rw [selectStats, gather_filterOf]
  apply selectFrom_eq
  intro stored inside
  exact callAll_closures runtime equal _ (answered stored inside) criteria

omit answered in
/-- A request that satisfies all criteria passes, whatever arguments came last. -/
theorem passes_of_all {criteria : List Criterion} {stored : StoredRequest}
    (all : ∀ criterion ∈ criteria, criterion.holds runtime equal stored = true) :
    ∀ criterion ∈ criteria,
      (criterion.held (criteria.foldl assign {})).holds runtime equal stored = true :=
  fun _ inside => all _ (held_mem inside {})

/-- Lists of the same criteria select by the conjunction when every request that satisfies one
criterion of each kind satisfies them all. -/
theorem selectStats_of_kinds {criteria other : List Criterion}
    (same : ∀ criterion, criterion ∈ other ↔ criterion ∈ criteria)
    (kinds : ∀ stored ∈ requests, Kinds runtime equal criteria stored →
      ∀ criterion ∈ criteria, criterion.holds runtime equal stored = true) :
    selectStats runtime equal requests (filterOf other) =
      .ok (requests.filter fun stored => criteria.all fun criterion =>
        criterion.holds runtime equal stored) := by
  rw [selectStats_filterOf runtime equal answered]
  congr 1
  apply List.filter_congr
  intro stored inside
  rw [Bool.eq_iff_iff, List.all_eq_true, List.all_eq_true]
  constructor
  · intro passes
    refine kinds stored inside fun criterion listed => ?_
    have listedOther := (same criterion).mpr listed
    exact ⟨_, (same _).mp (held_mem listedOther {}), closure_held _ _,
      passes criterion listedOther⟩
  · intro all
    exact passes_of_all runtime equal fun criterion listed => all criterion ((same _).mp listed)

/-- When the criteria that a request satisfies are repeated at the end, the request is selected if
it satisfies one criterion of each kind. -/
theorem mem_select_repeated {criteria : List Criterion} {stored : StoredRequest}
    (inside : stored ∈ requests) (kinds : Kinds runtime equal criteria stored) :
    ∃ selected, selectStats runtime equal requests (filterOf (criteria ++
        criteria.filter fun criterion => criterion.holds runtime equal stored)) = .ok selected ∧
      stored ∈ selected := by
  refine ⟨_, selectStats_filterOf runtime equal answered _, List.mem_filter.mpr ⟨inside, ?_⟩⟩
  rw [List.all_eq_true]
  intro criterion listed
  have own : criterion ∈ criteria :=
    (List.mem_append.mp listed).elim id fun repeated => (List.mem_filter.mp repeated).1
  obtain ⟨other, otherListed, kind, holds⟩ := kinds criterion own
  rw [← held_congr kind, List.foldl_append]
  exact (List.mem_filter.mp (held_mem (List.mem_filter.mpr ⟨otherListed, holds⟩) _)).2

/-- **When a filter is the conjunction of its criteria.** For every list of stored requests that
have results and every list of criteria: the requests that satisfy every criterion with its own
argument are selected in their order, and any list of the same criteria, in another order or with
repetitions, selects the same, if and only if every stored request that satisfies one criterion of
each kind satisfies them all. -/
theorem selection_conjunction_iff (criteria : List Criterion) :
    (selectStats runtime equal requests (filterOf criteria) =
        .ok (requests.filter fun stored => criteria.all fun criterion =>
          criterion.holds runtime equal stored) ∧
      ∀ other : List Criterion, (∀ criterion, criterion ∈ other ↔ criterion ∈ criteria) →
        selectStats runtime equal requests (filterOf other) =
          selectStats runtime equal requests (filterOf criteria)) ↔
      ∀ stored ∈ requests, Kinds runtime equal criteria stored →
        ∀ criterion ∈ criteria, criterion.holds runtime equal stored = true := by
  constructor
  · rintro ⟨own, unchanged⟩ stored inside kinds
    obtain ⟨selected, selects, chosen⟩ := mem_select_repeated runtime equal answered inside kinds
    have same : ∀ criterion, criterion ∈ criteria ++ (criteria.filter fun criterion =>
        criterion.holds runtime equal stored) ↔ criterion ∈ criteria := by
      intro criterion
      rw [List.mem_append, List.mem_filter]
      exact ⟨fun either => either.elim id And.left, .inl⟩
    rw [unchanged _ same, own] at selects
    rw [← Except.ok.inj selects] at chosen
    exact List.all_eq_true.mp (List.mem_filter.mp chosen).2
  · intro kinds
    have own := selectStats_of_kinds runtime equal answered (fun _ => Iff.rfl) kinds
    refine ⟨own, fun other same => ?_⟩
    rw [own, selectStats_of_kinds runtime equal answered same kinds]

end Selecting

/-- A request that came in on a node of this type, with a successful result. -/
def storedOn (nodeType : String) : StoredRequest where
  rjrMethod := .str "echo"
  rjrMethodArgs := .arr []
  rjrNodeType := .str nodeType
  result := some (Result.ofReturn .null)

/-- One request of a local node and one of a TCP node. -/
def storedPair : List StoredRequest := [storedOn "local", storedOn "tcp"]

/-- Both have results. -/
theorem storedPair_answered : ∀ stored ∈ storedPair, stored.result.isSome = true := by
  simp [storedPair, storedOn]

/-- A repeated criterion selects the request it names, once. -/
theorem selection_repeated :
    selectStats JsonText.terse (· == ·) storedPair
        (filterOf [.onNode (.str "tcp"), .successful, .onNode (.str "tcp")]) =
      .ok [storedOn "tcp"] := by
  have means := (selection_conjunction_iff JsonText.terse (· == ·) storedPair_answered
    [.onNode (.str "tcp"), .successful, .onNode (.str "tcp")]).mpr fun stored _ =>
      holds_of_same_arguments JsonText.terse (· == ·) (by decide)
  rw [means.1]
  rfl

/-- A filter for requests of both nodes, which no request satisfies, selects those of the node that
was named last. -/
theorem selection_last_argument :
    selectStats JsonText.terse (· == ·) storedPair
        (filterOf [.onNode (.str "local"), .onNode (.str "tcp")]) = .ok [storedOn "tcp"] ∧
      (storedPair.filter fun stored =>
        [Criterion.onNode (.str "local"), .onNode (.str "tcp")].all fun criterion =>
          criterion.holds JsonText.terse (· == ·) stored) = [] := by
  rw [selectStats_filterOf JsonText.terse (· == ·) storedPair_answered]
  exact ⟨rfl, rfl⟩

end Rjr.Verif.Selection
