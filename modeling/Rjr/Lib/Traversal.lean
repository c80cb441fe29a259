import Mathlib.Data.List.Forall2

/-!
# Traversals that can fail

A list is sent through a function that can fail, element by element. The traversal succeeds when
the function does on every element, and the outcome is related to the list element by element.
Two traversals after each other, compared with the original list at the end, come down to the same
question for single elements.
-/

namespace Traversal

variable {ε α β γ κ : Type}

/-- Two steps after each other succeed when both do. -/
theorem bind_eq_ok_iff (first : Except ε α) (next : α → Except ε β) (outcome : β) :
    first >>= next = .ok outcome ↔ ∃ value, first = .ok value ∧ next value = .ok outcome := by
  cases first <;> simp [bind, Except.bind]

/-- An outcome that is mapped is that of a step that succeeded. -/
theorem map_eq_ok_iff (first : Except ε α) (f : α → β) (outcome : β) :
    first.map f = .ok outcome ↔ ∃ value, first = .ok value ∧ f value = outcome := by
  cases first <;> simp [Except.map]

/-- A traversal succeeds with the outcomes of the elements. -/
theorem mapM_eq_ok_iff (f : α → Except ε β) (list : List α) : ∀ outcomes : List β,
    list.mapM f = .ok outcomes ↔
      List.Forall₂ (fun element outcome => f element = .ok outcome) list outcomes := by
  induction list with
  | nil =>
    intro outcomes
    cases outcomes <;> simp [pure, Except.pure]
  | cons element rest ih =>
    intro outcomes
    rw [List.mapM_cons]
    cases first : f element with
    | error raised => cases outcomes <;> simp [bind, Except.bind, first]
    | ok value =>
      cases later : rest.mapM f with
      | error raised => cases outcomes <;> simp [bind, Except.bind, ← ih, first, later]
      | ok values =>
        cases outcomes <;> simp [bind, Except.bind, pure, Except.pure, ← ih, first, later]

/-- An element of the right list is related to one of the left. -/
theorem exists_of_mem_right {related : α → β → Prop} {left : List α} {right : List β}
    (entries : List.Forall₂ related left right) {outcome : β} (inside : outcome ∈ right) :
    ∃ element ∈ left, related element outcome := by
  induction entries with
  | nil => cases inside
  | @cons element other lefts rights relation rest ih =>
    rcases List.mem_cons.mp inside with rfl | later
    · exact ⟨element, List.mem_cons_self, relation⟩
    · obtain ⟨found, listed, relation⟩ := ih later
      exact ⟨found, List.mem_cons_of_mem _ listed, relation⟩

/-- An element of the left list is related to one of the right. -/
theorem exists_of_mem_left {related : α → β → Prop} {left : List α} {right : List β}
    (entries : List.Forall₂ related left right) {element : α} (inside : element ∈ left) :
    ∃ outcome ∈ right, related element outcome :=
  exists_of_mem_right entries.flip inside

/-- Two questions about the outcomes of a list can be asked for single elements. -/
theorem exists_forall₂_and_iff (first second : α → β → Prop) (list : List α) :
    (∃ outcomes, List.Forall₂ first list outcomes ∧ List.Forall₂ second list outcomes) ↔
      ∀ element ∈ list, ∃ outcome, first element outcome ∧ second element outcome := by
  induction list with
  | nil => simp
  | cons element rest ih =>
    rw [List.forall_mem_cons, ← ih]
    constructor
    · rintro ⟨outcomes, forth, compared⟩
      cases forth with
      | cons head tail =>
        cases compared with
        | cons same equal => exact ⟨⟨_, head, same⟩, _, tail, equal⟩
    · rintro ⟨⟨outcome, head, same⟩, outcomes, tail, equal⟩
      exact ⟨_, .cons head tail, .cons same equal⟩

/-- Two traversals, compared with the original list, element by element. -/
theorem exists_forall₂_iff (first : α → β → Prop) (second : β → γ → Prop) (compare : γ → α → Prop)
    (list : List α) :
    (∃ middle last, List.Forall₂ first list middle ∧ List.Forall₂ second middle last ∧
      List.Forall₂ compare last list) ↔
        ∀ element ∈ list, ∃ between final, first element between ∧ second between final ∧
          compare final element := by
  induction list with
  | nil => simp
  | cons element rest ih =>
    rw [List.forall_mem_cons, ← ih]
    constructor
    · rintro ⟨middle, last, forth, back, compared⟩
      cases forth with
      | cons head tail =>
        cases back with
        | cons next others =>
          cases compared with
          | cons same equal => exact ⟨⟨_, _, head, next, same⟩, _, _, tail, others, equal⟩
    · rintro ⟨⟨between, final, head, next, same⟩, middle, last, tail, others, equal⟩
      exact ⟨_, _, .cons head tail, .cons next others, .cons same equal⟩

/-- Association lists that are related entry by entry, under equal keys, have the same keys. -/
theorem keys_forall₂ {left : List (κ × α)} {right : List (κ × β)}
    (entries : List.Forall₂ (fun entry other => entry.1 = other.1) left right) :
    left.map Prod.fst = right.map Prod.fst := by
  induction entries with
  | nil => rfl
  | cons same rest ih => rw [List.map_cons, List.map_cons, same, ih]

/-- Association lists that are related entry by entry, under equal keys, answer alike. -/
theorem lookup_forall₂ [DecidableEq κ] (related : α → β → Prop) {left : List (κ × α)}
    {right : List (κ × β)}
    (entries : List.Forall₂ (fun entry other => entry.1 = other.1 ∧ related entry.2 other.2)
      left right) (key : κ) :
    Option.Rel related (left.lookup key) (right.lookup key) := by
  induction entries with
  | nil => exact .none
  | @cons entry other lefts rights same rest ih =>
    obtain ⟨name, value⟩ := entry
    obtain ⟨found, outcome⟩ := other
    obtain ⟨rfl, relation⟩ := same
    simp only [List.lookup_cons]
    cases key == name with
    | true => exact .some relation
    | false => exact ih

end Traversal
