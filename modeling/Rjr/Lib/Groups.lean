import Mathlib.Data.List.Basic

/-!
# Lists read in groups

Some elements of a list open a group, which takes a number of the elements that follow, whatever
they are. An element that is met outside of a group and opens none is skipped. A group that the
end of the list cuts short is filled up. If nothing is skipped, the groups put together are the
list, with the filling of the last group behind it.
-/

namespace Groups

variable {α : Type} (count : α → Option Nat) (filling : α)

/-- How a list is read. -/
structure Parsed (α : Type) where
  /-- The groups, in their order. -/
  groups : List (List α)
  /-- The positions of the elements that were skipped, in their order. -/
  skipped : List Nat

/-- The elements that follow, as many as a group takes. -/
def following (taken : Nat) (rest : List α) : List α :=
  rest.take taken ++ List.replicate (taken - rest.length) filling

/-- The groups of a list and what is skipped, with positions counted from `start`. -/
def parse (start : Nat) : List α → Parsed α
  | [] => ⟨[], []⟩
  | head :: rest =>
    match count head with
    | none =>
      let parsed := parse (start + 1) rest
      { parsed with skipped := start :: parsed.skipped }
    | some taken =>
      let parsed := parse (start + 1 + taken) (rest.drop taken)
      { parsed with groups := (head :: following filling taken rest) :: parsed.groups }
termination_by list => list.length
decreasing_by
  · simp
  · simp only [List.length_drop, List.length_cons]
    omega

/-- An element that opens no group is skipped. -/
theorem parse_skip {head : α} (other : count head = none) (start : Nat) (rest : List α) :
    parse count filling start (head :: rest) =
      { parse count filling (start + 1) rest with
        skipped := start :: (parse count filling (start + 1) rest).skipped } := by
  rw [parse, other]

/-- An element that opens a group is read with the elements its group takes. -/
theorem parse_open {head : α} {taken : Nat} (opens : count head = some taken) (start : Nat)
    (rest : List α) :
    parse count filling start (head :: rest) =
      { parse count filling (start + 1 + taken) (rest.drop taken) with
        groups := (head :: following filling taken rest) ::
          (parse count filling (start + 1 + taken) (rest.drop taken)).groups } := by
  rw [parse, opens]

/-- A group takes as many elements as it should. -/
theorem length_following (taken : Nat) (rest : List α) :
    (following filling taken rest).length = taken := by
  simp only [following, List.length_append, List.length_take, List.length_replicate]
  omega

/-- A group is complete, with some filling if it reaches past the end, or the list goes on. -/
theorem following_append (taken : Nat) (rest : List α) :
    following filling taken rest ++ rest.drop taken =
      rest ++ List.replicate (taken - rest.length) filling := by
  rcases Nat.le_total taken rest.length with inside | past
  · have whole : taken - rest.length = 0 := by omega
    simp [following, whole]
  · simp [following, List.take_of_length_le past, List.drop_of_length_le past]

/-- A group starts with an element that opens it, and has its length. -/
theorem mem_groups (start : Nat) (list : List α) :
    ∀ group ∈ (parse count filling start list).groups, ∃ head taken, count head = some taken ∧
      group.head? = some head ∧ group.length = 1 + taken := by
  fun_induction parse count filling start list with
  | case1 => exact nofun
  | case2 start head rest other parsed ih => exact ih
  | case3 start head rest taken opens parsed ih =>
    rw [List.forall_mem_cons]
    refine ⟨⟨head, taken, opens, rfl, ?_⟩, ih⟩
    rw [List.length_cons, length_following, Nat.add_comm]

/-- If nothing is skipped, the groups put together are the list and the filling of the last
group. -/
theorem flatten_groups (start : Nat) (list : List α) :
    (parse count filling start list).skipped = [] →
      ∃ missing, (parse count filling start list).groups.flatten =
          list ++ List.replicate missing filling ∧
        (∀ last, (parse count filling start list).groups.getLast? = some last →
          missing < last.length) ∧
        ((parse count filling start list).groups = [] → missing = 0) := by
  fun_induction parse count filling start list with
  | case1 => exact fun _ => ⟨0, rfl, nofun, fun _ => rfl⟩
  | case2 start head rest other parsed ih => exact nofun
  | case3 start head rest taken opens parsed ih =>
    intro complete
    obtain ⟨missing, flat, last, whole⟩ := ih complete
    have length := length_following filling taken rest
    refine ⟨taken - rest.length + missing, ?_, ?_, nofun⟩
    · calc (head :: following filling taken rest) ++ parsed.groups.flatten
          = head :: (following filling taken rest ++ rest.drop taken) ++
              List.replicate missing filling := by simp [parsed, flat]
        _ = head :: rest ++ List.replicate (taken - rest.length + missing) filling := by
          rw [following_append]
          simp
    · intro group final
      change ((head :: following filling taken rest) :: parsed.groups).getLast? =
        some group at final
      cases later : parsed.groups with
      | nil =>
        -- The group is the last one, and only its own filling is missing.
        have unfilled := whole later
        rw [later, List.getLast?_singleton, Option.some.injEq] at final
        rw [← final, List.length_cons, length]
        omega
      | cons next others =>
        -- The list goes on after the group, so the group has no filling.
        have inside : taken < rest.length := by
          by_contra past
          have ended : rest.drop taken = [] := List.drop_of_length_le (by omega)
          simp [parsed, ended, parse] at later
        rw [List.getLast?_cons_of_ne_nil (by simp [later])] at final
        have short := last group final
        omega

end Groups
