import Mathlib.Data.List.Basic
import Mathlib.Data.List.Pairwise

/-!
# Taking one entry out of a list

A queue that is served in any order gives up the entry at some index. What is left are the
entries before it and those after it, so counts are those of the two parts. Where entries
exclude each other, at most one is counted. A queue that is served in order for each kind of entry
gives up the first of its kind. Where only the entries matter, their order may differ. What is
added stands last.
-/

namespace List

variable {α : Type} {list : List α} {index : Nat} {entry : α}

/-- The entry at an index splits the list, and without it the two parts are left. -/
theorem taken (found : list[index]? = some entry) :
    ∃ before after, list = before ++ entry :: after ∧ list.eraseIdx index = before ++ after := by
  obtain ⟨inside, same⟩ := List.getElem?_eq_some_iff.mp found
  refine ⟨list.take index, list.drop (index + 1), ?_, List.eraseIdx_eq_take_drop_succ list index⟩
  rw [← same, ← List.drop_eq_getElem_cons inside, List.take_append_drop]

/-- A list is the entry that was taken, and what is left. -/
theorem perm_taken (found : list[index]? = some entry) :
    list.Perm (entry :: list.eraseIdx index) := by
  obtain ⟨before, after, rfl, left⟩ := taken found
  rw [left]
  exact List.perm_middle

/-- An entry is taken from the first of two lists. -/
theorem perm_taken_left (found : list[index]? = some entry) (other : List α) :
    (list ++ other).Perm (entry :: (list.eraseIdx index ++ other)) :=
  (perm_taken found).append_right other

/-- An entry is taken from the second of two lists. -/
theorem perm_taken_right (other : List α) (found : list[index]? = some entry) :
    (other ++ list).Perm (entry :: (other ++ list.eraseIdx index)) :=
  ((perm_taken found).append_left other).trans List.perm_middle

/-- What is added to the first of two lists is added to both. -/
theorem perm_added_left (first second added : List α) :
    ((first ++ second) ++ added).Perm ((first ++ added) ++ second) := by
  rw [List.append_assoc, List.append_assoc]
  exact List.perm_append_comm.append_left first

/-- What is counted in a list is counted in what is left, or in the entry that was taken. -/
theorem countP_taken (counted : α → Bool) (found : list[index]? = some entry) :
    list.countP counted = (list.eraseIdx index).countP counted + [entry].countP counted := by
  obtain ⟨before, after, rfl, left⟩ := taken found
  rw [left, ← List.singleton_append, List.countP_append, List.countP_append, List.countP_append]
  omega

/-- At most one entry is counted if no two of them are. -/
theorem countP_le_one (counted : α → Bool)
    (apart : list.Pairwise fun first second => ¬ (counted first = true ∧ counted second = true)) :
    list.countP counted ≤ 1 := by
  induction list with
  | nil => exact Nat.zero_le 1
  | cons entry rest ih =>
    obtain ⟨first, others⟩ := List.pairwise_cons.mp apart
    rw [List.countP_cons]
    by_cases own : counted entry = true
    · have none : rest.countP counted = 0 := by
        rw [List.countP_eq_zero]
        intro other inside again
        exact first other inside ⟨own, again⟩
      have one : (if counted entry = true then 1 else 0) = 1 := if_pos own
      omega
    · rw [if_neg own]
      exact ih others

/-- Entries that exclude each other are alike only if they are the same. -/
theorem eq_of_pairwise {alike : α → α → Prop} (symmetric : ∀ first second, alike first second →
      alike second first) (apart : list.Pairwise fun first second => ¬ alike first second)
    {first second : α} (one : first ∈ list) (other : second ∈ list) (both : alike first second) :
    first = second := by
  by_contra differ
  have : Std.Symm fun first second => ¬ alike first second :=
    ⟨fun first second apart both => apart (symmetric second first both)⟩
  exact apart.forall one other differ both

/-- Taking an entry out leaves the others as they were. -/
theorem filter_taken (kept : α → Bool) (found : list[index]? = some entry)
    (other : kept entry = false) : (list.eraseIdx index).filter kept = list.filter kept := by
  obtain ⟨before, after, rfl, left⟩ := taken found
  rw [left, List.filter_append, List.filter_append, List.filter_cons_of_neg (by simp [other])]

/-- The first entry of a kind can be taken, and leaves the others of its kind. -/
theorem filter_first (kept : α → Bool) {rest : List α} (first : list.filter kept = entry :: rest) :
    ∃ index, list[index]? = some entry ∧ (list.eraseIdx index).filter kept = rest := by
  obtain ⟨before, after, rfl, none, own, same⟩ := List.filter_eq_cons_iff.mp first
  refine ⟨before.length, by simp, ?_⟩
  rw [List.eraseIdx_append_of_length_le (Nat.le_refl _), Nat.sub_self, List.eraseIdx_zero,
    List.tail_cons, List.filter_append, same, List.filter_eq_nil_iff.mpr none, List.nil_append]

/-- What the entries of a list give is what is left gives, and what the entry that was taken
gives. -/
theorem filterMap_taken {β : Type} (give : α → Option β) (found : list[index]? = some entry) :
    (list.filterMap give).Perm ((give entry).toList ++ (list.eraseIdx index).filterMap give) := by
  obtain ⟨before, after, rfl, left⟩ := taken found
  rw [left, List.filterMap_append, List.filterMap_append, List.filterMap_cons]
  cases give entry with
  | none => exact .refl _
  | some given => exact List.perm_middle

/-- What is taken from a list can be taken from every reordering of it. -/
theorem Perm.taken {other : List α} (perm : list.Perm other)
    (found : other[index]? = some entry) :
    ∃ place, list[place]? = some entry ∧ (list.eraseIdx place).Perm (other.eraseIdx index) := by
  have member : entry ∈ list := perm.mem_iff.mpr (List.mem_of_getElem? found)
  obtain ⟨place, here⟩ := List.mem_iff_getElem?.mp member
  refine ⟨place, here, ?_⟩
  obtain ⟨before, after, rfl, left⟩ := List.taken here
  obtain ⟨before', after', rfl, left'⟩ := List.taken found
  rw [left, left']
  exact ((List.perm_middle.symm.trans perm).trans List.perm_middle).cons_inv

/-- What a list answers after one entry was added. -/
theorem getElem?_concat_iff (list : List α) (last value : α) (index : Nat) :
    (list ++ [last])[index]? = some value ↔
      list[index]? = some value ∨ index = list.length ∧ last = value := by
  rcases Nat.lt_trichotomy index list.length with below | same | above
  · have other : index ≠ list.length := by omega
    simp [List.getElem?_append_left below, other]
  · subst same
    simp
  · have other : index ≠ list.length := by omega
    have past : list.length ≤ index := by omega
    have beyond : (list ++ [last]).length ≤ index := by simp; omega
    simp [List.getElem?_eq_none past, List.getElem?_eq_none beyond, other]

end List
