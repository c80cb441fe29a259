import Mathlib.Algebra.BigOperators.Group.Finset.Basic
import Rjr.Lib.Heap

/-!
# Totals over a heap

A number for each object, summed over all objects that were allocated. A write to one object
exchanges its summand, and an allocation adds one.
-/

namespace Heap

variable {α : Type} (weight : α → Nat) (heap : Heap α)

/-- The sum of a number for each object. -/
def total : Nat := ∑ ref ∈ Finset.range heap.next, weight (heap.read ref)

/-- A write exchanges the summand of the object. -/
theorem total_write {ref : Nat} (known : ref < heap.next) (contents : α) :
    total weight (heap.write ref contents) + weight (heap.read ref) =
      total weight heap + weight contents := by
  have inside : ref ∈ Finset.range heap.next := Finset.mem_range.mpr known
  have others : ∑ other ∈ (Finset.range heap.next).erase ref,
      weight ((heap.write ref contents).read other) =
        ∑ other ∈ (Finset.range heap.next).erase ref, weight (heap.read other) := by
    refine Finset.sum_congr rfl fun other member => ?_
    rw [read_write, if_neg (Finset.ne_of_mem_erase member)]
  have after := Finset.add_sum_erase _ (fun other => weight ((heap.write ref contents).read other))
    inside
  have before := Finset.add_sum_erase _ (fun other => weight (heap.read other)) inside
  change ∑ other ∈ Finset.range heap.next, weight ((heap.write ref contents).read other) + _ =
    ∑ other ∈ Finset.range heap.next, weight (heap.read other) + _
  rw [← after, ← before, others, read_write_same]
  omega

/-- An allocation adds the summand of the new object. -/
theorem total_alloc (contents : α) :
    total weight (heap.alloc contents).2 = total weight heap + weight contents := by
  have others : ∑ ref ∈ Finset.range heap.next, weight ((heap.alloc contents).2.read ref) =
      ∑ ref ∈ Finset.range heap.next, weight (heap.read ref) := by
    refine Finset.sum_congr rfl fun ref member => ?_
    rw [read_alloc_eq, if_neg (Nat.ne_of_lt (Finset.mem_range.mp member))]
  have split := Finset.sum_range_succ (fun ref => weight ((heap.alloc contents).2.read ref))
    heap.next
  rw [others, read_alloc_eq, if_pos rfl] at split
  exact split

end Heap
