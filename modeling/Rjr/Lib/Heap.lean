/-!
# Objects with identity

A heap maps references to the current contents of mutable objects. Two holders of one reference
see each other's writes; a fresh reference is shared with nobody. Every reference can be read, so
no operation fails; references at or above `next` have not been handed out.
-/

/-- The current contents of every object. -/
structure Heap (α : Type) where
  /-- The contents of each reference. -/
  cells : Nat → α
  /-- The next fresh reference. -/
  next : Nat

namespace Heap

variable {α : Type}

/-- The contents of an object. -/
def read (heap : Heap α) (ref : Nat) : α := heap.cells ref

/-- Replace the contents of an object, for all its holders. -/
def write (heap : Heap α) (ref : Nat) (contents : α) : Heap α :=
  { heap with cells := fun other => if other = ref then contents else heap.cells other }

/-- A fresh object with the given contents. -/
def alloc (heap : Heap α) (contents : α) : Nat × Heap α :=
  (heap.next, { heap.write heap.next contents with next := heap.next + 1 })

/-- A heap in which nothing has been allocated. -/
def new (blank : α) : Heap α := ⟨fun _ => blank, 0⟩

/-- A write is seen through the reference it was made through. -/
@[simp]
theorem read_write_same (heap : Heap α) (ref : Nat) (contents : α) :
    (heap.write ref contents).read ref = contents := by
  simp [read, write]

/-- What is read after a write. -/
theorem read_write (heap : Heap α) (ref other : Nat) (contents : α) :
    (heap.write ref contents).read other = if other = ref then contents else heap.read other := rfl

/-- A fresh object has its contents. -/
@[simp]
theorem read_alloc (heap : Heap α) (contents : α) :
    (heap.alloc contents).2.read (heap.alloc contents).1 = contents := by
  simp [alloc, read, write]

/-- What is read after an allocation. -/
theorem read_alloc_eq (heap : Heap α) (contents : α) (ref : Nat) :
    (heap.alloc contents).2.read ref = if ref = heap.next then contents else heap.read ref := rfl

end Heap
