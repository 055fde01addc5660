import Mathlib.Data.List.Perm.Basic
import Mathlib.Data.List.ReduceOption

/-!
# Objects on the heap

Objects are numbered in the order in which they are created.  `Owned` says of a list of pointers
that each object that is left has exactly one of them, so that following one of them is safe and
deleting it loses no object.
-/

/-- A pointer to an object, where `none` is the null pointer. -/
abbrev Pointer := Option Nat

/-- The objects that were created and those of them that were deleted. -/
structure Heap where
  /-- Number of the next object. -/
  next : Nat
  /-- The objects that were deleted, oldest first. -/
  deleted : List Nat

namespace Heap

/-- The heap before the first object. -/
def empty : Heap := ⟨0, []⟩

/-- The pointer may be followed. -/
def Live (heap : Heap) (pointer : Pointer) : Prop :=
  ∃ object ∈ pointer, object < heap.next ∧ object ∉ heap.deleted

instance (heap : Heap) (pointer : Pointer) : Decidable (heap.Live pointer) :=
  inferInstanceAs (Decidable (∃ _ ∈ _, _))

/-- The heap after the creation of an object, which gets the number of the next one. -/
def new (heap : Heap) : Heap := { heap with next := heap.next + 1 }

/-- `delete`, which does nothing with the null pointer and is undefined for an object that does not
exist. -/
def delete (heap : Heap) : Pointer → Option Heap
  | none => some heap
  | some object =>
      if heap.Live (some object) then
        some { heap with deleted := heap.deleted ++ [object] }
      else
        none

/-- What a call does that deletes an object that exists and does nothing otherwise. -/
def release (heap : Heap) (pointer : Pointer) : Heap := (heap.delete pointer).getD heap

/-- Every object has been deleted exactly once. -/
def Clean (heap : Heap) : Prop := heap.deleted.Perm (List.range heap.next)

/-- Every object has been deleted exactly once or is the object of exactly one of the pointers. -/
def Owned (heap : Heap) (pointers : List Pointer) : Prop :=
  (heap.deleted ++ pointers.reduceOption).Perm (List.range heap.next)

instance (heap : Heap) : Decidable heap.Clean := inferInstanceAs (Decidable (List.Perm _ _))

instance (heap : Heap) (pointers : List Pointer) : Decidable (heap.Owned pointers) :=
  inferInstanceAs (Decidable (List.Perm _ _))

variable {heap : Heap} {pointer : Pointer} {pointers : List Pointer}

theorem Owned.empty (count : Nat) : Heap.empty.Owned (List.replicate count none) := by
  simp [Owned, Heap.empty, List.reduceOption]

theorem Owned.perm {others : List Pointer} (owned : heap.Owned pointers)
    (same : pointers.Perm others) : heap.Owned others :=
  ((same.symm.filterMap id).append_left heap.deleted).trans owned

theorem Owned.live (owned : heap.Owned pointers) (member : pointer ∈ pointers)
    (nonnull : pointer ≠ none) : heap.Live pointer := by
  obtain ⟨object, rfl⟩ := Option.ne_none_iff_exists'.mp nonnull
  have held : object ∈ pointers.reduceOption := List.reduceOption_mem_iff.mpr member
  have distinct : (heap.deleted ++ pointers.reduceOption).Nodup :=
    owned.symm.nodup List.nodup_range
  refine ⟨object, rfl, ?_, fun deleted => ?_⟩
  · exact List.mem_range.mp (owned.subset (List.mem_append_right _ held))
  · exact (List.nodup_append.mp distinct).2.2 object deleted object held rfl

theorem Owned.new (owned : heap.Owned (none :: pointers)) :
    heap.new.Owned (some heap.next :: pointers) := by
  have moved : (heap.deleted ++ heap.next :: pointers.reduceOption).Perm
      (heap.next :: (heap.deleted ++ pointers.reduceOption)) := List.perm_middle
  refine moved.trans ?_
  rw [Heap.new, List.range_succ]
  exact (owned.cons heap.next).trans (List.perm_append_singleton _ _).symm

/-- It does not matter where in the list the null pointer stands. -/
theorem Owned.new_at (front : List Pointer) (owned : heap.Owned (front ++ none :: pointers)) :
    heap.new.Owned (front ++ some heap.next :: pointers) :=
  (owned.perm List.perm_middle).new.perm List.perm_middle.symm

theorem Owned.delete (owned : heap.Owned (pointer :: pointers)) :
    ∃ after, heap.delete pointer = some after ∧ after.Owned (none :: pointers) := by
  cases pointer with
  | none => exact ⟨heap, rfl, owned⟩
  | some object =>
      have live := owned.live List.mem_cons_self (Option.some_ne_none object)
      refine ⟨_, if_pos live, ?_⟩
      have moved : (heap.deleted ++ [object] ++ pointers.reduceOption).Perm
          (heap.deleted ++ object :: pointers.reduceOption) := by simp
      exact moved.trans owned

theorem Owned.delete_at (front : List Pointer)
    (owned : heap.Owned (front ++ pointer :: pointers)) :
    ∃ after, heap.delete pointer = some after ∧ after.Owned (front ++ none :: pointers) := by
  obtain ⟨after, deleted, owned⟩ := (owned.perm List.perm_middle).delete
  exact ⟨after, deleted, owned.perm List.perm_middle.symm⟩

theorem Owned.release (owned : heap.Owned (pointer :: pointers)) :
    (heap.release pointer).Owned (none :: pointers) := by
  obtain ⟨after, deleted, owned⟩ := owned.delete
  rw [Heap.release, deleted]
  exact owned

/-- A pointer to an object that was deleted may not be followed. -/
theorem not_live_release (live : heap.Live pointer) : ¬(heap.release pointer).Live pointer := by
  obtain ⟨object, rfl, bound, present⟩ := live
  have deleted : heap.release (some object) =
      { heap with deleted := heap.deleted ++ [object] } := by
    have live : heap.Live (some object) := ⟨object, rfl, bound, present⟩
    simp [Heap.release, delete, live]
  rw [deleted]
  rintro ⟨_, ⟨⟩, -, present⟩
  exact present (List.mem_append_right _ (List.mem_singleton_self object))

theorem Owned.clean (owned : heap.Owned pointers) (null : ∀ pointer ∈ pointers, pointer = none) :
    heap.Clean := by
  have nothing : pointers.reduceOption = [] :=
    List.filterMap_eq_nil_iff.mpr null
  rw [Owned, nothing, List.append_nil] at owned
  exact owned

/-- Only objects that were created have been deleted. -/
def Sound (heap : Heap) : Prop := ∀ object ∈ heap.deleted, object < heap.next

theorem Sound.empty : Heap.empty.Sound := fun _ member => absurd member List.not_mem_nil

theorem Sound.new (sound : heap.Sound) : heap.new.Sound :=
  fun object member => Nat.lt_succ_of_lt (sound object member)

theorem Sound.release (sound : heap.Sound) (pointer : Pointer) : (heap.release pointer).Sound := by
  cases pointer with
  | none => exact sound
  | some object =>
      rw [Heap.release, delete]
      split
      · rename_i live
        obtain ⟨_, ⟨⟩, bound, -⟩ := live
        intro other member
        rcases List.mem_append.mp member with before | last
        · exact sound other before
        · exact List.mem_singleton.mp last ▸ bound
      · exact sound

/-- A pointer to a new object may be followed. -/
theorem Sound.live_new (sound : heap.Sound) : heap.new.Live (some heap.next) :=
  ⟨heap.next, rfl, Nat.lt_succ_self _, fun member => Nat.lt_irrefl _ (sound _ member)⟩

end Heap
