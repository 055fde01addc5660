import Mathlib.Data.Multiset.Count
import Mathlib.Logic.Function.Basic

/-!
# Shared pointers

`SharedApi` is what shared pointers offer, and `SharedApi.Shares` what they are documented to do:
the last pointer that goes deletes what they share.  `Shared` are cells that count the pointers to
them; `Counted` says of the multiset of all pointers that the counts count them.
-/

/-- Pointers that share what they point to. -/
structure SharedApi (α : Type) where
  Memory : Type
  /-- What a pointer contains; a copy of it contains the same. -/
  Pointer : Type
  empty : Memory
  /-- The first pointer to a value. -/
  new (memory : Memory) (value : α) : Pointer × Memory
  /-- One more pointer to what a pointer points to. -/
  copy (memory : Memory) (pointer : Pointer) : Memory
  /-- One pointer less, and what is deleted with it. -/
  release (memory : Memory) (pointer : Pointer) : Option α × Memory
  /-- A pointer that contained `old` contains `pointer` from now on; what is deleted by that. -/
  assign (memory : Memory) (pointer old : Pointer) : Option α × Memory
  /-- What a pointer points to. -/
  get (memory : Memory) (pointer : Pointer) : Option α

/-- What is documented about shared pointers, where `counted` says of a memory and a multiset that
these are all the pointers there are. -/
structure SharedApi.Shares {α : Type} (api : SharedApi α)
    (counted : api.Memory → Multiset api.Pointer → Prop) : Prop where
  empty : counted api.empty 0
  filled {memory pointers pointer} : counted memory pointers → pointer ∈ pointers →
    api.get memory pointer ≠ none
  new {memory pointers} (value : α) : counted memory pointers →
    counted (api.new memory value).2 ((api.new memory value).1 ::ₘ pointers)
  new_notMem {memory pointers} (value : α) : counted memory pointers →
    (api.new memory value).1 ∉ pointers
  get_new {memory pointers} (value : α) : counted memory pointers →
    api.get (api.new memory value).2 (api.new memory value).1 = some value
  get_new_of_mem {memory pointers other} (value : α) : counted memory pointers →
    other ∈ pointers → api.get (api.new memory value).2 other = api.get memory other
  copy {memory pointers pointer} : counted memory pointers → pointer ∈ pointers →
    counted (api.copy memory pointer) (pointer ::ₘ pointers)
  get_copy {memory pointers pointer other} : counted memory pointers → pointer ∈ pointers →
    other ∈ pointers → api.get (api.copy memory pointer) other = api.get memory other
  release {memory pointers pointer} : counted memory (pointer ::ₘ pointers) →
    counted (api.release memory pointer).2 pointers
  get_release {memory pointers pointer other} : counted memory (pointer ::ₘ pointers) →
    other ∈ pointers → api.get (api.release memory pointer).2 other = api.get memory other
  /-- The last pointer deletes what it points to. -/
  deletes {memory pointers pointer} : counted memory (pointer ::ₘ pointers) →
    pointer ∉ pointers → (api.release memory pointer).1 = api.get memory pointer
  keeps {memory pointers pointer} : counted memory (pointer ::ₘ pointers) → pointer ∈ pointers →
    (api.release memory pointer).1 = none
  assign {memory pointers pointer old} : counted memory pointers → pointer ∈ pointers →
    old ∈ pointers → api.assign memory pointer old = api.release (api.copy memory pointer) old

/-- Cells that are numbered in the order in which they are created. -/
structure Shared (α : Type*) where
  /-- What is in a cell that has not been deleted. -/
  cell : Nat → Option α
  useCount : Nat → Nat
  /-- Number of the next cell. -/
  next : Nat

namespace Shared

variable {α : Type*}

/-- There are no cells yet. -/
def empty : Shared α := ⟨fun _ => none, fun _ => 0, 0⟩

/-- A new cell, with the first pointer to it. -/
def new (shared : Shared α) (value : α) : Shared α where
  cell := Function.update shared.cell shared.next (some value)
  useCount := Function.update shared.useCount shared.next 1
  next := shared.next + 1

/-- One more pointer to a cell. -/
def copy (shared : Shared α) (number : Nat) : Shared α :=
  { shared with
    useCount := Function.update shared.useCount number (shared.useCount number + 1) }

/-- One pointer less to a cell, and what was in it if that was the last one. -/
def release (shared : Shared α) (number : Nat) : Option α × Shared α :=
  let count := shared.useCount number - 1
  let left := { shared with useCount := Function.update shared.useCount number count }
  if count = 0 then
    (shared.cell number, { left with cell := Function.update shared.cell number none })
  else
    (none, left)

/-- The use counts count the pointers, and the cells that they point to have not been deleted. -/
structure Counted (shared : Shared α) (pointers : Multiset Nat) : Prop where
  count : ∀ number, shared.useCount number = pointers.count number
  filled : ∀ number, shared.cell number ≠ none ↔ number ∈ pointers
  bounded : ∀ number ∈ pointers, number < shared.next

variable {shared : Shared α} {pointers : Multiset Nat} {number : Nat}

theorem Counted.empty : (empty : Shared α).Counted 0 where
  count _ := rfl
  filled number := iff_of_false (fun filled => filled rfl) (Multiset.notMem_zero number)
  bounded number member := absurd member (Multiset.notMem_zero number)

theorem Counted.next_notMem (counted : shared.Counted pointers) : shared.next ∉ pointers :=
  fun member => Nat.lt_irrefl _ (counted.bounded _ member)

theorem cell_new_next (shared : Shared α) (value : α) :
    (shared.new value).cell shared.next = some value := Function.update_self ..

theorem cell_new_of_ne {other : Nat} (different : other ≠ shared.next) (value : α) :
    (shared.new value).cell other = shared.cell other := Function.update_of_ne different ..

theorem Counted.new (counted : shared.Counted pointers) (value : α) :
    (shared.new value).Counted (shared.next ::ₘ pointers) where
  count number := by
    rcases eq_or_ne number shared.next with rfl | other
    · rw [Multiset.count_cons_self, Multiset.count_eq_zero_of_notMem counted.next_notMem]
      exact Function.update_self ..
    · rw [Multiset.count_cons_of_ne other, ← counted.count]
      exact Function.update_of_ne other ..
  filled number := by
    rcases eq_or_ne number shared.next with rfl | other
    · simp [cell_new_next]
    · simp [cell_new_of_ne other, other, counted.filled]
  bounded number member := by
    rcases Multiset.mem_cons.mp member with rfl | member
    · exact Nat.lt_succ_self _
    · exact Nat.lt_succ_of_lt (counted.bounded number member)

theorem Counted.copy (counted : shared.Counted pointers) (member : number ∈ pointers) :
    (shared.copy number).Counted (number ::ₘ pointers) where
  count other := by
    rcases eq_or_ne other number with rfl | different
    · rw [Multiset.count_cons_self, ← counted.count]
      exact Function.update_self ..
    · rw [Multiset.count_cons_of_ne different, ← counted.count]
      exact Function.update_of_ne different ..
  filled other := by
    rw [Multiset.mem_cons, ← counted.filled]
    refine (or_iff_right_of_imp ?_).symm
    rintro rfl
    exact (counted.filled other).mpr member
  bounded other held := by
    rcases Multiset.mem_cons.mp held with rfl | held
    · exact counted.bounded other member
    · exact counted.bounded other held

theorem Counted.release_eq (counted : shared.Counted (number ::ₘ pointers)) :
    shared.release number =
      if number ∈ pointers then
        (none, { shared with
          useCount := Function.update shared.useCount number (pointers.count number) })
      else
        (shared.cell number,
          { shared with
            useCount := Function.update shared.useCount number (pointers.count number)
            cell := Function.update shared.cell number none }) := by
  have left : shared.useCount number - 1 = pointers.count number := by
    rw [counted.count, Multiset.count_cons_self, Nat.add_sub_cancel]
  rw [release, left]
  by_cases member : number ∈ pointers
  · rw [if_pos member, if_neg (Multiset.count_ne_zero.mpr member)]
  · rw [if_neg member, if_pos (Multiset.count_eq_zero_of_notMem member)]

theorem Counted.release (counted : shared.Counted (number ::ₘ pointers)) :
    (shared.release number).2.Counted pointers := by
  have count (other : Nat) :
      Function.update shared.useCount number (pointers.count number) other =
        pointers.count other := by
    rcases eq_or_ne other number with rfl | different
    · exact Function.update_self ..
    · rw [Function.update_of_ne different, counted.count, Multiset.count_cons_of_ne different]
  have bounded (other : Nat) (held : other ∈ pointers) : other < shared.next :=
    counted.bounded other (Multiset.mem_cons_of_mem held)
  rw [counted.release_eq]
  by_cases member : number ∈ pointers
  · rw [if_pos member]
    refine ⟨count, fun other => ?_, bounded⟩
    rw [counted.filled, Multiset.mem_cons]
    exact or_iff_right_of_imp fun same => same ▸ member
  · rw [if_neg member]
    refine ⟨count, fun other => ?_, bounded⟩
    rcases eq_or_ne other number with rfl | different
    · simp [member]
    · simp [different, counted.filled]

theorem Counted.cell_release (counted : shared.Counted (number ::ₘ pointers)) {other : Nat}
    (member : other ∈ pointers) : (shared.release number).2.cell other = shared.cell other := by
  rw [counted.release_eq]
  by_cases left : number ∈ pointers
  · rw [if_pos left]
  · rw [if_neg left]
    have different : other ≠ number := fun same => left (same ▸ member)
    exact Function.update_of_ne different ..

theorem Counted.release_last (counted : shared.Counted (number ::ₘ pointers))
    (last : number ∉ pointers) : (shared.release number).1 = shared.cell number := by
  rw [counted.release_eq, if_neg last]

theorem Counted.release_shared (counted : shared.Counted (number ::ₘ pointers))
    (member : number ∈ pointers) : (shared.release number).1 = none := by
  rw [counted.release_eq, if_pos member]

/-- Cells, as shared pointers. -/
def api (α : Type) : SharedApi α where
  Memory := Shared α
  Pointer := Nat
  empty := empty
  new shared value := (shared.next, shared.new value)
  copy := copy
  release := release
  assign shared number old := (shared.copy number).release old
  get := cell

theorem shares (α : Type) : (api α).Shares Counted where
  empty := .empty
  filled counted member := (counted.filled _).mpr member
  new value counted := counted.new value
  new_notMem _ counted := counted.next_notMem
  get_new value _ := cell_new_next _ value
  get_new_of_mem value counted member :=
    cell_new_of_ne (fun same => counted.next_notMem (same ▸ member)) value
  copy counted member := counted.copy member
  get_copy _ _ _ := rfl
  release counted := counted.release
  get_release counted member := counted.cell_release member
  deletes counted last := counted.release_last last
  keeps counted member := counted.release_shared member
  assign _ _ _ := rfl

end Shared
