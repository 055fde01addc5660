import Mathlib.Algebra.Ring.Nat

/-!
# Loops over arrays of C

`scan` is a loop that collects entries of an array.  It is given the length by its caller, and it
leaves the array if this is too great.
-/

namespace CncRemote

/-- What a loop over an array collects, and where it reads. -/
structure Scan (α : Type*) where
  kept : List α
  reads : List Nat

variable {α : Type*} (keep : α → Bool) (memory : Nat → α) (array : Nat)

/-- The first rounds of a loop that collects the entries of an array that pass a test. -/
def scan : Nat → Scan α
  | 0 => ⟨[], []⟩
  | ct + 1 =>
      let before := scan ct
      let entry := memory (array + ct)
      { kept := if keep entry then before.kept ++ [entry] else before.kept
        reads := before.reads ++ [array + ct] }

theorem reads_scan (length : Nat) :
    (scan keep memory array length).reads = (List.range length).map (array + ·) := by
  induction length with
  | zero => rfl
  | succ ct ih =>
      rw [List.range_succ, List.map_append, ← ih]
      rfl

/-- The loop filters what it reads. -/
theorem kept_scan (length : Nat) :
    (scan keep memory array length).kept =
      ((List.range length).map fun ct => memory (array + ct)).filter keep := by
  induction length with
  | zero => rfl
  | succ ct ih =>
      rw [List.range_succ, List.map_append, List.filter_append, ← ih]
      by_cases passes : keep (memory (array + ct)) <;> simp [scan, passes]

/-- The loop stays in an array exactly if it is not longer. -/
theorem reads_scan_iff (length count : Nat) :
    (∀ index ∈ (scan keep memory array length).reads, array ≤ index ∧ index < array + count) ↔
      length ≤ count := by
  rw [reads_scan]
  constructor
  · intro inside
    by_contra longer
    have last := inside (array + count) (List.mem_map_of_mem (List.mem_range.mpr (by omega)))
    omega
  · intro bound index read
    obtain ⟨ct, within, rfl⟩ := List.mem_map.mp read
    have within := List.mem_range.mp within
    omega

end CncRemote
