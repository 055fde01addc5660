import Mathlib.Algebra.Order.Floor.Ring
import Mathlib.Algebra.Order.Group.Unbundled.Abs
import Mathlib.Logic.Function.Iterate
import Mathlib.Tactic.Linarith

/-!
# Strides of one length

Someone walks to a point in strides of one length, and stops only when a point within reach of it
is met at the end of a stride.  `arrives_iff` says from which distances the walk ends: what the
strides leave of the distance decides.
-/

namespace Stride

variable {K : Type*} [Field K] [LinearOrder K]

/-- The distance after a stride, which may lead past the point. -/
def next (reach stride distance : K) : K :=
  if reach < distance then |distance - stride| else distance

/-- The walk ends within reach of the point. -/
def Arrives (reach stride distance : K) : Prop :=
  ∃ strides, (next reach stride)^[strides] distance ≤ reach

variable {reach stride distance : K}

theorem next_of_le (near : distance ≤ reach) : next reach stride distance = distance :=
  if_neg (not_lt.mpr near)

theorem next_of_lt (far : reach < distance) : next reach stride distance = |distance - stride| :=
  if_pos far

theorem iterate_next_of_le (near : distance ≤ reach) (strides : ℕ) :
    (next reach stride)^[strides] distance = distance :=
  Function.iterate_fixed (next_of_le near) strides

theorem iterate_next_le_of_le {strides more : ℕ} (order : strides ≤ more)
    (near : (next reach stride)^[strides] distance ≤ reach) :
    (next reach stride)^[more] distance ≤ reach := by
  obtain ⟨rest, rfl⟩ := Nat.exists_eq_add_of_le order
  rw [Nat.add_comm, Function.iterate_add_apply, iterate_next_of_le near]
  exact near

theorem arrives_iff_next (far : reach < distance) :
    Arrives reach stride distance ↔ Arrives reach stride |distance - stride| := by
  rw [← next_of_lt far]
  constructor
  · rintro ⟨strides, near⟩
    cases strides with
    | zero => exact absurd near (not_le.mpr far)
    | succ strides => exact ⟨strides, by rwa [Function.iterate_succ_apply] at near⟩
  · rintro ⟨strides, near⟩
    exact ⟨strides + 1, by rwa [Function.iterate_succ_apply]⟩

variable [IsStrictOrderedRing K]

/-- A distance that is shorter than a stride is walked to and fro, unless one of the two ends is
within reach. -/
theorem arrives_of_lt_iff (nonneg : 0 ≤ distance) (short : distance < stride) :
    Arrives reach stride distance ↔ distance ≤ reach ∨ stride - distance ≤ reach := by
  constructor
  · contrapose!
    rintro ⟨far, farther⟩ ⟨strides, near⟩
    have ends : (next reach stride)^[strides] distance = distance ∨
        (next reach stride)^[strides] distance = stride - distance := by
      clear near
      induction strides with
      | zero => exact .inl rfl
      | succ strides ih =>
          rw [Function.iterate_succ_apply']
          rcases ih with here | there
          · right
            rw [here, next_of_lt far, abs_sub_comm, abs_of_pos (sub_pos.mpr short)]
          · left
            rw [there, next_of_lt farther, sub_sub_cancel_left, abs_neg, abs_of_nonneg nonneg]
    rcases ends with here | there
    · rw [here] at near
      exact absurd near (not_le.mpr far)
    · rw [there] at near
      exact absurd near (not_le.mpr farther)
  · intro either
    by_cases far : reach < distance
    · rw [arrives_iff_next far, abs_sub_comm, abs_of_pos (sub_pos.mpr short)]
      rcases either with near | near
      · exact absurd near (not_le.mpr far)
      · exact ⟨0, near⟩
    · exact ⟨0, not_lt.mp far⟩

section Rest

variable [FloorRing K]

/-- What strides leave of a distance. -/
def rest (stride distance : K) : K := Int.fract (distance / stride) * stride

variable (positive : 0 < stride)

include positive

theorem rest_lt (distance : K) : rest stride distance < stride := by
  have below := mul_lt_mul_of_pos_right (Int.fract_lt_one (distance / stride)) positive
  rwa [one_mul] at below

theorem rest_of_lt (nonneg : 0 ≤ distance) (short : distance < stride) :
    rest stride distance = distance := by
  have part : Int.fract (distance / stride) = distance / stride :=
    Int.fract_eq_self.mpr ⟨div_nonneg nonneg positive.le, (div_lt_one positive).mpr short⟩
  rw [rest, part, div_mul_cancel₀ distance positive.ne']

theorem rest_sub (distance : K) : rest stride (distance - stride) = rest stride distance := by
  rw [rest, rest, sub_div, div_self positive.ne', Int.fract_sub_one]

/-- A walk ends exactly if what the strides leave of the distance, or what it lacks to one more
stride, is within reach. -/
theorem arrives_iff (nonneg : 0 ≤ distance) :
    Arrives reach stride distance ↔
      rest stride distance ≤ reach ∨ stride - rest stride distance ≤ reach := by
  obtain ⟨count, bound⟩ : ∃ count : ℕ, distance < (count + 1) * stride := by
    refine ⟨⌊distance / stride⌋.toNat, ?_⟩
    have floor : 0 ≤ ⌊distance / stride⌋ := Int.floor_nonneg.mpr (div_nonneg nonneg positive.le)
    have above := Int.lt_floor_add_one (distance / stride)
    have cast : ((⌊distance / stride⌋.toNat : ℕ) : K) = ((⌊distance / stride⌋ : ℤ) : K) := by
      exact_mod_cast congrArg (Int.cast : ℤ → K) (Int.toNat_of_nonneg floor)
    rw [cast]
    exact (div_lt_iff₀ positive).mp above
  induction count generalizing distance with
  | zero =>
      have short : distance < stride := by simpa using bound
      rw [rest_of_lt positive nonneg short]
      exact arrives_of_lt_iff nonneg short
  | succ count ih =>
      by_cases short : distance < stride
      · rw [rest_of_lt positive nonneg short]
        exact arrives_of_lt_iff nonneg short
      · have long : 0 ≤ distance - stride := sub_nonneg.mpr (not_lt.mp short)
        by_cases far : reach < distance
        · rw [arrives_iff_next far, abs_of_nonneg long, ← rest_sub positive distance]
          refine ih long ?_
          push_cast at bound ⊢
          linarith
        · -- a stride is within reach, and what strides leave is shorter
          have near := not_lt.mp far
          refine iff_of_true ⟨0, near⟩ (.inl ?_)
          exact (rest_lt positive distance).le.trans ((not_lt.mp short).trans near)

end Rest

end Stride
