import Mathlib.Data.List.Forall2

/-!
# Readings of something that changes

A value is asked for at one moment and shown at a later one.  Readings are linear if each of them
has the value of one moment in between, and these moments follow one another.
-/

/-- A value that was read, and when. -/
structure Reading (α : Type*) where
  asked : Nat
  shown : Nat
  value : α

/-- The reading has the value of this moment. -/
structure Reading.At {α : Type*} (past : List α) (moment : Nat) (reading : Reading α) : Prop where
  asked : reading.asked ≤ moment
  shown : moment < reading.shown
  value : past[moment]? = some reading.value

/-- The readings have the values of these moments, one after the other. -/
structure Linear {α : Type*} (past : List α) (moments : List Nat) (readings : List (Reading α)) :
    Prop where
  values : List.Forall₂ (Reading.At past) moments readings
  ordered : moments.Pairwise (· < ·)
  bounded : ∀ moment ∈ moments, moment < past.length

namespace Linear

variable {α : Type*} {past : List α} {moments : List Nat} {readings : List (Reading α)}

theorem nil (past : List α) : Linear past [] [] := ⟨.nil, .nil, by simp⟩

theorem getElem?_concat {moment : Nat} {value : α} (found : past[moment]? = some value)
    (next : α) : (past ++ [next])[moment]? = some value := by
  obtain ⟨within, -⟩ := List.getElem?_eq_some_iff.mp found
  rw [List.getElem?_append_left within, found]

theorem pass (linear : Linear past moments readings) (next : α) :
    Linear (past ++ [next]) moments readings where
  values := linear.values.imp fun _ _ at_moment =>
    ⟨at_moment.asked, at_moment.shown, getElem?_concat at_moment.value next⟩
  ordered := linear.ordered
  bounded moment member := by
    rw [List.length_append]
    exact Nat.lt_add_right _ (linear.bounded moment member)

theorem read (linear : Linear past moments readings) {asked moment : Nat} {value : α}
    (later : asked ≤ moment) (found : past[moment]? = some value)
    (last : ∀ earlier ∈ moments, earlier < moment) :
    Linear past (moments ++ [moment]) (readings ++ [⟨asked, past.length, value⟩]) := by
  obtain ⟨within, -⟩ := List.getElem?_eq_some_iff.mp found
  refine ⟨?_, ?_, fun other member => ?_⟩
  · exact List.rel_append linear.values (.cons ⟨later, within, found⟩ .nil)
  · refine List.pairwise_append.mpr ⟨linear.ordered, List.pairwise_singleton _ _, ?_⟩
    intro earlier member other same
    rw [List.mem_singleton.mp same]
    exact last earlier member
  · rcases List.mem_append.mp member with member | same
    · exact linear.bounded other member
    · exact List.mem_singleton.mp same ▸ within

end Linear
