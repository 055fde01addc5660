import CncRemote.LoadFile
import Mathlib.Data.List.DropRight

/-!
# The name that a client gives to its upload

`LoadFile` cuts the hint out of the name of the file with two searches from the back and a
difference of two `size_t`.  What it is meant to be is the last component of the path without its
last extension; `hints_iff` says for which paths it is that.
-/

namespace CncRemote

/-- The part of a path after its last slash, or the whole path. -/
def lastComponent (file : Bytes) : Bytes := file.rtakeWhile (· ≠ 47)

/-- A component without its last dot and what follows it, or the whole component. -/
def withoutExtension (component : Bytes) : Bytes :=
  if 46 ∈ component then (component.rdropWhile (· ≠ 46)).dropLast else component

/-- The hint is the last component without its last extension, the difference does not wrap around,
the substring starts within the path, and the hint has no slash. -/
structure Hints (file : Bytes) : Prop where
  hint : nameHint file = withoutExtension (lastComponent file)
  unwrapped : nameSlash file + 1 ≤ nameEnd file
  within : nameSlash file + 1 ≤ file.length
  flat : 47 ∉ nameHint file

theorem nameHint_of_le {file : Bytes} (unwrapped : nameSlash file + 1 ≤ nameEnd file) :
    nameHint file =
      (file.drop (nameSlash file + 1)).take (nameEnd file - (nameSlash file + 1)) :=
  if_neg (Nat.not_lt.mpr unwrapped)

theorem lastIndexOf_of_notMem {char : UInt8} {text : Bytes} (absent : char ∉ text) :
    lastIndexOf char text = none := by
  rw [lastIndexOf, Option.map_eq_none_iff, List.findIdx?_eq_none_iff]
  intro other inside
  have differ : other ≠ char := ne_of_mem_of_not_mem (List.mem_reverse.mp inside) absent
  simpa using differ

theorem lastIndexOf_append {char : UInt8} (front : Bytes) {back : Bytes} (absent : char ∉ back) :
    lastIndexOf char (front ++ char :: back) = some front.length := by
  have found : (front ++ char :: back).reverse.findIdx? (· = char) = some back.length := by
    rw [List.findIdx?_eq_some_iff_getElem]
    refine ⟨by simp, by simp, fun index before => ?_⟩
    have short : index < back.reverse.length := by simpa using before
    have inside : back.reverse[index] ∈ back := List.mem_reverse.mp (List.getElem_mem short)
    have differ := ne_of_mem_of_not_mem inside absent
    simpa [List.getElem_append_left, before] using differ
  rw [lastIndexOf, found, Option.map_some]
  simp

theorem exists_last {char : UInt8} {text : Bytes} (inside : char ∈ text) :
    ∃ front back, text = front ++ char :: back ∧ char ∉ back := by
  obtain ⟨back, front, reversed, absent⟩ :=
    List.eq_append_cons_of_mem (List.mem_reverse.mpr inside)
  refine ⟨front.reverse, back.reverse, ?_, by simpa using absent⟩
  rw [← List.reverse_reverse text, reversed]
  simp

theorem lastComponent_append (front : Bytes) {back : Bytes} (flat : 47 ∉ back) :
    lastComponent (front ++ 47 :: back) = back := by
  have passed : ∀ char ∈ back.reverse, decide (char ≠ 47) = true := fun char inside =>
    decide_eq_true (ne_of_mem_of_not_mem (List.mem_reverse.mp inside) flat)
  rw [lastComponent, List.rtakeWhile, List.reverse_append, List.reverse_cons, List.append_assoc,
    List.takeWhile_append_of_pos passed]
  simp

theorem withoutExtension_append (stem : Bytes) {extension : Bytes} (last : 46 ∉ extension) :
    withoutExtension (stem ++ 46 :: extension) = stem := by
  have passed : ∀ char ∈ extension.reverse, decide (char ≠ 46) = true := fun char inside =>
    decide_eq_true (ne_of_mem_of_not_mem (List.mem_reverse.mp inside) last)
  rw [withoutExtension, if_pos (by simp), List.rdropWhile, List.reverse_append, List.reverse_cons,
    List.append_assoc, List.dropWhile_append_of_pos passed]
  simp

theorem withoutExtension_subset {component : Bytes} {char : UInt8}
    (inside : char ∈ withoutExtension component) : char ∈ component := by
  by_cases dotted : 46 ∈ component
  · obtain ⟨stem, extension, rfl, last⟩ := exists_last dotted
    rw [withoutExtension_append stem last] at inside
    exact List.mem_append_left _ inside
  · rwa [withoutExtension, if_neg dotted] at inside

theorem nameSlash_append (front : Bytes) {back : Bytes} (flat : 47 ∉ back) :
    nameSlash (front ++ 47 :: back) = front.length := by
  rw [nameSlash, lastIndexOf_append front flat, Option.getD_some]

/-- Where the directory ends at a slash, the end of the hint is that of the component without its
extension. -/
theorem nameEnd_append (front : Bytes) {back : Bytes} (flat : 47 ∉ back) :
    nameEnd (front ++ 47 :: back) = front.length + 1 + (withoutExtension back).length := by
  by_cases dotted : 46 ∈ back
  · obtain ⟨stem, extension, rfl, last⟩ := exists_last dotted
    have split : front ++ 47 :: (stem ++ 46 :: extension) =
        (front ++ 47 :: stem) ++ 46 :: extension := by simp
    have after : ¬front.length + (stem.length + 1) < front.length := by omega
    rw [nameEnd, nameSlash_append front flat, split, lastIndexOf_append _ last,
      withoutExtension_append stem last, List.length_append, List.length_cons]
    dsimp only
    rw [if_neg after]
    omega
  · have whole : (front ++ 47 :: back).length = front.length + 1 + back.length := by
      simp
      omega
    rw [nameEnd, nameSlash_append front flat, withoutExtension, if_neg dotted, ← whole]
    by_cases above : 46 ∈ front
    · obtain ⟨start, rest, rfl, last⟩ := exists_last above
      have split : start ++ 46 :: rest ++ 47 :: back = start ++ 46 :: (rest ++ 47 :: back) := by
        simp
      have before : start.length < (start ++ 46 :: rest).length := by simp
      have absent : 46 ∉ rest ++ 47 :: back := by simp [last, dotted]
      rw [split, lastIndexOf_append start absent]
      dsimp only
      rw [if_pos before]
    · have absent : 46 ∉ front ++ 47 :: back := by simp [above, dotted]
      rw [lastIndexOf_of_notMem absent]

theorem nameEnd_of_flat {file : Bytes} (flat : 47 ∉ file) :
    nameEnd file = (withoutExtension file).length := by
  rw [nameEnd, nameSlash, lastIndexOf_of_notMem flat]
  by_cases dotted : 46 ∈ file
  · obtain ⟨stem, extension, rfl, last⟩ := exists_last dotted
    rw [lastIndexOf_append stem last, withoutExtension_append stem last]
    exact if_neg (Nat.not_lt_zero _)
  · rw [lastIndexOf_of_notMem dotted, withoutExtension, if_neg dotted]

theorem length_withoutExtension_le (component : Bytes) :
    (withoutExtension component).length ≤ component.length := by
  by_cases dotted : 46 ∈ component
  · obtain ⟨stem, extension, rfl, last⟩ := exists_last dotted
    rw [withoutExtension_append stem last]
    simp
  · rw [withoutExtension, if_neg dotted]

theorem take_withoutExtension (component : Bytes) :
    component.take (withoutExtension component).length = withoutExtension component := by
  by_cases dotted : 46 ∈ component
  · obtain ⟨stem, extension, rfl, last⟩ := exists_last dotted
    rw [withoutExtension_append stem last, List.take_left]
  · rw [withoutExtension, if_neg dotted, List.take_length]

theorem hints_of_slash {file : Bytes} (slash : 47 ∈ file) : Hints file := by
  obtain ⟨front, back, rfl, flat⟩ := exists_last slash
  have starts := nameSlash_append front flat
  have ends := nameEnd_append front flat
  have unwrapped : nameSlash (front ++ 47 :: back) + 1 ≤ nameEnd (front ++ 47 :: back) := by
    omega
  have hint : nameHint (front ++ 47 :: back) = withoutExtension back := by
    have cut : (front ++ 47 :: back).drop (front.length + 1) = back := by simp
    rw [nameHint_of_le unwrapped, starts, ends, cut, Nat.add_sub_cancel_left,
      take_withoutExtension]
  refine ⟨by rw [hint, lastComponent_append front flat], unwrapped, ?_, ?_⟩
  · rw [starts]
    simp
  · rw [hint]
    exact fun inside => flat (withoutExtension_subset inside)

/-- Without one the first character is lost, or the difference wraps around. -/
theorem not_hints_of_flat {file : Bytes} (nonempty : file ≠ []) (flat : 47 ∉ file) :
    ¬Hints file := by
  rintro ⟨hint, unwrapped, -, -⟩
  have starts : nameSlash file = 0 := by rw [nameSlash, lastIndexOf_of_notMem flat]; rfl
  have whole : lastComponent file = file :=
    List.rtakeWhile_eq_self_iff.mpr fun char inside =>
      decide_eq_true (ne_of_mem_of_not_mem inside flat)
  have short := length_withoutExtension_le file
  have positive : 0 < file.length := List.length_pos_iff.mpr nonempty
  have lengths := congrArg List.length hint
  rw [nameHint_of_le unwrapped, starts, nameEnd_of_flat flat, whole, List.length_take,
    List.length_drop] at lengths
  rw [starts, nameEnd_of_flat flat] at unwrapped
  omega

/-- The hint is right exactly for the paths that have a slash. -/
theorem hints_iff {file : Bytes} (nonempty : file ≠ []) : Hints file ↔ 47 ∈ file := by
  constructor
  · intro hints
    by_contra flat
    exact not_hints_of_flat nonempty flat hints
  · exact hints_of_slash

/-- `/a.b/c.d.e` -/
theorem hints_of_dottedDirectory :
    Hints (ascii "/a.b/c.d.e") ↔ 47 ∈ ascii "/a.b/c.d.e" :=
  hints_iff (by decide)

/-- The hint for `part.ngc` is `art`. -/
theorem not_hints_of_fileName : ¬∀ file : Bytes, file ≠ [] → Hints file := by
  intro always
  have hint := (always (ascii "part.ngc") (by decide)).hint
  exact absurd hint (by decide)

end CncRemote
