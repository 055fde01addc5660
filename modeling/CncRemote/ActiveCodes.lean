import CncRemote.Layout
import CncRemote.Mach

/-!
# The active codes of Mach

`GetGCodes` and `GetMCodes` collect the codes that are not negative from two arrays of
`setup_struct`.  Both loops have the length of the first array, so that the second one goes on into
the settings behind the shorter array; `codes_getMCodes` says what it makes of them.
-/

namespace CncRemote

open Program

/-- `RS274NGC_ACTIVE_G_CODES` -/
abbrev rs274ngcActiveGCodes : Nat := 13

/-- `RS274NGC_ACTIVE_M_CODES` -/
abbrev rs274ngcActiveMCodes : Nat := 7

/-- `RS274NGC_ACTIVE_SETTINGS` -/
abbrev rs274ngcActiveSettings : Nat := 3

/-- `setup_struct` up to the settings that follow the active codes. -/
structure SetupStruct where
  /-- `AA_axis_offset` to `CC_origin_offset` -/
  rotary : Fin 9 → Double
  activeGCodes : Fin rs274ngcActiveGCodes → Int32
  activeMCodes : Fin rs274ngcActiveMCodes → Int32
  activeSettings : Fin rs274ngcActiveSettings → Double

namespace SetupStruct

/-- The number of the integer with which `active_g_codes` starts. -/
abbrev gCodesStart : Nat := 18

/-- The number of the integer with which `active_m_codes` starts. -/
abbrev mCodesStart : Nat := 31

/-- The two integers in the place of a `double`. -/
def halves (value : Double) : List Int32 :=
  [value.toUInt32.toInt32, (value >>> 32).toUInt32.toInt32]

/-- The memory of the structure, as integers. -/
def words (setup : SetupStruct) : List Int32 :=
  (List.ofFn setup.rotary).flatMap halves ++
    (List.ofFn setup.activeGCodes ++
      (List.ofFn setup.activeMCodes ++ (List.ofFn setup.activeSettings).flatMap halves))

/-- The integer of this number.  No loop reads one behind `active_settings`. -/
def word (setup : SetupStruct) (index : Nat) : Int32 := setup.words.getD index 0

/-- `MachServer::GetGCodes` -/
def getGCodes (setup : SetupStruct) : Scan Int32 :=
  scan (0 ≤ ·) setup.word gCodesStart rs274ngcActiveGCodes

/-- `MachServer::GetMCodes`, whose loop has the length of `GetGCodes`. -/
def getMCodes (setup : SetupStruct) : Scan Int32 :=
  scan (0 ≤ ·) setup.word mCodesStart rs274ngcActiveGCodes

/-- Nothing but the array is read, and its entries that are not negative are returned in order. -/
structure Lists {count : Nat} (codes : Scan Int32) (array : Nat) (entries : Fin count → Int32) :
    Prop where
  reads : ∀ index ∈ codes.reads, array ≤ index ∧ index < array + count
  kept : codes.kept = (List.ofFn entries).filter (0 ≤ ·)

/-- Both functions return the active codes of their arrays. -/
structure ListsCodes (setup : SetupStruct) : Prop where
  gCodes : Lists setup.getGCodes gCodesStart setup.activeGCodes
  mCodes : Lists setup.getMCodes mCodesStart setup.activeMCodes

variable (setup : SetupStruct)

theorem map_word (start length : Nat) (inside : start + length ≤ setup.words.length) :
    ((List.range length).map fun ct => setup.word (start + ct)) =
      (setup.words.drop start).take length := by
  apply List.ext_getElem
  · rw [List.length_map, List.length_range, List.length_take, List.length_drop]
    omega
  · intro ct within _
    rw [List.length_map, List.length_range] at within
    have bound : start + ct < setup.words.length := by omega
    simp [word, bound]

theorem length_flatMap_halves (values : List Double) :
    (values.flatMap halves).length = 2 * values.length := by
  induction values with
  | nil => rfl
  | cons value values ih =>
      rw [List.flatMap_cons, List.length_append, ih, List.length_cons]
      change 2 + _ = _
      omega

theorem length_words : setup.words.length = 44 := by
  simp only [words, List.length_append, length_flatMap_halves, List.length_ofFn]
  rfl

theorem drop_gCodesStart :
    setup.words.drop gCodesStart = List.ofFn setup.activeGCodes ++
      (List.ofFn setup.activeMCodes ++ (List.ofFn setup.activeSettings).flatMap halves) := by
  apply List.drop_left'
  rw [length_flatMap_halves, List.length_ofFn]

theorem drop_mCodesStart :
    setup.words.drop mCodesStart =
      List.ofFn setup.activeMCodes ++ (List.ofFn setup.activeSettings).flatMap halves := by
  change setup.words.drop (gCodesStart + rs274ngcActiveGCodes) = _
  rw [← List.drop_drop, drop_gCodesStart]
  apply List.drop_left'
  exact List.length_ofFn

theorem codes_getGCodes :
    setup.getGCodes.kept = (List.ofFn setup.activeGCodes).filter (0 ≤ ·) := by
  have inside : gCodesStart + rs274ngcActiveGCodes ≤ setup.words.length := by
    rw [length_words]
    decide
  rw [getGCodes, kept_scan, setup.map_word _ _ inside, drop_gCodesStart,
    List.take_left' List.length_ofFn]

/-- The settings are returned as if they were codes. -/
theorem codes_getMCodes :
    setup.getMCodes.kept =
      (List.ofFn setup.activeMCodes).filter (0 ≤ ·) ++
        ((List.ofFn setup.activeSettings).flatMap halves).filter (0 ≤ ·) := by
  have inside : mCodesStart + rs274ngcActiveGCodes ≤ setup.words.length := by
    rw [length_words]
    decide
  have all : (List.ofFn setup.activeMCodes ++
      (List.ofFn setup.activeSettings).flatMap halves).length ≤ rs274ngcActiveGCodes := by
    rw [List.length_append, length_flatMap_halves, List.length_ofFn, List.length_ofFn]
    decide
  rw [getMCodes, kept_scan, setup.map_word _ _ inside, drop_mCodesStart,
    List.take_of_length_le all, List.filter_append]

theorem lists_getGCodes : Lists setup.getGCodes gCodesStart setup.activeGCodes :=
  ⟨(reads_scan_iff _ _ _ _ _).mpr (Nat.le_refl _), setup.codes_getGCodes⟩

/-- `GetMCodes` returns the right codes if every half of a setting is negative as an integer. -/
theorem codes_getMCodes_iff :
    setup.getMCodes.kept = (List.ofFn setup.activeMCodes).filter (0 ≤ ·) ↔
      ∀ ct, ∀ half ∈ halves (setup.activeSettings ct), half < 0 := by
  rw [codes_getMCodes, List.append_right_eq_self, List.filter_eq_nil_iff]
  simp only [decide_eq_true_eq, Int32.not_le]
  constructor
  · intro negative ct half inside
    apply negative half
    exact List.mem_flatMap.mpr ⟨_, List.mem_ofFn.mpr ⟨ct, rfl⟩, inside⟩
  · intro negative half inside
    obtain ⟨setting, known, inside⟩ := List.mem_flatMap.mp inside
    obtain ⟨ct, rfl⟩ := List.mem_ofFn.mp known
    exact negative ct half inside

/-- Whatever there is in memory, `GetMCodes` reads beyond its array.  What it returns is right all
the same if it finds nothing but negative integers there; `GetGCodes` is right anyway. -/
theorem not_listsCodes :
    ¬setup.ListsCodes ∧ Lists setup.getGCodes gCodesStart setup.activeGCodes ∧
      (setup.getMCodes.kept = (List.ofFn setup.activeMCodes).filter (0 ≤ ·) ↔
        ∀ ct, ∀ half ∈ halves (setup.activeSettings ct), half < 0) := by
  refine ⟨fun lists => ?_, setup.lists_getGCodes, setup.codes_getMCodes_iff⟩
  have longer := (reads_scan_iff _ _ _ _ _).mp lists.mCodes.reads
  exact absurd longer (by decide)

/-- No code is active, and all settings are 0. -/
def idle : SetupStruct := ⟨fun _ => 0, fun _ => -1, fun _ => -1, fun _ => 0⟩

/-- `GetMCodes` returns six codes although none is active. -/
theorem not_listsCodes_idle :
    idle.getMCodes.kept = [0, 0, 0, 0, 0, 0] ∧ ¬∀ setup : SetupStruct, setup.ListsCodes := by
  refine ⟨by decide, fun always => ?_⟩
  have none : idle.getMCodes.kept = [] := (always idle).mCodes.kept
  exact absurd none (by decide)

end SetupStruct

namespace MachServer

variable {server : MachServer} {setup : SetupStruct}

/-- The codes that the driver filters are those of the loop. -/
theorem activeCodes_eq (array : Nat) {codes : Fin 13 → Int32}
    (found : ∀ ct : Fin 13, codes ct = setup.word (array + ct)) :
    activeCodes codes = (scan (0 ≤ ·) setup.word array rs274ngcActiveGCodes).kept := by
  rw [activeCodes, kept_scan, List.ofFn_eq_map, ← List.map_coe_finRange_eq_range, List.map_map]
  congr 1
  exact List.map_congr_left fun ct _ => found ct

/-- The program of the driver returns what is read from `setup_struct`. -/
theorem ends_getGCodes
    (found : ∀ ct : Fin 13,
      server.mach3.activeGCodes ct = setup.word (SetupStruct.gCodesStart + ct)) :
    getGCodes.Ends server fun codes next => next = server ∧ codes = setup.getGCodes.kept := by
  rw [getGCodes, ends_bind, ends_get, ends_pure, activeCodes_eq _ found]
  exact ⟨rfl, rfl⟩

theorem ends_getMCodes
    (found : ∀ ct : Fin 13,
      server.mach3.activeMCodes ct = setup.word (SetupStruct.mCodesStart + ct)) :
    getMCodes.Ends server fun codes next => next = server ∧ codes = setup.getMCodes.kept := by
  rw [getMCodes, ends_bind, ends_get, ends_pure, activeCodes_eq _ found]
  exact ⟨rfl, rfl⟩

end MachServer

end CncRemote
