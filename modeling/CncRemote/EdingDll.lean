import CncRemote.Comms
import CncRemote.Heap
import CncRemote.Program

/-!
# The library that the Eding driver loads

`LoadDll` looks for the vendor's software in the registry, loads `cncapi.dll` from where it is
installed and looks up the functions that the driver calls.  `m_cncDll` is the handle of the
library, which the destructor frees.  `always_sound_iff` says in which runs the handle and the
answers of `LoadDll` can be relied on.
-/

namespace CncRemote

open Program

/-- The function pointers of the driver, without the `Cnc` of their names. -/
inductive CncFunction where
  | getCurrentT | getBlockDelete | getWorkPos | getMachinePos | getPauseStatus | getSpindleStatus
  | setTrackingVelocity | startVelocityTracking | stopTracking | getJointConfig | getToolData
  | isServerConnected | connectServer | disConnectServer | loadJob | getCurInterpreterLine
  | loadToolTable | updateToolData | getState | getStateText | getCurExecLine | getJointStatus
  | getSimulationMode | getAllAxesHomed | getSingleStepMode | getActualFeedOverride | getActualFeed
  | getIOStatus | getCurrentMcodesText | getCurrentGcodesText | runSingleLine | startJog
  | setOutput | setFeedOverride | rewindJob | reset | reset2 | getTrackingStatus | pauseJob
  | runOrResumeJob | setSimulationMode | singleStepMode | enableBlockDelete | stopJog | getInput
  | abortJob | getEMStopActive | moveTo | getActualToolZOffset | getActualOriginOffset
  | setSpeedOverride | getOptionalStop | getBlocDelete | getOutput | inMillimeterMode
  | getProgrammedFeed | getCurrentToolNumber | getCurrentGcodeSettingsText | enableOptionalStop
  | logFifoGet | graphFifoGet | startRenderGraph | getMotionStatus
  deriving DecidableEq, Repr

/-- The names under which the driver looks for functions. -/
inductive CncExport where
  /-- The name of the function pointer. -/
  | named (function : CncFunction)
  | getWorkPosition
  | getMachinePosition
  | loadJobW
  | getCurInterpreterLineNumber
  deriving DecidableEq, Repr

/-- `GETSYMBOL`. -/
def CncFunction.symbol (function : CncFunction) : CncFunction × CncExport :=
  (function, .named function)

/-- The lookups of `LoadDll`, in their order. -/
def lookups (dllVersion : Int) : List (CncFunction × CncExport) :=
  [(.getCurrentT, .named .getCurrentToolNumber), (.getBlockDelete, .named .getBlocDelete),
    (.getWorkPos, .getWorkPosition), (.getMachinePos, .getMachinePosition)] ++
  List.map CncFunction.symbol
    [.getPauseStatus, .getSpindleStatus, .setTrackingVelocity, .startVelocityTracking,
      .stopTracking, .getJointConfig, .getToolData, .isServerConnected, .connectServer,
      .disConnectServer] ++
  (if dllVersion < 3 then
    [CncFunction.symbol .loadJob, CncFunction.symbol .getCurInterpreterLine]
  else
    [(.loadJob, .loadJobW), (.getCurInterpreterLine, .getCurInterpreterLineNumber)]) ++
  List.map CncFunction.symbol
    [.loadToolTable, .updateToolData, .getState, .getStateText, .getCurExecLine, .getJointStatus,
      .getSimulationMode, .getAllAxesHomed, .getSingleStepMode, .getActualFeedOverride,
      .getActualFeed, .getIOStatus, .getCurrentMcodesText, .getCurrentGcodesText, .runSingleLine,
      .startJog, .setOutput, .setFeedOverride, .rewindJob, .reset, .reset2, .getTrackingStatus,
      .pauseJob, .runOrResumeJob, .setSimulationMode, .singleStepMode, .enableBlockDelete, .stopJog,
      .getInput, .abortJob, .getEMStopActive, .moveTo, .getActualToolZOffset, .getActualOriginOffset,
      .setSpeedOverride, .getOptionalStop, .getBlocDelete, .getOutput, .inMillimeterMode,
      .getProgrammedFeed, .getCurrentToolNumber, .getCurrentGcodeSettingsText, .enableOptionalStop,
      .logFifoGet, .graphFifoGet, .startRenderGraph, .getMotionStatus]

theorem mem_lookups (dllVersion : Int) (function : CncFunction) :
    function ∈ (lookups dllVersion).map Prod.fst := by
  by_cases old : dllVersion < 3
  · simp only [lookups, old, if_true]
    cases function <;> decide
  · simp only [lookups, old, if_false]
    cases function <;> decide

/-- A string of wide characters. -/
abbrev Wide := List UInt16

/-- A literal of wide characters. -/
def wide (text : String) : Wide := text.toList.map fun char => UInt16.ofNat char.toNat

/-- What the registry says about a program that is installed; `none` is a call that fails. -/
structure Installed where
  keyName : Option Wide
  /-- The key opens. -/
  opens : Bool
  publisher : Option Wide
  installLocation : Option Wide

/-- The keys that list the programs that are installed, where `none` is a key that does not open. -/
structure Registry where
  /-- Under `SOFTWARE\Wow6432Node`. -/
  wow64 : Option (List Installed)
  /-- Under `SOFTWARE`. -/
  native : Option (List Installed)

/-- The body of the loop over the programs, up to its `break`; `none` is a `continue`.  The version
is the character after `CNC4.0`, which may be the one that ends the string. -/
def Installed.examine (installed : Installed) (dllVersion : Int) (path : Wide) :
    Option (Int × Wide) := do
  let keyName ← installed.keyName
  guard (keyName.take 6 = wide "CNC4.0")
  let ver : Int := (keyName[6]?.getD 0).toNat - '0'.toNat
  guard (¬ver < dllVersion ∧ installed.opens = true)
  guard (installed.publisher = some (wide "EDING CNC B.V."))
  match installed.installLocation with
  | none => return (dllVersion, path)
  | some keyData => return (ver, keyData)

/-- The loop over the programs: the version and the path it ends with. -/
def searchInstalled : List Installed → Int → Wide → Int × Wide
  | [], dllVersion, path => (dllVersion, path)
  | installed :: rest, dllVersion, path =>
      match installed.examine dllVersion path with
      | none => searchInstalled rest dllVersion path
      | some found => if found.1 = 2 then found else searchInstalled rest found.1 found.2

/-- What `LoadDll` looks for in the registry, unless neither key opens: the version and the path. -/
def Registry.search (registry : Registry) : Option (Int × Wide) :=
  (registry.wow64 <|> registry.native).map fun installed => searchInstalled installed 0 []

/-- Which of the names the library at a path has, if there is one that can be loaded. -/
abbrev LoadLibrary := Wide → Option (CncExport → Bool)

/-- A driver, the libraries that were loaded and freed, and what `LoadDll` answered. -/
structure EdingDll where
  cncDll : Pointer
  /-- The library that each function pointer points into; `none` is a pointer that is not set. -/
  functions : CncFunction → Pointer
  libraries : Heap
  /-- The driver has not been destroyed. -/
  alive : Bool
  /-- The last answer of `LoadDll`. -/
  answer : Bool

namespace EdingDll

/-- A new driver. -/
def start : EdingDll := ⟨none, fun _ => none, .empty, true, false⟩

/-- `FreeLibrary`. -/
def freeLibrary (library : Pointer) : Program EdingDll Unit := do
  if (← get).libraries.Live library then
    modify fun driver => { driver with libraries := driver.libraries.release library }
  else
    fault

/-- The assignment in `GETSYMBOL` and `GETSYMBOL2`. -/
def assign (library : Pointer) (found : CncExport → Bool) (functions : CncFunction → Pointer)
    (lookup : CncFunction × CncExport) : CncFunction → Pointer :=
  Function.update functions lookup.1 (if found lookup.2 then library else none)

/-- `LoadDll`. -/
def loadDll (registry : Registry) (loadLibrary : LoadLibrary) : Program EdingDll Bool := do
  if (← get).cncDll ≠ none then
    return true
  else
    match registry.search with
    | none => return false
    | some (dllVersion, path) =>
        if path = [] then
          return false
        else
          match loadLibrary (path ++ wide "cncapi.dll") with
          | none => return false
          | some found =>
              let library := some (← get).libraries.next
              modify fun driver => { driver with
                cncDll := library
                libraries := driver.libraries.new
                functions := (lookups dllVersion).foldl (assign library found) driver.functions }
              if (lookups dllVersion).all fun lookup => found lookup.2 then
                return true
              else
                freeLibrary (← get).cncDll
                return false

/-- The destructor. -/
def destroy : Program EdingDll Unit := do
  if (← get).cncDll ≠ none then
    freeLibrary (← get).cncDll
    modify fun driver => { driver with alive := false }
  else
    modify fun driver => { driver with alive := false }

/-- What happens to a driver. -/
inductive DllEvent where
  /-- `LoadDll`, from `ControlExists` or `PollConnected`. -/
  | loadDll (registry : Registry) (loadLibrary : LoadLibrary)
  | destroy

/-- One event; none comes after the destructor. -/
def program (event : DllEvent) : Program EdingDll Unit := do
  if (← get).alive then
    match event with
    | .loadDll registry loadLibrary =>
        let answer ← loadDll registry loadLibrary
        modify fun driver => { driver with answer }
    | .destroy => destroy
  else
    pure ()

/-- The handle that is left. -/
def held (driver : EdingDll) : Pointer := if driver.alive then driver.cncDll else none

/-- `m_cncDll` is null or a library that is loaded, every other library was freed once, and where
`LoadDll` answered that the library is there, all functions point into it. -/
structure Sound (driver : EdingDll) : Prop where
  owned : driver.libraries.Owned [driver.held]
  resolved : driver.alive = true → driver.answer = true →
    driver.libraries.Live driver.cncDll ∧ ∀ function, driver.functions function = driver.cncDll

/-- What the runs keep in which no library lacks a function: a library that is loaded has them
all. -/
structure Whole (driver : EdingDll) : Prop where
  owned : driver.libraries.Owned [driver.held]
  unanswered : driver.cncDll = none → driver.answer = false
  resolved : driver.cncDll ≠ none → ∀ function, driver.functions function = driver.cncDll

/-- A library that `LoadDll` loads has every function that it looks up. -/
def Complete (driver : EdingDll) (event : DllEvent) : Prop :=
  driver.alive = true → driver.cncDll = none → ∀ registry loadLibrary dllVersion path found,
    event = .loadDll registry loadLibrary → registry.search = some (dllVersion, path) →
      path ≠ [] → loadLibrary (path ++ wide "cncapi.dll") = some found →
        ∀ lookup ∈ lookups dllVersion, found lookup.2 = true

variable {driver : EdingDll}

theorem start_whole : start.Whole :=
  ⟨.empty 1, fun _ => rfl, fun nonnull => absurd rfl nonnull⟩

theorem Whole.sound (whole : driver.Whole) : driver.Sound := by
  refine ⟨whole.owned, fun alive answered => ?_⟩
  have nonnull : driver.cncDll ≠ none := by
    intro null
    exact Bool.false_ne_true ((whole.unanswered null).symm.trans answered)
  have held : driver.held = driver.cncDll := if_pos alive
  exact ⟨whole.owned.live (List.mem_singleton.mpr held.symm) nonnull, whole.resolved nonnull⟩

theorem foldl_assign {library : Pointer} {found : CncExport → Bool}
    {symbols : List (CncFunction × CncExport)}
    (complete : ∀ lookup ∈ symbols, found lookup.2 = true)
    (functions : CncFunction → Pointer) {function : CncFunction}
    (sought : function ∈ symbols.map Prod.fst ∨ functions function = library) :
    symbols.foldl (assign library found) functions function = library := by
  induction symbols generalizing functions with
  | nil => simpa using sought
  | cons lookup symbols ih =>
      obtain ⟨first, rest⟩ := List.forall_mem_cons.mp complete
      refine ih rest (assign library found functions lookup) ?_
      by_cases same : function = lookup.1
      · exact .inr (by simp [assign, same, first])
      · simpa [assign, same] using sought

@[simp] theorem ends_freeLibrary (library : Pointer) (driver : EdingDll)
    (post : Unit → EdingDll → Prop) :
    (freeLibrary library).Ends driver post ↔
      driver.libraries.Live library ∧
        post () { driver with libraries := driver.libraries.release library } := by
  by_cases live : driver.libraries.Live library <;> simp [freeLibrary, live]

/-- `LoadDll` finds no library to load. -/
def Missing (registry : Registry) (loadLibrary : LoadLibrary) : Prop :=
  ∀ dllVersion path, registry.search = some (dllVersion, path) → path ≠ [] →
    loadLibrary (path ++ wide "cncapi.dll") = none

/-- The handle that is there is taken to be good. -/
theorem ends_loadDll_of_ne (nonnull : driver.cncDll ≠ none) (registry : Registry)
    (loadLibrary : LoadLibrary) (post : Bool → EdingDll → Prop) :
    (loadDll registry loadLibrary).Ends driver post ↔ post true driver := by
  simp [loadDll, nonnull]

theorem ends_loadDll_of_missing (null : driver.cncDll = none) {registry : Registry}
    {loadLibrary : LoadLibrary} (missing : Missing registry loadLibrary)
    (post : Bool → EdingDll → Prop) :
    (loadDll registry loadLibrary).Ends driver post ↔ post false driver := by
  simp only [loadDll, ends_bind, ends_get, null, ne_eq, not_true, if_false]
  cases searched : registry.search with
  | none => simp
  | some found =>
      obtain ⟨dllVersion, path⟩ := found
      by_cases empty : path = []
      · simp [empty]
      · simp [empty, missing dllVersion path searched empty]

/-- The driver with a library that was just loaded. -/
def loaded (driver : EdingDll) (dllVersion : Int) (found : CncExport → Bool) : EdingDll :=
  { driver with
    cncDll := some driver.libraries.next
    libraries := driver.libraries.new
    functions := (lookups dllVersion).foldl (assign (some driver.libraries.next) found)
      driver.functions }

theorem ends_loadDll_of_loaded (null : driver.cncDll = none) {registry : Registry}
    {loadLibrary : LoadLibrary} {dllVersion : Int} {path : Wide} {found : CncExport → Bool}
    (searched : registry.search = some (dllVersion, path)) (nonempty : path ≠ [])
    (loads : loadLibrary (path ++ wide "cncapi.dll") = some found)
    (post : Bool → EdingDll → Prop) :
    (loadDll registry loadLibrary).Ends driver post ↔
      if ∀ lookup ∈ lookups dllVersion, found lookup.2 = true then
        post true (driver.loaded dllVersion found)
      else
        (freeLibrary (some driver.libraries.next)).Ends (driver.loaded dllVersion found)
          fun _ => post false := by
  simp only [loadDll, ends_bind, ends_get, null, ne_eq, not_true, if_false, searched, nonempty,
    loads, ends_modify, ends_ite, List.all_eq_true, ends_pure]
  rfl

/-- A library that has all functions gets all function pointers. -/
theorem functions_loaded {dllVersion : Int} {found : CncExport → Bool}
    (complete : ∀ lookup ∈ lookups dllVersion, found lookup.2 = true) (function : CncFunction) :
    (driver.loaded dllVersion found).functions function =
      (driver.loaded dllVersion found).cncDll :=
  foldl_assign complete driver.functions (.inl (mem_lookups dllVersion function))

theorem Whole.owned_cncDll (whole : driver.Whole) (alive : driver.alive = true) :
    driver.libraries.Owned [driver.cncDll] := by
  have owned := whole.owned
  rwa [held, if_pos alive] at owned

theorem loadDll_whole (whole : driver.Whole) (alive : driver.alive = true) {registry : Registry}
    {loadLibrary : LoadLibrary} (complete : driver.Complete (.loadDll registry loadLibrary)) :
    (loadDll registry loadLibrary).Ends driver fun answer next =>
      ({ next with answer } : EdingDll).Whole := by
  by_cases null : driver.cncDll = none
  · by_cases missing : Missing registry loadLibrary
    · rw [ends_loadDll_of_missing null missing]
      exact ⟨whole.owned, fun _ => rfl, whole.resolved⟩
    · simp only [Missing, not_forall] at missing
      obtain ⟨dllVersion, path, searched, nonempty, loads⟩ := missing
      obtain ⟨found, loads⟩ := Option.ne_none_iff_exists'.mp loads
      have all := complete alive null registry loadLibrary dllVersion path found rfl searched
        nonempty loads
      have owned := whole.owned_cncDll alive
      rw [null] at owned
      rw [ends_loadDll_of_loaded null searched nonempty loads, if_pos all]
      refine ⟨?_, ?_, fun _ => functions_loaded all⟩
      · simpa [held, loaded, alive] using owned.new
      · rintro ⟨⟩
  · rw [ends_loadDll_of_ne null]
    exact ⟨whole.owned, fun absent => absurd absent null, whole.resolved⟩

theorem destroy_whole (whole : driver.Whole) (alive : driver.alive = true) :
    destroy.Ends driver fun _ => Whole := by
  have owned := whole.owned_cncDll alive
  have gone (libraries : Heap) (owned : libraries.Owned [none]) :
      ({ driver with libraries, alive := false } : EdingDll).Whole :=
    ⟨owned, whole.unanswered, whole.resolved⟩
  by_cases null : driver.cncDll = none
  · rw [null] at owned
    simpa [destroy, null] using gone _ owned
  · have live := owned.live List.mem_cons_self null
    simpa [destroy, null, live] using gone _ owned.release

theorem program_whole {event : DllEvent} (whole : driver.Whole)
    (complete : driver.Complete event) : (program event).Ends driver fun _ => Whole := by
  simp only [program, ends_bind, ends_get, ends_ite]
  split
  · cases event with
    | loadDll registry loadLibrary =>
        simp only [ends_bind, ends_modify]
        exact loadDll_whole whole ‹_› complete
    | destroy => exact destroy_whole whole ‹_›
  · exact (ends_pure _ _ _).mpr whole

/-- `LoadDll` frees a library that lacks a function and keeps its handle. -/
theorem not_sound_of_incomplete {event : DllEvent} (_ : driver.Whole)
    (incomplete : ¬driver.Complete event) : ¬(program event).Ends driver fun _ => Sound := by
  simp only [Complete, not_forall] at incomplete
  obtain ⟨alive, null, registry, loadLibrary, dllVersion, path, found, rfl, searched, nonempty,
    loads, lookup, inside, lacks⟩ := incomplete
  have some_ : ¬∀ lookup ∈ lookups dllVersion, found lookup.2 = true :=
    fun all => lacks (all lookup inside)
  simp only [program, ends_bind, ends_get, ends_ite, alive, if_true, ends_modify]
  rw [ends_loadDll_of_loaded null searched nonempty loads, if_neg some_, ends_freeLibrary]
  rintro ⟨live, sound⟩
  refine Heap.not_live_release live (sound.owned.live ?_ (Option.some_ne_none _))
  simp [EdingDll.held, loaded, alive]

/-- The handle and the answers are good in the runs in which no library lacks a function. -/
theorem always_sound_iff (events : List DllEvent) :
    (machine program).Always (fun reached => ∃ driver ∈ reached, driver.Sound) (some start)
        events ↔
      (machine program).Guarded (fun reached event => ∀ driver ∈ reached, driver.Complete event)
        (some start) events :=
  @always_iff_guarded _ _ program Complete Sound Whole program_whole Whole.sound
    not_sound_of_incomplete _ start_whole events

/-- The software is installed in version 4.02. -/
def installed : Registry :=
  ⟨none, some [⟨some (wide "CNC4.02"), true, some (wide "EDING CNC B.V."),
    some (wide "C:\\CNC4.02\\")⟩]⟩

/-- A library without `CncGetMotionStatus`. -/
def lacking : LoadLibrary := fun _ => some fun name => name ≠ .named .getMotionStatus

/-- The second call of `LoadDll` trusts the handle of a library that the first one has freed, and
the destructor frees it again. -/
theorem answer_after_lacking :
    ¬(machine program).Always (fun reached => ∃ driver ∈ reached, driver.Sound) (some start)
        [.loadDll installed lacking, .loadDll installed lacking, .destroy] ∧
      (∃ driver, (machine program).run (some start)
          [.loadDll installed lacking, .loadDll installed lacking] = some (some driver) ∧
        driver.answer = true ∧ ¬driver.libraries.Live driver.cncDll) ∧
      (machine program).run (some start)
        [.loadDll installed lacking, .loadDll installed lacking, .destroy] = some none := by
  have freed : ∃ driver, (machine program).run (some start)
      [.loadDll installed lacking, .loadDll installed lacking] = some (some driver) ∧
        driver.alive = true ∧ driver.answer = true ∧ ¬driver.libraries.Live driver.cncDll := by
    refine ⟨_, rfl, rfl, rfl, ?_⟩
    decide
  obtain ⟨driver, run, alive, answered, dead⟩ := freed
  refine ⟨fun always => ?_, ⟨driver, run, answered, dead⟩, rfl⟩
  have within : [DllEvent.loadDll installed lacking, .loadDll installed lacking] <+:
      [.loadDll installed lacking, .loadDll installed lacking, .destroy] := ⟨[.destroy], rfl⟩
  obtain ⟨_, ⟨⟩, sound⟩ := Machine.always_iff.mp always _ _ within run
  exact dead (sound.resolved alive answered).1

end EdingDll

end CncRemote
