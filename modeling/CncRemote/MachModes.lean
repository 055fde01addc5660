import CncRemote.MachLocks

/-!
# Mode switches of Mach3

Mach3 has a button and a lamp for every mode.  A button toggles, so the server looks at the lamp
before it presses the button.  `shows_of_run` says that every lamp shows what was last requested,
and `run_rewired_iff` when the lamp is all that `OptionalStop` ever switches.
-/

namespace CncRemote

open Program

/-- The modes that are requested of Mach3. -/
inductive MachMode where
  | feedHold
  | blockDelete
  | singleStep
  | optionalStop
  deriving DecidableEq

namespace MachMode

/-- The number of the lamp. -/
def led : MachMode → Int
  | .feedHold => 111
  | .blockDelete => 66
  | .singleStep => 82
  | .optionalStop => 65

/-- The number of the button. -/
def button : MachMode → Int
  | .feedHold => 1001
  | .blockDelete => 176
  | .singleStep => 1004
  | .optionalStop => 177

theorem led_injective {mode other : MachMode} (same : mode.led = other.led) : mode = other := by
  cases mode <;> cases other <;> first | rfl | cases same

end MachMode

/-- The panel of Mach3: a button toggles the lamp of its mode and leaves those of the others,
`SetLED` sets the lamp that it is given and leaves the others, and `SetDRO` leaves all of them. -/
structure Panel (api : MachApi) : Prop where
  toggles : ∀ (mode : MachMode) (mach3 : Mach3),
    (api.doButton mode.button mach3).led mode.led = !mach3.led mode.led
  others : ∀ (mode other : MachMode) (mach3 : Mach3), other ≠ mode →
    (api.doButton mode.button mach3).led other.led = mach3.led other.led
  lights : ∀ (mode : MachMode) (state : Bool) (mach3 : Mach3),
    (api.setLED mode.led state mach3).led mode.led = state
  spares : ∀ (mode other : MachMode) (state : Bool) (mach3 : Mach3), other ≠ mode →
    (api.setLED mode.led state mach3).led other.led = mach3.led other.led
  numbers : ∀ (number : Int) (value : ℚ) (mode : MachMode) (mach3 : Mach3),
    (api.setDRO number value mach3).led mode.led = mach3.led mode.led

/-- The lamps of the modes. -/
def Mach3.lamps (mach3 : Mach3) (mode : MachMode) : Bool := mach3.led mode.led

/-- What is known of the lamps: what was last requested or read, until something else is asked of
Mach3 that may change a lamp. -/
def MachEvent.note (known : MachMode → Option Bool) : MachEvent → MachMode → Option Bool
  | .call _ _ (.feedHold state) => Function.update known .feedHold (some state)
  | .call _ _ (.blockDelete state) => Function.update known .blockDelete (some state)
  | .call _ _ (.singleStep state) => Function.update known .singleStep (some state)
  | .call _ _ (.optionalStop state) => Function.update known .optionalStop (some state)
  | .call _ _ (.drivesOn _) | .call _ _ (.mdi _) | .call _ _ .closeFile | .call _ _ .cycleStart
  | .call _ _ .cycleStop | .call _ _ (.home _) | .call _ _ (.sendInit _) | .load => fun _ => none
  | .mach3 memory => fun mode => some (memory.lamps mode)
  | _ => known

/-- The lamps are as known. -/
def Mach3.Shows (mach3 : Mach3) (known : MachMode → Option Bool) : Prop :=
  ∀ mode, ∀ state ∈ known mode, mach3.lamps mode = state

theorem Mach3.Shows.update {mach3 next : Mach3} {known : MachMode → Option Bool} {mode : MachMode}
    {state : Bool} (shows : mach3.Shows known)
    (lamps : next.lamps = Function.update mach3.lamps mode state) :
    next.Shows (Function.update known mode (some state)) := by
  intro other value known
  rw [lamps]
  by_cases same : other = mode
  · subst same
    rw [Function.update_self] at known ⊢
    exact Option.some.inj known
  · rw [Function.update_of_ne same] at known ⊢
    exact shows other value known

section Panel

variable {api : MachApi} {mach3 : Mach3}

/-- The button of a mode is pressed if its lamp is not as requested. -/
def MachApi.press (api : MachApi) (mode : MachMode) (state : Bool) (mach3 : Mach3) : Mach3 :=
  if state ≠ mach3.led mode.led then api.doButton mode.button mach3 else mach3

theorem Panel.lamps_setLED (panel : Panel api) (mode : MachMode) (state : Bool) (mach3 : Mach3) :
    (api.setLED mode.led state mach3).lamps = Function.update mach3.lamps mode state := by
  funext other
  by_cases same : other = mode
  · subst same
    rw [Function.update_self]
    exact panel.lights other state mach3
  · rw [Function.update_of_ne same]
    exact panel.spares mode other state mach3 same

theorem Panel.lamps_press (panel : Panel api) (mode : MachMode) (state : Bool) (mach3 : Mach3) :
    (api.press mode state mach3).lamps = Function.update mach3.lamps mode state := by
  funext other
  unfold MachApi.press
  by_cases same : other = mode
  · subst same
    rw [Function.update_self]
    split
    · rename_i differs
      rw [Mach3.lamps, panel.toggles]
      cases state <;> cases lamp : mach3.led other.led <;> simp_all
    · rename_i agrees
      exact (not_not.mp agrees).symm
  · rw [Function.update_of_ne same]
    split
    · exact panel.others mode other mach3 same
    · rfl

end Panel

namespace MachServer

variable {api : MachApi} {server next : MachServer}

/-- The lamps of the modes. -/
def lamps (server : MachServer) : MachMode → Bool := server.mach3.lamps

theorem frames_lamps {α : Type} {body : Program MachServer α} (frames : body.Frames lamps) :
    (syncMutex.guard body).Frames lamps :=
  syncMutex.frames_guard frames fun _ _ => rfl

theorem setDRO_frames_lamps (panel : Panel api) (number : Int) (value : ℚ) :
    (setDRO api number value).Frames lamps :=
  .modify fun server => funext fun mode => panel.numbers number value mode server.mach3

/-- A call that presses no button, lights no lamp and runs no line. -/
def Quiet : ServerCall → Prop
  | .feedHold _ | .blockDelete _ | .singleStep _ | .optionalStop _ | .drivesOn _ | .mdi _
  | .closeFile | .cycleStart | .cycleStop | .home _ | .sendInit _ => False
  | _ => True

theorem loadFile_frames_lamps (file : Bytes) : (loadFile api file).Frames lamps := by
  refine frames_lamps (.bind .get fun _ => .ite (.pure _) ?_)
  cases api.toWide (cString file) with
  | none => exact .bind (.modify fun _ => rfl) fun _ => .pure _
  | some path =>
      refine .bind (.modify fun _ => rfl) fun _ => .bind (.modify fun _ => rfl) fun _ => ?_
      exact .bind (.modify fun _ => rfl) fun _ => .pure _

theorem handle_frames_lamps (panel : Panel api) (temp : WindowsTemp) (written : Nat)
    {call : ServerCall} (quiet : Quiet call) : (handle api temp written call).Frames lamps := by
  cases call with
  | feedHold | blockDelete | singleStep | optionalStop | drivesOn | mdi | closeFile | cycleStart
  | cycleStop | home | sendInit => exact absurd quiet id
  | getState_ =>
      exact .map _ <| frames_lamps <|
        .bind (.modify fun _ => rfl) fun _ => .bind .get fun _ => .pure _
  | jogVel velocities => exact .modify fun _ => rfl
  | feedOverride percent | spindleOverride percent | rapidOverride percent =>
      exact frames_lamps (setDRO_frames_lamps panel _ _)
  | loadFile file => exact .map _ (loadFile_frames_lamps file)
  | getOffset index =>
      exact .map _ (.bind .get fun _ => .ite (.pure _) (.ite (.pure _) (.pure _)))
  | getGCodes | getMCodes => exact .map _ (.bind .get fun _ => .pure _)
  | sendData data block =>
      refine .map _ ?_
      rintro server _ _ ⟨⟩
      rfl
  | getError index | getMessage index =>
      refine .map _ (msgMutex.frames_guard ?_ fun _ _ => rfl)
      exact .bind .get fun _ => .pure _
  | jogStep | version | startPreview | getPreview | endPreview => exact .pure _

theorem startLoop_frames_lamps (app scripter : Bool) : (startLoop app scripter).Frames lamps := by
  refine .ite (.ite (.pure _) ?_) (.modify fun _ => rfl)
  exact msgMutex.frames_guard (.modify fun _ => rfl) fun _ _ => rfl

theorem poll_frames_lamps : poll.Frames lamps :=
  .bind (.modify fun _ => rfl) fun _ => frames_lamps (.modify fun _ => rfl)

theorem loadThreadTest_frames_lamps : loadThreadTest.Frames lamps := by
  refine .modify fun server => ?_
  split
  · rfl
  · split <;> rfl

section Requests

theorem changeMach3_apply (change : Mach3 → Mach3) (server : MachServer) :
    changeMach3 change server = some ((), { server with mach3 := change server.mach3 }) := rfl

variable (api) (state : Bool)

theorem press_apply (mode : MachMode) (server : MachServer) :
    (if state ≠ server.mach3.led mode.led then doButton api mode.button else pure ()) server =
      changeMach3 (api.press mode state) server := by
  rw [changeMach3_apply, MachApi.press]
  split
  · exact changeMach3_apply _ server
  · rfl

theorem feedHold_eq :
    feedHold api state = syncMutex.guard (changeMach3 (api.press .feedHold state)) :=
  congrArg syncMutex.guard (funext (press_apply api state .feedHold))

theorem blockDelete_eq :
    blockDelete api state = syncMutex.guard (changeMach3 (api.press .blockDelete state)) :=
  congrArg syncMutex.guard (funext (press_apply api state .blockDelete))

theorem singleStep_eq :
    singleStep api state =
      syncMutex.guard (changeMach3 fun mach3 =>
        api.setLED MachMode.singleStep.led state (api.press .singleStep state mach3)) := by
  refine congrArg syncMutex.guard (funext fun server => ?_)
  change (if state ≠ server.mach3.led 82 then doButton api 1004 >>= fun _ => setLED api 82 state
    else setLED api 82 state) server = _
  rw [changeMach3_apply]
  split
  · rename_i differs
    have pressed : api.press .singleStep state server.mach3 = api.doButton 1004 server.mach3 :=
      if_pos differs
    rw [pressed]
    rfl
  · rename_i agrees
    have rests : api.press .singleStep state server.mach3 = server.mach3 := if_neg agrees
    rw [rests]
    rfl

theorem optionalStop_eq :
    optionalStop api state =
      syncMutex.guard (changeMach3 fun mach3 =>
        api.press .optionalStop state (api.setLED MachMode.optionalStop.led state mach3)) := by
  refine congrArg syncMutex.guard (funext fun server => ?_)
  exact press_apply api state .optionalStop
    { server with mach3 := api.setLED 65 state server.mach3 }

end Requests

theorem lamps_of_guard {change : Mach3 → Mach3} {value : Unit}
    (runs : syncMutex.guard (changeMach3 change) server = some (value, next)) :
    next.lamps = (change server.mach3).lamps := by
  have ends : (syncMutex.guard (changeMach3 change)).Ends server fun _ final => final = next :=
    ⟨value, next, runs, rfl⟩
  rw [Mutex.ends_guard, changeMach3, ends_modify] at ends
  obtain ⟨-, rfl⟩ := ends
  rfl

theorem shows_call (panel : Panel api) {known : MachMode → Option Bool}
    (shows : server.mach3.Shows known) {temp : WindowsTemp} {written : Nat} {call : ServerCall}
    {value : Unit} (runs : handle api temp written call server = some (value, next)) :
    next.mach3.Shows ((MachEvent.call temp written call).note known) := by
  by_cases quiet : Quiet call
  · have same : next.lamps = server.lamps := handle_frames_lamps panel temp written quiet runs
    have kept : next.mach3.Shows known := fun mode state known =>
      (congrFun same mode).trans (shows mode state known)
    cases call with
    | feedHold | blockDelete | singleStep | optionalStop | drivesOn | mdi | closeFile | cycleStart
    | cycleStop | home | sendInit => exact absurd quiet id
    | _ => exact kept
  · cases call with
    | feedHold state =>
        have runs : feedHold api state server = some (value, next) := runs
        rw [feedHold_eq] at runs
        exact shows.update ((lamps_of_guard runs).trans (panel.lamps_press _ _ _))
    | blockDelete state =>
        have runs : blockDelete api state server = some (value, next) := runs
        rw [blockDelete_eq] at runs
        exact shows.update ((lamps_of_guard runs).trans (panel.lamps_press _ _ _))
    | singleStep state =>
        have runs : singleStep api state server = some (value, next) := runs
        rw [singleStep_eq] at runs
        refine shows.update ((lamps_of_guard runs).trans ?_)
        rw [panel.lamps_setLED, panel.lamps_press, Function.update_idem]
    | optionalStop state =>
        have runs : optionalStop api state server = some (value, next) := runs
        rw [optionalStop_eq] at runs
        refine shows.update ((lamps_of_guard runs).trans ?_)
        rw [panel.lamps_press, panel.lamps_setLED, Function.update_idem]
    | drivesOn | mdi | closeFile | cycleStart | cycleStop | home | sendInit => exact nofun
    | _ => exact absurd trivial quiet

theorem shows_program (panel : Panel api) {known : MachMode → Option Bool}
    (shows : server.mach3.Shows known) {event : MachEvent} {value : Unit}
    (runs : program api event server = some (value, next)) :
    next.mach3.Shows (event.note known) := by
  have kept (same : next.lamps = server.lamps) : next.mach3.Shows known :=
    fun mode state known => (congrFun same mode).trans (shows mode state known)
  cases event with
  | call temp written call => exact shows_call panel shows runs
  | mach3 memory =>
      obtain ⟨⟩ := runs
      exact fun mode state known => Option.some.inj known
  | startLoop app scripter => exact kept (startLoop_frames_lamps app scripter runs)
  | poll => exact kept (poll_frames_lamps runs)
  | test => exact kept (loadThreadTest_frames_lamps runs)
  | load => exact nofun

/-- In every run without a fault, whatever the server and its clients do, the lamp of every mode is
as it was last requested or read at the machine, unless Mach3 was asked since for something else
than a mode. -/
theorem shows_of_run (panel : Panel api) {known : MachMode → Option Bool}
    (shows : server.mach3.Shows known) {events : List MachEvent}
    (ran : (machine (program api)).run (some server) events = some (some next)) :
    next.mach3.Shows (events.foldl MachEvent.note known) := by
  induction events generalizing server known with
  | nil =>
      obtain ⟨⟩ := ran
      exact shows
  | cons event events ih =>
      obtain ⟨reached, step, rest⟩ := Machine.run_cons_eq_some.mp ran
      cases reached with
      | none => exact absurd rest (run_none_ne_some events)
      | some middle =>
          obtain ⟨value, runs⟩ := step_eq_some_some.mp step
          exact ih (shows_program panel shows runs) rest

/-- Functions under which the buttons of the modes toggle their lamps and nothing else happens. -/
def toggling : MachApi :=
  { MachApi.plain with
    doButton button mach3 :=
      match [MachMode.feedHold, .blockDelete, .singleStep, .optionalStop].find?
        (·.button = button) with
      | some mode => { mach3 with led := Function.update mach3.led mode.led (!mach3.led mode.led) }
      | none => mach3 }

theorem panel_toggling : Panel toggling where
  toggles mode mach3 := by
    cases mode <;> rfl
  others mode other mach3 different := by
    cases mode <;> cases other <;> first | rfl | exact absurd rfl different
  lights mode state mach3 := Function.update_self _ _ _
  spares mode other state mach3 different :=
    Function.update_of_ne (fun led => different (MachMode.led_injective led)) _ _
  numbers _ _ _ _ := rfl

/-- The lamps after two requests and a poll. -/
theorem shows_of_requests :
    ∃ next, (machine (program toggling)).run
        (some (start 0 ⟨fun _ => none, fun _ => [], 0, []⟩ (fun _ => 1) true .rest))
        [.call .refused 0 (.blockDelete true), .poll, .call .refused 0 (.optionalStop true)] =
          some (some next) ∧
      next.lamps .feedHold = false ∧ next.lamps .blockDelete = true ∧
        next.lamps .singleStep = false ∧ next.lamps .optionalStop = true := by
  refine ⟨_, rfl, ?_⟩
  have dark : (start 0 ⟨fun _ => none, fun _ => [], 0, []⟩ (fun _ => 1) true .rest).mach3.Shows
      fun _ => some false := fun mode state known => Option.some.inj known
  have shows := shows_of_run panel_toggling dark
    (show (machine (program toggling)).run _
      [.call .refused 0 (.blockDelete true), .poll, .call .refused 0 (.optionalStop true)] = _
      from rfl)
  exact ⟨shows .feedHold _ rfl, shows .blockDelete _ rfl, shows .singleStep _ rfl,
    shows .optionalStop _ rfl⟩

section Unpressed

variable (api) (push : Mach3 → Mach3)

/-- `GetLED` finds at once what `SetLED` has set the lamp of the optional stop to. -/
def ReadsBack : Prop :=
  ∀ (state : Bool) (mach3 : Mach3),
    (api.setLED MachMode.optionalStop.led state mach3).led MachMode.optionalStop.led = state

/-- Mach3 with another button for the optional stop. -/
def rewired : MachApi :=
  { api with doButton := Function.update api.doButton MachMode.optionalStop.button push }

theorem doButton_rewired {button : Int} (other : button ≠ MachMode.optionalStop.button) :
    doButton (rewired api push) button = doButton api button :=
  congrArg changeMach3 (Function.update_of_ne other _ _)

theorem press_rewired {mode : MachMode} (other : mode.button ≠ MachMode.optionalStop.button) :
    (rewired api push).press mode = api.press mode := by
  have same : (rewired api push).doButton mode.button = api.doButton mode.button :=
    Function.update_of_ne other _ _
  funext state mach3
  rw [MachApi.press, MachApi.press, same]

theorem closeFile_rewired : closeFile (rewired api push) = closeFile api := by
  rw [closeFile, closeFile, doButton_rewired]
  decide

variable {api} in
theorem ReadsBack.press (back : ReadsBack api) (state : Bool) (mach3 : Mach3) :
    api.press .optionalStop state (api.setLED MachMode.optionalStop.led state mach3) =
      api.setLED MachMode.optionalStop.led state mach3 :=
  if_neg (not_not.mpr (back state mach3).symm)

variable {api} in
theorem ReadsBack.optionalStop_rewired (back : ReadsBack api) (state : Bool) :
    optionalStop (rewired api push) state = optionalStop api state := by
  have again : ReadsBack (rewired api push) := back
  rw [optionalStop_eq, optionalStop_eq]
  simp only [back.press, again.press]
  rfl

variable {api} in
theorem ReadsBack.handle_rewired (back : ReadsBack api) (temp : WindowsTemp) (written : Nat)
    (call : ServerCall) :
    handle (rewired api push) temp written call = handle api temp written call := by
  cases call with
  | drivesOn state =>
      rw [handle, handle, drivesOn, drivesOn, doButton_rewired]
      decide
  | closeFile => rw [handle, handle, closeFile_rewired]
  | sendInit nameHint => rw [handle, handle, sendInit, sendInit, closeFile_rewired]
  | cycleStart =>
      rw [handle, handle, cycleStart, cycleStart, doButton_rewired]
      decide
  | cycleStop =>
      rw [handle, handle, cycleStop, cycleStop, doButton_rewired, doButton_rewired]
      all_goals decide
  | feedHold state =>
      rw [handle, handle, feedHold_eq, feedHold_eq, press_rewired]
      decide
  | blockDelete state =>
      rw [handle, handle, blockDelete_eq, blockDelete_eq, press_rewired]
      decide
  | singleStep state =>
      rw [handle, handle, singleStep_eq, singleStep_eq, press_rewired]
      · rfl
      · decide
  | optionalStop state => exact back.optionalStop_rewired push state
  | home axes =>
      rw [handle, handle, home, home, doButton_rewired]
      · rfl
      · decide
  | _ => rfl

theorem guard_changeMach3 {server : MachServer} (free : server.syncLock = false)
    (change : Mach3 → Mach3) :
    syncMutex.guard (changeMach3 change) server =
      some ((), { server with mach3 := change server.mach3 }) := by
  have ends : (syncMutex.guard (changeMach3 change)).Ends server fun _ next =>
      next = { server with mach3 := change server.mach3 } := by
    rw [Mutex.ends_guard, changeMach3, ends_modify]
    refine ⟨free, ?_⟩
    rw [← free]
    rfl
  obtain ⟨_, _, runs, rfl⟩ := ends
  exact runs

theorem readsBack_of_rewired
    (same : ∀ push state server, (optionalStop (rewired api push) state server).map Prod.snd =
      (optionalStop api state server).map Prod.snd) : ReadsBack api := by
  intro state mach3
  by_contra differs
  let lit := api.setLED MachMode.optionalStop.led state mach3
  let pressed := api.doButton MachMode.optionalStop.button lit
  -- a button with another effect than that of Mach3
  let push : Mach3 → Mach3 := fun _ => { pressed with eStop := !pressed.eStop }
  let server := start 0 ⟨fun _ => none, fun _ => [], 0, []⟩ (fun _ => 0) true mach3
  have free : server.syncLock = false := rfl
  have original : api.press .optionalStop state lit = pressed := if_pos (Ne.symm differs)
  have replaced : (rewired api push).press .optionalStop state lit = push lit := by
    have button : (rewired api push).doButton MachMode.optionalStop.button = push :=
      @Function.update_self Int (fun _ => Mach3 → Mach3) _ MachMode.optionalStop.button push
        api.doButton
    rw [MachApi.press, button]
    exact if_pos (Ne.symm differs)
  have runs := same push state server
  rw [optionalStop_eq, optionalStop_eq, guard_changeMach3 free, guard_changeMach3 free] at runs
  have memory : (rewired api push).press .optionalStop state lit =
      api.press .optionalStop state lit :=
    congrArg MachServer.mach3 (Option.some.inj runs)
  rw [original, replaced] at memory
  exact absurd (congrArg Mach3.eStop memory) (Bool.not_ne_self _)

/-- In every run, faults included, the server does the same whatever the button of the optional stop
does, exactly if `SetLED` sets the lamp at once: then the button is never pressed. -/
theorem run_rewired_iff :
    (∀ (push : Mach3 → Mach3) (server : MachServer) (events : List MachEvent),
      (machine (program (rewired api push))).run (some server) events =
        (machine (program api)).run (some server) events) ↔
      ReadsBack api := by
  constructor
  · exact fun same => readsBack_of_rewired api fun push state server =>
      Option.some.inj (same push server [.call .refused 0 (.optionalStop state)])
  · intro back push server events
    have same : program (rewired api push) = program api := by
      funext event
      cases event with
      | call temp written call => exact back.handle_rewired push temp written call
      | startLoop | poll | test | load | mach3 => rfl
    rw [same]

end Unpressed

end MachServer

end CncRemote
