import CncRemote.EdingPause
import CncRemote.Sim
import Mathlib.Order.Bounds.Basic

/-!
# The height of a resumed job

In the server for EdingCNC `UpdateState` and `CheckPause` raise `m_zMax`, and `CycleStart` resets
it.  Over a whole run it is the greatest of the heights that have become known since a job was
started, and that is the height at which a job is resumed.
-/

namespace CncRemote

namespace Cart

variable {R : Type}

/-- `ASARRAYD` -/
def toAxes (cart : Cart R) : Axes R :=
  ⟨fun ct => [cart.x, cart.y, cart.z, cart.a, cart.b, cart.c].get ct⟩

end Cart

/-- `CNC_SPINDLE_STS`, as far as `UpdateState` reads it. -/
structure SpindleStatus (R : Type) where
  programmedSpindleSpeed : R
  actualSpindleSpeedSigned : R
  spindleIsOn : Bool
  spindleDirection : Bool
  speedOverrideFactor : R

/-- What the functions of the library answer during `UpdateState`. -/
structure CncReadings (R : Type) where
  state : CncIeState
  /-- The output `CNC_IOID_DRIVE_ENABLE_OUT`. -/
  driveEnable : Bool
  machinePos : Cart R
  workPos : Cart R
  manualActionRequired : Bool
  actualFeedOverride : R
  optionalStop : Bool
  blocDelete : Bool
  curInterpreterLine : Int32
  singleStepMode : Bool
  spindle : SpindleStatus R
  /-- The output `CNC_IOID_COOLANT2_OUT`. -/
  coolant2 : Bool
  /-- The output `CNC_IOID_COOLANT1_OUT`. -/
  coolant1 : Bool
  /-- `isHomed` of the joints. -/
  isHomed : Fin maxAxes → Bool
  /-- `maxVelocity` of the joints that have a configuration. -/
  maxVelocity : Fin 3 → Option R
  inMillimeterMode : Bool
  programmedFeed : R
  actualFeed : R
  currentToolNumber : Int32
  /-- `CncGetCurrentGcodeSettingsText` -/
  settingsText : Bytes

/-- The state of the machine for a state of the interpreter. -/
def CncIeState.machineState (driveEnable : Bool) : CncIeState → ControlState
  | .powerup | .idle => .offline
  | .ready => if driveEnable then .idle else .off
  | .execError | .intError | .aborted => .off
  | .runningJob | .runningLine | .runningSub | .runningSubSearch | .runningLineSearch
  | .pausedLine | .pausedJob | .pausedSub | .pausedLineSearch | .pausedSubSearch
  | .runningLineHandwheel | .runningLinePaused => .running
  | .runningHandwheel | .runningAxisjog | .runningIpjog => .moving
  | .renderingGraph | .searching | .searchedDone => .mdi

/-- The members of `EdingCncServer` that `UpdateState` and `CycleStart` use. -/
structure EdingHeight (K : Type) where
  zMax : K
  state : State K

/-- The requests that use `m_zMax`, with what the library answers meanwhile. -/
inductive HeightEvent (K : Type) where
  | getState_ (readings : CncReadings K)
  | cycleStart (cnc : CncIeState) (sts : PauseStatus K) (machinePos : Cart K)
      (states : List CncIeState)

namespace EdingHeight

open EdingPause

variable {K : Type} [Field K] [LinearOrder K] (sqrt : SquareRoot K)

/-- `EdingCncServer::EdingCncServer` -/
def initial : EdingHeight K := ⟨0, .initial⟩

/-- The greatest linear velocity, of the joints that are configured. -/
def maxFeedLin (maxVelocity : Fin 3 → Option K) : K :=
  sqrt.root <| (List.finRange 3).foldl
    (fun feed ct =>
      match maxVelocity ct with
      | some velocity => feed + velocity * velocity
      | none => feed) 0

/-- `EdingCncServer::UpdateState` -/
def updateState (readings : CncReadings K) (server : EdingHeight K) : EdingHeight K :=
  let state :=
    { server.state with
      machineState := (readings.state.machineState readings.driveEnable).code }
  if readings.state = .powerup ∨ readings.state = .idle then
    { server with state }
  else
    let spin := readings.spindle
    { zMax := if server.zMax < readings.machinePos.z then readings.machinePos.z else server.zMax
      state :=
        { state with
          machinePos := readings.machinePos.toAxes
          position := readings.workPos.toAxes
          feedHold := readings.manualActionRequired
          feedOverride := readings.actualFeedOverride
          optionalStop := readings.optionalStop
          blockDelete := readings.blocDelete
          currentLine := readings.curInterpreterLine
          singleStep := readings.singleStepMode
          spindleCmd := spin.programmedSpindleSpeed
          spindleActual := spin.actualSpindleSpeedSigned
          spindleState := if spin.spindleIsOn then if spin.spindleDirection then 2 else 1 else 0
          spindleOverride := spin.speedOverrideFactor
          mist := readings.coolant2
          flood := readings.coolant1
          homed := ⟨readings.isHomed⟩
          maxFeedLin := maxFeedLin sqrt readings.maxVelocity
          gcodeUnits := if readings.inMillimeterMode then 1 else ((1 / 25.4 : ℚ) : K)
          rapidOverride := 1
          feedCmd := readings.programmedFeed
          feedActual := readings.actualFeed
          tool := readings.currentToolNumber
          interpState := cString readings.settingsText } }

/-- The value to which `CycleStart` resets `m_zMax`. -/
def unset : K := ((-1e17 : ℚ) : K)

/-- A request, and what the control is told. -/
def handle (server : EdingHeight K) : HeightEvent K → EdingHeight K × List (CncStep K)
  | .getState_ readings => (server.updateState sqrt readings, [])
  | .cycleStart cnc sts machinePos states =>
      let (zMax, progress) := cycleStart unset cnc sts machinePos server.zMax states
      ({ server with zMax }, progress.steps)

/-- The server after some requests. -/
def run (events : List (HeightEvent K)) : EdingHeight K :=
  events.foldl (fun server event => (server.handle sqrt event).1) initial

/-- `CheckPause` has nothing to move. -/
def Stays (sts : PauseStatus K) (machinePos : Cart K) : Prop :=
  sts.manualActionRequired = true ∨ sts.valid = false ∨ sts.position = machinePos

instance (sts : PauseStatus K) (machinePos : Cart K) : Decidable (Stays sts machinePos) :=
  inferInstanceAs (Decidable (_ ∨ _))

/-- The heights that are known once a request is answered.  A job that is started, not resumed,
forgets them. -/
def learn (heights : Set K) : HeightEvent K → Set K
  | .getState_ readings =>
      if readings.state = .powerup ∨ readings.state = .idle then heights
      else insert readings.machinePos.z heights
  | .cycleStart cnc sts machinePos _ =>
      if Paused cnc then
        if Stays sts machinePos then heights
        else insert sts.position.z (insert machinePos.z heights)
      else {unset}

/-- The heights that are known after some requests. -/
def heights (events : List (HeightEvent K)) : Set K := events.foldl learn {0}

/-- Where the tool is when a request comes in. -/
def origin : HeightEvent K → Cart K
  | .getState_ readings => readings.machinePos
  | .cycleStart _ _ machinePos _ => machinePos

variable {sqrt} {server : EdingHeight K}

section CheckPause

variable {sts : PauseStatus K} {machinePos : Cart K}

omit [Field K] in
theorem checkPause_of_stays (stays : Stays sts machinePos) (zMax : K) (states : List CncIeState) :
    ∃ result, checkPause sts machinePos zMax states = (zMax, ⟨[], result⟩) := by
  simp only [checkPause]
  split_ifs with manual valid arrived
  · exact ⟨_, rfl⟩
  · exact ⟨_, rfl⟩
  · exact ⟨_, rfl⟩
  · simp only [Stays, manual, valid, arrived] at stays
    exact absurd stays (by simp)

omit [Field K] in
theorem checkPause_of_moves (moves : ¬Stays sts machinePos) (zMax : K) (states : List CncIeState) :
    checkPause sts machinePos zMax states =
      (raisedZ machinePos sts.position zMax,
        safetyMoves sts machinePos (raisedZ machinePos sts.position zMax) states) := by
  obtain ⟨manual, valid, arrived⟩ : ¬sts.manualActionRequired = true ∧ ¬sts.valid = false ∧
      ¬sts.position = machinePos := by
    simpa only [Stays, not_or] using moves
  rw [checkPause, if_neg manual, if_neg valid, if_neg arrived]

end CheckPause

section Height

variable {heights : Set K}

omit [Field K] in
/-- What `CheckPause` raises the height to is the greatest again. -/
theorem isGreatest_raisedZ {zMax : K} (greatest : IsGreatest heights zMax)
    (machinePos pausePos : Cart K) :
    IsGreatest (insert pausePos.z (insert machinePos.z heights))
      (raisedZ machinePos pausePos zMax) := by
  have same : raisedZ machinePos pausePos zMax = max pausePos.z (max machinePos.z zMax) := by
    simp only [raisedZ]
    split_ifs <;> grind
  rw [same]
  exact (greatest.insert machinePos.z).insert pausePos.z

theorem handle_zMax_of_paused {cnc : CncIeState} (paused : Paused cnc) (sts : PauseStatus K)
    (machinePos : Cart K) (states : List CncIeState) :
    (server.handle sqrt (.cycleStart cnc sts machinePos states)).1.zMax =
      (checkPause sts machinePos server.zMax states).1 := by
  simp only [handle, cycleStart, paused, if_true]
  split <;> rfl

theorem isGreatest_handle (greatest : IsGreatest heights server.zMax) (event : HeightEvent K) :
    IsGreatest (learn heights event) (server.handle sqrt event).1.zMax := by
  cases event with
  | getState_ readings =>
      by_cases offline : readings.state = .powerup ∨ readings.state = .idle
      · simpa only [handle, updateState, learn, offline, if_true] using greatest
      · have same : (if server.zMax < readings.machinePos.z then readings.machinePos.z
            else server.zMax) = max readings.machinePos.z server.zMax := by
          grind
        simp only [handle, updateState, learn, offline, if_false, same]
        exact greatest.insert readings.machinePos.z
  | cycleStart cnc sts machinePos states =>
      by_cases paused : Paused cnc
      · rw [handle_zMax_of_paused paused, learn, if_pos paused]
        by_cases stays : Stays sts machinePos
        · obtain ⟨result, checked⟩ := checkPause_of_stays stays server.zMax states
          rwa [checked, if_pos stays]
        · rw [checkPause_of_moves stays, if_neg stays]
          exact isGreatest_raisedZ greatest machinePos sts.position
      · simp only [handle, cycleStart, learn, paused, if_false]
        exact isGreatest_singleton

/-- `m_zMax` is always the greatest of the heights that are known. -/
theorem isGreatest_run (events : List (HeightEvent K)) :
    IsGreatest (EdingHeight.heights events) (run sqrt events).zMax := by
  induction events using List.reverseRecOn with
  | nil => exact isGreatest_singleton
  | append_singleton events event ih =>
      rw [EdingHeight.heights, run, List.foldl_append, List.foldl_append]
      exact isGreatest_handle ih event

end Height

section Steps

variable {safe : K → Prop} {pos : Cart K} {steps : List (CncStep K)}

omit [Field K] [LinearOrder K] in
theorem level_mono {safer : K → Prop} (level : Level safe pos steps)
    (weaken : ∀ height, safe height → safer height) : Level safer pos steps := by
  induction steps generalizing pos with
  | nil => exact trivial
  | cons step steps ih =>
      exact ⟨fun sideways => (level.1 sideways).imp_right (weaken _), ih level.2⟩

omit [Field K] [LinearOrder K] in
theorem level_resume (level : Level safe pos steps) :
    Level safe pos (steps ++ [.runOrResumeJob]) := by
  induction steps generalizing pos with
  | nil => exact ⟨fun sideways => (sideways.elim (absurd rfl) (absurd rfl)), trivial⟩
  | cons step steps ih => exact ⟨level.1, ih level.2⟩

/-- Only at the height that a request leaves is the tool moved sideways. -/
theorem handle_level (server : EdingHeight K) (event : HeightEvent K) :
    Level (· = (server.handle sqrt event).1.zMax) (origin event)
      (server.handle sqrt event).2 := by
  cases event with
  | getState_ readings => exact trivial
  | cycleStart cnc sts machinePos states =>
      by_cases paused : Paused cnc
      · rw [handle_zMax_of_paused paused]
        have checked : Level (· = (checkPause sts machinePos server.zMax states).1) machinePos
            (checkPause sts machinePos server.zMax states).2.steps := by
          by_cases stays : Stays sts machinePos
          · obtain ⟨result, checked⟩ := checkPause_of_stays stays server.zMax states
            rw [checked]
            exact trivial
          · rw [checkPause_of_moves stays]
            have high : raisedZ machinePos sts.position server.zMax =
                raisedZ machinePos sts.position server.zMax := rfl
            exact (@safetyMoves_careful K _ (· = _) _ high sts machinePos states).level
        simp only [handle, cycleStart, paused, if_true]
        split
        · exact checked
        · exact checked
        · exact level_resume checked
      · simp only [handle, cycleStart, paused, if_false]
        have nothing : Level (· = unset) machinePos ([] : List (CncStep K)) := trivial
        exact level_resume nothing

end Steps

end EdingHeight

end CncRemote
