import CncRemote.EdingHeight

/-!
# The drives of the Eding control

`DrivesOn` switches an output of the control, and gives no command where it takes the drives to be
on already.  `shown_of_run` says that the clients are nevertheless shown what was asked for last,
and `ignored_iff_of_run` finds the requests that do nothing.
-/

namespace CncRemote

/-- `CNC_TRACKING_MODE` -/
inductive TrackingMode where
  | off
  | handwheelPos
  | handwheelVel
  | position
  | velocity
  deriving DecidableEq, Repr

/-- What the library answers to `DrivesOn`. -/
structure DriveReadings where
  emStopActive : Bool
  state : CncIeState
  curTrackingMode : TrackingMode

/-- The functions of the library that `DrivesOn` calls to change the control. -/
inductive CncDrive where
  | pauseJob
  | stopJog (axis : Int)
  | setDriveEnable (value : Bool)
  | reset2 (resetFlags : Nat)
  | stopTracking
  deriving DecidableEq, Repr

/-- The drives as the control has them and as the clients are shown them. -/
structure EdingDrives where
  /-- The output `CNC_IOID_DRIVE_ENABLE_OUT`. -/
  driveEnable : Bool
  machineState : ControlState
  /-- The commands that were given to the control, oldest first. -/
  sent : List CncDrive

/-- What happens to the drives. -/
inductive DriveEvent where
  | drivesOn (readings : DriveReadings) (drivesOn : Bool)
  /-- Something else than the driver sets the output. -/
  | setOutput (value : Bool)
  | updateState (state : CncIeState)

namespace EdingDrives

/-- Give a command to the control. -/
def send (command : CncDrive) (drives : EdingDrives) : EdingDrives :=
  { drives with
    driveEnable :=
      match command with
      | .setDriveEnable value => value
      | _ => drives.driveEnable
    sent := drives.sent ++ [command] }

/-- What `DrivesOn` stops before it switches the drives off. -/
def stopMotion (drives : EdingDrives) : CncIeState → EdingDrives
  | .runningJob | .runningLine | .runningSub | .runningLineSearch | .runningSubSearch =>
      drives.send .pauseJob
  | .runningAxisjog | .runningIpjog => drives.send (.stopJog (-1))
  | _ => drives

/-- `EdingCncServer::DrivesOn` -/
def drivesOn (readings : DriveReadings) (drivesOn : Bool) (drives : EdingDrives) : EdingDrives :=
  let cnc := readings.state
  if readings.emStopActive then
    drives
  else if !drivesOn then
    (drives.stopMotion cnc).send (.setDriveEnable false)
  else if .ready ≤ cnc ∧ drives.driveEnable ∧ (¬.execError ≤ cnc ∨ ¬cnc ≤ .aborted) then
    drives
  else
    let reset := (drives.send (.reset2 1)).send (.setDriveEnable true)
    match readings.curTrackingMode with
    | .handwheelPos | .handwheelVel => reset.send .stopTracking
    | .off | .position | .velocity => reset

/-- One event. -/
def handle (drives : EdingDrives) : DriveEvent → EdingDrives
  | .drivesOn readings on => drives.drivesOn readings on
  | .setOutput value => { drives with driveEnable := value }
  | .updateState state => { drives with machineState := state.machineState drives.driveEnable }

/-- The drives after a list of events. -/
def run (drives : EdingDrives) (events : List DriveEvent) : EdingDrives :=
  events.foldl handle drives

/-- What was asked for last: a request is refused during an emergency stop. -/
def wanted (on : Bool) : DriveEvent → Bool
  | .drivesOn readings drivesOn => if readings.emStopActive then on else drivesOn
  | .setOutput value => value
  | .updateState _ => on

@[simp] theorem send_driveEnable_set (value : Bool) (drives : EdingDrives) :
    (drives.send (.setDriveEnable value)).driveEnable = value := rfl

@[simp] theorem send_stopTracking_driveEnable (drives : EdingDrives) :
    (drives.send .stopTracking).driveEnable = drives.driveEnable := rfl

theorem driveEnable_drivesOn (readings : DriveReadings) (on : Bool) (drives : EdingDrives) :
    (drives.drivesOn readings on).driveEnable =
      if readings.emStopActive then drives.driveEnable else on := by
  rw [drivesOn]
  by_cases refused : readings.emStopActive
  · rw [if_pos refused, if_pos refused]
  · rw [if_neg refused, if_neg refused]
    cases on with
    | false => rfl
    | true =>
        rw [if_neg (by simp)]
        split_ifs with already
        · exact already.2.1
        · split <;> simp

theorem driveEnable_handle (drives : EdingDrives) (event : DriveEvent) :
    (drives.handle event).driveEnable = wanted drives.driveEnable event := by
  cases event with
  | drivesOn readings on => exact driveEnable_drivesOn readings on drives
  | setOutput value => rfl
  | updateState state => rfl

/-- The output is what was asked for last. -/
theorem driveEnable_run (drives : EdingDrives) (events : List DriveEvent) :
    (drives.run events).driveEnable = events.foldl wanted drives.driveEnable :=
  (List.foldl_hom driveEnable fun drives event => (driveEnable_handle drives event).symm).symm

/-- The clients are shown what was asked for last, as far as the interpreter lets it be seen. -/
theorem shown_of_run (drives : EdingDrives) (events : List DriveEvent) (state : CncIeState) :
    (drives.run (events ++ [.updateState state])).machineState =
      state.machineState (events.foldl wanted drives.driveEnable) := by
  rw [run, List.foldl_append, ← driveEnable_run]
  rfl

theorem length_sent_stopMotion (drives : EdingDrives) (cnc : CncIeState) :
    drives.sent.length ≤ (drives.stopMotion cnc).sent.length := by
  cases cnc <;> simp [stopMotion, send]

theorem taken_as_on_iff (cnc : CncIeState) :
    (.ready ≤ cnc ∧ (¬.execError ≤ cnc ∨ ¬cnc ≤ .aborted)) ↔
      cnc.machineState true ≠ .off ∧ cnc.machineState true ≠ .offline := by
  cases cnc <;> decide

/-- A request does nothing exactly when it is refused, or when it asks for drives that are on and
shown to be. -/
theorem drivesOn_eq_self_iff (readings : DriveReadings) (on : Bool) (drives : EdingDrives) :
    drives.drivesOn readings on = drives ↔
      readings.emStopActive = true ∨
        on = true ∧ drives.driveEnable = true ∧
          readings.state.machineState true ≠ .off ∧
          readings.state.machineState true ≠ .offline := by
  have longer {other : EdingDrives} (more : drives.sent.length < other.sent.length) :
      other ≠ drives := fun same => Nat.lt_irrefl _ (same ▸ more)
  rw [← taken_as_on_iff, drivesOn]
  by_cases refused : readings.emStopActive
  · simp [refused]
  · rw [if_neg refused]
    cases on with
    | false =>
        rw [if_pos (by rfl)]
        refine iff_of_false (longer ?_) (by simp [refused])
        have stopped := drives.length_sent_stopMotion readings.state
        simp only [send, List.length_append, List.length_singleton]
        omega
    | true =>
        rw [if_neg (by simp)]
        split_ifs with already
        · exact iff_of_true rfl (.inr ⟨rfl, already.2.1, already.1, already.2.2⟩)
        · refine iff_of_false (longer ?_) ?_
          · split <;> simp [send]
          · rintro (stopped | ⟨-, enabled, ready, sound⟩)
            · exact refused stopped
            · exact already ⟨ready, enabled, sound⟩

/-- Whatever has happened to the drives: a request does nothing exactly during an emergency stop, or
when it asks for what was asked for last, namely drives that are on, and a client that asked for the
state would not be shown that they are off. -/
theorem ignored_iff_of_run (drives : EdingDrives) (events : List DriveEvent)
    (readings : DriveReadings) (on : Bool) :
    (drives.run events).drivesOn readings on = drives.run events ↔
      readings.emStopActive = true ∨
        on = true ∧ events.foldl wanted drives.driveEnable = true ∧
          (drives.run (events ++ [.updateState readings.state])).machineState ≠ .off ∧
          (drives.run (events ++ [.updateState readings.state])).machineState ≠ .offline := by
  rw [drivesOn_eq_self_iff, driveEnable_run, shown_of_run]
  refine or_congr_right (and_congr_right fun _ => and_congr_right fun enabled => ?_)
  rw [enabled]

end EdingDrives

end CncRemote
