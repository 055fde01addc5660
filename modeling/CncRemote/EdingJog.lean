import CncRemote.LinuxCnc
import Mathlib.Tactic.Tauto

/-!
# Jogging on the Eding control

`JogVel` and `JogStep` choose between commands of the vendor's library by the state of its
interpreter.  `interlocked_iff` says for which states and requests they command a motion only when
nothing else moves the machine.
-/

namespace CncRemote

/-- `CNC_IE_STATE`, without the `CNC_IE` and the `STATE` of the names. -/
inductive CncIeState where
  | powerup
  | idle
  | ready
  | execError
  | intError
  | aborted
  | runningJob
  | runningLine
  | runningSub
  | runningSubSearch
  | runningLineSearch
  | pausedLine
  | pausedJob
  | pausedSub
  | pausedLineSearch
  | pausedSubSearch
  | runningHandwheel
  | runningLineHandwheel
  | runningLinePaused
  | runningAxisjog
  | runningIpjog
  | renderingGraph
  | searching
  | searchedDone
  deriving DecidableEq, Repr

/-- The order of the enumerators. -/
instance : LE CncIeState := ⟨fun left right => left.ctorIdx ≤ right.ctorIdx⟩

instance (left right : CncIeState) : Decidable (left ≤ right) :=
  inferInstanceAs (Decidable (left.ctorIdx ≤ right.ctorIdx))

/-- The control is ready, or in a jog or handwheel state. -/
def CncIeState.MayJog (cnc : CncIeState) : Prop :=
  cnc = .ready ∨ cnc = .runningHandwheel ∨ cnc = .runningAxisjog ∨ cnc = .runningIpjog

instance : DecidablePred CncIeState.MayJog := fun _ => inferInstanceAs (Decidable (_ ∨ _))

/-- Arithmetic with roots. -/
structure RootArith (R : Type) extends Arith R where
  add : R → R → R
  sqrt : R → R

/-- The functions of the library that start or stop a jog. -/
inductive CncJog (R : Type) where
  | startVelocityTracking
  | setTrackingVelocity (vels : Axes R) (move : BoolAxes)
  | stopTracking
  | startJog (axes : Axes R) (velocityFactor : R) (continuous : Bool)
  | stopJog (axis : Int)

/-- The command moves the machine. -/
def CncJog.Moves {R : Type} : CncJog R → Prop
  | .startVelocityTracking | .setTrackingVelocity _ _ | .startJog _ _ _ => True
  | .stopTracking | .stopJog _ => False

namespace EdingJog

variable {R : Type} (arith : RootArith R)

/-- Some velocity is `!= 0`. -/
def Moving (velocities : Axes R) : Prop :=
  ∃ ct, arith.eq (velocities.array ct) (arith.ofInt 0) = false

instance (velocities : Axes R) : Decidable (Moving arith velocities) :=
  inferInstanceAs (Decidable (∃ _, _))

/-- The velocity of a jog without tracking. -/
def jogFactor (maxFeedLin : R) (velocities : Axes R) : R :=
  let vel := (List.finRange maxAxes).foldl
    (fun vel ct => arith.add vel (arith.mul (velocities.array ct) (velocities.array ct)))
    (arith.ofInt 0)
  arith.mul (arith.sqrt vel) maxFeedLin

/-- `EdingCncServer::JogVel`, where `tracking` says whether the library has
`CncStartVelocityTracking`. -/
def jogVel (tracking : Bool) (cnc : CncIeState) (maxFeedLin : R) (velocities : Axes R) :
    List (CncJog R) :=
  let wasMoving := cnc = .runningAxisjog ∨ cnc = .runningHandwheel
  if Moving arith velocities then
    if tracking then
      (if wasMoving then [] else [.startVelocityTracking]) ++
        [.setTrackingVelocity ⟨fun ct => arith.mul (velocities.array ct) maxFeedLin⟩
          ⟨fun _ => true⟩]
    else
      [.startJog velocities (jogFactor arith maxFeedLin velocities) true]
  else if wasMoving then
    if tracking then [.stopTracking] else [.stopJog (-1)]
  else
    []

/-- The comparison `speed <= 0`. -/
def NotPositive (speed : R) : Prop :=
  arith.lt speed (arith.ofInt 0) = true ∨ arith.eq speed (arith.ofInt 0) = true

instance (speed : R) : Decidable (NotPositive arith speed) :=
  inferInstanceAs (Decidable (_ ∨ _))

/-- `EdingCncServer::JogStep` -/
def jogStep (cnc : CncIeState) (maxFeedLin : R) (distance : Axes R) (speed : R) :
    List (CncJog R) :=
  if NotPositive arith speed then []
  else if cnc ≤ .aborted then []
  else [.startJog distance (arith.mul speed maxFeedLin) false]

/-- The commands move the machine only when the control is ready or jogs already. -/
def Interlocked (cnc : CncIeState) (commands : List (CncJog R)) : Prop :=
  ∀ command ∈ commands, command.Moves → cnc.MayJog

variable {arith}

/-- A request that is not zero moves the machine, whatever the state. -/
theorem jogVel_moves_iff (tracking : Bool) (cnc : CncIeState) (maxFeedLin : R)
    (velocities : Axes R) :
    (∃ command ∈ jogVel arith tracking cnc maxFeedLin velocities, command.Moves) ↔
      Moving arith velocities := by
  constructor
  · rintro ⟨command, commanded, moves⟩
    by_contra still
    simp only [jogVel, still, if_false] at commanded
    split_ifs at commanded
    · obtain rfl := List.mem_singleton.mp commanded
      exact moves
    · obtain rfl := List.mem_singleton.mp commanded
      exact moves
    · cases commanded
  · intro moving
    cases tracking with
    | false =>
        refine ⟨.startJog velocities (jogFactor arith maxFeedLin velocities) true, ?_, trivial⟩
        simp only [jogVel, moving, if_true]
        exact List.mem_singleton_self _
    | true =>
        refine ⟨.setTrackingVelocity ⟨fun ct => arith.mul (velocities.array ct) maxFeedLin⟩
          ⟨fun _ => true⟩, ?_, trivial⟩
        simp only [jogVel, moving, if_true]
        exact List.mem_append_right _ (List.mem_singleton_self _)

/-- A step moves the machine in the states that come after the idle ones. -/
theorem jogStep_moves_iff (cnc : CncIeState) (maxFeedLin : R) (distance : Axes R) (speed : R) :
    (∃ command ∈ jogStep arith cnc maxFeedLin distance speed, command.Moves) ↔
      ¬NotPositive arith speed ∧ ¬cnc ≤ .aborted := by
  simp only [jogStep]
  split_ifs with slow early
  · simp [slow]
  · simp [early]
  · simp [slow, early, CncJog.Moves]

theorem interlocked_iff_of_moves {cnc : CncIeState} {commands : List (CncJog R)} {moves : Prop}
    (iff : (∃ command ∈ commands, command.Moves) ↔ moves) :
    Interlocked cnc commands ↔ (moves → cnc.MayJog) := by
  rw [← iff]
  exact ⟨fun locked ⟨command, commanded, moves⟩ => locked command commanded moves,
    fun may command commanded moves => may ⟨command, commanded, moves⟩⟩

/-- No step is started in the state in which the control is ready. -/
theorem jogStep_ready (maxFeedLin : R) (distance : Axes R) (speed : R) :
    jogStep arith .ready maxFeedLin distance speed = [] := by
  have early : CncIeState.ready ≤ .aborted := by decide
  simp [jogStep, early]

/-- Jogs are interlocked with the other motions, and a step is started when the control is ready,
for the requests and states below and for no others. -/
theorem interlocked_iff (arith : RootArith R) (tracking : Bool) (cnc : CncIeState)
    (maxFeedLin : R) (velocities distance : Axes R) (speed : R) :
    (Interlocked cnc (jogVel arith tracking cnc maxFeedLin velocities) ∧
        Interlocked cnc (jogStep arith cnc maxFeedLin distance speed) ∧
          (cnc = .ready → arith.lt (arith.ofInt 0) speed = true →
            jogStep arith cnc maxFeedLin distance speed =
              [.startJog distance (arith.mul speed maxFeedLin) false])) ↔
      (Moving arith velocities → cnc.MayJog) ∧
        (¬NotPositive arith speed → cnc ≤ .aborted ∨ cnc.MayJog) ∧
          (cnc = .ready → arith.lt (arith.ofInt 0) speed = false) := by
  rw [interlocked_iff_of_moves (jogVel_moves_iff tracking cnc maxFeedLin velocities),
    interlocked_iff_of_moves (jogStep_moves_iff cnc maxFeedLin distance speed)]
  refine and_congr_right fun _ => and_congr ?_ ?_
  · tauto
  · refine forall_congr' ?_
    rintro rfl
    rw [jogStep_ready]
    simp

/-- Exact arithmetic, up to roots. -/
def rational (sqrt : ℚ → ℚ) : RootArith ℚ :=
  { Arith.exact (fun _ => 0) with add := (· + ·), sqrt }

/-- One along the first axis. -/
def ahead : Axes ℚ := ⟨fun ct => if ct = 0 then 1 else 0⟩

/-- A velocity starts a jog while a job is running, and so does a step, which a control that is
ready ignores. -/
theorem jog_while_running :
    ¬Interlocked .runningJob (jogVel (rational id) true .runningJob 1 ahead) ∧
      ¬Interlocked .runningJob (jogStep (rational id) .runningJob 1 ahead 1) ∧
        jogStep (rational id) .ready 1 ahead 1 = [] := by
  refine ⟨?_, ?_, jogStep_ready 1 ahead 1⟩
  · rw [interlocked_iff_of_moves (jogVel_moves_iff true .runningJob 1 ahead)]
    decide
  · rw [interlocked_iff_of_moves (jogStep_moves_iff .runningJob 1 ahead 1)]
    decide

end EdingJog

end CncRemote
