import CncRemote.Comms
import CncRemote.Machine
import Mathlib.Analysis.Real.Sqrt
import Mathlib.Tactic.FieldSimp

/-!
# The simulator

`Sim::Poll` moves by the jog velocity and towards the target.  `DrivesOn` stops both motions, but
the requests that follow may start one of them again.  `always_still_iff` says by which distances
the simulator may be asked to step while its drives are off without moving.  Coordinates are exact.
-/

namespace CncRemote

/-- Exact square roots. -/
structure SquareRoot (K : Type) [Zero K] [LE K] [Mul K] where
  root : K → K
  nonneg : ∀ value, 0 ≤ root value
  mul_self : ∀ value, 0 ≤ value → root value * root value = value

/-- The square roots of real numbers. -/
noncomputable def SquareRoot.real : SquareRoot ℝ where
  root := Real.sqrt
  nonneg := Real.sqrt_nonneg
  mul_self _ := Real.mul_self_sqrt

section Axes

variable {R : Type}

/-- `Axes::Zero` -/
def Axes.zero [Zero R] : Axes R := ⟨fun _ => 0⟩

instance [Add R] : Add (Axes R) := ⟨fun left right => ⟨fun ct => left.array ct + right.array ct⟩⟩

instance [Sub R] : Sub (Axes R) := ⟨fun left right => ⟨fun ct => left.array ct - right.array ct⟩⟩

/-- `Axes::operator*` with a number. -/
def Axes.mul [Mul R] (axes : Axes R) (src : R) : Axes R := ⟨fun ct => axes.array ct * src⟩

/-- `Axes::operator/` with a number. -/
def Axes.div [Div R] (axes : Axes R) (src : R) : Axes R := ⟨fun ct => axes.array ct / src⟩

/-- The sum under the root of `Axes::Length`. -/
def Axes.squares [Add R] [Mul R] (axes : Axes R) : R :=
  axes.array 0 * axes.array 0 + axes.array 1 * axes.array 1 + axes.array 2 * axes.array 2 +
    axes.array 3 * axes.array 3 + axes.array 4 * axes.array 4 + axes.array 5 * axes.array 5

theorem Axes.add_sub_same [AddCommGroup R] (axes distance : Axes R) :
    axes + distance - axes = distance := by
  obtain ⟨array⟩ := distance
  refine congrArg Axes.mk (funext fun ct => ?_)
  exact add_sub_cancel_left (axes.array ct) (array ct)

theorem Axes.sub_same [AddCommGroup R] (axes : Axes R) : axes - axes = .zero :=
  congrArg Axes.mk (funext fun ct => sub_self (axes.array ct))

end Axes

variable {K : Type} [Field K] [LinearOrder K] (sqrt : SquareRoot K)

/-- `Axes::Length` -/
def Axes.length (axes : Axes K) : K := sqrt.root axes.squares

/-- `MACHINESTATE`, as far as the simulator uses it. -/
structure MachineState (K : Type) where
  controlOn : Bool
  paused : Bool
  running : Bool
  step : Bool
  feedOverride : K
  curLine : Int
  busy : Int
  spindleOverride : K
  jogVel : Axes K
  target : Axes K
  feedRate : K
  runCount : Int

/-- The simulator, with the state that it reports. -/
structure Sim (K : Type) where
  machine : MachineState K
  state : State K

namespace Sim

/-- `Sim::Sim` -/
def initial : Sim K where
  machine :=
    { controlOn := true, paused := false, running := false, step := false, feedOverride := 0
      curLine := 0, busy := 0, spindleOverride := 0, jogVel := .zero, target := .zero, feedRate := 0
      runCount := 0 }
  state := { (State.initial : State K) with maxFeedLin := 1000 }

/-- What `Sim::Poll` makes of the flags. -/
def busyState (machine : MachineState K) : ControlState :=
  let busy := ControlState.idle
  let busy := if machine.busy ≠ 0 then .mdi else busy
  let busy := if machine.running then .running else busy
  if machine.controlOn then busy else .off

/-- The motion by the jog velocity, which is refused when the simulator is busy. -/
def jog (sim : Sim K) (busy : ControlState) : Sim K × ControlState :=
  if ∃ ct, sim.machine.jogVel.array ct ≠ 0 then
    if busy = .idle ∨ busy = .moving then
      let position := sim.state.position + sim.machine.jogVel.mul 1
      ({ machine := { sim.machine with target := position }
         state := { sim.state with position } }, .moving)
    else
      ({ sim with machine := { sim.machine with jogVel := .zero } }, busy)
  else
    (sim, busy)

/-- The distance from which on the target counts as not reached. -/
def reach : K := 1 / 10000

/-- The motion towards the target. -/
def approach (sim : Sim K) (busy : ControlState) : Sim K × ControlState :=
  let dtg := sim.machine.target - sim.state.position
  let dist := dtg.length sqrt
  if reach < dist then
    ({ sim with state := { sim.state with
        position := sim.state.position +
          (dtg.div dist).mul (sim.machine.feedRate * sim.machine.feedOverride) } }, .running)
  else
    (sim, busy)

/-- The lines of the program that is running. -/
def advance (machine : MachineState K) : MachineState K :=
  if machine.running ∧ ¬machine.paused then
    let machine :=
      if machine.runCount = 0 then
        { machine with runCount := 1000, curLine := machine.curLine + 1 }
      else
        { machine with runCount := machine.runCount - 1 }
    if machine.step then { machine with paused := true } else machine
  else
    machine

/-- The count of the polls for which the simulator is busy. -/
def countdown (machine : MachineState K) : MachineState K :=
  { machine with busy := if machine.busy ≠ 0 then machine.busy - 1 else machine.busy }

/-- The end of `Sim::Poll`. -/
def report (moved : Sim K × ControlState) : Sim K :=
  { machine := advance moved.1.machine
    state := { moved.1.state with machineState := moved.2.code } }

/-- `Sim::Poll` -/
def poll (sim : Sim K) : Sim K :=
  let machine := countdown sim.machine
  let (sim, busy) := jog { sim with machine } (busyState machine)
  report (sim.approach sqrt busy)

/-- `Sim::DrivesOn` -/
def drivesOn (sim : Sim K) (status : Bool) : Sim K :=
  let machine := { sim.machine with controlOn := status }
  if status then
    { sim with machine }
  else
    { sim with machine := { machine with
        running := false, jogVel := .zero, target := sim.state.position } }

/-- `Sim::JogVel` -/
def jogVel (sim : Sim K) (velocities : Axes K) : Sim K :=
  { sim with machine := { sim.machine with jogVel := velocities } }

/-- `Sim::JogStep` -/
def jogStep (sim : Sim K) (distance : Axes K) (speed : K) : Sim K :=
  { sim with machine := { sim.machine with
      target := sim.state.position + distance, feedRate := speed } }

/-- What `Sim::Mdi` returns; it changes nothing. -/
def mdi (sim : Sim K) : Bool :=
  sim.state.machineState = ControlState.idle.code ∨ sim.state.machineState = ControlState.mdi.code

/-- `Sim::SpindleOverride` -/
def spindleOverride (sim : Sim K) (percent : K) : Sim K :=
  { sim with machine := { sim.machine with spindleOverride := percent } }

/-- `Sim::FeedOverride` -/
def feedOverride (sim : Sim K) (percent : K) : Sim K :=
  { sim with machine := { sim.machine with feedOverride := percent } }

/-- `Sim::FeedHold` -/
def feedHold (sim : Sim K) (status : Bool) : Sim K :=
  { sim with state := { sim.state with feedHold := status } }

/-- `Sim::BlockDelete` -/
def blockDelete (sim : Sim K) (status : Bool) : Sim K :=
  { sim with state := { sim.state with blockDelete := status } }

/-- `Sim::SingleStep` -/
def singleStep (sim : Sim K) (status : Bool) : Sim K :=
  { sim with state := { sim.state with singleStep := status } }

/-- `Sim::OptionalStop` -/
def optionalStop (sim : Sim K) (status : Bool) : Sim K :=
  { sim with state := { sim.state with optionalStop := status } }

/-- `Sim::Home` -/
def home (sim : Sim K) (axes : BoolAxes) : Sim K :=
  { sim with state := { sim.state with
      homed := ⟨fun ct => axes.array ct || sim.state.homed.array ct⟩ } }

/-- What happens to the simulator: a request, or a call of `Poll` from the main loop. -/
inductive SimEvent (K : Type) where
  | poll
  | drivesOn (status : Bool)
  | jogVel (velocities : Axes K)
  | jogStep (distance : Axes K) (speed : K)
  | spindleOverride (percent : K)
  | feedOverride (percent : K)
  | feedHold (status : Bool)
  | blockDelete (status : Bool)
  | singleStep (status : Bool)
  | optionalStop (status : Bool)
  | home (axes : BoolAxes)
  /-- `RapidOverride`, `Mdi`, `LoadFile`, `CloseFile`, `CycleStart`, `CycleStop`, `GetOffset`,
  `GetGCodes` and `GetMCodes`, which change nothing. -/
  | other

/-- One event. -/
def handle (sim : Sim K) : SimEvent K → Sim K
  | .poll => sim.poll sqrt
  | .drivesOn status => sim.drivesOn status
  | .jogVel velocities => sim.jogVel velocities
  | .jogStep distance speed => sim.jogStep distance speed
  | .spindleOverride percent => sim.spindleOverride percent
  | .feedOverride percent => sim.feedOverride percent
  | .feedHold status => sim.feedHold status
  | .blockDelete status => sim.blockDelete status
  | .singleStep status => sim.singleStep status
  | .optionalStop status => sim.optionalStop status
  | .home axes => sim.home axes
  | .other => sim

section Off

variable {sqrt} {sim : Sim K}

theorem jog_off (sim : Sim K) :
    ∃ jogVel, sim.jog .off = ({ sim with machine := { sim.machine with jogVel } }, .off) := by
  by_cases moving : ∃ ct, sim.machine.jogVel.array ct ≠ 0
  · exact ⟨.zero, by simp [jog, moving]⟩
  · exact ⟨sim.machine.jogVel, if_neg moving⟩

/-- While the drives are off, `Poll` is the motion towards the target. -/
theorem poll_of_off (off : sim.machine.controlOn = false) :
    ∃ quiet : Sim K, sim.poll sqrt = report (quiet.approach sqrt .off) ∧
      quiet.state = sim.state ∧ quiet.machine.target = sim.machine.target ∧
        quiet.machine.controlOn = false := by
  have control : (countdown sim.machine).controlOn = false := off
  have busy : busyState (countdown sim.machine) = .off := by simp [busyState, control]
  obtain ⟨jogVel, jogged⟩ := jog_off { sim with machine := countdown sim.machine }
  refine ⟨{ machine := { countdown sim.machine with jogVel }, state := sim.state }, ?_, rfl, rfl,
    control⟩
  simp only [poll, busy, jogged]

omit [Field K] [LinearOrder K] in
@[simp] theorem advance_controlOn (machine : MachineState K) :
    (advance machine).controlOn = machine.controlOn := by
  simp only [advance]
  split_ifs <;> rfl

omit [Field K] [LinearOrder K] in
@[simp] theorem advance_target (machine : MachineState K) :
    (advance machine).target = machine.target := by
  simp only [advance]
  split_ifs <;> rfl

theorem poll_of_near (off : sim.machine.controlOn = false)
    (near : (sim.machine.target - sim.state.position).length sqrt ≤ reach) :
    (sim.poll sqrt).state = { sim.state with machineState := ControlState.off.code } ∧
      (sim.poll sqrt).machine.controlOn = false ∧
        (sim.poll sqrt).machine.target = sim.machine.target := by
  obtain ⟨quiet, polled, state, target, control⟩ := poll_of_off off
  rw [← state, ← target] at near
  rw [polled, approach, if_neg (not_lt.mpr near), ← state, ← target]
  exact ⟨rfl, by simpa [report] using control, by simp [report]⟩

theorem poll_of_far (off : sim.machine.controlOn = false)
    (far : reach < (sim.machine.target - sim.state.position).length sqrt) :
    (sim.poll sqrt).state.machineState = ControlState.running.code := by
  obtain ⟨quiet, polled, state, target, -⟩ := poll_of_off off
  rw [← state, ← target] at far
  rw [polled, approach, if_pos far]
  rfl

end Off

end Sim

/-- The simulator between `DrivesOn(false)` and `DrivesOn(true)`. -/
structure SimRun (K : Type) where
  sim : Sim K
  /-- The position when `DrivesOn(false)` returned, unless the drives are on. -/
  held : Option (Axes K)
  /-- The distance of the last `JogStep` since then. -/
  pending : Axes K
  /-- `Poll` was called since then. -/
  polled : Bool

namespace SimRun

open Sim

/-- A simulator whose drives are not off. -/
def start (sim : Sim K) : SimRun K := ⟨sim, none, .zero, false⟩

/-- One event. -/
def step (run : SimRun K) (event : SimEvent K) : SimRun K :=
  let sim := run.sim.handle sqrt event
  match event with
  | .drivesOn false => { sim, held := some sim.state.position, pending := .zero, polled := false }
  | .drivesOn true => { run with sim, held := none }
  | .jogStep distance _ => { run with sim, pending := distance }
  | .poll => { run with sim, polled := true }
  | _ => { run with sim }

/-- Requests and polls, in any order. -/
def machine : Machine (SimRun K) (SimEvent K) := ⟨fun run event => some (run.step sqrt event)⟩

/-- While the drives are off the position stays, and every `Poll` reports that they are off. -/
structure Still (run : SimRun K) : Prop where
  position : ∀ position ∈ run.held, run.sim.state.position = position
  off : run.held ≠ none → run.polled = true →
    run.sim.state.machineState = ControlState.off.code

/-- A `Poll` while the drives are off finds no step to make. -/
def Reached (run : SimRun K) (event : SimEvent K) : Prop :=
  event = .poll → run.held ≠ none → run.pending.length sqrt ≤ reach

/-- What the runs keep in which no such step is found. -/
structure Parked (run : SimRun K) : Prop extends run.Still where
  control : run.held ≠ none → run.sim.machine.controlOn = false
  target : run.held ≠ none → run.sim.machine.target - run.sim.state.position = run.pending

variable {run : SimRun K}

omit [LinearOrder K] in
theorem start_parked (sim : Sim K) : (start sim).Parked :=
  ⟨⟨by simp [start], by simp [start]⟩, by simp [start], by simp [start]⟩

theorem Parked.near (parked : run.Parked) (reached : run.Reached sqrt .poll)
    (held : run.held ≠ none) :
    (run.sim.machine.target - run.sim.state.position).length sqrt ≤ reach := by
  rw [parked.target held]
  exact reached rfl held

theorem Parked.step (parked : run.Parked) {event : SimEvent K} (reached : run.Reached sqrt event) :
    (run.step sqrt event).Parked := by
  cases event with
  | poll =>
      by_cases held : run.held = none
      · exact ⟨⟨by simp [SimRun.step, held], by simp [SimRun.step, held]⟩,
          by simp [SimRun.step, held], by simp [SimRun.step, held]⟩
      · obtain ⟨state, control, target⟩ :=
          poll_of_near (parked.control held) (parked.near sqrt reached held)
        refine ⟨⟨fun position same => ?_, fun _ _ => ?_⟩, fun _ => control, fun _ => ?_⟩
        · show (run.sim.poll sqrt).state.position = position
          rw [state]
          exact parked.position position same
        · show (run.sim.poll sqrt).state.machineState = _
          rw [state]
        · show (run.sim.poll sqrt).machine.target - (run.sim.poll sqrt).state.position = run.pending
          rw [state, target]
          exact parked.target held
  | drivesOn status =>
      cases status with
      | true =>
          exact ⟨⟨by simp [SimRun.step], by simp [SimRun.step]⟩, by simp [SimRun.step],
            by simp [SimRun.step]⟩
      | false =>
          refine ⟨⟨?_, by simp [SimRun.step]⟩, fun _ => rfl, fun _ => Axes.sub_same _⟩
          rintro _ ⟨⟩
          rfl
  | jogStep distance speed =>
      exact ⟨⟨parked.position, parked.off⟩, parked.control, fun _ => Axes.add_sub_same _ _⟩
  | _ => exact ⟨⟨parked.position, parked.off⟩, parked.control, parked.target⟩

theorem not_still_of_far (parked : run.Parked) {event : SimEvent K}
    (far : ¬run.Reached sqrt event) : ¬(run.step sqrt event).Still := by
  simp only [Reached, not_forall, not_le] at far
  obtain ⟨rfl, held, far⟩ := far
  rw [← parked.target held] at far
  intro still
  have off := still.off held rfl
  have running := poll_of_far (parked.control held) far
  exact absurd (running.symm.trans off) (by decide)

/-- While its drives are off the simulator stays where it is in the runs in which every `Poll` finds
the last step that was asked for in the meantime, if any, too short to make. -/
theorem always_still_iff (sim : Sim K) (events : List (SimEvent K)) :
    (machine sqrt).Always Still (start sim) events ↔
      (machine sqrt).Guarded (Reached sqrt) (start sim) events := by
  refine Machine.always_iff_guarded ?_ (fun parked => parked.toStill) ?_ (start_parked sim) events
  · rintro run event _ parked reached ⟨⟩
    exact parked.step sqrt reached
  · rintro run event _ parked far ⟨⟩
    exact not_still_of_far sqrt parked far

/-- Ten units along the first axis. -/
def tenAhead : Axes ℝ := ⟨fun ct => if ct = 0 then 10 else 0⟩

theorem length_tenAhead : tenAhead.length SquareRoot.real = 10 := by
  have squares : tenAhead.squares = 10 * 10 := by simp [Axes.squares, tenAhead]
  rw [Axes.length, squares]
  exact Real.sqrt_mul_self (by norm_num)

/-- A client that steps along the first axis after it has switched the drives off: the next `Poll`
moves, and reports a motion. -/
theorem moves_while_off :
    ¬(machine SquareRoot.real).Always Still (start Sim.initial)
      [.drivesOn false, .feedOverride 1, .jogStep tenAhead 1, .poll] := by
  intro always
  let sqrt := SquareRoot.real
  have parked := start_parked (Sim.initial (K := ℝ))
  have off : ((start Sim.initial).step sqrt (.drivesOn false)).Parked :=
    parked.step sqrt (by rintro ⟨⟩)
  have set : (((start Sim.initial).step sqrt (.drivesOn false)).step sqrt
      (.feedOverride 1)).Parked := off.step sqrt (by rintro ⟨⟩)
  have asked : ((((start Sim.initial).step sqrt (.drivesOn false)).step sqrt
      (.feedOverride 1)).step sqrt (.jogStep tenAhead 1)).Parked := set.step sqrt (by rintro ⟨⟩)
  refine not_still_of_far SquareRoot.real asked ?_
    ((((always.2 _ rfl).2 _ rfl).2 _ rfl).2 _ rfl)
  intro reached
  have near : tenAhead.length SquareRoot.real ≤ reach := reached rfl (by simp [SimRun.step])
  rw [length_tenAhead] at near
  norm_num [reach] at near

end SimRun

end CncRemote
