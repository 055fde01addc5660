import CncRemote.Lines
import CncRemote.Position
import Mathlib.Tactic.Ring

/-!
# The position in tool coordinates

The driver for LinuxCNC fills both positions of a state from the same status from which it answers
`GetOffset`.  The position in tool coordinates should be the one of the machine less all three
offsets; `inToolFrame_iff` says on which axes it is.
-/

namespace CncRemote

open Program

namespace LinuxCnc

variable {R : Type} (arith : Arith R) (build : Build)

/-- Whether `UpdateState` runs to its end, where it fills the state. -/
def finishes : Program (LinuxCnc R) Bool := do
  if (← get).emcStatus = none then
    return false
  else if (← reachable) = false then
    return false
  else
    alive

/-- `GetState_` and the three calls of `GetOffset` after it. -/
def stateAndOffsets : Program (LinuxCnc R) (State R × Axes R × Axes R × Axes R) := do
  let state ← getState_ arith
  let tool ← getOffset arith 0
  let g5x ← getOffset arith 1
  let g92 ← getOffset arith 2
  return (state, tool, g5x, g92)

variable {server after : LinuxCnc R}

theorem Connected.finishes_iff (connected : server.Connected) :
    finishes server = some (true, after) ↔
      ∃ middle, reachable server = some (true, middle) ∧ alive middle = some (true, after) := by
  obtain ⟨up, middle, reaches, -⟩ := reachable_keeps server connected
  have unfolds : finishes server =
      (if up = false then pure false else alive : Program (LinuxCnc R) Bool) middle := by
    change (if server.emcStatus = none then pure false
      else (reachable >>= fun up => if up = false then pure false else alive) :
        Program (LinuxCnc R) Bool) server = _
    rw [if_neg connected.2]
    change (reachable server).bind _ = _
    rw [reaches]
    rfl
  rw [unfolds, reaches]
  cases up with
  | false =>
      refine iff_of_false (fun ends => ?_) ?_
      · cases ends
      · rintro ⟨_, ends, -⟩
        cases ends
  | true =>
      constructor
      · exact fun lives => ⟨middle, rfl, lives⟩
      · rintro ⟨_, ends, lives⟩
        obtain ⟨-, rfl⟩ := Prod.mk.inj (Option.some.inj ends)
        exact lives

theorem Connected.getState_eq (connected : server.Connected)
    (finished : finishes server = some (true, after)) :
    after.Connected ∧
      getState_ arith server =
        some (fillState arith after after.status after.state,
          { after with state := fillState arith after after.status after.state }) := by
  obtain ⟨middle, reaches, lives⟩ := connected.finishes_iff.mp finished
  have middleConnected := (ends_iff_of_eq reaches _).mp (reachable_keeps server connected)
  have afterConnected := (ends_iff_of_eq lives _).mp (alive_keeps middle middleConnected)
  have ends : (getState_ arith).Ends server fun state next =>
      state = fillState arith after after.status after.state ∧
        next = { after with state := fillState arith after after.status after.state } := by
    simp only [getState_, updateState, ends_bind, ends_get, if_neg connected.2,
      ends_iff_of_eq reaches, Bool.true_eq_false, if_false, ends_iff_of_eq lives,
      ends_iff_of_eq afterConnected.readStatus, ends_modify, ends_pure, true_and]
  obtain ⟨_, _, runs, rfl, rfl⟩ := ends
  exact ⟨afterConnected, runs⟩

/-- `GetOffset` answers from the status. -/
theorem Connected.ends_getOffset (connected : server.Connected) (index : UInt32)
    (post : Axes R → LinuxCnc R → Prop) :
    (getOffset arith index).Ends server post ↔
      post
        (if index = 0 then ⟨fun ct =>
            arith.div (server.status.toolOffset.array ct) (server.status.units ct)⟩
          else if index = 1 then ⟨fun ct =>
            arith.div (server.status.g5xOffset.array ct) (server.status.units ct)⟩
          else if index = 2 then ⟨fun ct =>
            arith.div (server.status.g92Offset.array ct) (server.status.units ct)⟩
          else ⟨fun _ => arith.ofInt 0⟩)
        server := by
  rw [getOffset, connected.ends_connected, ends_bind, ends_iff_of_eq connected.readStatus]
  simp only [ends_ite, ends_pure]
  split_ifs <;> rfl

/-- In exact arithmetic the position of the axis in the state is that of the machine less the
offsets that the server reports after it. -/
def InToolFrame (number : Double → ℚ) (server : LinuxCnc ℚ) (ct : Fin maxAxes) : Prop :=
  (stateAndOffsets (.exact number)).Ends server fun (state, tool, g5x, g92) _ =>
    state.position.array ct =
      state.machinePos.array ct - tool.array ct - g5x.array ct - g92.array ct

instance (number : Double → ℚ) (server : LinuxCnc ℚ) (ct : Fin maxAxes) :
    Decidable (InToolFrame number server ct) :=
  decidableEnds _ _ _

theorem position_eq_iff (position tool g5x g92 : ℚ) {unit : ℚ} (nonzero : unit ≠ 0) :
    (position - g5x - g92) / unit = position / unit - tool / unit - g5x / unit - g92 / unit ↔
      tool = 0 := by
  have less : position / unit - tool / unit - g5x / unit - g92 / unit =
      (position - g5x - g92) / unit - tool / unit := by
    ring
  rw [less, eq_comm, sub_eq_self, div_eq_zero_iff, or_iff_left nonzero]

theorem inToolFrame_iff_of_connected (number : Double → ℚ) {server after : LinuxCnc ℚ}
    (connected : server.Connected) (finished : finishes server = some (true, after))
    {ct : Fin maxAxes} (units : after.status.units ct ≠ 0) :
    InToolFrame number server ct ↔ after.status.toolOffset.array ct = 0 := by
  obtain ⟨afterConnected, fills⟩ := connected.getState_eq (.exact number) finished
  have filled : ({ after with
      state := fillState (.exact number) after after.status after.state } :
      LinuxCnc ℚ).Connected := afterConnected.congr rfl
  have answers (index : UInt32) := filled.ends_getOffset (.exact number) index
  simp only [InToolFrame, stateAndOffsets, ends_bind, ends_iff_of_eq fills, answers, ends_pure]
  exact position_eq_iff _ _ _ _ units

/-- Whatever has happened before, where `UpdateState` runs to its end the position in the state is
that in tool coordinates exactly on the axes without a tool offset. -/
theorem inToolFrame_iff (number : Double → ℚ) (nextTime : Int) (control : EmcStat ℚ)
    (tape : Nat → NmlAnswer ℚ) (events : List LinuxEvent) {server after : LinuxCnc ℚ}
    (reached : (machine (program (.exact number) build)).run
      (some (start (.exact number) nextTime control tape)) events = some (some server))
    (finished : finishes server = some (true, after))
    (units : ∀ ct, after.status.units ct ≠ 0) (ct : Fin maxAxes) :
    InToolFrame number server ct ↔ after.status.toolOffset.array ct = 0 := by
  have linked := linked_of_reached (.exact number) build reached
  have nonnull : server.emcStatus ≠ none := by
    intro null
    have stops : finishes server = some (false, server) := by
      change (if server.emcStatus = none then pure false
        else (reachable >>= fun up => if up = false then pure false else alive) :
          Program (LinuxCnc ℚ) Bool) server = _
      rw [if_pos null]
      rfl
    cases stops.symm.trans finished
  exact inToolFrame_iff_of_connected number ⟨linked, nonnull⟩ finished (units ct)

/-- A control whose tool is one unit long. -/
def longTool : EmcStat ℚ := { EmcStat.rest with toolOffset := ⟨fun _ => 1⟩ }

theorem exists_connected (tape : Nat → NmlAnswer ℚ) (post : LinuxCnc ℚ → LinuxCnc ℚ → Prop)
    (ends : ∀ reached ∈ (machine (program (.exact fun _ => 0) ⟨false, 255⟩)).run
      (some (start (.exact fun _ => 0) 10 .rest tape)) [.connectNml], ∀ server ∈ reached,
        finishes.Ends server fun up after => up = true ∧ post server after) :
    ∃ server after,
      (machine (program (.exact fun _ => 0) ⟨false, 255⟩)).run
          (some (start (.exact fun _ => 0) 10 .rest tape)) [.connectNml] = some (some server) ∧
        finishes server = some (true, after) ∧ post server after := by
  obtain ⟨server, reached, _, after, finished, rfl, holds⟩ :=
    exists_reached (.exact fun _ => 0) ⟨false, 255⟩ ends
  exact ⟨server, after, reached, finished, holds⟩

/-- A control at rest without a tool offset. -/
theorem inToolFrame_of_rest :
    ∃ server after : LinuxCnc ℚ,
      finishes server = some (true, after) ∧
        (InToolFrame (fun _ => 0) server 2 ↔ after.status.toolOffset.array 2 = 0) := by
  obtain ⟨server, after, reached, finished, units⟩ :=
    exists_connected (fun _ => ⟨1, .rest, false⟩) (fun _ after => ∀ ct, after.status.units ct ≠ 0)
      (by decide +kernel)
  exact ⟨server, after, finished,
    inToolFrame_iff ⟨false, 255⟩ _ 10 .rest _ [.connectNml] reached finished units 2⟩

/-- The length of the tool is missing in the position. -/
theorem not_inToolFrame_of_tool :
    ¬∀ (number : Double → ℚ) (build : Build) (nextTime : Int) (control : EmcStat ℚ)
      (tape : Nat → NmlAnswer ℚ) (events : List LinuxEvent) (server after : LinuxCnc ℚ),
      (machine (program (.exact number) build)).run
          (some (start (.exact number) nextTime control tape)) events = some (some server) →
        finishes server = some (true, after) → (∀ ct, after.status.units ct ≠ 0) →
          ∀ ct, InToolFrame number server ct := by
  intro always
  obtain ⟨server, after, reached, finished, units, missing⟩ :=
    exists_connected (fun _ => ⟨1, longTool, false⟩)
      (fun server after => (∀ ct, after.status.units ct ≠ 0) ∧ ¬InToolFrame (fun _ => 0) server 2)
      (by decide +kernel)
  exact missing (always _ _ 10 .rest _ [.connectNml] server after reached finished units 2)

end LinuxCnc

end CncRemote
