import CncRemote.Commands
import CncRemote.Lines

/-!
# Homing with the driver for LinuxCNC

A request selects the axes to home.  `exact_iff` says in which runs the driver commands homing of
exactly the selected axes: those in which nothing but all axes is ever requested.
-/

namespace CncRemote

open Program

namespace LinuxCnc

variable {R : Type}

/-- The joint that a message commands to home, where -1 stands for all of them. -/
def homeJoint? : NmlCommand R → Option Int32
  | .home joint => some joint
  | _ => none

/-- The joints that `CommandSend` was asked to home, oldest first. -/
def homed (server : LinuxCnc R) : List Int32 :=
  server.sent.filterMap fun entry => homeJoint? entry.1

/-- The joints since a state of the server. -/
def homedSince (before server : LinuxCnc R) : List Int32 := server.homed.drop before.homed.length

/-- The joint is one of a selected axis, or stands for all axes and all of them are selected. -/
def Requests (axes : BoolAxes) (joint : Int32) : Prop :=
  joint = -1 ∧ (∀ ct, axes.array ct = true) ∨
    ∃ ct, axes.array ct = true ∧ joint = Int32.ofNat ct

instance (axes : BoolAxes) : DecidablePred (Requests axes) :=
  fun _ => inferInstanceAs (Decidable (_ ∨ _))

/-- Every axis that is selected is commanded to home, and nothing else is. -/
structure Exact (axes : BoolAxes) (joints : List Int32) : Prop where
  selected : ∀ ct, axes.array ct = true → -1 ∈ joints ∨ Int32.ofNat ct ∈ joints
  requested : ∀ joint ∈ joints, Requests axes joint

instance (axes : BoolAxes) (joints : List Int32) : Decidable (Exact axes joints) :=
  -- There are too many joints to try all of them.
  have : Decidable (∀ joint ∈ joints, Requests axes joint) := List.decidableBAll _ joints
  decidable_of_iff
    ((∀ ct, axes.array ct = true → -1 ∈ joints ∨ Int32.ofNat ct ∈ joints) ∧
      ∀ joint ∈ joints, Requests axes joint)
    (Iff.intro (fun exact => ⟨exact.1, exact.2⟩) fun exact => ⟨exact.selected, exact.requested⟩)

/-- The joints that `Home` commands. -/
def homeJoints (axes : BoolAxes) : List Int32 :=
  if axes.array 0 ∧ axes.array 1 ∧ axes.array 2 then [-1]
  else (List.finRange maxAxes).map fun ct => Int32.ofNat ct.val

section Noted

variable {τ : Type} {inv : LinuxCnc R → Prop}

/-- A command is all that `CommandSend` adds to what is noted of the commands. -/
theorem commandSend_appends (linked : ∀ server, inv server → server.Connected)
    (noted : NmlCommand R → Option τ) {cmd : NmlCommand R}
    (preserves : (commandSend cmd).Preserves inv) :
    (commandSend cmd).Appends inv (fun server => server.sent.filterMap fun entry => noted entry.1)
      (noted cmd).toList := by
  intro server holds
  obtain ⟨accepted, next, sends, -, grown, -⟩ := (linked server holds).commandSend cmd
  rw [ends_iff_of_eq sends]
  refine ⟨preserves holds sends, ?_⟩
  dsimp only
  rw [grown, List.filterMap_append]
  cases note : noted cmd <;> simp [note]

/-- `SetMode` adds nothing if commands to set the mode are not noted. -/
theorem setMode_appends (linked : ∀ server, inv server → server.Connected)
    (noted : NmlCommand R → Option τ) {mode : TaskMode} (silent : noted (.setMode mode) = none)
    (preserves : (commandSend (.setMode mode)).Preserves inv) :
    (setMode mode : Program (LinuxCnc R) Bool).Appends inv
      (fun server => server.sent.filterMap fun entry => noted entry.1) [] := by
  intro server holds
  rw [setMode, ends_bind, ends_iff_of_eq (linked server holds).readStatus, ends_ite]
  split
  · exact (ends_pure _ _ _).mpr ⟨holds, (List.append_nil _).symm⟩
  · have sends := commandSend_appends linked noted preserves server holds
    rwa [silent] at sends

end Noted

/-- A program that commands homing of these joints, as long as there is a status. -/
abbrev Homes {α : Type} (program : Program (LinuxCnc R) α) (joints : List Int32) : Prop :=
  program.Appends Connected homed joints

theorem commandSend_homes (cmd : NmlCommand R) : Homes (commandSend cmd) (homeJoint? cmd).toList :=
  commandSend_appends (fun _ => id) homeJoint? (commandSend_keeps cmd).preserves

theorem command_homes (cmd : NmlCommand R) : Homes (command cmd) (homeJoint? cmd).toList :=
  .map _ (commandSend_homes cmd)

theorem setMode_homes (mode : TaskMode) : Homes (setMode mode : Program (LinuxCnc R) Bool) [] :=
  setMode_appends (fun _ => id) homeJoint? rfl (commandSend_keeps _).preserves

theorem home_homes (axes : BoolAxes) :
    Homes
      (do
        let _ ← setMode .manual
        command (.setTeleopEnable true)
        if axes.array 0 ∧ axes.array 1 ∧ axes.array 2 then
          command (.home (-1))
        else
          (List.finRange maxAxes).forM fun ct => command (.home (Int32.ofNat ct)) :
        Program (LinuxCnc R) Unit)
      (homeJoints axes) := by
  refine (setMode_homes .manual).bind fun _ => ?_
  refine (command_homes (.setTeleopEnable true)).bind fun _ => ?_
  refine .ite (command_homes (.home (-1))) ?_
  rw [List.map_eq_flatMap]
  exact .forM (fun ct : Fin maxAxes => command_homes (.home (Int32.ofNat ct.val))) _

/-- The command for all axes is sent to all axes, and the commands for one axis reach each of
them. -/
theorem exact_homeJoints_iff (axes : BoolAxes) :
    Exact axes (homeJoints axes) ↔ ∀ ct, axes.array ct = true := by
  have axis_ne : ∀ ct : Fin maxAxes, Int32.ofNat ct ≠ -1 := by decide
  have axis_inj : ∀ ct other : Fin maxAxes, Int32.ofNat ct = Int32.ofNat other → ct = other := by
    decide
  constructor
  · intro exact ct
    by_cases first : axes.array 0 ∧ axes.array 1 ∧ axes.array 2
    · obtain ⟨-, all⟩ | ⟨other, -, same⟩ := exact.requested (-1) (by simp [homeJoints, first])
      · exact all ct
      · exact absurd same.symm (axis_ne other)
    · obtain ⟨same, -⟩ | ⟨other, selected, same⟩ := exact.requested (Int32.ofNat ct)
        (by rw [homeJoints, if_neg first]; exact List.mem_map_of_mem (List.mem_finRange ct))
      · exact absurd same (axis_ne ct)
      · rw [axis_inj ct other same]
        exact selected
  · intro all
    have joints : homeJoints axes = [-1] := by simp [homeJoints, all]
    rw [joints]
    refine ⟨fun _ _ => .inl (by simp), fun joint commanded => .inl ⟨?_, all⟩⟩
    exact List.mem_singleton.mp commanded

theorem exact_nil_iff (axes : BoolAxes) : Exact axes [] ↔ ∀ ct, axes.array ct = false := by
  constructor
  · intro exact ct
    by_contra selected
    simpa using exact.selected ct (by simpa using selected)
  · intro none
    exact ⟨fun ct selected => by simp [none ct] at selected, by simp⟩

/-- A request to home is served exactly. -/
def HomesExactly (server : LinuxCnc R) : LinuxEvent → Prop
  | .call (.home axes) =>
      (home axes).Ends server fun _ next => Exact axes (homedSince server next)
  | _ => True

/-- A request to home selects all axes, or none if there is no status. -/
def SelectsAll (server : LinuxCnc R) : LinuxEvent → Prop
  | .call (.home axes) => ∀ ct, axes.array ct = decide (server.emcStatus ≠ none)
  | _ => True

instance (server : LinuxCnc R) (event : LinuxEvent) : Decidable (server.HomesExactly event) := by
  unfold HomesExactly
  split <;> infer_instance

theorem homesExactly_iff {server : LinuxCnc R} (linked : server.Linked) (event : LinuxEvent) :
    server.HomesExactly event ↔ server.SelectsAll event := by
  rcases event with _ | _ | _ | call
  · rfl
  · rfl
  · rfl
  cases call with
  | home axes =>
      by_cases null : server.emcStatus = none
      · have ends : home axes server = some ((), server) := connected_of_none null
        simp only [HomesExactly, SelectsAll, ends_iff_of_eq ends, homedSince, List.drop_length,
          null]
        simpa using exact_nil_iff axes
      · obtain ⟨_, next, ends, -, grown⟩ := home_homes axes server ⟨linked, null⟩
        have ends : home axes server = some ((), next) := (connected_of_ne null).trans ends
        simp only [HomesExactly, SelectsAll, ends_iff_of_eq ends, homedSince, grown, List.drop_left]
        simpa [null] using exact_homeJoints_iff axes
  | _ => rfl

variable (arith : Arith R) (build : Build)

/-- Whatever else happens and whatever the control answers, the requests to home are all served
exactly if and only if each of them selects all axes, or none while there is no status. -/
theorem exact_iff (nextTime : Int) (control : EmcStat R) (tape : Nat → NmlAnswer R)
    (events : List LinuxEvent) :
    (machine (program arith build)).Guarded
        (fun reached event => ∀ server ∈ reached, server.HomesExactly event)
        (some (start arith nextTime control tape)) events ↔
      (machine (program arith build)).Guarded
        (fun reached event => ∀ server ∈ reached, server.SelectsAll event)
        (some (start arith nextTime control tape)) events :=
  guarded_congr_of_invariant (fun event => (program_keeps arith build event).preserves)
    (fun event linked => homesExactly_iff linked event) (start_linked arith nextTime control tape)
    events

/-- A request for one axis homes all of them, and so does one for the linear axes. -/
theorem homes_all_axes :
    ¬(machine (program (.exact fun _ => 0) ⟨false, 255⟩)).Guarded
        (fun reached event => ∀ server ∈ reached, server.HomesExactly event)
        (some (start (.exact fun _ => 0) 0 .rest fun index => ⟨if index < 6 then 1 else 0, .rest, false⟩))
        [.connectNml, .call (.home (Command.oneAxis 0))] ∧
      ¬(machine (program (.exact fun _ => 0) ⟨true, 255⟩)).Guarded
        (fun reached event => ∀ server ∈ reached, server.HomesExactly event)
        (some (start (.exact fun _ => 0) 0 .rest fun index => ⟨if index < 6 then 1 else 0, .rest, false⟩))
        [.connectNml, .call (.home ⟨fun ct => ct.val < 3⟩)] := by
  decide +kernel

end LinuxCnc

end CncRemote
