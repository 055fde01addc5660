import CncRemote.EdingCnc
import CncRemote.JogCache

/-!
# Mode switches

Four requests switch a mode of the control on or off.  `lawful_iff` says for the drivers of LinuxCNC
and EdingCNC in which sequences every mode ends up as it was last requested.
-/

namespace CncRemote

open Program

/-- The modes of a control. -/
structure Modes where
  paused : Bool
  blockDelete : Bool
  singleStep : Bool
  optionalStop : Bool
  deriving DecidableEq

/-- A command for one of the modes.  A program step is the command of LinuxCNC for running step by
step, and the only one. -/
inductive ModeCommand where
  | pause
  | resume
  | blockDelete (state : Bool)
  | singleStep (state : Bool)
  | step
  | optionalStop (state : Bool)
  deriving DecidableEq

/-- A request to switch a mode. -/
inductive ModeCall where
  | feedHold (state : Bool)
  | blockDelete (state : Bool)
  | singleStep (state : Bool)
  | optionalStop (state : Bool)
  deriving DecidableEq

namespace Modes

/-- The control obeys a command, which changes only the mode that it is for. -/
def obey (modes : Modes) : ModeCommand → Modes
  | .pause => { modes with paused := true }
  | .resume => { modes with paused := false }
  | .blockDelete state => { modes with blockDelete := state }
  | .singleStep state => { modes with singleStep := state }
  | .step => { modes with singleStep := true }
  | .optionalStop state => { modes with optionalStop := state }

/-- The modes after a request. -/
def request (modes : Modes) : ModeCall → Modes
  | .feedHold state => { modes with paused := state }
  | .blockDelete state => { modes with blockDelete := state }
  | .singleStep state => { modes with singleStep := state }
  | .optionalStop state => { modes with optionalStop := state }

end Modes

namespace ModeCall

/-- The request as it is dispatched. -/
def call : ModeCall → ServerCall
  | .feedHold state => .feedHold state
  | .blockDelete state => .blockDelete state
  | .singleStep state => .singleStep state
  | .optionalStop state => .optionalStop state

/-- The dispatched request as a call of the driver for LinuxCNC. -/
def event (call : ModeCall) : LinuxEvent := .call call.call

/-- The request switches a mode on. -/
def state : ModeCall → Bool
  | .feedHold state | .blockDelete state | .singleStep state | .optionalStop state => state

end ModeCall

/-- Commands that do not halt the program. -/
def Quiet (commands : List ModeCommand) : Prop := .pause ∉ commands ∧ .step ∉ commands

instance (commands : List ModeCommand) : Decidable (Quiet commands) :=
  inferInstanceAs (Decidable (_ ∧ _))

/-- The calls sent these commands: every mode has the value that was last requested for it, and no
call that switches a mode off halts the program. -/
def Lawful (modes : Modes) (calls : List ModeCall) (sent : List (List ModeCommand)) : Prop :=
  sent.flatten.foldl Modes.obey modes = calls.foldl Modes.request modes ∧
    ∀ pair ∈ calls.zip sent, pair.1.state = false → Quiet pair.2

instance (modes : Modes) (calls : List ModeCall) (sent : List (List ModeCommand)) :
    Decidable (Lawful modes calls sent) :=
  inferInstanceAs (Decidable (_ ∧ _))

/-- A driver is lawful exactly without the call that halts the program when it should not, if its
other calls switch the modes as requested. -/
theorem lawful_map_iff {sends : ModeCall → List ModeCommand} {bad : ModeCall}
    (follows : ∀ call ≠ bad, ∀ modes : Modes,
      (sends call).foldl Modes.obey modes = modes.request call)
    (quiet_iff : ∀ call, (call.state = false → Quiet (sends call)) ↔ call ≠ bad)
    (modes : Modes) (calls : List ModeCall) :
    Lawful modes calls (calls.map sends) ↔ bad ∉ calls := by
  have pairs : (∀ pair ∈ calls.zip (calls.map sends), pair.1.state = false → Quiet pair.2) ↔
      ∀ call ∈ calls, call ≠ bad := by
    simp only [← List.map_prod_left_eq_zip, List.forall_mem_map, quiet_iff]
  rw [← List.forall_mem_ne']
  rw [Lawful, pairs]
  refine and_iff_right_of_imp fun allowed => ?_
  clear pairs
  induction calls generalizing modes with
  | nil => rfl
  | cons call calls ih =>
      obtain ⟨first, rest⟩ := List.forall_mem_cons.mp allowed
      rw [List.map_cons, List.flatten_cons, List.foldl_append, follows call first]
      exact ih _ rest

namespace LinuxCnc

variable {R : Type}

/-- The mode that a message to the control is for. -/
def modeCommand? : NmlCommand R → Option ModeCommand
  | .planPause => some .pause
  | .planResume => some .resume
  | .planSetBlockDelete state => some (.blockDelete state)
  | .planStep => some .step
  | .planSetOptionalStop state => some (.optionalStop state)
  | _ => none

/-- The commands for the modes that the control accepted. -/
def modeLog (server : LinuxCnc R) : List ModeCommand :=
  server.sent.filterMap fun entry => if entry.2 then modeCommand? entry.1 else none

/-- What a call asks of the control. -/
def asks : ModeCall → ModeCommand
  | .feedHold state => if state then .pause else .resume
  | .blockDelete state => .blockDelete state
  | .singleStep _ => .step
  | .optionalStop state => .optionalStop state

/-- Everything but `SingleStep` off is lawful. -/
theorem lawful_asks_iff (modes : Modes) (calls : List ModeCall) :
    Lawful modes calls (calls.map fun call => [asks call]) ↔ .singleStep false ∉ calls := by
  refine lawful_map_iff (fun call good modes => ?_) (fun call => ?_) modes calls
  · cases call with
    | feedHold state => cases state <;> rfl
    | singleStep state =>
        cases state with
        | false => exact absurd rfl good
        | true => rfl
    | blockDelete state | optionalStop state => rfl
  · cases call with
    | feedHold state | blockDelete state | singleStep state | optionalStop state =>
        cases state <;> decide

variable (arith : Arith R) (build : Build) {server : LinuxCnc R}

theorem handle_call (call : ModeCall) : ∃ cmd : NmlCommand R,
    handle arith build call.call = connected () (command cmd) ∧
      modeCommand? cmd = some (asks call) := by
  cases call with
  | feedHold state => exact ⟨_, rfl, by cases state <;> rfl⟩
  | blockDelete state | singleStep state | optionalStop state => exact ⟨_, rfl, rfl⟩

theorem ends_handle_call (call : ModeCall) (linked : server.Linked) (accepts : server.Accepts) :
    (handle arith build call.call).Ends server fun _ next =>
      next.Linked ∧ next.modeLog = server.modeLog ++ [asks call] := by
  have nonnull : server.emcStatus ≠ none := by
    intro null
    simp [Accepts, transmit, null] at accepts
  obtain ⟨cmd, handles, mode⟩ := handle_call arith build call
  obtain ⟨accepted, next, sends, kept, grown, accepts'⟩ :=
    Connected.commandSend ⟨linked, nonnull⟩ cmd
  obtain rfl : accepted = true := accepts'.mpr accepts
  rw [handles]
  simp only [connected, ends_bind, ends_get, nonnull, if_false, command, ends_map,
    ends_iff_of_eq sends]
  exact ⟨kept.1, by simp [modeLog, grown, mode]⟩

theorem added_modeLog {calls : List ModeCall} (linked : server.Linked)
    (accepted : (machine (program arith build)).Guarded
      (fun reached _ => ∀ server ∈ reached, server.Accepts) (some server)
      (calls.map ModeCall.event)) :
    (machine (program arith build)).added (fun reached => reached.elim [] modeLog) (some server)
        (calls.map ModeCall.event) =
      calls.map fun call => [asks call] := by
  refine @Machine.Guarded.added_eq_map _ _ _ _ _ _ _ _
    (fun reached => ∃ server ∈ reached, server.Linked) _ ?_ ?_ _ _ accepted
    ⟨server, rfl, linked⟩
  · rintro _ call ⟨server, rfl, linked⟩
    exact ⟨_, rfl⟩
  · rintro _ call next ⟨server, rfl, linked⟩ accepts step
    have ends : (program arith build call.event).Ends server fun _ next =>
        next.Linked ∧ next.modeLog = server.modeLog ++ [asks call] :=
      ends_handle_call arith build call linked (accepts server rfl)
    obtain ⟨final, stepped, kept, grown⟩ := ends.step
    obtain rfl := Option.some.inj (step.symm.trans stepped)
    exact ⟨⟨final, rfl, kept⟩, grown⟩

end LinuxCnc

namespace EdingCncServer

/-- The mode that a command to the control is for. -/
def modeCommand? : CncCommand → Option ModeCommand
  | .pauseJob => some .pause
  | .enableBlockDelete enable => some (.blockDelete enable)
  | .singleStepMode enable => some (.singleStep enable)
  | .enableOptionalStop enable => some (.optionalStop enable)
  | _ => none

/-- The commands for the modes that the control was given. -/
def modeLog (server : EdingCncServer) : List ModeCommand := server.sent.filterMap modeCommand?

/-- What a call asks of the control. -/
def asks : ModeCall → ModeCommand
  | .feedHold _ => .pause
  | .blockDelete state => .blockDelete state
  | .singleStep state => .singleStep state
  | .optionalStop state => .optionalStop state

/-- Everything but `FeedHold` off is lawful. -/
theorem lawful_asks_iff (modes : Modes) (calls : List ModeCall) :
    Lawful modes calls (calls.map fun call => [asks call]) ↔ .feedHold false ∉ calls := by
  refine lawful_map_iff (fun call good modes => ?_) (fun call => ?_) modes calls
  · cases call with
    | feedHold state =>
        cases state with
        | false => exact absurd rfl good
        | true => rfl
    | blockDelete state | singleStep state | optionalStop state => rfl
  · cases call with
    | feedHold state | blockDelete state | singleStep state | optionalStop state =>
        cases state <;> decide

theorem modeLog_handle_call (add : Double → Double → Double) (call : ModeCall)
    (server : EdingCncServer) :
    (handle add call.call server).modeLog = server.modeLog ++ [asks call] := by
  cases call <;> simp [handle, ModeCall.call, feedHold, blockDelete, singleStep, optionalStop, send,
    modeLog, asks, modeCommand?]

theorem added_modeLog (add : Double → Double → Double) (server : EdingCncServer)
    (calls : List ModeCall) :
    (machine add).added modeLog server (calls.map ModeCall.call) =
      calls.map fun call => [asks call] := by
  refine @Machine.Guarded.added_eq_map _ _ _ _ _ _ _ _ (fun _ => True) (fun _ _ => True) ?_ ?_
    _ _ (Machine.Guarded.of_forall (fun _ _ => trivial) server) trivial
  · exact fun call _ => ⟨_, rfl⟩
  · rintro server call _ - - ⟨⟩
    exact ⟨trivial, modeLog_handle_call add call server⟩

end EdingCncServer

/-- From any state of the driver for LinuxCNC in which the control accepts every call, and from any
state of the one for EdingCNC, a sequence of calls is lawful exactly when it has no `SingleStep` off
or no `FeedHold` off, respectively. -/
theorem lawful_iff {R : Type} (arith : Arith R) (build : Build) {nextTime : Int}
    {control : EmcStat R} {tape : Nat → NmlAnswer R} {history : List LinuxEvent}
    {server : LinuxCnc R} {calls : List ModeCall}
    (execution : (machine (LinuxCnc.program arith build)).run
      (some (.start arith nextTime control tape)) history = some (some server))
    (accepted : (machine (LinuxCnc.program arith build)).Guarded
      (fun reached _ => ∀ server ∈ reached, server.Accepts) (some server)
      (calls.map ModeCall.event))
    (add : Double → Double → Double) (eding : EdingCncServer) (modes : Modes) :
    (Lawful modes calls ((machine (LinuxCnc.program arith build)).added
          (fun reached => reached.elim [] LinuxCnc.modeLog) (some server)
          (calls.map ModeCall.event)) ↔
        .singleStep false ∉ calls) ∧
      (Lawful modes calls ((EdingCncServer.machine add).added EdingCncServer.modeLog eding
          (calls.map ModeCall.call)) ↔
        .feedHold false ∉ calls) := by
  constructor
  · have linked := LinuxCnc.linked_of_reached arith build execution
    rw [LinuxCnc.added_modeLog arith build linked accepted]
    exact LinuxCnc.lawful_asks_iff modes calls
  · rw [EdingCncServer.added_modeLog add eding calls]
    exact EdingCncServer.lawful_asks_iff modes calls

/-- A connected control that accepts switches for each of its modes. -/
theorem lawful_of_switches :
    ∃ server : LinuxCnc ℚ,
      (machine (LinuxCnc.program (.exact fun _ => 0) ⟨false, 255⟩)).run
          (some (.start (.exact fun _ => 0) 0 .rest fun index =>
            ⟨if index < 6 then 1 else 0, .rest, false⟩)) [.connectNml] = some (some server) ∧
        Lawful ⟨false, false, false, false⟩
          [.feedHold true, .singleStep true, .feedHold false, .blockDelete true, .optionalStop true,
            .blockDelete false]
          ((machine (LinuxCnc.program (.exact fun _ => 0) ⟨false, 255⟩)).added
            (fun reached => reached.elim [] LinuxCnc.modeLog) (some server)
            (List.map ModeCall.event [.feedHold true, .singleStep true, .feedHold false,
              .blockDelete true, .optionalStop true, .blockDelete false])) := by
  obtain ⟨_ | server, execution, connected, accepted⟩ : ∃ reached ∈
      (machine (LinuxCnc.program (.exact fun _ => 0) ⟨false, 255⟩)).run
        (some (.start (.exact fun _ => 0) 0 .rest fun index =>
          ⟨if index < 6 then 1 else 0, .rest, false⟩)) [.connectNml],
      reached.isSome = true ∧
        (machine (LinuxCnc.program (.exact fun _ => 0) ⟨false, 255⟩)).Guarded
          (fun reached _ => ∀ server ∈ reached, server.Accepts) reached
          (List.map ModeCall.event [.feedHold true, .singleStep true, .feedHold false,
            .blockDelete true, .optionalStop true, .blockDelete false]) := by
    decide +kernel
  · cases connected
  · refine ⟨server, execution, ?_⟩
    exact (lawful_iff _ _ execution accepted (fun left _ => left)
      ⟨0, ⟨fun _ => 0⟩, [], [], []⟩ _).1.mpr (by decide)

/-- `SingleStep` off steps the program of LinuxCNC, and `FeedHold` off pauses the one of EdingCNC,
although both controls accept the command. -/
theorem not_lawful_of_off :
    (∃ reached ∈ (machine (LinuxCnc.program (.exact fun _ => 0) ⟨false, 255⟩)).run
        (some (.start (.exact fun _ => 0) 0 .rest fun index =>
          ⟨if index < 6 then 1 else 0, .rest, false⟩)) [.connectNml],
      (∃ server ∈ reached, server.Accepts) ∧
        ¬Lawful ⟨false, false, false, false⟩ [.singleStep false]
          ((machine (LinuxCnc.program (.exact fun _ => 0) ⟨false, 255⟩)).added
            (fun reached => reached.elim [] LinuxCnc.modeLog) reached
            [.call (.singleStep false)])) ∧
      ¬Lawful ⟨true, false, false, false⟩ [.feedHold false]
        ((EdingCncServer.machine fun left _ => left).added EdingCncServer.modeLog
          ⟨0, ⟨fun _ => 0⟩, [], [], []⟩ [.feedHold false]) := by
  decide +kernel

end CncRemote
