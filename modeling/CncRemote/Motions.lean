import CncRemote.JogCache
import CncRemote.Transcript

/-!
# Commands to LinuxCNC

Every request to the server for LinuxCNC has a script: the commands that it may send, in order and
each of them once at most.  `scripted_of_run` says that nothing else is ever sent: no connect, no
look at the state and no answer of the control makes the server command a motion.
-/

namespace CncRemote

open Program

namespace LinuxCnc

variable {R : Type}

/-- The commands that were sent, oldest first. -/
def commands (server : LinuxCnc R) : List (NmlCommand R) := server.sent.map Prod.fst

variable (arith : Arith R) (build : Build)

/-- A jog of an axis, or the end of one. -/
def Jogs (axis : Fin maxAxes) (cmd : NmlCommand R) : Prop :=
  (∃ mode vel, cmd = .jog mode axis vel) ∨ ∃ mode, cmd = .jogStop mode axis

/-- A step of an axis. -/
def Steps (axis : Fin maxAxes) (incr : R) (cmd : NmlCommand R) : Prop :=
  ∃ mode vel, cmd = .jogIncr mode axis vel incr

/-- All axes are homed at once, or each of them. -/
def homes (axes : BoolAxes) : List (NmlCommand R → Prop) :=
  if axes.array 0 ∧ axes.array 1 ∧ axes.array 2 then [(· = .home (-1))]
  else (List.finRange maxAxes).map fun (ct : Fin maxAxes) cmd => cmd = .home (Int32.ofNat ct)

/-- The commands of a request. -/
def script : ServerCall → List (NmlCommand R → Prop)
  | .drivesOn true => [(· = .setState .estopReset), (· = .setState .on)]
  | .drivesOn false => [(· = .setState .off)]
  | .jogVel _ => (· = .setMode .manual) :: (List.finRange maxAxes).map Jogs
  | .jogStep distance _ =>
      (· = .setMode .manual) :: (· = .setTeleopEnable true) ::
        (List.finRange maxAxes).flatMap fun axis =>
          let val := arith.number (distance.array axis)
          if arith.eq val (arith.ofInt 0) then [] else [Steps axis val]
  | .mdi text => [(· = .setMode .mdi), (· = .planExecute (line build text))]
  | .feedOverride percent => [(· = .setScale (override arith percent))]
  | .spindleOverride percent => [(· = .setSpindleScale (override arith percent))]
  | .rapidOverride percent => [(· = .setRapidScale (override arith percent))]
  | .loadFile fileName => [(· = .planOpen (line build fileName))]
  | .closeFile | .sendInit _ => [(· = .planOpen [])]
  | .cycleStart => [(· = .setMode .auto), (· = .planRun 0)]
  | .cycleStop => [(· = .abort)]
  | .feedHold true => [(· = .planPause)]
  | .feedHold false => [(· = .planResume)]
  | .blockDelete state => [(· = .planSetBlockDelete state)]
  | .singleStep _ => [(· = .planStep)]
  | .optionalStop state => [(· = .planSetOptionalStop state)]
  | .home axes => (· = .setMode .manual) :: (· = .setTeleopEnable true) :: homes axes
  | .getState_ | .getOffset _ | .getGCodes | .getMCodes | .sendData _ _ | .getError _
  | .getMessage _ | .version | .startPreview _ | .getPreview | .endPreview => []

/-- The commands of a call: only requests have any. -/
def eventScript : LinuxEvent → List (NmlCommand R → Prop)
  | .connectNml | .connectLCnc | .disconnectNml => []
  | .call call => script arith build call

variable {arith build}

theorem frames_commands {α : Type} {program : Program (LinuxCnc R) α}
    (frames : program.Frames driven) : program.Frames commands :=
  frames.comp fun part => part.2.1.map Prod.fst

section Send

variable {cmd : NmlCommand R} {line : NmlCommand R → Prop}

theorem commandSend_follows (meets : line cmd) : (commandSend cmd).Follows commands [line] := by
  refine .after (frames_commands transmit_frames) fun accepted => ?_
  rintro server _ _ ⟨⟩
  exact ⟨[cmd], List.map_append, .single meets⟩

theorem command_follows (meets : line cmd) : (command cmd).Follows commands [line] :=
  .map _ (commandSend_follows meets)

theorem commandSend_exact (cmd : NmlCommand R) :
    (commandSend cmd).Follows commands [(· = cmd)] := commandSend_follows rfl

theorem command_exact (cmd : NmlCommand R) : (command cmd).Follows commands [(· = cmd)] :=
  command_follows rfl

end Send

theorem setMode_follows (mode : TaskMode) :
    (setMode mode : Program (LinuxCnc R) Bool).Follows commands [(· = .setMode mode)] :=
  .after (frames_commands readStatus_frames) fun _ =>
    .ite (fun _ => .pure _) fun _ => commandSend_exact _

theorem connected_follows {α : Type} (absent : α) {body : Program (LinuxCnc R) α}
    {lines : List (NmlCommand R → Prop)} (follows : body.Follows commands lines) :
    (connected absent body).Follows commands lines :=
  .after .get fun _ => .ite (fun _ => .pure _) fun _ => follows

variable (arith build)

theorem sendJog_follows (axis : Fin maxAxes) (vel : R) :
    (sendJog arith build axis vel).Follows commands [Jogs axis] := by
  refine .after .get fun server => .ite (fun _ => .pure _) fun _ => .after ?_ fun mode => ?_
  · exact .ite (.pure _) (.bind (frames_commands readStatus_frames) fun _ => .pure _)
  · refine .before (command_follows ?_) fun _ => .modify fun _ => rfl
    split
    · exact .inr ⟨mode, rfl⟩
    · exact .inl ⟨mode, vel, rfl⟩

theorem sendJogVel_follows (velocities : Axes R) :
    (sendJogVel arith build velocities).Follows commands ((List.finRange maxAxes).map Jogs) := by
  rw [List.map_eq_flatMap]
  exact .forM (fun axis => .after .get fun server => sendJog_follows arith build axis _) _

theorem sendJogStep_follows (axis : Fin maxAxes) (val : R) :
    (sendJogStep arith build axis val).Follows commands [Steps axis val] := by
  refine .after (frames_commands readStatus_frames) fun status => .after .get fun server => ?_
  exact command_follows ⟨_, _, rfl⟩

theorem jogStep_follows (distance : Axes Double) (speed : Double) :
    (jogStep arith build distance speed).Follows commands
      (script arith build (.jogStep distance speed)) := by
  refine connected_follows _ (.bind (setMode_follows _) fun _ => ?_)
  refine .bind (commandSend_exact _) fun accepted => ?_
  cases accepted with
  | false => exact .pure _
  | true =>
  refine .forM (fun axis => ?_) _
  by_cases zero : arith.eq (arith.number (distance.array axis)) (arith.ofInt 0) = true
  · simp only [zero, if_true]
    exact .pure _
  · simp only [zero]
    exact sendJogStep_follows arith build axis _

theorem home_follows (axes : BoolAxes) :
    (home axes).Follows commands (script arith build (.home axes)) := by
  refine connected_follows _ (.bind (setMode_follows _) fun _ => ?_)
  refine .bind (command_exact _) fun _ => ?_
  change Follows _ commands (homes axes)
  by_cases all : axes.array 0 ∧ axes.array 1 ∧ axes.array 2
  · rw [homes, if_pos all, if_pos all]
    exact command_exact _
  · rw [homes, if_neg all, if_neg all, List.map_eq_flatMap]
    exact .forM (fun ct => command_exact _) _

theorem updateState_frames_commands : (updateState arith).Frames commands := by
  refine .bind .get fun _ => .ite (.modify fun _ => rfl) ?_
  refine .bind (frames_commands reachable_frames) fun _ => .ite (.pure _) ?_
  refine .bind (frames_commands alive_frames) fun _ => .ite ?_ ?_
  · exact .bind (.modify fun _ => rfl) fun _ => frames_commands disconnectNml_frames
  · exact .bind (frames_commands readStatus_frames) fun _ => .modify fun _ => rfl

theorem handle_follows (call : ServerCall) :
    (handle arith build call).Follows commands (script arith build call) := by
  cases call with
  | getState_ =>
      refine .map _ (.after (updateState_frames_commands arith) fun _ => .after .get fun _ => ?_)
      exact .pure _
  | drivesOn state =>
      cases state with
      | true => exact connected_follows _ (.bind (command_exact _) fun _ => command_exact _)
      | false => exact connected_follows _ (command_exact _)
  | jogVel velocities =>
      refine connected_follows _ (.bind (setMode_follows _) fun _ => ?_)
      exact sendJogVel_follows arith build _
  | jogStep distance speed => exact jogStep_follows arith build distance speed
  | mdi text =>
      refine .map _ (connected_follows _ (.bind (setMode_follows _) fun _ => ?_))
      exact commandSend_exact _
  | loadFile | closeFile | sendInit =>
      exact .map _ (connected_follows _ (commandSend_exact _))
  | cycleStart =>
      exact connected_follows _ (.bind (setMode_follows _) fun _ => command_exact _)
  | feedHold state => cases state <;> exact connected_follows _ (command_exact _)
  | feedOverride | spindleOverride | rapidOverride | cycleStop | blockDelete | singleStep
    | optionalStop => exact connected_follows _ (command_exact _)
  | home axes => exact home_follows arith build axes
  | getOffset index =>
      refine .map _ (connected_follows _ (.of_frames ?_))
      refine .bind (frames_commands readStatus_frames) fun _ => .ite (.pure _) ?_
      exact .ite (.pure _) (.ite (.pure _) (.pure _))
  | getGCodes | getMCodes =>
      refine .map _ (connected_follows _ (.of_frames ?_))
      exact .bind (frames_commands readStatus_frames) fun _ => .pure _
  | sendData | getError | getMessage | version | startPreview | getPreview | endPreview =>
      exact .pure _

theorem program_follows (event : LinuxEvent) :
    (program arith build event).Follows commands (eventScript arith build event) := by
  cases event with
  | connectNml => exact .map _ (.of_frames (frames_commands connectNml_frames))
  | connectLCnc => exact .map _ (.of_frames (frames_commands (connectLCnc_frames arith)))
  | disconnectNml => exact .of_frames (frames_commands disconnectNml_frames)
  | call call => exact handle_follows arith build call

/-- Over a whole run, whatever the library answers and however often the control comes and goes,
the commands of every call are those of its script: in order, each of them once at most, and no
others. -/
theorem scripted_of_run (nextTime : Int) (control : EmcStat R) (tape : Nat → NmlAnswer R)
    (events : List LinuxEvent) :
    List.Forall₂ (fun event => Performs (eventScript arith build event)) events
      ((machine (program arith build)).added (fun reached => reached.elim [] commands)
        (some (start arith nextTime control tape)) events) := by
  obtain ⟨final, ran, -⟩ := run_of_keeps (program_keeps arith build)
    (start_linked arith nextTime control tape) events
  let reaches (reached : Option (LinuxCnc R)) : Prop := ∃ server ∈ reached, server.Linked
  refine @Machine.forall₂_added _ _ _ _ _ _ reaches (fun {reached event next} held step => ?_) _ _ _
    ⟨_, rfl, start_linked arith nextTime control tape⟩ ran
  obtain ⟨server, rfl, linked⟩ := held
  obtain ⟨value, after, runs, kept⟩ := program_keeps arith build event server linked
  have again := step_eq_some_some.mpr ⟨value, runs⟩
  obtain rfl := Option.some.inj (step.symm.trans again)
  exact ⟨⟨after, rfl, kept⟩, program_follows arith build event runs⟩

end LinuxCnc

end CncRemote
