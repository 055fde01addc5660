import CncRemote.Heartbeat
import CncRemote.Operator
import CncRemote.Protocols

/-!
# The main loop of the LinuxCNC server

The main thread connects to the control, polls it until it is gone, disconnects and connects again,
while other threads run requests.  It holds no lock while it connects and disconnects, so requests
come between any two calls of the NML library: `undisturbed_iff` says which of them pull the
channels away from under it, and `up_of_turns` how soon it has connected again to a control that
answers.
-/

namespace CncRemote

open Program

/-- Where the main thread is: what it does next, up to the next call of the library. -/
inductive MainPhase where
  /-- At the start of `ConnectNml`, in the loop of `ConnectLCnc`. -/
  | openCommand
  | validCommand
  | openStatus
  | validStatus
  | peekStatus
  | openError
  | validError
  /-- In `OK`, at the end of `ConnectNml` or, when it is connected, at the end of `ConnectLCnc`. -/
  | okStatus (connected : Bool)
  | okError (connected : Bool)
  /-- In `ConnectLCnc`, after its loop. -/
  | peek
  | read
  /-- In the loop that calls `Poll`. -/
  | polling
  /-- At the start of `DisconnectNml`. -/
  | deleteCommand
  | deleteStatus
  | deleteError
  | clear
  deriving DecidableEq, Repr

namespace MainPhase

/-- After `OK`.  What `ConnectLCnc` returns is not used. -/
def afterOk (connected up : Bool) : MainPhase :=
  if connected then .polling else if up then .peek else .openCommand

/-- The main thread relies on channels that it has opened. -/
def Connecting : MainPhase → Prop
  | .openCommand | .polling | .deleteCommand | .deleteStatus | .deleteError | .clear => False
  | .validCommand | .openStatus | .validStatus | .peekStatus | .openError | .validError
    | .okStatus _ | .okError _ | .peek | .read => True

/-- A channel has been deleted and its pointer has not been cleared. -/
def Deleting : MainPhase → Prop
  | .deleteStatus | .deleteError | .clear => True
  | _ => False

theorem Connecting.not_deleting {phase : MainPhase} (connecting : phase.Connecting) :
    ¬phase.Deleting := by
  cases phase <;> first | exact not_false | cases connecting

end MainPhase

/-- The server and its main thread. -/
structure MainLoop (R : Type) where
  phase : MainPhase
  server : LinuxCnc R
  operator : OperatorLog

/-- What the main thread does up to the next call of the library, with what the error channel shows,
or a request. -/
inductive MainEvent where
  | turn (peek : Peek)
  | call (call : ServerCall)

namespace LinuxCnc

variable {R : Type} (arith : Arith R) (build : Build)

/-- What the main thread does outside its loop that calls `Poll`, and where that brings it. -/
def advance : MainPhase → Program (LinuxCnc R) MainPhase
  | .openCommand => do
      if (← get).emcCommandBuffer = none then
        let channel ← newChannel
        modify fun server => { server with emcCommandBuffer := channel }
        return .validCommand
      else
        return .openStatus
  | .validCommand => do
      if (← valid (← get).emcCommandBuffer) = false then
        return .deleteCommand
      else
        return .openStatus
  | .openStatus => do
      if (← get).emcStatusBuffer = none then
        let channel ← newChannel
        modify fun server => { server with emcStatusBuffer := channel }
        return .validStatus
      else
        return .openError
  | .validStatus => do
      if (← valid (← get).emcStatusBuffer) = false then
        return .deleteCommand
      else
        return .peekStatus
  | .peekStatus => do
      if (← peekStatus) ≤ 0 then
        return .deleteCommand
      else
        modify fun server => { server with emcStatus := server.emcStatusBuffer }
        return .openError
  | .openError => do
      if (← get).emcErrorBuffer = none then
        let channel ← newChannel
        modify fun server => { server with emcErrorBuffer := channel }
        return .validError
      else
        return .okStatus false
  | .validError => do
      if (← valid (← get).emcErrorBuffer) = false then
        return .deleteCommand
      else
        return .okStatus false
  | .okStatus connected => do
      let server ← get
      if server.emcStatus = none then
        return .afterOk connected false
      else if server.emcStatusBuffer = none then
        return .afterOk connected false
      else if (← valid server.emcStatusBuffer) = false then
        return .afterOk connected false
      else
        return .okError connected
  | .okError connected => do
      let server ← get
      if server.emcErrorBuffer = none then
        return .afterOk connected false
      else
        return .afterOk connected (← valid server.emcErrorBuffer)
  | .peek => do
      if (← peekStatus) = -1 then
        return .polling
      else
        return .read
  | .read => do
      if (← readControl arith) = false then
        return .polling
      else
        return .okStatus true
  | .polling => return .polling
  | .deleteCommand => do
      deleteChannel (← get).emcCommandBuffer
      return .deleteStatus
  | .deleteStatus => do
      deleteChannel (← get).emcStatusBuffer
      return .deleteError
  | .deleteError => do
      deleteChannel (← get).emcErrorBuffer
      return .clear
  | .clear => do
      modify fun server =>
        { server with
          emcCommandBuffer := none
          emcStatusBuffer := none
          emcStatus := none
          emcErrorBuffer := none }
      return .openCommand

section Requests

variable {server next : LinuxCnc R} {call : ServerCall}

theorem ends_handle_of_none (null : server.emcStatus = none) (call : ServerCall) :
    (handle arith build call).Ends server fun _ next => next.pointers = server.pointers := by
  have absent {α : Type} (value : α) (body : Program (LinuxCnc R) α) :
      (connected value body).Ends server fun _ next => next.pointers = server.pointers := by
    rw [connected, ends_bind, ends_get, if_pos null, ends_pure]
  cases call with
  | getState_ =>
      simp only [handle, getState_, updateState, setMachineState, ends_map, ends_bind, ends_get,
        if_pos null, ends_modify, ends_pure]
      rfl
  | drivesOn | jogVel | jogStep | feedOverride | spindleOverride | rapidOverride | cycleStart
    | cycleStop | feedHold | blockDelete | singleStep | optionalStop | home => exact absent _ _
  | mdi | loadFile | closeFile | sendInit | getOffset | getGCodes | getMCodes =>
      exact (ends_map _ _ _ _).mpr (absent _ _)
  | sendData | getError | getMessage | version | startPreview | getPreview | endPreview =>
      exact (ends_pure _ _ _).mpr rfl

/-- The pointers are as they were, or `DisconnectNml` has cleared them. -/
def Steady (kept : Heap × Pointer × Pointer × Pointer × Pointer) (server : LinuxCnc R) : Prop :=
  server.pointers = kept ∨ server.emcStatus = none ∧ server.emcCommandBuffer = none

section Steady

variable {kept : Heap × Pointer × Pointer × Pointer × Pointer}

theorem ask_steady : (ask : Program (LinuxCnc R) (NmlAnswer R)).Preserves (Steady kept) := by
  rintro server _ _ steady ⟨⟩
  exact steady

theorem library_steady : (library : Program (LinuxCnc R) Int).Preserves (Steady kept) :=
  .bind ask_steady fun _ => .bind (.modify fun _ steady => steady) fun _ => .pure _

theorem time_steady : (time : Program (LinuxCnc R) Int).Preserves (Steady kept) :=
  .bind ask_steady fun _ => .pure _

theorem peekStatus_steady : (peekStatus : Program (LinuxCnc R) Int).Preserves (Steady kept) := by
  refine .bind .get fun _ => .bind (follow_preserves _) fun _ => .bind library_steady fun _ => ?_
  exact .ite (.pure _) (.bind (.modify fun _ steady => steady) fun _ => .pure _)

theorem valid_steady (channel : Pointer) :
    (valid channel : Program (LinuxCnc R) Bool).Preserves (Steady kept) :=
  .bind (follow_preserves channel) fun _ => .bind library_steady fun _ => .pure _

theorem ok_steady : (ok : Program (LinuxCnc R) Bool).Preserves (Steady kept) := by
  refine .bind .get fun _ => .ite (.pure _) (.ite (.pure _) (.bind (valid_steady _) fun _ => ?_))
  exact .ite (.pure _) (.ite (.pure _) (valid_steady _))

theorem disconnectNml_steady :
    (disconnectNml : Program (LinuxCnc R) Unit).Preserves (Steady kept) := by
  intro server value next _ runs
  -- three channels are deleted first
  obtain ⟨_, -, runs⟩ := Option.bind_eq_some_iff.mp runs
  obtain ⟨_, -, runs⟩ := Option.bind_eq_some_iff.mp runs
  obtain ⟨_, -, runs⟩ := Option.bind_eq_some_iff.mp runs
  obtain ⟨⟩ := runs
  exact .inr ⟨rfl, rfl⟩

theorem updateState_steady : (updateState arith).Preserves (Steady kept) := by
  have offline : (setMachineState .offline : Program (LinuxCnc R) Unit).Preserves (Steady kept) :=
    .modify fun _ steady => steady
  refine .bind .get fun _ => .ite offline (.bind (.bind ok_steady fun _ => ?_) fun _ => ?_)
  · exact .ite (.pure _) (.bind peekStatus_steady fun _ => .pure _)
  refine .ite (.pure _) (.bind ?_ fun _ => .ite (.bind offline fun _ => disconnectNml_steady) ?_)
  · refine .bind time_steady fun _ => .bind .get fun _ => .ite (.pure _) ?_
    refine .bind readStatus_preserves fun _ => .bind .get fun _ => .ite (.pure _) ?_
    exact .bind time_steady fun _ => .bind (.modify fun _ steady => steady) fun _ => .pure _
  · exact .bind readStatus_preserves fun _ => .modify fun _ steady => steady

theorem handle_steady (call : ServerCall) :
    (handle arith build call).Preserves (Steady kept) := by
  by_cases reads : call = .getState_
  · subst reads
    exact .map _ (.bind (updateState_steady arith) fun _ => .bind .get fun _ => .pure _)
  · refine handle_preserves arith build (fun cmd => ?_) (fun _ _ steady => steady) reads
    refine .bind ?_ fun _ => .bind (.modify fun _ steady => steady) fun _ => .pure _
    exact transmit_preserves ask_steady library_steady peekStatus_steady

end Steady

/-- `GetState_` does not find that the heartbeat has stopped: it is too early to look, or the beat
is not the one that the server knows from before. -/
def Unharmed (server : LinuxCnc R) (call : ServerCall) : Prop :=
  ∀ look ∈ server.glance call, look.time ≤ server.nextTime ∨ server.heartbeat ≠ look.beat

theorem glance_of_none (null : server.emcStatus = none) (call : ServerCall) :
    server.glance call = none := by
  have blind : reachable.Ends server fun up _ => up = false := by
    simp only [reachable, ok, ends_bind, ends_get, null, if_true, ends_pure]
  obtain ⟨_, next, runs, rfl⟩ := blind
  cases call with
  | getState_ => simp only [glance, runs]
  | _ => rfl

theorem watch_glance_eq_none_iff :
    (Watchdog.mk server.heartbeat server.nextTime).watch (server.glance call).toList = none ↔
      ¬server.Unharmed call := by
  rw [Unharmed]
  cases glance : server.glance call with
  | none => exact iff_of_false nofun fun harmed => harmed nofun
  | some look =>
      rw [Option.toList_some, Watchdog.watch_cons]
      rcases lt_or_ge server.nextTime look.time with late | early
      · by_cases same : server.heartbeat = look.beat
        · rw [Watchdog.look_of_same late same]
          refine iff_of_true rfl fun unharmed => ?_
          rcases unharmed look rfl with early | new
          · exact absurd late (Int.not_lt.mpr early)
          · exact new same
        · rw [Watchdog.look_of_new late same]
          refine iff_of_false nofun (not_not.mpr ?_)
          rintro _ ⟨⟩
          exact .inr same
      · rw [Watchdog.look_of_early early]
        refine iff_of_false nofun (not_not.mpr ?_)
        rintro _ ⟨⟩
        exact .inl early

/-- A request disconnects if it finds that the heartbeat has stopped, and otherwise leaves the
pointers as they are. -/
theorem Connected.ends_handle (connected : server.Connected) (call : ServerCall) :
    (handle arith build call).Ends server fun _ next =>
      server.Unharmed call ∧ next.pointers = server.pointers ∨
        ¬server.Unharmed call ∧ next.emcStatus = none ∧ next.emcCommandBuffer = none := by
  obtain ⟨value, next, runs, -⟩ := handle_keeps arith build call server connected.1
  refine ⟨value, next, runs, ?_⟩
  have watches := watchdog_handle arith build connected.1 runs
  rw [watchdog_of_ne connected.2, Option.bind_some] at watches
  have closed : next.emcStatus = none ↔ ¬server.Unharmed call := by
    rw [← watchdog_eq_none_iff, watches, watch_glance_eq_none_iff]
  rcases handle_steady arith build call (.inl rfl) runs with same | cleared
  · refine .inl ⟨not_not.mp (mt closed.mpr ?_), same⟩
    simp only [pointers, Prod.mk.injEq] at same
    rw [same.2.2.2.1]
    exact connected.2
  · exact .inr ⟨closed.mp cleared.1, cleared⟩

end Requests

section Advance

variable {server next : LinuxCnc R}

/-- The pointers as the main thread leaves them. -/
def SoundAt (server : LinuxCnc R) : MainPhase → Prop
  | .openCommand | .polling => server.Linked
  | .validCommand | .openStatus => server.Linked ∧ server.emcCommandBuffer ≠ none
  | .validStatus | .peekStatus =>
      server.Held ∧ server.emcStatus = none ∧ server.emcCommandBuffer ≠ none ∧
        server.emcStatusBuffer ≠ none
  | .openError => server.Connected
  | .validError | .okStatus _ | .okError _ | .peek | .read =>
      server.Connected ∧ server.emcErrorBuffer ≠ none
  | .deleteCommand => server.Held ∧ (server.emcStatus ≠ none → server.Linked)
  | .deleteStatus => server.heap.Owned [none, server.emcStatusBuffer, server.emcErrorBuffer]
  | .deleteError => server.heap.Owned [none, none, server.emcErrorBuffer]
  | .clear => server.heap.Owned [none, none, none]

theorem SoundAt.congr {phase : MainPhase} (sound : server.SoundAt phase)
    (same : next.pointers = server.pointers) : next.SoundAt phase := by
  obtain ⟨heap, command, status, emcStatus, error⟩ :
      next.heap = server.heap ∧ next.emcCommandBuffer = server.emcCommandBuffer ∧
        next.emcStatusBuffer = server.emcStatusBuffer ∧ next.emcStatus = server.emcStatus ∧
          next.emcErrorBuffer = server.emcErrorBuffer := by
    simpa only [pointers, Prod.mk.injEq] using same
  cases phase with
  | openCommand | polling => exact Linked.congr sound same
  | validCommand | openStatus => exact ⟨sound.1.congr same, command ▸ sound.2⟩
  | validStatus | peekStatus =>
      exact ⟨sound.1.congr same, emcStatus ▸ sound.2.1, command ▸ sound.2.2.1,
        status ▸ sound.2.2.2⟩
  | openError => exact Connected.congr sound same
  | validError | okStatus | okError | peek | read =>
      exact ⟨sound.1.congr same, error ▸ sound.2⟩
  | deleteCommand =>
      exact ⟨sound.1.congr same, fun nonnull => (sound.2 (emcStatus ▸ nonnull)).congr same⟩
  | deleteStatus | deleteError | clear =>
      rw [SoundAt] at sound ⊢
      simpa only [heap, status, error] using sound

theorem Connected.soundAt_deleteCommand (connected : server.Connected) :
    server.SoundAt .deleteCommand := ⟨connected.1.held, fun _ => connected.1⟩

theorem Connected.soundAt_afterOk (connected : server.Connected)
    (error : server.emcErrorBuffer ≠ none) (last up : Bool) :
    server.SoundAt (.afterOk last up) := by
  cases last with
  | true => exact connected.1
  | false =>
      cases up with
      | true => exact ⟨connected, error⟩
      | false => exact connected.1

theorem Connected.ends_readControl (connected : server.Connected) :
    (readControl arith).Ends server fun _ next => next.pointers = server.pointers := by
  simp only [readControl, LinuxCnc.readStatus, ends_bind, ends_get, ends_follow, ends_pure,
    ends_ite, ends_modify, ends_time]
  refine ⟨connected.live, ?_⟩
  split <;> rfl

theorem ends_ifValid {channel : Pointer} {no yes : MainPhase} (live : server.heap.Live channel)
    (failed : server.SoundAt no) (found : server.SoundAt yes) :
    (valid channel >>= fun up => if up = false then pure no else pure yes).Ends server
      fun next after => after.SoundAt next := by
  rw [ends_bind]
  refine (ends_valid live).mono fun up after same => ?_
  rw [ends_ite]
  split
  · exact (ends_pure _ _ _).mpr (failed.congr same)
  · exact (ends_pure _ _ _).mpr (found.congr same)

/-- The main thread finds the channels that it is about to use. -/
theorem SoundAt.advance {phase : MainPhase} (sound : server.SoundAt phase) :
    (advance arith phase).Ends server fun next after => after.SoundAt next := by
  cases phase with
  | openCommand =>
      have linked : server.Linked := sound
      rw [LinuxCnc.advance, ends_bind, ends_get, ends_ite]
      split
      · rename_i null
        have held := linked.held
        rw [Held, null] at held
        simp only [ends_bind, ends_newChannel, ends_modify, ends_pure]
        exact ⟨⟨linked.status, fun _ => Option.some_ne_none _, held.new⟩, Option.some_ne_none _⟩
      · exact (ends_pure _ _ _).mpr ⟨linked, ‹_›⟩
  | validCommand =>
      rw [LinuxCnc.advance, ends_bind, ends_get]
      exact ends_ifValid (sound.1.held.live_command sound.2) ⟨sound.1.held, fun _ => sound.1⟩ sound
  | openStatus =>
      obtain ⟨linked, command⟩ := sound
      rw [LinuxCnc.advance, ends_bind, ends_get, ends_ite]
      split
      · rename_i null
        have held := linked.held
        rw [Held, null] at held
        simp only [ends_bind, ends_newChannel, ends_modify, ends_pure]
        exact ⟨Heap.Owned.new_at [_] held, linked.status.trans null, command,
          Option.some_ne_none _⟩
      · exact (ends_pure _ _ _).mpr ⟨linked, linked.status ▸ ‹_›⟩
  | validStatus =>
      obtain ⟨held, null, -, status⟩ := id sound
      rw [LinuxCnc.advance, ends_bind, ends_get]
      exact ends_ifValid (held.live_status status) ⟨held, fun nonnull => absurd null nonnull⟩ sound
  | peekStatus =>
      obtain ⟨held, null, command, status⟩ := id sound
      rw [LinuxCnc.advance, ends_bind]
      refine (ends_peekStatus (held.live_status status)).mono fun type after same => ?_
      rw [ends_ite]
      split
      · have failed : server.SoundAt .deleteCommand :=
          ⟨held, fun nonnull => absurd null nonnull⟩
        exact (ends_pure _ _ _).mpr (failed.congr same)
      · obtain ⟨held, -, command, status⟩ := sound.congr same
        simp only [ends_bind, ends_modify, ends_pure]
        exact ⟨⟨rfl, fun _ => command, held⟩, status⟩
  | openError =>
      obtain ⟨linked, nonnull⟩ := id sound
      rw [LinuxCnc.advance, ends_bind, ends_get, ends_ite]
      split
      · rename_i null
        have held := linked.held
        rw [Held, null] at held
        simp only [ends_bind, ends_newChannel, ends_modify, ends_pure]
        exact ⟨⟨⟨linked.status, linked.command, Heap.Owned.new_at [_, _] held⟩, nonnull⟩,
          Option.some_ne_none _⟩
      · exact (ends_pure _ _ _).mpr ⟨sound, ‹_›⟩
  | validError =>
      obtain ⟨connected, error⟩ := id sound
      rw [LinuxCnc.advance, ends_bind, ends_get]
      exact ends_ifValid (connected.1.held.live_error error) connected.soundAt_deleteCommand sound
  | okStatus last =>
      obtain ⟨connected, error⟩ := id sound
      rw [LinuxCnc.advance, ends_bind, ends_get, if_neg connected.2,
        if_neg connected.statusBuffer]
      exact ends_ifValid connected.live_status (connected.soundAt_afterOk error last false) sound
  | okError last =>
      obtain ⟨connected, error⟩ := id sound
      rw [LinuxCnc.advance, ends_bind, ends_get, if_neg error, ends_bind]
      refine (ends_valid (connected.1.held.live_error error)).mono fun up after same => ?_
      exact (ends_pure _ _ _).mpr ((connected.soundAt_afterOk error last up).congr same)
  | peek =>
      rw [LinuxCnc.advance, ends_bind]
      refine (ends_peekStatus sound.1.live_status).mono fun type after same => ?_
      have kept : after.SoundAt .read := SoundAt.congr sound same
      rw [ends_ite]
      split
      · exact (ends_pure _ _ _).mpr kept.1.1
      · exact (ends_pure _ _ _).mpr kept
  | read =>
      rw [LinuxCnc.advance, ends_bind]
      refine (sound.1.ends_readControl arith).mono fun up after same => ?_
      have kept : after.SoundAt (.okStatus true) := SoundAt.congr sound same
      rw [ends_ite]
      split
      · exact (ends_pure _ _ _).mpr kept.1.1
      · exact (ends_pure _ _ _).mpr kept
  | polling => exact (ends_pure _ _ _).mpr sound
  | deleteCommand =>
      rw [LinuxCnc.advance, ends_bind, ends_get, ends_bind]
      refine (ends_deleteChannel [] sound.1).mono ?_
      rintro - _ ⟨_, owned, rfl⟩
      exact (ends_pure _ _ _).mpr owned
  | deleteStatus =>
      rw [LinuxCnc.advance, ends_bind, ends_get, ends_bind]
      refine (ends_deleteChannel [none] sound).mono ?_
      rintro - _ ⟨_, owned, rfl⟩
      exact (ends_pure _ _ _).mpr owned
  | deleteError =>
      rw [LinuxCnc.advance, ends_bind, ends_get, ends_bind]
      refine (ends_deleteChannel [none, none] sound).mono ?_
      rintro - _ ⟨_, owned, rfl⟩
      exact (ends_pure _ _ _).mpr owned
  | clear =>
      simp only [LinuxCnc.advance, ends_bind, ends_modify, ends_pure]
      exact ⟨rfl, fun nonnull => nonnull, sound⟩

end Advance

/-- The process runs, and the library answers every question that is to come with success; all
statuses, those that have been read already included, are those of a control of the right
version. -/
structure Answering (server : LinuxCnc R) : Prop where
  running : server.exited = false
  success (index : Nat) : 0 < (server.tape index).value
  version (index : Nat) : (server.tape index).status.sizeMatches = true
  control : server.control.sizeMatches = true
  content (channel : Nat) : (server.content channel).sizeMatches = true

section Answering

variable {server : LinuxCnc R}

theorem ask_answering : (ask : Program (LinuxCnc R) (NmlAnswer R)).Preserves Answering := by
  rintro server _ _ ⟨running, success, version, control, content⟩ ⟨⟩
  exact ⟨running, fun index => success (index + 1), fun index => version (index + 1), control,
    content⟩

theorem library_answering : (library : Program (LinuxCnc R) Int).Preserves Answering := by
  rintro server _ _ ⟨running, success, version, control, content⟩ ⟨⟩
  exact ⟨running, fun index => success (index + 1), fun index => version (index + 1), version 0,
    content⟩

theorem peekStatus_answering : (peekStatus : Program (LinuxCnc R) Int).Preserves Answering := by
  refine .bind .get fun _ => .bind (follow_preserves _) fun _ => .bind library_answering fun _ => ?_
  refine .ite (.pure _) (.bind (.modify fun server answering => ?_) fun _ => .pure _)
  obtain ⟨running, success, version, control, content⟩ := answering
  refine ⟨running, success, version, control, fun channel => ?_⟩
  simp only [Function.update_apply]
  split
  · exact control
  · exact content channel

theorem valid_answering (channel : Pointer) :
    (valid channel : Program (LinuxCnc R) Bool).Preserves Answering :=
  .bind (follow_preserves channel) fun _ => .bind library_answering fun _ => .pure _

theorem deleteChannel_answering (pointer : Pointer) :
    (deleteChannel pointer : Program (LinuxCnc R) Unit).Preserves Answering := by
  refine .bind .get fun server => ?_
  cases server.heap.delete pointer with
  | none => exact .fault
  | some heap => exact .modify fun _ answering => { answering with }

theorem handle_answering {call : ServerCall} (other : call ≠ .getState_) :
    (handle arith build call).Preserves Answering := by
  refine handle_preserves arith build (fun cmd => ?_) (fun _ _ answering => { answering with })
    other
  refine .bind ?_ fun _ => .bind (.modify fun _ answering => { answering with }) fun _ => .pure _
  exact transmit_preserves ask_answering library_answering peekStatus_answering

/-- The channels for the status and for errors are open. -/
def Open (server : LinuxCnc R) : Prop := server.emcStatus ≠ none ∧ server.emcErrorBuffer ≠ none

instance : Decidable server.Open := inferInstanceAs (Decidable (_ ∧ _))

theorem Open.congr {next : LinuxCnc R} (opened : server.Open)
    (same : next.pointers = server.pointers) : next.Open := by
  simp only [pointers, Prod.mk.injEq] at same
  obtain ⟨-, -, -, status, error⟩ := same
  exact ⟨status ▸ opened.1, error ▸ opened.2⟩

/-- How many turns are left at most until the main thread polls a control that answers. -/
def distance (server : LinuxCnc R) : MainPhase → Nat
  | .polling => if server.Open then 0 else 18
  | .deleteCommand => 17
  | .deleteStatus => 16
  | .deleteError => 15
  | .clear => 14
  | .openCommand => 13
  | .validCommand => 12
  | .openStatus => 11
  | .validStatus => 10
  | .peekStatus => 9
  | .openError => 8
  | .validError => 7
  | .okStatus false => 6
  | .okError false => 5
  | .peek => 4
  | .read => 3
  | .okStatus true => 2
  | .okError true => 1

namespace Answering

theorem ends_valid (answering : server.Answering) {pointer : Pointer}
    (live : server.heap.Live pointer) :
    (valid pointer).Ends server fun up next =>
      up = true ∧ next.Answering ∧ next.pointers = server.pointers := by
  have nonzero : (server.tape 0).value ≠ 0 := (answering.success 0).ne'
  obtain ⟨up, next, runs, same⟩ := LinuxCnc.ends_valid live
  refine ⟨up, next, runs, ?_, valid_answering pointer answering runs, same⟩
  have ends : (valid pointer).Ends server fun up _ => up = true := by
    simp only [valid, ends_bind, ends_follow, ends_library, ends_pure]
    exact ⟨live, decide_eq_true nonzero⟩
  exact (ends_iff_of_eq runs _).mp ends

theorem ends_peekStatus (answering : server.Answering)
    (live : server.heap.Live server.emcStatusBuffer) :
    peekStatus.Ends server fun type next => 0 < type ∧ next.Answering := by
  have other : (server.tape 0).value ≠ -1 := fun failed => by
    have positive := answering.success 0
    omega
  have positive : peekStatus.Ends server fun type _ => 0 < type := by
    simp only [peekStatus, ends_bind, ends_get, ends_follow, ends_library, ends_ite, ends_pure,
      ends_modify, if_neg other]
    exact ⟨live, answering.success 0⟩
  obtain ⟨type, next, runs, positive⟩ := positive
  exact ⟨type, next, runs, positive, peekStatus_answering answering runs⟩

theorem ends_readControl (answering : server.Answering) (connected : server.Connected) :
    (readControl arith).Ends server fun up next => up = true ∧ next.Answering := by
  have version := answering.content (server.emcStatus.getD 0)
  simp only [readControl, readStatus, ends_bind, ends_get, ends_follow, ends_pure, version,
    Bool.true_eq_false, if_false, ends_time, ends_modify]
  obtain ⟨running, success, right, control, content⟩ := answering
  exact ⟨connected.live, trivial, running, fun index => success (index + 1),
    fun index => right (index + 1), control, content⟩

theorem ends_ifValid (answering : server.Answering) {channel : Pointer} {no yes : MainPhase}
    {left : Nat} (live : server.heap.Live channel)
    (nearer : ∀ after : LinuxCnc R, after.distance yes < left) :
    (valid channel >>= fun up => if up = false then pure no else pure yes).Ends server
      fun next after => after.Answering ∧ after.distance next < left := by
  rw [ends_bind]
  refine (answering.ends_valid live).mono ?_
  rintro _ after ⟨rfl, answering, -⟩
  exact (ends_pure _ _ _).mpr ⟨answering, nearer after⟩

theorem ends_deleteChannel (answering : server.Answering) {pointer : Pointer}
    (front : List Pointer) {back : List Pointer}
    (owned : server.heap.Owned (front ++ pointer :: back)) :
    (deleteChannel pointer).Ends server fun _ next => next.Answering := by
  obtain ⟨value, next, runs, -⟩ := LinuxCnc.ends_deleteChannel front owned
  exact ⟨value, next, runs, deleteChannel_answering pointer answering runs⟩

/-- The main thread comes nearer to polling the control. -/
theorem advance (answering : server.Answering) {phase : MainPhase} (sound : server.SoundAt phase)
    (elsewhere : phase ≠ .polling) :
    (advance arith phase).Ends server fun next after =>
      after.Answering ∧ after.distance next < server.distance phase := by
  cases phase with
  | openCommand =>
      rw [LinuxCnc.advance, ends_bind, ends_get, ends_ite]
      split
      · simp only [ends_bind, ends_newChannel, ends_modify, ends_pure]
        exact ⟨{ answering with }, (by decide : 12 < 13)⟩
      · exact (ends_pure _ _ _).mpr ⟨answering, (by decide : 11 < 13)⟩
  | validCommand =>
      rw [LinuxCnc.advance, ends_bind, ends_get]
      exact answering.ends_ifValid (sound.1.held.live_command sound.2)
        fun _ => (by decide : 11 < 12)
  | openStatus =>
      rw [LinuxCnc.advance, ends_bind, ends_get, ends_ite]
      split
      · simp only [ends_bind, ends_newChannel, ends_modify, ends_pure]
        exact ⟨{ answering with }, (by decide : 10 < 11)⟩
      · exact (ends_pure _ _ _).mpr ⟨answering, (by decide : 8 < 11)⟩
  | validStatus =>
      rw [LinuxCnc.advance, ends_bind, ends_get]
      exact answering.ends_ifValid (sound.1.live_status sound.2.2.2) fun _ => (by decide : 9 < 10)
  | peekStatus =>
      rw [LinuxCnc.advance, ends_bind]
      refine (answering.ends_peekStatus (sound.1.live_status sound.2.2.2)).mono ?_
      rintro type next ⟨positive, answering⟩
      rw [if_neg (not_le.mpr positive)]
      simp only [ends_bind, ends_modify, ends_pure]
      exact ⟨{ answering with }, (by decide : 8 < 9)⟩
  | openError =>
      rw [LinuxCnc.advance, ends_bind, ends_get, ends_ite]
      split
      · simp only [ends_bind, ends_newChannel, ends_modify, ends_pure]
        exact ⟨{ answering with }, (by decide : 7 < 8)⟩
      · exact (ends_pure _ _ _).mpr ⟨answering, (by decide : 6 < 8)⟩
  | validError =>
      rw [LinuxCnc.advance, ends_bind, ends_get]
      exact answering.ends_ifValid (sound.1.1.held.live_error sound.2) fun _ => (by decide : 6 < 7)
  | okStatus last =>
      obtain ⟨connected, error⟩ := sound
      rw [LinuxCnc.advance, ends_bind, ends_get, if_neg connected.2,
        if_neg connected.statusBuffer]
      refine answering.ends_ifValid connected.live_status fun _ => ?_
      cases last with
      | false => exact (by decide : 5 < 6)
      | true => exact (by decide : 1 < 2)
  | okError last =>
      obtain ⟨connected, error⟩ := sound
      rw [LinuxCnc.advance, ends_bind, ends_get, if_neg error, ends_bind]
      refine (answering.ends_valid (connected.1.held.live_error error)).mono ?_
      rintro _ next ⟨rfl, answering, same⟩
      refine (ends_pure _ _ _).mpr ⟨answering, ?_⟩
      cases last with
      | false => exact (by decide : 4 < 5)
      | true =>
          have opened : next.Open := Open.congr ⟨connected.2, error⟩ same
          exact (if_pos opened).trans_lt (by decide : 0 < 1)
  | peek =>
      rw [LinuxCnc.advance, ends_bind]
      refine (answering.ends_peekStatus sound.1.live_status).mono ?_
      rintro type next ⟨positive, answering⟩
      rw [if_neg (by omega)]
      exact (ends_pure _ _ _).mpr ⟨answering, (by decide : 3 < 4)⟩
  | read =>
      rw [LinuxCnc.advance, ends_bind]
      refine (answering.ends_readControl arith sound.1).mono ?_
      rintro _ next ⟨rfl, answering⟩
      exact (ends_pure _ _ _).mpr ⟨answering, (by decide : 2 < 3)⟩
  | polling => exact absurd rfl elsewhere
  | deleteCommand =>
      rw [LinuxCnc.advance, ends_bind, ends_get, ends_bind]
      refine (answering.ends_deleteChannel [] sound.1).mono fun _ next answering => ?_
      exact (ends_pure _ _ _).mpr ⟨answering, (by decide : 16 < 17)⟩
  | deleteStatus =>
      rw [LinuxCnc.advance, ends_bind, ends_get, ends_bind]
      refine (answering.ends_deleteChannel [none] sound).mono fun _ next answering => ?_
      exact (ends_pure _ _ _).mpr ⟨answering, (by decide : 15 < 16)⟩
  | deleteError =>
      rw [LinuxCnc.advance, ends_bind, ends_get, ends_bind]
      refine (answering.ends_deleteChannel [none, none] sound).mono fun _ next answering => ?_
      exact (ends_pure _ _ _).mpr ⟨answering, (by decide : 14 < 15)⟩
  | clear =>
      simp only [LinuxCnc.advance, ends_bind, ends_modify, ends_pure]
      exact ⟨{ answering with }, (by decide : 13 < 14)⟩

theorem ends_ok (answering : server.Answering) (linked : server.Linked) (opened : server.Open) :
    ok.Ends server fun up next =>
      up = true ∧ next.Answering ∧ next.pointers = server.pointers := by
  have connected : server.Connected := ⟨linked, opened.1⟩
  rw [ok, ends_bind, ends_get, if_neg opened.1, if_neg connected.statusBuffer, ends_bind]
  refine (answering.ends_valid connected.live_status).mono ?_
  rintro _ next ⟨rfl, answering, same⟩
  rw [if_neg Bool.true_eq_false_eq_False, if_neg opened.2]
  have live : next.heap.Live server.emcErrorBuffer := by
    rw [(Prod.mk.inj same).1]
    exact linked.held.live_error opened.2
  refine (answering.ends_valid live).mono ?_
  rintro _ after ⟨rfl, answering, same'⟩
  exact ⟨rfl, answering, same'.trans same⟩

end Answering

theorem ok_answering : (ok : Program (LinuxCnc R) Bool).Preserves Answering := by
  refine .bind .get fun _ => .ite (.pure _) (.ite (.pure _) (.bind (valid_answering _) fun _ => ?_))
  exact .ite (.pure _) (.ite (.pure _) (valid_answering _))

theorem open_of_ok {next : LinuxCnc R} (runs : ok server = some (true, next)) : server.Open := by
  have ends : ok.Ends server fun up _ => up = true := ⟨true, next, runs, rfl⟩
  simp only [ok, valid, ends_bind, ends_get, ends_ite, ends_follow, ends_library, ends_pure] at ends
  refine ⟨fun null => ?_, fun null => ?_⟩
  · rw [if_pos null] at ends
    cases ends
  · simp [null] at ends

theorem distance_le (server : LinuxCnc R) (phase : MainPhase) : server.distance phase ≤ 18 := by
  cases phase with
  | polling =>
      rw [distance]
      split <;> decide
  | okStatus last | okError last => cases last <;> simp [distance]
  | _ => simp [distance]

theorem distance_congr {next : LinuxCnc R} {phase : MainPhase}
    (same : next.pointers = server.pointers) : next.distance phase = server.distance phase := by
  have opened : next.Open ↔ server.Open := ⟨fun opened => opened.congr same.symm, (·.congr same)⟩
  cases phase with
  | polling => simp only [distance, opened]
  | okStatus last | okError last => cases last <;> rfl
  | _ => rfl

theorem open_of_distance {phase : MainPhase} (near : server.distance phase = 0) :
    phase = .polling ∧ server.Open := by
  cases phase with
  | polling =>
      refine ⟨rfl, ?_⟩
      by_contra closed
      rw [distance, if_neg closed] at near
      cases near
  | okStatus last | okError last => cases last <;> cases near
  | _ => cases near

end Answering

end LinuxCnc

namespace MainLoop

open LinuxCnc (advance ok)

variable {R : Type} (arith : Arith R) (build : Build)

/-- A function of the server. -/
def onServer {α : Type} : Program (LinuxCnc R) α → Program (MainLoop R) α :=
  inside MainLoop.server fun server loop => { loop with server }

/-- The main thread goes on. -/
def enter (phase : MainPhase) : Program (MainLoop R) Unit := modify fun loop => { loop with phase }

/-- `LinuxCnc::Poll`, during which no `GetState_` runs. -/
def poll (peek : Peek) : Program (MainLoop R) Bool := do
  let up ← onServer ok
  let (value, operator) := OperatorLog.poll build.lineLen up peek (← get).operator
  modify fun loop => { loop with operator }
  return value

/-- A turn of the loops in `main`. -/
def turn (peek : Peek) : Program (MainLoop R) Unit := do
  let phase := (← get).phase
  if phase = .polling then
    if (← poll build peek) = false then
      enter .deleteCommand
    else
      return
  else
    enter (← onServer (advance arith phase))

/-- An event while the process runs. -/
def action : MainEvent → Program (MainLoop R) Unit
  | .turn peek => turn arith build peek
  | .call call => onServer (LinuxCnc.handle arith build call)

/-- The program of an event.  Nothing happens any more when the process has ended. -/
def program (event : MainEvent) : Program (MainLoop R) Unit := do
  if (← get).server.exited then
    return
  else
    action arith build event

/-- The server when `main` comes to its loop. -/
def start (nextTime : Int) (control : EmcStat R) (tape : Nat → NmlAnswer R) : MainLoop R :=
  ⟨.openCommand, .start arith nextTime control tape, ⟨none, .new⟩⟩

variable {loop : MainLoop R}

@[simp] theorem ends_onServer {α : Type} (body : Program (LinuxCnc R) α) (loop : MainLoop R)
    (post : α → MainLoop R → Prop) :
    (onServer body).Ends loop post ↔
      body.Ends loop.server fun value server => post value { loop with server } :=
  ends_inside _ _ body loop post

@[simp] theorem ends_enter (phase : MainPhase) (loop : MainLoop R)
    (post : Unit → MainLoop R → Prop) :
    (enter phase).Ends loop post ↔ post () { loop with phase } := ends_modify _ loop post

theorem ends_program (event : MainEvent) (loop : MainLoop R) (post : Unit → MainLoop R → Prop) :
    (program arith build event).Ends loop post ↔
      if loop.server.exited = true then post () loop
      else (action arith build event).Ends loop post := by
  simp only [program, ends_bind, ends_get, ends_ite, ends_pure]

/-- The main thread finds the channels that it is about to use. -/
def Sound (loop : MainLoop R) : Prop := loop.server.SoundAt loop.phase

/-- No request is served between the calls that delete the channels. -/
def Quiet (loop : MainLoop R) : MainEvent → Prop
  | .turn _ => True
  | .call _ => loop.server.exited = false → loop.phase.Deleting → loop.server.emcStatus = none

/-- While the main thread connects, `GetState_` does not find that the heartbeat has stopped. -/
def Spared (loop : MainLoop R) : MainEvent → Prop
  | .turn _ => True
  | .call call =>
      loop.server.exited = false → loop.phase.Connecting → loop.server.Unharmed call

/-- `Poll` returns what `OK` returns. -/
theorem ends_poll (peek : Peek) (loop : MainLoop R) (post : Bool → MainLoop R → Prop) :
    (poll build peek).Ends loop post ↔ ok.Ends loop.server fun up server =>
      post up
        { loop with
          server
          operator := (OperatorLog.poll build.lineLen up peek loop.operator).2 } := by
  have value (up : Bool) (log : OperatorLog) :
      (OperatorLog.poll build.lineLen up peek log).1 = up := by
    cases up with
    | false => rfl
    | true =>
        cases peek with
        | error | noData => rfl
        | message type address text =>
            unfold OperatorLog.poll
            rw [if_neg Bool.true_eq_false_eq_False]
            exact (apply_ite Prod.fst _ _ _).trans (ite_self true)
  simp only [poll, ends_bind, ends_onServer, ends_get, ends_modify, ends_pure, value]

theorem Sound.linked (sound : loop.Sound) (polling : loop.phase = .polling) :
    loop.server.Linked := by
  rw [Sound, polling] at sound
  exact sound

theorem Sound.turn (sound : loop.Sound) (peek : Peek) :
    (turn arith build peek).Ends loop fun _ => Sound := by
  rw [MainLoop.turn, ends_bind, ends_get, ends_ite]
  split
  · rename_i polling
    have linked := sound.linked polling
    rw [ends_bind, ends_poll]
    refine linked.ends_ok.mono ?_
    rintro up server ⟨same, -⟩
    cases up with
    | false =>
        exact (ends_enter _ _ _).mpr ⟨(linked.congr same).held, fun _ => linked.congr same⟩
    | true => exact (ends_pure _ _ _).mpr (LinuxCnc.SoundAt.congr sound same)
  · rw [ends_bind, ends_onServer]
    exact (LinuxCnc.SoundAt.advance arith sound).mono fun phase server sound =>
      (ends_enter _ _ _).mpr sound

theorem Sound.call_of_same (sound : loop.Sound) {call : ServerCall}
    (same : (LinuxCnc.handle arith build call).Ends loop.server fun _ next =>
      next.pointers = loop.server.pointers) :
    (onServer (LinuxCnc.handle arith build call)).Ends loop fun _ => Sound :=
  (ends_onServer _ _ _).mpr (same.mono fun _ _ same => LinuxCnc.SoundAt.congr sound same)

/-- Requests are served on linked channels, unless the channels are being deleted. -/
theorem Sound.connected (sound : loop.Sound) (whole : ¬loop.phase.Deleting)
    (nonnull : loop.server.emcStatus ≠ none) : loop.server.Connected := by
  obtain ⟨phase, server, operator⟩ := loop
  cases phase with
  | openCommand | polling => exact ⟨sound, nonnull⟩
  | validCommand | openStatus => exact ⟨sound.1, nonnull⟩
  | validStatus | peekStatus => exact absurd sound.2.1 nonnull
  | openError => exact sound
  | validError | okStatus | okError | peek | read => exact sound.1
  | deleteCommand => exact ⟨sound.2 nonnull, nonnull⟩
  | deleteStatus | deleteError | clear => exact absurd trivial whole

/-- While the main thread connects, there is a channel for commands. -/
theorem Sound.command (sound : loop.Sound) (connecting : loop.phase.Connecting) :
    loop.server.emcCommandBuffer ≠ none := by
  obtain ⟨phase, server, operator⟩ := loop
  cases phase with
  | openCommand | polling | deleteCommand | deleteStatus | deleteError | clear => cases connecting
  | validCommand | openStatus => exact sound.2
  | validStatus | peekStatus => exact sound.2.2.1
  | openError => exact LinuxCnc.Connected.commandBuffer sound
  | validError | okStatus | okError | peek | read => exact sound.1.commandBuffer

theorem Sound.call (sound : loop.Sound) (running : loop.server.exited = false) {call : ServerCall}
    (quiet : loop.Quiet (.call call)) (spared : loop.Spared (.call call)) :
    (onServer (LinuxCnc.handle arith build call)).Ends loop fun _ => Sound := by
  by_cases null : loop.server.emcStatus = none
  · exact sound.call_of_same arith build (LinuxCnc.ends_handle_of_none arith build null call)
  have connected := sound.connected (mt (quiet running) null) null
  by_cases connecting : loop.phase.Connecting
  · refine sound.call_of_same arith build ?_
    refine (connected.ends_handle arith build call).mono fun _ _ handled => ?_
    exact (handled.resolve_right fun harmed => harmed.1 (spared running connecting)).2
  · rw [ends_onServer]
    have whole := mt (quiet running) null
    refine (LinuxCnc.handle_keeps arith build call _ connected.1).mono fun _ next linked => ?_
    obtain ⟨phase, server, operator⟩ := loop
    cases phase with
    | openCommand | polling => exact linked
    | deleteCommand => exact ⟨linked.held, fun _ => linked⟩
    | deleteStatus | deleteError | clear => exact absurd trivial whole
    | validCommand | openStatus | validStatus | peekStatus | openError | validError | okStatus
      | okError | peek | read => exact absurd trivial connecting

theorem not_ends_call (sound : loop.Sound) {call : ServerCall}
    (harmed : ¬loop.Spared (.call call)) :
    ¬(program arith build (.call call)).Ends loop fun _ => Sound := by
  simp only [Spared, not_forall] at harmed
  obtain ⟨running, connecting, harmed⟩ := harmed
  have nonnull : loop.server.emcStatus ≠ none := fun null =>
    harmed fun look seen => by
      rw [LinuxCnc.glance_of_none null] at seen
      cases seen
  rw [ends_program, running, if_neg Bool.false_ne_true, action, ends_onServer]
  intro ends
  have connected := sound.connected connecting.not_deleting nonnull
  obtain ⟨_, next, -, after, handled⟩ := ends.and (connected.ends_handle arith build call)
  have cleared := (handled.resolve_left fun unharmed => harmed unharmed.1).2
  exact Sound.command after connecting cleared.2

/-- In a run in which no request is served between the calls that delete the channels, the main
thread finds the channels that it is about to use, and so neither it nor any request faults, exactly
if no `GetState_` finds while the main thread connects that the heartbeat has stopped. -/
theorem undisturbed_iff (nextTime : Int) (control : EmcStat R) (tape : Nat → NmlAnswer R)
    {events : List MainEvent}
    (quiet : (machine (program arith build)).Guarded (fun reached event => ∀ loop ∈ reached,
      loop.Quiet event) (some (start arith nextTime control tape)) events) :
    (machine (program arith build)).Always (fun reached => ∃ loop ∈ reached, loop.Sound)
        (some (start arith nextTime control tape)) events ↔
      (machine (program arith build)).Guarded (fun reached event => ∀ loop ∈ reached,
        loop.Spared event) (some (start arith nextTime control tape)) events := by
  refine always_iff_of_guarded (fun {loop event} sound quiet spared => ?_) id
    (fun {loop event} sound _ harmed => ?_) ?_ quiet
  · rw [ends_program]
    split
    · exact sound
    · rename_i running
      cases event with
      | turn peek => exact sound.turn arith build peek
      | call call => exact sound.call arith build (by simpa using running) quiet spared
  · cases event with
    | turn peek => exact absurd trivial harmed
    | call call => exact not_ends_call arith build sound harmed
  · exact LinuxCnc.start_linked arith nextTime control tape

/-- Turns without a message of the control. -/
def turns (count : Nat) : List MainEvent := List.replicate count (.turn .noData)

/-- The main loop with a control at rest, for which the library answers the question of this index
with a failure. -/
def resting (failing : Option Nat) : MainLoop ℚ :=
  start (.exact fun _ => 0) 0 .rest fun index =>
    ⟨if some index = failing then 0 else 1, .rest, false⟩

theorem guarded_turns {guard : MainLoop R → MainEvent → Prop}
    (free : ∀ loop peek, guard loop (.turn peek)) (reached : Option (MainLoop R)) (count : Nat) :
    (machine (program arith build)).Guarded
      (fun reached event => ∀ loop ∈ reached, guard loop event) reached (turns count) := by
  induction count generalizing reached with
  | zero => trivial
  | succ count ih => exact fun next _ => ⟨fun loop _ => free loop _, ih next⟩

theorem guarded_of_polling {guard : MainLoop ℚ → MainEvent → Prop} {call : ServerCall}
    (free : ∀ loop peek, guard loop (.turn peek))
    (polls : ∀ loop, loop.phase = .polling → guard loop (.call call)) (count : Nat) :
    (machine (program (.exact fun _ => 0) ⟨false, 255⟩)).Guarded
      (fun reached event => ∀ loop ∈ reached, guard loop event) (some (resting none))
      (turns 13 ++ .call call :: turns count) := by
  refine (guarded_turns _ _ free _ 13).append fun middle ran next _ =>
    ⟨fun loop member => polls loop ?_, guarded_turns _ _ free _ _⟩
  have phase : ((machine (program (.exact fun _ => 0) ⟨false, 255⟩)).run (some (resting none))
      (turns 13)).map (Option.map MainLoop.phase) = some (some .polling) := rfl
  obtain rfl : middle = some loop := member
  rw [ran] at phase
  exact Option.some.inj (Option.some.inj phase)

theorem undisturbed_of_polling :
    (machine (program (.exact fun _ => 0) ⟨false, 255⟩)).Always
      (fun reached => ∃ loop ∈ reached, loop.Sound) (some (resting none))
      (turns 13 ++ .call .getState_ :: turns 18) :=
  (undisturbed_iff _ _ 0 .rest _ (guarded_of_polling (fun _ _ => trivial)
    (fun loop polling _ deleting => by rw [polling] at deleting; cases deleting) 18)).mpr
    (guarded_of_polling (fun _ _ => trivial)
      (fun loop polling _ connecting => by rw [polling] at connecting; cases connecting) 18)

/-- `GetState_` disconnects from a control that has just been connected to, and the main thread
follows a null pointer. -/
example :
    (machine (program (.exact fun _ => 0) ⟨false, 255⟩)).run (some (resting none))
      (turns 9 ++ [.call .getState_, .turn .noData]) = some none := rfl

/-- A request between the calls that delete the channels follows a pointer that dangles. -/
example :
    (machine (program (.exact fun _ => 0) ⟨false, 255⟩)).run (some (resting (some 10)))
      (turns 16 ++ [.call .getGCodes]) = some none := rfl

/-- At most so many turns are left until the main thread polls a control that answers. -/
def Within (left : Nat) (loop : MainLoop R) : Prop :=
  loop.Sound ∧ loop.server.Answering ∧ loop.server.distance loop.phase ≤ left

/-- No request is served between the calls that delete the channels, and none is `GetState_`. -/
def Calm (loop : MainLoop R) (event : MainEvent) : Prop :=
  event ≠ .call .getState_ ∧ loop.Quiet event

theorem Within.turn {left : Nat} (within : loop.Within left) (peek : Peek) :
    (turn arith build peek).Ends loop fun _ next => next.Within (left - 1) := by
  obtain ⟨sound, answering, near⟩ := within
  rw [MainLoop.turn, ends_bind, ends_get, ends_ite]
  split
  · rename_i polling
    have linked := sound.linked polling
    rw [ends_bind, ends_poll]
    by_cases opened : loop.server.Open
    · refine (answering.ends_ok linked opened).mono ?_
      rintro _ server ⟨rfl, answering, same⟩
      rw [if_neg Bool.true_eq_false_eq_False, ends_pure]
      refine ⟨LinuxCnc.SoundAt.congr sound same, answering, ?_⟩
      rw [polling, LinuxCnc.distance, if_pos (opened.congr same)]
      exact Nat.zero_le _
    · obtain ⟨up, server, runs, same, -⟩ := linked.ends_ok
      have answering := LinuxCnc.ok_answering answering runs
      refine ⟨up, server, runs, ?_⟩
      rw [polling, LinuxCnc.distance, if_neg opened] at near
      cases up with
      | false =>
          rw [if_pos rfl, ends_enter]
          refine ⟨⟨(linked.congr same).held, fun _ => linked.congr same⟩, answering, ?_⟩
          exact (by omega : 17 ≤ left - 1)
      | true => exact absurd (LinuxCnc.open_of_ok runs) opened
  · rename_i elsewhere
    rw [ends_bind, ends_onServer]
    refine ((LinuxCnc.SoundAt.advance arith sound).and
      (answering.advance arith sound elsewhere)).mono ?_
    rintro phase server ⟨sound, answering, nearer⟩
    exact (ends_enter _ _ _).mpr ⟨sound, answering, Nat.le_sub_one_of_lt (nearer.trans_le near)⟩

theorem Within.call {left : Nat} (within : loop.Within left) {call : ServerCall}
    (calm : loop.Calm (.call call)) :
    (onServer (LinuxCnc.handle arith build call)).Ends loop fun _ next => next.Within left := by
  obtain ⟨sound, answering, near⟩ := within
  obtain ⟨other, quiet⟩ := calm
  have other : call ≠ .getState_ := fun reads => other (congrArg _ reads)
  have same : (LinuxCnc.handle arith build call).Ends loop.server fun _ next =>
      next.pointers = loop.server.pointers := by
    by_cases null : loop.server.emcStatus = none
    · exact LinuxCnc.ends_handle_of_none arith build null call
    have connected := sound.connected (mt (quiet answering.running) null) null
    have unharmed : loop.server.Unharmed call := by
      rw [LinuxCnc.Unharmed, LinuxCnc.glance_of_ne other]
      nofun
    exact (connected.ends_handle arith build call).mono fun _ _ handled =>
      (handled.resolve_right fun harmed => harmed.1 unharmed).2
  obtain ⟨value, server, runs, same⟩ := same
  refine (ends_onServer _ _ _).mpr ⟨value, server, runs, LinuxCnc.SoundAt.congr sound same,
    LinuxCnc.handle_answering arith build other answering runs, ?_⟩
  exact (LinuxCnc.distance_congr same).trans_le near

/-- The turns of the main thread. -/
def tick : MainEvent → Option Unit
  | .turn _ => some ()
  | .call _ => none

/-- If the library answers from now on, for a control of the right version, the main thread polls
the control after eighteen turns at most, whatever is requested in between but `GetState_`, which
may find that the control is dead, as long as no request is served while the channels are
deleted. -/
theorem up_of_turns (sound : loop.Sound) (answering : loop.server.Answering)
    {events : List MainEvent}
    (calm : (machine (program arith build)).Guarded
      (fun reached event => ∀ loop ∈ reached, loop.Calm event) (some loop) events)
    (enough : 18 ≤ (events.filterMap tick).length) :
    ∃ final, (machine (program arith build)).run (some loop) events = some (some final) ∧
      final.phase = .polling ∧ final.server.Open := by
  have keeps : ∀ {left loop event}, Within left loop → loop.Calm event →
      (program arith build event).Ends loop fun _ next =>
        next.Within (left - (tick event).toList.length) := by
    intro left loop event within calm
    rw [ends_program, within.2.1.running, if_neg Bool.false_ne_true]
    cases event with
    | turn peek => exact within.turn arith build peek
    | call call => exact within.call arith build calm
  obtain ⟨final, ran, -, -, near⟩ := @run_of_countdown _ _ (program arith build) tick Calm Within
    keeps 18 loop events ⟨sound, answering, LinuxCnc.distance_le _ _⟩ calm
  rw [Nat.sub_eq_zero_of_le enough, Nat.le_zero] at near
  exact ⟨final, ran, LinuxCnc.open_of_distance near⟩

theorem up_of_start :
    ∃ final, (machine (program (.exact fun _ => 0) ⟨false, 255⟩)).run (some (resting none))
        (turns 13 ++ .call .cycleStart :: turns 5) = some (some final) ∧
      final.phase = .polling ∧ final.server.Open := by
  apply up_of_turns
  · exact LinuxCnc.start_linked _ _ _ _
  · exact ⟨rfl, fun _ => one_pos, fun _ => rfl, rfl, fun _ => rfl⟩
  · refine guarded_of_polling (fun _ _ => ⟨nofun, trivial⟩) (fun loop polling => ?_) 5
    refine ⟨nofun, fun _ deleting => ?_⟩
    rw [polling] at deleting
    cases deleting
  · exact le_rfl

end MainLoop

end CncRemote
