import CncRemote.LinuxCnc

/-!
# Pointers to the NML channels

Requests test `m_emcStatus` and then follow the pointers to the channels.  `Linked` relates the
pointers between two calls; every call keeps it, so that none of them follows a null pointer and
`DisconnectNml` leaves no channel behind.
-/

namespace CncRemote

open Program

namespace LinuxCnc

variable {R : Type}

/-- Every channel is pointed to once, or it has been deleted. -/
def Held (server : LinuxCnc R) : Prop :=
  server.heap.Owned [server.emcCommandBuffer, server.emcStatusBuffer, server.emcErrorBuffer]

/-- The pointers as they are between two calls. -/
structure Linked (server : LinuxCnc R) : Prop where
  /-- The status is that of the channel. -/
  status : server.emcStatus = server.emcStatusBuffer
  /-- There is no status without a channel for commands. -/
  command : server.emcStatusBuffer ≠ none → server.emcCommandBuffer ≠ none
  held : server.Held

/-- Requests are served when there is a status. -/
def Connected (server : LinuxCnc R) : Prop := server.Linked ∧ server.emcStatus ≠ none

/-- What the invariant is about. -/
def pointers (server : LinuxCnc R) : Heap × Pointer × Pointer × Pointer × Pointer :=
  (server.heap, server.emcCommandBuffer, server.emcStatusBuffer, server.emcStatus,
    server.emcErrorBuffer)

variable {server next : LinuxCnc R}

theorem Held.congr (held : server.Held) (same : next.pointers = server.pointers) : next.Held := by
  simp only [pointers, Prod.mk.injEq] at same
  obtain ⟨heap, command, status, -, error⟩ := same
  rw [Held, heap, command, status, error]
  exact held

theorem Linked.congr (linked : server.Linked) (same : next.pointers = server.pointers) :
    next.Linked := by
  refine ⟨?_, ?_, linked.held.congr same⟩
  all_goals
    simp only [pointers, Prod.mk.injEq] at same
    obtain ⟨-, command, status, emcStatus, -⟩ := same
  · rw [emcStatus, status, linked.status]
  · rw [status, command]
    exact linked.command

theorem Connected.congr (connected : server.Connected) (same : next.pointers = server.pointers) :
    next.Connected := by
  refine ⟨connected.1.congr same, ?_⟩
  simp only [pointers, Prod.mk.injEq] at same
  rw [same.2.2.2.1]
  exact connected.2

namespace Held

theorem live_command (held : server.Held) (nonnull : server.emcCommandBuffer ≠ none) :
    server.heap.Live server.emcCommandBuffer :=
  held.live (by simp) nonnull

theorem live_status (held : server.Held) (nonnull : server.emcStatusBuffer ≠ none) :
    server.heap.Live server.emcStatusBuffer :=
  held.live (by simp) nonnull

theorem live_error (held : server.Held) (nonnull : server.emcErrorBuffer ≠ none) :
    server.heap.Live server.emcErrorBuffer :=
  held.live (by simp) nonnull

end Held

theorem ends_deleteChannel {pointer : Pointer} (front : List Pointer) {back : List Pointer}
    (owned : server.heap.Owned (front ++ pointer :: back)) :
    Ends (deleteChannel pointer) server fun _ next =>
      ∃ heap, heap.Owned (front ++ none :: back) ∧ next = { server with heap } := by
  obtain ⟨heap, deleted, owned'⟩ := owned.delete_at front
  simp only [deleteChannel, ends_bind, ends_get, deleted, ends_modify]
  exact ⟨heap, owned', rfl⟩

/-- `DisconnectNml` deletes every channel that is left. -/
theorem Held.ends_disconnectNml (held : server.Held) :
    Ends disconnectNml server fun _ next => next.Linked ∧ next.heap.Clean := by
  simp only [disconnectNml, ends_bind, ends_get, ends_modify]
  refine (ends_deleteChannel [] held).mono ?_
  rintro - _ ⟨_, owned, rfl⟩
  refine (ends_deleteChannel [none] owned).mono ?_
  rintro - _ ⟨_, owned, rfl⟩
  refine (ends_deleteChannel [none, none] owned).mono ?_
  rintro - _ ⟨_, owned, rfl⟩
  exact ⟨⟨rfl, fun nonnull => nonnull, owned⟩, owned.clean (by simp)⟩

theorem Held.ends_failure (held : server.Held) :
    Ends (disconnectNml >>= fun _ => pure false) server fun up next =>
      next.Linked ∧ up = false := by
  rw [ends_bind]
  refine held.ends_disconnectNml.mono fun _ next ends => ?_
  exact (ends_pure _ _ _).mpr ⟨ends.1, rfl⟩

/-- A channel may be asked whether it is valid when its pointer may be followed. -/
theorem ends_valid {pointer : Pointer} (live : server.heap.Live pointer) :
    Ends (valid pointer) server fun _ next => next.pointers = server.pointers := by
  simp only [valid, ends_bind, ends_follow, ends_library, ends_pure]
  exact ⟨live, rfl⟩

/-- Reading the status moves no pointer. -/
theorem ends_peekStatus (live : server.heap.Live server.emcStatusBuffer) :
    Ends peekStatus server fun _ next => next.pointers = server.pointers := by
  simp only [peekStatus, ends_bind, ends_get, ends_follow, ends_library, ends_ite, ends_pure,
    ends_modify]
  refine ⟨live, ?_⟩
  split <;> rfl

theorem ends_newChannel (post : Pointer → LinuxCnc R → Prop) :
    Ends newChannel server post ↔
      post (some server.heap.next) { server with heap := server.heap.new } := by
  simp [newChannel]

theorem Linked.ends_openCommand (linked : server.Linked) :
    Ends openCommand server fun up next =>
      next.Linked ∧ (up = true → next.emcCommandBuffer ≠ none) := by
  rw [openCommand, ends_bind, ends_get, ends_ite]
  split
  · rename_i null
    have held := linked.held
    rw [Held, null] at held
    have live := held.new.live List.mem_cons_self (Option.some_ne_none _)
    simp only [ends_bind, ends_newChannel, ends_modify]
    refine (ends_valid ?_).mono fun up next same => ?_
    · exact live
    have linked : next.Linked := by
      refine Linked.congr ?_ same
      exact ⟨linked.status, fun _ => Option.some_ne_none _, held.new⟩
    cases up with
    | false =>
      exact linked.held.ends_failure.mono fun _ _ ends => ⟨ends.1, by simp [ends.2]⟩
    | true =>
      refine (ends_pure _ _ _).mpr ⟨linked, fun _ => ?_⟩
      simp only [pointers, Prod.mk.injEq] at same
      rw [same.2.1]
      simp
  · exact (ends_pure _ _ _).mpr ⟨linked, fun _ => ‹_›⟩

theorem Linked.ends_openStatus (linked : server.Linked)
    (command : server.emcCommandBuffer ≠ none) :
    Ends openStatus server fun _ next => next.Linked := by
  rw [openStatus, ends_bind, ends_get, ends_ite]
  split
  · rename_i null
    have held := linked.held
    rw [Held, null] at held
    have owned := Heap.Owned.new_at [_] held
    have live := owned.live List.mem_append_cons_self (Option.some_ne_none _)
    simp only [ends_bind, ends_newChannel, ends_modify]
    refine (ends_valid ?_).mono fun up next same => ?_
    · exact live
    have status : next.emcStatusBuffer = some server.heap.next := by
      simp only [pointers, Prod.mk.injEq] at same
      exact same.2.2.1
    have held : next.Held := by
      refine Held.congr ?_ same
      exact owned
    cases up with
    | false => exact held.ends_failure.mono fun _ _ => And.left
    | true =>
      simp only [Bool.true_eq_false, if_false]
      rw [ends_bind]
      have live := held.live_status (by simp [status])
      refine (ends_peekStatus live).mono fun type after same' => ?_
      have held := held.congr same'
      have same := same'.trans same
      rw [ends_ite]
      split
      · exact held.ends_failure.mono fun _ _ => And.left
      · simp only [ends_bind, ends_modify, ends_pure]
        simp only [pointers, Prod.mk.injEq] at same
        refine ⟨same.2.2.1.symm, fun _ => ?_, held⟩
        rw [same.2.1]
        exact command
  · exact (ends_pure _ _ _).mpr linked

theorem Linked.ends_openError (linked : server.Linked) :
    Ends openError server fun _ next => next.Linked := by
  rw [openError, ends_bind, ends_get, ends_ite]
  split
  · rename_i null
    have held := linked.held
    rw [Held, null] at held
    have owned := Heap.Owned.new_at [_, _] held
    have live := owned.live List.mem_append_cons_self (Option.some_ne_none _)
    simp only [ends_bind, ends_newChannel, ends_modify]
    refine (ends_valid ?_).mono fun up next same => ?_
    · exact live
    have linked : next.Linked := by
      refine Linked.congr ?_ same
      exact ⟨linked.status, linked.command, owned⟩
    cases up with
    | false => exact linked.held.ends_failure.mono fun _ _ => And.left
    | true => exact (ends_pure _ _ _).mpr linked
  · exact (ends_pure _ _ _).mpr linked

/-- `OK` moves no pointer, and there is a status if it returns true. -/
theorem Linked.ends_ok (linked : server.Linked) :
    Ends ok server fun up next =>
      next.pointers = server.pointers ∧ (up = true → server.emcStatus ≠ none) := by
  simp only [ok]
  rw [ends_bind, ends_get, ends_ite]
  split
  · exact (ends_pure _ _ _).mpr ⟨rfl, nofun⟩
  rename_i nonnull
  rw [ends_ite]
  split
  · exact (ends_pure _ _ _).mpr ⟨rfl, nofun⟩
  rename_i status
  rw [ends_bind]
  refine (ends_valid (linked.held.live_status status)).mono fun up next same => ?_
  rw [ends_ite]
  split
  · exact (ends_pure _ _ _).mpr ⟨same, nofun⟩
  rw [ends_ite]
  split
  · exact (ends_pure _ _ _).mpr ⟨same, nofun⟩
  rename_i error
  have live : next.heap.Live server.emcErrorBuffer := by
    rw [(Prod.mk.inj same).1]
    exact linked.held.live_error error
  exact (ends_valid live).mono fun _ _ same' => ⟨same'.trans same, fun _ => nonnull⟩

theorem Linked.ends_connectNml (linked : server.Linked) :
    Ends connectNml server fun up next => next.Linked ∧ (up = true → next.Connected) := by
  rw [connectNml, ends_bind]
  refine linked.ends_openCommand.mono fun up next ⟨linked, command⟩ => ?_
  rw [ends_ite]
  split
  · exact (ends_pure _ _ _).mpr ⟨linked, nofun⟩
  rename_i opened
  rw [ends_bind]
  refine (linked.ends_openStatus (command (by simpa using opened))).mono fun up next linked => ?_
  rw [ends_ite]
  split
  · exact (ends_pure _ _ _).mpr ⟨linked, nofun⟩
  rw [ends_bind]
  refine linked.ends_openError.mono fun up next linked => ?_
  rw [ends_ite]
  split
  · exact (ends_pure _ _ _).mpr ⟨linked, nofun⟩
  refine linked.ends_ok.mono fun up after ⟨same, nonnull⟩ => ?_
  exact ⟨linked.congr same, fun good => .congr ⟨linked, nonnull good⟩ same⟩

namespace Connected

theorem statusBuffer (connected : server.Connected) : server.emcStatusBuffer ≠ none :=
  connected.1.status ▸ connected.2

theorem commandBuffer (connected : server.Connected) : server.emcCommandBuffer ≠ none :=
  connected.1.command connected.statusBuffer

theorem live_status (connected : server.Connected) : server.heap.Live server.emcStatusBuffer :=
  connected.1.held.live_status connected.statusBuffer

theorem live (connected : server.Connected) : server.heap.Live server.emcStatus :=
  connected.1.status ▸ connected.live_status

end Connected

theorem keeps_of_pointers {α : Type} {program : Program (LinuxCnc R) α}
    (ends : ∀ server : LinuxCnc R, server.Connected →
      program.Ends server fun _ next => next.pointers = server.pointers) :
    program.Keeps Connected :=
  fun server connected => (ends server connected).mono fun _ _ => connected.congr

theorem keeps_modify {change : LinuxCnc R → LinuxCnc R}
    (same : ∀ server, (change server).pointers = server.pointers) :
    (modify change : Program (LinuxCnc R) Unit).Keeps Connected :=
  keeps_of_pointers fun server _ => (ends_modify change server _).mpr (same server)

theorem peekStatus_keeps : (peekStatus : Program (LinuxCnc R) Int).Keeps Connected :=
  keeps_of_pointers fun _ connected => ends_peekStatus connected.live_status

theorem readStatus_keeps : (readStatus : Program (LinuxCnc R) (EmcStat R)).Keeps Connected := by
  refine keeps_of_pointers fun server connected => ?_
  simp [readStatus, connected.live]

/-- A request is served. -/
theorem Connected.ends_connected {α : Type} {server : LinuxCnc R} (connected : server.Connected)
    (absent : α) (body : Program (LinuxCnc R) α) (post : α → LinuxCnc R → Prop) :
    (LinuxCnc.connected absent body).Ends server post ↔ body.Ends server post := by
  rw [LinuxCnc.connected, ends_bind, ends_get, if_neg connected.2]

theorem ask_keeps : (ask : Program (LinuxCnc R) (NmlAnswer R)).Keeps Connected :=
  keeps_of_pointers fun server _ => (ends_ask server _).mpr rfl

theorem library_keeps : (library : Program (LinuxCnc R) Int).Keeps Connected :=
  keeps_of_pointers fun server _ => (ends_library server _).mpr rfl

theorem time_keeps : (time : Program (LinuxCnc R) Int).Keeps Connected :=
  keeps_of_pointers fun server _ => (ends_time server _).mpr rfl

theorem ok_keeps : (ok : Program (LinuxCnc R) Bool).Keeps Connected :=
  keeps_of_pointers fun _ connected => connected.1.ends_ok.mono fun _ _ => And.left

theorem awaitEcho_keeps (serial : Int32) (rounds : Nat) :
    (awaitEcho serial rounds : Program (LinuxCnc R) Bool).Keeps Connected := by
  induction rounds with
  | zero => exact .pure _ _
  | succ rounds ih =>
      refine (Keeps.get _).bind fun server => peekStatus_keeps.bind fun type => ?_
      refine .ite (fun _ => .pure _ _) fun _ => ?_
      exact readStatus_keeps.bind fun status => .ite (fun _ => .pure _ _) fun _ => ih

/-- `CommandSend` tests `m_emcStatus` and follows the pointers to two channels. -/
theorem transmit_keeps : (transmit : Program (LinuxCnc R) Bool).Keeps Connected := by
  intro server connected
  have command := connected.1.held.live_command connected.commandBuffer
  rw [transmit, ends_bind, ends_get, if_neg connected.2, ends_bind, ends_follow]
  refine ⟨command, library_keeps.bind (fun answer => ?_) server connected⟩
  refine .ite (fun _ => .pure _ _) fun _ => ?_
  exact ask_keeps.bind fun answer => awaitEcho_keeps _ _

theorem commandSend_keeps (cmd : NmlCommand R) : (commandSend cmd).Keeps Connected := by
  refine transmit_keeps.bind fun _ => .bind (keeps_modify ?_) fun _ => .pure _ _
  exact fun _ => rfl

theorem command_keeps (cmd : NmlCommand R) : (command cmd).Keeps Connected :=
  .map _ (commandSend_keeps cmd)

theorem setMode_keeps (mode : TaskMode) :
    (setMode mode : Program (LinuxCnc R) Bool).Keeps Connected :=
  readStatus_keeps.bind fun _ => .ite (fun _ => .pure _ _) fun _ => commandSend_keeps _

variable (arith : Arith R) (build : Build)

theorem sendJog_keeps (axis : Fin maxAxes) (vel : R) :
    (sendJog arith build axis vel).Keeps Connected := by
  refine .bind (.get _) fun server => .ite (fun _ => .pure _ _) fun _ => .bind ?_ fun mode => ?_
  · exact .ite (fun _ => .pure _ _) fun _ => readStatus_keeps.bind fun _ => .pure _ _
  · exact (command_keeps _).bind fun _ => keeps_modify fun _ => rfl

theorem sendJogVel_keeps (velocities : Axes R) :
    (sendJogVel arith build velocities).Keeps Connected :=
  .forM (fun _ => .bind (.get _) fun _ => sendJog_keeps arith build _ _) _

theorem sendJogStep_keeps (axis : Fin maxAxes) (val : R) :
    (sendJogStep arith build axis val).Keeps Connected :=
  readStatus_keeps.bind fun _ => .bind (.get _) fun _ => command_keeps _

/-- A request that tests for a status first. -/
theorem connected_keeps {α : Type} (absent : α) {body : Program (LinuxCnc R) α}
    (keeps : body.Keeps Connected) : (connected absent body).Keeps Linked := by
  intro server linked
  rw [connected, ends_bind, ends_get, ends_ite]
  split
  · exact (ends_pure _ _ _).mpr linked
  · exact (keeps server ⟨linked, ‹_›⟩).mono fun _ _ => And.left

theorem reachable_keeps : (reachable : Program (LinuxCnc R) Bool).Keeps Connected := by
  refine ok_keeps.bind fun _ => .ite (fun _ => .pure _ _) fun _ => ?_
  exact peekStatus_keeps.bind fun _ => .pure _ _

theorem alive_keeps : (alive : Program (LinuxCnc R) Bool).Keeps Connected := by
  refine time_keeps.bind fun now => .bind (.get _) fun server => ?_
  refine .ite (fun _ => .pure _ _) fun _ => ?_
  refine readStatus_keeps.bind fun status => .bind (.get _) fun server => ?_
  refine .ite (fun _ => .pure _ _) fun _ => time_keeps.bind fun now => ?_
  refine .bind (keeps_modify ?_) fun _ => .pure _ _
  exact fun _ => rfl

theorem updateState_keeps : (updateState arith).Keeps Linked := by
  intro server linked
  rw [updateState, ends_bind, ends_get, ends_ite]
  split
  · exact (ends_modify _ server _).mpr (linked.congr rfl)
  rename_i nonnull
  rw [ends_bind]
  refine (reachable_keeps server ⟨linked, nonnull⟩).mono fun up next connected => ?_
  rw [ends_ite]
  split
  · exact (ends_pure _ _ _).mpr connected.1
  rw [ends_bind]
  refine (alive_keeps next connected).mono fun live after connected => ?_
  rw [ends_ite]
  split
  · rw [ends_bind, setMachineState, ends_modify]
    refine Ends.mono (Held.ends_disconnectNml ?_) fun _ _ => And.left
    exact connected.1.held
  · refine ((readStatus_keeps.bind fun status => ?_) after connected).mono fun _ _ => And.left
    exact keeps_modify fun _ => rfl

theorem readControl_keeps : (readControl arith).Keeps Connected := by
  refine readStatus_keeps.bind fun status =>
    .ite (fun _ => ?_) fun _ => time_keeps.bind fun now => ?_
  · exact .bind (keeps_modify fun _ => rfl) fun _ => .pure _ _
  · exact .bind (keeps_modify fun _ => rfl) fun _ => .pure _ _

theorem connectRest_keeps : (connectRest arith).Keeps Connected := by
  refine peekStatus_keeps.bind fun type => .ite (fun _ => .pure _ _) fun _ => ?_
  exact (readControl_keeps arith).bind fun read => .ite (fun _ => .pure _ _) fun _ => ok_keeps

theorem connectLCnc_keeps : (connectLCnc arith).Keeps Linked := by
  intro server linked
  rw [connectLCnc, ends_bind]
  refine linked.ends_connectNml.mono fun up next ⟨linked, connected⟩ => ?_
  rw [ends_ite]
  split
  · exact (ends_pure _ _ _).mpr linked
  · rename_i opened
    exact Ends.mono (connectRest_keeps arith next (connected (by simpa using opened)))
      fun _ _ => And.left

theorem home_keeps (axes : BoolAxes) : (home axes : Program (LinuxCnc R) Unit).Keeps Linked := by
  refine connected_keeps _ ((setMode_keeps _).bind fun _ => (command_keeps _).bind fun _ => ?_)
  exact .ite (fun _ => command_keeps _) fun _ => .forM (fun _ => command_keeps _) _

theorem jogStep_keeps (distance : Axes Double) (speed : Double) :
    (jogStep arith build distance speed).Keeps Linked := by
  refine connected_keeps _ ((setMode_keeps _).bind fun _ => (commandSend_keeps _).bind fun _ => ?_)
  refine .ite (fun _ => .pure _ _) fun _ => .forM (fun axis => ?_) _
  exact .ite (fun _ => .pure _ _) fun _ => sendJogStep_keeps arith build _ _

theorem getOffset_keeps (index : UInt32) : (getOffset arith index).Keeps Linked := by
  refine connected_keeps _ (readStatus_keeps.bind fun status => ?_)
  refine .ite (fun _ => .pure _ _) fun _ => ?_
  exact .ite (fun _ => .pure _ _) fun _ => .ite (fun _ => .pure _ _) fun _ => .pure _ _

theorem handle_keeps (call : ServerCall) : (handle arith build call).Keeps Linked := by
  cases call with
  | getState_ =>
      refine .map _ ((updateState_keeps arith).bind fun _ => ?_)
      exact .bind (.get _) fun _ => .pure _ _
  | drivesOn state =>
      refine connected_keeps _ (.ite (fun _ => ?_) fun _ => command_keeps _)
      exact (command_keeps _).bind fun _ => command_keeps _
  | jogVel velocities =>
      exact connected_keeps _ ((setMode_keeps _).bind fun _ => sendJogVel_keeps arith build _)
  | jogStep distance speed => exact jogStep_keeps arith build distance speed
  | mdi line =>
      exact .map _ (connected_keeps _ ((setMode_keeps _).bind fun _ => commandSend_keeps _))
  | loadFile | closeFile | sendInit => exact .map _ (connected_keeps _ (commandSend_keeps _))
  | cycleStart => exact connected_keeps _ ((setMode_keeps _).bind fun _ => command_keeps _)
  | feedOverride | spindleOverride | rapidOverride | cycleStop | feedHold | blockDelete | singleStep
    | optionalStop => exact connected_keeps _ (command_keeps _)
  | home axes => exact home_keeps axes
  | getOffset index => exact .map _ (getOffset_keeps arith index)
  | getGCodes | getMCodes =>
      exact .map _ (connected_keeps _ (readStatus_keeps.bind fun _ => .pure _ _))
  | sendData | getError | getMessage | version | startPreview | getPreview | endPreview =>
      exact .pure _ _

/-- Every call keeps the pointers linked. -/
theorem program_keeps (event : LinuxEvent) : (program arith build event).Keeps Linked := by
  cases event with
  | connectNml => exact .map _ fun _ linked => linked.ends_connectNml.mono fun _ _ => And.left
  | connectLCnc => exact .map _ (connectLCnc_keeps arith)
  | disconnectNml => exact fun _ linked => linked.held.ends_disconnectNml.mono fun _ _ => And.left
  | call call => exact handle_keeps arith build call

theorem start_linked (nextTime : Int) (control : EmcStat R) (tape : Nat → NmlAnswer R) :
    (start arith nextTime control tape).Linked :=
  ⟨rfl, fun nonnull => nonnull, Heap.Owned.empty 3⟩

/-- Requests leave the pointers as they are between two calls. -/
theorem linked_of_reached {nextTime : Int} {control : EmcStat R} {tape : Nat → NmlAnswer R}
    {events : List LinuxEvent} {server : LinuxCnc R}
    (reached : (machine (program arith build)).run (some (start arith nextTime control tape))
      events = some (some server)) : server.Linked :=
  holds_of_run (fun event => (program_keeps arith build event).preserves)
    (start_linked arith nextTime control tape) reached

/-- As no request faults, it is enough to look at the servers that may be reached. -/
theorem exists_reached {nextTime : Int} {control : EmcStat R} {tape : Nat → NmlAnswer R}
    {events : List LinuxEvent} {post : LinuxCnc R → Prop}
    (holds : ∀ reached ∈ (machine (program arith build)).run
      (some (start arith nextTime control tape)) events, ∀ server ∈ reached, post server) :
    ∃ server, (machine (program arith build)).run (some (start arith nextTime control tape))
      events = some (some server) ∧ post server := by
  obtain ⟨server, reached, -⟩ := run_of_keeps (program_keeps arith build)
    (start_linked arith nextTime control tape) events
  exact ⟨server, reached, holds _ reached server rfl⟩

/-- No call faults, whatever the library answers.  Between two calls there is a status exactly when
there is a channel for it, and then there is one for commands; once `DisconnectNml` has returned,
every channel has been deleted exactly once. -/
theorem linked_of_run (nextTime : Int) (control : EmcStat R) (tape : Nat → NmlAnswer R)
    (events : List LinuxEvent) :
    ∃ final, (machine (program arith build)).run (some (start arith nextTime control tape)) events =
        some (some final) ∧
      (final.emcStatus ≠ none ↔ final.emcStatusBuffer ≠ none) ∧
      (final.emcStatusBuffer ≠ none → final.emcCommandBuffer ≠ none) ∧
      ∃ closed, (machine (program arith build)).step (some final) .disconnectNml =
          some (some closed) ∧ closed.heap.Clean := by
  obtain ⟨final, run, linked⟩ := run_of_keeps (program_keeps arith build)
    (start_linked arith nextTime control tape) events
  refine ⟨final, run, ?_, linked.command, ?_⟩
  · rw [linked.status]
  · exact Ends.step (linked.held.ends_disconnectNml.mono fun _ _ => And.right)

end LinuxCnc

end CncRemote
