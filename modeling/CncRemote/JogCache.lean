import CncRemote.NmlPointers

/-!
# Cached jogs of the LinuxCNC server

`SendJog` drops a velocity that equals the one in `g_jogAxes`.  `agrees_iff` says when this cache
holds the velocity of the last jog that the control accepted.  A request to jog is taken apart into
its calls of `SetMode` and `SendJog`, so that the cache is looked at after each of them.
-/

namespace CncRemote

open Program

namespace LinuxCnc

variable {R : Type}

/-- What has nothing to do with the channels. -/
def driven (server : LinuxCnc R) : (Fin maxAxes → R) × List (NmlCommand R × Bool) × State R :=
  (server.jogAxes, server.sent, server.state)

section Preserves

variable {inv : LinuxCnc R → Prop}

theorem follow_preserves (pointer : Pointer) :
    (follow pointer : Program (LinuxCnc R) Unit).Preserves inv :=
  .bind .get fun _ => .ite (.pure _) .fault

theorem readStatus_preserves : (readStatus : Program (LinuxCnc R) (EmcStat R)).Preserves inv :=
  .bind .get fun _ => .bind (follow_preserves _) fun _ => .pure _

theorem awaitEcho_preserves (peeks : (peekStatus : Program (LinuxCnc R) Int).Preserves inv)
    (serial : Int32) (rounds : Nat) :
    (awaitEcho serial rounds : Program (LinuxCnc R) Bool).Preserves inv := by
  induction rounds with
  | zero => exact .pure _
  | succ rounds ih =>
      refine .bind .get fun _ => .bind peeks fun _ => .ite (.pure _) ?_
      exact .bind readStatus_preserves fun _ => .ite (.pure _) ih

/-- A transmission keeps what the answers of the control and the looks at its status keep. -/
theorem transmit_preserves (asks : (ask : Program (LinuxCnc R) (NmlAnswer R)).Preserves inv)
    (calls : (library : Program (LinuxCnc R) Int).Preserves inv)
    (peeks : (peekStatus : Program (LinuxCnc R) Int).Preserves inv) :
    (transmit : Program (LinuxCnc R) Bool).Preserves inv := by
  refine .bind .get fun _ => .ite (.pure _) (.bind (follow_preserves _) fun _ => ?_)
  refine .bind calls fun _ => .ite (.pure _) ?_
  exact .bind asks fun _ => awaitEcho_preserves peeks _ _

end Preserves

section Frames

theorem ask_frames : (ask : Program (LinuxCnc R) (NmlAnswer R)).Frames driven := by
  rintro _ _ _ ⟨⟩
  rfl

theorem library_frames : (library : Program (LinuxCnc R) Int).Frames driven := by
  rintro _ _ _ ⟨⟩
  rfl

theorem time_frames : (time : Program (LinuxCnc R) Int).Frames driven := by
  rintro _ _ _ ⟨⟩
  rfl

theorem follow_frames (pointer : Pointer) :
    (follow pointer : Program (LinuxCnc R) Unit).Frames driven :=
  .bind .get fun _ => .ite (.pure _) .fault

theorem deleteChannel_frames (pointer : Pointer) :
    (deleteChannel pointer : Program (LinuxCnc R) Unit).Frames driven := by
  refine .bind .get fun server => ?_
  cases server.heap.delete pointer with
  | none => exact .fault
  | some heap => exact .modify fun _ => rfl

theorem valid_frames (channel : Pointer) :
    (valid channel : Program (LinuxCnc R) Bool).Frames driven :=
  .bind (follow_frames channel) fun _ => .bind library_frames fun _ => .pure _

theorem peekStatus_frames : (peekStatus : Program (LinuxCnc R) Int).Frames driven := by
  refine .bind .get fun _ => .bind (follow_frames _) fun _ => .bind library_frames fun _ => ?_
  refine .ite (.pure _) (.bind (.modify ?_) fun _ => .pure _)
  exact fun _ => rfl

theorem readStatus_frames : (readStatus : Program (LinuxCnc R) (EmcStat R)).Frames driven :=
  .bind .get fun _ => .bind (follow_frames _) fun _ => .pure _

theorem disconnectNml_frames : (disconnectNml : Program (LinuxCnc R) Unit).Frames driven := by
  refine .bind .get fun _ => .bind (deleteChannel_frames _) fun _ => ?_
  refine .bind .get fun _ => .bind (deleteChannel_frames _) fun _ => ?_
  exact .bind .get fun _ => .bind (deleteChannel_frames _) fun _ => .modify fun _ => rfl

theorem ok_frames : (ok : Program (LinuxCnc R) Bool).Frames driven := by
  refine .bind .get fun _ => .ite (.pure _) (.ite (.pure _) (.bind (valid_frames _) fun _ => ?_))
  exact .ite (.pure _) (.ite (.pure _) (valid_frames _))

theorem newChannel_frames : (newChannel : Program (LinuxCnc R) Pointer).Frames driven := by
  rintro _ _ _ ⟨⟩
  rfl

theorem failure_frames :
    (disconnectNml >>= fun _ => pure false : Program (LinuxCnc R) Bool).Frames driven :=
  .bind disconnectNml_frames fun _ => .pure _

theorem connectNml_frames : (connectNml : Program (LinuxCnc R) Bool).Frames driven := by
  refine .bind ?_ fun _ => .ite (.pure _) (.bind ?_ fun _ => .ite (.pure _) (.bind ?_ fun _ =>
    .ite (.pure _) ok_frames))
  · refine .bind .get fun _ => .ite (.bind newChannel_frames fun _ => ?_) (.pure _)
    refine .bind (.modify fun _ => rfl) fun _ => .bind (valid_frames _) fun _ => ?_
    exact .ite failure_frames (.pure _)
  · refine .bind .get fun _ => .ite (.bind newChannel_frames fun _ => ?_) (.pure _)
    refine .bind (.modify fun _ => rfl) fun _ => .bind (valid_frames _) fun _ => ?_
    refine .ite failure_frames (.bind peekStatus_frames fun _ => .ite failure_frames ?_)
    exact .bind (.modify fun _ => rfl) fun _ => .pure _
  · refine .bind .get fun _ => .ite (.bind newChannel_frames fun _ => ?_) (.pure _)
    refine .bind (.modify fun _ => rfl) fun _ => .bind (valid_frames _) fun _ => ?_
    exact .ite failure_frames (.pure _)

theorem readControl_frames (arith : Arith R) : (readControl arith).Frames driven := by
  refine .bind readStatus_frames fun _ => .ite ?_ ?_
  · exact .bind (.modify fun _ => rfl) fun _ => .pure _
  · exact .bind time_frames fun _ => .bind (.modify fun _ => rfl) fun _ => .pure _

theorem connectLCnc_frames (arith : Arith R) : (connectLCnc arith).Frames driven := by
  refine .bind connectNml_frames fun _ => .ite (.pure _) ?_
  refine .bind peekStatus_frames fun _ => .ite (.pure _) ?_
  exact .bind (readControl_frames arith) fun _ => .ite (.pure _) ok_frames

theorem alive_frames : (alive : Program (LinuxCnc R) Bool).Frames driven := by
  refine .bind time_frames fun _ => .bind .get fun _ => .ite (.pure _) ?_
  refine .bind readStatus_frames fun _ => .bind .get fun _ => .ite (.pure _) ?_
  refine .bind time_frames fun _ => .bind (.modify ?_) fun _ => .pure _
  exact fun _ => rfl

theorem reachable_frames : (reachable : Program (LinuxCnc R) Bool).Frames driven :=
  .bind ok_frames fun _ => .ite (.pure _) (.bind peekStatus_frames fun _ => .pure _)

theorem transmit_frames : (transmit : Program (LinuxCnc R) Bool).Frames driven := by
  intro server accepted next runs
  have same := transmit_preserves (ask_frames.preserves (· = driven server))
    (library_frames.preserves (· = driven server)) (peekStatus_frames.preserves (· = driven server))
  exact same rfl runs

end Frames

/-- The velocity that a call of `CommandSend` gives an axis: nothing if it was not accepted or is no
jog of the axis, and `none` if it stops the axis. -/
def jogOf (axis : Fin maxAxes) : NmlCommand R × Bool → Option (Option R)
  | (.jog _ moved vel, true) => if moved = axis then some (some vel) else none
  | (.jogStop _ stopped, true) => if stopped = axis then some none else none
  | _ => none

/-- The last accepted velocity of an axis, where `none` is a stop or no jog at all. -/
def lastJog (axis : Fin maxAxes) (sent : List (NmlCommand R × Bool)) : Option R :=
  (sent.filterMap (jogOf axis)).getLast?.join

/-- What the cache is about. -/
def jogs (server : LinuxCnc R) : (Fin maxAxes → R) × (Fin maxAxes → List (Option R)) :=
  (server.jogAxes, fun axis => server.sent.filterMap (jogOf axis))

theorem frames_jogs {α : Type} {program : Program (LinuxCnc R) α}
    (frames : program.Frames driven) : program.Frames jogs :=
  frames.comp fun part => (part.1, fun axis => part.2.1.filterMap (jogOf axis))

theorem commandSend_frames {cmd : NmlCommand R}
    (still : ∀ axis accepted, jogOf axis (cmd, accepted) = none) :
    (commandSend cmd).Frames jogs := by
  refine .bind (frames_jogs transmit_frames) fun accepted => .bind (.modify ?_) fun _ => .pure _
  intro server
  simp [jogs, still]

theorem command_frames {cmd : NmlCommand R}
    (still : ∀ axis accepted, jogOf axis (cmd, accepted) = none) : (command cmd).Frames jogs :=
  .map _ (commandSend_frames still)

theorem setMode_frames (mode : TaskMode) :
    (setMode mode : Program (LinuxCnc R) Bool).Frames jogs := by
  refine .bind (frames_jogs readStatus_frames) fun _ => .ite (.pure _) ?_
  exact commandSend_frames fun _ _ => rfl

theorem connected_frames {α : Type} (absent : α) {body : Program (LinuxCnc R) α}
    (frames : body.Frames jogs) : (connected absent body).Frames jogs :=
  .bind .get fun _ => .ite (.pure _) frames

variable (arith : Arith R) (build : Build)

theorem updateState_frames : (updateState arith).Frames jogs := by
  refine .bind .get fun _ => .ite (.modify fun _ => rfl) ?_
  refine .bind (frames_jogs reachable_frames) fun _ => .ite (.pure _) ?_
  refine .bind (frames_jogs alive_frames) fun _ => .ite ?_ ?_
  · exact .bind (.modify fun _ => rfl) fun _ => frames_jogs disconnectNml_frames
  · exact .bind (frames_jogs readStatus_frames) fun _ => .modify fun _ => rfl

theorem jogStep_frames (distance : Axes Double) (speed : Double) :
    (jogStep arith build distance speed).Frames jogs := by
  refine connected_frames _ (.bind (setMode_frames _) fun _ => ?_)
  refine .bind (commandSend_frames fun _ _ => rfl) fun _ => .ite (.pure _) (.forM (fun _ => ?_) _)
  refine .ite (.pure _) (.bind (frames_jogs readStatus_frames) fun _ => .bind .get fun _ => ?_)
  exact command_frames fun _ _ => rfl

theorem home_frames (axes : BoolAxes) : (home axes : Program (LinuxCnc R) Unit).Frames jogs := by
  refine connected_frames _ (.bind (setMode_frames _) fun _ => ?_)
  refine .bind (command_frames fun _ _ => rfl) fun _ => ?_
  exact .ite (command_frames fun _ _ => rfl) (.forM (fun _ => command_frames fun _ _ => rfl) _)

theorem getOffset_frames (index : UInt32) : (getOffset arith index).Frames jogs := by
  refine connected_frames _ (.bind (frames_jogs readStatus_frames) fun _ => .ite (.pure _) ?_)
  exact .ite (.pure _) (.ite (.pure _) (.pure _))

/-- A request that is none to jog leaves the jogs alone. -/
theorem handle_frames {call : ServerCall} (still : ∀ velocities, call ≠ .jogVel velocities) :
    (handle arith build call).Frames jogs := by
  cases call with
  | jogVel velocities => exact absurd rfl (still velocities)
  | getState_ =>
      exact .map _ (.bind (updateState_frames arith) fun _ => .bind .get fun _ => .pure _)
  | drivesOn state =>
      refine connected_frames _ (.ite (.bind ?_ fun _ => ?_) ?_)
      all_goals exact command_frames fun _ _ => rfl
  | jogStep distance speed => exact jogStep_frames arith build distance speed
  | mdi line =>
      refine .map _ (connected_frames _ (.bind (setMode_frames _) fun _ => ?_))
      exact commandSend_frames fun _ _ => rfl
  | loadFile | closeFile | sendInit =>
      exact .map _ (connected_frames _ (commandSend_frames fun _ _ => rfl))
  | cycleStart =>
      refine connected_frames _ (.bind (setMode_frames _) fun _ => ?_)
      exact command_frames fun _ _ => rfl
  | feedHold state =>
      refine connected_frames _ (command_frames fun _ _ => ?_)
      cases state <;> rfl
  | feedOverride | spindleOverride | rapidOverride | cycleStop | blockDelete | singleStep
    | optionalStop => exact connected_frames _ (command_frames fun _ _ => rfl)
  | home axes => exact home_frames axes
  | getOffset index => exact .map _ (getOffset_frames arith index)
  | getGCodes | getMCodes =>
      refine .map _ (connected_frames _ (.bind (frames_jogs readStatus_frames) fun _ => ?_))
      exact .pure _
  | sendData | getError | getMessage | version | startPreview | getPreview | endPreview =>
      exact .pure _

end LinuxCnc

/-- The velocities of a request to jog. -/
def LinuxEvent.jogVel? : LinuxEvent → Option (Axes Double)
  | .call (.jogVel velocities) => some velocities
  | _ => none

/-- A call that is none of `JogVel`, or a part of a call of `JogVel`. -/
inductive JogEvent where
  | other (event : LinuxEvent) (still : event.jogVel? = none)
  | setMode
  | sendJog (axis : Fin maxAxes) (velocity : Double)

/-- The parts of a call of `JogVel`. -/
def LinuxEvent.parts (event : LinuxEvent) : List JogEvent :=
  match still : event.jogVel? with
  | none => [.other event still]
  | some velocities =>
      .setMode :: (List.finRange maxAxes).map fun axis => .sendJog axis (velocities.array axis)

namespace LinuxCnc

variable {R : Type} (arith : Arith R) (build : Build)

/-- What `SendJogVel` does for an axis. -/
def sendAxis (axis : Fin maxAxes) (velocity : Double) : Program (LinuxCnc R) Unit := do
  let server ← get
  sendJog arith build axis (arith.mul (arith.number velocity) (server.maxSpeed axis))

/-- The program of a part. -/
def partProgram : JogEvent → Program (LinuxCnc R) Unit
  | .other event _ => program arith build event
  | .setMode => connected () ((fun _ => ()) <$> setMode .manual)
  | .sendJog axis velocity => connected () (sendAxis arith build axis velocity)

section Connected

variable {server : LinuxCnc R}

theorem connected_of_none {α : Type} {absent : α} {body : Program (LinuxCnc R) α}
    (null : server.emcStatus = none) : connected absent body server = some (absent, server) := by
  change (if server.emcStatus = none then pure absent else body : Program (LinuxCnc R) α) server = _
  rw [if_pos null]
  rfl

theorem connected_of_ne {α : Type} {absent : α} {body : Program (LinuxCnc R) α}
    (nonnull : server.emcStatus ≠ none) : connected absent body server = body server := by
  change (if server.emcStatus = none then pure absent else body : Program (LinuxCnc R) α) server = _
  rw [if_neg nonnull]

variable {body : Program (LinuxCnc R) Unit}

theorem bind_connected (keeps : body.Keeps Connected) {rest rest' : Program (LinuxCnc R) Unit}
    (agree : ∀ next, next.Linked → rest next = connected () rest' next)
    (linked : server.Linked) :
    (connected () body >>= fun _ => rest) server =
      connected () (body >>= fun _ => rest') server := by
  by_cases null : server.emcStatus = none
  · have first : (connected () body >>= fun _ => rest) server = rest server := by
      change (connected () body server).bind _ = _
      rw [connected_of_none null]
      rfl
    rw [first, agree server linked, connected_of_none null, connected_of_none null]
  · obtain ⟨value, next, runs, kept⟩ := keeps server ⟨linked, null⟩
    have first : (connected () body >>= fun _ => rest) server = rest next := by
      change (connected () body server).bind _ = _
      rw [connected_of_ne null, runs]
      rfl
    have second : (body >>= fun _ => rest') server = rest' next := by
      change (body server).bind _ = _
      rw [runs]
      rfl
    rw [first, agree next kept.1, connected_of_ne kept.2, connected_of_ne null, second]

theorem forM_connected {ι : Type} {body : ι → Program (LinuxCnc R) Unit}
    (keeps : ∀ item, (body item).Keeps Connected) (items : List ι) {server : LinuxCnc R}
    (linked : server.Linked) :
    (items.forM fun item => connected () (body item)) server =
      connected () (items.forM body) server := by
  induction items generalizing server with
  | nil =>
      by_cases null : server.emcStatus = none
      · exact (connected_of_none null).symm
      · exact (connected_of_ne null).symm
  | cons item items ih => exact bind_connected (keeps item) (fun _ => ih) linked

end Connected

theorem sendAxis_keeps (axis : Fin maxAxes) (velocity : Double) :
    (sendAxis arith build axis velocity).Keeps Connected :=
  .bind (.get _) fun _ => sendJog_keeps arith build _ _

theorem partProgram_keeps (event : JogEvent) : (partProgram arith build event).Keeps Linked := by
  cases event with
  | other event still => exact program_keeps arith build event
  | setMode => exact connected_keeps _ (.map _ (setMode_keeps _))
  | sendJog axis velocity => exact connected_keeps _ (sendAxis_keeps arith build axis velocity)

theorem forM_parts (event : LinuxEvent) {server : LinuxCnc R} (linked : server.Linked) :
    event.parts.forM (partProgram arith build) server = program arith build event server := by
  unfold LinuxEvent.parts
  split
  · rename_i still
    change ((program arith build event) >>= fun _ => pure ()) server = _
    simp
  · rename_i velocities called
    obtain rfl : event = .call (.jogVel velocities) := by
      revert called
      unfold LinuxEvent.jogVel?
      split <;> simp
    let rest : Program (LinuxCnc R) Unit := (List.finRange maxAxes).forM fun axis =>
      sendAxis arith build axis (velocities.array axis)
    have whole : program arith build (.call (.jogVel velocities)) =
        connected () ((fun _ => ()) <$> setMode .manual >>= fun _ => rest) := by
      rw [bind_map_left]
      rfl
    rw [whole]
    refine bind_connected (.map _ (setMode_keeps _)) (fun next linked => ?_) linked
    refine (congrFun List.forM_map next).trans ?_
    exact forM_connected (fun axis => sendAxis_keeps arith build axis _) _ linked

/-- A run of calls is a run of their parts. -/
theorem run_parts {server : LinuxCnc R} (linked : server.Linked) (events : List LinuxEvent) :
    (machine (partProgram arith build)).run (some server) (events.flatMap LinuxEvent.parts) =
      (machine (program arith build)).run (some server) events := by
  induction events generalizing server with
  | nil => rfl
  | cons event events ih =>
      obtain ⟨value, next, runs, kept⟩ := program_keeps arith build event server linked
      have step : (machine (program arith build)).step (some server) event = some (some next) :=
        step_eq_some_some.mpr ⟨value, runs⟩
      have parts := run_of_forM ((forM_parts arith build event linked).trans runs)
      rw [List.flatMap_cons, Machine.run_append, parts, Machine.run_cons, step]
      exact ih kept

/-- A cached velocity is the one that was last accepted. -/
def Agree (cached : R) : Option R → Prop
  | some vel => cached = vel
  | none => arith.eq cached (arith.ofInt 0) = true

instance [DecidableEq R] (cached : R) (last : Option R) : Decidable (Agree arith cached last) :=
  match last with
  | some vel => inferInstanceAs (Decidable (cached = vel))
  | none => inferInstanceAs (Decidable (_ = true))

/-- The cache holds the last accepted velocity of every axis. -/
def Agrees (server : LinuxCnc R) : Prop :=
  ∀ axis, Agree arith (server.jogAxes axis) (lastJog axis server.sent)

instance [DecidableEq R] (server : LinuxCnc R) : Decidable (Agrees arith server) :=
  inferInstanceAs (Decidable (∀ _, _))

/-- `CommandSend` would return true. -/
def Accepts (server : LinuxCnc R) : Prop := transmit.Ends server fun accepted _ => accepted = true

instance (server : LinuxCnc R) : Decidable server.Accepts := decidableEnds _ _ _

/-- A call of `CommandSend` is recorded. -/
theorem Connected.commandSend {server : LinuxCnc R} (connected : server.Connected)
    (cmd : NmlCommand R) :
    ∃ accepted next, commandSend cmd server = some (accepted, next) ∧ next.Connected ∧
      next.sent = server.sent ++ [(cmd, accepted)] ∧ (accepted = true ↔ server.Accepts) := by
  obtain ⟨accepted, after, transmits, kept⟩ := transmit_keeps server connected
  have same := transmit_frames transmits
  simp only [driven, Prod.mk.injEq] at same
  have accepts : server.Accepts ↔ accepted = true := ends_iff_of_eq transmits _
  refine ⟨accepted, { after with sent := after.sent ++ [(cmd, accepted)] }, ?_, ?_, ?_,
    accepts.symm⟩
  · change (transmit server).bind _ = _
    rw [transmits]
    rfl
  · exact kept.congr rfl
  · rw [same.2.1]

/-- Unless `SendJog` has nothing to send, its command is accepted, or its velocity is the cached
one, which happens with NaN. -/
def JogAccepted (server : LinuxCnc R) : JogEvent → Prop
  | .sendJog axis velocity =>
      let vel := arith.mul (arith.number velocity) (server.maxSpeed axis)
      server.emcStatus = none ∨ arith.eq vel (server.jogAxes axis) = true ∨
        vel = server.jogAxes axis ∨ server.Accepts
  | _ => True

/-- A request to stop an axis is sent if the last accepted command lets it move. -/
def StopSent (server : LinuxCnc R) : JogEvent → Prop
  | .sendJog axis velocity =>
      server.emcStatus ≠ none →
      arith.eq (arith.mul (arith.number velocity) (server.maxSpeed axis)) (arith.ofInt 0) = true →
      ∀ moving ∈ lastJog axis server.sent, arith.eq moving (arith.ofInt 0) = false →
        (sendAxis arith build axis velocity).Ends server fun _ next =>
          ∃ mode accepted, next.sent = server.sent ++ [(.jogStop mode axis, accepted)]
  | _ => True

theorem lastJog_append (axis : Fin maxAxes) (sent : List (NmlCommand R × Bool))
    (entry : NmlCommand R × Bool) :
    lastJog axis (sent ++ [entry]) = (jogOf axis entry).getD (lastJog axis sent) := by
  cases jog : jogOf axis entry <;> simp [lastJog, jog]

theorem jogOf_command (stop : Bool) (mode : Option Bool) (axis other : Fin maxAxes) (vel : R)
    (accepted : Bool) :
    jogOf other (if stop then .jogStop mode axis else .jog mode axis vel, accepted) =
      if accepted = true ∧ axis = other then some (if stop then none else some vel) else none := by
  cases stop <;> cases accepted <;> simp [jogOf]

variable {server : LinuxCnc R} {axis : Fin maxAxes} {vel : R}

/-- `SendJog` with a velocity that is not cached. -/
theorem sendJog_eq (connected : server.Connected)
    (fresh : arith.eq vel (server.jogAxes axis) = false) :
    ∃ mode accepted after, transmit server = some (accepted, after) ∧
      after.driven = server.driven ∧
      sendJog arith build axis vel server = some ((),
        { after with
          sent := after.sent ++
            [(if arith.eq vel (arith.ofInt 0) then .jogStop mode axis else .jog mode axis vel,
              accepted)]
          jogAxes := Function.update after.jogAxes axis vel }) := by
  obtain ⟨mode, still⟩ : ∃ mode, jogMode build server = some (mode, server) := by
    have ends : (jogMode build).Ends server fun _ next => next = server := by
      simp only [jogMode, ends_ite, ends_pure, readStatus, ends_bind, ends_get, ends_follow,
        connected.live, true_and, ite_self]
    obtain ⟨mode, _, runs, rfl⟩ := ends
    exact ⟨mode, runs⟩
  obtain ⟨accepted, after, sends, -⟩ := transmit_keeps server connected
  refine ⟨mode, accepted, after, sends, transmit_frames sends, ?_⟩
  have ends : (sendJog arith build axis vel).Ends server fun _ next => next =
      { after with
        sent := after.sent ++
          [(if arith.eq vel (arith.ofInt 0) then .jogStop mode axis else .jog mode axis vel,
            accepted)]
        jogAxes := Function.update after.jogAxes axis vel } := by
    simp only [sendJog, command, commandSend, ends_bind, ends_get, fresh, ends_iff_of_eq still,
      ends_iff_of_eq sends, ends_map, ends_modify, ends_pure, Bool.false_eq_true, if_false]
  obtain ⟨_, _, runs, rfl⟩ := ends
  exact runs

theorem agrees_sendJog_iff (connected : server.Connected) (agrees : Agrees arith server)
    (fresh : arith.eq vel (server.jogAxes axis) = false) :
    ((sendJog arith build axis vel).Ends server fun _ next => Agrees arith next) ↔
      vel = server.jogAxes axis ∨ server.Accepts := by
  obtain ⟨mode, accepted, after, sends, same, runs⟩ := sendJog_eq arith build connected fresh
  obtain ⟨cached, sent, -⟩ : after.jogAxes = server.jogAxes ∧ after.sent = server.sent ∧ _ := by
    simpa [driven] using same
  rw [Accepts, ends_iff_of_eq sends, ends_iff_of_eq runs]
  simp only [Agrees, lastJog_append, jogOf_command, cached, sent]
  cases accepted with
  | true =>
      refine iff_of_true (fun other => ?_) (.inr rfl)
      by_cases same : axis = other
      · subst same
        cases stop : arith.eq vel (arith.ofInt 0) <;> simp [Agree, stop]
      · simpa [same, Ne.symm same] using agrees other
  | false =>
      have before := agrees axis
      constructor
      · intro after
        have after := after axis
        simp only [Function.update_self, Bool.false_eq_true, false_and, if_false,
          Option.getD_none] at after
        cases last : lastJog axis server.sent with
        | some moving =>
            rw [last] at before after
            exact .inl (after.trans before.symm)
        | none =>
            rw [last] at before after
            -- both are zero, so that `SendJog` would have returned at once
            rw [arith.eq_of_zero after before] at fresh
            cases fresh
      · rintro (same | refused)
        · intro other
          simpa [same] using agrees other
        · cases refused

/-- A velocity that is cached is not sent. -/
theorem sendJog_of_cached (cached : arith.eq vel (server.jogAxes axis) = true) :
    sendJog arith build axis vel server = some ((), server) := by
  have ends : (sendJog arith build axis vel).Ends server fun _ next => next = server := by
    simp only [sendJog, ends_bind, ends_get, cached, if_true, ends_pure]
  obtain ⟨_, _, runs, rfl⟩ := ends
  exact runs

theorem partProgram_frames {event : JogEvent}
    (quiet : ∀ axis velocity, event ≠ .sendJog axis velocity) :
    (partProgram arith build event).Frames jogs := by
  cases event with
  | sendJog axis velocity => exact absurd rfl (quiet axis velocity)
  | setMode => exact connected_frames _ (.map _ (setMode_frames _))
  | other event still =>
      cases event with
      | connectNml => exact .map _ (frames_jogs connectNml_frames)
      | connectLCnc => exact .map _ (frames_jogs (connectLCnc_frames arith))
      | disconnectNml => exact frames_jogs disconnectNml_frames
      | call call =>
          refine handle_frames arith build fun velocities same => ?_
          subst same
          cases still

theorem Agrees.congr {next : LinuxCnc R} (agrees : Agrees arith server)
    (same : next.jogs = server.jogs) : Agrees arith next := by
  obtain ⟨cached, sent⟩ := Prod.mk.inj same
  intro axis
  have sent := congrFun sent axis
  rw [cached, lastJog, sent]
  exact agrees axis

/-- What a part of a call does to the cache. -/
theorem agrees_partProgram_iff (event : JogEvent) (linked : server.Linked)
    (agrees : Agrees arith server) :
    ((partProgram arith build event).Ends server fun _ next => Agrees arith next) ↔
      JogAccepted arith server event := by
  cases event with
  | other | setMode =>
      obtain ⟨value, next, runs, -⟩ := partProgram_keeps arith build _ server linked
      refine iff_of_true ⟨value, next, runs, agrees.congr arith ?_⟩ trivial
      exact partProgram_frames arith build (by simp) runs
  | sendJog axis velocity =>
      by_cases null : server.emcStatus = none
      · refine iff_of_true ⟨(), server, connected_of_none null, agrees⟩ (.inl null)
      simp only [JogAccepted, null, false_or]
      have runs : partProgram arith build (.sendJog axis velocity) server =
          sendJog arith build axis (arith.mul (arith.number velocity) (server.maxSpeed axis))
            server := connected_of_ne null
      cases fresh : arith.eq (arith.mul (arith.number velocity) (server.maxSpeed axis))
          (server.jogAxes axis) with
      | true =>
          refine iff_of_true ⟨(), server, ?_, agrees⟩ (.inl rfl)
          exact runs.trans (sendJog_of_cached arith build fresh)
      | false =>
          have sent := agrees_sendJog_iff arith build ⟨linked, null⟩ agrees fresh
          simp only [Ends, runs, Bool.false_eq_true, false_or] at sent ⊢
          exact sent

theorem Agrees.stopSent (event : JogEvent) (linked : server.Linked) (agrees : Agrees arith server) :
    StopSent arith build server event := by
  cases event with
  | other | setMode => trivial
  | sendJog axis velocity =>
      intro nonnull stop moving last moves
      have cached := agrees axis
      rw [last] at cached
      have fresh : arith.eq (arith.mul (arith.number velocity) (server.maxSpeed axis))
          (server.jogAxes axis) = false := by
        by_contra same
        rw [Bool.not_eq_false, cached] at same
        rw [arith.zero_of_eq stop same] at moves
        cases moves
      obtain ⟨mode, accepted, after, sends, same, runs⟩ :=
        sendJog_eq arith build ⟨linked, nonnull⟩ fresh
      obtain ⟨-, sent, -⟩ : after.jogAxes = server.jogAxes ∧ after.sent = server.sent ∧ _ := by
        simpa [driven] using same
      refine ⟨(), _, runs, mode, accepted, ?_⟩
      simp [sent, stop]

/-- In a run of the server the cache holds what was last accepted after every `SendJog` exactly
when every `SendJog` is accepted; in such a run no request to stop a moving axis is dropped. -/
theorem agrees_iff (nextTime : Int) (control : EmcStat R) (tape : Nat → NmlAnswer R)
    (events : List LinuxEvent) :
    ((machine (partProgram arith build)).Always
          (fun reached => ∃ server ∈ reached, Agrees arith server)
          (some (start arith nextTime control tape)) (events.flatMap LinuxEvent.parts) ↔
        (machine (partProgram arith build)).Guarded
          (fun reached event => ∀ server ∈ reached, JogAccepted arith server event)
          (some (start arith nextTime control tape)) (events.flatMap LinuxEvent.parts)) ∧
      ((machine (partProgram arith build)).Guarded
          (fun reached event => ∀ server ∈ reached, JogAccepted arith server event)
          (some (start arith nextTime control tape)) (events.flatMap LinuxEvent.parts) →
        (machine (partProgram arith build)).Guarded
          (fun reached event => ∀ server ∈ reached, StopSent arith build server event)
          (some (start arith nextTime control tape)) (events.flatMap LinuxEvent.parts)) := by
  have linked := start_linked arith nextTime control tape
  have agrees : Agrees arith (start arith nextTime control tape) := fun _ => arith.zero_eq_zero
  constructor
  · refine @always_iff_guarded _ _ (partProgram arith build) (JogAccepted arith) (Agrees arith)
      (fun server => server.Linked ∧ Agrees arith server) ?_ ?_ ?_ _ ⟨linked, agrees⟩ _
    · rintro server event ⟨linked, agrees⟩ accepted
      have kept := partProgram_keeps arith build event server linked
      exact kept.and ((agrees_partProgram_iff arith build event linked agrees).mpr accepted)
    · exact And.right
    · rintro server event ⟨linked, agrees⟩ refused ends
      exact refused ((agrees_partProgram_iff arith build event linked agrees).mp ends)
  · intro guarded
    refine @Machine.Guarded.mono_of_invariant _ _ _ _ _
      (fun reached => ∃ server ∈ reached, server.Linked ∧ Agrees arith server) ?_ ?_ _ _ guarded
      ⟨_, rfl, linked, agrees⟩
    · rintro _ event next ⟨server, rfl, linked, agrees⟩ accepted step
      have kept := partProgram_keeps arith build event server linked
      obtain ⟨final, stepped, kept⟩ := (kept.and
        ((agrees_partProgram_iff arith build event linked agrees).mpr (accepted server rfl))).step
      exact ⟨final, Option.some.inj (step.symm.trans stepped), kept⟩
    · rintro _ event ⟨server, rfl, linked, agrees⟩ - _ ⟨⟩
      exact agrees.stopSent arith build event linked

/-- The first request to jog after the connection, which the control does not accept because
writing the command fails. -/
theorem not_agrees_of_refusal :
    ¬(machine (partProgram (.exact fun bits => bits.toNat) ⟨false, 255⟩)).Always
      (fun reached => ∃ server ∈ reached, Agrees (.exact fun bits => bits.toNat) server)
      (some (start (.exact fun bits => bits.toNat) 0 .rest fun _ => ⟨1, .rest, false⟩))
      ([.connectNml, .call (.jogVel ⟨fun _ => 1⟩)].flatMap LinuxEvent.parts) := by
  decide +kernel

end LinuxCnc

end CncRemote
