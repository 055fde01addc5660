import CncRemote.JogCache
import CncRemote.Watchdog

/-!
# The heartbeat of LinuxCNC

`UpdateState` watches the heartbeat of the task controller and disconnects from a control whose
heartbeat has stopped.  Every run of requests is a run of a watchdog over the looks that `GetState_`
takes: `offline_of_frozen` says how soon a control that has died is reported to be offline, and
`online_of_beating` that one that is alive never is.
-/

namespace CncRemote

open Program

namespace LinuxCnc

variable {R : Type}

/-- The watchdog over the heartbeat, as long as there is a status. -/
def watchdog (server : LinuxCnc R) : Option (Watchdog UInt32) :=
  if server.emcStatus = none then none else some ⟨server.heartbeat, server.nextTime⟩

/-- What the check of the heartbeat sees, which looks at the clock again only if it is late. -/
def seen (server : LinuxCnc R) : Look UInt32 where
  time := (server.tape 0).value
  beat := (server.content (server.emcStatus.getD 0)).heartbeat
  later :=
    if (server.tape 0).value ≤ server.nextTime then (server.tape 0).value
    else (server.tape 1).value

/-- What a request sees of the heartbeat: `GetState_` looks at it if it reaches the control. -/
def glance (server : LinuxCnc R) : ServerCall → Option (Look UInt32)
  | .getState_ =>
      match reachable server with
      | some (true, next) => some next.seen
      | _ => none
  | _ => none

variable (arith : Arith R) (build : Build)

/-- What the requests of a run see. -/
def glances (server : LinuxCnc R) : List ServerCall → List (Look UInt32)
  | [] => []
  | call :: calls =>
      match handle arith build call server with
      | none => []
      | some (_, next) => (glance server call).toList ++ glances next calls

section Preserves

variable {inv : LinuxCnc R → Prop}

theorem forM_preserves {β : Type} {body : β → Program (LinuxCnc R) Unit}
    (once : ∀ item, (body item).Preserves inv) (items : List β) :
    (items.forM body).Preserves inv := by
  induction items with
  | nil => exact .pure _
  | cons item items ih => exact .bind (once item) fun _ => ih

/-- A request other than `GetState_` sends commands and stores velocities, and otherwise only
reads. -/
theorem handle_preserves (sends : ∀ cmd, (commandSend cmd).Preserves inv)
    (stores : ∀ server jogAxes, inv server → inv { server with jogAxes }) {call : ServerCall}
    (other : call ≠ .getState_) : (handle arith build call).Preserves inv := by
  have command (cmd : NmlCommand R) : (command cmd).Preserves inv := .map _ (sends cmd)
  have mode (mode : TaskMode) : (setMode mode : Program (LinuxCnc R) Bool).Preserves inv :=
    .bind readStatus_preserves fun _ => .ite (.pure _) (sends _)
  have tests {α : Type} (absent : α) {body : Program (LinuxCnc R) α} (rest : body.Preserves inv) :
      (connected absent body).Preserves inv := .bind .get fun _ => .ite (.pure _) rest
  cases call with
  | getState_ => exact absurd rfl other
  | drivesOn state => exact tests _ (.ite (.bind (command _) fun _ => command _) (command _))
  | jogVel velocities =>
      refine tests _ (.bind (mode _) fun _ => forM_preserves (fun axis => ?_) _)
      refine .bind .get fun _ => .bind .get fun _ => .ite (.pure _) (.bind ?_ fun jogmode => ?_)
      · exact .ite (.pure _) (.bind readStatus_preserves fun _ => .pure _)
      · exact .bind (command _) fun _ => .modify fun server => stores server _
  | jogStep distance speed =>
      refine tests _ (.bind (mode _) fun _ => .bind (sends _) fun _ => .ite (.pure _) ?_)
      refine forM_preserves (fun axis => .ite (.pure _) ?_) _
      exact .bind readStatus_preserves fun _ => .bind .get fun _ => command _
  | mdi line => exact .map _ (tests _ (.bind (mode _) fun _ => sends _))
  | loadFile | closeFile | sendInit => exact .map _ (tests _ (sends _))
  | cycleStart => exact tests _ (.bind (mode _) fun _ => command _)
  | feedOverride | spindleOverride | rapidOverride | cycleStop | feedHold | blockDelete | singleStep
    | optionalStop => exact tests _ (command _)
  | home axes =>
      refine tests _ (.bind (mode _) fun _ => .bind (command _) fun _ => ?_)
      exact .ite (command _) (forM_preserves (fun _ => command _) _)
  | getOffset index =>
      refine .map _ (tests _ (.bind readStatus_preserves fun _ => ?_))
      exact .ite (.pure _) (.ite (.pure _) (.ite (.pure _) (.pure _)))
  | getGCodes | getMCodes =>
      exact .map _ (tests _ (.bind readStatus_preserves fun _ => .pure _))
  | sendData | getError | getMessage | version | startPreview | getPreview | endPreview =>
      exact .pure _

end Preserves

section Watched

/-- What the watchdog is about. -/
def watched (server : LinuxCnc R) : Pointer × UInt32 × Int :=
  (server.emcStatus, server.heartbeat, server.nextTime)

theorem watchdog_congr {server next : LinuxCnc R} (same : next.watched = server.watched) :
    next.watchdog = server.watchdog := by
  simp only [watched, Prod.mk.injEq] at same
  obtain ⟨status, heartbeat, nextTime⟩ := same
  rw [watchdog, watchdog, status, heartbeat, nextTime]

theorem ask_frames_watched : (ask : Program (LinuxCnc R) (NmlAnswer R)).Frames watched := by
  rintro _ _ _ ⟨⟩
  rfl

theorem library_frames_watched : (library : Program (LinuxCnc R) Int).Frames watched := by
  rintro _ _ _ ⟨⟩
  rfl

theorem follow_frames_watched (pointer : Pointer) :
    (follow pointer : Program (LinuxCnc R) Unit).Frames watched :=
  .bind .get fun _ => .ite (.pure _) .fault

theorem peekStatus_frames_watched : (peekStatus : Program (LinuxCnc R) Int).Frames watched := by
  refine .bind .get fun _ => .bind (follow_frames_watched _) fun _ => ?_
  refine .bind library_frames_watched fun _ => .ite (.pure _) (.bind (.modify ?_) fun _ => .pure _)
  exact fun _ => rfl

theorem valid_frames_watched (channel : Pointer) :
    (valid channel : Program (LinuxCnc R) Bool).Frames watched := by
  refine .bind (follow_frames_watched channel) fun _ => ?_
  exact .bind library_frames_watched fun _ => .pure _

theorem reachable_frames_watched : (reachable : Program (LinuxCnc R) Bool).Frames watched := by
  refine .bind (.bind .get fun _ => .ite (.pure _) (.ite (.pure _) ?_)) fun _ => ?_
  · refine .bind (valid_frames_watched _) fun _ => .ite (.pure _) ?_
    exact .ite (.pure _) (valid_frames_watched _)
  · exact .ite (.pure _) (.bind peekStatus_frames_watched fun _ => .pure _)

theorem handle_frames_watched {call : ServerCall} (other : call ≠ .getState_) :
    (handle arith build call).Frames watched := by
  intro server value next runs
  have sends (cmd : NmlCommand R) :
      (commandSend cmd).Preserves (watched · = server.watched) := by
    refine .bind ?_ fun _ => .bind (.modify fun _ => id) fun _ => .pure _
    exact transmit_preserves (ask_frames_watched.preserves (· = server.watched))
      (library_frames_watched.preserves (· = server.watched))
      (peekStatus_frames_watched.preserves (· = server.watched))
  exact handle_preserves arith build sends (fun _ _ => id) other rfl runs

end Watched

section Step

variable {server next : LinuxCnc R}

theorem watchdog_of_ne (nonnull : server.emcStatus ≠ none) :
    server.watchdog = some ⟨server.heartbeat, server.nextTime⟩ := if_neg nonnull

theorem watchdog_of_none (null : server.emcStatus = none) : server.watchdog = none := if_pos null

theorem emcStatus_of_disconnectNml {value : Unit}
    (runs : disconnectNml server = some (value, next)) : next.emcStatus = none := by
  -- three channels are deleted first
  obtain ⟨_, -, runs⟩ := Option.bind_eq_some_iff.mp runs
  obtain ⟨_, -, runs⟩ := Option.bind_eq_some_iff.mp runs
  obtain ⟨_, -, runs⟩ := Option.bind_eq_some_iff.mp runs
  obtain ⟨⟩ := runs
  rfl

theorem ends_alive (connected : server.Connected) :
    alive.Ends server fun live next =>
      next.Connected ∧
        Watchdog.look ⟨server.heartbeat, server.nextTime⟩ server.seen =
          if live = true then next.watchdog else none := by
  refine (alive_keeps server connected).and ?_
  have nonnull : server.emcStatus ≠ none := connected.2
  simp only [alive, readStatus, ends_bind, ends_time, ends_get, ends_ite, ends_pure, ends_follow,
    ends_modify, if_true, Bool.false_eq_true, if_false]
  split
  · rename_i early
    rw [Watchdog.look_of_early early]
    exact (watchdog_of_ne nonnull).symm
  · rename_i late
    refine ⟨connected.live, ?_⟩
    have later : server.seen.later = (server.tape 1).value := if_neg late
    split
    · rename_i same
      exact Watchdog.look_of_same (Int.not_le.mp late) same
    · rename_i new
      rw [Watchdog.look_of_new (Int.not_le.mp late) new, later]
      exact (if_neg nonnull).symm

theorem ends_updateState (linked : server.Linked) :
    (updateState arith).Ends server fun _ next =>
      next.watchdog = server.watchdog.bind fun dog =>
        dog.watch (server.glance .getState_).toList := by
  by_cases null : server.emcStatus = none
  · simp only [updateState, ends_bind, ends_get, if_pos null, setMachineState, ends_modify]
    rw [watchdog_of_none null]
    exact if_pos null
  · obtain ⟨up, middle, runs, connected⟩ := reachable_keeps server ⟨linked, null⟩
    have same := watchdog_congr (reachable_frames_watched runs)
    simp only [updateState, ends_bind, ends_get, if_neg null, ends_iff_of_eq runs]
    cases up with
    | false =>
        have blind : server.glance .getState_ = none := by
          simp only [glance, runs]
        simp only [if_true, ends_pure, blind]
        rw [same, watchdog_of_ne null]
        rfl
    | true =>
        have looks : server.glance .getState_ = some middle.seen := by
          simp only [glance, runs]
        have dog : server.watchdog = some ⟨middle.heartbeat, middle.nextTime⟩ := by
          rw [← same, watchdog_of_ne connected.2]
        obtain ⟨live, after, checks, kept, looked⟩ := ends_alive connected
        simp only [Bool.true_eq_false, if_false, ends_bind, ends_iff_of_eq checks, looks, dog]
        rw [Option.bind_some, Option.toList_some, Watchdog.watch_cons, looked]
        cases live with
        | false =>
            have held : Held { after with
                state := { after.state with machineState := ControlState.offline.code } } :=
              kept.1.held
            simp only [if_true, setMachineState, ends_bind, ends_modify]
            obtain ⟨_, final, disconnects, -⟩ := held.ends_disconnectNml
            rw [ends_iff_of_eq disconnects]
            exact watchdog_of_none (emcStatus_of_disconnectNml disconnects)
        | true =>
            simp only [readStatus, ends_bind, ends_get, ends_follow, ends_pure, ends_modify,
              Bool.true_eq_false, if_false, if_true, watchdog_of_ne kept.2]
            exact ⟨kept.live, if_neg kept.2⟩

/-- Requests other than `GetState_` do not look at the heartbeat. -/
theorem glance_of_ne {call : ServerCall} (other : call ≠ .getState_) :
    server.glance call = none := by
  cases call with
  | getState_ => exact absurd rfl other
  | _ => rfl

/-- A request is at most one look of the watchdog. -/
theorem watchdog_handle (linked : server.Linked) {call : ServerCall} {value : Unit}
    (runs : handle arith build call server = some (value, next)) :
    next.watchdog = server.watchdog.bind fun dog => dog.watch (server.glance call).toList := by
  by_cases reads : call = .getState_
  · subst reads
    have ends : (handle arith build .getState_).Ends server fun _ next =>
        next.watchdog = server.watchdog.bind fun dog =>
          dog.watch (server.glance .getState_).toList := by
      simp only [handle, getState_, ends_map, ends_bind, ends_get, ends_pure]
      exact ends_updateState arith linked
    exact (ends_iff_of_eq runs _).mp ends
  · have same := watchdog_congr (handle_frames_watched arith build reads runs)
    rw [same, glance_of_ne reads]
    exact (Option.bind_fun_some _).symm

/-- A run of requests is a run of the watchdog over the looks that they take. -/
theorem watchdog_run (linked : server.Linked) (calls : List ServerCall) :
    ∃ next, (machine (program arith build)).run (some server) (calls.map .call) =
        some (some next) ∧ next.Linked ∧
      next.watchdog =
        server.watchdog.bind fun dog => dog.watch (glances arith build server calls) := by
  induction calls generalizing server with
  | nil => exact ⟨server, rfl, linked, (Option.bind_fun_some _).symm⟩
  | cons call calls ih =>
      obtain ⟨value, middle, runs, kept⟩ := handle_keeps arith build call server linked
      obtain ⟨next, ran, linked', watches⟩ := ih kept
      have step : (machine (program arith build)).step (some server) (.call call) =
          some (some middle) := step_eq_some_some.mpr ⟨value, runs⟩
      refine ⟨next, Machine.run_cons_eq_some.mpr ⟨_, step, ran⟩, linked', ?_⟩
      rw [watches, watchdog_handle arith build linked runs, Option.bind_assoc]
      simp only [glances, runs, Watchdog.watch_append]

end Step

section Heartbeat

variable {server : LinuxCnc R} {calls : List ServerCall}

/-- The watchdog has given up exactly if there is no status. -/
theorem watchdog_eq_none_iff : server.watchdog = none ↔ server.emcStatus = none := by
  by_cases null : server.emcStatus = none
  · exact iff_of_true (watchdog_of_none null) null
  · rw [watchdog_of_ne null]
    exact iff_of_false (Option.some_ne_none _) null

theorem offline_of_none (null : server.emcStatus = none) :
    (getState_ arith).Ends server fun state _ =>
      state.machineState = ControlState.offline.code := by
  simp only [getState_, updateState, ends_bind, ends_get, if_pos null, setMachineState, ends_modify,
    ends_pure]

/-- Whatever is requested of a server whose watchdog gives up, it is offline from then on. -/
theorem offline_of_watch (linked : server.Linked) (nonnull : server.emcStatus ≠ none)
    (given : Watchdog.watch ⟨server.heartbeat, server.nextTime⟩
      (glances arith build server calls) = none) (more : List ServerCall) :
    ∃ next, (machine (program arith build)).run (some server) ((calls ++ more).map .call) =
        some (some next) ∧
      (getState_ arith).Ends next fun state _ =>
        state.machineState = ControlState.offline.code := by
  obtain ⟨middle, ran, linked, watches⟩ := watchdog_run arith build linked calls
  obtain ⟨next, ran', -, watches'⟩ := watchdog_run arith build linked more
  refine ⟨next, ?_, offline_of_none arith (watchdog_eq_none_iff.mp ?_)⟩
  · rw [List.map_append, Machine.run_append, ran]
    exact ran'
  · rw [watches', watches, watchdog_of_ne nonnull, Option.bind_some, given]
    rfl

/-- A control whose heartbeat has stopped is reported to be offline from the second of two looks on
of which the first comes when the server is due to look at the heartbeat again and the second more
than a second later, whatever else is requested in between and afterwards. -/
theorem offline_of_frozen (linked : server.Linked) (nonnull : server.emcStatus ≠ none) {now : Int}
    {beat : UInt32} {front middle back : List (Look UInt32)} {first second : Look UInt32}
    (looks : glances arith build server calls = front ++ first :: (middle ++ second :: back))
    (forward : Look.Forward now (glances arith build server calls))
    (frozen : ∀ look ∈ glances arith build server calls, look.beat = beat)
    (late : server.nextTime < first.time) (later : first.later + 1 < second.time)
    (more : List ServerCall) :
    ∃ next, (machine (program arith build)).run (some server) ((calls ++ more).map .call) =
        some (some next) ∧
      (getState_ arith).Ends next fun state _ =>
        state.machineState = ControlState.offline.code := by
  apply offline_of_watch arith build linked nonnull
  rw [looks] at forward frozen ⊢
  exact Watchdog.watch_eq_none forward frozen late later

/-- A control that answers once a second, and whose heartbeat is the one of the second. -/
def answering (heartbeat : Nat → UInt32) (second : Nat) : NmlAnswer ℚ :=
  ⟨second + 1, { EmcStat.rest with heartbeat := heartbeat second }, false⟩

/-- A heartbeat that stops in the tenth second. -/
theorem offline_of_stopped :
    ∃ server next : LinuxCnc ℚ,
      (machine (program (.exact fun _ => 0) ⟨false, 255⟩)).run (some server)
          (([ServerCall.getState_, .getState_] ++ [ServerCall.cycleStart]).map .call) =
            some (some next) ∧
        (getState_ (.exact fun _ => 0)).Ends next fun state _ =>
          state.machineState = ControlState.offline.code := by
  obtain ⟨server, reached, nonnull, late, looks⟩ := @exists_reached ℚ (.exact fun _ => 0)
    ⟨false, 255⟩ 0 .rest (answering fun second => if second < 10 then 0 else 1) [.connectLCnc]
    (fun server => server.emcStatus ≠ none ∧ server.nextTime < 14 ∧
      glances (.exact fun _ => 0) ⟨false, 255⟩ server [.getState_, .getState_] =
        [] ++ ⟨14, 1, 15⟩ :: ([] ++ ⟨19, 1, 20⟩ :: []))
    (by decide +kernel)
  have linked := linked_of_reached (.exact fun _ => 0) ⟨false, 255⟩ reached
  have forward : Look.Forward 10 (glances (.exact fun _ => 0) ⟨false, 255⟩ server
      [.getState_, .getState_]) := by
    rw [looks]
    exact ⟨by decide, by decide, by decide, by decide, trivial⟩
  have frozen : ∀ look ∈ glances (.exact fun _ => 0) ⟨false, 255⟩ server [.getState_, .getState_],
      look.beat = 1 := by
    rw [looks]
    decide
  exact ⟨server, offline_of_frozen (.exact fun _ => 0) ⟨false, 255⟩ linked nonnull looks forward
    frozen late (by decide) [.cycleStart]⟩

/-- A control whose heartbeat goes on, so that no two looks more than a second apart find the same
beat, is never taken to be offline, whatever is requested and however often. -/
theorem online_of_beating (linked : server.Linked) (nonnull : server.emcStatus ≠ none)
    (starts : ∀ look ∈ glances arith build server calls, server.nextTime < look.time →
      server.heartbeat ≠ look.beat)
    (goes : (glances arith build server calls).Pairwise fun earlier look =>
      earlier.later + 1 < look.time → earlier.beat ≠ look.beat) :
    ∃ next, (machine (program arith build)).run (some server) (calls.map .call) =
        some (some next) ∧ next.emcStatus ≠ none := by
  obtain ⟨next, ran, -, watches⟩ := watchdog_run arith build linked calls
  refine ⟨next, ran, fun null => ?_⟩
  rw [watchdog_eq_none_iff.mpr null, watchdog_of_ne nonnull, Option.bind_some] at watches
  obtain ⟨front, look, back, looks, twice⟩ := Watchdog.exists_of_watch_eq_none watches.symm
  rw [looks] at starts goes
  obtain ⟨same, late⟩ | ⟨earlier, member, same, late⟩ := twice
  · exact starts look (List.mem_append_right _ List.mem_cons_self) late same
  · have apart := (List.pairwise_append.mp goes).2.2 earlier member look List.mem_cons_self
    exact apart late same

/-- A heartbeat that counts the seconds. -/
theorem online_of_counting :
    ∃ server next : LinuxCnc ℚ,
      (machine (program (.exact fun _ => 0) ⟨false, 255⟩)).run (some server)
          ([ServerCall.getState_, .cycleStart, .getState_].map .call) = some (some next) ∧
        next.emcStatus ≠ none := by
  obtain ⟨server, reached, nonnull, starts, goes⟩ := @exists_reached ℚ (.exact fun _ => 0)
    ⟨false, 255⟩ 0 .rest (answering fun second => .ofNat second) [.connectLCnc]
    (fun server => server.emcStatus ≠ none ∧
      (∀ look ∈ glances (.exact fun _ => 0) ⟨false, 255⟩ server
          [.getState_, .cycleStart, .getState_],
        server.nextTime < look.time → server.heartbeat ≠ look.beat) ∧
      (glances (.exact fun _ => 0) ⟨false, 255⟩ server
          [.getState_, .cycleStart, .getState_]).Pairwise
        fun earlier look => earlier.later + 1 < look.time → earlier.beat ≠ look.beat)
    (by decide +kernel)
  have linked := linked_of_reached (.exact fun _ => 0) ⟨false, 255⟩ reached
  exact ⟨server, online_of_beating (.exact fun _ => 0) ⟨false, 255⟩ linked nonnull starts goes⟩

end Heartbeat

end LinuxCnc

end CncRemote
