import CncRemote.Mach

/-!
# Locks of the Mach3 server

`GetLock` and `GetState` hold `m_syncLock` for a scope.  `locksOnce_iff` says in which calls the
scopes of one thread nest.
-/

namespace CncRemote

open Program

namespace MachServer

/-- The two mutexes, as far as the running thread holds them. -/
def locks (server : MachServer) : Bool × Bool := (server.syncLock, server.msgLock)

/-- The running thread holds none of the two mutexes. -/
def Free (server : MachServer) : Prop := server.locks = (false, false)

/-- `CloseFile`, which `SendInit` calls, finds a program running, and `Home` is asked for all
axes. -/
def LocksOnce (server : MachServer) : MachEvent → Prop
  | .call _ _ .closeFile | .call _ _ (.sendInit _) =>
      ControlState.running.code ≤ server.state.machineState
  | .call _ _ (.home axes) => (List.finRange maxAxes).all axes.array = true
  | _ => True

instance (server : MachServer) (event : MachEvent) : Decidable (server.LocksOnce event) := by
  unfold LocksOnce
  split <;> infer_instance

theorem ends_syncMutex {α : Type} {body : Program MachServer α} (leaves : body.Leaves locks)
    {server : MachServer} (free : server.Free) :
    (syncMutex.guard body).Ends server fun _ next => next.Free := by
  obtain ⟨sync, msg⟩ := Prod.mk.inj free
  rw [Mutex.ends_guard]
  refine ⟨sync, (leaves _).mono fun _ next same => ?_⟩
  exact Prod.ext rfl ((congrArg Prod.snd same).trans msg)

theorem ends_msgMutex {α : Type} {body : Program MachServer α} (leaves : body.Leaves locks)
    {server : MachServer} (free : server.Free) :
    (msgMutex.guard body).Ends server fun _ next => next.Free := by
  obtain ⟨sync, msg⟩ := Prod.mk.inj free
  rw [Mutex.ends_guard]
  refine ⟨msg, (leaves _).mono fun _ next same => ?_⟩
  exact Prod.ext ((congrArg Prod.fst same).trans sync) rfl

theorem ends_of_leaves {α : Type} {body : Program MachServer α} (leaves : body.Leaves locks)
    {server : MachServer} (free : server.Free) : body.Ends server fun _ next => next.Free :=
  (leaves server).mono fun _ _ same => same.trans free

variable (api : MachApi)

theorem changeMach3_leaves (change : Mach3 → Mach3) : (changeMach3 change).Leaves locks :=
  .modify fun _ => rfl

theorem setMachineState_leaves (value : ControlState) : (setMachineState value).Leaves locks :=
  .modify fun _ => rfl

theorem ends_loadFile (file : Bytes) {server : MachServer} (free : server.Free) :
    (loadFile api file).Ends server fun _ next => next.Free := by
  refine ends_syncMutex (.bind .get fun server => .ite (.pure false) ?_) free
  cases api.toWide (cString file) with
  | none => exact .bind (.modify fun _ => rfl) fun _ => .pure false
  | some path =>
      refine .bind (.modify fun _ => rfl) fun _ => .bind (setMachineState_leaves _) fun _ => ?_
      exact .bind (.modify fun _ => rfl) fun _ => .pure true

theorem ends_startLoop (app scripter : Bool) {server : MachServer} (free : server.Free) :
    (startLoop app scripter).Ends server fun _ next => next.Free := by
  rw [startLoop, logError]
  split
  · rw [if_neg (by decide)]
    refine ends_msgMutex ?_ free
    exact .modify fun _ => rfl
  · refine ends_of_leaves ?_ free
    exact .modify fun _ => rfl

theorem ends_poll {server : MachServer} (free : server.Free) :
    poll.Ends server fun _ next => next.Free := by
  rw [poll, ends_bind, ends_modify]
  refine ends_syncMutex ?_ free
  exact .modify fun _ => rfl

theorem ends_loadThreadTest {server : MachServer} (free : server.Free) :
    loadThreadTest.Ends server fun _ next => next.Free := by
  refine ends_of_leaves ?_ free
  refine .modify fun server => ?_
  split
  · rfl
  · split <;> rfl

theorem ends_loadThreadLoad {server : MachServer} (free : server.Free) :
    (loadThreadLoad api).Ends server fun _ next => next.Free := by
  simp only [loadThreadLoad, ends_bind, ends_get, ends_ite, ends_pure, ends_modify]
  split
  · exact free
  · refine ends_syncMutex ?_ free
    refine .bind (setMachineState_leaves _) fun _ => .bind .get fun server => .ite ?_ ?_
    · refine .bind (.modify fun _ => rfl) fun _ => .bind (.modify fun _ => rfl) fun _ => ?_
      exact setMachineState_leaves _
    · exact .bind (.modify fun _ => rfl) fun _ => setMachineState_leaves _

/-- `CloseFile` presses its button in a second scope of `m_syncLock`. -/
theorem running_of_ends_closeFile {server : MachServer} {post : Bool → MachServer → Prop}
    (ends : (closeFile api).Ends server post) :
    ControlState.running.code ≤ server.state.machineState := by
  by_contra idle
  simp only [closeFile, Mutex.ends_guard, ends_bind, ends_get, ends_ite] at ends
  rw [if_neg (show ¬_ ≤ (syncMutex.setHeld true server).state.machineState from idle)] at ends
  exact Bool.noConfusion ends.2.1

theorem ends_closeFile {server : MachServer} (free : server.Free)
    (running : ControlState.running.code ≤ server.state.machineState) :
    (closeFile api).Ends server fun _ next => next.Free := by
  obtain ⟨sync, msg⟩ := Prod.mk.inj free
  simp only [closeFile, Mutex.ends_guard, ends_bind, ends_get, ends_ite, ends_pure]
  rw [if_pos (show _ ≤ (syncMutex.setHeld true server).state.machineState from running)]
  exact ⟨sync, Prod.ext rfl msg⟩

theorem all_of_ends_home {axes : BoolAxes} {server : MachServer} {post : Unit → MachServer → Prop}
    (ends : (home api axes).Ends server post) :
    (List.finRange maxAxes).all axes.array = true := by
  by_contra some
  rw [home, if_neg some, Mutex.ends_guard] at ends
  exact Mutex.not_ends_guard_of_held _ rfl _ _ ends.2

theorem createTemp_leaves (temp : WindowsTemp) : (createTemp temp).Leaves locks := by
  unfold createTemp
  refine .bind (.modify fun _ => rfl) fun _ => ?_
  cases temp with
  | refused => exact .pure []
  | created path stream =>
      cases stream with
      | false => exact .bind (.modify fun _ => rfl) fun _ => .pure []
      | true => exact .bind (.modify fun _ => rfl) fun _ => .pure path

theorem sendData_leaves (data : Bytes) (block : Int32) (written : Nat) :
    (sendData data block written).Leaves locks :=
  fun server => by simp [sendData, locks]

/-- A program that locks the state once at most ends without a mutex. -/
theorem ends_program {event : MachEvent} {server : MachServer} (free : server.Free)
    (once : server.LocksOnce event) :
    (program api event).Ends server fun _ next => next.Free := by
  cases event with
  | startLoop app scripter => exact ends_startLoop app scripter free
  | poll => exact ends_poll free
  | test => exact ends_loadThreadTest free
  | load => exact ends_loadThreadLoad api free
  | mach3 memory =>
      refine ends_of_leaves ?_ free
      exact .modify fun _ => rfl
  | call temp written call =>
      rw [program]
      cases call with
      | closeFile =>
          rw [handle, ends_map]
          exact ends_closeFile api free once
      | sendInit nameHint =>
          rw [handle, ends_map, sendInit, ends_bind]
          exact (ends_closeFile api free once).mono fun _ _ free =>
            ends_of_leaves (createTemp_leaves temp) free
      | home axes =>
          rw [handle, home, if_pos (show (List.finRange maxAxes).all axes.array = true from once)]
          exact ends_syncMutex (changeMach3_leaves _) free
      | getState_ =>
          rw [handle, ends_map]
          refine ends_syncMutex ?_ free
          exact .bind (.modify fun _ => rfl) fun _ => .bind .get fun _ => .pure _
      | drivesOn state =>
          refine ends_syncMutex ?_ free
          exact .bind .get fun _ => .ite (changeMach3_leaves _) (.pure ())
      | jogVel velocities =>
          refine ends_of_leaves ?_ free
          exact .modify fun _ => rfl
      | jogStep distance speed => exact ends_of_leaves (.pure ()) free
      | mdi line =>
          rw [handle, ends_map]
          refine ends_syncMutex (.bind .get fun _ => .ite (.pure _) ?_) free
          exact .bind (changeMach3_leaves _) fun _ => .pure _
      | feedOverride percent | spindleOverride percent | rapidOverride percent =>
          exact ends_syncMutex (changeMach3_leaves _) free
      | loadFile fileName =>
          rw [handle, ends_map]
          exact ends_loadFile api fileName free
      | cycleStart => exact ends_syncMutex (changeMach3_leaves _) free
      | cycleStop =>
          refine ends_syncMutex (.bind (changeMach3_leaves _) fun _ => ?_) free
          exact changeMach3_leaves _
      | feedHold state | blockDelete state =>
          refine ends_syncMutex ?_ free
          exact .bind .get fun _ => .ite (changeMach3_leaves _) (.pure ())
      | singleStep state =>
          refine ends_syncMutex (.bind .get fun server => .ite ?_ ?_) free
          · exact .bind (changeMach3_leaves _) fun _ => changeMach3_leaves _
          · exact changeMach3_leaves _
      | optionalStop state =>
          refine ends_syncMutex (.bind (changeMach3_leaves _) fun _ => ?_) free
          exact .bind .get fun _ => .ite (changeMach3_leaves _) (.pure ())
      | getOffset index =>
          rw [handle, ends_map]
          refine ends_of_leaves (.bind .get fun _ => .ite (.pure _) ?_) free
          exact .ite (.pure _) (.pure _)
      | getGCodes | getMCodes =>
          rw [handle, ends_map]
          exact ends_of_leaves (.bind .get fun _ => .pure _) free
      | sendData data block =>
          rw [handle, ends_map]
          exact ends_of_leaves (sendData_leaves data block written) free
      | getError index | getMessage index =>
          rw [handle, ends_map]
          exact ends_msgMutex (.bind .get fun _ => .pure _) free
      | version | startPreview | getPreview | endPreview =>
          exact ends_of_leaves (.pure ()) free

theorem locksOnce_of_ends {event : MachEvent} {server : MachServer}
    {post : Unit → MachServer → Prop} (ends : (program api event).Ends server post) :
    server.LocksOnce event := by
  cases event with
  | startLoop | poll | test | load | mach3 => trivial
  | call temp written call =>
      rw [program] at ends
      cases call with
      | closeFile =>
          rw [handle, ends_map] at ends
          exact running_of_ends_closeFile api ends
      | sendInit nameHint =>
          rw [handle, ends_map, sendInit, ends_bind] at ends
          exact running_of_ends_closeFile api ends
      | home axes => exact all_of_ends_home api ends
      | _ => trivial

theorem Free.step {server next : MachServer} {event : MachEvent} (free : server.Free)
    (step : (machine (program api)).step (some server) event = some (some next)) : next.Free := by
  have ended := ends_of_step step
  obtain ⟨_, _, _, free', rfl⟩ := (ends_program api free (locksOnce_of_ends api ended)).and ended
  exact free'

/-- In a run of the server no thread acquires a mutex that it holds, and none keeps one, exactly
when no thread locks the state twice. -/
theorem locksOnce_iff (curBlock : Int32) (files : Files) (homeSpeed : Fin maxAxes → ℚ)
    (loaded : Bool) (mach3 : Mach3) (events : List MachEvent) :
    (machine (program api)).Always (fun reached => ∃ server ∈ reached, server.Free)
        (some (start curBlock files homeSpeed loaded mach3)) events ↔
      (machine (program api)).Guarded
        (fun reached event => ∀ server ∈ reached, server.LocksOnce event)
        (some (start curBlock files homeSpeed loaded mach3)) events := by
  have fresh : (start curBlock files homeSpeed loaded mach3).Free := by cases loaded <;> rfl
  refine always_iff_guarded ?_ id ?_ fresh events
  · exact fun free once => ends_program api free once
  · exact fun _ twice ends => twice (locksOnce_of_ends api ends)

/-- The first `CloseFile` after the start acquires `m_syncLock` twice. -/
theorem not_free_of_closeFile :
    ¬(machine (program .plain)).Always (fun reached => ∃ server ∈ reached, server.Free)
      (some (start 0 ⟨fun _ => none, fun _ => [], 0, []⟩ (fun _ => 1) true .rest))
      [.call .refused 0 .closeFile] := by
  intro always
  obtain ⟨server, ended, -⟩ := (always.2 none rfl).start
  cases ended

end MachServer

end CncRemote
