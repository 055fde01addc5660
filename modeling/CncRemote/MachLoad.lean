import CncRemote.Mach

/-!
# Files on their way to Mach3

`LoadFile` leaves a path in `m_filePath` and starts a `LoadThread`, which hands the path to Mach3
when it gets to it.  One buffer serves all of them, and `Poll` overwrites the state that marks it as
taken.  `Loads.always` says when no path is lost.
-/

namespace CncRemote

open Program

namespace MachServer

/-- The members that a file goes through. -/
def pipeline (server : MachServer) :
    Bool × List UInt16 × Bool × Nat × Nat × List (List UInt16) × List (List UInt16) :=
  (server.running, server.filePath, server.app, server.started, server.loading, server.accepted,
    server.invoked)

/-- `LoadGCodeFile` has been invoked with the paths that were accepted, in their order and with no
other, and with all of them once no `LoadThread` is left. -/
structure Loaded (server : MachServer) : Prop where
  order : server.invoked <+: server.accepted
  named : [] ∉ server.invoked
  complete : server.started = 0 → server.loading = 0 → server.invoked = server.accepted

/-- A `LoadFile` that gets past its test finds no `LoadThread` that is not done, and its path is not
empty. -/
def LoadsAlone (api : MachApi) (server : MachServer) : MachEvent → Prop
  | .call _ _ (.loadFile file) =>
      server.scripter = true → server.state.machineState < ControlState.running.code →
        server.started = 0 ∧ server.loading = 0 ∧ api.toWide (cString file) ≠ some []
  | _ => True

/-- What is in `m_filePath`: nothing, or the one path that was accepted and not loaded. -/
inductive Pending (server : MachServer) : Prop where
  | none (started : server.started = 0) (loading : server.loading = 0)
      (empty : server.filePath = []) (complete : server.accepted = server.invoked)
  | one (thread : server.started + server.loading = 1) (named : server.filePath ≠ [])
      (last : server.accepted = server.invoked ++ [server.filePath])

/-- What the guarded events keep. -/
structure Loads (server : MachServer) : Prop where
  app : server.app = true
  running : server.running = true
  named : [] ∉ server.invoked
  pending : server.Pending

theorem Loads.loaded {server : MachServer} (loads : server.Loads) : server.Loaded := by
  cases loads.pending with
  | none started loading empty complete =>
      exact ⟨complete ▸ List.prefix_rfl, loads.named, fun _ _ => complete.symm⟩
  | one thread named last =>
      refine ⟨last ▸ List.prefix_append _ _, loads.named, fun started loading => ?_⟩
      omega

theorem Loads.of_pipeline {server next : MachServer} (loads : server.Loads)
    (same : next.pipeline = server.pipeline) : next.Loads := by
  obtain ⟨running, filePath, app, started, loading, accepted, invoked⟩ :
      _ ∧ _ ∧ _ ∧ _ ∧ _ ∧ _ ∧ _ := by simpa [pipeline] using same
  refine ⟨app.trans loads.app, running.trans loads.running, invoked ▸ loads.named, ?_⟩
  cases loads.pending with
  | none started' loading' empty complete =>
      refine .none (started.trans started') (loading.trans loading') (filePath.trans empty) ?_
      rw [accepted, invoked, complete]
  | one thread named last =>
      refine .one (by rw [started, loading, thread]) (filePath ▸ named) ?_
      rw [accepted, invoked, filePath, last]

variable (api : MachApi)

theorem handle_frames_pipeline (temp : WindowsTemp) (written : Nat) {call : ServerCall}
    (stays : ∀ file, call ≠ .loadFile file) : (handle api temp written call).Frames pipeline := by
  by_cases reads : call = .getState_
  · subst reads
    refine .map _ (syncMutex.frames_guard ?_ fun _ _ => rfl)
    exact .bind (.modify fun _ => rfl) fun _ => .bind .get fun _ => .pure _
  · exact (handle_frames api temp written reads stays).comp fun core =>
      (core.2.1, core.2.2.1, core.2.2.2.1, core.2.2.2.2.2)

theorem poll_frames_pipeline : poll.Frames pipeline := by
  refine .bind (.modify fun _ => rfl) fun _ => syncMutex.frames_guard ?_ fun _ _ => rfl
  exact .modify fun _ => rfl

theorem logError_frames_pipeline (error : Bytes) : (logError error).Frames pipeline := by
  refine .ite (.pure ()) (msgMutex.frames_guard ?_ fun _ _ => rfl)
  exact .modify fun _ => rfl

variable {api}

theorem Loads.startLoop {server next : MachServer} {app scripter : Bool} (loads : server.Loads)
    (ends : (startLoop app scripter).Ends server fun _ final => final = next) : next.Loads := by
  cases app with
  | false =>
      obtain ⟨_, _, runs, rfl⟩ := ends
      rw [MachServer.startLoop, if_pos rfl] at runs
      exact loads.of_pipeline (logError_frames_pipeline _ runs)
  | true =>
      obtain rfl : _ = next := by simpa [MachServer.startLoop] using ends
      exact loads.of_pipeline (by simp [pipeline, loads.app])

theorem Loads.test {server next : MachServer} (loads : server.Loads)
    (ends : loadThreadTest.Ends server fun _ final => final = next) : next.Loads := by
  obtain rfl : _ = next := by simpa [loadThreadTest] using ends
  split
  · exact loads
  · rename_i started
    cases loads.pending with
    | none idle => exact absurd idle started
    | one thread named last =>
        rw [if_pos ⟨loads.running, named⟩]
        refine ⟨loads.app, loads.running, loads.named, .one ?_ named last⟩
        dsimp only
        omega

theorem Loads.load {server next : MachServer} (loads : server.Loads)
    (ends : (loadThreadLoad api).Ends server fun _ final => final = next) : next.Loads := by
  by_cases idle : server.loading = 0
  · obtain rfl : server = next := by simpa [loadThreadLoad, idle] using ends
    exact loads
  · cases loads.pending with
    | none _ loading => exact absurd loading idle
    | one thread named last =>
        obtain ⟨-, rfl⟩ : _ ∧ _ = next := by
          simpa [loadThreadLoad, idle, syncMutex, setMachineState, loads.app] using ends
        refine ⟨rfl, loads.running, ?_, .none ?_ ?_ rfl last⟩
        · simpa using ⟨loads.named, named⟩
        · dsimp only
          omega
        · dsimp only
          omega

/-- A path that is accepted becomes the one that is pending. -/
theorem Loads.loadFile {server next : MachServer} {temp : WindowsTemp} {written : Nat}
    {file : Bytes} (loads : server.Loads)
    (alone : server.LoadsAlone api (.call temp written (.loadFile file)))
    (ends : (loadFile api file).Ends server fun _ final => final = next) : next.Loads := by
  by_cases refused : server.scripter = false ∨
      ControlState.running.code ≤ server.state.machineState
  · obtain ⟨-, rfl⟩ : _ ∧ _ = next := by
      simpa [MachServer.loadFile, syncMutex, refused] using ends
    exact loads.of_pipeline rfl
  · obtain ⟨scripter, idle⟩ := not_or.mp refused
    obtain ⟨started, loading, named⟩ :=
      alone (Bool.not_eq_false _ ▸ scripter) (Int32.not_le.mp idle)
    have complete : server.accepted = server.invoked := by
      cases loads.pending with
      | none _ _ _ complete => exact complete
      | one thread => omega
    cases converted : api.toWide (cString file) with
    | none =>
        obtain ⟨-, rfl⟩ : _ ∧ _ = next := by
          simpa [MachServer.loadFile, syncMutex, refused, converted] using ends
        exact ⟨loads.app, loads.running, loads.named, .none started loading rfl complete⟩
    | some path =>
        obtain ⟨-, rfl⟩ : _ ∧ _ = next := by
          simpa [MachServer.loadFile, syncMutex, refused, converted, setMachineState] using ends
        refine ⟨loads.app, loads.running, loads.named, .one ?_ ?_ ?_⟩
        · simp [started, loading]
        · rintro rfl
          exact named converted
        · simp [complete]

theorem Loads.step {server next : MachServer} {event : MachEvent} (loads : server.Loads)
    (alone : server.LoadsAlone api event)
    (step : (machine (program api)).step (some server) event = some (some next)) : next.Loads := by
  have ends := ends_of_step step
  obtain ⟨_, runs⟩ := step_eq_some_some.mp step
  cases event with
  | startLoop app scripter => exact loads.startLoop ends
  | poll => exact loads.of_pipeline (poll_frames_pipeline runs)
  | test => exact loads.test ends
  | load => exact loads.load ends
  | mach3 memory =>
      obtain rfl : _ = next := by simpa [program] using ends
      exact loads.of_pipeline rfl
  | call temp written call =>
      by_cases stays : ∀ file, call ≠ .loadFile file
      · exact loads.of_pipeline (handle_frames_pipeline api temp written stays runs)
      · obtain ⟨file, rfl⟩ : ∃ file, call = .loadFile file := by simpa using stays
        rw [program, handle, ends_map] at ends
        exact loads.loadFile alone ends

/-- From the start of the server, which has found Mach3, no path is lost as long as each `LoadFile`
that gets past its test comes alone. -/
theorem loaded_of_alone {curBlock : Int32} {files : Files} {homeSpeed : Fin maxAxes → ℚ}
    {loaded : Bool} {mach3 : Mach3} {events : List MachEvent}
    (alone : (machine (program api)).Guarded
      (fun reached event => ∀ server ∈ reached, server.LoadsAlone api event)
      (some { start curBlock files homeSpeed loaded mach3 with app := true, scripter := true })
      events) :
    (machine (program api)).Always (fun reached => ∀ server ∈ reached, server.Loaded)
      (some { start curBlock files homeSpeed loaded mach3 with app := true, scripter := true })
      events := by
  refine (always_of_guarded Loads.step ?_ alone).mono fun _ holds server reached =>
    (holds server reached).loaded
  cases loaded <;> exact ⟨rfl, rfl, List.not_mem_nil, .none rfl rfl rfl rfl⟩

instance (api : MachApi) (server : MachServer) (event : MachEvent) :
    Decidable (server.LoadsAlone api event) := by
  unfold LoadsAlone
  split <;> infer_instance

instance (server : MachServer) : Decidable server.Loaded :=
  decidable_of_iff
    (server.invoked <+: server.accepted ∧ [] ∉ server.invoked ∧
      (server.started = 0 → server.loading = 0 → server.invoked = server.accepted))
    ⟨fun ⟨order, named, complete⟩ => ⟨order, named, complete⟩,
      fun ⟨order, named, complete⟩ => ⟨order, named, complete⟩⟩

/-- Two files that are loaded one after the other. -/
theorem loaded_of_two :
    (machine (program .plain)).Always (fun reached => ∀ server ∈ reached, server.Loaded)
      (some { start 0 ⟨fun _ => none, fun _ => [], 0, []⟩ (fun _ => 1) true .rest with
        app := true, scripter := true })
      [.call .refused 0 (.loadFile [97]), .test, .load, .poll,
        .call .refused 0 (.loadFile [98]), .test, .load] :=
  loaded_of_alone (by decide +kernel)

/-- `Poll` lets the second file in while the first one is waiting for its thread, and the first path
is overwritten. -/
theorem not_loaded_of_poll :
    ¬(machine (program .plain)).Always (fun reached => ∀ server ∈ reached, server.Loaded)
      (some { start 0 ⟨fun _ => none, fun _ => [], 0, []⟩ (fun _ => 1) true
          { Mach3.rest with eStop := false } with app := true, scripter := true })
      [.call .refused 0 (.loadFile [97]), .poll, .call .refused 0 (.loadFile [98]), .test, .load,
        .test, .load] := by
  decide +kernel

end MachServer

end CncRemote
