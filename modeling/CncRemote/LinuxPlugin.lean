import CncRemote.Comms
import CncRemote.Heap
import CncRemote.Program

/-!
# The server that the LinuxCNC plugin starts

The plugin runs the server as a child process and reads what it prints through a pipe.  The stream
is the global variable `exec`, which `ExecStart` opens and which `ExecPoll` and `Stop` close.
`always_tidy_iff` says in which runs the variable never outlives the stream.
-/

namespace CncRemote

open Program

/-- What the plugin waits for. -/
inductive PluginPhase where
  /-- No call is running, and the plugin is not started. -/
  | idle
  /-- In the loop of `ControlExists`. -/
  | probing
  /-- At the test of the loop of `Start`. -/
  | launching
  /-- In the loop of `Start` that reads what there is. -/
  | draining
  /-- At the end of the body of the loop of `Start`. -/
  | connecting
  /-- `Start` has returned. -/
  | started
  deriving DecidableEq, Repr

/-- What a stream has to offer. -/
inductive StreamAnswer where
  /-- `feof` is true; the exit status of the child, for which `pclose2` waits. -/
  | ended (status : Int)
  /-- `fgets` reads a line. -/
  | line
  /-- `fgets` returns NULL. -/
  | nothing
  deriving DecidableEq, Repr

/-- The global variables of the plugin, with the streams and the children. -/
structure LinuxPlugin where
  phase : PluginPhase
  /-- The argument of `ControlExists`. -/
  pluginDir : Bytes
  serverPath : Bytes
  exec : Pointer
  execPid : Pointer
  execRet : Int
  /-- The streams that `fdopen` returned; those that were closed are deleted. -/
  streams : Heap
  /-- The children that were forked; those that were waited for are deleted. -/
  children : Heap
  /-- The children for whose pipe `fdopen` returned NULL. -/
  orphans : List Pointer

namespace LinuxPlugin

/-- The plugin after it was loaded. -/
def initial : LinuxPlugin := ⟨.idle, [], [], none, none, -1, .empty, .empty, []⟩

/-- `popen2`, which returns the stream and the child.  A `fork` that fails ends the process, and the
run with it. -/
def popen2 (opened : Bool) : Program LinuxPlugin (Pointer × Pointer) := do
  let child := some (← get).children.next
  modify fun plugin => { plugin with children := plugin.children.new }
  if opened then
    let stream := some (← get).streams.next
    modify fun plugin => { plugin with streams := plugin.streams.new }
    return (stream, child)
  else
    modify fun plugin => { plugin with orphans := child :: plugin.orphans }
    return (none, child)

/-- Use of a stream, which has to be open. -/
def use (stream : Pointer) : Program LinuxPlugin Unit := do
  if (← get).streams.Live stream then pure () else fault

/-- `pclose2`: there is no child to wait for when it was waited for before. -/
def pclose2 (stream child : Pointer) (status : Int) : Program LinuxPlugin Int := do
  use stream
  modify fun plugin => { plugin with streams := plugin.streams.release stream }
  let stat := if (← get).children.Live child then status else -1
  modify fun plugin => { plugin with children := plugin.children.release child }
  return stat

/-- `ExecPoll`. -/
def execPoll (answer : StreamAnswer) : Program LinuxPlugin Bool := do
  let plugin ← get
  if plugin.exec = none then
    return false
  else
    use plugin.exec
    match answer with
    | .ended status =>
        let execRet ← pclose2 plugin.exec plugin.execPid status
        modify fun plugin => { plugin with execRet, exec := none }
        return false
    | .nothing => return false
    | .line => return true

/-- `ExecStart`. -/
def execStart (opened : Bool) : Program LinuxPlugin Bool := do
  modify fun plugin => { plugin with execRet := -1 }
  let (exec, execPid) ← popen2 opened
  modify fun plugin => { plugin with exec, execPid }
  return exec.isSome

/-- The plugin goes on to wait for something else. -/
def enter (phase : PluginPhase) : Program LinuxPlugin Unit :=
  modify fun plugin => { plugin with phase }

/-- The test of the loop of `ControlExists` and, when the loop ends, the return from it. -/
def probed : Program LinuxPlugin Unit := do
  if (← get).exec = none then
    if (← get).execRet = 0 then
      modify fun plugin => { plugin with
        serverPath := plugin.pluginDir ++ ascii "linuxcncserver/cncremote.sh 2>&1" }
      enter .idle
    else
      enter .idle
  else
    enter .probing

/-- `ControlExists` up to its loop, where `running` says whether a server answers the ping. -/
def controlExists (pluginDir : Bytes) (running opened : Bool) : Program LinuxPlugin Unit := do
  if running then
    pure ()
  else
    modify fun plugin => { plugin with pluginDir }
    let _ ← execStart opened
    probed

/-- `Start` up to its loop. -/
def start (running opened : Bool) : Program LinuxPlugin Unit := do
  if running then
    enter .started
  else if (← get).serverPath = [] then
    enter .started
  else if ← execStart opened then
    enter .launching
  else
    enter .started

/-- `Stop`. -/
def stop (status : Int) : Program LinuxPlugin Unit := do
  let plugin ← get
  if plugin.exec = none then
    enter .idle
  else
    let _ ← pclose2 plugin.exec plugin.execPid status
    enter .idle

/-- The calls of a client, and what goes on while they run. -/
inductive PluginEvent where
  | controlExists (pluginDir : Bytes) (running opened : Bool)
  /-- `ExecPoll` in the loop of `ControlExists`. -/
  | probe (answer : StreamAnswer)
  | start (running opened : Bool)
  /-- The test of the loop of `Start`: what comparing the clock with the deadline says. -/
  | again (clock : Bool)
  /-- `ExecPoll` in the loop of `Start`. -/
  | drain (answer : StreamAnswer)
  /-- `Connect` in the loop of `Start`: it returns, or it throws. -/
  | connect (reached : Bool)
  | poll (answer : StreamAnswer)
  /-- `Stop`, with the exit status of the child. -/
  | stop (status : Int)
  deriving DecidableEq, Repr

/-- What happens in one phase only. -/
def awaiting (phase : PluginPhase) (body : Program LinuxPlugin Unit) :
    Program LinuxPlugin Unit := do
  if (← get).phase = phase then body else pure ()

/-- One event.  An event that the plugin does not wait for does not happen. -/
def program : PluginEvent → Program LinuxPlugin Unit
  | .controlExists pluginDir running opened =>
      awaiting .idle (controlExists pluginDir running opened)
  | .probe answer => awaiting .probing do
      let _ ← execPoll answer
      probed
  | .start running opened => awaiting .idle (start running opened)
  | .again clock => awaiting .launching do
      if clock ∧ (← get).exec ≠ none then enter .draining else enter .started
  | .drain answer => awaiting .draining do
      if ← execPoll answer then pure () else enter .connecting
  | .connect reached => awaiting .connecting do
      if reached then enter .started else enter .launching
  | .poll answer => awaiting .started do
      let _ ← execPoll answer
  | .stop status => awaiting .started (stop status)

@[simp] theorem ends_use (stream : Pointer) (plugin : LinuxPlugin)
    (post : Unit → LinuxPlugin → Prop) :
    (use stream).Ends plugin post ↔ plugin.streams.Live stream ∧ post () plugin := by
  by_cases live : plugin.streams.Live stream <;> simp [use, live]

@[simp] theorem ends_awaiting (phase : PluginPhase) (body : Program LinuxPlugin Unit)
    (plugin : LinuxPlugin) (post : Unit → LinuxPlugin → Prop) :
    (awaiting phase body).Ends plugin post ↔
      if plugin.phase = phase then body.Ends plugin post else post () plugin := by
  simp [awaiting]

@[simp] theorem ends_enter (phase : PluginPhase) (plugin : LinuxPlugin)
    (post : Unit → LinuxPlugin → Prop) :
    (enter phase).Ends plugin post ↔ post () { plugin with phase } :=
  ends_modify _ plugin post

@[simp] theorem ends_pclose2 (stream child : Pointer) (status : Int) (plugin : LinuxPlugin)
    (post : Int → LinuxPlugin → Prop) :
    (pclose2 stream child status).Ends plugin post ↔
      plugin.streams.Live stream ∧
        post (if plugin.children.Live child then status else -1)
          { plugin with
            streams := plugin.streams.release stream
            children := plugin.children.release child } := by
  simp [pclose2]

/-- The child that writes to the stream of the plugin. -/
def child (plugin : LinuxPlugin) : Pointer := plugin.exec.bind fun _ => plugin.execPid

/-- Each stream was closed once or is the open stream `exec`, and each child of a stream was waited
for once or is the child of that stream. -/
structure Held (plugin : LinuxPlugin) : Prop where
  streams : plugin.streams.Owned [plugin.exec]
  children : plugin.children.Owned (plugin.child :: plugin.orphans)

/-- The streams and the children are in order, and while the plugin is not started and no call
is running every stream has been closed. -/
structure Tidy (plugin : LinuxPlugin) : Prop extends plugin.Held where
  closed : plugin.phase = .idle → plugin.streams.Clean

instance : DecidablePred Tidy := fun plugin =>
  decidable_of_iff
    (plugin.streams.Owned [plugin.exec] ∧ plugin.children.Owned (plugin.child :: plugin.orphans) ∧
      (plugin.phase = .idle → plugin.streams.Clean))
    ⟨fun ⟨streams, children, closed⟩ => ⟨⟨streams, children⟩, closed⟩,
      fun ⟨⟨streams, children⟩, closed⟩ => ⟨streams, children, closed⟩⟩

/-- What the runs keep in which `Stop` finds no stream. -/
structure Idle (plugin : LinuxPlugin) : Prop extends plugin.Held where
  null : plugin.phase = .idle → plugin.exec = none

variable {plugin : LinuxPlugin}

theorem initial_idle : initial.Idle := ⟨⟨.empty 1, .empty 1⟩, fun _ => rfl⟩

theorem Idle.tidy (idle : plugin.Idle) : plugin.Tidy :=
  ⟨idle.toHeld, fun phase => idle.streams.clean (by simpa using idle.null phase)⟩

theorem Held.enter (held : plugin.Held) (phase : PluginPhase) :
    ({ plugin with phase } : LinuxPlugin).Held := ⟨held.streams, held.children⟩

theorem Held.busy (held : plugin.Held) {phase : PluginPhase} (busy : phase ≠ .idle) :
    ({ plugin with phase } : LinuxPlugin).Idle :=
  ⟨held.enter phase, fun idle => absurd idle busy⟩

theorem Held.close (held : plugin.Held) (nonnull : plugin.exec ≠ none) :
    ({ plugin with
        streams := plugin.streams.release plugin.exec
        children := plugin.children.release plugin.execPid
        exec := none } : LinuxPlugin).Held := by
  obtain ⟨stream, open_⟩ := Option.ne_none_iff_exists'.mp nonnull
  have own : plugin.child = plugin.execPid := by simp [child, open_]
  have children := held.children
  rw [own] at children
  exact ⟨held.streams.release, children.release⟩

theorem execPoll_held (held : plugin.Held) (answer : StreamAnswer) :
    (execPoll answer).Ends plugin fun _ next => next.Held ∧ next.phase = plugin.phase := by
  by_cases null : plugin.exec = none
  · simpa [execPoll, null] using held
  · have live := held.streams.live List.mem_cons_self null
    cases answer with
    | ended status =>
        have after := held.close null
        simpa [execPoll, null, live] using ⟨after.streams, after.children⟩
    | line => simpa [execPoll, null, live] using held
    | nothing => simpa [execPoll, null, live] using held

theorem execStart_held (held : plugin.Held) (null : plugin.exec = none) (opened : Bool) :
    (execStart opened).Ends plugin fun _ next => next.Held ∧ next.phase = plugin.phase := by
  have streams := held.streams
  have children := held.children
  rw [child, null] at children
  rw [null] at streams
  cases opened with
  | false =>
      have children : plugin.children.new.Owned
          (none :: some plugin.children.next :: plugin.orphans) := children.new
      simpa [execStart, popen2] using ⟨streams, children⟩
  | true => simpa [execStart, popen2] using ⟨streams.new, children.new⟩

theorem probed_idle (held : plugin.Held) : probed.Ends plugin fun _ => Idle := by
  by_cases null : plugin.exec = none
  · have path (serverPath : Bytes) :
        ({ plugin with serverPath, phase := .idle } : LinuxPlugin).Idle :=
      ⟨⟨held.streams, held.children⟩, fun _ => null⟩
    by_cases succeeded : plugin.execRet = 0
    · simpa [probed, null, succeeded] using path _
    · simpa [probed, null, succeeded] using path plugin.serverPath
  · simpa [probed, null] using held.busy (by decide : PluginPhase.probing ≠ .idle)

theorem controlExists_idle (idle : plugin.Idle) (phase : plugin.phase = .idle)
    (pluginDir : Bytes) (running opened : Bool) :
    (controlExists pluginDir running opened).Ends plugin fun _ => Idle := by
  cases running with
  | true => simpa [controlExists] using idle
  | false =>
      have held : ({ plugin with pluginDir } : LinuxPlugin).Held := ⟨idle.streams, idle.children⟩
      have started := execStart_held held (idle.null phase) opened
      simp only [controlExists, Bool.false_eq_true, if_false, ends_bind, ends_modify]
      exact started.mono fun _ next reached => probed_idle reached.1

theorem start_idle (idle : plugin.Idle) (phase : plugin.phase = .idle) (running opened : Bool) :
    (start running opened).Ends plugin fun _ => Idle := by
  have busy := idle.toHeld.busy (by decide : PluginPhase.started ≠ .idle)
  simp only [start, ends_ite, ends_bind, ends_get, ends_enter]
  split_ifs
  · exact busy
  · exact busy
  · refine (execStart_held idle.toHeld (idle.null phase) opened).mono fun ok next reached => ?_
    split
    · exact reached.1.busy (by decide)
    · exact reached.1.busy (by decide)

/-- `Stop` is called when `exec` is NULL. -/
def StopsQuietly (plugin : LinuxPlugin) (event : PluginEvent) : Prop :=
  ∀ status, event = .stop status → plugin.phase = .started → plugin.exec = none

/-- An event in another phase changes nothing. -/
theorem Idle.awaiting (idle : plugin.Idle) {phase : PluginPhase} {body : Program LinuxPlugin Unit}
    (keeps : plugin.phase = phase → body.Ends plugin fun _ => Idle) :
    (awaiting phase body).Ends plugin fun _ => Idle := by
  rw [ends_awaiting]
  split
  · exact keeps ‹_›
  · exact idle

/-- `ExecPoll` is called in some phase that is not idle. -/
theorem Idle.execPoll (idle : plugin.Idle) (answer : StreamAnswer) {phase : PluginPhase}
    (busy : phase ≠ .idle) (here : plugin.phase = phase) :
    (execPoll answer).Ends plugin fun _ next => next.Idle ∧ next.Held := by
  refine (execPoll_held idle.toHeld answer).mono fun _ next reached => ?_
  exact ⟨⟨reached.1, fun idle => absurd (here ▸ reached.2 ▸ idle) busy⟩, reached.1⟩

theorem program_idle {event : PluginEvent} (idle : plugin.Idle)
    (quiet : plugin.StopsQuietly event) : (program event).Ends plugin fun _ => Idle := by
  cases event with
  | controlExists pluginDir running opened =>
      exact idle.awaiting fun here => controlExists_idle idle here pluginDir running opened
  | probe answer =>
      refine idle.awaiting fun here => ?_
      rw [ends_bind]
      refine (idle.execPoll answer (by decide) here).mono fun _ next reached => ?_
      exact probed_idle reached.2
  | start running opened =>
      exact idle.awaiting fun here => start_idle idle here running opened
  | again clock =>
      refine idle.awaiting fun _ => ?_
      simp only [ends_bind, ends_get, ends_ite, ends_enter]
      split
      · exact idle.toHeld.busy (by decide)
      · exact idle.toHeld.busy (by decide)
  | drain answer =>
      refine idle.awaiting fun here => ?_
      rw [ends_bind]
      refine (idle.execPoll answer (by decide) here).mono fun more next reached => ?_
      cases more with
      | false => exact (ends_enter _ _ _).mpr (reached.2.busy (by decide))
      | true => exact (ends_pure _ _ _).mpr reached.1
  | connect reached =>
      refine idle.awaiting fun _ => ?_
      simp only [ends_ite, ends_enter]
      split
      · exact idle.toHeld.busy (by decide)
      · exact idle.toHeld.busy (by decide)
  | poll answer =>
      refine idle.awaiting fun here => ?_
      rw [ends_bind]
      refine (idle.execPoll answer (by decide) here).mono fun _ next reached => ?_
      exact (ends_pure _ _ _).mpr reached.1
  | stop status =>
      refine idle.awaiting fun here => ?_
      have null := quiet status rfl here
      have stopped : ({ plugin with phase := .idle } : LinuxPlugin).Idle :=
        ⟨idle.toHeld.enter .idle, fun _ => null⟩
      simpa [stop, null] using stopped

/-- `Stop` leaves `exec` as it is when it closes the stream. -/
theorem not_tidy_of_stop {event : PluginEvent} (idle : plugin.Idle)
    (loud : ¬plugin.StopsQuietly event) : ¬(program event).Ends plugin fun _ => Tidy := by
  simp only [StopsQuietly, not_forall] at loud
  obtain ⟨status, rfl, started, nonnull⟩ := loud
  have live := idle.streams.live List.mem_cons_self nonnull
  simp only [program, ends_awaiting, started, if_true, stop, ends_bind, ends_get, ends_ite,
    nonnull, if_false, ends_pclose2, ends_enter]
  rintro ⟨-, tidy⟩
  exact Heap.not_live_release live (tidy.streams.live List.mem_cons_self nonnull)

/-- The runs in which `exec` never outlives its stream are those in which `Stop` finds no stream. -/
theorem always_tidy_iff (events : List PluginEvent) :
    (machine program).Always (fun reached => ∃ plugin ∈ reached, plugin.Tidy) (some initial)
        events ↔
      (machine program).Guarded (fun reached event => ∀ plugin ∈ reached,
        plugin.StopsQuietly event) (some initial) events :=
  @always_iff_guarded _ _ program StopsQuietly Tidy Idle program_idle Idle.tidy
    not_tidy_of_stop _ initial_idle events

/-- A client that connects through the plugin, disconnects and connects again, while the server
that the plugin launched first still answers the second `Start`: the next `Poll` tests a stream
with `feof` that `Stop` has closed. -/
theorem poll_after_restart :
    ¬(machine program).Always (fun reached => ∃ plugin ∈ reached, plugin.Tidy) (some initial)
        [.controlExists (ascii "/") false true, .probe (.ended 0), .start false true, .again false,
          .poll .line, .stop 9, .start true true, .poll .nothing] ∧
      (machine program).run (some initial)
        [.controlExists (ascii "/") false true, .probe (.ended 0), .start false true, .again false,
          .poll .line, .stop 9, .start true true, .poll .nothing] = some none :=
  ⟨by decide +kernel, rfl⟩

end LinuxPlugin

end CncRemote
