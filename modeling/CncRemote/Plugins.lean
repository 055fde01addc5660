import CncRemote.Program
import Mathlib.Data.List.Nodup
import Mathlib.Logic.Function.Basic

/-!
# The plugins of a client

A client that is built with plugins loads them once, and `m_plugin` points at the one that is
started, inside `m_plugins`.  `Lifecycle.machine` is the protocol that a plugin may rely on;
`retired_of_lifetime` says that a client keeps to it from its construction to its destruction.
-/

namespace CncRemote

open Program

/-- What a client does to a plugin, which is named by the call of `dlopen` that opened it. -/
inductive PluginAction where
  | load (plugin : Nat)
  | start (plugin : Nat)
  | poll (plugin : Nat)
  | stop (plugin : Nat)
  | quit (plugin : Nat)
  | unload (plugin : Nat)
  deriving DecidableEq, Repr

/-- How far a library has come. -/
inductive Stage where
  | unopened
  | loaded
  | quit
  /-- Unloaded without `Quit`, by a client that does not take it as a plugin. -/
  | rejected
  /-- Unloaded after `Quit`. -/
  | retired
  deriving DecidableEq, Repr

/-- The stages of all libraries, and the plugin between its `Start` and its `Stop`. -/
structure Lifecycle where
  stage : Nat → Stage
  started : Option Nat

namespace Lifecycle

/-- No library has been opened. -/
def initial : Lifecycle := ⟨fun _ => .unopened, none⟩

/-- A library comes to another stage. -/
def move (cycle : Lifecycle) (plugin : Nat) (stage : Stage) : Lifecycle :=
  { cycle with stage := Function.update cycle.stage plugin stage }

@[simp] theorem move_started (cycle : Lifecycle) (plugin : Nat) (stage : Stage) :
    (cycle.move plugin stage).started = cycle.started := rfl

@[simp] theorem move_stage_self (cycle : Lifecycle) (plugin : Nat) (stage : Stage) :
    (cycle.move plugin stage).stage plugin = stage := by
  simp [move]

@[simp] theorem move_stage_of_ne (cycle : Lifecycle) {plugin other : Nat} (stage : Stage)
    (differ : other ≠ plugin) : (cycle.move plugin stage).stage other = cycle.stage other := by
  simp [move, differ]

/-- One plugin is started at a time, and only that one is polled and stopped.  No plugin is started,
told to quit or unloaded in the meantime, `Quit` comes once, and nothing comes after the
unloading. -/
def step (cycle : Lifecycle) : PluginAction → Option Lifecycle
  | .load plugin =>
      if cycle.stage plugin = .unopened then some (cycle.move plugin .loaded) else none
  | .start plugin =>
      if cycle.stage plugin = .loaded ∧ cycle.started = none then
        some { cycle with started := some plugin }
      else
        none
  | .poll plugin => if cycle.started = some plugin then some cycle else none
  | .stop plugin =>
      if cycle.started = some plugin then some { cycle with started := none } else none
  | .quit plugin =>
      if cycle.stage plugin = .loaded ∧ cycle.started = none then
        some (cycle.move plugin .quit)
      else
        none
  | .unload plugin =>
      if cycle.started = none then
        match cycle.stage plugin with
        | .loaded => some (cycle.move plugin .rejected)
        | .quit => some (cycle.move plugin .retired)
        | .unopened | .rejected | .retired => none
      else
        none

/-- The protocol of the plugins. -/
def machine : Machine Lifecycle PluginAction := ⟨step⟩

/-- `Quit` and unloading for each of some plugins that are loaded, while none is started. -/
theorem run_retire {cycle : Lifecycle} {plugins : List Nat} (idle : cycle.started = none)
    (loaded : ∀ plugin ∈ plugins, cycle.stage plugin = .loaded) (nodup : plugins.Nodup) :
    ∃ final,
      machine.run cycle (plugins.flatMap fun plugin => [.quit plugin, .unload plugin]) =
          some final ∧
        final.started = none ∧ (∀ plugin ∈ plugins, final.stage plugin = .retired) ∧
        ∀ plugin ∉ plugins, final.stage plugin = cycle.stage plugin := by
  induction plugins generalizing cycle with
  | nil => exact ⟨cycle, rfl, idle, by simp, fun _ _ => rfl⟩
  | cons plugin plugins ih =>
      obtain ⟨first, rest⟩ := List.forall_mem_cons.mp loaded
      obtain ⟨fresh, nodup⟩ := List.nodup_cons.mp nodup
      have differ : ∀ other ∈ plugins, other ≠ plugin := fun other inside =>
        ne_of_mem_of_not_mem inside fresh
      have quit : machine.step cycle (.quit plugin) = some (cycle.move plugin .quit) :=
        if_pos ⟨first, idle⟩
      have unload : machine.step (cycle.move plugin .quit) (.unload plugin) =
          some ((cycle.move plugin .quit).move plugin .retired) := by
        simp [machine, step, idle]
      obtain ⟨final, run, ended, retired, others⟩ := @ih
        ((cycle.move plugin .quit).move plugin .retired) idle
        (fun other inside => by simp [differ other inside, rest other inside]) nodup
      refine ⟨final, ?_, ended, List.forall_mem_cons.mpr ⟨?_, retired⟩, fun other outside => ?_⟩
      · exact Machine.run_cons_eq_some.mpr
          ⟨_, quit, Machine.run_cons_eq_some.mpr ⟨_, unload, run⟩⟩
      · rw [others plugin fresh, move_stage_self]
      · obtain ⟨apart, outside⟩ := not_or.mp (List.mem_cons.not.mp outside)
        rw [others other outside, move_stage_of_ne _ _ apart, move_stage_of_ne _ _ apart]

end Lifecycle

/-- What `dlsym` finds in a library. -/
structure Library where
  start : Bool
  stop : Bool
  getName : Bool
  quit : Bool
  poll : Bool
  /-- What `ControlExists` returns, if the library has it. -/
  controlExists : Option Bool

/-- All symbols are found, and the control is there. -/
def Library.accepted (library : Library) : Bool :=
  library.start && library.stop && library.getName && library.quit && library.poll &&
    library.controlExists == some true

/-- An entry that `readdir` returns, and what `dlopen` opens for it. -/
structure DirEntry where
  /-- `d_type` is `DT_REG`. -/
  regular : Bool
  library : Option Library

/-- A pointer to an element of `m_plugins`. -/
structure PluginPointer where
  /-- Which of the buffers of `m_plugins` it points into. -/
  buffer : Nat
  offset : Nat

/-- The members of `Client` that the plugins use. -/
structure PluginClient where
  /-- `m_plugins` -/
  plugins : List Nat
  /-- How often the elements of `m_plugins` may have moved. -/
  buffer : Nat
  /-- `m_plugin` -/
  plugin : Option PluginPointer
  /-- How many libraries have been opened. -/
  opened : Nat
  /-- What has been done to plugins, oldest first. -/
  log : List PluginAction

namespace PluginClient

/-- `Client::Client` -/
def construct : PluginClient := ⟨[], 0, none, 0, []⟩

/-- The plugin that a pointer points at, unless it dangles. -/
def target (client : PluginClient) (pointer : PluginPointer) : Option Nat :=
  if pointer.buffer = client.buffer then client.plugins[pointer.offset]? else none

/-- `m_plugins.push_back`, which may move the elements. -/
def pushBack (plugin : Nat) (client : PluginClient) : PluginClient :=
  { client with plugins := client.plugins ++ [plugin], buffer := client.buffer + 1 }

/-- An action is logged. -/
def act (action : PluginAction) : Program PluginClient Unit :=
  modify fun client => { client with log := client.log ++ [action] }

/-- A function of the plugin that `m_plugin` points at is called. -/
def invoke (action : Nat → PluginAction) (pointer : PluginPointer) :
    Program PluginClient Unit := do
  match (← get).target pointer with
  | none => fault
  | some plugin => act (action plugin)

/-- `dlopen`, when it opens a library. -/
def dlopen : Program PluginClient Nat := do
  let plugin := (← get).opened
  modify fun client =>
    { client with opened := plugin + 1, log := client.log ++ [.load plugin] }
  return plugin

/-- One round of the loop in `LoadPlugins`.  Only the POSIX one asks for a regular file. -/
def loadPlugin (windows : Bool) (file : DirEntry) : Program PluginClient Unit := do
  if windows = false ∧ file.regular = false then
    return
  else
    match file.library with
    | none => return
    | some library =>
        let plugin ← dlopen
        if library.accepted then
          modify (pushBack plugin)
        else
          act (.unload plugin)

/-- `Client::LoadPlugins`: `directory` holds what `opendir` and `readdir` find, or on Windows
`FindFirstFileW` and `FindNextFileW`. -/
def loadPlugins (windows logFunc : Bool) (directory : Option (List DirEntry)) :
    Program PluginClient Bool := do
  if 0 < (← get).plugins.length then
    return true
  else if logFunc = false then
    return false
  else
    match directory with
    | none | some [] => return false
    | some (file :: files) => do
        (file :: files).forM (loadPlugin windows)
        return true

/-- `Client::Disconnect` -/
def disconnect : Program PluginClient Unit := do
  match (← get).plugin with
  | none => return
  | some pointer =>
      invoke .stop pointer
      modify fun client => { client with plugin := none }

/-- `Client::Connect` up to the socket. -/
def connect (index : UInt32) : Program PluginClient Bool := do
  disconnect
  if index = 0 then
    return true
  else
    let client ← get
    if client.plugins.length < index.toNat then
      return false
    else
      let pointer : PluginPointer := ⟨client.buffer, (index - 1).toNat⟩
      modify fun client => { client with plugin := some pointer }
      invoke .start pointer
      return true

/-- `Client::Poll` before it asks for a connection. -/
def poll : Program PluginClient Unit := do
  match (← get).plugin with
  | none => return
  | some pointer => invoke .poll pointer

/-- `Client::~Client` -/
def destroy : Program PluginClient Unit := do
  disconnect
  (← get).plugins.forM fun plugin => do
    act (.quit plugin)
    act (.unload plugin)

end PluginClient

/-- What may be called between the construction and the destruction of a client. -/
inductive PluginEvent where
  | loadPlugins (logFunc : Bool) (directory : Option (List DirEntry))
  | connect (index : UInt32)
  | poll
  | disconnect

namespace PluginClient

/-- The program of each event. -/
def program (windows : Bool) : PluginEvent → Program PluginClient Unit
  | .loadPlugins logFunc directory => (fun _ => ()) <$> loadPlugins windows logFunc directory
  | .connect index => (fun _ => ()) <$> connect index
  | .poll => poll
  | .disconnect => disconnect

/-- All that happens to a client. -/
def lifetime (windows : Bool) (events : List PluginEvent) : Program PluginClient Unit := do
  events.forM (program windows)
  destroy

/-- The plugins have been used according to their protocol, none is left started, and those that the
client has registered have received `Quit` and have been unloaded. -/
def Retired (client : PluginClient) : Prop :=
  ∃ cycle, Lifecycle.machine.run .initial client.log = some cycle ∧ cycle.started = none ∧
    ∀ plugin ∈ client.plugins, cycle.stage plugin = .retired

/-- How a client stands in the protocol of the plugins. -/
structure Hosts (client : PluginClient) (cycle : Lifecycle) : Prop where
  run : Lifecycle.machine.run .initial client.log = some cycle
  loaded : ∀ plugin ∈ client.plugins, cycle.stage plugin = .loaded
  unopened : ∀ plugin, client.opened ≤ plugin → cycle.stage plugin = .unopened
  nodup : client.plugins.Nodup
  idle : client.plugin = none → cycle.started = none
  active : ∀ pointer, client.plugin = some pointer →
    ∃ plugin, client.target pointer = some plugin ∧ cycle.started = some plugin

/-- The invariant of a client. -/
def Hosting (client : PluginClient) : Prop := ∃ cycle, client.Hosts cycle

/-- The invariant of a client that has no plugin started. -/
def Detached (client : PluginClient) : Prop := client.Hosting ∧ client.plugin = none

@[simp] theorem ends_act (action : PluginAction) (client : PluginClient)
    (post : Unit → PluginClient → Prop) :
    (act action).Ends client post ↔
      post () { client with log := client.log ++ [action] } :=
  ends_modify _ client post

@[simp] theorem ends_invoke (action : Nat → PluginAction) (pointer : PluginPointer)
    (client : PluginClient) (post : Unit → PluginClient → Prop) :
    (invoke action pointer).Ends client post ↔
      ∃ plugin, client.target pointer = some plugin ∧
        post () { client with log := client.log ++ [action plugin] } := by
  rw [invoke, ends_bind, ends_get]
  cases client.target pointer <;> simp

/-- The client has nothing to stop, or stops what is started. -/
theorem Hosting.disconnect {client : PluginClient} (hosting : client.Hosting) :
    PluginClient.disconnect.Ends client fun _ => Detached := by
  obtain ⟨cycle, hosts⟩ := hosting
  rw [PluginClient.disconnect, ends_bind, ends_get]
  cases held : client.plugin with
  | none => exact (ends_pure _ _ _).mpr ⟨⟨cycle, hosts⟩, held⟩
  | some pointer =>
      obtain ⟨plugin, target, started⟩ := hosts.active pointer held
      have step : Lifecycle.machine.step cycle (.stop plugin) =
          some { cycle with started := none } := if_pos started
      simp only [ends_bind, ends_invoke, ends_modify]
      refine ⟨plugin, target, ⟨{ cycle with started := none }, ?_⟩, rfl⟩
      exact {
        run := Machine.run_concat hosts.run step
        loaded := hosts.loaded
        unopened := hosts.unopened
        nodup := hosts.nodup
        idle := fun _ => rfl
        active := by rintro _ ⟨⟩ }

theorem Hosts.opened_notMem {client : PluginClient} {cycle : Lifecycle}
    (hosts : client.Hosts cycle) : client.opened ∉ client.plugins := by
  intro registered
  have loaded := hosts.loaded _ registered
  rw [hosts.unopened _ le_rfl] at loaded
  cases loaded

theorem Hosts.move {client : PluginClient} {cycle : Lifecycle} (hosts : client.Hosts cycle)
    (held : client.plugin = none) {action : PluginAction} {library opened : Nat} {stage : Stage}
    (step : Lifecycle.machine.step cycle action = some (cycle.move library stage))
    (outside : library ∉ client.plugins) (before : library < opened)
    (more : client.opened ≤ opened) :
    Hosts { client with opened, log := client.log ++ [action] } (cycle.move library stage) where
  run := Machine.run_concat hosts.run step
  loaded plugin registered := by
    rw [Lifecycle.move_stage_of_ne _ _ (ne_of_mem_of_not_mem registered outside)]
    exact hosts.loaded plugin registered
  unopened plugin later := by
    rw [Lifecycle.move_stage_of_ne _ _ (before.trans_le later).ne']
    exact hosts.unopened plugin (more.trans later)
  nodup := hosts.nodup
  idle := hosts.idle
  active pointer points := nomatch held.symm.trans points

/-- A library that is loaded becomes a plugin. -/
theorem Hosts.pushBack {client : PluginClient} {cycle : Lifecycle} (hosts : client.Hosts cycle)
    (held : client.plugin = none) {library : Nat} (loaded : cycle.stage library = .loaded)
    (outside : library ∉ client.plugins) : (client.pushBack library).Hosts cycle where
  run := hosts.run
  loaded plugin registered := by
    obtain registered | rfl : plugin ∈ client.plugins ∨ plugin = library := by
      simpa [PluginClient.pushBack] using registered
    · exact hosts.loaded plugin registered
    · exact loaded
  unopened := hosts.unopened
  nodup := by
    refine List.nodup_append.mpr ⟨hosts.nodup, List.nodup_singleton library, ?_⟩
    rintro plugin registered _ same rfl
    exact outside (List.mem_singleton.mp same ▸ registered)
  idle := hosts.idle
  active pointer points := nomatch held.symm.trans points

theorem keeps_loadPlugin (windows : Bool) (file : DirEntry) :
    (loadPlugin windows file).Keeps Detached := by
  rintro client ⟨⟨cycle, hosts⟩, held⟩
  by_cases skipped : windows = false ∧ file.regular = false
  · rw [loadPlugin, if_pos skipped]
    exact (ends_pure _ _ _).mpr ⟨⟨cycle, hosts⟩, held⟩
  rw [loadPlugin, if_neg skipped]
  cases file.library with
  | none => exact (ends_pure _ _ _).mpr ⟨⟨cycle, hosts⟩, held⟩
  | some library =>
      have load : Lifecycle.machine.step cycle (.load client.opened) =
          some (cycle.move client.opened .loaded) := if_pos (hosts.unopened _ le_rfl)
      have opened := hosts.move held load hosts.opened_notMem (Nat.lt_succ_self _) (Nat.le_succ _)
      have loaded := cycle.move_stage_self client.opened .loaded
      simp only [dlopen, bind_assoc, ends_bind, ends_get, ends_modify, pure_bind, ends_ite,
        ends_act]
      split
      · exact ⟨⟨_, opened.pushBack held loaded hosts.opened_notMem⟩, held⟩
      · have unload : Lifecycle.machine.step (cycle.move client.opened .loaded)
            (.unload client.opened) =
              some ((cycle.move client.opened .loaded).move client.opened .rejected) := by
          simp [Lifecycle.machine, Lifecycle.step, hosts.idle held]
        exact ⟨⟨_, opened.move held unload hosts.opened_notMem (Nat.lt_succ_self _) le_rfl⟩, held⟩

theorem Hosting.detached {client : PluginClient} (hosting : client.Hosting)
    (empty : client.plugins = []) : client.Detached := by
  obtain ⟨cycle, hosts⟩ := hosting
  refine ⟨⟨cycle, hosts⟩, Option.eq_none_iff_forall_ne_some.mpr fun pointer held => ?_⟩
  obtain ⟨plugin, target, -⟩ := hosts.active pointer held
  simp [PluginClient.target, empty] at target

theorem keeps_loadPlugins (windows logFunc : Bool) (directory : Option (List DirEntry)) :
    (loadPlugins windows logFunc directory).Keeps Hosting := by
  intro client hosting
  unfold loadPlugins
  rw [ends_bind, ends_get, ends_ite, ends_ite]
  split
  · exact (ends_pure _ _ _).mpr hosting
  split
  · exact (ends_pure _ _ _).mpr hosting
  rename_i empty _
  have detached := hosting.detached (List.length_eq_zero_iff.mp (Nat.eq_zero_of_not_pos empty))
  rcases directory with _ | _ | ⟨file, files⟩
  · exact (ends_pure _ _ _).mpr hosting
  · exact (ends_pure _ _ _).mpr hosting
  · refine (ends_bind _ _ _ _).mpr ((Keeps.forM (keeps_loadPlugin windows) _ _ detached).mono ?_)
    exact fun _ next after => (ends_pure _ _ _).mpr after.1

theorem keeps_connect (index : UInt32) : (connect index).Keeps Hosting := by
  intro client hosting
  refine (ends_bind _ _ _ _).mpr (hosting.disconnect.mono ?_)
  rintro _ client ⟨⟨cycle, hosts⟩, held⟩
  rw [ends_ite]
  split
  · exact (ends_pure _ _ _).mpr ⟨cycle, hosts⟩
  rename_i selected
  rw [ends_bind, ends_get, ends_ite]
  split
  · exact (ends_pure _ _ _).mpr ⟨cycle, hosts⟩
  rename_i within
  have inside : (index - 1).toNat < client.plugins.length := by
    have positive : 0 < index.toNat :=
      Nat.pos_of_ne_zero fun zero => selected (UInt32.toNat_inj.mp zero)
    have less : (index - 1).toNat = index.toNat - 1 :=
      UInt32.toNat_sub_of_le index 1 (UInt32.le_iff_toNat_le.mpr positive)
    omega
  have target : client.target ⟨client.buffer, (index - 1).toNat⟩ =
      some client.plugins[(index - 1).toNat] := by
    rw [PluginClient.target, if_pos rfl, List.getElem?_eq_getElem inside]
  have start : Lifecycle.machine.step cycle (.start client.plugins[(index - 1).toNat]) =
      some { cycle with started := some client.plugins[(index - 1).toNat] } :=
    if_pos ⟨hosts.loaded _ (List.getElem_mem inside), hosts.idle held⟩
  simp only [ends_bind, ends_modify, ends_invoke, ends_pure]
  refine
    ⟨_, target, { cycle with started := some client.plugins[(index - 1).toNat] }, ?_⟩
  exact {
    run := Machine.run_concat hosts.run start
    loaded := hosts.loaded
    unopened := hosts.unopened
    nodup := hosts.nodup
    idle := by rintro ⟨⟩
    active := by
      rintro _ ⟨⟩
      exact ⟨_, target, rfl⟩ }

theorem keeps_poll : poll.Keeps Hosting := by
  rintro client ⟨cycle, hosts⟩
  rw [poll, ends_bind, ends_get]
  cases held : client.plugin with
  | none => exact (ends_pure _ _ _).mpr ⟨cycle, hosts⟩
  | some pointer =>
      obtain ⟨plugin, target, started⟩ := hosts.active pointer held
      have step : Lifecycle.machine.step cycle (.poll plugin) = some cycle := if_pos started
      refine (ends_invoke _ _ _ _).mpr ⟨plugin, target, cycle, ?_⟩
      exact { hosts with run := Machine.run_concat hosts.run step }

theorem keeps_program (windows : Bool) (event : PluginEvent) :
    (program windows event).Keeps Hosting := by
  cases event with
  | loadPlugins logFunc directory => exact .map _ (keeps_loadPlugins windows logFunc directory)
  | connect index => exact .map _ (keeps_connect index)
  | poll => exact keeps_poll
  | disconnect => exact fun client hosting => hosting.disconnect.mono fun _ _ after => after.1

/-- The loop of the destructor. -/
theorem ends_retire (plugins : List Nat) (client : PluginClient)
    (post : Unit → PluginClient → Prop) :
    (plugins.forM fun plugin => do
        act (.quit plugin)
        act (.unload plugin)).Ends client post ↔
      post ()
        { client with
          log := client.log ++ plugins.flatMap fun plugin => [.quit plugin, .unload plugin] } := by
  induction plugins generalizing client with
  | nil => simp
  | cons plugin plugins ih =>
      refine (ends_bind _ _ _ _).trans ?_
      simp only [ends_bind, ends_act]
      rw [ih]
      simp

theorem Hosting.destroy {client : PluginClient} (hosting : client.Hosting) :
    PluginClient.destroy.Ends client fun _ => Retired := by
  refine (ends_bind _ _ _ _).mpr (hosting.disconnect.mono ?_)
  rintro _ client ⟨⟨cycle, hosts⟩, held⟩
  obtain ⟨final, run, ended, retired, -⟩ :=
    Lifecycle.run_retire (hosts.idle held) hosts.loaded hosts.nodup
  rw [ends_bind, ends_get]
  refine (ends_retire _ _ _).mpr ⟨final, ?_, ended, retired⟩
  rw [Machine.run_append, hosts.run, Option.bind_some, run]

/-- From its construction to its destruction a client keeps to the protocol of its plugins. -/
theorem retired_of_lifetime (windows : Bool) (events : List PluginEvent) :
    (lifetime windows events).Ends construct fun _ => Retired := by
  have start : construct.Hosting := ⟨.initial, rfl, by simp [construct], fun _ _ => rfl,
    List.nodup_nil, fun _ => rfl, fun _ held => nomatch held⟩
  refine (ends_bind _ _ _ _).mpr ((Keeps.forM (keeps_program windows) events _ start).mono ?_)
  exact fun _ _ => Hosting.destroy

/-- A library without the control is unloaded at once, and a wrong index stops the plugin. -/
example :
    (lifetime false [.loadPlugins true (some
        [⟨true, some ⟨true, true, true, true, true, some false⟩⟩,
          ⟨false, none⟩, ⟨true, some ⟨true, true, true, true, true, some true⟩⟩]),
        .connect 1, .poll, .connect 7, .poll]).Ends construct fun _ client =>
      client.log = [.load 0, .unload 0, .load 1, .start 1, .poll 1, .stop 1, .quit 1,
        .unload 1] := by
  decide +kernel

end PluginClient

end CncRemote
