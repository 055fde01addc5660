import CncRemote.Plugins
import CncRemote.Protocols

/-!
# Calls of one plugin

The calls that a client makes of one of its plugins, which follow a protocol of their own: after
`ControlExists` the plugin is started, polled and stopped, then `Quit` comes, and nothing more.
Only a plugin whose `ControlExists` has returned true is called again.
-/

namespace CncRemote

open Program

/-- What is called in a library; `load` is its opening, with the call of `ControlExists`. -/
inductive PluginCall where
  | load
  | start
  | poll
  | stop
  | quit
  | unload
  deriving DecidableEq, Repr

/-- The call uses what `ControlExists` has prepared. -/
def PluginCall.uses : PluginCall → Bool
  | .load | .unload => false
  | .start | .poll | .stop | .quit => true

/-- The library that an action is about, and the call. -/
def PluginAction.call : PluginAction → Nat × PluginCall
  | .load plugin => (plugin, .load)
  | .start plugin => (plugin, .start)
  | .poll plugin => (plugin, .poll)
  | .stop plugin => (plugin, .stop)
  | .quit plugin => (plugin, .quit)
  | .unload plugin => (plugin, .unload)

/-- The call that an action is of one library. -/
def PluginAction.on (plugin : Nat) (action : PluginAction) : Option PluginCall :=
  if action.call.1 = plugin then some action.call.2 else none

/-- The protocol of one library. -/
def Stage.step : Stage → PluginCall → Option Stage
  | .unopened, .load => some .loaded
  | .loaded, .start | .loaded, .poll | .loaded, .stop => some .loaded
  | .loaded, .quit => some .quit
  | .loaded, .unload => some .rejected
  | .quit, .unload => some .retired
  | _, _ => none

/-- The protocol of one library, as a machine. -/
def Stage.machine : Machine Stage PluginCall := ⟨Stage.step⟩

/-- What is allowed besides: a library that is taken as a plugin is told to quit before it is
unloaded, and one that is not is never used. -/
def Stage.Proper (taken : Bool) (stage : Stage) (call : PluginCall) : Prop :=
  (call.uses = true → taken = true) ∧ (stage = .loaded → call = .unload → taken = false)

instance (taken : Bool) (stage : Stage) (call : PluginCall) :
    Decidable (stage.Proper taken call) :=
  inferInstanceAs (Decidable (_ ∧ _))

/-- The protocol of a library that is taken as a plugin, or not. -/
def Stage.career (taken : Bool) : Machine Stage PluginCall :=
  ⟨fun stage call => if stage.Proper taken call then stage.step call else none⟩

/-- Nothing comes after the unloading. -/
theorem Stage.run_rejected {calls : List PluginCall} {last : Stage}
    (run : Stage.machine.run .rejected calls = some last) : last = .rejected := by
  cases calls with
  | nil => exact (Option.some.inj run).symm
  | cons call calls =>
      obtain ⟨_, step, -⟩ := Machine.run_cons_eq_some.mp run
      cases step

theorem Stage.run_career {taken : Bool} {stage last : Stage} {calls : List PluginCall}
    (run : Stage.machine.run stage calls = some last)
    (uses : ∀ call ∈ calls, call.uses = true → taken = true)
    (retires : taken = true → last = .retired) :
    (Stage.career taken).run stage calls = some last := by
  induction calls generalizing stage with
  | nil => exact run
  | cons call calls ih =>
      obtain ⟨next, step, rest⟩ := Machine.run_cons_eq_some.mp run
      obtain ⟨first, uses⟩ := List.forall_mem_cons.mp uses
      have proper : stage.Proper taken call := by
        refine ⟨first, ?_⟩
        rintro rfl rfl
        cases step
        have rejected := Stage.run_rejected rest
        refine Bool.eq_false_iff.mpr fun took => ?_
        exact Stage.noConfusion (rejected.symm.trans (retires took))
      exact Machine.run_cons_eq_some.mpr ⟨next, (if_pos proper).trans step, ih rest uses⟩

namespace Lifecycle

/-- What is started is loaded. -/
def Loaded (cycle : Lifecycle) : Prop := ∀ plugin ∈ cycle.started, cycle.stage plugin = .loaded

theorem Loaded.of_none {cycle : Lifecycle} (idle : cycle.started = none) : cycle.Loaded :=
  fun _ started => nomatch idle.symm.trans started

theorem step_call {cycle next : Lifecycle} {action : PluginAction} (loaded : cycle.Loaded)
    (step : machine.step cycle action = some next) :
    next.Loaded ∧ ∃ stage, Stage.step (cycle.stage action.call.1) action.call.2 = some stage ∧
      next.stage = Function.update cycle.stage action.call.1 stage := by
  have stays {plugin : Nat} (there : cycle.stage plugin = .loaded) :
      cycle.stage = Function.update cycle.stage plugin .loaded := by
    rw [← there, Function.update_eq_self]
  cases action with
  | load plugin =>
      obtain ⟨unopened, ⟨⟩⟩ := Option.ite_none_right_eq_some.mp step
      refine ⟨fun other started => ?_, .loaded, ?_, rfl⟩
      · have there := loaded other started
        have apart : other ≠ plugin := by
          rintro rfl
          exact Stage.noConfusion (there.symm.trans unopened)
        rw [move_stage_of_ne _ _ apart, there]
      · rw [PluginAction.call, unopened]
        rfl
  | start plugin =>
      obtain ⟨⟨there, -⟩, ⟨⟩⟩ := Option.ite_none_right_eq_some.mp step
      refine ⟨?_, .loaded, ?_, stays there⟩
      · rintro other ⟨⟩
        exact there
      · rw [PluginAction.call, there]
        rfl
  | poll plugin =>
      obtain ⟨started, ⟨⟩⟩ := Option.ite_none_right_eq_some.mp step
      have there := loaded plugin started
      refine ⟨loaded, .loaded, ?_, stays there⟩
      rw [PluginAction.call, there]
      rfl
  | stop plugin =>
      obtain ⟨started, ⟨⟩⟩ := Option.ite_none_right_eq_some.mp step
      have there := loaded plugin started
      refine ⟨.of_none rfl, .loaded, ?_, stays there⟩
      rw [PluginAction.call, there]
      rfl
  | quit plugin =>
      obtain ⟨⟨there, idle⟩, ⟨⟩⟩ := Option.ite_none_right_eq_some.mp step
      refine ⟨.of_none idle, .quit, ?_, rfl⟩
      rw [PluginAction.call, there]
      rfl
  | unload plugin =>
      obtain ⟨idle, step⟩ := Option.ite_none_right_eq_some.mp step
      cases there : cycle.stage plugin with
      | loaded =>
          rw [there] at step
          obtain ⟨⟩ := step
          refine ⟨.of_none idle, .rejected, ?_, rfl⟩
          rw [PluginAction.call, there]
          rfl
      | quit =>
          rw [there] at step
          obtain ⟨⟩ := step
          refine ⟨.of_none idle, .retired, ?_, rfl⟩
          rw [PluginAction.call, there]
          rfl
      | unopened | rejected | retired =>
          rw [there] at step
          cases step

theorem step_on {cycle next : Lifecycle} {action : PluginAction} (loaded : cycle.Loaded)
    (step : machine.step cycle action = some next) (plugin : Nat) :
    Stage.machine.run (cycle.stage plugin) (action.on plugin).toList =
      some (next.stage plugin) := by
  obtain ⟨-, stage, called, moved⟩ := step_call loaded step
  rw [PluginAction.on, moved]
  by_cases about : action.call.1 = plugin
  · subst about
    rw [if_pos rfl, Function.update_self, Option.toList_some]
    exact Machine.run_cons_eq_some.mpr ⟨stage, called, rfl⟩
  · rw [if_neg about, Function.update_of_ne (Ne.symm about)]
    rfl

/-- In every run of the protocol each library sees its own protocol. -/
theorem run_on {cycle : Lifecycle} {actions : List PluginAction}
    (run : machine.run .initial actions = some cycle) (plugin : Nat) :
    Stage.machine.run .unopened (actions.filterMap (PluginAction.on plugin)) =
      some (cycle.stage plugin) :=
  @Machine.run_filterMap _ _ _ _ machine Stage.machine (fun cycle => cycle.stage plugin) _ Loaded
    (fun loaded step => (step_call loaded step).1) (fun loaded step => step_on loaded step plugin)
    .initial cycle actions (.of_none rfl) run

end Lifecycle

/-- The library that a round of the loop in `LoadPlugins` opens. -/
def DirEntry.opened (windows : Bool) (file : DirEntry) : Option Library :=
  if windows = false ∧ file.regular = false then none else file.library

namespace PluginClient

/-- A library is opened and registered, or unloaded again. -/
def take (client : PluginClient) (library : Library) : PluginClient :=
  let plugin := client.opened
  if library.accepted then
    pushBack plugin
      { client with opened := plugin + 1, log := client.log ++ [.load plugin] }
  else
    { client with opened := plugin + 1, log := client.log ++ [.load plugin, .unload plugin] }

theorem loadPlugin_eq (windows : Bool) (file : DirEntry) (client : PluginClient) :
    loadPlugin windows file client =
      some ((), (file.opened windows).toList.foldl take client) := by
  unfold loadPlugin DirEntry.opened
  split
  · rfl
  · cases file.library with
    | none => rfl
    | some library =>
        change (if library.accepted then modify (pushBack client.opened) else
          act (.unload client.opened)) _ = some ((), client.take library)
        unfold take
        split
        · rfl
        · exact congrArg (fun log => some ((), { client with opened := client.opened + 1, log }))
            (List.append_assoc client.log [.load client.opened] [.unload client.opened])

theorem forM_loadPlugin (windows : Bool) (files : List DirEntry) (client : PluginClient) :
    files.forM (loadPlugin windows) client =
      some ((), (files.filterMap (DirEntry.opened windows)).foldl take client) := by
  induction files generalizing client with
  | nil => rfl
  | cons file files ih =>
      rw [List.filterMap_cons_eq_append, List.foldl_append, ← ih]
      exact congrArg (Option.bind · _) (loadPlugin_eq windows file client)

/-- The libraries by their numbers.  Those that are registered were accepted, and no other is called
after it has been loaded. -/
structure Vetted (library : Nat → Library) (client : PluginClient) : Prop where
  accepted : ∀ plugin ∈ client.plugins, (library plugin).accepted = true
  registered : ∀ action ∈ client.log, action.call.2.uses = true →
    action.call.1 ∈ client.plugins

variable {library : Nat → Library} {client : PluginClient}

theorem Vetted.log (vetted : client.Vetted library) {actions : List PluginAction}
    (calls : ∀ action ∈ actions, action.call.2.uses = true → action.call.1 ∈ client.plugins) :
    Vetted library { client with log := client.log ++ actions } where
  accepted := vetted.accepted
  registered action member := by
    obtain before | member := List.mem_append.mp member
    · exact vetted.registered action before
    · exact calls action member

theorem Vetted.take (vetted : client.Vetted library) :
    (client.take (library client.opened)).Vetted library := by
  unfold PluginClient.take
  split
  · refine ⟨fun plugin member => ?_, fun action member uses => ?_⟩
    · obtain before | member := List.mem_append.mp member
      · exact vetted.accepted plugin before
      · rw [List.mem_singleton.mp member]
        assumption
    · obtain before | member := List.mem_append.mp member
      · exact List.mem_append_left _ (vetted.registered action before uses)
      · rw [List.mem_singleton.mp member] at uses
        cases uses
  · refine ⟨vetted.accepted, fun action member uses => ?_⟩
    obtain before | member := List.mem_append.mp member
    · exact vetted.registered action before uses
    · obtain rfl | rfl : action = .load client.opened ∨ action = .unload client.opened := by
        simpa using member
      all_goals cases uses

theorem opened_take (client : PluginClient) (found : Library) :
    (client.take found).opened = client.opened + 1 := by
  unfold take
  split <;> rfl

theorem Vetted.foldl_take (vetted : client.Vetted library) {found : List Library}
    (numbered : ∀ index given, found[index]? = some given →
      library (client.opened + index) = given) :
    (found.foldl PluginClient.take client).Vetted library := by
  induction found generalizing client with
  | nil => exact vetted
  | cons given found ih =>
      have first : library client.opened = given := numbered 0 given rfl
      refine ih (first ▸ vetted.take) fun index given inside => ?_
      rw [opened_take, Nat.add_assoc, Nat.add_comm 1]
      exact numbered (index + 1) given inside

/-- An event opens the libraries under their numbers. -/
def Opens (library : Nat → Library) (windows : Bool) (client : PluginClient) : PluginEvent → Prop
  | .loadPlugins true (some files) =>
      client.plugins = [] →
        ∀ index given, (files.filterMap (DirEntry.opened windows))[index]? = some given →
          library (client.opened + index) = given
  | _ => True

theorem invoke_preserves {action : Nat → PluginAction}
    (about : ∀ plugin, (action plugin).call.1 = plugin) (pointer : PluginPointer) :
    (invoke action pointer).Preserves (Vetted library) := by
  intro client value next vetted runs
  have ends : (invoke action pointer).Ends client fun _ final => final = next :=
    ⟨value, next, runs, rfl⟩
  obtain ⟨plugin, target, rfl⟩ := (ends_invoke _ _ _ _).mp ends
  refine vetted.log fun other member _ => ?_
  rw [List.mem_singleton.mp member, about]
  unfold PluginClient.target at target
  split at target
  · exact List.mem_of_getElem? target
  · cases target

theorem disconnect_preserves : disconnect.Preserves (Vetted library) := by
  refine .bind .get fun client => ?_
  cases client.plugin with
  | none => exact .pure _
  | some pointer =>
      refine .bind (invoke_preserves (fun _ => rfl) pointer) fun _ => .modify fun _ vetted => ?_
      exact ⟨vetted.accepted, vetted.registered⟩

theorem connect_preserves (index : UInt32) : (connect index).Preserves (Vetted library) := by
  refine .bind disconnect_preserves fun _ => .ite (.pure _) (.bind .get fun client => ?_)
  refine .ite (.pure _) (.bind (.modify fun _ vetted => ?_) fun _ => ?_)
  · exact ⟨vetted.accepted, vetted.registered⟩
  · exact .bind (invoke_preserves (fun _ => rfl) _) fun _ => .pure _

theorem poll_preserves : poll.Preserves (Vetted library) := by
  refine .bind .get fun client => ?_
  cases client.plugin with
  | none => exact .pure _
  | some pointer => exact invoke_preserves (fun _ => rfl) pointer

theorem destroy_preserves : destroy.Preserves (Vetted library) := by
  refine .bind disconnect_preserves fun _ => ?_
  intro client value next vetted runs
  have ends : (do (← get).plugins.forM fun plugin => do
      act (.quit plugin)
      act (.unload plugin) : Program PluginClient Unit).Ends client fun _ final => final = next :=
    ⟨value, next, runs, rfl⟩
  rw [ends_bind, ends_get, ends_retire] at ends
  subst ends
  refine vetted.log fun action member uses => ?_
  obtain ⟨plugin, registered, member⟩ := List.mem_flatMap.mp member
  obtain rfl | rfl : action = .quit plugin ∨ action = .unload plugin := by simpa using member
  all_goals exact registered

theorem Vetted.loadPlugins {windows logFunc : Bool} {directory : Option (List DirEntry)}
    (vetted : client.Vetted library)
    (opens : client.Opens library windows (.loadPlugins logFunc directory)) {value : Bool}
    {next : PluginClient}
    (runs : PluginClient.loadPlugins windows logFunc directory client = some (value, next)) :
    next.Vetted library := by
  have ends : (PluginClient.loadPlugins windows logFunc directory).Ends client
      fun _ final => final = next := ⟨value, next, runs, rfl⟩
  unfold PluginClient.loadPlugins at ends
  rw [ends_bind, ends_get, ends_ite, ends_ite] at ends
  split at ends
  · exact (ends_pure _ _ _).mp ends ▸ vetted
  split at ends
  · exact (ends_pure _ _ _).mp ends ▸ vetted
  rename_i empty logs
  obtain rfl := (Bool.not_eq_false _).mp logs
  rcases directory with _ | _ | ⟨file, files⟩
  · exact (ends_pure _ _ _).mp ends ▸ vetted
  · exact (ends_pure _ _ _).mp ends ▸ vetted
  · rw [ends_bind, ends_iff_of_eq (forM_loadPlugin windows (file :: files) client),
      ends_pure] at ends
    rw [← ends]
    exact vetted.foldl_take
      (opens (List.length_eq_zero_iff.mp (Nat.eq_zero_of_not_pos empty)))

theorem Vetted.program {windows : Bool} {event : PluginEvent} (vetted : client.Vetted library)
    (opens : client.Opens library windows event) {next : PluginClient}
    (runs : PluginClient.program windows event client = some ((), next)) :
    next.Vetted library := by
  cases event with
  | loadPlugins logFunc directory =>
      obtain ⟨value, final, runs', rfl⟩ :
          (PluginClient.loadPlugins windows logFunc directory).Ends client
            fun _ final => final = next :=
        (ends_map _ _ client fun _ final => final = next).mp ⟨(), next, runs, rfl⟩
      exact vetted.loadPlugins opens runs'
  | connect index =>
      exact (Preserves.map _ (connect_preserves index)) vetted runs
  | poll => exact poll_preserves vetted runs
  | disconnect => exact disconnect_preserves vetted runs

/-- From its construction to its destruction a client calls only what it has accepted, and it calls
every library according to its protocol. -/
theorem vetted_of_lifetime {windows : Bool} {events : List PluginEvent} {final : PluginClient}
    (lived : lifetime windows events construct = some ((), final))
    (opens : (machine (PluginClient.program windows)).Guarded
      (fun reached event => ∀ client ∈ reached, client.Opens library windows event)
      (some construct) events) :
    final.Vetted library ∧ final.Retired := by
  refine ⟨?_, (ends_iff_of_eq lived _).mp (retired_of_lifetime windows events)⟩
  obtain ⟨⟨⟨⟩, client⟩, ran, destroyed⟩ := Option.bind_eq_some_iff.mp lived
  have fresh : ∀ client ∈ some construct, client.Vetted library := by
    rintro _ ⟨⟩
    exact ⟨List.forall_mem_nil _, List.forall_mem_nil _⟩
  have always : (machine (PluginClient.program windows)).Always
      (fun reached => ∀ client ∈ reached, client.Vetted library) (some construct) events := by
    refine opens.always (fun {reached event next} vetted opens step => ?_) fresh
    rintro final rfl
    obtain ⟨client, rfl⟩ : ∃ client, reached = some client := by
      cases reached with
      | none => cases step
      | some client => exact ⟨client, rfl⟩
    obtain ⟨⟨⟩, runs⟩ := step_eq_some_some.mp step
    exact (vetted client rfl).program (opens client rfl) runs
  exact destroy_preserves
    (Machine.always_iff.mp always events _ List.prefix_rfl (run_of_forM ran) client rfl) destroyed

/-- The calls of one library: one that is taken has been accepted by the library itself. -/
theorem career_of_lifetime {windows : Bool} {events : List PluginEvent} {final : PluginClient}
    (lived : lifetime windows events construct = some ((), final))
    (opens : (machine (PluginClient.program windows)).Guarded
      (fun reached event => ∀ client ∈ reached, client.Opens library windows event)
      (some construct) events) (plugin : Nat) :
    ∃ last, (Stage.career (decide (plugin ∈ final.plugins))).run .unopened
        (final.log.filterMap (PluginAction.on plugin)) = some last ∧
      (plugin ∈ final.plugins → last = .retired ∧ (library plugin).accepted = true) := by
  obtain ⟨vetted, cycle, run, -, retired⟩ := vetted_of_lifetime lived opens
  refine ⟨cycle.stage plugin, Stage.run_career (Lifecycle.run_on run plugin) ?_ ?_, ?_⟩
  · intro call member uses
    obtain ⟨action, logged, about⟩ := List.mem_filterMap.mp member
    obtain ⟨rfl, ⟨⟩⟩ := Option.ite_none_right_eq_some.mp about
    exact decide_eq_true (vetted.registered action logged uses)
  · exact fun taken => retired plugin (of_decide_eq_true taken)
  · exact fun taken => ⟨retired plugin taken, vetted.accepted plugin taken⟩

end PluginClient

end CncRemote
