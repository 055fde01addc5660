import CncRemote.Core
import CncRemote.EdingLink
import CncRemote.PluginCalls

/-!
# The Eding plugin in its client

The plugin keeps one driver, which calls the vendor's library through pointers that it never tests.
`safe_iff` says when it follows none that is null or dangles, whatever its client does from
construction to destruction and whatever is requested of its server in between: `Quit` frees the
library before it stops the server.
-/

namespace CncRemote

open Program

/-- `EdingCncServer` without its function pointers and without what its handlers use. -/
structure EdingDriver where
  link : EdingLink
  core : Core

/-- The plugin. -/
structure EdingPlugin where
  /-- What `g_cnc` points at. -/
  cnc : Option EdingDriver
  /-- The function pointers of the driver, and the libraries that are loaded. -/
  dll : EdingDll
  /-- The server has been bound to its port and serves requests. -/
  bound : Bool

/-- What a handler does that runs while the driver is deleted. -/
inductive LateRequest where
  /-- It calls these functions of the library. -/
  | library (functions : List CncFunction)
  /-- The destructor of `EdingCncServer` has ended, and it calls a function that is pure virtual in
  `Server`. -/
  | pureVirtual

/-- What is called in the plugin, and what Windows and the vendor's library answer. -/
inductive EdingCall where
  | controlExists (registry : Registry) (loadLibrary : LoadLibrary)
  | start (bound : Bool)
  | poll (processes : Option (List Wide)) (registry : Registry) (loadLibrary : LoadLibrary)
      (connectServer : Int) (isServerConnected : Bool) (message : Option Bytes)
  | stop
  /-- The handlers that run while the driver is deleted, after its destructor has freed the library
  and before the threads of the server have stopped. -/
  | quit (pending : List LateRequest)
  /-- Windows unloads the plugin, which takes the code away from under the requests that it
  serves. -/
  | unload
  /-- A handler runs that calls these functions of the library. -/
  | request (functions : List CncFunction)

/-- The call of the client; requests come from elsewhere. -/
def EdingCall.call : EdingCall → Option PluginCall
  | .controlExists _ _ => some .load
  | .start _ => some .start
  | .poll _ _ _ _ _ _ => some .poll
  | .stop => some .stop
  | .quit _ => some .quit
  | .unload => some .unload
  | .request _ => none

namespace EdingPlugin

/-- The plugin when it has just been loaded. -/
def fresh : EdingPlugin := ⟨none, .start, false⟩

/-- `LoadDll` and the destructor, which use the function pointers alone. -/
def onDll {α : Type} : Program EdingDll α → Program EdingPlugin α :=
  inside EdingPlugin.dll fun dll plugin => { plugin with dll }

/-- A function of the vendor's library is called through its pointer. -/
def invoke (function : CncFunction) : Program EdingPlugin Unit := do
  let dll := (← get).dll
  if dll.libraries.Live (dll.functions function) then
    return
  else
    fault

/-- `if(!g_cnc) g_cnc = new EdingCncServer` -/
def construct : Program EdingPlugin Unit :=
  modify fun plugin =>
    match plugin.cnc with
    | some _ => plugin
    | none =>
        { plugin with
          cnc := some ⟨.initial, .new⟩
          dll := { EdingDll.start with libraries := plugin.dll.libraries } }

/-- `ControlExists` -/
def controlExists (registry : Registry) (loadLibrary : LoadLibrary) : Program EdingPlugin Bool := do
  construct
  onDll (EdingDll.loadDll registry loadLibrary)

/-- `Start`: `Bind` stops the server and starts it again.  It returns `errOK` even if the port could
not be `bound`. -/
def start (bound : Bool) : Program EdingPlugin Bool := do
  construct
  modify fun plugin => { plugin with bound }
  return true

/-- A handler runs in a server that is bound. -/
def request (functions : List CncFunction) : Program EdingPlugin Unit := do
  if (← get).bound then
    functions.forM invoke
  else
    return

/-- What must not happen while the server serves requests. -/
def unserved : Program EdingPlugin Unit := do
  if (← get).bound then
    fault
  else
    return

/-- A handler runs while the driver is deleted. -/
def lateRequest : LateRequest → Program EdingPlugin Unit
  | .library functions => request functions
  | .pureVirtual => unserved

/-- `Quit`: `~EdingCncServer` frees the library, and the server in its base class is stopped after
that. -/
def quit (pending : List LateRequest) : Program EdingPlugin Unit := do
  match (← get).cnc with
  | none => return
  | some _ =>
      onDll EdingDll.destroy
      pending.forM lateRequest
      modify fun plugin => { plugin with cnc := none, bound := false }

/-- A change of the driver that `g_cnc` points at. -/
def changeDriver (change : EdingDriver → EdingDriver) : Program EdingPlugin Unit := do
  match (← get).cnc with
  | none => fault
  | some driver => modify fun plugin => { plugin with cnc := some (change driver) }

/-- `EdingCncServer::PollConnected` -/
def pollConnected (processes : Option (List Wide)) (registry : Registry)
    (loadLibrary : LoadLibrary) (connectServer : Int) (isServerConnected : Bool) :
    Program EdingPlugin Unit := do
  match (← get).cnc with
  | none => fault
  | some driver =>
      let link := driver.link
      if guiRunning processes = false then
        changeDriver fun driver => { driver with link := { link with connectCount := 0 } }
      else if link.connected then
        return
      else if link.connectCount < 4 then
        changeDriver fun driver =>
          { driver with link := { link with connectCount := link.connectCount + 1 } }
      else if (← onDll (EdingDll.loadDll registry loadLibrary)) = false then
        return
      else
        invoke .connectServer
        if connectServer ≠ cncRcAlreadyRuns then
          return
        else
          invoke .isServerConnected
          if isServerConnected = false then
            return
          else
            changeDriver fun driver => { driver with link := { link with connected := true } }

/-- `EdingCncServer::Poll`, where `CncLogFifoGet` may return a message. -/
def poll (processes : Option (List Wide)) (registry : Registry) (loadLibrary : LoadLibrary)
    (connectServer : Int) (isServerConnected : Bool) (message : Option Bytes) :
    Program EdingPlugin Unit := do
  pollConnected processes registry loadLibrary connectServer isServerConnected
  invoke .logFifoGet
  match message with
  | none => return
  | some text =>
      changeDriver fun driver => { driver with core := driver.core.logMessage (cString text) }

/-- The program of each call. -/
def program : EdingCall → Program EdingPlugin Unit
  | .controlExists registry loadLibrary => (fun _ => ()) <$> controlExists registry loadLibrary
  | .start bound => (fun _ => ()) <$> start bound
  | .poll processes registry loadLibrary connectServer isServerConnected message =>
      poll processes registry loadLibrary connectServer isServerConnected message
  | .stop => pure ()
  | .quit pending => quit pending
  | .unload => unserved
  | .request functions => request functions

variable {plugin : EdingPlugin}

/-- The library is loaded, and every pointer points into it. -/
structure Resolved (dll : EdingDll) : Prop where
  owned : dll.libraries.Owned [dll.cncDll]
  nonnull : dll.cncDll ≠ none
  functions : ∀ function, dll.functions function = dll.cncDll

/-- The plugin as it is between `ControlExists` and `Quit`. -/
structure Ready (plugin : EdingPlugin) : Prop where
  driver : plugin.cnc ≠ none
  resolved : Resolved plugin.dll

@[simp] theorem ends_onDll {α : Type} (body : Program EdingDll α) (plugin : EdingPlugin)
    (post : α → EdingPlugin → Prop) :
    (onDll body).Ends plugin post ↔
      body.Ends plugin.dll fun value dll => post value { plugin with dll } :=
  ends_inside _ _ body plugin post

theorem ends_loadDll (registry : Registry) (loadLibrary : LoadLibrary) :
    (EdingDll.loadDll registry loadLibrary).Ends .start fun answer dll =>
      answer = true → Resolved dll := by
  by_cases missing : EdingDll.Missing registry loadLibrary
  · exact (EdingDll.ends_loadDll_of_missing rfl missing _).mpr nofun
  simp only [EdingDll.Missing, not_forall] at missing
  obtain ⟨dllVersion, path, searched, nonempty, loads⟩ := missing
  obtain ⟨found, loads⟩ := Option.ne_none_iff_exists'.mp loads
  have owned : (EdingDll.start.loaded dllVersion found).libraries.Owned
      [(EdingDll.start.loaded dllVersion found).cncDll] := (Heap.Owned.empty 1).new
  rw [EdingDll.ends_loadDll_of_loaded rfl searched nonempty loads]
  split
  · rename_i complete
    exact fun _ => ⟨owned, Option.some_ne_none _, EdingDll.functions_loaded complete⟩
  · have live := owned.live List.mem_cons_self (Option.some_ne_none _)
    exact (EdingDll.ends_freeLibrary _ _ _).mpr ⟨live, nofun⟩

/-- No function pointer is good any more when the library has been freed. -/
structure Freed (dll : EdingDll) : Prop where
  clean : dll.libraries.Clean
  dangling : ∀ function, ¬dll.libraries.Live (dll.functions function)

theorem Resolved.ends_destroy {dll : EdingDll} (resolved : Resolved dll) :
    EdingDll.destroy.Ends dll fun _ => Freed := by
  have live := resolved.owned.live List.mem_cons_self resolved.nonnull
  have clean : (dll.libraries.release dll.cncDll).Clean :=
    resolved.owned.release.clean (by simp)
  have dangling (function : CncFunction) :
      ¬(dll.libraries.release dll.cncDll).Live (dll.functions function) := by
    rw [resolved.functions]
    exact Heap.not_live_release live
  simpa [EdingDll.destroy, resolved.nonnull, live] using ⟨clean, dangling⟩

theorem Ready.ends_construct (ready : plugin.Ready) (post : Unit → EdingPlugin → Prop) :
    construct.Ends plugin post ↔ post () plugin := by
  rw [construct, ends_modify]
  obtain ⟨driver, pointed⟩ := Option.ne_none_iff_exists'.mp ready.driver
  rw [pointed]

theorem ends_changeDriver {driver : EdingDriver} (pointed : plugin.cnc = some driver)
    (change : EdingDriver → EdingDriver) (post : Unit → EdingPlugin → Prop) :
    (changeDriver change).Ends plugin post ↔
      post () { plugin with cnc := some (change driver) } := by
  rw [changeDriver, ends_bind, ends_get, pointed]
  exact ends_modify _ _ _

/-- The pointers are good. -/
theorem Ready.ends_invoke (ready : plugin.Ready) (function : CncFunction)
    (post : Unit → EdingPlugin → Prop) : (invoke function).Ends plugin post ↔ post () plugin := by
  have live : plugin.dll.libraries.Live (plugin.dll.functions function) := by
    rw [ready.resolved.functions]
    exact ready.resolved.owned.live List.mem_cons_self ready.resolved.nonnull
  rw [invoke, ends_bind, ends_get, if_pos live]
  exact ends_pure _ _ _

theorem invoke_keeps (function : CncFunction) : (invoke function).Keeps Ready :=
  fun _ ready => (ready.ends_invoke function _).mpr ready

theorem loadDll_keeps (registry : Registry) (loadLibrary : LoadLibrary) :
    (onDll (EdingDll.loadDll registry loadLibrary)).Keeps Ready := by
  intro plugin ready
  rw [ends_onDll, EdingDll.ends_loadDll_of_ne ready.resolved.nonnull]
  exact ready

theorem changeDriver_keeps (change : EdingDriver → EdingDriver) :
    (changeDriver change).Keeps Ready := by
  intro plugin ready
  obtain ⟨driver, pointed⟩ := Option.ne_none_iff_exists'.mp ready.driver
  exact (ends_changeDriver pointed change _).mpr ⟨Option.some_ne_none _, ready.resolved⟩

theorem pollConnected_keeps (processes : Option (List Wide)) (registry : Registry)
    (loadLibrary : LoadLibrary) (connectServer : Int) (isServerConnected : Bool) :
    (pollConnected processes registry loadLibrary connectServer isServerConnected).Keeps Ready := by
  intro plugin ready
  obtain ⟨driver, pointed⟩ := Option.ne_none_iff_exists'.mp ready.driver
  rw [pollConnected, ends_bind, ends_get, pointed]
  refine Keeps.ite (fun _ => changeDriver_keeps _) (fun _ => ?_) plugin ready
  refine .ite (fun _ => .pure _ _) fun _ => .ite (fun _ => changeDriver_keeps _) fun _ => ?_
  refine (loadDll_keeps registry loadLibrary).bind fun _ => .ite (fun _ => .pure _ _) fun _ => ?_
  refine (invoke_keeps _).bind fun _ => .ite (fun _ => .pure _ _) fun _ => ?_
  refine (invoke_keeps _).bind fun _ => .ite (fun _ => .pure _ _) fun _ => changeDriver_keeps _

theorem poll_keeps (processes : Option (List Wide)) (registry : Registry)
    (loadLibrary : LoadLibrary) (connectServer : Int) (isServerConnected : Bool)
    (message : Option Bytes) :
    (poll processes registry loadLibrary connectServer isServerConnected message).Keeps Ready := by
  refine (pollConnected_keeps _ _ _ _ _).bind fun _ => (invoke_keeps _).bind fun _ => ?_
  cases message with
  | none => exact .pure _ _
  | some text => exact changeDriver_keeps _

theorem request_keeps (functions : List CncFunction) : (request functions).Keeps Ready :=
  (Keeps.get _).bind fun _ => .ite (fun _ => .forM invoke_keeps functions) fun _ => .pure _ _

/-- `PollConnected` treats the flag and the counter as if the library were there. -/
theorem Ready.ends_pollConnected (ready : plugin.Ready) (processes : Option (List Wide))
    (registry : Registry) (loadLibrary : LoadLibrary) (connectServer : Int)
    (isServerConnected : Bool) {driver : EdingDriver} (pointed : plugin.cnc = some driver) :
    (pollConnected processes registry loadLibrary connectServer isServerConnected).Ends plugin
      fun _ next => next.cnc = some { driver with
        link := (driver.link.pollConnected
          ⟨processes, true, connectServer, isServerConnected⟩).1 } := by
  obtain ⟨cnc, dll, bound⟩ := plugin
  obtain rfl : cnc = some driver := pointed
  simp only [pollConnected, EdingLink.pollConnected, ends_bind, ends_get, ends_ite,
    @ends_changeDriver ⟨some driver, dll, bound⟩ driver rfl, ends_onDll,
    EdingDll.ends_loadDll_of_ne ready.resolved.nonnull, ready.ends_invoke, ends_pure]
  split_ifs <;> rfl

/-- How the plugin stands in its protocol when its client takes it, or does not. -/
def Stands (taken : Bool) (plugin : EdingPlugin) : Stage → Prop
  | .unopened => plugin = fresh
  | .loaded => if taken then plugin.Ready else plugin.bound = false
  | .rejected => plugin.bound = false
  | .quit | .retired =>
      plugin.cnc = none ∧ plugin.bound = false ∧ plugin.dll.libraries.Clean

/-- The client takes the plugin only if `ControlExists` returns true. -/
def Told (taken : Bool) (call : EdingCall) : Prop :=
  ∀ registry loadLibrary, call = .controlExists registry loadLibrary → taken = true →
    (EdingDll.loadDll registry loadLibrary .start).map Prod.fst = some true

theorem ends_controlExists {taken : Bool} {registry : Registry} {loadLibrary : LoadLibrary}
    (told : Told taken (.controlExists registry loadLibrary)) :
    (controlExists registry loadLibrary).Ends fresh fun _ next => next.Stands taken .loaded := by
  rw [controlExists, ends_bind, construct, ends_modify, ends_onDll]
  obtain ⟨answer, dll, loaded, resolved⟩ := ends_loadDll registry loadLibrary
  refine ⟨answer, dll, loaded, ?_⟩
  cases taken with
  | false => rfl
  | true =>
      have answered := told registry loadLibrary rfl rfl
      rw [loaded] at answered
      exact ⟨Option.some_ne_none _, resolved (Option.some.inj answered)⟩

theorem ends_lateRequest (freed : Freed plugin.dll) (late : LateRequest)
    (post : Unit → EdingPlugin → Prop) :
    (lateRequest late).Ends plugin post ↔
      (plugin.bound = true → late = .library []) ∧ post () plugin := by
  cases late with
  | library functions =>
      rw [lateRequest, request, ends_bind, ends_get, ends_ite]
      cases bound : plugin.bound with
      | false => simp
      | true =>
          cases functions with
          | nil => simp
          | cons function functions => simp [invoke, freed.dangling function]
  | pureVirtual =>
      rw [lateRequest, unserved, ends_bind, ends_get, ends_ite]
      cases bound : plugin.bound <;> simp

theorem ends_lateRequests (freed : Freed plugin.dll) (pending : List LateRequest)
    (post : Unit → EdingPlugin → Prop) :
    (pending.forM lateRequest).Ends plugin post ↔
      (plugin.bound = true → ∀ late ∈ pending, late = .library []) ∧ post () plugin := by
  induction pending with
  | nil => simp
  | cons late pending ih =>
      have both : ((late :: pending).forM lateRequest).Ends plugin post ↔
          (lateRequest late).Ends plugin fun _ next =>
            (pending.forM lateRequest).Ends next post :=
        ends_bind _ _ _ _
      rw [both, ends_lateRequest freed, ih, ← and_assoc, ← imp_and, List.forall_mem_cons]

/-- While the driver is deleted, no handler calls the library, which has been freed already, nor a
function that only the driver had. -/
def Settled (plugin : EdingPlugin) : EdingCall → Prop
  | .quit pending => plugin.bound = true → ∀ late ∈ pending, late = .library []
  | .controlExists _ _ | .start _ | .poll _ _ _ _ _ _ | .stop | .unload | .request _ => True

theorem Ready.ends_quit (ready : plugin.Ready) (taken : Bool) {pending : List LateRequest}
    (settled : plugin.Settled (.quit pending)) :
    (quit pending).Ends plugin fun _ next => next.Stands taken .quit := by
  obtain ⟨driver, pointed⟩ := Option.ne_none_iff_exists'.mp ready.driver
  rw [quit, ends_bind, ends_get, pointed]
  simp only [ends_bind, ends_onDll, ends_modify]
  refine ready.resolved.ends_destroy.mono fun _ dll freed => ?_
  exact (@ends_lateRequests { plugin with dll } freed pending _).mpr
    ⟨settled, rfl, rfl, freed.clean⟩

theorem Ready.settled_of_ends (ready : plugin.Ready) {pending : List LateRequest}
    {post : Unit → EdingPlugin → Prop} (ends : (quit pending).Ends plugin post) :
    plugin.Settled (.quit pending) := by
  obtain ⟨driver, pointed⟩ := Option.ne_none_iff_exists'.mp ready.driver
  rw [quit, ends_bind, ends_get, pointed] at ends
  simp only [ends_bind, ends_onDll, ends_modify] at ends
  obtain ⟨_, dll, -, freed, pended⟩ := ready.resolved.ends_destroy.and ends
  exact ((@ends_lateRequests { plugin with dll } freed pending _).mp pended).1

theorem ends_unserved (idle : plugin.bound = false) (post : Unit → EdingPlugin → Prop) :
    unserved.Ends plugin post ↔ post () plugin := by
  rw [unserved, ends_bind, ends_get, idle]
  exact ends_pure _ _ _

theorem ends_request_of_idle (idle : plugin.bound = false) (functions : List CncFunction)
    (post : Unit → EdingPlugin → Prop) : (request functions).Ends plugin post ↔ post () plugin := by
  rw [request, ends_bind, ends_get, idle]
  exact ends_pure _ _ _

theorem Stands.ends_request {taken : Bool} {stage : Stage} (stands : plugin.Stands taken stage)
    (functions : List CncFunction) :
    (request functions).Ends plugin fun _ next => next.Stands taken stage := by
  have idle (idle : plugin.bound = false) :=
    (ends_request_of_idle idle functions fun _ next => next.Stands taken stage).mpr stands
  cases stage with
  | unopened =>
      obtain rfl : plugin = fresh := stands
      exact idle rfl
  | loaded =>
      cases taken with
      | false => exact idle stands
      | true => exact request_keeps functions plugin stands
  | rejected => exact idle stands
  | quit | retired => exact idle stands.2.1

/-- What is called of a plugin that is ready. -/
theorem Ready.ends_program (ready : plugin.Ready) {next : Stage} {event : EdingCall}
    {call : PluginCall} (settled : plugin.Settled event) (made : event.call = some call)
    (step : Stage.step .loaded call = some next) (stays : call ≠ .unload) :
    (program event).Ends plugin fun _ after => after.Stands true next := by
  cases event with
  | controlExists registry loadLibrary =>
      cases made
      cases step
  | start bound =>
      cases made
      cases step
      rw [program, ends_map, start, ends_bind, ready.ends_construct, ends_bind, ends_modify,
        ends_pure]
      exact ⟨ready.driver, ready.resolved⟩
  | poll processes registry loadLibrary connectServer isServerConnected message =>
      cases made
      cases step
      exact poll_keeps _ _ _ _ _ _ plugin ready
  | stop =>
      cases made
      cases step
      exact (ends_pure _ _ _).mpr ready
  | quit pending =>
      cases made
      cases step
      exact ready.ends_quit true settled
  | unload =>
      cases made
      exact absurd rfl stays
  | request functions => cases made

/-- Every call keeps the plugin to its protocol. -/
theorem Stands.ends_program {taken : Bool} {stage next : Stage} {event : EdingCall}
    (stands : plugin.Stands taken stage) (told : Told taken event)
    (settled : plugin.Settled event)
    (run : (Stage.career taken).run stage event.call.toList = some next) :
    (program event).Ends plugin fun _ after => after.Stands taken next := by
  cases made : event.call with
  | none =>
      rw [made] at run
      obtain rfl : stage = next := Option.some.inj run
      cases event with
      | request functions => exact stands.ends_request functions
      | controlExists | start | poll | stop | quit | unload => cases made
  | some call =>
      rw [made] at run
      obtain ⟨_, called, ⟨⟩⟩ := Machine.run_cons_eq_some.mp run
      obtain ⟨⟨uses, unloads⟩, step⟩ := Option.ite_none_right_eq_some.mp called
      cases stage with
      | unopened =>
          obtain rfl : plugin = fresh := stands
          cases event with
          | controlExists registry loadLibrary =>
              cases made
              cases step
              exact (ends_map _ _ _ _).mpr (ends_controlExists told)
          | start | poll | stop | quit | unload =>
              cases made
              cases step
          | request => cases made
      | loaded =>
          cases taken with
          | true =>
              refine Ready.ends_program stands settled made step fun last => ?_
              exact Bool.noConfusion (unloads rfl last)
          | false =>
              cases event with
              | unload =>
                  cases made
                  cases step
                  exact (ends_unserved stands _).mpr stands
              | controlExists =>
                  cases made
                  cases step
              | start | poll | stop | quit =>
                  cases made
                  exact Bool.noConfusion (uses rfl)
              | request => cases made
      | quit =>
          cases event with
          | unload =>
              cases made
              cases step
              exact (ends_unserved stands.2.1 _).mpr stands
          | controlExists | start | poll | stop | quit =>
              cases made
              cases step
          | request => cases made
      | rejected | retired => cases step

theorem Stands.faults {taken : Bool} {stage next : Stage} {event : EdingCall}
    (stands : plugin.Stands taken stage) (unsettled : ¬plugin.Settled event)
    (run : (Stage.career taken).run stage event.call.toList = some next) :
    ¬(program event).Ends plugin fun _ _ => True := by
  cases event with
  | quit pending =>
      obtain ⟨_, called, ⟨⟩⟩ := Machine.run_cons_eq_some.mp run
      obtain ⟨⟨uses, -⟩, step⟩ := Option.ite_none_right_eq_some.mp called
      cases stage with
      | loaded =>
          cases taken with
          | false => exact Bool.noConfusion (uses rfl)
          | true =>
              have ready : plugin.Ready := stands
              exact fun ends => unsettled (ready.settled_of_ends ends)
      | unopened | quit | rejected | retired => cases step
  | controlExists | start | poll | stop | unload | request => exact absurd trivial unsettled

end EdingPlugin

namespace PluginClient

/-- Whatever a client does from its construction to its destruction, and whatever is requested of
the server in between: if one of the libraries that it opens is the Eding plugin, which says that
the control is there if `LoadDll` does, then the plugin follows no pointer that is null or dangles,
calls no pure virtual function and serves no request once it is unloaded, exactly if no handler
calls the vendor's library or a function of the driver that is gone while `Quit` deletes it.  A
plugin that was taken has then deleted its driver in the end and freed every library that it has
loaded. -/
theorem safe_iff {windows : Bool} {events : List PluginEvent} {final : PluginClient}
    (lived : lifetime windows events construct = some ((), final)) {library : Nat → Library}
    (opens : (machine (PluginClient.program windows)).Guarded
      (fun reached event => ∀ client ∈ reached, client.Opens library windows event)
      (some construct) events)
    {plugin : Nat} {calls : List EdingCall}
    (made : calls.filterMap EdingCall.call = final.log.filterMap (PluginAction.on plugin))
    (told : ∀ registry loadLibrary, EdingCall.controlExists registry loadLibrary ∈ calls →
      (library plugin).controlExists =
        (EdingDll.loadDll registry loadLibrary .start).map Prod.fst) :
    (∃ eding, (machine EdingPlugin.program).run (some .fresh) calls = some (some eding) ∧
      (plugin ∈ final.plugins → eding.cnc = none ∧ eding.dll.libraries.Clean)) ↔
      (machine EdingPlugin.program).Guarded
        (fun reached call => ∀ eding ∈ reached, eding.Settled call) (some .fresh) calls := by
  obtain ⟨last, career, retires⟩ := career_of_lifetime lived opens plugin
  rw [← made] at career
  have all : ∀ call ∈ calls, EdingPlugin.Told (decide (plugin ∈ final.plugins)) call := by
    rintro _ member registry loadLibrary rfl taken
    have accepted := (retires (of_decide_eq_true taken)).2
    rw [← told registry loadLibrary member]
    exact eq_of_beq (Bool.and_eq_true_iff.mp accepted).2
  have stands : EdingPlugin.Stands (decide (plugin ∈ final.plugins)) .fresh .unopened := rfl
  constructor
  · rintro ⟨eding, ran, -⟩
    exact guarded_of_protocol
      (fun stands told settled run => EdingPlugin.Stands.ends_program stands told settled run)
      (fun stands unsettled run => EdingPlugin.Stands.faults stands unsettled run) stands all career
      ran
  · intro settled
    obtain ⟨eding, ran, stands⟩ := run_of_protocol
      (fun stands told settled run => EdingPlugin.Stands.ends_program stands told settled run)
      stands all career settled
    refine ⟨eding, ran, fun taken => ?_⟩
    obtain ⟨rfl, -⟩ := retires taken
    exact ⟨stands.1, stands.2.2⟩

/-- A client connects to the plugin, polls it and is destroyed, while two requests arrive, and one
that does not need the library comes too late. -/
theorem safe_of_connect :
    ∃ eding, (machine EdingPlugin.program).run (some .fresh)
        [.controlExists EdingDll.installed fun _ => some fun _ => true, .start true,
          .request [.getState, .startJog],
          .poll none EdingDll.installed (fun _ => none) 0 false none, .stop, .request [.pauseJob],
          .quit [.library []], .unload] = some (some eding) ∧
      eding.cnc = none ∧ eding.dll.libraries.Clean := by
  let eding : Library := ⟨true, true, true, true, true, some true⟩
  let events : List PluginEvent :=
    [.loadPlugins true (some [⟨true, some eding⟩]), .connect 1, .poll]
  have numbered : ∀ (index : Nat) given, [eding][index]? = some given → eding = given := by
    intro index given inside
    exact (List.mem_singleton.mp (List.mem_of_getElem? inside)).symm
  have opens : (machine (PluginClient.program true)).Guarded
      (fun reached event => ∀ client ∈ reached, client.Opens (fun _ => eding) true event)
      (some construct) events :=
    fun _ _ => ⟨fun _ _ _ => numbered, fun _ _ => ⟨fun _ _ => trivial, fun _ _ =>
      ⟨fun _ _ => trivial, trivial⟩⟩⟩
  have told : ∀ registry loadLibrary, EdingCall.controlExists registry loadLibrary ∈
      [.controlExists EdingDll.installed fun _ => some fun _ => true, .start true,
        .request [.getState, .startJog],
        .poll none EdingDll.installed (fun _ => none) 0 false none, .stop, .request [.pauseJob],
        .quit [.library []], .unload] →
      eding.controlExists = (EdingDll.loadDll registry loadLibrary .start).map Prod.fst := by
    intro registry loadLibrary member
    obtain ⟨rfl, rfl⟩ : registry = EdingDll.installed ∧
        loadLibrary = fun _ => some fun _ => true := by simpa using member
    rfl
  have settled : ∀ plugin : EdingPlugin, plugin.Settled (.quit [.library []]) := fun _ _ _ member =>
    List.mem_singleton.mp member
  obtain ⟨plugin, ran, freed⟩ :=
    (@safe_iff true events _ rfl (fun _ => eding) opens 0 _ rfl told).mpr
      fun _ _ => ⟨fun _ _ => trivial, fun _ _ => ⟨fun _ _ => trivial, fun _ _ =>
        ⟨fun _ _ => trivial, fun _ _ => ⟨fun _ _ => trivial, fun _ _ => ⟨fun _ _ => trivial,
          fun _ _ => ⟨fun _ _ => trivial, fun _ _ => ⟨fun plugin _ => settled plugin,
            fun _ _ => ⟨fun _ _ => trivial, trivial⟩⟩⟩⟩⟩⟩⟩⟩
  exact ⟨plugin, ran, freed (by decide)⟩

end PluginClient

end CncRemote
