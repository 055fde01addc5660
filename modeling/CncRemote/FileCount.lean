import CncRemote.Answers
import CncRemote.Core
import CncRemote.Machine
import CncRemote.Wire

/-!
# Counting loaded files

`m_state.fileCount` tells every client that a file was loaded.  Only `LoadFile2` counts, and it is
bound to no name: a request for `LoadFile` goes to the function of the driver, which does not.
-/

namespace CncRemote

open Msgpack (Value Codec)

/-- What a function of a driver does to the members of `Server`: it logs texts and assigns members
of `m_state`, but none of the counters. -/
structure Effect (δ : Type*) (before : State Double) where
  /-- The members of the driver. -/
  driver : δ
  state : State Double
  same : before.SameCounts state
  logged : List (Kind × Bytes)

/-- A class derived from `Server`. -/
structure Driver (δ : Type*) where
  /-- `UpdateState` -/
  updateState : δ → (state : State Double) → Effect δ state × Except Thrown Unit
  /-- The other functions that are bound, with `SendInit` and `SendData`. -/
  perform : δ → (state : State Double) → ServerCall → Effect δ state × Except Thrown Value
  /-- The text that `stringify` makes of parameters. -/
  stringify : Value → Bytes

/-- A driver and the members of `Server`. -/
abbrev Instance (δ : Type*) : Type _ := δ × Core

variable {δ : Type*}

/-- Carry out what a function of the driver does. -/
def Core.apply (core : Core) (effect : Effect δ core.state) : Instance δ :=
  (effect.driver,
    effect.logged.foldl (fun core entry => core.log entry.1 entry.2) (core.update effect.state))

namespace Driver

variable (driver : Driver δ)

/-- `Server::GetState_` -/
def getState_ (server : Instance δ) : Instance δ × Except Thrown Value :=
  let (effect, result) := driver.updateState server.1 server.2.state
  let updated := server.2.apply effect
  (updated, result.map fun _ => stateCodec.pack updated.2.state)

/-- A function of the driver. -/
def invoke (server : Instance δ) (call : ServerCall) : Instance δ × Except Thrown Value :=
  let (effect, result) := driver.perform server.1 server.2.state call
  (server.2.apply effect, result)

/-- `Server::LoadFile2`, which no request reaches. -/
def loadFile2 (server : Instance δ) (file : Bytes) : Instance δ × Except Thrown Value :=
  let counted :=
    { server.2.state with fileCount := server.2.state.fileCount + 1 }
  driver.invoke (server.1, { server.2 with state := counted }) (.loadFile file)

/-- The functions that are bound. -/
def backend : Backend (Instance δ) where
  perform server
    | .getState_ => driver.getState_ server
    | .getError index => (server, .ok (Codec.string.pack (server.2.getError index)))
    | .getMessage index => (server, .ok (Codec.string.pack (server.2.getMessage index)))
    | .version => (server, .ok (.float 0x40400000))
    | call => driver.invoke server call
  stringify := driver.stringify

end Driver

/-- The call loads a file. -/
def ServerCall.isLoadFile : ServerCall → Bool
  | .loadFile _ => true
  | _ => false

/-- The message is a request to load a file, whose name can be decoded. -/
def Message.LoadsFile : Message → Prop
  | .request _ method params => method = ascii "LoadFile" ∧ Codec.string.as params ≠ none
  | .response _ _ _ | .notify _ _ => False

/-- A server with what clients can tell of it. -/
structure Host (δ : Type*) where
  running : Running (Instance δ)
  /-- `fileCount` in each response to `GetState`, with the number of files that had been loaded,
  oldest first. -/
  reports : List (UInt32 × Nat)

/-- What happens to a server. -/
inductive HostEvent (δ : Type*) where
  /-- A message of a client is handled. -/
  | message (message : Message)
  /-- The driver acts without a request. -/
  | act (effect : δ → (state : State Double) → Effect δ state)

namespace Host

/-- A server that was just constructed. -/
def start (driver : δ) : Host δ := ⟨⟨(driver, .new), []⟩, []⟩

/-- `m_state.fileCount` -/
def fileCount (host : Host δ) : UInt32 := host.running.state.2.state.fileCount

/-- How many `LoadFile` requests have been executed. -/
def loads (host : Host δ) : Nat := host.running.executed.countP ServerCall.isLoadFile

/-- The count that is reported by what is sent for a message, if that is a state. -/
def reported : Message → List Message → Option UInt32
  | .request _ method _, [.response _ result .nil] =>
      if method = ascii "GetState" then (stateCodec.as result).map (·.fileCount) else none
  | _, _ => none

/-- One event of a server. -/
def step (driver : Driver δ) (host : Host δ) : HostEvent δ → Host δ
  | .message message =>
      let (running, sent) := onMessage driver.backend host.running message
      let next : Host δ := { host with running }
      match reported message sent with
      | some count => { next with reports := host.reports ++ [(count, next.loads)] }
      | none => next
  | .act effect =>
      let core := host.running.state.2
      let acted := core.apply (effect host.running.state.1 core.state)
      { host with running := { host.running with state := acted } }

/-- The machine of a server with a driver. -/
def machine (driver : Driver δ) : Machine (Host δ) (HostEvent δ) :=
  ⟨fun host event => some (host.step driver event)⟩

/-- `fileCount` counts the files that were loaded, and two reports of one count, fewer than 2^32
loads apart, have no load in between. -/
structure Counting (host : Host δ) : Prop where
  counts : host.fileCount = UInt32.ofNat host.loads
  reports : host.reports.Pairwise fun earlier later =>
    later.2 < earlier.2 + 2 ^ 32 → earlier.1 = later.1 → earlier.2 = later.2

/-- No request to load a file is handled. -/
def LoadsNothing : HostEvent δ → Prop
  | .message message => ¬message.LoadsFile
  | .act _ => True

end Host

theorem not_loads_of_map {α : Type} {func : α → ServerCall}
    (never : ∀ argument, (func argument).isLoadFile = false) (decoded : Option α) :
    ∀ call ∈ decoded.map func, call.isLoadFile = false := by
  intro call made
  obtain ⟨argument, -, rfl⟩ := Option.map_eq_some_iff.mp made
  exact never argument

/-- The function that is bound loads no file, whatever the parameters are. -/
def RequestBinding.NeverLoads (binding : RequestBinding ServerCall) : Prop :=
  ∀ params, ∀ call ∈ binding.called params, call.isLoadFile = false

/-- The function that is bound loads no file, whatever the parameters are. -/
def NotifyBinding.NeverLoads (binding : NotifyBinding ServerCall) : Prop :=
  ∀ params, ∀ call ∈ binding.called params, call.isLoadFile = false

theorem RequestBinding.req0_neverLoads (name : Bytes) {func : ServerCall}
    (never : func.isLoadFile = false) : (req0 name func).NeverLoads :=
  fun _ => not_loads_of_map (fun _ => never) (some ())

theorem RequestBinding.req1_neverLoads {α : Type} [Inhabited α] (codec : Codec α) (name : Bytes)
    {func : α → ServerCall} (never : ∀ argument, (func argument).isLoadFile = false) :
    (req1 codec name func).NeverLoads :=
  fun params => not_loads_of_map never (codec.as params)

theorem NotifyBinding.notify0_neverLoads (name : Bytes) {func : ServerCall}
    (never : func.isLoadFile = false) : (notify0 name func).NeverLoads :=
  fun _ => not_loads_of_map (fun _ => never) (some ())

theorem NotifyBinding.notify1_neverLoads {α : Type} [Inhabited α] (codec : Codec α) (name : Bytes)
    {func : α → ServerCall} (never : ∀ argument, (func argument).isLoadFile = false) :
    (notify1 codec name func).NeverLoads :=
  fun params => not_loads_of_map never (codec.as params)

open RequestBinding NotifyBinding

theorem requests_load :
    ∀ binding ∈ serverBindings.requests, binding.NeverLoads ∨ binding.name = ascii "LoadFile" := by
  simp only [serverBindings, List.forall_mem_cons]
  exact
    ⟨.inl (req0_neverLoads _ rfl), .inl (req1_neverLoads _ _ fun _ => rfl), .inr rfl,
      .inl (req0_neverLoads _ rfl), .inl (req1_neverLoads _ _ fun _ => rfl),
      .inl (req0_neverLoads _ rfl), .inl (req0_neverLoads _ rfl),
      .inl (req1_neverLoads _ _ fun _ => rfl),
      .inl fun params =>
        not_loads_of_map (fun _ => rfl) ((requestDataCodec .string .int).as params),
      .inl (req1_neverLoads _ _ fun _ => rfl), .inl (req1_neverLoads _ _ fun _ => rfl),
      .inl (req0_neverLoads _ rfl), .inl (req1_neverLoads _ _ fun _ => rfl),
      .inl (req0_neverLoads _ rfl), List.forall_mem_nil _⟩

theorem notifications_load : ∀ binding ∈ serverBindings.notifications, binding.NeverLoads := by
  simp only [serverBindings, List.forall_mem_cons]
  exact
    ⟨notify1_neverLoads _ _ fun _ => rfl, notify1_neverLoads _ _ fun _ => rfl,
      fun params => not_loads_of_map (fun _ => rfl) ((notifyDataCodec axesCodec .double).as params),
      notify1_neverLoads _ _ fun _ => rfl, notify1_neverLoads _ _ fun _ => rfl,
      notify1_neverLoads _ _ fun _ => rfl, notify0_neverLoads _ rfl, notify0_neverLoads _ rfl,
      notify1_neverLoads _ _ fun _ => rfl, notify1_neverLoads _ _ fun _ => rfl,
      notify1_neverLoads _ _ fun _ => rfl, notify1_neverLoads _ _ fun _ => rfl,
      notify1_neverLoads _ _ fun _ => rfl, notify0_neverLoads _ rfl, List.forall_mem_nil _⟩

/-- A request loads a file exactly if it is named `LoadFile` and the name of the file can be
decoded. -/
theorem requestCall_loads_iff (method : Bytes) (params : Value) :
    (∃ call ∈ serverBindings.requestCall method params, call.isLoadFile = true) ↔
      method = ascii "LoadFile" ∧ Codec.string.as params ≠ none := by
  by_cases load : method = ascii "LoadFile"
  · subst load
    have called : serverBindings.requestCall (ascii "LoadFile") params =
        (Codec.string.as params).map .loadFile := rfl
    rw [called]
    cases Codec.string.as params <;> simp [ServerCall.isLoadFile]
  · refine iff_of_false ?_ fun loads => load loads.1
    rintro ⟨call, made, loads⟩
    obtain ⟨binding, found, made⟩ := Option.bind_eq_some_iff.mp made
    have named : binding.name = method := by simpa using List.find?_some found
    rcases requests_load binding (List.mem_of_find?_eq_some found) with never | name
    · rw [never params call made] at loads
      cases loads
    · exact load (named.symm.trans name)

theorem notifyCall_not_loads (method : Bytes) (params : Value) :
    ∀ call ∈ serverBindings.notifyCall method params, call.isLoadFile = false := by
  intro call made
  obtain ⟨binding, found, made⟩ := Option.bind_eq_some_iff.mp made
  exact notifications_load binding (List.mem_of_find?_eq_some found) params call made

/-- A message calls at most one function, and `LoadFile` exactly if it is a request to load a
file. -/
theorem onMessage_running {σ : Type*} (backend : Backend σ) (running : Running σ)
    (message : Message) :
    ∃ called : Option ServerCall,
      (onMessage backend running message).1 =
        called.elim running (fun call => (running.invoke backend call).1) ∧
      ((∃ call ∈ called, call.isLoadFile = true) ↔ message.LoadsFile) := by
  rw [onMessage_eq_serverBindings]
  cases message with
  | request msgid method params =>
      obtain ⟨next, response, sends, answered⟩ :=
        serverBindings.request_case backend running msgid method params
      rw [sends]
      exact ⟨_, answered.next_running, requestCall_loads_iff method params⟩
  | response => exact ⟨none, rfl, iff_of_false (by simp) nofun⟩
  | notify method params =>
      have notified := serverBindings.notify_case backend running method params
      refine ⟨_, notified.next_running, iff_of_false ?_ id⟩
      rintro ⟨call, made, loads⟩
      rw [notifyCall_not_loads method params call made] at loads
      cases loads

theorem Core.fileCount_apply (core : Core) (effect : Effect δ core.state) :
    (core.apply effect).2.state.fileCount = core.state.fileCount := by
  have logged (entries : List (Kind × Bytes)) (core : Core) :
      (entries.foldl (fun core entry => core.log entry.1 entry.2) core).state.fileCount =
        core.state.fileCount := by
    induction entries generalizing core with
    | nil => rfl
    | cons entry entries ih =>
        rw [List.foldl_cons, ih]
        exact fileCount_log core entry.1 entry.2
  rw [apply, logged]
  exact effect.same.2.2

namespace Driver

variable (driver : Driver δ)

theorem fileCount_backend (server : Instance δ) (call : ServerCall) :
    (driver.backend.perform server call).1.2.state.fileCount = server.2.state.fileCount := by
  cases call with
  | getError | getMessage | version => rfl
  | _ => exact Core.fileCount_apply _ _

end Driver

namespace Host

variable {driver : Driver δ}

theorem running_message (host : Host δ) (message : Message) :
    (host.step driver (.message message)).running =
      (onMessage driver.backend host.running message).1 := by
  simp only [step]
  split <;> rfl

theorem fileCount_step (host : Host δ) (event : HostEvent δ) :
    (host.step driver event).fileCount = host.fileCount := by
  cases event with
  | message message =>
      obtain ⟨called, next, -⟩ := onMessage_running driver.backend host.running message
      rw [fileCount, running_message, next]
      cases called with
      | none => rfl
      | some call => exact driver.fileCount_backend host.running.state call
  | act effect => exact Core.fileCount_apply _ _

theorem loads_step (host : Host δ) (event : HostEvent δ) :
    (LoadsNothing event → (host.step driver event).loads = host.loads) ∧
      (¬LoadsNothing event → (host.step driver event).loads = host.loads + 1) := by
  cases event with
  | message message =>
      obtain ⟨called, next, loads⟩ := onMessage_running driver.backend host.running message
      rw [LoadsNothing, Host.loads, running_message, next, ← loads]
      cases called with
      | none => simp [Host.loads]
      | some call => cases load : call.isLoadFile <;> simp [Host.loads, load]
  | act effect => exact ⟨fun _ => rfl, fun loads => (loads trivial).elim⟩

theorem eq_of_reported {running : Running (Instance δ)} {message : Message} {count : UInt32}
    (reports : reported message (onMessage driver.backend running message).2 = some count) :
    count = (onMessage driver.backend running message).1.state.2.state.fileCount := by
  cases message with
  | response | notify => cases reports
  | request msgid method params =>
      by_cases asks : method = ascii "GetState"
      · subst asks
        have found : (requestHandlers : List (RequestHandler (Instance δ))).find?
            (fun handler => handler.name = ascii "GetState") =
              some (requestHandler0 (ascii "GetState_") .getState_) := rfl
        simp only [onMessage, Handler.onMessage, found, requestHandler0, Running.invoke,
          Driver.backend, Driver.getState_] at reports ⊢
        cases updated : (driver.updateState running.state.1 running.state.2.state).2 with
        | ok =>
            simp only [updated, Except.map, reported, if_true, Codec.as_pack, Option.map_some,
              Option.some_inj] at reports ⊢
            exact reports.symm
        | error thrown => simp [updated, Except.map, reported] at reports
      · simp only [reported] at reports
        split at reports
        · rename_i same _
          obtain ⟨-, rfl, -⟩ := Message.request.inj same
          rw [if_neg asks] at reports
          cases reports
        · cases reports

theorem mem_reports_step {host : Host δ} {event : HostEvent δ} {report : UInt32 × Nat}
    (listed : report ∈ (host.step driver event).reports) :
    report ∈ host.reports ∨
      report = ((host.step driver event).fileCount, (host.step driver event).loads) := by
  cases event with
  | act effect => exact .inl listed
  | message message =>
      rw [fileCount, loads, running_message]
      simp only [step] at listed
      split at listed
      · rename_i count reports
        rcases List.mem_append.mp listed with old | new
        · exact .inl old
        · rw [List.mem_singleton.mp new, eq_of_reported reports]
          exact .inr rfl
      · exact .inl listed

/-- Whatever is loaded, `fileCount` is 0 and reported as 0. -/
structure Uncounted (host : Host δ) : Prop where
  fileCount : host.fileCount = 0
  reports : ∀ report ∈ host.reports, report.1 = 0

/-- No file has been loaded. -/
structure Unloaded (host : Host δ) : Prop where
  uncounted : host.Uncounted
  loads : host.loads = 0
  reports : ∀ report ∈ host.reports, report.2 = 0

theorem start_unloaded (initial : δ) : (start initial).Unloaded :=
  ⟨⟨rfl, by simp [start]⟩, rfl, by simp [start]⟩

theorem uncounted_step {host next : Host δ} {event : HostEvent δ} (uncounted : host.Uncounted)
    (moved : (machine driver).step host event = some next) : next.Uncounted := by
  obtain rfl := Option.some.inj moved
  have same : (host.step driver event).fileCount = 0 :=
    (fileCount_step host event).trans uncounted.fileCount
  refine ⟨same, fun report listed => ?_⟩
  rcases mem_reports_step listed with old | rfl
  · exact uncounted.reports report old
  · exact same

theorem unloaded_step {host next : Host δ} {event : HostEvent δ} (unloaded : host.Unloaded)
    (nothing : LoadsNothing event) (moved : (machine driver).step host event = some next) :
    next.Unloaded := by
  have uncounted := uncounted_step unloaded.uncounted moved
  obtain rfl := Option.some.inj moved
  have same : (host.step driver event).loads = 0 :=
    ((loads_step host event).1 nothing).trans unloaded.loads
  refine ⟨uncounted, same, fun report listed => ?_⟩
  rcases mem_reports_step listed with old | rfl
  · exact unloaded.reports report old
  · exact same

theorem Unloaded.counting {host : Host δ} (unloaded : host.Unloaded) : host.Counting where
  counts := by
    rw [unloaded.uncounted.fileCount, unloaded.loads]
    rfl
  reports := List.pairwise_of_forall_mem_list fun earlier before later after _ _ => by
    rw [unloaded.reports earlier before, unloaded.reports later after]

/-- The first file that is loaded is not counted. -/
theorem not_counting_of_load {host next : Host δ} {event : HostEvent δ} (unloaded : host.Unloaded)
    (load : ¬LoadsNothing event) (moved : (machine driver).step host event = some next) :
    ¬next.Counting := by
  intro counting
  have zero := (uncounted_step unloaded.uncounted moved).fileCount
  obtain rfl := Option.some.inj moved
  have counts := counting.counts
  rw [zero, (loads_step host event).2 load, unloaded.loads] at counts
  exact absurd counts (by decide)

/-- In no run is any loaded file counted. -/
theorem always_uncounted (driver : Driver δ) (initial : δ) (events : List (HostEvent δ)) :
    (machine driver).Always Uncounted (start initial) events :=
  Machine.always_iff.mpr fun _ _ _ execution =>
    Machine.invariant_of_run uncounted_step (start_unloaded initial).uncounted execution

/-- Whatever the driver does and whatever arrives, `fileCount` counts the files that were loaded
exactly if no request to load a file was handled. -/
theorem always_counting_iff (driver : Driver δ) (initial : δ) (events : List (HostEvent δ)) :
    (machine driver).Always Counting (start initial) events ↔
      ∀ event ∈ events, LoadsNothing event := by
  have guarded := @Machine.always_iff_guarded _ _ (machine driver)
    (fun _ event => LoadsNothing event) Counting Unloaded unloaded_step Unloaded.counting
    not_counting_of_load (start initial) (start_unloaded initial) events
  exact guarded.trans (Machine.guarded_iff_forall (step driver) (start initial) events)

/-- A driver that does nothing and loads every file. -/
def idle : Driver Unit where
  updateState _ state := (⟨(), state, ⟨rfl, rfl, rfl⟩, []⟩, .ok ())
  perform _ state _ := (⟨(), state, ⟨rfl, rfl, rfl⟩, []⟩, .ok (.bool true))
  stringify _ := []

/-- A file is loaded between two reports of the same count. -/
theorem not_counting_of_loadFile :
    ¬∀ events : List (HostEvent Unit), (machine idle).Always Counting (start ()) events := by
  intro always
  obtain ⟨final, execution, reports⟩ : ∃ final,
      (machine idle).run (start ())
        [.message (.request 1 (ascii "GetState") .nil),
          .message (.request 2 (ascii "LoadFile") (.str (ascii "a.ngc"))),
          .message (.request 3 (ascii "GetState") .nil)] = some final ∧
        final.reports = [(0, 0), (0, 1)] := ⟨_, rfl, by decide +kernel⟩
  have counting := Machine.always_iff.mp (always _) _ final List.prefix_rfl execution
  have loads := counting.reports
  rw [reports] at loads
  simp at loads

end Host

end CncRemote
