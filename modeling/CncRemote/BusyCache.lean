import CncRemote.Busy

/-!
# Letting the busy cache go

The cache hides the state that the server reports.  A call of `SetBusy` arms it for two states, and
the constructor leaves it armed for as long as the memory it is built in says.
-/

namespace CncRemote

namespace Session

/-- Count the states decoded since the last call of `SetBusy`. -/
def recount (count : Nat) : Entry → Nat
  | .setBusy _ => 0
  | .decoded _ => count + 1
  | .request _ | .answered _ | .onConnect _ | .onIncorrectVersion _ | .onDisConnect
  | .retryTimer _ => count

/-- How many states were decoded since the last call of `SetBusy`, or since construction. -/
def decodedSince (log : List Entry) : Nat := log.foldl recount 0

theorem decodedSince_append (log entries : List Entry) :
    decodedSince (log ++ entries) = entries.foldl recount (decodedSince log) :=
  List.foldl_append

theorem decodedSince_append_of_uncounted {log entries : List Entry}
    (uncounted : ∀ entry ∈ entries, ∀ count, recount count entry = count) :
    decodedSince (log ++ entries) = decodedSince log := by
  rw [decodedSince_append]
  generalize decodedSince log = count
  induction entries with
  | nil => rfl
  | cons entry entries ih =>
      obtain ⟨first, rest⟩ := List.forall_mem_cons.mp uncounted
      rw [List.foldl_cons, first, ih rest]

/-- A state that the transport delivers has a machine state; no enumerator is negative. -/
def ReportsState : Event → Prop
  | .callback (.response ⟨_, .state state, _⟩) => 0 ≤ state.machineState
  | _ => True

/-- Two states after the last motion command, the cache does not hide the state of the machine. -/
def Unmasked (session : Session) : Prop :=
  session.connected = true → 2 ≤ decodedSince session.log →
    ∀ state, session.client.isBusy session.connected state =
      decide (session.client.state.machineState > state)

/-- The cache is gone by the second of the states that are counted. -/
def Releases (statusCache busyHeart heartBeat : Int32) : Nat → Prop
  | 0 => statusCache ≤ 0 ∨ busyHeart ≤ heartBeat ∨ busyHeart ≤ heartBeat + 1
  | 1 => statusCache ≤ 0 ∨ busyHeart ≤ heartBeat
  | _ => statusCache ≤ 0

theorem releases_of_released {statusCache : Int32} (released : statusCache ≤ 0)
    (busyHeart heartBeat : Int32) (count : Nat) :
    Releases statusCache busyHeart heartBeat count := by
  match count with
  | 0 | 1 => exact .inl released
  | _ + 2 => exact released

/-- The counters and the cache of a client, with the states counted in a log. -/
def ReleasesBy (client : Client) (log : List Entry) : Prop :=
  Releases client.statusCache client.busyHeart client.heartBeat (decodedSince log)

theorem releases_of_readState {client : Client} {count : Nat} {response : Response Reply}
    {state : State Double} (offered : client.offeredState = some (response, state))
    (releases : Releases client.statusCache client.busyHeart client.heartBeat count) :
    Releases client.readState.1.statusCache client.readState.1.busyHeart
      client.readState.1.heartBeat (count + 1) := by
  by_cases due : client.busyHeart ≤ client.heartBeat
  · refine releases_of_released ?_ _ _ _
    simp [Client.readState, offered, due]
  · have kept : client.readState.1 =
        { client with state, heartBeat := client.heartBeat + 1 } := by
      simp [Client.readState, offered, due]
    rw [kept]
    rcases count with _ | _ | count
    · rcases releases with released | early | next
      · exact releases_of_released released _ _ _
      · exact (due early).elim
      · exact .inr next
    · rcases releases with released | early
      · exact releases_of_released released _ _ _
      · exact (due early).elim
    · exact releases

/-- What links the cache, the counters, the states and the log. -/
structure Releasing (session : Session) : Prop where
  orderly : session.Orderly
  held : ∀ response state, session.client.status.Shows (.holding response) →
    response.result = .state state → 0 ≤ state.machineState
  state_nonneg : 0 ≤ session.client.state.machineState
  releases : ReleasesBy session.client session.log

theorem Releasing.unmasked {session : Session} (inv : session.Releasing) : session.Unmasked := by
  intro up twice state
  have released : session.client.statusCache ≤ 0 := by
    have releases := inv.releases
    rw [ReleasesBy, show decodedSince session.log = decodedSince session.log - 2 + 2 by omega]
      at releases
    exact releases
  have hidden := Int32.not_lt.mpr (Int32.le_trans released inv.state_nonneg)
  rw [Client.isBusy, if_neg (by simp [up]), if_neg hidden]

theorem releasing_of_request (session : Session) {client : Client} {log : List Entry}
    {slot : Slot Reply} (shows : client.status.Shows slot)
    (idle : client.status.call.busy = false) (state_nonneg : 0 ≤ client.state.machineState)
    (releases : ReleasesBy client log) (method : String) (err : Option String) :
    Releasing
      { session with
        client := (client.request method session.connection err).1
        log := log ++ (client.request method session.connection err).2 } where
  orderly := ⟨_, Line.callAsync_shows shows method session.connection err⟩
  held := fun response _ held _ => by
    have unset := held.2.1
    dsimp only at unset
    rw [Client.request, Line.callAsync_of_idle idle] at unset
    cases unset
  state_nonneg := state_nonneg
  releases := by
    rw [ReleasesBy, decodedSince_append_of_uncounted]
    · exact releases
    · intro entry recorded count
      rw [Client.request_entries recorded, recount]

/-- A version that was read counts for nothing. -/
theorem Releasing.readVersion {session : Session} (inv : session.Releasing) (ver : Single)
    (entry : Entry) (uncounted : ∀ count, recount count entry = count) :
    Releasing
      { session with
        client :=
          { session.client with
            serverVer := ver, status := session.client.status.clearResponse }
        log := session.log ++ [entry] } where
  orderly := by
    obtain ⟨slot, shows⟩ := inv.orderly
    exact ⟨_, Line.clearResponse_shows shows⟩
  held := fun _ _ held _ => by cases held.2.1
  state_nonneg := inv.state_nonneg
  releases := by
    rw [ReleasesBy, decodedSince_append_of_uncounted (by simpa using uncounted)]
    exact inv.releases

theorem Releasing.poll {session : Session} (inv : session.Releasing) {err : Option String}
    {client : Client} {entries : List Entry}
    (polled : session.client.PollCase session.connected session.connection err client entries) :
    Releasing { session with client, log := session.log ++ entries } := by
  obtain ⟨slot, shows⟩ := inv.orderly
  cases polled with
  | unchanged => simpa using inv
  | refuse => exact inv.readVersion _ _ fun _ => rfl
  | accept => exact inv.readVersion _ _ fun _ => rfl
  | askVersion _ _ idle | askState _ _ idle =>
      exact releasing_of_request session shows idle inv.state_nonneg inv.releases _ err
  | @readState response state _ _ offered =>
      obtain ⟨rfl, -, result⟩ := Client.offeredState_eq_some shows offered
      have idle : session.client.status.call.busy = false := shows.1
      have read : session.client.readState.1.state = state := by
        simp [Client.readState, offered]
      have nonneg : 0 ≤ session.client.readState.1.state.machineState := by
        rw [read]
        exact inv.held response state shows result
      have releases : ReleasesBy session.client.readState.1
          (session.log ++ [.decoded response.request]) := by
        rw [ReleasesBy, decodedSince_append]
        exact releases_of_readState offered inv.releases
      rw [← Client.readState_status] at shows idle
      have asked := releasing_of_request session shows idle nonneg releases
        "GetState" err
      simpa using asked

theorem Releasing.callback {session : Session} (inv : session.Releasing)
    {callback : Callback Reply} {status : Line Reply}
    (reports : ReportsState (.callback callback))
    (served : session.client.status.callback callback = some status) :
    Releasing
      { session with
        client := { session.client with status }
        log := session.log ++ Entry.ofCallback callback } := by
  obtain ⟨slot, shows⟩ := inv.orderly
  obtain ⟨nextSlot, called, nextShows⟩ := Line.callback_shows shows served
  obtain rfl := Line.awaiting_of_mem shows (Line.callback_eq_some served).1
  constructor
  · exact ⟨nextSlot, nextShows⟩
  · intro response state held result
    obtain rfl := nextShows.unique held
    cases callback with
    | error => simp [Slot.callback, Callback.request] at called
    | response answer =>
        obtain rfl : answer = response := by simpa [Slot.callback, Callback.request] using called
        obtain ⟨request, reply, error⟩ := answer
        obtain rfl : reply = .state state := result
        exact reports
  · exact inv.state_nonneg
  · rw [ReleasesBy, decodedSince_append_of_uncounted]
    · exact inv.releases
    · cases callback <;> simp [Entry.ofCallback, recount]

theorem Releasing.setBusy {session : Session} (inv : session.Releasing) (state : Int32) :
    Releasing
      { session with
        client := session.client.setBusy state
        log := session.log ++ [.setBusy state] } where
  orderly := inv.orderly
  held := inv.held
  state_nonneg := inv.state_nonneg
  releases := by
    rw [ReleasesBy, decodedSince_append]
    exact .inr (.inr (Int32.le_refl _))

theorem Releasing.onDisconnect {session : Session} (inv : session.Releasing) :
    session.onDisconnect.Releasing := by
  obtain ⟨entries, log_eq, own⟩ := onDisconnect_log session
  have uncounted : ∀ entry ∈ entries, ∀ count, recount count entry = count := by
    intro entry recorded count
    rcases own entry recorded with rfl | ⟨ms, rfl⟩ <;> rfl
  constructor
  · obtain ⟨slot, shows⟩ := inv.orderly
    exact ⟨slot, by rwa [onDisconnect_status]⟩
  · rw [onDisconnect_status]
    exact inv.held
  · rw [onDisconnect_client]
    split
    · exact Int32.le_refl 0
    · exact inv.state_nonneg
  · rw [ReleasesBy, log_eq, decodedSince_append_of_uncounted uncounted, onDisconnect_client]
    split <;> exact inv.releases

theorem releasing_step {session next : Session} {event : Event} (inv : session.Releasing)
    (reports : ReportsState event) (moved : machine.step session event = some next) :
    next.Releasing := by
  cases step_cases inv.orderly moved with
  | poll polled => exact inv.poll polled
  | setBusy => exact inv.setBusy _
  | ignored => exact inv
  | callback served => exact inv.callback reports served
  | connect => exact ⟨inv.orderly, inv.held, inv.state_nonneg, inv.releases⟩
  | lose | fail => exact inv.onDisconnect

/-- A client after the handshake that awaits the state it has asked for. -/
def serving (statusCache busyHeart heartBeat : Int32) (last : Response Reply) (number : Nat)
    (log : List Entry) : Session where
  client :=
    { serverVer := .finite 3
      state := .initial
      statusCache := statusCache
      busyHeart := busyHeart
      heartBeat := heartBeat
      status := ⟨⟨some last, false, "", true⟩, number + 1, [⟨number, "GetState", 1⟩], some number⟩ }
  retries := 0
  connected := true
  connection := 1
  log := log

/-- A response that reports the lowest state. -/
def report (number : Nat) : Response Reply := ⟨⟨number, "GetState", 1⟩, .state .initial, none⟩

/-- The response arrives, and the next poll reads it and asks again. -/
def reported (number : Nat) : List Event := [.callback (.response (report number)), .poll none]

theorem run_reported (statusCache busyHeart heartBeat : Int32) (last : Response Reply)
    (number : Nat) (log : List Entry) :
    machine.run (serving statusCache busyHeart heartBeat last number log) (reported number) = some
      (serving (if heartBeat ≥ busyHeart then 0 else statusCache) busyHeart (heartBeat + 1)
        (report number) (number + 1)
        (log ++ [.answered (report number), .decoded ⟨number, "GetState", 1⟩,
          .request ⟨number + 1, "GetState", 1⟩])) := by
  have phase : Single.le (.finite 3) (.finite 0) = false := rfl
  simp [reported, Machine.run, machine, step, Session.callback, Line.callback, serving, report,
    Callback.request, RemoteCall.callback, RemoteCall.onResponse, Session.poll, Client.poll, phase,
    Client.readState, Client.offeredState, RemoteCall.getResponse, Reply.asState, Client.request,
    Line.callAsync, RemoteCall.callAsync, Entry.ofCallback]

/-- Two states are decoded on the first connection, and no command is called. -/
def twoReports : List Event := firstRequest ++ (reported 1 ++ reported 2)

theorem twoReports_reportsState : ∀ event ∈ twoReports, ReportsState event := by
  simp [twoReports, firstRequest, reported, report, ReportsState, State.initial,
    ControlState.code]

/-- What two states leave of the values that the counters were constructed with. -/
theorem run_twoReports (statusCache busyHeart heartBeat : Int32) :
    ∃ last log,
      machine.run (start statusCache busyHeart heartBeat) twoReports = some
        (serving
          (if heartBeat + 1 ≥ busyHeart then 0
            else if heartBeat ≥ busyHeart then 0 else statusCache)
          busyHeart (heartBeat + 1 + 1) last 3 log) ∧
      decodedSince log = 2 := by
  have first : machine.run (start statusCache busyHeart heartBeat) firstRequest = some
      (serving statusCache busyHeart heartBeat
        ⟨⟨0, "Version", 1⟩, .float (.finite 3), none⟩ 1
        [.request ⟨0, "Version", 1⟩, .answered ⟨⟨0, "Version", 1⟩, .float (.finite 3), none⟩,
          .onConnect 1, .request ⟨1, "GetState", 1⟩]) := rfl
  refine ⟨report 2, ?log, ?run, ?twice⟩
  case run =>
    rw [twoReports, Machine.run_append, first, Option.bind_some, Machine.run_append, run_reported,
      Option.bind_some, run_reported]
  case twice => rfl

theorem releases_of_unmasked {statusCache busyHeart heartBeat : Int32}
    (always : machine.Always Unmasked (start statusCache busyHeart heartBeat) twoReports) :
    Releases statusCache busyHeart heartBeat 0 := by
  obtain ⟨last, log, execution, twice⟩ := run_twoReports statusCache busyHeart heartBeat
  have unmasked := Machine.always_iff.mp always twoReports _ List.prefix_rfl execution
  have shown := unmasked rfl (Nat.le_of_eq twice.symm) 0
  by_contra stuck
  simp only [Releases, not_or, Int32.not_le] at stuck
  obtain ⟨positive, early, late⟩ := stuck
  have idle : (State.initial : State Double).machineState = 0 := rfl
  simp [serving, Client.isBusy, idle, Int32.not_le.mpr early, Int32.not_le.mpr late, positive]
    at shown

/-- The cache never hides the state of the machine for longer than two states, exactly if the
counters that construction left unset hold values that let the cache go. -/
theorem always_unmasked_iff (statusCache busyHeart heartBeat : Int32) :
    (∀ events, machine.Guarded (fun _ event => ReportsState event)
        (start statusCache busyHeart heartBeat) events →
      machine.Always Unmasked (start statusCache busyHeart heartBeat) events) ↔
      Releases statusCache busyHeart heartBeat 0 := by
  constructor
  · intro always
    exact releases_of_unmasked
      (always twoReports (.of_forall twoReports_reportsState _))
  · intro releases events guarded
    have inv : (start statusCache busyHeart heartBeat).Releasing := {
      orderly := start_orderly statusCache busyHeart heartBeat
      held := fun _ _ held _ => by cases held.2.1
      state_nonneg := Int32.le_refl _
      releases := releases }
    exact (guarded.always (fun inv reports moved => releasing_step inv reports moved) inv).mono
      fun _ => Releasing.unmasked

/-- A client whose memory held a large cache and a distant heart stays busy although the
server has reported the lowest state twice. -/
theorem masked_after_twoReports :
    ¬∀ (statusCache busyHeart heartBeat : Int32) (events : List Event),
      machine.Always Unmasked (start statusCache busyHeart heartBeat) events := by
  intro always
  have releases := releases_of_unmasked (always 100 1000 0 twoReports)
  rcases releases with released | early | next
  · exact absurd released (by decide)
  · exact absurd early (by decide)
  · exact absurd next (by decide)

end Session

end CncRemote
