import CncRemote.Session

/-!
# The version handshake

After every reconnection the client has to ask the server for its version before it asks for
states.  The version is read from the same object that carries the states, and a reply that was
left unread when a connection was lost is still on offer on the next connection.
-/

namespace CncRemote

/-- The response answers a `Version` request of the connection with a version that is new enough. -/
def Vouches (connection : Nat) (response : Response Reply) : Prop :=
  response.request.method = "Version" ∧ response.request.connection = connection ∧
    response.error = none ∧ ∃ ver, response.result = .float ver ∧ minProtocolVersion.le ver = true

/-- A response that vouches for the connection has been received. -/
def Vouched (log : List Entry) (connection : Nat) : Prop :=
  ∃ response, .answered response ∈ log ∧ Vouches connection response

/-- States were asked for, and `OnConnect` was called, only on connections that were vouched for. -/
def Negotiated (log : List Entry) : Prop :=
  (∀ request, .request request ∈ log → request.method = "GetState" →
    Vouched log request.connection) ∧
  ∀ connection, .onConnect connection ∈ log → Vouched log connection

theorem Vouched.append {log : List Entry} {connection : Nat} (vouched : Vouched log connection)
    (entries : List Entry) : Vouched (log ++ entries) connection := by
  obtain ⟨response, answered, vouches⟩ := vouched
  exact ⟨response, List.mem_append_left entries answered, vouches⟩

theorem Negotiated.append {log entries : List Entry} (negotiated : Negotiated log)
    (requests : ∀ request, .request request ∈ entries → request.method = "GetState" →
      Vouched log request.connection)
    (connects : ∀ connection, .onConnect connection ∈ entries → Vouched log connection) :
    Negotiated (log ++ entries) := by
  constructor
  · intro request recorded method
    rcases List.mem_append.mp recorded with old | new
    · exact (negotiated.1 request old method).append entries
    · exact (requests request new method).append entries
  · intro connection recorded
    rcases List.mem_append.mp recorded with old | new
    · exact (negotiated.2 connection old).append entries
    · exact (connects connection new).append entries

/-- The entry is no request, no response and no call of `OnConnect`. -/
def Entry.Neutral : Entry → Prop
  | .request _ | .answered _ | .onConnect _ => False
  | .decoded _ | .onIncorrectVersion _ | .onDisConnect | .setBusy _ | .retryTimer _ => True

/-- The log accounts for the response on offer, and no request is from a later connection. -/
structure Ledger (status : Line Reply) (log : List Entry) (connection : Nat) : Prop where
  orderly : ∃ slot, status.Shows slot
  negotiated : Negotiated log
  held : ∀ response, status.Shows (.holding response) → .answered response ∈ log
  awaited : ∀ request ∈ status.awaited, request.connection ≤ connection
  answered : ∀ response, .answered response ∈ log → response.request.connection ≤ connection

namespace Ledger

theorem append {status : Line Reply} {log entries : List Entry} {connection : Nat}
    (ledger : Ledger status log connection) (neutral : ∀ entry ∈ entries, entry.Neutral) :
    Ledger status (log ++ entries) connection where
  orderly := ledger.orderly
  negotiated := ledger.negotiated.append (fun _ new => (neutral _ new).elim)
    (fun _ new => (neutral _ new).elim)
  held := fun response shows => List.mem_append_left entries (ledger.held response shows)
  awaited := ledger.awaited
  answered := fun response recorded =>
    (List.mem_append.mp recorded).elim (ledger.answered response) fun new => (neutral _ new).elim

theorem later {status : Line Reply} {log : List Entry} {connection : Nat}
    (ledger : Ledger status log connection) : Ledger status log (connection + 1) where
  orderly := ledger.orderly
  negotiated := ledger.negotiated
  held := ledger.held
  awaited := fun request awaited => (ledger.awaited request awaited).trans (Nat.le_succ _)
  answered := fun response answered => (ledger.answered response answered).trans (Nat.le_succ _)

/-- A version that was read is dropped. -/
theorem clearResponse {status : Line Reply} {log : List Entry} {connection : Nat}
    (ledger : Ledger status log connection) : Ledger status.clearResponse log connection where
  orderly := by
    obtain ⟨slot, shows⟩ := ledger.orderly
    exact ⟨_, Line.clearResponse_shows shows⟩
  negotiated := ledger.negotiated
  held := fun response shows => by cases shows.2.1
  awaited := ledger.awaited
  answered := ledger.answered

theorem onConnect {status : Line Reply} {log : List Entry} {connection : Nat}
    (ledger : Ledger status log connection) (vouched : Vouched log connection) :
    Ledger status (log ++ [.onConnect connection]) connection where
  orderly := ledger.orderly
  negotiated := ledger.negotiated.append (by simp) (by simpa using vouched)
  held := fun response shows => List.mem_append_left _ (ledger.held response shows)
  awaited := ledger.awaited
  answered := fun response recorded => ledger.answered response (by simpa using recorded)

/-- A request is sent on the current connection. -/
theorem request {client : Client} {log : List Entry} {connection : Nat}
    (ledger : Ledger client.status log connection) (idle : client.status.call.busy = false)
    (method : String) (err : Option String)
    (vouched : method = "GetState" → Vouched log connection) :
    Ledger (client.request method connection err).1.status
      (log ++ (client.request method connection err).2) connection where
  orderly := by
    obtain ⟨slot, shows⟩ := ledger.orderly
    exact ⟨_, Line.callAsync_shows shows method connection err⟩
  negotiated := by
    refine ledger.negotiated.append (fun request new asked => ?_) fun connection new => ?_
    · obtain rfl := Entry.request.inj (Client.request_entries new)
      exact vouched asked
    · cases Client.request_entries new
  held := fun response shows => by
    have unset := shows.2.1
    rw [Client.request, Line.callAsync_of_idle idle] at unset
    cases unset
  awaited := by
    intro request awaited
    rw [Client.request, Line.callAsync_of_idle idle] at awaited
    cases err with
    | some text => exact ledger.awaited request awaited
    | none =>
        rcases List.mem_cons.mp awaited with rfl | old
        · exact Nat.le_refl connection
        · exact ledger.awaited request old
  answered := by
    intro response recorded
    rcases List.mem_append.mp recorded with old | new
    · exact ledger.answered response old
    · cases Client.request_entries new

/-- A callback answers a request of this connection or an earlier one. -/
theorem callback {status next : Line Reply} {log : List Entry} {connection : Nat}
    {callback : Callback Reply} (ledger : Ledger status log connection)
    (served : status.callback callback = some next) :
    Ledger next (log ++ Entry.ofCallback callback) connection := by
  obtain ⟨slot, shows⟩ := ledger.orderly
  obtain ⟨nextSlot, moved, nextShows⟩ := Line.callback_shows shows served
  obtain ⟨awaited, next_eq⟩ := Line.callback_eq_some served
  obtain rfl := Line.awaiting_of_mem shows awaited
  constructor
  · exact ⟨nextSlot, nextShows⟩
  · refine ledger.negotiated.append ?_ ?_ <;> cases callback <;> simp [Entry.ofCallback]
  · intro response held
    obtain rfl := nextShows.unique held
    cases callback with
    | error => simp [Slot.callback, Callback.request] at moved
    | response answer =>
        obtain rfl : answer = response := by simpa [Slot.callback, Callback.request] using moved
        simp [Entry.ofCallback]
  · intro request outstanding
    rw [next_eq] at outstanding
    exact ledger.awaited request (List.mem_of_mem_erase outstanding)
  · intro response recorded
    rcases List.mem_append.mp recorded with old | new
    · exact ledger.answered response old
    · cases callback with
      | error => cases new
      | response answer =>
          obtain rfl : response = answer := by simpa [Entry.ofCallback] using new
          exact ledger.awaited _ awaited

end Ledger

namespace Session

/-- A poll would accept, in the handshake of the current connection, a version that no response
to a request of this connection vouches for. -/
def Misled (session : Session) : Prop :=
  session.connected = true ∧ session.client.serverVer = .finite 0 ∧
    ∃ response ver, session.client.status.call.hasResponse = true ∧
      session.client.status.call.response = some response ∧ response.error = none ∧
      response.result = .float ver ∧ ver.lt minProtocolVersion = false ∧
      ¬Vouches session.connection response

/-- The event is not a poll that is misled. -/
def HonestPoll (session : Session) : Event → Prop
  | .poll _ => ¬session.Misled
  | .command _ _ | .callback _ | .connect | .lose | .fail => True

/-- What links the version of the server, the response on offer and the log. -/
structure Handshaking (session : Session) : Prop where
  ledger : Ledger session.client.status session.log session.connection
  retries : session.connected = true → session.retries = 0
  down : session.connected = false → session.client.serverVer = .finite 0
  serving : session.client.serverVer.le (.finite 0) = false →
    Vouched session.log session.connection
  unread : session.connected = true → session.client.serverVer = .finite 0 →
    ∀ response, .answered response ∈ session.log → Vouches session.connection response →
      session.client.status.Shows (.holding response)

theorem Handshaking.of_settled {session : Session}
    (ledger : Ledger session.client.status session.log session.connection)
    (up : session.connected = true) (retries : session.retries = 0)
    (settled : session.client.serverVer ≠ .finite 0)
    (serving : session.client.serverVer.le (.finite 0) = false →
      Vouched session.log session.connection) : session.Handshaking where
  ledger := ledger
  retries := fun _ => retries
  down := fun down => by simp [up] at down
  serving := serving
  unread := fun _ handshake => (settled handshake).elim

theorem Handshaking.of_handshake {session : Session}
    (ledger : Ledger session.client.status session.log session.connection)
    (handshake : session.client.serverVer = .finite 0)
    (retries : session.connected = true → session.retries = 0)
    (unread : session.connected = true → ∀ response, .answered response ∈ session.log →
      Vouches session.connection response → session.client.status.Shows (.holding response)) :
    session.Handshaking where
  ledger := ledger
  retries := retries
  down := fun _ => handshake
  serving := fun serving => by
    rw [handshake] at serving
    cases serving
  unread := fun up _ => unread up

theorem start_handshaking (statusCache busyHeart heartBeat : Int32) :
    (start statusCache busyHeart heartBeat).Handshaking :=
  .of_handshake
    { orderly := start_orderly statusCache busyHeart heartBeat
      negotiated := by simp [Negotiated, start]
      held := fun response shows => by cases shows.2.1
      awaited := by simp [start, Client.construct, Line.new]
      answered := by simp [start] }
    rfl (by simp [start]) (by simp [start])

theorem Handshaking.not_vouches {session : Session} (inv : session.Handshaking)
    (up : session.connected = true) (handshake : session.client.serverVer = .finite 0)
    (nothing : session.client.offeredVersion = none) {response : Response Reply}
    (answered : .answered response ∈ session.log) : ¬Vouches session.connection response := by
  intro vouches
  have shows := inv.unread up handshake response answered vouches
  obtain ⟨-, -, clean, ver, result, -⟩ := vouches
  rw [(Client.offeredVersion_eq_some shows).mpr ⟨response, rfl, clean, result⟩] at nothing
  cases nothing

theorem Handshaking.vouched_of_accept {session : Session} (inv : session.Handshaking)
    (honest : ¬session.Misled) {ver : Single} (up : session.connected = true)
    (handshake : session.client.serverVer = .finite 0)
    (offered : session.client.offeredVersion = some ver)
    (new : ver.lt minProtocolVersion = false) : Vouched session.log session.connection := by
  obtain ⟨slot, shows⟩ := inv.ledger.orderly
  obtain ⟨response, rfl, clean, result⟩ := (Client.offeredVersion_eq_some shows).mp offered
  refine ⟨response, inv.ledger.held response shows, ?_⟩
  by_contra unvouched
  obtain ⟨-, hasResponse, -, stored, -⟩ := shows
  exact honest ⟨up, handshake, response, ver, hasResponse, stored, clean, result, new, unvouched⟩

/-- After the handshake, the poll asks for states on a connection that is vouched for. -/
theorem Handshaking.askState {session : Session} (inv : session.Handshaking)
    (up : session.connected = true)
    (serving : session.client.serverVer.le (.finite 0) = false)
    (idle : session.client.status.call.busy = false) (err : Option String) :
    Handshaking
      { session with
        client := (session.client.request "GetState" session.connection err).1
        log := session.log ++ (session.client.request "GetState" session.connection err).2 } := by
  have vouched := inv.serving serving
  refine .of_settled (inv.ledger.request idle "GetState" err fun _ => vouched) up
    (inv.retries up) ?_ fun _ => vouched.append _
  intro handshake
  change session.client.serverVer = _ at handshake
  rw [handshake] at serving
  cases serving

/-- Reading a state changes nothing that the handshake depends on. -/
theorem Handshaking.readState {session : Session} (inv : session.Handshaking)
    (up : session.connected = true)
    (serving : session.client.serverVer.le (.finite 0) = false) (request : Request) :
    Handshaking
      { session with
        client := session.client.readState.1
        log := session.log ++ [.decoded request] } := by
  have kept : session.client.readState.1.serverVer = session.client.serverVer := by
    rw [Client.readState]
    split <;> rfl
  have ledger : Ledger session.client.readState.1.status (session.log ++ [.decoded request])
      session.connection := by
    rw [Client.readState_status]
    exact inv.ledger.append (by simp [Entry.Neutral])
  refine .of_settled ledger up (inv.retries up) ?_ fun _ => (inv.serving serving).append _
  intro handshake
  change session.client.readState.1.serverVer = _ at handshake
  rw [← kept, handshake] at serving
  cases serving

theorem Handshaking.poll {session : Session} (inv : session.Handshaking)
    (honest : ¬session.Misled) {err : Option String} {client : Client} {entries : List Entry}
    (polled : session.client.PollCase session.connected session.connection err client entries) :
    Handshaking { session with client, log := session.log ++ entries } := by
  cases polled with
  | unchanged => simpa using inv
  | refuse up _ offered old =>
      have refused : Single.finite (-1) ≠ .finite 0 := by decide
      exact .of_settled (inv.ledger.clearResponse.append (by simp [Entry.Neutral])) up
        (inv.retries up) refused fun serving => by cases serving
  | @accept ver up handshake offered new =>
      have vouched := inv.vouched_of_accept honest up handshake offered new
      have accepted : ver ≠ .finite 0 := by
        rintro rfl
        exact absurd new (by decide)
      exact .of_settled (inv.ledger.clearResponse.onConnect vouched) up (inv.retries up) accepted
        fun _ => vouched.append _
  | askVersion up handshake idle nothing =>
      refine .of_handshake (inv.ledger.request idle "Version" err (by simp)) handshake
        inv.retries fun _ response recorded vouches => ?_
      rcases List.mem_append.mp recorded with old | new
      · exact (inv.not_vouches up handshake nothing old vouches).elim
      · cases Client.request_entries new
  | askState up serving idle => exact inv.askState up serving idle err
  | @readState response state up serving offered =>
      obtain ⟨slot, shows⟩ := inv.ledger.orderly
      obtain ⟨rfl, -, -⟩ := Client.offeredState_eq_some shows offered
      have kept : session.client.readState.1.serverVer = session.client.serverVer := by
        rw [Client.readState]
        split <;> rfl
      have asked := (inv.readState up serving response.request).askState up
        (by rwa [← kept] at serving) (by simpa [Client.readState_status] using shows.1) err
      simpa using asked

theorem Handshaking.callback {session : Session} (inv : session.Handshaking)
    {callback : Callback Reply} {status : Line Reply}
    (served : session.client.status.callback callback = some status) :
    Handshaking
      { session with
        client := { session.client with status }
        log := session.log ++ Entry.ofCallback callback } := by
  have ledger := inv.ledger.callback served
  obtain ⟨slot, shows⟩ := inv.ledger.orderly
  obtain ⟨nextSlot, moved, nextShows⟩ := Line.callback_shows shows served
  obtain rfl := Line.awaiting_of_mem shows (Line.callback_eq_some served).1
  by_cases handshake : session.client.serverVer = .finite 0
  · refine .of_handshake ledger handshake inv.retries fun up response recorded vouches => ?_
    rcases List.mem_append.mp recorded with old | new
    · cases shows.unique (inv.unread up handshake response old vouches)
    · cases callback with
      | error => cases new
      | response answer =>
          obtain rfl : response = answer := by simpa [Entry.ofCallback] using new
          obtain rfl : .holding response = nextSlot := by
            simpa [Slot.callback, Callback.request] using moved
          exact nextShows
  · by_cases up : session.connected = true
    · exact .of_settled ledger up (inv.retries up) handshake
        fun serving => (inv.serving serving).append _
    · exact (handshake (inv.down (by simpa using up))).elim

theorem Handshaking.onConnect {session : Session} (inv : session.Handshaking)
    (down : session.connected = false) : session.onConnect.Handshaking := by
  refine .of_handshake inv.ledger.later (inv.down down) (fun _ => rfl)
    fun _ response answered vouches => ?_
  have old := inv.ledger.answered response answered
  have new : response.request.connection = session.connection + 1 := vouches.2.1
  omega

theorem Handshaking.onDisconnect {session : Session} (inv : session.Handshaking) :
    session.onDisconnect.Handshaking := by
  obtain ⟨entries, log_eq, own⟩ := onDisconnect_log session
  have neutral : ∀ entry ∈ entries, entry.Neutral := by
    intro entry recorded
    rcases own entry recorded with rfl | ⟨ms, rfl⟩ <;> trivial
  have reset : session.onDisconnect.client.serverVer = .finite 0 := by
    rw [onDisconnect_serverVer]
    split
    · rfl
    · rename_i retries
      cases up : session.connected
      · exact inv.down up
      · exact (retries (inv.retries up)).elim
  have ledger : Ledger session.onDisconnect.client.status session.onDisconnect.log
      session.onDisconnect.connection := by
    rw [onDisconnect_status, log_eq, onDisconnect_connection]
    exact inv.ledger.append neutral
  exact .of_handshake ledger reset (by simp) (by simp)

theorem Handshaking.setBusy {session : Session} (inv : session.Handshaking) (state : Int32) :
    Handshaking
      { session with
        client := session.client.setBusy state
        log := session.log ++ [.setBusy state] } where
  ledger := inv.ledger.append (by simp [Entry.Neutral])
  retries := inv.retries
  down := inv.down
  serving := fun serving => (inv.serving serving).append _
  unread := fun up handshake response recorded =>
    inv.unread up handshake response (by simpa using recorded)

theorem handshaking_step {session next : Session} {event : Event} (inv : session.Handshaking)
    (honest : session.HonestPoll event) (moved : machine.step session event = some next) :
    next.Handshaking := by
  cases step_cases inv.ledger.orderly moved with
  | poll polled => exact inv.poll honest polled
  | setBusy => exact inv.setBusy _
  | ignored => exact inv
  | callback served => exact inv.callback served
  | connect down => exact inv.onConnect down
  | lose | fail => exact inv.onDisconnect

theorem onConnect_of_offered {session next : Session} {err : Option String} {ver : Single}
    (orderly : session.Orderly) (up : session.connected = true)
    (handshake : session.client.serverVer = .finite 0)
    (offered : session.client.offeredVersion = some ver)
    (new : ver.lt minProtocolVersion = false)
    (moved : machine.step session (.poll err) = some next) :
    next.log = session.log ++ [.onConnect session.connection] := by
  obtain ⟨slot, shows⟩ := id orderly
  cases step_cases orderly moved with
  | poll polled =>
      cases polled with
      | unchanged stays =>
          obtain ⟨response, rfl, -⟩ := (Client.offeredVersion_eq_some shows).mp offered
          have idle : session.client.status.call.busy = false := shows.1
          have talking : Single.lt (.finite 0) (.finite 0) = false := rfl
          simp [up, idle, handshake, talking] at stays
      | refuse _ _ found old =>
          obtain rfl := Option.some.inj (offered.symm.trans found)
          rw [new] at old
          cases old
      | accept => rfl
      | askVersion _ _ _ nothing =>
          rw [offered] at nothing
          cases nothing
      | askState _ serving | readState _ serving =>
          rw [handshake] at serving
          cases serving

theorem not_negotiated_of_misled {session next : Session} {event : Event}
    (inv : session.Handshaking) (misled : ¬session.HonestPoll event)
    (moved : machine.step session event = some next) : ¬Negotiated next.log := by
  cases event with
  | command | callback | connect | lose | fail => exact (misled trivial).elim
  | poll err =>
      obtain ⟨up, handshake, response, ver, hasResponse, stored, clean, result, new, unvouched⟩ :=
        not_not.mp misled
      obtain ⟨slot, shows⟩ := inv.ledger.orderly
      obtain rfl := shows.holding_of_hasResponse hasResponse stored
      have offered : session.client.offeredVersion = some ver :=
        (Client.offeredVersion_eq_some shows).mpr ⟨response, rfl, clean, result⟩
      have log_eq := onConnect_of_offered ⟨_, shows⟩ up handshake offered new moved
      intro negotiated
      obtain ⟨other, recorded, vouches⟩ :=
        negotiated.2 session.connection (by simp [log_eq])
      -- the response that vouches would still be the one on offer
      have held := inv.unread up handshake other (by simpa [log_eq] using recorded) vouches
      obtain rfl := Slot.holding.inj (shows.unique held)
      exact unvouched vouches

/-- States are asked for, and `OnConnect` is called, only on connections that are vouched for,
exactly as long as no poll accepts a version that is left over from an earlier connection or is
not a number. -/
theorem always_negotiated_iff (statusCache busyHeart heartBeat : Int32) (events : List Event) :
    machine.Always (fun session => Negotiated session.log)
        (start statusCache busyHeart heartBeat) events ↔
      machine.Guarded HonestPoll (start statusCache busyHeart heartBeat) events :=
  Machine.always_iff_guarded handshaking_step (fun inv => inv.ledger.negotiated)
    not_negotiated_of_misled (start_handshaking statusCache busyHeart heartBeat) events

/-- Two connections; the reply to the version request of the first one arrives, and is not read
before it is lost. -/
def leftOverVersion : List Event :=
  [.connect, .poll none, .callback (.response ⟨⟨0, "Version", 1⟩, .float (.finite 3), none⟩),
    .lose, .connect, .poll none, .poll none]

/-- The version of the first server is taken for that of the second one, which is asked for its
state without having been asked for its version. -/
theorem not_negotiated_of_leftOverVersion :
    ¬∀ (statusCache busyHeart heartBeat : Int32) (events : List Event),
      machine.Always (fun session => Negotiated session.log)
        (start statusCache busyHeart heartBeat) events := by
  intro always
  obtain ⟨final, execution, log_eq⟩ : ∃ final,
      machine.run (start 0 0 0) leftOverVersion = some final ∧
        final.log = [.request ⟨0, "Version", 1⟩,
          .answered ⟨⟨0, "Version", 1⟩, .float (.finite 3), none⟩, .onDisConnect, .retryTimer 100,
          .onConnect 2, .request ⟨1, "GetState", 2⟩] := ⟨_, rfl, rfl⟩
  have negotiated := Machine.always_iff.mp (always 0 0 0 leftOverVersion) leftOverVersion final
    List.prefix_rfl execution
  rw [log_eq] at negotiated
  obtain ⟨response, answered, -, connection, -⟩ :=
    negotiated.1 ⟨1, "GetState", 2⟩ (by simp) rfl
  obtain rfl : response = ⟨⟨0, "Version", 1⟩, .float (.finite 3), none⟩ := by simpa using answered
  exact absurd connection (by decide)

end Session

end CncRemote
