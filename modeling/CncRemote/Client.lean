import CncRemote.Comms
import CncRemote.RemoteCall

/-!
# The polling client

`Client::Poll` drives a version handshake and then a stream of status requests through one
`RemoteCall` object, `m_StatusCall`.  Besides the returned code it yields the entries that a log
of the run keeps: requests sent, user callbacks called and states decoded.
-/

namespace CncRemote

/-- The result of a response, by what the client can decode it as.  No value is decoded both as a
`float` and as a `State`. -/
inductive Reply where
  | float (value : Single)
  | state (state : State Double)
  | other

namespace Reply

/-- `result.as<float>()`, where `none` is the exception of a failed conversion. -/
def asFloat : Reply → Option Single
  | float value => some value
  | state _ | other => none

/-- `result.as<State>()` -/
def asState : Reply → Option (State Double)
  | state decoded => some decoded
  | float _ | other => none

end Reply

/-- What the log of a run records. -/
inductive Entry where
  /-- A request was sent through `m_StatusCall`. -/
  | request (request : Request)
  /-- The response callback of `m_StatusCall` ran. -/
  | answered (response : Response Reply)
  /-- `Poll` decoded the response to the request as a state. -/
  | decoded (request : Request)
  /-- `OnConnect` was called while the numbered connection was up. -/
  | onConnect (connection : Nat)
  | onIncorrectVersion (ver : Single)
  | onDisConnect
  | setBusy (state : Int32)
  /-- The reconnect timer was started with a delay in milliseconds. -/
  | retryTimer (ms : Nat)

/-- What the log records of a callback. -/
def Entry.ofCallback : Callback Reply → List Entry
  | .response response => [.answered response]
  | .error _ _ => []

/-- The members of `Client` that `Poll` and `IsBusy` use. -/
structure Client where
  /-- `m_serverVer`: 0 during the handshake, -1 for a server that is too old. -/
  serverVer : Single
  /-- `m_state` -/
  state : State Double
  /-- `m_statusCache` -/
  statusCache : Int32
  /-- `m_busyHeart` -/
  busyHeart : Int32
  /-- `m_heartBeat` -/
  heartBeat : Int32
  /-- `m_StatusCall`, with the requests sent through it. -/
  status : Line Reply

namespace Client

/-- `Client::Client`.  The constructor leaves three counters as it finds them. -/
def construct (statusCache busyHeart heartBeat : Int32) : Client where
  serverVer := .finite 0
  state := .initial
  statusCache := statusCache
  busyHeart := busyHeart
  heartBeat := heartBeat
  status := .new

/-- `Client::SetBusy` -/
def setBusy (client : Client) (state : Int32) : Client :=
  { client with
    statusCache := if state > client.statusCache then state else client.statusCache
    busyHeart := client.heartBeat + 1 }

/-- `Client::IsBusy`, where `machineState` is compared as the `int` that it promotes to. -/
def isBusy (client : Client) (connected : Bool) (state : Int32) : Bool :=
  if connected = false then
    true
  else if client.statusCache > client.state.machineState then
    decide (client.statusCache > state)
  else
    decide (client.state.machineState > state)

/-- `m_StatusCall.CallAsync` inside the `try` block of `Poll`. -/
def request (client : Client) (method : String) (connection : Nat) (err : Option String) :
    Client × List Entry :=
  ({ client with status := client.status.callAsync method connection err },
    match (client.status.call.callAsync err).2 with
    | .ok _ => [.request ⟨client.status.attempts, method, connection⟩]
    | .error _ => [])

/-- The version that a response on offer carries. -/
def offeredVersion (client : Client) : Option Single :=
  match client.status.call.getResponse with
  | .ok response => response.result.asFloat
  | .error _ => none

/-- The first `try` block of `Poll`, which reads the version of the server. -/
def readVersion (client : Client) (connection : Nat) : Client × List Entry :=
  match client.offeredVersion with
  | some ver =>
      if ver.lt minProtocolVersion then
        ({ client with serverVer := .finite (-1), status := client.status.clearResponse },
          [.onIncorrectVersion ver])
      else
        ({ client with serverVer := ver, status := client.status.clearResponse },
          [.onConnect connection])
  | none => (client, [])

/-- The state that a response on offer carries, with the response. -/
def offeredState (client : Client) : Option (Response Reply × State Double) :=
  match client.status.call.getResponse with
  | .ok response => response.result.asState.map (response, ·)
  | .error _ => none

/-- The third `try` block of `Poll`, which reads the state of the machine. -/
def readState (client : Client) : Client × List Entry :=
  match client.offeredState with
  | some (response, state) =>
      ({ client with
          state
          statusCache := if client.heartBeat ≥ client.busyHeart then 0 else client.statusCache
          heartBeat := client.heartBeat + 1 },
        [.decoded response.request])
  | none => (client, [])

/-- `Client::Poll`, on a socket in the given state; `err` is what `Send` returns if it is called. -/
def poll (client : Client) (connected : Bool) (connection : Nat) (err : Option String) :
    Client × ComError × List Entry :=
  if connected = false then
    (client, .connect, [])
  else if client.serverVer.le (.finite 0) then
    if client.serverVer.lt (.finite 0) then
      (client, .wrongVer, [])
    else
      let (read, entries) :=
        if client.status.call.hasResponse then client.readVersion connection else (client, [])
      let (asked, sent) :=
        if read.status.call.busy = false ∧ read.serverVer = .finite 0 then
          read.request "Version" connection err
        else
          (read, [])
      (asked, .ok, entries ++ sent)
  else
    let (read, entries) :=
      if client.status.call.hasResponse then client.readState else (client, [])
    let (asked, sent) :=
      if read.status.call.busy = false then
        read.request "GetState" connection err
      else
        (read, [])
    (asked, .ok, entries ++ sent)

/-- `Client::OnDisConnect2`, up to the user callback. -/
def onDisConnect2 (client : Client) : Client :=
  { client with
    serverVer := .finite 0
    state := { client.state with machineState := ControlState.noServer.code } }

/-- A version on offer comes from a held response without an error. -/
theorem offeredVersion_eq_some {client : Client} {slot : Slot Reply} {ver : Single}
    (shows : client.status.Shows slot) :
    client.offeredVersion = some ver ↔
      ∃ response, slot = .holding response ∧ response.error = none ∧
        response.result = .float ver := by
  have decoded (response : Response Reply) :
      response.result.asFloat = some ver ↔ response.result = .float ver := by
    cases response.result <;> simp [Reply.asFloat]
  constructor
  · intro offered
    rw [offeredVersion] at offered
    split at offered
    · rename_i response obtained
      obtain ⟨held, clean⟩ := (Line.getResponse_eq_ok_iff shows).mp obtained
      exact ⟨response, held, clean, (decoded response).mp offered⟩
    · cases offered
  · rintro ⟨response, held, clean, result⟩
    rw [offeredVersion, (Line.getResponse_eq_ok_iff shows).mpr ⟨held, clean⟩]
    exact (decoded response).mpr result

/-- A state on offer comes from a held response without an error. -/
theorem offeredState_eq_some {client : Client} {slot : Slot Reply} {response : Response Reply}
    {state : State Double} (shows : client.status.Shows slot)
    (offered : client.offeredState = some (response, state)) :
    slot = .holding response ∧ response.error = none ∧ response.result = .state state := by
  rw [offeredState] at offered
  split at offered
  · rename_i obtainedResponse obtained
    obtain ⟨held, clean⟩ := (Line.getResponse_eq_ok_iff shows).mp obtained
    obtain ⟨decoded, result, pair⟩ := Option.map_eq_some_iff.mp offered
    obtain ⟨rfl, rfl⟩ := Prod.mk.inj pair
    refine ⟨held, clean, ?_⟩
    cases reply : obtainedResponse.result <;> simp_all [Reply.asState]
  · cases offered

theorem serverVer_eq_zero {ver : Single} (le : ver.le (.finite 0) = true)
    (not_lt : ver.lt (.finite 0) = false) : ver = .finite 0 := by
  cases ver with
  | finite value =>
      simp only [Single.le, Single.lt, decide_eq_true_eq, decide_eq_false_iff_not] at le not_lt
      rw [Rat.le_antisymm le (Rat.not_lt.mp not_lt)]
  | nan | negInf | posInf => simp [Single.le, Single.lt] at le not_lt

/-- A version that is not too old ends the handshake. -/
theorem le_eq_false_of_not_lt {ver : Single} (new : ver.lt minProtocolVersion = false) :
    ver.le (.finite 0) = false := by
  cases ver with
  | finite value =>
      simp only [Single.lt, minProtocolVersion, decide_eq_false_iff_not, Rat.not_lt] at new
      simp only [Single.le, decide_eq_false_iff_not]
      intro low
      exact absurd (Rat.le_trans new low) (by decide)
  | nan | posInf => rfl
  | negInf => cases new

/-- What a poll can do to a client, with the entries it adds to the log. -/
inductive PollCase (client : Client) (connected : Bool) (connection : Nat) (err : Option String) :
    Client → List Entry → Prop
  /-- There is no connection, the server is too old, or a request is outstanding. -/
  | unchanged
      (stays : connected = false ∨ client.serverVer.lt (.finite 0) = true ∨
        client.status.call.busy = true) :
      PollCase client connected connection err client []
  /-- A version on offer is too old. -/
  | refuse {ver : Single} (up : connected = true) (handshake : client.serverVer = .finite 0)
      (offered : client.offeredVersion = some ver) (old : ver.lt minProtocolVersion = true) :
      PollCase client connected connection err
        { client with serverVer := .finite (-1), status := client.status.clearResponse }
        [.onIncorrectVersion ver]
  /-- A version on offer is not too old. -/
  | accept {ver : Single} (up : connected = true) (handshake : client.serverVer = .finite 0)
      (offered : client.offeredVersion = some ver) (new : ver.lt minProtocolVersion = false) :
      PollCase client connected connection err
        { client with serverVer := ver, status := client.status.clearResponse }
        [.onConnect connection]
  /-- The handshake has no version to read and asks for one. -/
  | askVersion (up : connected = true) (handshake : client.serverVer = .finite 0)
      (idle : client.status.call.busy = false) (nothing : client.offeredVersion = none) :
      PollCase client connected connection err (client.request "Version" connection err).1
        (client.request "Version" connection err).2
  /-- After the handshake there is no state to read and the poll asks for one. -/
  | askState (up : connected = true) (serving : client.serverVer.le (.finite 0) = false)
      (idle : client.status.call.busy = false) (nothing : client.offeredState = none) :
      PollCase client connected connection err (client.request "GetState" connection err).1
        (client.request "GetState" connection err).2
  /-- After the handshake a state is read and the next one is asked for. -/
  | readState {response : Response Reply} {state : State Double} (up : connected = true)
      (serving : client.serverVer.le (.finite 0) = false)
      (offered : client.offeredState = some (response, state)) :
      PollCase client connected connection err
        (client.readState.1.request "GetState" connection err).1
        (.decoded response.request :: (client.readState.1.request "GetState" connection err).2)

/-- The log records a request that was sent. -/
theorem request_entries {client : Client} {method : String} {connection : Nat}
    {err : Option String} {entry : Entry}
    (recorded : entry ∈ (client.request method connection err).2) :
    entry = .request ⟨client.status.attempts, method, connection⟩ := by
  simp only [request] at recorded
  split at recorded
  · simpa using recorded
  · cases recorded

theorem readVersion_eq (client : Client) (connection : Nat) :
    (if client.status.call.hasResponse then client.readVersion connection else (client, [])) =
      client.readVersion connection := by
  cases hasResponse : client.status.call.hasResponse
  · simp [readVersion, offeredVersion, RemoteCall.getResponse, hasResponse]
  · rfl

theorem readState_eq (client : Client) :
    (if client.status.call.hasResponse then client.readState else (client, [])) =
      client.readState := by
  cases hasResponse : client.status.call.hasResponse
  · simp [readState, offeredState, RemoteCall.getResponse, hasResponse]
  · rfl

theorem readState_status (client : Client) : client.readState.1.status = client.status := by
  rw [readState]
  split <;> rfl

theorem readState_serverVer (client : Client) :
    client.readState.1.serverVer = client.serverVer := by
  rw [readState]
  split <;> rfl

theorem poll_cases_handshake {client : Client} (connection : Nat) (err : Option String)
    (handshake : client.serverVer = .finite 0) :
    PollCase client true connection err (client.poll true connection err).1
      (client.poll true connection err).2.2 := by
  have phase : client.serverVer.le (.finite 0) = true ∧
      client.serverVer.lt (.finite 0) = false := by
    rw [handshake]
    exact ⟨rfl, rfl⟩
  simp only [poll, Bool.true_eq_false, if_false, phase, if_true, Bool.false_eq_true,
    readVersion_eq]
  cases offered : client.offeredVersion with
  | none =>
      simp only [readVersion, offered, handshake, and_true]
      by_cases idle : client.status.call.busy = false
      · simpa [idle] using PollCase.askVersion rfl handshake idle offered
      · simpa [idle] using PollCase.unchanged (.inr (.inr (by simpa using idle)))
  | some ver =>
      simp only [readVersion, offered]
      cases old : ver.lt minProtocolVersion
      · have accepted : ver ≠ .finite 0 := by
          rintro rfl
          exact absurd old (by decide)
        simpa [accepted] using PollCase.accept rfl handshake offered old
      · have refused : Single.finite (-1) ≠ .finite 0 := by decide
        simpa [refused] using PollCase.refuse rfl handshake offered old

theorem poll_cases_serving {client : Client} {slot : Slot Reply}
    (shows : client.status.Shows slot) (connection : Nat) (err : Option String)
    (serving : client.serverVer.le (.finite 0) = false) :
    PollCase client true connection err (client.poll true connection err).1
      (client.poll true connection err).2.2 := by
  simp only [poll, Bool.true_eq_false, if_false, serving, Bool.false_eq_true, readState_eq,
    readState_status]
  cases offered : client.offeredState with
  | none =>
      simp only [readState, offered]
      by_cases idle : client.status.call.busy = false
      · simpa [idle] using PollCase.askState rfl serving idle offered
      · simpa [idle] using PollCase.unchanged (.inr (.inr (by simpa using idle)))
  | some offer =>
      obtain ⟨response, state⟩ := offer
      obtain ⟨rfl, -, -⟩ := offeredState_eq_some shows offered
      have idle : client.status.call.busy = false := shows.1
      have entries : client.readState.2 = [.decoded response.request] := by
        simp [readState, offered]
      simpa [idle, entries] using PollCase.readState rfl serving offered

/-- Every poll is one of the cases. -/
theorem poll_cases {client : Client} {slot : Slot Reply} (shows : client.status.Shows slot)
    (connected : Bool) (connection : Nat) (err : Option String) :
    PollCase client connected connection err (client.poll connected connection err).1
      (client.poll connected connection err).2.2 := by
  cases connected with
  | false => exact PollCase.unchanged (.inl rfl)
  | true =>
      cases le : client.serverVer.le (.finite 0) with
      | false => exact poll_cases_serving shows connection err le
      | true =>
          cases lt : client.serverVer.lt (.finite 0) with
          | false =>
              exact poll_cases_handshake connection err (serverVer_eq_zero le lt)
          | true =>
              simp only [poll, Bool.true_eq_false, if_false, le, lt, if_true]
              exact PollCase.unchanged (.inr (.inl lt))

end Client

/-- The commands that call `SetBusy` after they were sent. -/
inductive MotionCommand where
  | jogVel
  | mdi
  | cycleStart
  | home (axis : UInt32)
  | homeAll
  deriving DecidableEq

/-- The state that a command passes to `SetBusy`; homing an axis that does not exist sends and
sets nothing. -/
def MotionCommand.busyState : MotionCommand → Option ControlState
  | .jogVel => some .moving
  | .mdi => some .mdi
  | .cycleStart | .homeAll => some .running
  | .home axis => if axis.toNat < maxAxes then some .running else none

end CncRemote
