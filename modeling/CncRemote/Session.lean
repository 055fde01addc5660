import CncRemote.Client

/-!
# Sessions of a client

A session is a client together with its socket.  Polls, commands, callbacks, losses of the
connection and reconnections come in any order; each is one step.  Connections are numbered in
the order in which they are established, and the log of the session only grows.
-/

namespace CncRemote

/-- A client, its network handler and the state of its socket. -/
structure Session where
  client : Client
  /-- `m_retries` of the handler. -/
  retries : Nat
  /-- The socket is connected. -/
  connected : Bool
  /-- How many connections have been established. -/
  connection : Nat
  /-- What has happened, oldest first. -/
  log : List Entry

/-- The steps of a session. -/
inductive Event where
  /-- `Poll` is called; `err` is what `Send` returns if the poll sends a request. -/
  | poll (err : Option String)
  /-- A motion command is called, and is or is not sent without an error. -/
  | command (command : MotionCommand) (sent : Bool)
  /-- The transport runs a callback of `m_StatusCall`. -/
  | callback (callback : Callback Reply)
  | connect
  /-- An established connection is lost. -/
  | lose
  /-- An attempt to connect fails. -/
  | fail

namespace Session

/-- A session of a new client, with whatever the counters of its memory happened to hold. -/
def start (statusCache busyHeart heartBeat : Int32) : Session where
  client := .construct statusCache busyHeart heartBeat
  retries := 1
  connected := false
  connection := 0
  log := []

/-- A call of `Poll`. -/
def poll (session : Session) (err : Option String) : Session :=
  let (client, _, entries) := session.client.poll session.connected session.connection err
  { session with client, log := session.log ++ entries }

/-- A motion command, which sets the client busy once it was sent. -/
def command (session : Session) (command : MotionCommand) (sent : Bool) : Session :=
  match command.busyState with
  | some state =>
      if sent then
        { session with
          client := session.client.setBusy state.code
          log := session.log ++ [.setBusy state.code] }
      else
        session
  | none => session

/-- A callback of the status call. -/
def callback (session : Session) (callback : Callback Reply) : Option Session :=
  (session.client.status.callback callback).map fun status =>
    { session with
      client := { session.client with status }
      log := session.log ++ Entry.ofCallback callback }

/-- `Handler::OnConnect` on a newly connected socket. -/
def onConnect (session : Session) : Session :=
  { session with connected := true, connection := session.connection + 1, retries := 0 }

/-- `Handler::OnDisconnect` on a socket that is not connected any more. -/
def onDisconnect (session : Session) : Session :=
  let told :=
    if session.retries = 0 then
      { session with
        client := session.client.onDisConnect2
        log := session.log ++ [.onDisConnect] }
    else
      session
  if told.retries < 10 then
    { told with
      connected := false
      retries := told.retries + 1
      log := told.log ++ [.retryTimer 100] }
  else
    { told with connected := false, log := told.log ++ [.retryTimer 1000] }

/-- One step of a session. -/
def step (session : Session) : Event → Option Session
  | .poll err => some (session.poll err)
  | .command command sent => some (session.command command sent)
  | .callback callback => session.callback callback
  | .connect => if session.connected then none else some session.onConnect
  | .lose => if session.connected then some session.onDisconnect else none
  | .fail => if session.connected then none else some session.onDisconnect

/-- The machine of all sessions. -/
def machine : Machine Session Event := ⟨step⟩

/-- The client shows a slot for its status requests. -/
def Orderly (session : Session) : Prop := ∃ slot, session.client.status.Shows slot

/-- What a step can do to a session. -/
inductive StepCase (session : Session) : Event → Session → Prop
  | poll {err : Option String} {client : Client} {entries : List Entry}
      (polled : session.client.PollCase session.connected session.connection err client entries) :
      StepCase session (.poll err) { session with client, log := session.log ++ entries }
  | setBusy {command : MotionCommand} {state : ControlState}
      (busy : command.busyState = some state) :
      StepCase session (.command command true)
        { session with
          client := session.client.setBusy state.code
          log := session.log ++ [.setBusy state.code] }
  | ignored {command : MotionCommand} {sent : Bool} :
      StepCase session (.command command sent) session
  | callback {callback : Callback Reply} {status : Line Reply}
      (served : session.client.status.callback callback = some status) :
      StepCase session (.callback callback)
        { session with
          client := { session.client with status }
          log := session.log ++ Entry.ofCallback callback }
  | connect (down : session.connected = false) : StepCase session .connect session.onConnect
  | lose (up : session.connected = true) : StepCase session .lose session.onDisconnect
  | fail (down : session.connected = false) : StepCase session .fail session.onDisconnect

theorem step_cases {session next : Session} {event : Event} (orderly : session.Orderly)
    (moved : machine.step session event = some next) : StepCase session event next := by
  obtain ⟨slot, shows⟩ := orderly
  cases event with
  | poll err =>
      obtain rfl := Option.some.inj moved
      exact .poll (Client.poll_cases shows session.connected session.connection err)
  | command command sent =>
      obtain rfl := Option.some.inj moved
      rw [Session.command]
      split
      · rename_i state busy
        cases sent
        · exact .ignored
        · exact .setBusy busy
      · exact .ignored
  | callback callback =>
      obtain ⟨status, served, rfl⟩ := Option.map_eq_some_iff.mp moved
      exact .callback served
  | connect =>
      obtain ⟨down, moved⟩ := Option.ite_none_left_eq_some.mp moved
      obtain rfl := Option.some.inj moved
      exact .connect (by simpa using down)
  | lose =>
      obtain ⟨up, moved⟩ := Option.ite_none_right_eq_some.mp moved
      obtain rfl := Option.some.inj moved
      exact .lose up
  | fail =>
      obtain ⟨down, moved⟩ := Option.ite_none_left_eq_some.mp moved
      obtain rfl := Option.some.inj moved
      exact .fail (by simpa using down)

/-- The end of a connection touches the client only through `OnDisConnect2`. -/
theorem onDisconnect_client (session : Session) :
    session.onDisconnect.client =
      if session.retries = 0 then session.client.onDisConnect2 else session.client := by
  simp only [onDisconnect]
  split <;> split <;> rfl

@[simp] theorem onDisconnect_status (session : Session) :
    session.onDisconnect.client.status = session.client.status := by
  rw [onDisconnect_client]
  split <;> rfl

@[simp] theorem onDisconnect_connected (session : Session) :
    session.onDisconnect.connected = false := by
  simp only [onDisconnect]
  split <;> split <;> rfl

@[simp] theorem onDisconnect_connection (session : Session) :
    session.onDisconnect.connection = session.connection := by
  simp only [onDisconnect]
  split <;> split <;> rfl

/-- Only the end of an established connection resets the version. -/
theorem onDisconnect_serverVer (session : Session) :
    session.onDisconnect.client.serverVer =
      if session.retries = 0 then .finite 0 else session.client.serverVer := by
  rw [onDisconnect_client]
  split <;> rfl

/-- The end of a connection leaves nothing but its own entries in the log. -/
theorem onDisconnect_log (session : Session) :
    ∃ entries, session.onDisconnect.log = session.log ++ entries ∧
      ∀ entry ∈ entries, entry = .onDisConnect ∨ ∃ ms, entry = .retryTimer ms := by
  simp only [onDisconnect]
  split <;> split
  · exact ⟨[.onDisConnect, .retryTimer 100], by simp, by simp⟩
  · exact ⟨[.onDisConnect, .retryTimer 1000], by simp, by simp⟩
  · exact ⟨[.retryTimer 100], rfl, by simp⟩
  · exact ⟨[.retryTimer 1000], rfl, by simp⟩

/-- The log only grows. -/
theorem log_step {session next : Session} {event : Event}
    (moved : machine.step session event = some next) :
    ∃ entries, next.log = session.log ++ entries := by
  cases event with
  | poll err =>
      obtain rfl := Option.some.inj moved
      exact ⟨_, rfl⟩
  | command command sent =>
      obtain rfl := Option.some.inj moved
      rw [Session.command]
      split
      · cases sent
        · exact ⟨[], by simp⟩
        · exact ⟨_, rfl⟩
      · exact ⟨[], by simp⟩
  | callback callback =>
      obtain ⟨status, -, rfl⟩ := Option.map_eq_some_iff.mp moved
      exact ⟨_, rfl⟩
  | connect =>
      obtain ⟨-, moved⟩ := Option.ite_none_left_eq_some.mp moved
      obtain rfl := Option.some.inj moved
      exact ⟨[], by simp [onConnect]⟩
  | lose =>
      obtain ⟨-, moved⟩ := Option.ite_none_right_eq_some.mp moved
      obtain rfl := Option.some.inj moved
      obtain ⟨entries, log_eq, -⟩ := onDisconnect_log session
      exact ⟨entries, log_eq⟩
  | fail =>
      obtain ⟨-, moved⟩ := Option.ite_none_left_eq_some.mp moved
      obtain rfl := Option.some.inj moved
      obtain ⟨entries, log_eq, -⟩ := onDisconnect_log session
      exact ⟨entries, log_eq⟩

/-- Only a connection that is established changes the number of the latest one. -/
theorem connection_step {session next : Session} {event : Event}
    (other : event ≠ .connect) (moved : machine.step session event = some next) :
    next.connection = session.connection := by
  cases event with
  | poll err =>
      obtain rfl := Option.some.inj moved
      rfl
  | command command sent =>
      obtain rfl := Option.some.inj moved
      rw [Session.command]
      split
      · cases sent <;> rfl
      · rfl
  | callback callback =>
      obtain ⟨status, -, rfl⟩ := Option.map_eq_some_iff.mp moved
      rfl
  | connect => exact (other rfl).elim
  | lose =>
      obtain ⟨-, moved⟩ := Option.ite_none_right_eq_some.mp moved
      obtain rfl := Option.some.inj moved
      exact onDisconnect_connection session
  | fail =>
      obtain ⟨-, moved⟩ := Option.ite_none_left_eq_some.mp moved
      obtain rfl := Option.some.inj moved
      exact onDisconnect_connection session

theorem start_orderly (statusCache busyHeart heartBeat : Int32) :
    (start statusCache busyHeart heartBeat).Orderly := ⟨.free, Line.new_shows⟩

end Session

end CncRemote
