import CncRemote.Core
import CncRemote.Session

/-!
# Clients and server processes

A plant is any number of clients and the server processes that follow one another.  The processes
log and change their state, and they answer the requests of the clients; a client polls, loses its
connection, and calls `GetNextError` and `GetNextMessage`.  Every step is one of these events, and
no client changes anything of a server or of another client.
-/

namespace CncRemote

/-- The server processes, one of which is running.  A text is stored and counted in two steps, and
`GetState_`, which takes another lock, can come between them. -/
structure Servers where
  /-- The shared members of each process. -/
  cores : Nat → Core
  /-- Number of the process that is running. -/
  current : Nat
  /-- `m_msgLock` is held by a call that has stored a text of this kind and not counted it yet. -/
  logging : Option Kind

/-- What happens to the server without a request. -/
inductive ServerEvent where
  /-- `LogError` or `LogMessage` is called and stores the text. -/
  | store (kind : Kind) (text : Bytes)
  /-- The call assigns the counter and returns. -/
  | tally
  /-- The driver assigns members of `m_state`. -/
  | update (state : State Double)
  /-- The process is stopped and a new one is started. -/
  | restart

namespace Servers

/-- The first process, which has just been started. -/
def start : Servers := ⟨fun _ => .new, 0, none⟩

/-- Replace the members of the running process. -/
def setCore (servers : Servers) (core : Core) : Servers :=
  { servers with cores := Function.update servers.cores servers.current core }

/-- One event of the server; the counters are not the driver's to assign. -/
def step (servers : Servers) : ServerEvent → Option Servers
  | .store kind text =>
      if text.length > 0 then
        if servers.logging = none then
          some
            { servers.setCore ((servers.cores servers.current).store kind text) with
              logging := some kind }
        else
          none
      else
        some servers
  | .tally =>
      servers.logging.map fun kind =>
        { servers.setCore ((servers.cores servers.current).tally kind) with logging := none }
  | .update state =>
      if (servers.cores servers.current).state.SameCounts state then
        some (servers.setCore ((servers.cores servers.current).update state))
      else
        none
  | .restart =>
      some
        { cores := Function.update servers.cores (servers.current + 1) .new
          current := servers.current + 1
          logging := none }

/-- The two steps of a call log the text. -/
theorem store_tally (servers : Servers) (kind : Kind) {text : Bytes} (filled : text ≠ [])
    (free : servers.logging = none) :
    ((servers.step (.store kind text)).bind fun stored => stored.step .tally) =
      some (servers.setCore ((servers.cores servers.current).log kind text)) := by
  obtain ⟨cores, current, logging⟩ := servers
  obtain rfl : logging = none := free
  simp [step, setCore, Core.log, List.length_pos_iff.mpr filled]

/-- What an event can do to the members of the running process. -/
inductive CoreCase (core : Core) : ServerEvent → Core → Prop
  | store {kind : Kind} {text : Bytes} (filled : text ≠ []) :
      CoreCase core (.store kind text) (core.store kind text)
  | ignored {kind : Kind} : CoreCase core (.store kind []) core
  | tally {kind : Kind} : CoreCase core .tally (core.tally kind)
  | update {state : State Double} (same : core.state.SameCounts state) :
      CoreCase core (.update state) (core.update state)

/-- What an event can do to the processes. -/
inductive StepCase (servers : Servers) : ServerEvent → Servers → Prop
  | running {event : ServerEvent} {core : Core} {logging : Option Kind}
      (changed : CoreCase (servers.cores servers.current) event core) :
      StepCase servers event { servers.setCore core with logging }
  | restart :
      StepCase servers .restart
        { cores := Function.update servers.cores (servers.current + 1) .new
          current := servers.current + 1
          logging := none }

theorem step_cases {servers next : Servers} {event : ServerEvent}
    (moved : servers.step event = some next) : StepCase servers event next := by
  cases event with
  | store kind text =>
      simp only [step] at moved
      split at moved
      · rename_i filled
        obtain ⟨-, moved⟩ := Option.ite_none_right_eq_some.mp moved
        obtain rfl := Option.some.inj moved
        exact .running (.store (List.length_pos_iff.mp filled))
      · rename_i empty
        obtain rfl := Option.some.inj moved
        obtain rfl : text = [] := by simpa using empty
        have ignored : StepCase servers (.store kind [])
            { servers.setCore (servers.cores servers.current) with logging := servers.logging } :=
          .running .ignored
        simpa [setCore] using ignored
  | tally =>
      obtain ⟨kind, -, rfl⟩ := Option.map_eq_some_iff.mp moved
      exact .running .tally
  | update state =>
      obtain ⟨same, moved⟩ := Option.ite_none_right_eq_some.mp moved
      obtain rfl := Option.some.inj moved
      exact .running (.update same)
  | restart =>
      obtain rfl := Option.some.inj moved
      exact .restart

end Servers

/-- The response to a status request. -/
def Core.reply (core : Core) (request : Request) : Response Reply where
  request := request
  result :=
    if request.method = "Version" then .float (.finite 3)
    else if request.method = "GetState" then .state core.state
    else .other
  error :=
    if request.method = "Version" ∨ request.method = "GetState" then none
    else some "Function not found"

/-- A call of `GetNextError` or `GetNextMessage` that has sent its request. -/
structure Fetch where
  kind : Kind
  /-- The index that the request asks for. -/
  index : UInt32
  /-- Number of the connection on which it was sent. -/
  connection : Nat
  /-- What was answered, with the process that answered. -/
  text : Option (Nat × Bytes)

/-- A client with its connections, and what is under way on them. -/
structure Station where
  session : Session
  /-- `m_errIndex` and `m_msgIndex` -/
  index : Kind → UInt32
  /-- The server process at the other end of each connection. -/
  peers : Nat → Nat
  /-- What the server has answered to the status request. -/
  reply : Option (Response Reply)
  /-- The call of `GetNextError` or `GetNextMessage` in progress. -/
  fetch : Option Fetch
  /-- What these calls have fetched and returned, oldest first, with the process that answered. -/
  given : Kind → List (Nat × Bytes)

/-- What happens to a client. -/
inductive ClientEvent where
  /-- A step of the session in which no response arrives. -/
  | session (event : Event)
  /-- The server executes the status request. -/
  | serve
  /-- The response to the status request arrives. -/
  | deliver
  /-- `GetNextError` or `GetNextMessage` is called. -/
  | call (kind : Kind)
  /-- The server executes `GetError` or `GetMessage`. -/
  | answer
  /-- The call returns the text. -/
  | finish
  /-- The call throws an exception. -/
  | fail

namespace Station

/-- A client as the constructor leaves it. -/
def start (statusCache busyHeart heartBeat : Int32) : Station where
  session := .start statusCache busyHeart heartBeat
  index _ := 0
  peers _ := 0
  reply := none
  fetch := none
  given _ := []

/-- The server process at the other end of the latest connection. -/
def peer (station : Station) : Nat := station.peers station.session.connection

/-- `HasErrors` and `HasMessages` -/
def has (station : Station) (kind : Kind) : Bool :=
  station.index kind < station.session.client.state.count kind

/-- `Client::HasErrors` -/
def hasErrors (station : Station) : Bool := station.has .error

/-- `Client::HasMessages` -/
def hasMessages (station : Station) : Bool := station.has .message

/-- `GetNextError` and `GetNextMessage` up to their request, which is not made when nothing is
pending. -/
def getNext (station : Station) (kind : Kind) : Station :=
  if station.index kind ≥ station.session.client.state.count kind then
    station
  else
    { station with
      fetch := some ⟨kind, station.index kind, station.session.connection, none⟩ }

/-- `Client::GetNextError` -/
def getNextError (station : Station) : Station := station.getNext .error

/-- `Client::GetNextMessage` -/
def getNextMessage (station : Station) : Station := station.getNext .message

/-- A text has been fetched: it is returned and the index advances. -/
def finish (station : Station) (fetch : Fetch) (answer : Nat × Bytes) : Station :=
  { station with
    index := Function.update station.index fetch.kind (station.index fetch.kind + 1)
    fetch := none
    given := Function.update station.given fetch.kind (station.given fetch.kind ++ [answer]) }

/-- The connection is up and its server process is still running. -/
def Reaches (station : Station) (servers : Servers) : Prop :=
  station.session.connected = true ∧ station.peer = servers.current

instance (station : Station) (servers : Servers) : Decidable (station.Reaches servers) :=
  inferInstanceAs (Decidable (_ ∧ _))

/-- A step of the session; a connection is made to the running process. -/
def stepSession (station : Station) (servers : Servers) : Event → Option Station
  | .callback (.response _) => none
  | .connect =>
      (Session.machine.step station.session .connect).map fun session =>
        { station with
          session
          peers := Function.update station.peers session.connection servers.current }
  | event =>
      (Session.machine.step station.session event).map fun session => { station with session }

/-- One event of a client. -/
def step (station : Station) (servers : Servers) : ClientEvent → Option Station
  | .session event => station.stepSession servers event
  | .serve =>
      match station.session.client.status.awaited with
      | request :: _ =>
          if station.Reaches servers ∧ request.connection = station.session.connection ∧
              station.reply.map (·.request) ≠ some request then
            some { station with reply := some ((servers.cores servers.current).reply request) }
          else
            none
      | [] => none
  | .deliver =>
      match station.reply with
      | some response =>
          (Session.machine.step station.session (.callback (.response response))).map
            fun session => { station with session }
      | none => none
  | .call kind => if station.fetch.isNone then some (station.getNext kind) else none
  | .answer =>
      match station.fetch with
      | some fetch =>
          if station.Reaches servers ∧ fetch.connection = station.session.connection ∧
              servers.logging = none ∧ fetch.text = none then
            let text := entryAt ((servers.cores servers.current).entries fetch.kind) fetch.index
            some
              { station with fetch := some { fetch with text := some (servers.current, text) } }
          else
            none
      | none => none
  | .finish =>
      match station.fetch with
      | some fetch => fetch.text.map fun answer => station.finish fetch answer
      | none => none
  | .fail => if station.fetch.isSome then some { station with fetch := none } else none

/-- What an event can do to a client. -/
inductive StepCase (station : Station) (servers : Servers) : ClientEvent → Station → Prop
  | session {event : Event} {session : Session} (unanswered : ∀ response,
      event ≠ .callback (.response response)) (other : event ≠ .connect)
      (stepped : Session.machine.step station.session event = some session) :
      StepCase station servers (.session event) { station with session }
  | connect {session : Session}
      (stepped : Session.machine.step station.session .connect = some session) :
      StepCase station servers (.session .connect)
        { station with
          session
          peers := Function.update station.peers session.connection servers.current }
  | serve {request : Request} (awaited : request ∈ station.session.client.status.awaited)
      (reaches : station.Reaches servers) (same : request.connection = station.session.connection) :
      StepCase station servers .serve
        { station with reply := some ((servers.cores servers.current).reply request) }
  | deliver {response : Response Reply} {session : Session}
      (replied : station.reply = some response)
      (delivered : Session.machine.step station.session (.callback (.response response)) =
        some session) :
      StepCase station servers .deliver { station with session }
  | call {kind : Kind} (idle : station.fetch.isNone = true) :
      StepCase station servers (.call kind) (station.getNext kind)
  | answer {fetch : Fetch} (asked : station.fetch = some fetch)
      (reaches : station.Reaches servers) (same : fetch.connection = station.session.connection) :
      StepCase station servers .answer
        { station with
          fetch := some
            { fetch with
              text := some (servers.current,
                entryAt ((servers.cores servers.current).entries fetch.kind) fetch.index) } }
  | finish {fetch : Fetch} {answer : Nat × Bytes} (asked : station.fetch = some fetch)
      (answered : fetch.text = some answer) :
      StepCase station servers .finish (station.finish fetch answer)
  | fail : StepCase station servers .fail { station with fetch := none }

theorem step_cases {station next : Station} {servers : Servers} {event : ClientEvent}
    (moved : station.step servers event = some next) : StepCase station servers event next := by
  cases event with
  | session event =>
      simp only [step, stepSession.eq_def] at moved
      split at moved
      · cases moved
      · obtain ⟨session, stepped, rfl⟩ := Option.map_eq_some_iff.mp moved
        exact .connect stepped
      · rename_i unanswered other
        obtain ⟨session, stepped, rfl⟩ := Option.map_eq_some_iff.mp moved
        exact .session unanswered other stepped
  | serve =>
      simp only [step] at moved
      split at moved
      · rename_i request others awaited
        obtain ⟨⟨reaches, same, -⟩, moved⟩ := Option.ite_none_right_eq_some.mp moved
        obtain rfl := Option.some.inj moved
        exact .serve (awaited ▸ List.mem_cons_self) reaches same
      · cases moved
  | deliver =>
      simp only [step] at moved
      split at moved
      · rename_i response replied
        obtain ⟨session, delivered, rfl⟩ := Option.map_eq_some_iff.mp moved
        exact .deliver replied delivered
      · cases moved
  | call kind =>
      obtain ⟨idle, moved⟩ := Option.ite_none_right_eq_some.mp moved
      obtain rfl := Option.some.inj moved
      exact .call idle
  | answer =>
      simp only [step] at moved
      split at moved
      · rename_i fetch asked
        obtain ⟨⟨reaches, same, -⟩, moved⟩ := Option.ite_none_right_eq_some.mp moved
        obtain rfl := Option.some.inj moved
        exact .answer asked reaches same
      · cases moved
  | finish =>
      simp only [step] at moved
      split at moved
      · rename_i fetch asked
        obtain ⟨answer, answered, rfl⟩ := Option.map_eq_some_iff.mp moved
        exact .finish asked answered
      · cases moved
  | fail =>
      obtain ⟨-, moved⟩ := Option.ite_none_right_eq_some.mp moved
      obtain rfl := Option.some.inj moved
      exact .fail

end Station

/-- Server processes and any number of clients. -/
structure Plant (ι : Type*) where
  servers : Servers
  stations : ι → Station

/-- An event of the server or of a client. -/
inductive PlantEvent (ι : Type*) where
  | server (event : ServerEvent)
  | client (client : ι) (event : ClientEvent)

namespace Plant

variable {ι : Type*}

/-- Clients that have not connected yet, with whatever their memory held. -/
def start (memory : ι → Int32 × Int32 × Int32) : Plant ι where
  servers := .start
  stations client := .start (memory client).1 (memory client).2.1 (memory client).2.2

/-- One event of a plant. -/
def step [DecidableEq ι] (plant : Plant ι) : PlantEvent ι → Option (Plant ι)
  | .server event => (plant.servers.step event).map fun servers => { plant with servers }
  | .client client event =>
      ((plant.stations client).step plant.servers event).map fun station =>
        { plant with stations := Function.update plant.stations client station }

/-- The machine of all plants. -/
def machine [DecidableEq ι] : Machine (Plant ι) (PlantEvent ι) := ⟨step⟩

/-- The only client connects to the running process, accepts its version and reads its state. -/
def readState : List (PlantEvent Unit) :=
  [.client () (.session .connect), .client () (.session (.poll none)), .client () .serve,
    .client () .deliver, .client () (.session (.poll none)), .client () (.session (.poll none)),
    .client () .serve, .client () .deliver, .client () (.session (.poll none))]

/-- The server logs an error. -/
def logError (text : Bytes) : List (PlantEvent Unit) :=
  [.server (.store .error text), .server .tally]

/-- The only client gets an error. -/
def getError : List (PlantEvent Unit) :=
  [.client () (.call .error), .client () .answer, .client () .finish]

end Plant

end CncRemote
