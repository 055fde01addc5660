import CncRemote.Session

/-!
# Sockets that were replaced

Every call of `Connect` creates a socket and keeps it in `m_socket`.  The socket that was there
before can still raise events, because the retry timer holds a handle to it, and the one handler of
the client treats them like those of the current socket.
-/

namespace CncRemote

/-- A client with all sockets it has created, numbered from 0. -/
structure Sockets where
  /-- The client, its handler and the state of the current socket. -/
  session : Session
  /-- How many sockets `Connect` has created; the last one is `m_socket`. -/
  created : Nat
  /-- The sockets that the retry timer holds a handle to. -/
  handles : List Nat

/-- What can happen to the sockets of a client. -/
inductive SocketEvent where
  /-- `Client::Connect` with index 0, which succeeds. -/
  | create
  /-- `Handler::OnConnect` -/
  | onConnect (socket : Nat)
  /-- `Handler::OnDisconnect` -/
  | onDisconnect (socket : Nat)
  /-- The retry timer expires: `socket->Connect()`. -/
  | reconnect (socket : Nat)
  /-- `delete socket`, after `socket->Connect()`. -/
  | release (socket : Nat)
  /-- `Poll`, a command or a callback of the status call. -/
  | client (event : Event)

/-- The socket that raised the event or that the timer holds. -/
def SocketEvent.socket : SocketEvent → Option Nat
  | .onConnect socket | .onDisconnect socket | .reconnect socket | .release socket => some socket
  | .create | .client _ => none

namespace Sockets

/-- A client that has not called `Connect`. -/
def start (statusCache busyHeart heartBeat : Int32) : Sockets :=
  ⟨.start statusCache busyHeart heartBeat, 0, []⟩

/-- `Connect` puts a new socket, which is not connected yet, in the place of the current one. -/
def create (sockets : Sockets) : Sockets :=
  { sockets with
    session := { sockets.session with connected := false }
    created := sockets.created + 1 }

/-- `Handler::OnConnect`, whose only effect on a socket that was replaced is on `m_retries`. -/
def onConnect (sockets : Sockets) (socket : Nat) : Option Sockets :=
  if socket + 1 = sockets.created then
    (Session.machine.step sockets.session .connect).map fun session => { sockets with session }
  else if socket < sockets.created then
    some { sockets with session := { sockets.session with retries := 0 } }
  else
    none

/-- `Handler::OnDisconnect`, which starts the retry timer with a handle to the socket.  A socket
that was replaced leaves the current one connected. -/
def onDisconnect (sockets : Sockets) (socket : Nat) : Option Sockets :=
  if socket + 1 = sockets.created then
    some
      { sockets with
        session := sockets.session.onDisconnect
        handles := socket :: sockets.handles }
  else if socket < sockets.created then
    some
      { sockets with
        session := { sockets.session.onDisconnect with connected := sockets.session.connected }
        handles := socket :: sockets.handles }
  else
    none

/-- One step of a client with its sockets. -/
def step (sockets : Sockets) : SocketEvent → Option Sockets
  | .create => some sockets.create
  | .onConnect socket => sockets.onConnect socket
  | .onDisconnect socket => sockets.onDisconnect socket
  | .reconnect socket => if socket ∈ sockets.handles then some sockets else none
  | .release socket =>
      if socket ∈ sockets.handles then
        some { sockets with handles := sockets.handles.erase socket }
      else
        none
  | .client (.connect) | .client (.lose) | .client (.fail) => none
  | .client event =>
      (Session.machine.step sockets.session event).map fun session => { sockets with session }

/-- The machine of all sockets of a client. -/
def machine : Machine Sockets SocketEvent := ⟨step⟩

/-- The event concerns a socket that a later `Connect` has replaced. -/
def Replaced (sockets : Sockets) (event : SocketEvent) : Prop :=
  ∃ socket, event.socket = some socket ∧ socket + 1 < sockets.created

/-- The version, the state and the retries of the client are the same, `OnDisConnect` was not
called, and the retry timer was not started. -/
structure Unaffected (before after : Session) : Prop where
  serverVer : after.client.serverVer = before.client.serverVer
  state : after.client.state = before.client.state
  retries : after.retries = before.retries
  log : after.log = before.log

/-- If the event concerns a socket that was replaced, it does not affect the client. -/
def Undisturbed (sockets : Sockets) (event : SocketEvent) : Prop :=
  sockets.Replaced event → ∀ next, machine.step sockets event = some next →
    Unaffected sockets.session next.session

/-- A socket that was replaced does not raise a disconnection, and it raises a connection only
while the client counts no retries. -/
def Harmless (sockets : Sockets) : SocketEvent → Prop
  | .onConnect socket => socket + 1 < sockets.created → sockets.session.retries = 0
  | .onDisconnect socket => ¬socket + 1 < sockets.created
  | .create | .reconnect _ | .release _ | .client _ => True

/-- A handle to the socket of the event exists. -/
def HasHandle (sockets : Sockets) (event : SocketEvent) : Prop :=
  ∀ socket, event.socket = some socket → socket + 1 = sockets.created ∨ socket ∈ sockets.handles

theorem log_onDisconnect_ne (session : Session) : session.onDisconnect.log ≠ session.log := by
  simp only [Session.onDisconnect]
  split <;> split <;> simp

/-- A connection of a socket that was replaced resets the retries. -/
theorem onConnect_of_replaced {sockets : Sockets} {socket : Nat}
    (replaced : socket + 1 < sockets.created) :
    sockets.onConnect socket =
      some { sockets with session := { sockets.session with retries := 0 } } := by
  rw [onConnect, if_neg replaced.ne, if_pos (Nat.lt_of_succ_lt replaced)]

/-- A disconnection of a socket that was replaced is handled like any other. -/
theorem onDisconnect_of_replaced {sockets : Sockets} {socket : Nat}
    (replaced : socket + 1 < sockets.created) :
    sockets.onDisconnect socket =
      some
        { sockets with
          session :=
            { sockets.session.onDisconnect with connected := sockets.session.connected }
          handles := socket :: sockets.handles } := by
  rw [onDisconnect, if_neg replaced.ne, if_pos (Nat.lt_of_succ_lt replaced)]

theorem undisturbed_of_same {sockets : Sockets} {event : SocketEvent}
    (same : ∀ next, machine.step sockets event = some next → next.session = sockets.session) :
    sockets.Undisturbed event := by
  intro _ next moved
  rw [same next moved]
  exact ⟨rfl, rfl, rfl, rfl⟩

theorem undisturbed_iff_harmless (sockets : Sockets) (event : SocketEvent) :
    sockets.Undisturbed event ↔ sockets.Harmless event := by
  cases event with
  | create | client =>
      refine iff_of_true ?_ trivial
      rintro ⟨socket, other, -⟩
      cases other
  | reconnect socket | release socket =>
      refine iff_of_true (undisturbed_of_same fun next moved => ?_) trivial
      obtain ⟨-, same⟩ := Option.ite_none_right_eq_some.mp moved
      rw [← Option.some.inj same]
  | onConnect socket =>
      constructor
      · intro undisturbed replaced
        exact (undisturbed ⟨socket, rfl, replaced⟩ _ (onConnect_of_replaced replaced)).retries.symm
      · rintro harmless ⟨_, ⟨⟩, replaced⟩ next moved
        obtain rfl := Option.some.inj ((onConnect_of_replaced replaced).symm.trans moved)
        exact ⟨rfl, rfl, (harmless replaced).symm, rfl⟩
  | onDisconnect socket =>
      constructor
      · intro undisturbed replaced
        have unaffected :=
          undisturbed ⟨socket, rfl, replaced⟩ _ (onDisconnect_of_replaced replaced)
        exact log_onDisconnect_ne sockets.session unaffected.log
      · rintro harmless ⟨_, ⟨⟩, replaced⟩
        exact (harmless replaced).elim

/-- Sockets that were replaced do not affect the client throughout a run exactly if they raise no
disconnection, and no connection while the client counts retries. -/
theorem guarded_undisturbed_iff (statusCache busyHeart heartBeat : Int32)
    (events : List SocketEvent) :
    machine.Guarded Undisturbed (start statusCache busyHeart heartBeat) events ↔
      machine.Guarded Harmless (start statusCache busyHeart heartBeat) events :=
  Machine.guarded_congr (fun _ => undisturbed_iff_harmless _ _)
    (start statusCache busyHeart heartBeat) events

/-- The first server cannot be reached, the second one can, and the first one is tried again. -/
def twoServers : List SocketEvent :=
  [.create, .onDisconnect 0, .create, .onConnect 1, .reconnect 0, .onDisconnect 0]

/-- The second failure of the first socket is taken for a loss of the second connection. -/
theorem not_undisturbed_of_twoServers :
    ¬∀ (statusCache busyHeart heartBeat : Int32) (events : List SocketEvent),
      machine.Guarded HasHandle (start statusCache busyHeart heartBeat) events →
        machine.Guarded Undisturbed (start statusCache busyHeart heartBeat) events := by
  intro always
  have handles : machine.Guarded HasHandle (start 0 0 0) twoServers := by
    rintro _ ⟨⟩
    refine ⟨nofun, ?_⟩
    rintro _ ⟨⟩
    refine ⟨fun _ same => .inl (by cases same; rfl), ?_⟩
    rintro _ ⟨⟩
    refine ⟨nofun, ?_⟩
    rintro _ ⟨⟩
    refine ⟨fun _ same => .inl (by cases same; rfl), ?_⟩
    rintro _ ⟨⟩
    refine ⟨fun _ same => .inr (by cases same; exact List.mem_cons_self), ?_⟩
    rintro _ ⟨⟩
    exact ⟨fun _ same => .inr (by cases same; exact List.mem_cons_self), trivial⟩
  have undisturbed := always 0 0 0 twoServers handles
  have last := ((((undisturbed _ rfl).2 _ rfl).2 _ rfl).2 _ rfl).2 _ rfl |>.2 _ rfl
  exact (undisturbed_iff_harmless _ _).mp last.1 (by decide : 1 < 2)

end Sockets

end CncRemote
