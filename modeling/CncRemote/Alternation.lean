import CncRemote.Session
import Mathlib.Data.List.Chain

/-!
# User callbacks come in pairs

`Poll` calls `OnConnect` when it has accepted the version of the server, and the network handler
calls `OnDisConnect` when an established connection ends.  The two agree about a connection exactly
if it does not end before its version is accepted.
-/

namespace CncRemote

/-- The callbacks that tell the user of a client about its connection. -/
inductive UserCallback where
  | onConnect
  | onDisConnect
  deriving DecidableEq

/-- The user callback that an entry of the log records. -/
def UserCallback.ofEntry : Entry → Option UserCallback
  | .onConnect _ => some .onConnect
  | .onDisConnect => some .onDisConnect
  | .request _ | .answered _ | .decoded _ | .onIncorrectVersion _ | .setBusy _ | .retryTimer _ =>
      none

/-- The user callbacks in the order in which they were called. -/
def userCallbacks (log : List Entry) : List UserCallback := log.filterMap UserCallback.ofEntry

/-- `OnConnect` and `OnDisConnect` take turns, as if one `OnDisConnect` had come first. -/
def Alternating (log : List Entry) : Prop :=
  (.onDisConnect :: userCallbacks log).IsChain (· ≠ ·)

theorem userCallbacks_append (log entries : List Entry) :
    userCallbacks (log ++ entries) = userCallbacks log ++ userCallbacks entries :=
  List.filterMap_append

theorem userCallbacks_request (client : Client) (method : String) (connection : Nat)
    (err : Option String) : userCallbacks (client.request method connection err).2 = [] := by
  apply List.filterMap_eq_nil_iff.mpr
  intro entry recorded
  rw [Client.request_entries recorded]
  rfl

theorem userCallbacks_ofCallback (callback : Callback Reply) :
    userCallbacks (Entry.ofCallback callback) = [] := by
  cases callback <;> rfl

namespace Session

theorem userCallbacks_onDisconnect (session : Session) :
    userCallbacks session.onDisconnect.log =
      userCallbacks session.log ++ if session.retries = 0 then [.onDisConnect] else [] := by
  simp only [onDisconnect]
  split <;> split <;> simp [userCallbacks, UserCallback.ofEntry]

/-- The callback that the user was last called with, in the view of the version of the server. -/
def lastCallback (ver : Single) : UserCallback :=
  if ver.le (.finite 0) then .onDisConnect else .onConnect

/-- The user callbacks take turns, and the last one agrees with the version of the server. -/
structure Paired (session : Session) : Prop where
  orderly : session.Orderly
  alternating : Alternating session.log
  last : (.onDisConnect :: userCallbacks session.log).getLast? =
    some (lastCallback session.client.serverVer)

/-- A step without a user callback leaves the pairing alone. -/
theorem Paired.of_same {session next : Session} (inv : session.Paired) (orderly : next.Orderly)
    (callbacks : userCallbacks next.log = userCallbacks session.log)
    (last : lastCallback next.client.serverVer = lastCallback session.client.serverVer) :
    next.Paired where
  orderly := orderly
  alternating := by
    rw [Alternating, callbacks]
    exact inv.alternating
  last := by rw [callbacks, last, inv.last]

theorem Paired.turn {session next : Session} (inv : session.Paired) (orderly : next.Orderly)
    {callback : UserCallback}
    (called : userCallbacks next.log = userCallbacks session.log ++ [callback])
    (before : lastCallback session.client.serverVer ≠ callback)
    (after : lastCallback next.client.serverVer = callback) : next.Paired where
  orderly := orderly
  alternating := by
    rw [Alternating, called, ← List.cons_append, List.isChain_append]
    refine ⟨inv.alternating, List.isChain_singleton _, ?_⟩
    rw [inv.last]
    simpa using before
  last := by
    rw [called, ← List.cons_append, List.getLast?_concat, after]

/-- If the step loses an established connection, then its version was accepted. -/
def EndsAccepted (session : Session) : Event → Prop
  | .lose | .fail => session.retries = 0 → session.client.serverVer.le (.finite 0) = false
  | .poll _ | .command _ _ | .callback _ | .connect => True

theorem paired_of_onDisconnect {session : Session} (inv : session.Paired)
    (accepted : session.retries = 0 → session.client.serverVer.le (.finite 0) = false) :
    session.onDisconnect.Paired := by
  have callbacks := userCallbacks_onDisconnect session
  have ver := onDisconnect_serverVer session
  have orderly : session.onDisconnect.Orderly := by
    obtain ⟨slot, shows⟩ := inv.orderly
    exact ⟨slot, by rwa [onDisconnect_status]⟩
  by_cases established : session.retries = 0
  · rw [if_pos established] at callbacks ver
    refine inv.turn orderly callbacks ?_ (by rw [ver]; rfl)
    simp [lastCallback, accepted established]
  · rw [if_neg established] at callbacks ver
    exact inv.of_same orderly (by simpa using callbacks) (by rw [ver])

theorem Paired.poll {session : Session} (inv : session.Paired) {err : Option String}
    {client : Client} {entries : List Entry}
    (polled : session.client.PollCase session.connected session.connection err client entries) :
    Paired { session with client, log := session.log ++ entries } := by
  obtain ⟨slot, shows⟩ := inv.orderly
  cases polled with
  | unchanged => simpa using inv
  | refuse _ handshake =>
      refine inv.of_same ⟨_, Line.clearResponse_shows shows⟩ ?_ ?_
      · exact (userCallbacks_append _ _).trans (List.append_nil _)
      · rw [handshake]
        rfl
  | accept _ handshake _ new =>
      refine inv.turn ⟨_, Line.clearResponse_shows shows⟩ (userCallbacks_append _ _) ?_ ?_
      · rw [handshake]
        decide
      · simp [lastCallback, Client.le_eq_false_of_not_lt new]
  | askVersion | askState =>
      refine inv.of_same ⟨_, Line.callAsync_shows shows _ _ _⟩ ?_ rfl
      rw [userCallbacks_append, userCallbacks_request, List.append_nil]
  | @readState response =>
      rw [← Client.readState_status] at shows
      refine inv.of_same ⟨_, Line.callAsync_shows shows _ _ _⟩ ?_ ?_
      · rw [userCallbacks_append, userCallbacks, userCallbacks, List.filterMap_cons]
        simp only [UserCallback.ofEntry]
        exact (congrArg _ (userCallbacks_request _ _ _ _)).trans (List.append_nil _)
      · exact congrArg lastCallback (Client.readState_serverVer session.client)

theorem paired_step {session next : Session} {event : Event} (inv : session.Paired)
    (accepted : session.EndsAccepted event) (moved : machine.step session event = some next) :
    next.Paired := by
  cases step_cases inv.orderly moved with
  | poll polled => exact inv.poll polled
  | setBusy => exact inv.of_same inv.orderly (by simp [userCallbacks, UserCallback.ofEntry]) rfl
  | ignored => exact inv
  | callback served =>
      obtain ⟨slot, shows⟩ := inv.orderly
      obtain ⟨nextSlot, -, nextShows⟩ := Line.callback_shows shows served
      refine inv.of_same ⟨nextSlot, nextShows⟩ ?_ rfl
      rw [userCallbacks_append, userCallbacks_ofCallback, List.append_nil]
  | connect => exact inv.of_same inv.orderly rfl rfl
  | lose | fail => exact paired_of_onDisconnect inv accepted

/-- The end of an established connection whose version was not accepted repeats
`OnDisConnect`. -/
theorem not_alternating_of_unaccepted {session next : Session} {event : Event}
    (inv : session.Paired) (unaccepted : ¬session.EndsAccepted event)
    (moved : machine.step session event = some next) : ¬Alternating next.log := by
  have ended (established : session.retries = 0)
      (handshake : ¬session.client.serverVer.le (.finite 0) = false) :
      ¬Alternating session.onDisconnect.log := by
    intro alternating
    have callbacks := userCallbacks_onDisconnect session
    rw [if_pos established] at callbacks
    rw [Alternating, callbacks, ← List.cons_append, List.isChain_append] at alternating
    obtain ⟨-, -, turns⟩ := alternating
    have last := inv.last
    rw [lastCallback, if_pos (by simpa using handshake)] at last
    exact turns _ last _ rfl rfl
  cases step_cases inv.orderly moved with
  | poll | setBusy | ignored | callback | connect => exact (unaccepted trivial).elim
  | lose | fail =>
      obtain ⟨established, handshake⟩ := Classical.not_imp.mp unaccepted
      exact ended established handshake

/-- `OnConnect` and `OnDisConnect` take turns throughout a run exactly if no established connection
ends before its version is accepted. -/
theorem always_alternating_iff (statusCache busyHeart heartBeat : Int32) (events : List Event) :
    machine.Always (fun session => Alternating session.log)
        (start statusCache busyHeart heartBeat) events ↔
      machine.Guarded EndsAccepted (start statusCache busyHeart heartBeat) events := by
  have paired : (start statusCache busyHeart heartBeat).Paired :=
    ⟨start_orderly statusCache busyHeart heartBeat, List.isChain_singleton _, rfl⟩
  exact Machine.always_iff_guarded paired_step Paired.alternating not_alternating_of_unaccepted
    paired events

/-- A connection that is lost before its first poll is reported as lost, but not as established. -/
theorem not_alternating_of_earlyLoss :
    ¬∀ (statusCache busyHeart heartBeat : Int32) (events : List Event),
      machine.Always (fun session => Alternating session.log)
        (start statusCache busyHeart heartBeat) events := by
  intro always
  obtain ⟨final, execution, log_eq⟩ : ∃ final,
      machine.run (start 0 0 0) [.connect, .lose] = some final ∧
        final.log = [.onDisConnect, .retryTimer 100] := ⟨_, rfl, rfl⟩
  have alternating := Machine.always_iff.mp (always 0 0 0 _) _ final List.prefix_rfl execution
  rw [log_eq] at alternating
  simp [Alternating, userCallbacks, UserCallback.ofEntry] at alternating

end Session

end CncRemote
