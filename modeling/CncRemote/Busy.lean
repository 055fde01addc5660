import CncRemote.Session

/-!
# Busy clients

After a motion command the client reports at least the state that the command leads to, until the
server has had the time to report it.  The time is counted in decoded states: at most one status
request is outstanding, so the second state that is decoded after a command was asked for after
it.
-/

namespace CncRemote

/-- The request that a slot awaits or whose response it holds. -/
def Slot.request {ρ : Type*} : Slot ρ → Option Request
  | .awaiting request => some request
  | .holding response => some response.request
  | .free | .jammed => none

/-- A callback fills the slot for the request it awaits or frees it. -/
theorem Slot.request_of_callback {ρ : Type*} {slot next : Slot ρ} {callback : Callback ρ}
    {request : Request} (called : slot.callback callback = some next)
    (concerns : request ∈ next.request) : request ∈ slot.request := by
  cases slot with
  | awaiting awaited =>
      obtain ⟨same, called⟩ := Option.ite_none_right_eq_some.mp called
      cases callback with
      | response response =>
          obtain rfl := Option.some.inj called
          simpa [Slot.request, Callback.request, ← same] using concerns
      | error =>
          obtain rfl := Option.some.inj called
          cases concerns
  | free | holding | jammed => cases called

/-- An idle slot takes no request but the one that is called. -/
theorem Slot.request_of_callAsync {ρ : Type*} {slot : Slot ρ} {request called : Request}
    {sent : Bool} (idle : ∀ earlier, slot ≠ .awaiting earlier)
    (concerns : request ∈ (slot.callAsync called sent).request) : request = called := by
  rcases Slot.callAsync_of_idle idle called sent with taken | jammed
  · rw [taken] at concerns
    exact (Option.some.inj concerns).symm
  · rw [jammed] at concerns
    cases concerns

namespace Session

/-- A state was decoded that answers a `GetState` request with at least the given number. -/
def Refreshed (number : Nat) (session : Session) : Prop :=
  ∃ request, .decoded request ∈ session.log ∧ request.method = "GetState" ∧
    number ≤ request.msgid

theorem Refreshed.step {number : Nat} {session next : Session} {event : Event}
    (refreshed : session.Refreshed number) (moved : machine.step session event = some next) :
    next.Refreshed number := by
  obtain ⟨request, recorded, rest⟩ := refreshed
  obtain ⟨entries, log_eq⟩ := log_step moved
  exact ⟨request, by simp [log_eq, recorded], rest⟩

/-- Once the handshake is over, the request in the slot asks for a state. -/
def AsksStates (session : Session) : Prop :=
  ∃ slot, session.client.status.Shows slot ∧ ∀ request ∈ slot.request,
    session.client.serverVer.le (.finite 0) = false → request.method = "GetState"

/-- The cache masks everything below the state, and it outlives the response to a request that is
older than the number. -/
structure Masked (number : Nat) (state : Int32) (client : Client) : Prop where
  stale : ∃ slot, client.status.Shows slot ∧ ∀ request ∈ slot.request, request.msgid < number →
    client.heartBeat < client.busyHeart
  number_le : number ≤ client.status.attempts
  le_cache : state ≤ client.statusCache

theorem Masked.isBusy {number : Nat} {state : Int32} {client : Client}
    (masked : Masked number state client) (connected : Bool) {below : Int32}
    (lt : below < state) : client.isBusy connected below = true := by
  have lt_cache : below < client.statusCache := Int32.lt_of_lt_of_le lt masked.le_cache
  cases connected with
  | false => rfl
  | true =>
      rw [Client.isBusy, if_neg (by simp)]
      split
      · exact decide_eq_true lt_cache
      · rename_i reported
        exact decide_eq_true (Int32.lt_of_lt_of_le lt_cache (Int32.not_lt.mp reported))

theorem lt_succ {beat : Int32} (below : beat.toInt < 2 ^ 31 - 2) : beat < beat + 1 := by
  have least := beat.le_toInt
  have succ : (beat + 1).toInt = beat.toInt + 1 := by
    rw [Int32.toInt_add]
    exact Int.bmod_eq_of_le (by simp; omega) (by simp; omega)
  rw [Int32.lt_iff_toInt_lt, succ]
  exact Int.lt_succ _

theorem le_setBusy (client : Client) (state : Int32) :
    state ≤ (client.setBusy state).statusCache ∧
      client.statusCache ≤ (client.setBusy state).statusCache := by
  rw [Client.setBusy]
  dsimp only
  split
  · rename_i raised
    exact ⟨Int32.le_refl _, Int32.le_of_lt raised⟩
  · rename_i low
    exact ⟨Int32.not_lt.mp low, Int32.le_refl _⟩

theorem masked_of_setBusy {session : Session} (orderly : session.Orderly) (state : Int32)
    (below : session.client.heartBeat.toInt < 2 ^ 31 - 2) :
    Masked session.client.status.attempts state (session.client.setBusy state) where
  stale := by
    obtain ⟨slot, shows⟩ := orderly
    exact ⟨slot, shows, fun _ _ _ => lt_succ below⟩
  number_le := Nat.le_refl _
  le_cache := (le_setBusy _ _).1

/-- A later call of `SetBusy` leaves the mask in place. -/
theorem Masked.setBusy {number : Nat} {state : Int32} {client : Client}
    (masked : Masked number state client) (later : Int32)
    (below : client.heartBeat.toInt < 2 ^ 31 - 2) :
    Masked number state (client.setBusy later) where
  stale := by
    obtain ⟨slot, shows, -⟩ := masked.stale
    exact ⟨slot, shows, fun _ _ _ => lt_succ below⟩
  number_le := masked.number_le
  le_cache := Int32.le_trans masked.le_cache (le_setBusy _ _).2

/-- A request that is sent now is not older than the number. -/
theorem Masked.request {number : Nat} {state : Int32} {client : Client} {slot : Slot Reply}
    (shows : client.status.Shows slot) (idle : client.status.call.busy = false)
    (number_le : number ≤ client.status.attempts) (le_cache : state ≤ client.statusCache)
    (method : String) (connection : Nat) (err : Option String) :
    Masked number state (client.request method connection err).1 where
  stale := by
    refine ⟨_, Line.callAsync_shows shows method connection err, fun request concerns old => ?_⟩
    obtain rfl := Slot.request_of_callAsync (shows.idle idle) concerns
    exact absurd number_le (Nat.not_le.mpr old)
  number_le := by
    rw [Client.request, Line.callAsync_of_idle idle]
    exact number_le.trans (Nat.le_succ _)
  le_cache := le_cache

/-- A dropped response frees the slot. -/
theorem Masked.clearResponse {number : Nat} {state : Int32} {client : Client}
    {response : Response Reply} (masked : Masked number state client)
    (shows : client.status.Shows (.holding response)) (ver : Single) :
    Masked number state
      { client with serverVer := ver, status := client.status.clearResponse } where
  stale := ⟨.free, Line.clearResponse_shows shows, by simp [Slot.request]⟩
  number_le := masked.number_le
  le_cache := masked.le_cache

theorem asksStates_of_request {session : Session} {client : Client} {log : List Entry}
    {slot : Slot Reply} (shows : client.status.Shows slot)
    (idle : client.status.call.busy = false) (method : String) (err : Option String)
    (states : client.serverVer.le (.finite 0) = false → method = "GetState") :
    AsksStates
      { session with client := (client.request method session.connection err).1, log } := by
  refine ⟨_, Line.callAsync_shows shows method session.connection err, ?_⟩
  intro request concerns
  obtain rfl := Slot.request_of_callAsync (shows.idle idle) concerns
  exact states

theorem AsksStates.orderly {session : Session} (inv : session.AsksStates) : session.Orderly :=
  inv.imp fun _ => And.left

theorem start_asksStates (statusCache busyHeart heartBeat : Int32) :
    (start statusCache busyHeart heartBeat).AsksStates :=
  ⟨.free, Line.new_shows, by simp [Slot.request]⟩

theorem asksStates_step {session next : Session} {event : Event} (inv : session.AsksStates)
    (moved : machine.step session event = some next) : next.AsksStates := by
  have step := step_cases inv.orderly moved
  obtain ⟨slot, shows, states⟩ := inv
  cases step with
  | poll polled =>
      cases polled with
      | unchanged => exact ⟨slot, shows, states⟩
      | refuse _ _ offered | accept _ _ offered =>
          obtain ⟨response, rfl, -⟩ := (Client.offeredVersion_eq_some shows).mp offered
          exact ⟨.free, Line.clearResponse_shows shows, by simp [Slot.request]⟩
      | askVersion _ handshake idle =>
          refine asksStates_of_request shows idle _ _ fun serving => ?_
          rw [handshake] at serving
          cases serving
      | askState _ _ idle => exact asksStates_of_request shows idle _ _ fun _ => rfl
      | readState _ _ offered =>
          obtain ⟨rfl, -⟩ := Client.offeredState_eq_some shows offered
          have idle : session.client.status.call.busy = false := shows.1
          rw [← Client.readState_status] at shows idle
          exact asksStates_of_request shows idle _ _ fun _ => rfl
  | setBusy | ignored | connect => exact ⟨slot, shows, states⟩
  | callback served =>
      obtain ⟨nextSlot, called, nextShows⟩ := Line.callback_shows shows served
      exact ⟨nextSlot, nextShows, fun request concerns =>
        states request (Slot.request_of_callback called concerns)⟩
  | lose | fail =>
      refine ⟨slot, by rwa [onDisconnect_status], fun request concerns serving => ?_⟩
      rw [onDisconnect_serverVer] at serving
      split at serving
      · cases serving
      · exact states request concerns serving

theorem masked_of_readState {number : Nat} {state : Int32} {session : Session}
    {response : Response Reply} {decoded : State Double} {err : Option String}
    {log : List Entry} (asks : session.AsksStates) (masked : Masked number state session.client)
    (serving : session.client.serverVer.le (.finite 0) = false)
    (offered : session.client.offeredState = some (response, decoded))
    (recorded : .decoded response.request ∈ log) :
    Refreshed number { session with
      client := (session.client.readState.1.request "GetState" session.connection err).1, log } ∨
    Masked number state
      (session.client.readState.1.request "GetState" session.connection err).1 := by
  obtain ⟨slot, shows, states⟩ := asks
  obtain ⟨rfl, -⟩ := Client.offeredState_eq_some shows offered
  rcases Nat.lt_or_ge response.request.msgid number with old | new
  · right
    obtain ⟨other, otherShows, stale⟩ := masked.stale
    obtain rfl := shows.unique otherShows
    have outlives : session.client.heartBeat < session.client.busyHeart :=
      stale response.request rfl old
    have kept : session.client.readState.1.statusCache = session.client.statusCache := by
      simp [Client.readState, offered, outlives]
    have idle : session.client.status.call.busy = false := shows.1
    have number_le := masked.number_le
    rw [← Client.readState_status] at shows idle number_le
    exact .request shows idle number_le (by rw [kept]; exact masked.le_cache) _ _ _
  · left
    exact ⟨response.request, recorded, states _ rfl serving, new⟩

theorem masked_step {number : Nat} {state : Int32} {session next : Session} {event : Event}
    (below : session.client.heartBeat.toInt < 2 ^ 31 - 2) (asks : session.AsksStates)
    (masked : Masked number state session.client)
    (moved : machine.step session event = some next) :
    next.Refreshed number ∨ Masked number state next.client := by
  have step := step_cases asks.orderly moved
  obtain ⟨slot, shows, stale⟩ := masked.stale
  cases step with
  | poll polled =>
      cases polled with
      | unchanged => exact .inr masked
      | refuse _ _ offered | accept _ _ offered =>
          obtain ⟨response, rfl, -⟩ := (Client.offeredVersion_eq_some shows).mp offered
          exact .inr (masked.clearResponse shows _)
      | askVersion _ _ idle | askState _ _ idle =>
          exact .inr (.request shows idle masked.number_le masked.le_cache _ _ _)
      | readState _ serving offered =>
          exact masked_of_readState asks masked serving offered (by simp)
  | setBusy => exact .inr (masked.setBusy _ below)
  | ignored | connect => exact .inr masked
  | callback served =>
      obtain ⟨nextSlot, called, nextShows⟩ := Line.callback_shows shows served
      obtain ⟨-, rfl⟩ := Line.callback_eq_some served
      refine .inr ⟨⟨nextSlot, nextShows, fun request concerns => ?_⟩, masked.number_le,
        masked.le_cache⟩
      exact stale request (Slot.request_of_callback called concerns)
  | lose | fail =>
      right
      rw [onDisconnect_client]
      split
      · exact ⟨masked.stale, masked.number_le, masked.le_cache⟩
      · exact masked

/-- What holds from a motion command on, for the number of the next request and the state that
the command set. -/
structure Guarding (number : Nat) (state : Int32) (session : Session) : Prop where
  asks : session.AsksStates
  guards : session.Refreshed number ∨ Masked number state session.client

theorem guarding_step {number : Nat} {state : Int32} {session next : Session} {event : Event}
    (below : session.client.heartBeat.toInt < 2 ^ 31 - 2) (inv : session.Guarding number state)
    (moved : machine.step session event = some next) : next.Guarding number state where
  asks := asksStates_step inv.asks moved
  guards := by
    rcases inv.guards with refreshed | masked
    · exact .inl (refreshed.step moved)
    · exact masked_step below inv.asks masked moved

/-- From the moment a motion command has set the client busy until a state that was asked for after
the command is decoded, the client is at least as busy as the command made it. -/
theorem busy_until_refreshed (statusCache busyHeart heartBeat : Int32) {front back : List Event}
    {before after final : Session} {command : MotionCommand} {state : ControlState}
    (reached : machine.run (start statusCache busyHeart heartBeat) front = some before)
    (moves : command.busyState = some state)
    (sent : machine.step before (.command command true) = some after)
    (continued : machine.run after back = some final)
    (beats : machine.Always (fun session => session.client.heartBeat.toInt < 2 ^ 31 - 2) after back)
    (stale : ¬final.Refreshed before.client.status.attempts) (below : Int32)
    (lt : below < state.code) : final.client.isBusy final.connected below = true := by
  have asks : before.AsksStates :=
    Machine.invariant_of_run asksStates_step
      (start_asksStates statusCache busyHeart heartBeat) reached
  obtain rfl : { before with
      client := before.client.setBusy state.code
      log := before.log ++ [.setBusy state.code] } = after := by
    have moved := Option.some.inj sent
    rwa [Session.command, moves] at moved
  have start : Guarding before.client.status.attempts state.code { before with
      client := before.client.setBusy state.code
      log := before.log ++ [.setBusy state.code] } :=
    ⟨asks, .inr (masked_of_setBusy asks.orderly state.code beats.start)⟩
  have kept : final.Guarding before.client.status.attempts state.code :=
    beats.invariant_of_run (fun below _ inv moved => guarding_step below inv moved) start continued
  exact (kept.guards.resolve_left stale).isBusy final.connected lt

/-- A handshake and a first request for a state. -/
def firstRequest : List Event :=
  [.connect, .poll none, .callback (.response ⟨⟨0, "Version", 1⟩, .float (.finite 3), none⟩),
    .poll none, .poll none]

/-- The state that was asked for before the command is reported after it. -/
def staleReport : List Event :=
  [.callback (.response ⟨⟨1, "GetState", 1⟩, .state .initial, none⟩), .poll none]

/-- After a cycle start, a report of the state before it does not make the client idle. -/
theorem busy_after_staleReport :
    ∃ before after final : Session,
      machine.run (start 0 0 0) firstRequest = some before ∧
      machine.step before (.command .cycleStart true) = some after ∧
      machine.run after staleReport = some final ∧
      final.client.isBusy final.connected ControlState.idle.code = true := by
  obtain ⟨before, after, final, reached, sent, continued, number, log_eq, beats⟩ :
      ∃ before after final : Session,
        machine.run (start 0 0 0) firstRequest = some before ∧
        machine.step before (.command .cycleStart true) = some after ∧
        machine.run after staleReport = some final ∧
        before.client.status.attempts = 2 ∧
        final.log = [.request ⟨0, "Version", 1⟩,
          .answered ⟨⟨0, "Version", 1⟩, .float (.finite 3), none⟩, .onConnect 1,
          .request ⟨1, "GetState", 1⟩, .setBusy 6,
          .answered ⟨⟨1, "GetState", 1⟩, .state .initial, none⟩, .decoded ⟨1, "GetState", 1⟩,
          .request ⟨2, "GetState", 1⟩] ∧
        machine.Always (fun session => session.client.heartBeat.toInt < 2 ^ 31 - 2) after
          staleReport :=
    ⟨_, _, _, rfl, rfl, rfl, rfl, rfl, by decide⟩
  refine ⟨before, after, final, reached, sent, continued, ?_⟩
  refine busy_until_refreshed 0 0 0 reached rfl sent continued beats ?_ _ (by decide)
  rw [number, Refreshed, log_eq]
  rintro ⟨request, recorded, -, new⟩
  obtain rfl : request = ⟨1, "GetState", 1⟩ := by simpa using recorded
  exact absurd new (by decide)

end Session

end CncRemote
