import CncRemote.Delivery

/-!
# What is on its way to a client

A client holds one response at most, and the transport carries one more.  `Carrying` says of a
property that what is on its way has it; `Carrying.step` is the one account of what a step can do to
it, to the log and to what the client shows.
-/

namespace CncRemote

/-- The state of the machine in the process that is running. -/
def Servers.state (servers : Servers) : State Double := (servers.cores servers.current).state

/-- A request was sent. -/
def Entry.isRequest : Entry → Bool
  | .request _ => true
  | _ => false

/-- A state was decoded. -/
def Entry.isDecoded : Entry → Bool
  | .decoded _ => true
  | _ => false

/-- The loss of the connection was reported. -/
def Entry.isLoss : Entry → Bool
  | .onDisConnect => true
  | _ => false

/-- What is left of a state when the connection is lost. -/
def State.lost (state : State Double) : State Double :=
  { state with machineState := ControlState.noServer.code }

/-- What is left of a state after entries that decode none. -/
def State.after (state : State Double) (entries : List Entry) : State Double :=
  if entries.any Entry.isLoss then state.lost else state

theorem Session.onDisconnect_cases (session : Session) :
    ∃ entries, session.onDisconnect.log = session.log ++ entries ∧
      entries.any Entry.isDecoded = false ∧ entries.any Entry.isRequest = false ∧
      session.onDisconnect.client.state = session.client.state.after entries := by
  rw [onDisconnect_client]
  simp only [onDisconnect]
  split <;> split
  · exact ⟨[.onDisConnect, .retryTimer 100], by simp, rfl, rfl, rfl⟩
  · exact ⟨[.onDisConnect, .retryTimer 1000], by simp, rfl, rfl, rfl⟩
  · exact ⟨[.retryTimer 100], rfl, rfl, rfl, rfl⟩
  · exact ⟨[.retryTimer 1000], rfl, rfl, rfl, rfl⟩

/-- The state that the server answers is its own. -/
theorem Core.state_of_reply {core : Core} {request : Request} {state : State Double}
    (result : (core.reply request).result = .state state) : core.state = state := by
  simp only [reply] at result
  split at result
  · cases result
  · split at result
    · exact Reply.state.inj result
    · cases result

namespace Station

/-- What is on its way to the client has the property. -/
structure Carrying (property : Reply → Prop) (station : Station) : Prop where
  sent : ∀ response ∈ station.reply,
    response.request.msgid < station.session.client.status.attempts
  slot : ∃ slot, station.session.client.status.Shows slot ∧ ∀ {response},
    station.Carries slot response → property response.result

variable {property other : Reply → Prop} {station next : Station}

theorem Carrying.orderly (carrying : station.Carrying property) : station.session.Orderly := by
  obtain ⟨slot, shows, -⟩ := carrying.slot
  exact ⟨slot, shows⟩

theorem Carrying.mono (carrying : station.Carrying property)
    (weaken : ∀ reply, property reply → other reply) : station.Carrying other := by
  obtain ⟨slot, shows, carried⟩ := carrying.slot
  exact ⟨carrying.sent, slot, shows, fun arrives => weaken _ (carried arrives)⟩

theorem Carrying.of_same (carrying : station.Carrying property)
    (status : next.session.client.status = station.session.client.status)
    (reply : next.reply = station.reply) : next.Carrying property where
  sent := by
    rw [reply, status]
    exact carrying.sent
  slot := by
    obtain ⟨slot, shows, carried⟩ := carrying.slot
    refine ⟨slot, by rwa [status], fun arrives => ?_⟩
    rw [Carries, reply] at arrives
    exact carried arrives

/-- Nothing is on its way to a slot that was freed. -/
theorem Carrying.of_free (carrying : station.Carrying property) {session : Session}
    (shows : session.client.status.Shows .free)
    (attempts : session.client.status.attempts = station.session.client.status.attempts) :
    Carrying other { station with session } where
  sent := by
    dsimp only
    rw [attempts]
    exact carrying.sent
  slot := ⟨.free, shows, by simp [Carries]⟩

/-- A request that is sent now has not been answered. -/
theorem Carrying.request (carrying : station.Carrying property)
    (idle : station.session.client.status.call.busy = false) {client : Client}
    (status : client.status = station.session.client.status)
    (method : String) (connection : Nat) (err : Option String) (log : List Entry) :
    Carrying other
      { station with
        session :=
          { station.session with client := (client.request method connection err).1, log } } where
  sent response replied := by
    dsimp only
    rw [Client.request, status, Line.callAsync_of_idle idle]
    exact (carrying.sent response replied).trans (Nat.lt_succ_self _)
  slot := by
    obtain ⟨slot, shows, -⟩ := carrying.slot
    rw [← status] at shows idle
    refine ⟨_, Line.callAsync_shows shows method connection err,
      fun {response} arrives => ?_⟩
    rcases Slot.callAsync_of_idle (shows.idle idle) ⟨client.status.attempts, method, connection⟩
      err.isNone with taken | taken
    · rw [Carries, taken] at arrives
      obtain held | ⟨same, replied⟩ := arrives
      · cases held
      · have number := carrying.sent response replied
        rw [← Slot.awaiting.inj same, status] at number
        exact (Nat.lt_irrefl _ number).elim
    · simp [Carries, taken] at arrives

/-- The state that the client shows. -/
def display (station : Station) : State Double := station.session.client.state

/-- What a step may do, with the entries that it adds to the log: the client shows what it did, a
loss apart, or a state that has arrived; and nothing is on its way any more, unless no state was
decoded and no request sent. -/
structure Passes (property other : Reply → Prop) (station next : Station) (entries : List Entry) :
    Prop where
  display : if entries.any Entry.isDecoded then property (.state next.display)
    else next.display = station.display.after entries
  carries : entries.any Entry.isDecoded = false ∧ entries.any Entry.isRequest = false ∧
    next.Carrying other ∨ ∀ any, next.Carrying any

theorem any_request (client : Client) (method : String) (connection : Nat)
    (err : Option String) :
    (client.request method connection err).2.any Entry.isDecoded = false ∧
      (client.request method connection err).2.any Entry.isLoss = false := by
  constructor
  all_goals
    refine List.any_eq_false.mpr fun entry recorded => ?_
    rw [Client.request_entries recorded]
    exact Bool.false_ne_true

theorem Carrying.poll (carrying : station.Carrying property) {err : Option String}
    {client : Client} {entries : List Entry}
    (polled : station.session.client.PollCase station.session.connected
      station.session.connection err client entries) (log : List Entry) :
    station.Passes property property
      { station with session := { station.session with client, log } } entries := by
  obtain ⟨slot, shows, carried⟩ := carrying.slot
  cases polled with
  | unchanged => exact ⟨rfl, .inl ⟨rfl, rfl, carrying.of_same rfl rfl⟩⟩
  | refuse _ _ offered | accept _ _ offered =>
      obtain ⟨response, rfl, -⟩ := (Client.offeredVersion_eq_some shows).mp offered
      exact ⟨rfl, .inr fun _ => carrying.of_free (Line.clearResponse_shows shows) rfl⟩
  | askVersion _ _ idle | askState _ _ idle =>
      refine ⟨?_, .inr fun _ => carrying.request idle rfl _ _ _ _⟩
      rw [(any_request ..).1, State.after, (any_request ..).2]
      rfl
  | @readState response state _ _ offered =>
      obtain ⟨rfl, -, result⟩ := Client.offeredState_eq_some shows offered
      have read : station.session.client.readState.1.state = state := by
        rw [Client.readState, offered]
      refine ⟨?_, .inr fun _ => carrying.request shows.1 (Client.readState_status _) _ _ _ _⟩
      have arrived := carried (.inl rfl)
      rwa [result, ← read] at arrived

theorem Carrying.session (carrying : station.Carrying property) {event : Event}
    {session : Session} (moved : Session.machine.step station.session event = some session)
    (unanswered : ∀ response, event ≠ .callback (.response response)) :
    ∃ entries, session.log = station.session.log ++ entries ∧
      station.Passes property property { station with session } entries := by
  cases Session.step_cases carrying.orderly moved with
  | poll polled => exact ⟨_, rfl, carrying.poll polled _⟩
  | setBusy => exact ⟨_, rfl, rfl, .inl ⟨rfl, rfl, carrying.of_same rfl rfl⟩⟩
  | ignored | connect =>
      exact ⟨[], (List.append_nil _).symm, rfl, .inl ⟨rfl, rfl, carrying.of_same rfl rfl⟩⟩
  | @callback callback status served =>
      obtain ⟨slot, shows, -⟩ := carrying.slot
      obtain ⟨nextSlot, called, nextShows⟩ := Line.callback_shows shows served
      obtain ⟨awaited, rfl⟩ := Line.callback_eq_some served
      obtain rfl := Line.awaiting_of_mem shows awaited
      cases callback with
      | response response => exact (unanswered response rfl).elim
      | error request text =>
          rw [Slot.callback, if_pos rfl] at called
          obtain rfl := Option.some.inj called
          exact ⟨_, rfl, rfl, .inr fun _ => carrying.of_free nextShows rfl⟩
  | lose | fail =>
      obtain ⟨entries, log, decodes, asks, shows⟩ := Session.onDisconnect_cases station.session
      refine ⟨entries, log, ?_, .inl ⟨decodes, asks, ?_⟩⟩
      · rw [decodes]
        exact shows
      · exact carrying.of_same (Session.onDisconnect_status _) rfl

theorem Carrying.serve (carrying : station.Carrying property) {request : Request} {core : Core}
    (awaited : request ∈ station.session.client.status.awaited)
    (now : other (core.reply request).result) :
    Carrying other { station with reply := some (core.reply request) } where
  sent response replied := by
    obtain ⟨slot, shows, -⟩ := carrying.slot
    obtain rfl := Line.awaiting_of_mem shows awaited
    obtain rfl := Option.some.inj replied
    exact shows.2.2.2.2.2
  slot := by
    obtain ⟨slot, shows, -⟩ := carrying.slot
    obtain rfl := Line.awaiting_of_mem shows awaited
    refine ⟨_, shows, fun {response} arrives => ?_⟩
    obtain held | ⟨-, replied⟩ := arrives
    · cases held
    · obtain rfl := Option.some.inj replied
      exact now

/-- The reply arrives. -/
theorem Carrying.deliver (carrying : station.Carrying property) {response : Response Reply}
    (replied : station.reply = some response) {session : Session}
    (moved : Session.machine.step station.session (.callback (.response response)) =
      some session) :
    session.log = station.session.log ++ [.answered response] ∧
      session.client.state = station.display ∧ Carrying property { station with session } := by
  obtain ⟨status, served, rfl⟩ := Option.map_eq_some_iff.mp moved
  obtain ⟨slot, shows, carried⟩ := carrying.slot
  obtain ⟨nextSlot, called, nextShows⟩ := Line.callback_shows shows served
  obtain ⟨awaited, rfl⟩ := Line.callback_eq_some served
  obtain rfl := Line.awaiting_of_mem shows awaited
  rw [Slot.callback, if_pos rfl] at called
  obtain rfl := Option.some.inj called
  refine ⟨rfl, rfl, carrying.sent, _, nextShows, fun {arrived} arrives => ?_⟩
  obtain held | ⟨sent, -⟩ := arrives
  · obtain rfl := Slot.holding.inj held
    exact carried (.inr ⟨rfl, replied⟩)
  · cases sent

theorem Carrying.step (carrying : station.Carrying property) {servers : Servers}
    {event : ClientEvent} (weaken : ∀ reply, property reply → other reply)
    (now : ∀ request, other ((servers.cores servers.current).reply request).result)
    (moved : station.step servers event = some next) :
    ∃ entries, next.session.log = station.session.log ++ entries ∧
      station.Passes property other next entries := by
  have still {after : Station} (session : after.session = station.session)
      (reply : after.reply = station.reply) :
      ∃ entries, after.session.log = station.session.log ++ entries ∧
        station.Passes property other after entries := by
    have carries := (carrying.mono weaken).of_same (by rw [session]) reply
    refine ⟨[], by rw [session, List.append_nil], ?_, .inl ⟨rfl, rfl, carries⟩⟩
    change after.session.client.state = station.session.client.state
    rw [session]
  cases step_cases moved with
  | session unanswered _ stepped =>
      obtain ⟨entries, log, passes⟩ := carrying.session stepped unanswered
      refine ⟨entries, log, passes.display, passes.carries.imp_left ?_⟩
      exact fun ⟨decodes, asks, carries⟩ => ⟨decodes, asks, carries.mono weaken⟩
  | connect stepped =>
      obtain ⟨-, stepped⟩ := Option.ite_none_left_eq_some.mp stepped
      obtain rfl := Option.some.inj stepped
      exact ⟨[], (List.append_nil _).symm, rfl,
        .inl ⟨rfl, rfl, (carrying.mono weaken).of_same rfl rfl⟩⟩
  | serve awaited =>
      have carries := carrying.serve awaited (now _)
      exact ⟨[], (List.append_nil _).symm, rfl, .inl ⟨rfl, rfl, carries⟩⟩
  | deliver replied delivered =>
      obtain ⟨log, displays, carries⟩ := carrying.deliver replied delivered
      exact ⟨_, log, displays, .inl ⟨rfl, rfl, carries.mono weaken⟩⟩
  | call =>
      refine still ?_ ?_
      · rw [getNext]
        split <;> rfl
      · rw [getNext]
        split <;> rfl
  | answer | finish | fail => exact still rfl rfl

end Station

/-- An event of a plant is one of the client, or it leaves the client as it was. -/
theorem Plant.station_cases {ι : Type*} [DecidableEq ι] (client : ι) {plant next : Plant ι}
    {event : PlantEvent ι} (moved : plant.step event = some next) :
    (∃ own, event = .client client own ∧
      (plant.stations client).step plant.servers own = some (next.stations client)) ∨
    next.stations client = plant.stations client ∧ ∀ own, event ≠ .client client own := by
  cases event with
  | server event =>
      obtain ⟨servers, -, rfl⟩ := Option.map_eq_some_iff.mp moved
      refine .inr ⟨rfl, fun own same => ?_⟩
      cases same
  | client other event =>
      obtain ⟨station, stepped, rfl⟩ := Option.map_eq_some_iff.mp moved
      rcases eq_or_ne client other with rfl | different
      · have same : Function.update plant.stations client station client = station :=
          Function.update_self ..
        exact .inl ⟨event, rfl, stepped.trans (congrArg some same.symm)⟩
      · refine .inr ⟨Function.update_of_ne different .., fun own same => different ?_⟩
        exact (PlantEvent.client.inj same).1.symm

end CncRemote
