import CncRemote.Plant

/-!
# Delivery of errors and messages

The counter of a list reaches a client in a state, and the texts are then fetched one by one by
their index.  While one process runs, its lists only grow and the counters trail them; a state on
its way to a client is at least as new as the one it shows.  So the index of a client never passes
the end of a list, and what was fetched is an initial part of it.
-/

namespace CncRemote

/-- The state counts at least what the client has been told, and no more than the server counts. -/
def State.Between (state : State Double) (client : Client) (core : Core) : Prop :=
  ∀ kind, (client.state.count kind).toNat ≤ (state.count kind).toNat ∧
    (state.count kind).toNat ≤ (core.state.count kind).toNat

theorem Session.onDisconnect_count (session : Session) :
    session.onDisconnect.client.state.count = session.client.state.count := by
  rw [onDisconnect_client]
  split
  · funext kind
    cases kind <;> rfl
  · rfl

namespace Station

/-- The response is held by the client or on its way to it. -/
def Carries (station : Station) (slot : Slot Reply) (response : Response Reply) : Prop :=
  slot = .holding response ∨ slot = .awaiting response.request ∧ station.reply = some response

/-- What the client has been told is at least `base` and no more than the server counts, and the
states that it may still read lie in between. -/
structure Informed (base : Kind → Nat) (core : Core) (station : Station) : Prop where
  shown : ∀ kind, base kind ≤ (station.session.client.state.count kind).toNat ∧
    (station.session.client.state.count kind).toNat ≤ (core.state.count kind).toNat
  sent : ∀ response ∈ station.reply,
    response.request.msgid < station.session.client.status.attempts
  slot : ∃ slot, station.session.client.status.Shows slot ∧ ∀ {response state},
    station.Carries slot response → response.result = .state state →
      state.Between station.session.client core

/-- What has been fetched is an initial part of the list, and the call in progress fetches the text
that comes next. -/
structure Fetching (core : Core) (station : Station) : Prop where
  given : ∀ kind, (station.given kind).map Prod.snd =
    (core.entries kind).take (station.index kind).toNat
  reached : ∀ kind, (station.index kind).toNat ≤ (core.entries kind).length
  next : ∀ fetch ∈ station.fetch, fetch.index = station.index fetch.kind ∧
    fetch.index.toNat < (core.entries fetch.kind).length ∧
    ∀ answer ∈ fetch.text, (core.entries fetch.kind)[fetch.index.toNat]? = some answer.2

section Informed

variable {base : Kind → Nat} {core : Core} {station : Station}

theorem Informed.orderly (informed : station.Informed base core) : station.session.Orderly := by
  obtain ⟨slot, shows, -⟩ := informed.slot
  exact ⟨slot, shows⟩

theorem Informed.of_same {next : Station} (informed : station.Informed base core)
    (status : next.session.client.status = station.session.client.status)
    (counts : next.session.client.state.count = station.session.client.state.count)
    (reply : next.reply = station.reply) : next.Informed base core where
  shown kind := by
    rw [counts]
    exact informed.shown kind
  sent := by
    rw [reply, status]
    exact informed.sent
  slot := by
    obtain ⟨slot, shows, between⟩ := informed.slot
    refine ⟨slot, by rwa [status], fun carried result kind => ?_⟩
    rw [counts]
    rw [Carries, reply] at carried
    exact between carried result kind

/-- The slot was freed. -/
theorem Informed.of_free (informed : station.Informed base core) {session : Session}
    (shows : session.client.status.Shows .free)
    (counts : session.client.state.count = station.session.client.state.count)
    (attempts : session.client.status.attempts = station.session.client.status.attempts) :
    Informed base core { station with session } where
  shown kind := by
    dsimp only
    rw [counts]
    exact informed.shown kind
  sent := by
    dsimp only
    rw [attempts]
    exact informed.sent
  slot := ⟨.free, shows, by simp [Carries]⟩

/-- A request that is sent now has not been answered. -/
theorem Informed.request (informed : station.Informed base core)
    (idle : station.session.client.status.call.busy = false) {client : Client}
    (status : client.status = station.session.client.status)
    (shown : ∀ kind, base kind ≤ (client.state.count kind).toNat ∧
      (client.state.count kind).toNat ≤ (core.state.count kind).toNat)
    (method : String) (connection : Nat) (err : Option String) (log : List Entry) :
    Informed base core
      { station with
        session :=
          { station.session with client := (client.request method connection err).1, log } } where
  shown := shown
  sent response replied := by
    dsimp only
    rw [Client.request, status, Line.callAsync_of_idle idle]
    exact (informed.sent response replied).trans (Nat.lt_succ_self _)
  slot := by
    obtain ⟨slot, shows, -⟩ := informed.slot
    rw [← status] at shows idle
    refine ⟨_, Line.callAsync_shows shows method connection err,
      fun {response _} carried _ => ?_⟩
    rcases Slot.callAsync_of_idle (shows.idle idle) ⟨client.status.attempts, method, connection⟩
      err.isNone with taken | taken
    · -- the request has a number that no reply can have
      rw [Carries, taken] at carried
      obtain held | ⟨same, replied⟩ := carried
      · cases held
      · have number := informed.sent response replied
        rw [← Slot.awaiting.inj same, status] at number
        exact (Nat.lt_irrefl _ number).elim
    · simp [Carries, taken] at carried

theorem Informed.poll (informed : station.Informed base core) {err : Option String}
    {client : Client} {entries : List Entry}
    (polled : station.session.client.PollCase station.session.connected
      station.session.connection err client entries) (log : List Entry) :
    Informed base core { station with session := { station.session with client, log } } := by
  obtain ⟨slot, shows, between⟩ := informed.slot
  cases polled with
  | unchanged => exact informed.of_same rfl rfl rfl
  | refuse _ _ offered | accept _ _ offered =>
      obtain ⟨response, rfl, -⟩ := (Client.offeredVersion_eq_some shows).mp offered
      exact informed.of_free (Line.clearResponse_shows shows) rfl rfl
  | askVersion _ _ idle | askState _ _ idle =>
      exact informed.request idle rfl informed.shown _ _ _ _
  | @readState response state _ _ offered =>
      obtain ⟨rfl, -, result⟩ := Client.offeredState_eq_some shows offered
      have read : station.session.client.readState.1.state = state := by
        rw [Client.readState, offered]
      refine informed.request shows.1 (Client.readState_status _) (fun kind => ?_) _ _ _ _
      have newer := between (.inl rfl) result kind
      rw [read]
      exact ⟨(informed.shown kind).1.trans newer.1, newer.2⟩

theorem Informed.session (informed : station.Informed base core) {event : Event}
    {session : Session} (moved : Session.machine.step station.session event = some session)
    (unanswered : ∀ response, event ≠ .callback (.response response)) :
    Informed base core { station with session } := by
  cases Session.step_cases informed.orderly moved with
  | poll polled => exact informed.poll polled _
  | setBusy | ignored | connect => exact informed.of_same rfl rfl rfl
  | @callback callback status served =>
      obtain ⟨slot, shows, -⟩ := informed.slot
      obtain ⟨nextSlot, called, nextShows⟩ := Line.callback_shows shows served
      obtain ⟨awaited, rfl⟩ := Line.callback_eq_some served
      obtain rfl := Line.awaiting_of_mem shows awaited
      cases callback with
      | response response => exact (unanswered response rfl).elim
      | error request text =>
          rw [Slot.callback, if_pos rfl] at called
          obtain rfl := Option.some.inj called
          exact informed.of_free nextShows rfl rfl
  | lose | fail =>
      exact informed.of_same (Session.onDisconnect_status _) (Session.onDisconnect_count _) rfl

theorem Informed.serve (informed : station.Informed base core) {request : Request}
    (awaited : request ∈ station.session.client.status.awaited) :
    Informed base core { station with reply := some (core.reply request) } where
  shown := informed.shown
  sent response replied := by
    obtain ⟨slot, shows, -⟩ := informed.slot
    obtain rfl := Line.awaiting_of_mem shows awaited
    obtain rfl := Option.some.inj replied
    exact shows.2.2.2.2.2
  slot := by
    obtain ⟨slot, shows, -⟩ := informed.slot
    obtain rfl := Line.awaiting_of_mem shows awaited
    refine ⟨_, shows, fun {response state} carried result kind => ?_⟩
    obtain held | ⟨-, replied⟩ := carried
    · cases held
    · obtain rfl := Option.some.inj replied
      have same : core.state = state := by
        simp only [Core.reply] at result
        split at result
        · cases result
        · split at result
          · exact Reply.state.inj result
          · cases result
      rw [← same]
      exact ⟨(informed.shown kind).2, Nat.le_refl _⟩

/-- The reply arrives. -/
theorem Informed.deliver (informed : station.Informed base core) {response : Response Reply}
    (replied : station.reply = some response) {session : Session}
    (moved : Session.machine.step station.session (.callback (.response response)) =
      some session) : Informed base core { station with session } := by
  obtain ⟨status, served, rfl⟩ := Option.map_eq_some_iff.mp moved
  obtain ⟨slot, shows, between⟩ := informed.slot
  obtain ⟨nextSlot, called, nextShows⟩ := Line.callback_shows shows served
  obtain ⟨awaited, rfl⟩ := Line.callback_eq_some served
  obtain rfl := Line.awaiting_of_mem shows awaited
  rw [Slot.callback, if_pos rfl] at called
  obtain rfl := Option.some.inj called
  refine ⟨informed.shown, informed.sent, _, nextShows, fun {arrived state} carried result => ?_⟩
  obtain held | ⟨sent, -⟩ := carried
  · obtain rfl := Slot.holding.inj held
    exact between (.inr ⟨rfl, replied⟩) result
  · cases sent

theorem Informed.extend (informed : station.Informed base core) {later : Core}
    (grows : core.Extends later) : station.Informed base later where
  shown kind := ⟨(informed.shown kind).1, (informed.shown kind).2.trans (grows.counts kind)⟩
  sent := informed.sent
  slot := by
    obtain ⟨slot, shows, between⟩ := informed.slot
    refine ⟨slot, shows, fun carried result kind => ?_⟩
    have within := between carried result kind
    exact ⟨within.1, within.2.trans (grows.counts kind)⟩

end Informed
section Fetching

variable {core : Core} {station : Station}

/-- Neither the call in progress nor what was fetched is touched. -/
theorem Fetching.of_same {next : Station} (fetching : station.Fetching core)
    (index : next.index = station.index) (fetch : next.fetch = station.fetch)
    (given : next.given = station.given) : next.Fetching core where
  given := by
    rw [given, index]
    exact fetching.given
  reached := by
    rw [index]
    exact fetching.reached
  next := by
    rw [fetch, index]
    exact fetching.next

theorem Fetching.call (fetching : station.Fetching core) (trails : core.Trails) (kind : Kind)
    (shown : (station.session.client.state.count kind).toNat ≤ (core.state.count kind).toNat) :
    (station.getNext kind).Fetching core := by
  rw [getNext]
  split
  · exact fetching
  · rename_i pending
    refine ⟨fetching.given, fetching.reached, fun fetch asked => ?_⟩
    obtain rfl := Option.some.inj asked
    refine ⟨rfl, ?_, nofun⟩
    have below := UInt32.lt_iff_toNat_lt.mp (UInt32.not_le.mp pending)
    exact below.trans_le (shown.trans (trails.counted kind))

theorem Fetching.answer (fetching : station.Fetching core) {fetch : Fetch}
    (asked : station.fetch = some fetch) (server : Nat) :
    Fetching core
      { station with
        fetch := some
          { fetch with text := some (server, entryAt (core.entries fetch.kind) fetch.index) } }
    where
  given := fetching.given
  reached := fetching.reached
  next answered same := by
    obtain ⟨index, below, -⟩ := fetching.next fetch asked
    obtain rfl := Option.some.inj same
    refine ⟨index, below, fun answer text => ?_⟩
    obtain rfl := Option.some.inj text
    exact getElem?_entryAt below

theorem Fetching.finish (fetching : station.Fetching core) (fits : core.Fits) {fetch : Fetch}
    (asked : station.fetch = some fetch) {answer : Nat × Bytes}
    (answered : fetch.text = some answer) : (station.finish fetch answer).Fetching core := by
  obtain ⟨index, below, texts⟩ := fetching.next fetch asked
  have text := texts answer answered
  rw [index] at below text
  have advanced : (station.index fetch.kind + 1).toNat = (station.index fetch.kind).toNat + 1 := by
    rw [UInt32.toNat_add]
    exact Nat.mod_eq_of_lt (Nat.lt_of_le_of_lt below (fits fetch.kind))
  refine ⟨fun kind => ?_, fun kind => ?_, nofun⟩
  · rw [Station.finish]
    by_cases same : kind = fetch.kind
    · subst same
      simp only [Function.update_self, List.map_append, List.map_singleton]
      rw [advanced, List.take_add_one, text, fetching.given]
      rfl
    · simp only [Function.update_of_ne same]
      exact fetching.given kind
  · rw [Station.finish]
    by_cases same : kind = fetch.kind
    · subst same
      simp only [Function.update_self]
      rw [advanced]
      exact below
    · simp only [Function.update_of_ne same]
      exact fetching.reached kind

theorem Fetching.extend (fetching : station.Fetching core) {later : Core}
    (grows : core.Extends later) : station.Fetching later where
  given kind := by
    obtain ⟨rest, eq⟩ := grows.entries kind
    rw [fetching.given, ← eq, List.take_append_of_le_length (fetching.reached kind)]
  reached kind := (fetching.reached kind).trans (grows.entries kind).length_le
  next fetch asked := by
    obtain ⟨index, below, texts⟩ := fetching.next fetch asked
    obtain ⟨rest, eq⟩ := grows.entries fetch.kind
    rw [← eq]
    refine ⟨index, by simp; omega, fun answer text => ?_⟩
    rw [List.getElem?_append_left below]
    exact texts answer text

end Fetching

/-- The client is in step with the server. -/
structure Synced (base : Kind → Nat) (core : Core) (station : Station) : Prop where
  informed : station.Informed base core
  fetching : station.Fetching core

section Synced

variable {base : Kind → Nat} {station next : Station}

theorem start_synced (statusCache busyHeart heartBeat : Int32) :
    (start statusCache busyHeart heartBeat).Synced (fun _ => 0) .new where
  informed :=
    { shown := fun kind => by cases kind <;> exact ⟨Nat.le_refl _, Nat.le_refl _⟩
      sent := by simp [start]
      slot := ⟨.free, Line.new_shows, by simp [Carries]⟩ }
  fetching :=
    { given := fun _ => rfl
      reached := fun _ => Nat.le_refl _
      next := by simp [start] }

theorem Synced.extend {core later : Core} (synced : station.Synced base core)
    (grows : core.Extends later) : station.Synced base later :=
  ⟨synced.informed.extend grows, synced.fetching.extend grows⟩

theorem synced_step {servers : Servers} {event : ClientEvent}
    (trails : (servers.cores servers.current).Trails)
    (fits : (servers.cores servers.current).Fits)
    (synced : station.Synced base (servers.cores servers.current))
    (moved : station.step servers event = some next) :
    next.Synced base (servers.cores servers.current) := by
  obtain ⟨informed, fetching⟩ := synced
  cases step_cases moved with
  | session unanswered _ stepped =>
      exact ⟨informed.session stepped unanswered, fetching.of_same rfl rfl rfl⟩
  | connect stepped =>
      exact ⟨(informed.session stepped (by simp)).of_same rfl rfl rfl,
        fetching.of_same rfl rfl rfl⟩
  | serve awaited => exact ⟨informed.serve awaited, fetching.of_same rfl rfl rfl⟩
  | deliver replied delivered =>
      exact ⟨informed.deliver replied delivered, fetching.of_same rfl rfl rfl⟩
  | @call kind =>
      refine ⟨?_, fetching.call trails kind (informed.shown kind).2⟩
      rw [getNext]
      split
      · exact informed
      · exact informed.of_same rfl rfl rfl
  | answer asked => exact ⟨informed.of_same rfl rfl rfl, fetching.answer asked _⟩
  | finish asked answered =>
      exact ⟨informed.of_same rfl rfl rfl, fetching.finish fits asked answered⟩
  | fail => exact ⟨informed.of_same rfl rfl rfl, fetching.given, fetching.reached, nofun⟩

end Synced

/-- How many texts the state that the client shows counts. -/
def counted (station : Station) (kind : Kind) : Nat :=
  (station.session.client.state.count kind).toNat

/-- The texts that the calls of `GetNextError` or `GetNextMessage` have returned. -/
def obtained (station : Station) (kind : Kind) : List Bytes :=
  (station.given kind).map Prod.snd |>.filter (· ≠ [])

end Station

/-- The text that is passed to `LogError` or `LogMessage`, unless it is empty. -/
def ServerEvent.passed (kind : Kind) : ServerEvent → Option Bytes
  | .store other text => if other = kind ∧ text ≠ [] then some text else none
  | .tally | .update _ | .restart => none

/-- The texts that are passed to `LogError` or `LogMessage`, oldest first, except empty ones. -/
def PlantEvent.passed {ι : Type*} (kind : Kind) (events : List (PlantEvent ι)) : List Bytes :=
  events.filterMap fun event =>
    match event with
    | .server event => event.passed kind
    | .client _ _ => none

theorem PlantEvent.passed_append {ι : Type*} (kind : Kind) (front back : List (PlantEvent ι)) :
    passed kind (front ++ back) = passed kind front ++ passed kind back :=
  List.filterMap_append

namespace Servers

/-- One process is running and its lists fit in their counters. -/
def OneLifetime (servers : Servers) : Prop := servers.current = 0 ∧ (servers.cores 0).Fits

instance (servers : Servers) : Decidable servers.OneLifetime :=
  inferInstanceAs (Decidable (_ ∧ _))

/-- What a process does extends its lists. -/
theorem CoreCase.extends {core next : Core} {event : ServerEvent} (trails : core.Trails)
    (fits : core.Fits) (changed : CoreCase core event next) :
    next.Trails ∧ core.Extends next := by
  cases changed with
  | store filled => exact ⟨trails.store _ filled, Core.store_extends _ _ _⟩
  | ignored => exact ⟨trails, Core.Extends.refl _⟩
  | tally => exact ⟨trails.tally _, trails.tally_extends fits _⟩
  | update same => exact ⟨trails.update same, Core.update_extends _ same⟩

/-- A list gains exactly the texts that are passed. -/
theorem CoreCase.entries {core next : Core} {event : ServerEvent}
    (changed : CoreCase core event next) (kind : Kind) :
    next.entries kind = core.entries kind ++ (event.passed kind).toList := by
  cases changed with
  | @store other text filled =>
      rw [Core.entries_store, ServerEvent.passed]
      by_cases same : kind = other
      · simp [same, filled]
      · simp [same, Ne.symm same]
  | ignored => simp [ServerEvent.passed]
  | tally => simp [Core.tally, ServerEvent.passed]
  | update => simp [Core.update, ServerEvent.passed]

theorem coreCase_of_step {servers next : Servers} {event : ServerEvent}
    (running : servers.current = 0) (same : next.current = 0)
    (moved : servers.step event = some next) :
    CoreCase (servers.cores 0) event (next.cores 0) := by
  cases step_cases moved with
  | running changed =>
      rw [running] at changed
      simpa [setCore, running] using changed
  | restart => cases same

end Servers

namespace Plant

variable {ι : Type*}

/-- Every client is in step with the process that runs. -/
structure Synced (base : ι → Kind → Nat) (plant : Plant ι) : Prop where
  trails : (plant.servers.cores 0).Trails
  stations : ∀ client, (plant.stations client).Synced (base client) (plant.servers.cores 0)

theorem start_synced (memory : ι → Int32 × Int32 × Int32) :
    (start memory).Synced fun _ _ => 0 where
  trails := Core.new_trails
  stations _ := Station.start_synced _ _ _

theorem Synced.rebase {base : ι → Kind → Nat} {plant : Plant ι} (synced : plant.Synced base) :
    plant.Synced fun client => (plant.stations client).counted where
  trails := synced.trails
  stations client :=
    have informed := (synced.stations client).informed
    { informed :=
        { informed with shown := fun kind => ⟨Nat.le_refl _, (informed.shown kind).2⟩ }
      fetching := (synced.stations client).fetching }

variable [DecidableEq ι]

theorem synced_step {base : ι → Kind → Nat} {plant next : Plant ι} {event : PlantEvent ι}
    (lifetime : plant.servers.OneLifetime) (after : next.servers.OneLifetime)
    (synced : plant.Synced base) (moved : machine.step plant event = some next) :
    next.Synced base := by
  cases event with
  | server event =>
      obtain ⟨servers, stepped, rfl⟩ := Option.map_eq_some_iff.mp moved
      obtain ⟨running, fits⟩ := lifetime
      obtain ⟨trails, grows⟩ :=
        (Servers.coreCase_of_step running after.1 stepped).extends synced.trails fits
      exact ⟨trails, fun client => (synced.stations client).extend grows⟩
  | client client event =>
      obtain ⟨station, stepped, rfl⟩ := Option.map_eq_some_iff.mp moved
      obtain ⟨running, fits⟩ := lifetime
      refine ⟨synced.trails, fun other => ?_⟩
      by_cases same : other = client
      · subst same
        rw [← running] at fits
        have trails := synced.trails
        have stations := synced.stations other
        rw [← running] at trails stations
        have kept := Station.synced_step trails fits stations stepped
        rw [running] at kept
        simpa using kept
      · simpa [same] using synced.stations other

/-- The lists hold exactly the texts that were passed. -/
theorem entries_run (kind : Kind) {plant final : Plant ι} {events : List (PlantEvent ι)}
    (lifetime : machine.Always (fun plant => plant.servers.OneLifetime) plant events)
    (execution : machine.run plant events = some final) :
    (final.servers.cores 0).entries kind =
      (plant.servers.cores 0).entries kind ++ PlantEvent.passed kind events := by
  induction events generalizing plant with
  | nil =>
      obtain rfl : plant = final := by simpa using execution
      simp [PlantEvent.passed]
  | cons event events ih =>
      obtain ⟨next, step, rest⟩ := Machine.run_cons_eq_some.mp execution
      have after := lifetime.2 next step
      rw [ih after rest]
      cases event with
      | server event =>
          obtain ⟨servers, stepped, rfl⟩ := Option.map_eq_some_iff.mp step
          have changed := Servers.coreCase_of_step lifetime.1.1 after.start.1 stepped
          rw [changed.entries, List.append_assoc]
          congr 1
          cases passed : event.passed kind <;> simp [PlantEvent.passed, passed]
      | client client event =>
          obtain ⟨station, -, rfl⟩ := Option.map_eq_some_iff.mp step
          simp [PlantEvent.passed]

omit [DecidableEq ι] in
/-- What a client has obtained is an initial part of the list. -/
theorem Synced.obtained {base : ι → Kind → Nat} {plant : Plant ι} (synced : plant.Synced base)
    (client : ι) (kind : Kind) :
    (plant.stations client).obtained kind =
      ((plant.servers.cores 0).entries kind).take ((plant.stations client).index kind).toNat := by
  rw [Station.obtained, (synced.stations client).fetching.given]
  refine List.filter_eq_self.mpr fun text taken => ?_
  have filled : text ≠ [] := by
    rintro rfl
    exact synced.trails.filled kind (List.mem_of_mem_take taken)
  simpa using filled

/-- While one process runs, what a client has obtained is an initial part of what was passed to be
logged; and once nothing is pending, it has all that any state it has shown before counts. -/
theorem obtained_in_order (memory : ι → Int32 × Int32 × Int32) {front back : List (PlantEvent ι)}
    (lifetime : machine.Always (fun plant => plant.servers.OneLifetime) (start memory)
      (front ++ back)) {middle final : Plant ι}
    (reached : machine.run (start memory) front = some middle)
    (continued : machine.run middle back = some final) (client : ι) (kind : Kind) :
    (final.stations client).obtained kind <+: PlantEvent.passed kind (front ++ back) ∧
      (middle.stations client).counted kind ≤ (PlantEvent.passed kind front).length ∧
      ((final.stations client).has kind = false →
        (PlantEvent.passed kind front).take ((middle.stations client).counted kind) <+:
          (final.stations client).obtained kind) := by
  have before := lifetime.of_prefix (List.prefix_append front back)
  have after := lifetime.rest reached
  have synced := before.invariant_of_run synced_step (start_synced memory) reached
  have kept := after.invariant_of_run synced_step synced.rebase continued
  have first : (middle.servers.cores 0).entries kind = PlantEvent.passed kind front :=
    entries_run kind before reached
  have all : (final.servers.cores 0).entries kind = PlantEvent.passed kind (front ++ back) := by
    rw [entries_run kind after continued, first, PlantEvent.passed_append]
  have within : (middle.stations client).counted kind ≤ (PlantEvent.passed kind front).length := by
    rw [← first]
    exact ((synced.stations client).informed.shown kind).2.trans (synced.trails.counted kind)
  rw [kept.obtained, all]
  refine ⟨List.take_prefix _ _, within, fun nothing => ?_⟩
  have read : (middle.stations client).counted kind ≤
      ((final.stations client).index kind).toNat := by
    refine (((kept.stations client).informed.shown kind).1).trans ?_
    rw [Station.has, decide_eq_false_iff_not, UInt32.not_lt] at nothing
    exact UInt32.le_iff_toNat_le.mp nothing
  have part : (PlantEvent.passed kind front ++ PlantEvent.passed kind back).take
      ((middle.stations client).counted kind) =
        (PlantEvent.passed kind front).take ((middle.stations client).counted kind) :=
    List.take_append_of_le_length within
  rw [PlantEvent.passed_append, ← part]
  exact List.take_prefix_take_left read

/-- The error that the state counts is obtained, though another one is logged meanwhile. -/
theorem obtained_in_order_oneError :
    ∃ middle final,
      machine.run (start fun _ => (0, 0, 0)) (logError [97] ++ readState) = some middle ∧
      machine.run middle (logError [98] ++ getError) = some final ∧
      (final.stations ()).obtained .error <+:
        PlantEvent.passed .error (logError [97] ++ readState ++ (logError [98] ++ getError)) ∧
      (PlantEvent.passed .error (logError [97] ++ readState)).take
          ((middle.stations ()).counted .error) <+:
        (final.stations ()).obtained .error := by
  have lifetime : machine.Always (fun plant => plant.servers.OneLifetime)
      (start fun _ : Unit => (0, 0, 0))
      (logError [97] ++ readState ++ (logError [98] ++ getError)) := by decide +kernel
  obtain ⟨middle, final, reached, continued, nothing⟩ : ∃ middle final,
      machine.run (start fun _ : Unit => (0, 0, 0)) (logError [97] ++ readState) = some middle ∧
        machine.run middle (logError [98] ++ getError) = some final ∧
        (final.stations ()).has .error = false := ⟨_, _, rfl, rfl, rfl⟩
  obtain ⟨inOrder, -, complete⟩ :=
    obtained_in_order (fun _ => (0, 0, 0)) lifetime reached continued () .error
  exact ⟨middle, final, reached, continued, inOrder, complete nothing⟩

end Plant

end CncRemote
