import CncRemote.Carrying
import CncRemote.LeadsTo
import CncRemote.Polling

/-!
# Getting to see the machine

A request of `Poll` that cannot be sent leaves its `RemoteCall` busy for good.  `refreshes_or_stays`
says that nothing else keeps a client from the present state of the machine, however the run has
been so far: after such a failure the client never decodes a state again, and without one a few
polls are enough.
-/

namespace CncRemote

/-- The state is this one, or what is left of it when the connection is lost. -/
def State.SameOrLost (state read : State Double) : Prop :=
  state = read ∨ state = read.lost

theorem State.SameOrLost.trans {state middle read : State Double} (first : state.SameOrLost middle)
    (second : middle.SameOrLost read) : state.SameOrLost read := by
  rcases first with rfl | rfl
  · exact second
  · rcases second with rfl | rfl <;> exact .inr (.refl _)

theorem State.SameOrLost.rfl {state : State Double} : state.SameOrLost state := .inl (.refl state)

/-- A version in the reply is not too old. -/
def Reply.Supported (reply : Reply) : Prop :=
  ∀ ver, reply = .float ver → ver.lt minProtocolVersion = false

theorem Core.supported_reply (core : Core) (request : Request) :
    (core.reply request).result.Supported := by
  intro ver result
  simp only [reply] at result
  split at result
  · obtain rfl := Reply.float.inj result
    rfl
  · split at result <;> cases result

namespace Station

variable {station next : Station} {servers : Servers} {event : ClientEvent}

/-- If the event makes `Poll` send a request, then `Send` returns `LNR_OK`. -/
def SendSucceeds (station : Station) : ClientEvent → Prop
  | .session event => station.session.SendSucceeds event
  | .serve | .deliver | .call _ | .answer | .finish | .fail => True

/-- The number of states that the client has decoded. -/
def decoded (station : Station) : Nat := station.session.log.countP Entry.isDecoded

/-- The status call can be used, and no version that is known or on its way is too old. -/
structure Sound (station : Station) : Prop where
  carrying : station.Carrying Reply.Supported
  accepted : station.session.client.serverVer.lt (.finite 0) = false
  unjammed : station.session.client.status.Unjammed

theorem start_sound (statusCache busyHeart heartBeat : Int32) :
    (start statusCache busyHeart heartBeat).Sound where
  carrying :=
    { sent := by simp [start]
      slot := ⟨.free, Line.new_shows, by simp [start, Carries]⟩ }
  accepted := rfl
  unjammed := ⟨.free, Line.new_shows, nofun⟩

theorem accepted_step (carrying : station.Carrying Reply.Supported)
    (accepted : station.session.client.serverVer.lt (.finite 0) = false)
    (moved : station.step servers event = some next) :
    next.session.client.serverVer.lt (.finite 0) = false := by
  cases step_cases moved with
  | session _ _ stepped =>
      cases Session.step_cases carrying.orderly stepped with
      | poll polled =>
          obtain ⟨slot, shows, carried⟩ := carrying.slot
          cases polled with
          | unchanged | askVersion | askState => exact accepted
          | refuse _ _ offered old =>
              obtain ⟨response, rfl, -, result⟩ := (Client.offeredVersion_eq_some shows).mp offered
              rw [carried (.inl rfl) _ result] at old
              cases old
          | accept _ _ _ new =>
              exact Single.lt_eq_false_of_not_le (Client.le_eq_false_of_not_lt new)
          | readState =>
              change station.session.client.readState.1.serverVer.lt _ = false
              rwa [Client.readState_serverVer]
      | setBusy | ignored | connect | callback => exact accepted
      | lose | fail =>
          rw [Session.onDisconnect_serverVer]
          split
          · rfl
          · exact accepted
  | connect stepped =>
      obtain ⟨-, stepped⟩ := Option.ite_none_left_eq_some.mp stepped
      obtain rfl := Option.some.inj stepped
      exact accepted
  | deliver _ delivered =>
      obtain ⟨status, -, rfl⟩ := Option.map_eq_some_iff.mp delivered
      exact accepted
  | call =>
      rw [getNext]
      split <;> exact accepted
  | serve | answer | finish | fail => exact accepted

theorem unjammed_step (unjammed : station.session.client.status.Unjammed)
    (sent : station.SendSucceeds event) (moved : station.step servers event = some next) :
    next.session.client.status.Unjammed := by
  cases step_cases moved with
  | session _ _ stepped => exact Session.unjammed_step unjammed sent stepped
  | connect stepped =>
      have sent : station.session.SendSucceeds .connect := trivial
      exact Session.unjammed_step unjammed sent stepped
  | @deliver response _ _ delivered =>
      have sent : station.session.SendSucceeds (.callback (.response response)) := trivial
      exact Session.unjammed_step unjammed sent delivered
  | call =>
      rw [getNext]
      split <;> exact unjammed
  | serve | answer | finish | fail => exact unjammed

theorem Sound.step (sound : station.Sound) (sent : station.SendSucceeds event)
    (moved : station.step servers event = some next) : next.Sound where
  carrying := by
    obtain ⟨entries, -, passes⟩ :=
      sound.carrying.step (fun _ supported => supported) (Core.supported_reply _) moved
    rcases passes.carries with ⟨-, -, carrying⟩ | carrying
    · exact carrying
    · exact carrying _
  accepted := accepted_step sound.carrying sound.accepted moved
  unjammed := unjammed_step sound.unjammed sent moved

theorem Sound.decoded_le (sound : station.Sound) (moved : station.step servers event = some next) :
    station.decoded ≤ next.decoded := by
  obtain ⟨entries, log, -⟩ :=
    sound.carrying.step (fun _ supported => supported) (Core.supported_reply _) moved
  rw [decoded, decoded, log, List.countP_append]
  exact Nat.le_add_right _ _

/-- The last request could not be sent. -/
def Jammed (station : Station) : Prop := station.session.client.status.Shows .jammed

theorem Sound.jammed_of_unsent (sound : station.Sound) (unsent : ¬station.SendSucceeds event)
    (moved : station.step servers event = some next) : next.Jammed := by
  cases step_cases moved with
  | @session event _ _ _ stepped =>
      cases event with
      | command | callback | connect | lose | fail => exact (unsent trivial).elim
      | poll err =>
          obtain ⟨⟨up, idle, phase⟩, err_ne⟩ := Classical.not_imp.mp unsent
          obtain ⟨text, rfl⟩ := Option.ne_none_iff_exists'.mp err_ne
          obtain ⟨slot, shows, -⟩ := sound.unjammed
          have stuck (client : Client) (method : String)
              (same : client.status = station.session.client.status) :
              (client.status.callAsync method station.session.connection (some text)).Shows
                .jammed := by
            rw [same]
            exact Line.jammed_of_callAsync shows idle method _ text
          cases Session.step_cases sound.carrying.orderly stepped with
          | poll polled =>
              cases polled with
              | unchanged stays => simp [up, sound.accepted, idle] at stays
              | refuse _ handshake offered | accept _ handshake offered =>
                  rcases phase with serving | ⟨-, nothing⟩
                  · rw [handshake] at serving
                    cases serving
                  · rw [offered] at nothing
                    cases nothing
              | askVersion | askState => exact stuck _ _ rfl
              | readState => exact stuck _ _ (Client.readState_status _)
  | connect | deliver | call | serve | answer | finish | fail => exact (unsent trivial).elim

/-- Nothing that happens to such a client makes it decode a state. -/
theorem Jammed.step (jammed : station.Jammed) (moved : station.step servers event = some next) :
    next.Jammed ∧ next.decoded = station.decoded ∧ next.display.SameOrLost station.display := by
  cases step_cases moved with
  | session _ _ stepped =>
      cases Session.step_cases ⟨.jammed, jammed⟩ stepped with
      | poll polled =>
          cases polled with
          | unchanged => exact ⟨jammed, by simp [decoded], .rfl⟩
          | refuse _ _ offered | accept _ _ offered =>
              obtain ⟨response, held, -⟩ := (Client.offeredVersion_eq_some jammed).mp offered
              cases held
          | askVersion _ _ idle | askState _ _ idle =>
              rw [jammed.1] at idle
              cases idle
          | readState _ _ offered =>
              obtain ⟨held, -⟩ := Client.offeredState_eq_some jammed offered
              cases held
      | setBusy => exact ⟨jammed, by simp [decoded, Entry.isDecoded], .rfl⟩
      | ignored | connect => exact ⟨jammed, rfl, .rfl⟩
      | callback served =>
          obtain ⟨awaited, -⟩ := Line.callback_eq_some served
          cases Line.awaiting_of_mem jammed awaited
      | lose | fail =>
          obtain ⟨entries, log, ends⟩ := Session.onDisconnect_log station.session
          refine ⟨?_, ?_, ?_⟩
          · rw [Jammed, Session.onDisconnect_status]
            exact jammed
          · have none_decoded : entries.countP Entry.isDecoded = 0 := by
              refine List.countP_eq_zero.mpr fun entry member => ?_
              rcases ends entry member with rfl | ⟨ms, rfl⟩ <;> exact Bool.false_ne_true
            rw [decoded, decoded, log, List.countP_append, none_decoded, Nat.add_zero]
          · rw [display, Session.onDisconnect_client]
            split
            · exact .inr rfl
            · exact .rfl
  | connect stepped =>
      obtain ⟨-, stepped⟩ := Option.ite_none_left_eq_some.mp stepped
      obtain rfl := Option.some.inj stepped
      exact ⟨jammed, rfl, .rfl⟩
  | deliver _ delivered =>
      obtain ⟨status, served, -⟩ := Option.map_eq_some_iff.mp delivered
      obtain ⟨awaited, -⟩ := Line.callback_eq_some served
      cases Line.awaiting_of_mem jammed awaited
  | call =>
      rw [getNext]
      split <;> exact ⟨jammed, rfl, .rfl⟩
  | serve | answer | finish | fail => exact ⟨jammed, rfl, .rfl⟩

section Progress

/-- What happens to a client while nothing happens to the servers. -/
def machine (servers : Servers) : Machine Station ClientEvent :=
  ⟨fun station => station.step servers⟩

/-- What helps a client to the present state: it polls, the server answers and the answer arrives.
A connection is given up if it does not lead to the running process, and a request if it was not
sent on the present connection. -/
def Helps (servers : Servers) (station : Station) : ClientEvent → Prop
  | .session (.poll err) => err = none
  | .session (.callback (.error request _)) =>
      ¬(station.Reaches servers ∧ request.connection = station.session.connection)
  | .session .connect | .session .lose => ¬station.Reaches servers
  | .serve | .deliver => True
  | .session _ | .call _ | .answer | .finish | .fail => False

theorem Helps.sendSucceeds (helps : station.Helps servers event) : station.SendSucceeds event := by
  cases event with
  | session event =>
      cases event with
      | poll err => exact fun _ => helps
      | command | callback | connect | lose | fail => trivial
  | serve | deliver | call | answer | finish | fail => trivial

theorem Sound.exists_poll (sound : station.Sound) (servers : Servers) :
    ∃ client entries,
      station.session.client.PollCase station.session.connected station.session.connection none
        client entries ∧
      (machine servers).step station (.session (.poll none)) =
        some
          { station with
            session :=
              { station.session with client, log := station.session.log ++ entries } } := by
  obtain ⟨slot, shows, -⟩ := sound.unjammed
  exact ⟨_, _, Client.poll_cases shows _ _ _, rfl⟩

/-- A client that is not connected to the running process can connect to it. -/
theorem leadsTo_reaches (station : Station) :
    (machine servers).LeadsTo (Helps servers) 2 station fun final => final.Reaches servers := by
  have connects {station : Station} (down : station.session.connected = false) :
      (machine servers).LeadsTo (Helps servers) 1 station fun final =>
        final.Reaches servers := by
    have helps : station.Helps servers (.session .connect) := fun reaches => by
      rw [reaches.1] at down
      cases down
    have moved : (machine servers).step station (.session .connect) =
        some
          { station with
            session := station.session.onConnect
            peers := Function.update station.peers (station.session.connection + 1)
              servers.current } := by
      simp [machine, step, stepSession, Session.machine, Session.step, down, Session.onConnect]
    exact .step helps moved (.here ⟨rfl, Function.update_self ..⟩)
  rcases Classical.em (station.Reaches servers) with reaches | away
  · exact .here reaches
  · cases up : station.session.connected with
    | false => exact (connects up).within (Nat.le_succ 1)
    | true =>
        have helps : station.Helps servers (.session .lose) := away
        have moved : (machine servers).step station (.session .lose) =
            some { station with session := station.session.onDisconnect } := by
          simp [machine, step, stepSession, Session.machine, Session.step, up]
        exact .step helps moved (connects (Session.onDisconnect_connected _))

theorem exists_deliver {response : Response Reply} (replied : station.reply = some response)
    (awaits : station.session.client.status.Shows (.awaiting response.request))
    (servers : Servers) :
    ∃ status log, status.Shows (.holding response) ∧
      (machine servers).step station .deliver =
        some
          { station with
            session :=
              { station.session with client := { station.session.client with status }, log } } := by
  have awaited : response.request ∈ station.session.client.status.awaited := by
    rw [awaits.2.2.2.1]
    exact List.mem_singleton_self _
  obtain ⟨status, called⟩ : ∃ status,
      station.session.client.status.callback (.response response) = some status :=
    ⟨_, if_pos awaited⟩
  obtain ⟨slot, filled, shows⟩ := Line.callback_shows awaits called
  simp only [Slot.callback, Callback.request, if_true] at filled
  obtain rfl := Option.some.inj filled
  refine ⟨status, station.session.log ++ [.answered response], shows, ?_⟩
  simp [machine, step, replied, Session.machine, Session.step, Session.callback, called,
    Entry.ofCallback]

/-- The request is awaited, and can be answered by the running process. -/
structure Asked (servers : Servers) (request : Request) (station : Station) : Prop where
  reaches : station.Reaches servers
  awaits : station.session.client.status.Shows (.awaiting request)
  connection : request.connection = station.session.connection
  fresh : station.reply.map (·.request) ≠ some request

/-- The response of the running process to a request has arrived. -/
structure Told (servers : Servers) (request : Request) (station : Station) : Prop where
  reaches : station.Reaches servers
  holds : station.session.client.status.Shows
    (.holding ((servers.cores servers.current).reply request))

theorem Asked.leadsTo_told {request : Request} (asked : station.Asked servers request) :
    (machine servers).LeadsTo (Helps servers) 2 station fun final =>
      final.Told servers request ∧
        final.session.client.serverVer = station.session.client.serverVer := by
  have served : (machine servers).step station .serve =
      some { station with reply := some ((servers.cores servers.current).reply request) } := by
    simp [machine, step, asked.awaits.2.2.2.1, asked.reaches, asked.connection, asked.fresh]
  obtain ⟨status, log, holds, delivered⟩ :=
    @exists_deliver { station with reply := some ((servers.cores servers.current).reply request) }
      _ rfl asked.awaits servers
  have serves : station.Helps servers .serve := trivial
  have delivers (station : Station) : station.Helps servers .deliver := trivial
  exact .step serves served (.step (delivers _) delivered (.here ⟨⟨asked.reaches, holds⟩, rfl⟩))

/-- A client that awaits a response gets it, or gives up what was sent on an earlier connection. -/
theorem Sound.leadsTo_idle (sound : station.Sound) (reaches : station.Reaches servers) :
    (machine servers).LeadsTo (Helps servers) 2 station fun final =>
      final.Reaches servers ∧ final.session.client.status.call.busy = false := by
  obtain ⟨slot, shows, unjammed⟩ := sound.unjammed
  cases slot with
  | free | holding => exact .here ⟨reaches, shows.1⟩
  | jammed => exact (unjammed rfl).elim
  | awaiting request =>
      rcases Classical.em (station.reply.map (·.request) = some request) with replied | fresh
      · obtain ⟨response, arrived, rfl⟩ := Option.map_eq_some_iff.mp replied
        obtain ⟨status, log, holds, delivered⟩ := exists_deliver arrived shows servers
        have delivers : station.Helps servers .deliver := trivial
        exact .step delivers delivered (.here ⟨reaches, holds.1⟩)
      · rcases Classical.em (request.connection = station.session.connection) with same | earlier
        · refine (Asked.leadsTo_told ⟨reaches, shows, same, fresh⟩).mono ?_
          exact fun final told => ⟨told.1.reaches, told.1.holds.1⟩
        · have awaited : request ∈ station.session.client.status.awaited := by
            rw [shows.2.2.2.1]
            exact List.mem_singleton_self _
          have helps : station.Helps servers (.session (.callback (.error request ""))) :=
            fun present => earlier present.2
          have moved : (machine servers).step station (.session (.callback (.error request ""))) =
              some
                { station with
                  session :=
                    { station.session with
                      client :=
                        { station.session.client with
                          status :=
                            { station.session.client.status with
                              call := station.session.client.status.call.onError ""
                              awaited := station.session.client.status.awaited.erase request } }
                      log := station.session.log ++ [] } } := by
            simp [machine, Station.step, stepSession, Session.machine, Session.step,
              Session.callback, Line.callback, Callback.request, awaited, RemoteCall.callback,
              Entry.ofCallback]
          exact .step helps moved (.here ⟨reaches, rfl⟩)

theorem Sound.asked (sound : station.Sound) (reaches : station.Reaches servers)
    (idle : station.session.client.status.call.busy = false) {client : Client}
    (same : client.status = station.session.client.status) (method : String)
    (log : List Entry) :
    Asked servers
      ⟨station.session.client.status.attempts, method, station.session.connection⟩
      { station with
        session :=
          { station.session with
            client := (client.request method station.session.connection none).1, log } } where
  reaches := reaches
  awaits := by
    obtain ⟨slot, shows, unjammed⟩ := sound.unjammed
    rw [← same] at shows idle ⊢
    have called := Line.callAsync_shows shows method station.session.connection none
    cases slot with
    | free | holding => exact called
    | awaiting earlier => exact (shows.idle idle earlier rfl).elim
    | jammed => exact (unjammed rfl).elim
  connection := rfl
  fresh replied := by
    obtain ⟨response, arrived, number⟩ := Option.map_eq_some_iff.mp replied
    have older := sound.carrying.sent response arrived
    rw [number] at older
    exact Nat.lt_irrefl _ older

/-- The handshake is over. -/
def Serving (station : Station) : Prop :=
  station.session.client.serverVer.le (.finite 0) = false

theorem Sound.supported (sound : station.Sound) {ver : Single}
    (offered : station.session.client.offeredVersion = some ver) :
    ver.lt minProtocolVersion = false := by
  obtain ⟨slot, shows, carried⟩ := sound.carrying.slot
  obtain ⟨response, rfl, -, result⟩ := (Client.offeredVersion_eq_some shows).mp offered
  exact carried (.inl rfl) ver result

/-- A poll that finds a version ends the handshake. -/
theorem Sound.leadsTo_accepted (sound : station.Sound) (reaches : station.Reaches servers)
    (idle : station.session.client.status.call.busy = false)
    (handshake : station.session.client.serverVer.le (.finite 0) = true) {ver : Single}
    (offered : station.session.client.offeredVersion = some ver) :
    (machine servers).LeadsTo (Helps servers) 1 station fun final =>
      final.Reaches servers ∧ final.session.client.status.call.busy = false ∧ final.Serving := by
  obtain ⟨client, entries, polled, moved⟩ := sound.exists_poll servers
  have polls : station.Helps servers (.session (.poll none)) := rfl
  cases polled with
  | unchanged stays => simp [reaches.1, sound.accepted, idle] at stays
  | refuse _ _ found old =>
      rw [sound.supported found] at old
      cases old
  | accept _ _ _ new =>
      exact .step polls moved (.here ⟨reaches, idle, Client.le_eq_false_of_not_lt new⟩)
  | askVersion _ _ _ nothing =>
      rw [offered] at nothing
      cases nothing
  | askState _ serving | readState _ serving =>
      rw [serving] at handshake
      cases handshake

theorem Told.offeredVersion {request : Request} (told : station.Told servers request)
    (method : request.method = "Version") :
    station.session.client.offeredVersion = some (.finite 3) :=
  (Client.offeredVersion_eq_some told.holds).mpr
    ⟨_, rfl, by simp [Core.reply, method], by simp [Core.reply, method]⟩

theorem Told.offeredState {request : Request} (told : station.Told servers request)
    (method : request.method = "GetState") :
    station.session.client.offeredState =
      some ((servers.cores servers.current).reply request, servers.state) := by
  have clean : ((servers.cores servers.current).reply request).error = none := by
    simp [Core.reply, method]
  rw [Client.offeredState, (Line.getResponse_eq_ok_iff told.holds).mpr ⟨rfl, clean⟩]
  simp [Core.reply, method, Reply.asState, Servers.state]

theorem Sound.keep (sound : station.Sound) (helps : station.Helps servers event)
    (moved : (machine servers).step station event = some next) : next.Sound :=
  sound.step helps.sendSucceeds moved

/-- A client that awaits nothing can end the handshake. -/
theorem Sound.leadsTo_serving (sound : station.Sound) (reaches : station.Reaches servers)
    (idle : station.session.client.status.call.busy = false) :
    (machine servers).LeadsTo (Helps servers) 4 station fun final =>
      final.Reaches servers ∧ final.session.client.status.call.busy = false ∧ final.Serving := by
  cases handshake : station.session.client.serverVer.le (.finite 0) with
  | false => exact .here ⟨reaches, idle, handshake⟩
  | true =>
      cases offered : station.session.client.offeredVersion with
      | some ver =>
          have accepts := sound.leadsTo_accepted reaches idle handshake offered
          exact accepts.within (by decide)
      | none =>
          obtain ⟨client, entries, polled, moved⟩ := sound.exists_poll servers
          have polls : station.Helps servers (.session (.poll none)) := rfl
          have kept := sound.keep polls moved
          cases polled with
          | unchanged stays => simp [reaches.1, sound.accepted, idle] at stays
          | refuse _ _ found | accept _ _ found =>
              rw [offered] at found
              cases found
          | askState _ serving | readState _ serving =>
              rw [serving] at handshake
              cases handshake
          | askVersion =>
              have asked (log : List Entry) := sound.asked reaches idle rfl "Version" log
              change (machine servers).LeadsTo (Helps servers) (2 + 1 + 1) station _
              refine .step polls moved (.trans Sound.keep kept (asked _).leadsTo_told ?_)
              intro final sound ⟨told, same⟩
              refine sound.leadsTo_accepted told.reaches told.holds.1 ?_ (told.offeredVersion rfl)
              rw [same]
              exact handshake

/-- A client that has ended the handshake asks for the state. -/
theorem Sound.leadsTo_asked (sound : station.Sound) (reaches : station.Reaches servers)
    (idle : station.session.client.status.call.busy = false) (serving : station.Serving) :
    (machine servers).LeadsTo (Helps servers) 1 station fun final =>
      (∃ request : Request, request.method = "GetState" ∧ final.Asked servers request) ∧
        final.Serving := by
  obtain ⟨client, entries, polled, moved⟩ := sound.exists_poll servers
  have polls : station.Helps servers (.session (.poll none)) := rfl
  cases polled with
  | unchanged stays => simp [reaches.1, sound.accepted, idle] at stays
  | refuse _ handshake | accept _ handshake | askVersion _ handshake =>
      rw [Serving, handshake] at serving
      cases serving
  | askState =>
      exact .step polls moved (.here ⟨⟨_, rfl, sound.asked reaches idle rfl _ _⟩, serving⟩)
  | readState =>
      have same := Client.readState_status station.session.client
      have version := Client.readState_serverVer station.session.client
      have asked (log : List Entry) := sound.asked reaches idle same "GetState" log
      rw [← same] at asked
      exact .step polls moved
        (.here ⟨⟨_, rfl, asked _⟩, (congrArg (Single.le · _) version).trans serving⟩)

/-- A client that has been told the state decodes it. -/
theorem Sound.leadsTo_decoded (sound : station.Sound) {request : Request}
    (told : station.Told servers request) (method : request.method = "GetState")
    (serving : station.Serving) :
    (machine servers).LeadsTo (Helps servers) 1 station fun final =>
      station.decoded < final.decoded ∧ final.display = servers.state := by
  obtain ⟨client, entries, polled, moved⟩ := sound.exists_poll servers
  have polls : station.Helps servers (.session (.poll none)) := rfl
  have offered := told.offeredState method
  cases polled with
  | unchanged stays => simp [told.reaches.1, sound.accepted, told.holds.1] at stays
  | refuse _ handshake | accept _ handshake | askVersion _ handshake =>
      rw [Serving, handshake] at serving
      cases serving
  | askState _ _ _ nothing =>
      rw [offered] at nothing
      cases nothing
  | readState =>
      refine .step polls moved (.here ⟨?_, ?_⟩)
      · simp only [decoded, List.countP_append, List.countP_cons, Entry.isDecoded, if_true]
        omega
      · change station.session.client.readState.1.state = servers.state
        rw [Client.readState, offered]

/-- Twelve events of the client are enough. -/
theorem Sound.leadsTo_refreshed (sound : station.Sound) (servers : Servers) :
    (machine servers).LeadsTo (Helps servers) 12 station fun final =>
      station.decoded < final.decoded ∧ final.display = servers.state := by
  have keep {before after : Station} {event : ClientEvent}
      (inv : before.Sound ∧ station.decoded ≤ before.decoded) (helps : before.Helps servers event)
      (moved : (machine servers).step before event = some after) :
      after.Sound ∧ station.decoded ≤ after.decoded :=
    ⟨inv.1.keep helps moved, inv.2.trans (inv.1.decoded_le moved)⟩
  change (machine servers).LeadsTo (Helps servers) (2 + (2 + (4 + (1 + (2 + 1))))) station _
  refine .trans keep ⟨sound, Nat.le_refl _⟩ (leadsTo_reaches station) ?_
  intro second inv reaches
  refine .trans keep inv (inv.1.leadsTo_idle reaches) ?_
  intro third inv ⟨reaches, idle⟩
  refine .trans keep inv (inv.1.leadsTo_serving reaches idle) ?_
  intro fourth inv ⟨reaches, idle, serving⟩
  refine .trans keep inv (inv.1.leadsTo_asked reaches idle serving) ?_
  intro fifth inv ⟨⟨request, method, asked⟩, serving⟩
  refine .trans keep inv asked.leadsTo_told ?_
  intro sixth ⟨sound, fewer⟩ ⟨told, same⟩
  have served : sixth.Serving := (congrArg (Single.le · _) same).trans serving
  refine (sound.leadsTo_decoded told method served).mono ?_
  exact fun final ⟨more, shows⟩ => ⟨fewer.trans_lt more, shows⟩

end Progress

end Station

namespace Plant

variable {ι : Type*} {client : ι} {plant next : Plant ι} {event : PlantEvent ι}

/-- If the event makes `Poll` of the client send a request, then `Send` returns `LNR_OK`. -/
def SendSucceeds (client : ι) (plant : Plant ι) : PlantEvent ι → Prop
  | .server _ => True
  | .client other event => other = client → (plant.stations client).SendSucceeds event

/-- An event of the client that helps it to the present state. -/
def Helps (client : ι) (plant : Plant ι) : PlantEvent ι → Prop
  | .server _ => False
  | .client other event => other = client ∧ (plant.stations client).Helps plant.servers event

section Steps

variable [DecidableEq ι]

theorem sound_step (sound : (plant.stations client).Sound) (sent : plant.SendSucceeds client event)
    (moved : machine.step plant event = some next) : (next.stations client).Sound := by
  rcases station_cases client moved with ⟨own, rfl, stepped⟩ | ⟨same, -⟩
  · exact sound.step (sent rfl) stepped
  · exact same ▸ sound

theorem jammed_of_unsent (sound : (plant.stations client).Sound)
    (unsent : ¬plant.SendSucceeds client event) (moved : machine.step plant event = some next) :
    (next.stations client).Jammed := by
  rcases station_cases client moved with ⟨own, rfl, stepped⟩ | ⟨-, other⟩
  · exact sound.jammed_of_unsent (fun sent => unsent fun _ => sent) stepped
  · cases event with
    | server => exact (unsent trivial).elim
    | client name own =>
        refine (unsent fun same => ?_).elim
        subst same
        exact (other own rfl).elim

theorem jammed_step (jammed : (plant.stations client).Jammed)
    (moved : machine.step plant event = some next) :
    (next.stations client).Jammed ∧
      (next.stations client).decoded = (plant.stations client).decoded ∧
      (next.stations client).display.SameOrLost (plant.stations client).display := by
  rcases station_cases client moved with ⟨own, -, stepped⟩ | ⟨same, -⟩
  · exact jammed.step stepped
  · rw [same]
    exact ⟨jammed, rfl, .rfl⟩

/-- The plant with something else in place of one client. -/
def setStation (plant : Plant ι) (client : ι) (station : Station) : Plant ι :=
  { plant with stations := Function.update plant.stations client station }

@[simp] theorem setStation_servers (plant : Plant ι) (client : ι) (station : Station) :
    (plant.setStation client station).servers = plant.servers := rfl

@[simp] theorem setStation_stations (plant : Plant ι) (client : ι) (station : Station) :
    (plant.setStation client station).stations client = station := Function.update_self ..

@[simp] theorem setStation_self (plant : Plant ι) (client : ι) :
    plant.setStation client (plant.stations client) = plant := by
  rw [setStation, Function.update_eq_self]

/-- What a client can reach by its own events, the plant can. -/
theorem leadsTo_of_station {count : Nat} {goal : Station → Prop}
    (leads : (Station.machine plant.servers).LeadsTo (Station.Helps plant.servers) count
      (plant.stations client) goal) :
    machine.LeadsTo (Helps client) count plant fun final =>
      final.servers = plant.servers ∧ goal (final.stations client) := by
  have steps {station after : Station} {own : ClientEvent}
      (moved : (Station.machine plant.servers).step station own = some after) :
      machine.step (plant.setStation client station) (.client client own) =
        some (plant.setStation client after) := by
    have stepped : station.step plant.servers own = some after := moved
    simp only [machine, step, setStation_stations, setStation_servers, stepped, Option.map_some]
    simp [setStation]
  have permits {station : Station} {own : ClientEvent}
      (helps : station.Helps plant.servers own) :
      (plant.setStation client station).Helps client (.client client own) := by
    rw [← setStation_stations plant client station] at helps
    exact ⟨rfl, helps⟩
  rw [← setStation_self plant client]
  refine Machine.LeadsTo.lift steps permits (fun final reached => ?_) leads
  rw [setStation_stations, setStation_servers, setStation_servers]
  exact ⟨rfl, reached⟩

/-- However a run has been: if every request that `Poll` of a client tried to send was sent, then
events of that client alone lead to where it decodes and shows the present state of the machine; and
if one was not, then whatever happens the client never decodes a state again. -/
theorem refreshes_or_stays (memory : ι → Int32 × Int32 × Int32) (client : ι)
    {events : List (PlantEvent ι)} (execution : machine.run (start memory) events = some plant) :
    (machine.Guarded (SendSucceeds client) (start memory) events →
      machine.LeadsTo (Helps client) 12 plant fun final =>
        final.servers = plant.servers ∧
          (plant.stations client).decoded < (final.stations client).decoded ∧
          (final.stations client).display = plant.servers.state) ∧
    (¬machine.Guarded (SendSucceeds client) (start memory) events →
      ∀ {more final}, machine.run plant more = some final →
        (final.stations client).decoded = (plant.stations client).decoded ∧
          (final.stations client).display.SameOrLost (plant.stations client).display) := by
  have stay {before after : Plant ι} {event : PlantEvent ι}
      (jammed : (before.stations client).Jammed) (moved : machine.step before event = some after) :=
    (jammed_step jammed moved).1
  have sound : ((start memory).stations client).Sound := Station.start_sound ..
  have either :=
    @Machine.guarded_or_of_run _ _ machine (fun plant => (plant.stations client).Sound) _
      (SendSucceeds client) (fun plant => (plant.stations client).Jammed)
      sound_step jammed_of_unsent stay _ _ sound execution
  rcases either with ⟨guarded, sound⟩ | ⟨unguarded, jammed⟩
  · refine ⟨fun _ => leadsTo_of_station (sound.leadsTo_refreshed plant.servers), ?_⟩
    exact fun unguarded => (unguarded guarded).elim
  · refine ⟨fun guarded => (unguarded guarded).elim, fun _ more final continued => ?_⟩
    have keep {before after : Plant ι} {event : PlantEvent ι}
        (inv : (before.stations client).Jammed ∧
          (before.stations client).decoded = (plant.stations client).decoded ∧
          (before.stations client).display.SameOrLost (plant.stations client).display)
        (moved : machine.step before event = some after) :
        (after.stations client).Jammed ∧
          (after.stations client).decoded = (plant.stations client).decoded ∧
          (after.stations client).display.SameOrLost (plant.stations client).display := by
      obtain ⟨jammed, decoded, display⟩ := jammed_step inv.1 moved
      exact ⟨jammed, decoded.trans inv.2.1, display.trans inv.2.2⟩
    exact (Machine.invariant_of_run keep ⟨jammed, rfl, .rfl⟩ continued).2

theorem guarded_of_sent {events : List (PlantEvent ι)}
    (sent : ∀ event ∈ events, ∀ err, event = .client client (.session (.poll err)) → err = none)
    (plant : Plant ι) : machine.Guarded (SendSucceeds client) plant events := by
  refine @Machine.Guarded.mono_of_invariant _ _ machine _ _ (fun _ => True)
    (fun _ _ _ => trivial) (fun {before event} _ sent => ?_) _ _
    (Machine.Guarded.of_forall sent plant) trivial
  cases event with
  | server => trivial
  | client other own =>
      rintro rfl
      cases own with
      | session event =>
          cases event with
          | poll err => exact fun _ => sent err rfl
          | command | callback | connect | lose | fail => trivial
      | serve | deliver | call | answer | finish | fail => trivial

end Steps

theorem refreshes_readState :
    ∃ plant, machine.run (start fun _ : Unit => (0, 0, 0)) readState = some plant ∧
      machine.LeadsTo (Helps ()) 12 plant fun final =>
        final.servers = plant.servers ∧
          (plant.stations ()).decoded < (final.stations ()).decoded ∧
          (final.stations ()).display = plant.servers.state := by
  obtain ⟨plant, execution⟩ : ∃ plant,
      machine.run (start fun _ : Unit => (0, 0, 0)) readState = some plant := ⟨_, rfl⟩
  have sent : machine.Guarded (SendSucceeds ()) (start fun _ : Unit => (0, 0, 0)) readState :=
    guarded_of_sent (by simp [readState]) _
  exact ⟨plant, execution, (refreshes_or_stays (fun _ => (0, 0, 0)) () execution).1 sent⟩

end Plant

end CncRemote
