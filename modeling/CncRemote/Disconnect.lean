import CncRemote.Busy

/-!
# States of a lost connection

When an established connection ends the client shows that there is no server.  A status reply of
that connection can still arrive or be on offer afterwards, and what keeps it from being shown is
the handshake: it cannot decode the reply as a version, and asking for the version drops it.
-/

namespace CncRemote

theorem Client.request_ne_onDisConnect {client : Client} {method : String} {connection : Nat}
    {err : Option String} (entries : List Entry) :
    (client.request method connection err).2 ≠ .onDisConnect :: entries := by
  intro sent
  have recorded : Entry.onDisConnect ∈ (client.request method connection err).2 := by
    rw [sent]
    exact List.mem_cons_self
  cases Client.request_entries recorded

namespace Session

/-- The step called `OnDisConnect2`. -/
def CallsOnDisConnect2 (before after : Session) : Prop :=
  ∃ entries, after.log = before.log ++ .onDisConnect :: entries

/-- No server is shown, and once the handshake is over the slot is only for requests with at least
the given number. -/
structure Unserved (number : Nat) (session : Session) : Prop where
  noServer : session.client.state.machineState = ControlState.noServer.code
  number_le : number ≤ session.client.status.attempts
  fresh : ∃ slot, session.client.status.Shows slot ∧ ∀ request ∈ slot.request,
    session.client.serverVer.le (.finite 0) = false → number ≤ request.msgid

theorem unserved_of_onDisconnect {session : Session} (orderly : session.Orderly)
    (established : session.retries = 0) :
    session.onDisconnect.Unserved session.client.status.attempts where
  noServer := by
    rw [onDisconnect_client, if_pos established]
    rfl
  number_le := by rw [onDisconnect_status]
  fresh := by
    obtain ⟨slot, shows⟩ := orderly
    refine ⟨slot, by rwa [onDisconnect_status], fun request _ serving => ?_⟩
    rw [onDisconnect_serverVer, if_pos established] at serving
    cases serving

theorem established_of_onDisConnect {session : Session} {entries : List Entry}
    (called : session.onDisconnect.log = session.log ++ .onDisConnect :: entries) :
    session.retries = 0 := by
  by_contra failed
  simp only [onDisconnect, if_neg failed] at called
  split at called <;> simp at called

theorem unserved_of_called {before after : Session} {event : Event} (orderly : before.Orderly)
    (moved : machine.step before event = some after)
    (called : before.CallsOnDisConnect2 after) :
    after.Unserved before.client.status.attempts := by
  obtain ⟨entries, log_eq⟩ := called
  cases step_cases orderly moved with
  | lose | fail =>
      exact unserved_of_onDisconnect orderly (established_of_onDisConnect log_eq)
  | poll polled =>
      cases polled with
      | unchanged | refuse | accept => simp at log_eq
      | askVersion | askState =>
          exact (Client.request_ne_onDisConnect _ (List.append_cancel_left log_eq)).elim
      | readState => simp at log_eq
  | setBusy | ignored | connect => simp [onConnect] at log_eq
  | @callback callback => cases callback <;> simp [Entry.ofCallback] at log_eq

theorem unserved_of_request {number : Nat} {session : Session} {slot : Slot Reply}
    (shows : session.client.status.Shows slot) (idle : session.client.status.call.busy = false)
    (noServer : session.client.state.machineState = ControlState.noServer.code)
    (number_le : number ≤ session.client.status.attempts) (method : String)
    (err : Option String) (log : List Entry) :
    Unserved number
      { session with
        client := (session.client.request method session.connection err).1, log } where
  noServer := noServer
  number_le := by
    dsimp only
    rw [Client.request, Line.callAsync_of_idle idle]
    exact number_le.trans (Nat.le_succ _)
  fresh := by
    refine ⟨_, Line.callAsync_shows shows method session.connection err, ?_⟩
    intro request concerns _
    obtain rfl := Slot.request_of_callAsync (shows.idle idle) concerns
    exact number_le

/-- A version that was read leaves the slot free. -/
theorem Unserved.readVersion {number : Nat} {session : Session} {response : Response Reply}
    (inv : session.Unserved number)
    (shows : session.client.status.Shows (.holding response)) (ver : Single)
    (log : List Entry) :
    Unserved number
      { session with
        client :=
          { session.client with
            serverVer := ver, status := session.client.status.clearResponse }
        log } where
  noServer := inv.noServer
  number_le := inv.number_le
  fresh := ⟨.free, Line.clearResponse_shows shows, by simp [Slot.request]⟩

theorem unserved_step {number : Nat} {session next : Session} {event : Event}
    (asks : session.AsksStates) (inv : session.Unserved number)
    (moved : machine.step session event = some next) :
    next.Refreshed number ∨ next.Unserved number := by
  have step := step_cases asks.orderly moved
  obtain ⟨slot, shows, fresh⟩ := inv.fresh
  cases step with
  | poll polled =>
      cases polled with
      | unchanged => exact .inr ⟨inv.noServer, inv.number_le, slot, shows, fresh⟩
      | refuse _ _ offered | accept _ _ offered =>
          obtain ⟨response, rfl, -⟩ := (Client.offeredVersion_eq_some shows).mp offered
          exact .inr (inv.readVersion shows _ _)
      | askVersion _ _ idle | askState _ _ idle =>
          exact .inr (unserved_of_request shows idle inv.noServer inv.number_le _ _ _)
      | @readState response _ _ serving offered =>
          -- the handshake is over, so the state that is read was asked for after it
          obtain ⟨rfl, -⟩ := Client.offeredState_eq_some shows offered
          obtain ⟨other, otherShows, states⟩ := asks
          obtain rfl := shows.unique otherShows
          exact .inl ⟨response.request, by simp, states _ rfl serving, fresh _ rfl serving⟩
  | setBusy | ignored | connect =>
      exact .inr ⟨inv.noServer, inv.number_le, slot, shows, fresh⟩
  | callback served =>
      obtain ⟨nextSlot, called, nextShows⟩ := Line.callback_shows shows served
      obtain ⟨-, rfl⟩ := Line.callback_eq_some served
      exact .inr ⟨inv.noServer, inv.number_le, nextSlot, nextShows, fun request concerns =>
        fresh request (Slot.request_of_callback called concerns)⟩
  | lose | fail =>
      refine .inr ⟨?_, by rw [onDisconnect_status]; exact inv.number_le, slot,
        by rwa [onDisconnect_status], fun request concerns serving => ?_⟩
      · rw [onDisconnect_client]
        split
        · rfl
        · exact inv.noServer
      · rw [onDisconnect_serverVer] at serving
        split at serving
        · cases serving
        · exact fresh request concerns serving

/-- What holds from a call of `OnDisConnect2` on, for the number of the next request. -/
structure Shielded (number : Nat) (session : Session) : Prop where
  asks : session.AsksStates
  shields : session.Refreshed number ∨ session.Unserved number

theorem shielded_step {number : Nat} {session next : Session} {event : Event}
    (inv : session.Shielded number) (moved : machine.step session event = some next) :
    next.Shielded number where
  asks := asksStates_step inv.asks moved
  shields := by
    rcases inv.shields with refreshed | unserved
    · exact .inl (refreshed.step moved)
    · exact unserved_step inv.asks unserved moved

/-- From every call of `OnDisConnect2` until a state that was asked for after it is decoded, the
client shows that there is no server. -/
theorem noServer_until_refreshed (statusCache busyHeart heartBeat : Int32)
    {front back : List Event} {before after final : Session} {event : Event}
    (reached : machine.run (start statusCache busyHeart heartBeat) front = some before)
    (moved : machine.step before event = some after) (called : before.CallsOnDisConnect2 after)
    (continued : machine.run after back = some final)
    (stale : ¬final.Refreshed before.client.status.attempts) :
    final.client.state.machineState = ControlState.noServer.code := by
  have asks : before.AsksStates :=
    Machine.invariant_of_run asksStates_step
      (start_asksStates statusCache busyHeart heartBeat) reached
  have shielded : after.Shielded before.client.status.attempts :=
    ⟨asksStates_step asks moved, .inr (unserved_of_called asks.orderly moved called)⟩
  have kept : final.Shielded before.client.status.attempts :=
    Machine.invariant_of_run shielded_step shielded continued
  exact (kept.shields.resolve_left stale).noServer

/-- A reply of the first connection that reports a running machine. -/
def runningReport : Response Reply where
  request := ⟨1, "GetState", 1⟩
  result := .state { State.initial with machineState := ControlState.running.code }
  error := none

/-- A second connection, up to its first request for a state. -/
def secondRequest : List Event :=
  [.connect, .poll none, .callback (.response ⟨⟨2, "Version", 2⟩, .float (.finite 3), none⟩),
    .poll none, .poll none]

/-- A report that arrives before its connection is lost is not shown on the next one. -/
theorem noServer_after_runningReport :
    ∃ before after final : Session,
      machine.run (start 0 0 0) (firstRequest ++ [.callback (.response runningReport)]) =
        some before ∧
      machine.step before .lose = some after ∧
      machine.run after secondRequest = some final ∧
      final.client.state.machineState = ControlState.noServer.code := by
  obtain ⟨before, after, final, reached, moved, called, continued, log_eq⟩ :
      ∃ before after final : Session,
        machine.run (start 0 0 0) (firstRequest ++ [.callback (.response runningReport)]) =
          some before ∧
        machine.step before .lose = some after ∧ before.CallsOnDisConnect2 after ∧
        machine.run after secondRequest = some final ∧
        final.log = [.request ⟨0, "Version", 1⟩,
          .answered ⟨⟨0, "Version", 1⟩, .float (.finite 3), none⟩, .onConnect 1,
          .request ⟨1, "GetState", 1⟩, .answered runningReport, .onDisConnect, .retryTimer 100,
          .request ⟨2, "Version", 2⟩, .answered ⟨⟨2, "Version", 2⟩, .float (.finite 3), none⟩,
          .onConnect 2, .request ⟨3, "GetState", 2⟩] :=
    ⟨_, _, _, rfl, rfl, ⟨[.retryTimer 100], rfl⟩, rfl, rfl⟩
  refine ⟨before, after, final, reached, moved, continued, ?_⟩
  refine noServer_until_refreshed 0 0 0 reached moved called continued ?_
  rintro ⟨request, recorded, -⟩
  simp [log_eq] at recorded

end Session

end CncRemote
