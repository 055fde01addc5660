import CncRemote.Session

/-!
# Polling keeps going

`m_busy` is set before a request is sent and cleared by the callbacks only, so a request that
cannot be sent leaves it set for good.  Both theorems below say that this is the only way in which
the flag and the requests of the transport get out of step.
-/

namespace CncRemote

namespace Line

variable {ρ : Type*}

/-- The object is busy exactly while a request that was sent has not been called back. -/
def Prompt (line : Line ρ) : Prop := line.call.busy = true ↔ line.awaited ≠ []

/-- If the event makes the object send a request, then `Send` returns `LNR_OK`. -/
def SendSucceeds (line : Line ρ) : CallEvent ρ → Prop
  | .callAsync _ _ err => line.call.busy = false → err = none
  | .callback _ | .wait _ | .getResponse | .clearResponse => True

/-- A slot is shown and its last request could be sent. -/
def Unjammed (line : Line ρ) : Prop := ∃ slot, line.Shows slot ∧ slot ≠ .jammed

theorem Unjammed.prompt {line : Line ρ} (unjammed : line.Unjammed) : line.Prompt := by
  obtain ⟨slot, shows, slot_ne⟩ := unjammed
  cases slot with
  | jammed => exact (slot_ne rfl).elim
  | free | awaiting | holding =>
      simp only [Shows] at shows
      simp [Prompt, shows]

theorem not_prompt_of_jammed {line : Line ρ} (jammed : line.Shows .jammed) : ¬line.Prompt := by
  obtain ⟨busy, -, quiet⟩ := jammed
  simp [Prompt, busy, quiet]

/-- A request that is sent does not jam the slot. -/
theorem Unjammed.callAsync {line : Line ρ} (unjammed : line.Unjammed) (method : String)
    (connection : Nat) {err : Option String} (sent : line.call.busy = false → err = none) :
    (line.callAsync method connection err).Unjammed := by
  obtain ⟨slot, shows, slot_ne⟩ := unjammed
  refine ⟨_, callAsync_shows shows method connection err, ?_⟩
  cases slot with
  | jammed => exact (slot_ne rfl).elim
  | awaiting => simp [Slot.callAsync]
  | free | holding => simp [Slot.callAsync, sent shows.1]

theorem Unjammed.awaited_callAsync {line : Line ρ} (unjammed : line.Unjammed) (method : String)
    (connection : Nat) : (line.callAsync method connection none).awaited ≠ [] := by
  refine (unjammed.callAsync method connection fun _ => rfl).prompt.mp ?_
  cases busy : line.call.busy with
  | true => rw [callAsync_of_busy busy, busy]
  | false => rw [callAsync_of_idle busy]

/-- A request that cannot be sent jams the slot. -/
theorem jammed_of_callAsync {line : Line ρ} {slot : Slot ρ} (shows : line.Shows slot)
    (idle : line.call.busy = false) (method : String) (connection : Nat) (text : String) :
    (line.callAsync method connection (some text)).Shows .jammed := by
  have called := callAsync_shows shows method connection (some text)
  cases slot with
  | free | holding => exact called
  | awaiting | jammed =>
      rw [shows.1] at idle
      cases idle

theorem Unjammed.callback {line next : Line ρ} {callback : Callback ρ} (unjammed : line.Unjammed)
    (called : line.callback callback = some next) : next.Unjammed := by
  obtain ⟨slot, shows, -⟩ := unjammed
  obtain ⟨nextSlot, moved, nextShows⟩ := callback_shows shows called
  refine ⟨nextSlot, nextShows, ?_⟩
  rintro rfl
  cases slot <;> simp only [Slot.callback, reduceCtorEq] at moved
  split at moved
  · cases callback <;> cases moved
  · cases moved

theorem Unjammed.clearResponse {line : Line ρ} (unjammed : line.Unjammed) :
    line.clearResponse.Unjammed := by
  obtain ⟨slot, shows, slot_ne⟩ := unjammed
  refine ⟨_, clearResponse_shows shows, ?_⟩
  cases slot <;> simp_all [Slot.clearResponse]

theorem unjammed_step {line next : Line ρ} {event : CallEvent ρ} (unjammed : line.Unjammed)
    (sent : line.SendSucceeds event) (moved : machine.step line event = some next) :
    next.Unjammed := by
  cases event with
  | callAsync method connection err =>
      obtain rfl : line.callAsync method connection err = next := Option.some.inj moved
      exact unjammed.callAsync method connection sent
  | callback callback => exact unjammed.callback moved
  | wait | getResponse =>
      obtain rfl : line = next := Option.some.inj moved
      exact unjammed
  | clearResponse =>
      obtain rfl : line.clearResponse = next := Option.some.inj moved
      exact unjammed.clearResponse

/-- The flag of a `RemoteCall` tells the truth throughout a run exactly if every request that the
run tries to send is sent. -/
theorem always_prompt_iff (events : List (CallEvent ρ)) :
    machine.Always Prompt new events ↔ machine.Guarded SendSucceeds new events := by
  have unsent {line next : Line ρ} {event : CallEvent ρ} (unjammed : line.Unjammed)
      (failed : ¬line.SendSucceeds event) (moved : machine.step line event = some next) :
      ¬next.Prompt := by
    obtain ⟨slot, shows, -⟩ := unjammed
    cases event with
    | callAsync method connection err =>
        obtain rfl : line.callAsync method connection err = next := Option.some.inj moved
        obtain ⟨idle, err_ne⟩ := Classical.not_imp.mp failed
        obtain ⟨text, rfl⟩ := Option.ne_none_iff_exists'.mp err_ne
        exact not_prompt_of_jammed (jammed_of_callAsync shows idle method connection text)
    | callback | wait | getResponse | clearResponse => exact (failed trivial).elim
  exact Machine.always_iff_guarded unjammed_step Unjammed.prompt unsent
    ⟨.free, new_shows, nofun⟩ events

end Line

namespace Session

/-- On a connected socket, two polls whose sends succeed leave a request outstanding, unless they
refuse the server for its version.  The first of them may have nothing to do but to read it. -/
def Live (session : Session) : Prop :=
  session.connected = true →
    let later := (session.poll none).poll none
    later.client.serverVer.lt (.finite 0) = true ∨ later.client.status.awaited ≠ []

/-- `Poll` would send a request: the socket is connected, no request is outstanding, and either
the handshake is over or it has no version to read. -/
def WillSend (session : Session) : Prop :=
  session.connected = true ∧ session.client.status.call.busy = false ∧
    (session.client.serverVer.le (.finite 0) = false ∨
      session.client.serverVer = .finite 0 ∧ session.client.offeredVersion = none)

/-- If the event makes `Poll` send a request, then `Send` returns `LNR_OK`. -/
def SendSucceeds (session : Session) : Event → Prop
  | .poll err => session.WillSend → err = none
  | .command _ _ | .callback _ | .connect | .lose | .fail => True

/-- A poll whose send succeeds finds the server refused or leaves a request outstanding, unless it
ends the handshake. -/
theorem progress_of_poll {session next : Session} (unjammed : session.client.status.Unjammed)
    (up : session.connected = true) (moved : machine.step session (.poll none) = some next) :
    next.client.serverVer.lt (.finite 0) = true ∨ next.client.status.awaited ≠ [] ∨
      session.client.serverVer = .finite 0 ∧ session.client.status.awaited = [] ∧
        next.client.serverVer.le (.finite 0) = false := by
  obtain ⟨slot, shows, -⟩ := id unjammed
  cases step_cases ⟨slot, shows⟩ moved with
  | poll polled =>
      cases polled with
      | unchanged stays =>
          rcases stays with down | refused | busy
          · rw [up] at down
            cases down
          · exact .inl refused
          · exact .inr (.inl (unjammed.prompt.mp busy))
      | refuse => exact .inl rfl
      | accept _ handshake offered new =>
          obtain ⟨response, rfl, -⟩ := (Client.offeredVersion_eq_some shows).mp offered
          obtain ⟨-, -, -, -, quiet, -⟩ := shows
          exact .inr (.inr ⟨handshake, quiet, Client.le_eq_false_of_not_lt new⟩)
      | askVersion | askState => exact .inr (.inl (unjammed.awaited_callAsync _ _))
      | readState =>
          refine .inr (.inl (Line.Unjammed.awaited_callAsync ?_ _ _))
          rwa [Client.readState_status]

theorem unjammed_step {session next : Session} {event : Event}
    (unjammed : session.client.status.Unjammed) (sent : session.SendSucceeds event)
    (moved : machine.step session event = some next) : next.client.status.Unjammed := by
  have orderly : session.Orderly := unjammed.imp fun _ => And.left
  cases step_cases orderly moved with
  | poll polled =>
      cases polled with
      | unchanged => exact unjammed
      | refuse | accept => exact unjammed.clearResponse
      | askVersion up handshake idle nothing =>
          exact unjammed.callAsync _ _ fun _ => sent ⟨up, idle, .inr ⟨handshake, nothing⟩⟩
      | askState up serving idle =>
          exact unjammed.callAsync _ _ fun _ => sent ⟨up, idle, .inl serving⟩
      | readState up serving =>
          have kept : session.client.readState.1.status.Unjammed := by
            rwa [Client.readState_status]
          refine kept.callAsync _ _ fun idle => sent ⟨up, ?_, .inl serving⟩
          rwa [Client.readState_status] at idle
  | setBusy | ignored | connect => exact unjammed
  | callback served => exact unjammed.callback served
  | lose | fail => rwa [onDisconnect_status]

theorem live_of_unjammed {session : Session} (unjammed : session.client.status.Unjammed) :
    session.Live := by
  intro up
  have sent : session.SendSucceeds (.poll none) := fun _ => rfl
  have kept : (session.poll none).client.status.Unjammed := unjammed_step unjammed sent rfl
  have first := progress_of_poll unjammed up rfl
  have second := progress_of_poll kept up rfl
  rcases second with refused | awaited | ⟨handshake, quiet, -⟩
  · exact .inl refused
  · exact .inr awaited
  · -- the first poll leaves no handshake in which nothing is outstanding
    rw [handshake, quiet] at first
    rcases first with refused | awaited | ⟨-, -, serving⟩
    · cases refused
    · exact (awaited rfl).elim
    · cases serving

theorem client_of_jammed {session next : Session}
    (jammed : session.client.status.Shows .jammed)
    (moved : machine.step session (.poll none) = some next) : next.client = session.client := by
  cases step_cases ⟨.jammed, jammed⟩ moved with
  | poll polled =>
      cases polled with
      | unchanged => rfl
      | refuse _ _ offered | accept _ _ offered =>
          obtain ⟨response, held, -⟩ := (Client.offeredVersion_eq_some jammed).mp offered
          cases held
      | askVersion _ _ idle | askState _ _ idle =>
          rw [jammed.1] at idle
          cases idle
      | readState _ _ offered =>
          obtain ⟨held, -⟩ := Client.offeredState_eq_some jammed offered
          cases held

/-- Polling such a client on a connected socket never sends again. -/
theorem not_live_of_jammed {session : Session} (jammed : session.client.status.Shows .jammed)
    (up : session.connected = true)
    (accepted : session.client.serverVer.lt (.finite 0) = false) : ¬session.Live := by
  have once : (session.poll none).client = session.client := client_of_jammed jammed rfl
  have twice : ((session.poll none).poll none).client = (session.poll none).client :=
    client_of_jammed (by rwa [once]) rfl
  obtain ⟨-, -, quiet⟩ := jammed
  intro live
  have alive := live up
  simp only [twice, once, accepted, quiet] at alive
  simp at alive

/-- A poll whose request cannot be sent jams the client. -/
theorem not_live_of_unsent {session next : Session} {event : Event}
    (unjammed : session.client.status.Unjammed) (unsent : ¬session.SendSucceeds event)
    (moved : machine.step session event = some next) : ¬next.Live := by
  obtain ⟨slot, shows, -⟩ := unjammed
  cases event with
  | command | callback | connect | lose | fail => exact (unsent trivial).elim
  | poll err =>
      obtain ⟨⟨up, idle, phase⟩, err_ne⟩ := Classical.not_imp.mp unsent
      obtain ⟨text, rfl⟩ := Option.ne_none_iff_exists'.mp err_ne
      have stuck {client : Client} (status : client.status = session.client.status)
          (method : String) :
          (client.request method session.connection (some text)).1.status.Shows .jammed := by
        change (client.status.callAsync _ _ _).Shows .jammed
        rw [status]
        exact Line.jammed_of_callAsync shows idle _ _ text
      have accepted : session.client.serverVer.lt (.finite 0) = false := by
        rcases phase with serving | ⟨handshake, -⟩
        · exact Single.lt_eq_false_of_not_le serving
        · rw [handshake]
          rfl
      cases step_cases ⟨slot, shows⟩ moved with
      | poll polled =>
          cases polled with
          | unchanged stays => simp [up, accepted, idle] at stays
          | refuse _ handshake offered | accept _ handshake offered =>
              rcases phase with serving | ⟨-, nothing⟩
              · rw [handshake] at serving
                cases serving
              · rw [offered] at nothing
                cases nothing
          | askVersion | askState => exact not_live_of_jammed (stuck rfl _) up accepted
          | readState =>
              refine not_live_of_jammed (stuck (Client.readState_status _) _) up ?_
              change session.client.readState.1.serverVer.lt _ = false
              rwa [Client.readState_serverVer]

/-- Polling stays alive throughout a run exactly if every request that `Poll` tries to send is
sent. -/
theorem always_live_iff (statusCache busyHeart heartBeat : Int32) (events : List Event) :
    machine.Always Live (start statusCache busyHeart heartBeat) events ↔
      machine.Guarded SendSucceeds (start statusCache busyHeart heartBeat) events :=
  Machine.always_iff_guarded unjammed_step live_of_unjammed not_live_of_unsent
    ⟨.free, Line.new_shows, nofun⟩ events

/-- A `RemoteCall` tells the truth about its requests, and polling stays alive, exactly as long as
every request that is tried is sent. -/
theorem busy_iff_sends_succeed (calls : List (CallEvent Reply))
    (statusCache busyHeart heartBeat : Int32) (events : List Event) :
    (Line.machine.Always Line.Prompt .new calls ↔
      Line.machine.Guarded Line.SendSucceeds .new calls) ∧
    (machine.Always Live (start statusCache busyHeart heartBeat) events ↔
      machine.Guarded SendSucceeds (start statusCache busyHeart heartBeat) events) :=
  ⟨Line.always_prompt_iff calls, always_live_iff statusCache busyHeart heartBeat events⟩

/-- One failed `Send` during the handshake leaves the object busy and polling dead. -/
theorem busy_after_failed_send :
    (¬∀ events : List (CallEvent Reply), Line.machine.Always Line.Prompt .new events) ∧
    ¬∀ (statusCache busyHeart heartBeat : Int32) (events : List Event),
      machine.Always Live (start statusCache busyHeart heartBeat) events := by
  constructor
  · intro always
    have reached := always [.callAsync "Version" 1 (some "Broken pipe")]
    exact Line.not_prompt_of_jammed ⟨rfl, rfl, rfl⟩ (reached.2 _ rfl)
  · intro always
    have reached := always 0 0 0 [.connect, .poll (some "Broken pipe")]
    have live := (reached.2 _ rfl).2 _ rfl rfl
    exact absurd live (by decide)

end Session

end CncRemote
