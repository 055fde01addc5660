import CncRemote.Session

/-!
# Reconnecting

The handler counts in `m_retries` how often it has tried to connect, and takes 0 for a connection
that was established.  `Counts` is what keeps the two uses apart: the counter is 0 exactly while the
socket is connected.
-/

namespace CncRemote

/-- The entry records a call of `OnDisConnect2`. -/
def Entry.tells : Entry → Bool
  | .onDisConnect => true
  | .request _ | .answered _ | .decoded _ | .onConnect _ | .onIncorrectVersion _ | .setBusy _
  | .retryTimer _ => false

/-- The delay of the reconnect timer whose start the entry records. -/
def Entry.delay : Entry → Option Nat
  | .retryTimer ms => some ms
  | .request _ | .answered _ | .decoded _ | .onConnect _ | .onIncorrectVersion _ | .setBusy _
  | .onDisConnect => none

/-- The delays of the reconnect timers in the order in which they were started. -/
def delays (entries : List Entry) : List Nat := entries.filterMap Entry.delay

/-- How many established connections the event loses. -/
def Event.losses : Event → Nat
  | .lose => 1
  | .poll _ | .command _ _ | .callback _ | .connect | .fail => 0

/-- How many `OnDisconnect` events of the socket the event is. -/
def Event.disconnects : Event → Nat
  | .lose | .fail => 1
  | .poll _ | .command _ _ | .callback _ | .connect => 0

/-- What the handler does about an event: `OnDisConnect2` for a lost connection, and a timer for
every `OnDisconnect`. -/
structure Event.Answered (event : Event) (entries : List Entry) : Prop where
  told : entries.countP Entry.tells = event.losses
  timed : (delays entries).length = event.disconnects

/-- Delays of `count` retries, the next of which is the first after `retries` others. -/
def backOff (retries count : Nat) : List Nat :=
  List.replicate (min count (10 - retries)) 100 ++ List.replicate (count - (10 - retries)) 1000

@[simp] theorem backOff_zero (retries : Nat) : backOff retries 0 = [] := by simp [backOff]

theorem backOff_early {retries : Nat} (early : retries < 10) (count : Nat) :
    backOff retries (count + 1) = 100 :: backOff (retries + 1) count := by
  obtain ⟨left, left_eq⟩ : ∃ left, 10 - retries = left + 1 := ⟨9 - retries, by omega⟩
  have rest : 10 - (retries + 1) = left := by omega
  simp only [backOff, left_eq, rest, Nat.add_min_add_right, Nat.add_sub_add_right,
    List.replicate_succ, List.cons_append]

theorem backOff_late {retries : Nat} (late : 10 ≤ retries) (count : Nat) :
    backOff retries (count + 1) = 1000 :: backOff retries count := by
  simp [backOff, Nat.sub_eq_zero_of_le late, List.replicate_succ]

theorem backOff_add {retries : Nat} (within : retries ≤ 10) (first rest : Nat) :
    backOff retries (first + rest) =
      backOff retries first ++ backOff (min (retries + first) 10) rest := by
  induction first generalizing retries with
  | zero => simp [within]
  | succ first ih =>
      rw [Nat.add_right_comm]
      obtain early | late := Nat.lt_or_ge retries 10
      · have next : retries + 1 + first = retries + (first + 1) := by omega
        rw [backOff_early early, backOff_early early, ih early, next, List.cons_append]
      · have full : min (retries + first) 10 = min (retries + (first + 1)) 10 := by omega
        rw [backOff_late late, backOff_late late, ih within, full, List.cons_append]

theorem delays_append (log entries : List Entry) :
    delays (log ++ entries) = delays log ++ delays entries :=
  List.filterMap_append

namespace Session

/-- The counter of the handler is 0 exactly while the socket is connected. -/
structure Counts (session : Session) : Prop where
  orderly : session.Orderly
  established : session.connected = true ↔ session.retries = 0
  within : session.retries ≤ 10

/-- What a step means to the handler: the entries that it adds, and the counter after it. -/
structure Handles (session : Session) (event : Event) (next : Session) (entries : List Entry) :
    Prop where
  log : next.log = session.log ++ entries
  answered : event.Answered entries
  timers : delays entries = backOff session.retries event.disconnects
  retries : event ≠ .connect → next.retries = min (session.retries + event.disconnects) 10

theorem Handles.of_quiet {session next : Session} {event : Event} {entries : List Entry}
    (log : next.log = session.log ++ entries)
    (quiet : ∀ entry ∈ entries, entry.tells = false ∧ entry.delay = none)
    (losses : event.losses = 0) (disconnects : event.disconnects = 0)
    (same : event ≠ .connect → next.retries = session.retries) (within : session.retries ≤ 10) :
    session.Handles event next entries := by
  have silent : entries.countP Entry.tells = 0 :=
    List.countP_eq_zero.mpr fun entry inside => by simp [(quiet entry inside).1]
  have untimed : delays entries = [] :=
    List.filterMap_eq_nil_iff.mpr fun entry inside => (quiet entry inside).2
  refine ⟨log, ⟨silent.trans losses.symm, by rw [untimed, disconnects]; rfl⟩, ?_, ?_⟩
  · rw [untimed, disconnects, backOff_zero]
  · intro other
    rw [same other, disconnects]
    omega

theorem handles_onDisconnect {session : Session} {event : Event}
    (disconnects : event.disconnects = 1)
    (losses : event.losses = if session.retries = 0 then 1 else 0)
    (within : session.retries ≤ 10) :
    ∃ entries, session.Handles event session.onDisconnect entries := by
  simp only [onDisconnect]
  split
  · rename_i established
    rw [if_pos (by simp [established])]
    refine ⟨[.onDisConnect, .retryTimer 100], by simp, ⟨?_, ?_⟩, ?_, fun _ => ?_⟩
    · rw [losses, if_pos established]
      rfl
    · rw [disconnects]
      rfl
    · rw [disconnects, established, backOff_early (by decide)]
      rfl
    · simp [established, disconnects]
  · rename_i failed
    split
    · rename_i early
      refine ⟨[.retryTimer 100], rfl, ⟨?_, ?_⟩, ?_, fun _ => ?_⟩
      · rw [losses, if_neg failed]
        rfl
      · rw [disconnects]
        rfl
      · rw [disconnects, backOff_early early, backOff_zero]
        rfl
      · rw [disconnects]
        exact (min_eq_left early).symm
    · rename_i late
      have full : session.retries = 10 := by omega
      refine ⟨[.retryTimer 1000], rfl, ⟨?_, ?_⟩, ?_, fun _ => ?_⟩
      · rw [losses, if_neg failed]
        rfl
      · rw [disconnects]
        rfl
      · rw [disconnects, backOff_late (by omega), backOff_zero]
        rfl
      · rw [full, disconnects]
        rfl

theorem quiet_of_poll {client next : Client} {connected : Bool} {connection : Nat}
    {err : Option String} {entries : List Entry}
    (polled : client.PollCase connected connection err next entries) :
    ∀ entry ∈ entries, entry.tells = false ∧ entry.delay = none := by
  have requested (client : Client) (method : String) :
      ∀ entry ∈ (client.request method connection err).2,
        entry.tells = false ∧ entry.delay = none := by
    intro entry recorded
    rw [Client.request_entries recorded]
    exact ⟨rfl, rfl⟩
  cases polled with
  | unchanged => simp
  | refuse | accept => simp [Entry.tells, Entry.delay]
  | askVersion => exact requested client "Version"
  | askState => exact requested client "GetState"
  | readState => exact List.forall_mem_cons.mpr ⟨⟨rfl, rfl⟩, requested _ "GetState"⟩

/-- A poll leaves the client with a slot for its status requests. -/
theorem orderly_of_poll {session : Session} (orderly : session.Orderly) {err : Option String}
    {client : Client} {entries : List Entry}
    (polled : session.client.PollCase session.connected session.connection err client entries) :
    Orderly { session with client, log := session.log ++ entries } := by
  obtain ⟨slot, shows⟩ := orderly
  cases polled with
  | unchanged => exact ⟨slot, shows⟩
  | refuse | accept => exact ⟨_, Line.clearResponse_shows shows⟩
  | askVersion | askState => exact ⟨_, Line.callAsync_shows shows _ _ _⟩
  | readState =>
      rw [← Client.readState_status] at shows
      exact ⟨_, Line.callAsync_shows shows _ _ _⟩

/-- The end of a connection, or of an attempt, leaves the counter above 0. -/
theorem Counts.onDisconnect {session : Session} (counts : session.Counts) :
    session.onDisconnect.Counts := by
  obtain ⟨slot, shows⟩ := counts.orderly
  have within := counts.within
  refine ⟨⟨slot, by rwa [onDisconnect_status]⟩, ?_, ?_⟩
  · rw [onDisconnect_connected]
    simp only [Session.onDisconnect]
    split <;> split <;> simp_all
  · simp only [Session.onDisconnect]
    split <;> split <;> dsimp only <;> omega

theorem counts_step {session next : Session} {event : Event} (counts : session.Counts)
    (moved : machine.step session event = some next) :
    next.Counts ∧ ∃ entries, session.Handles event next entries := by
  obtain ⟨orderly, established, within⟩ := counts
  cases step_cases orderly moved with
  | poll polled =>
      exact ⟨⟨orderly_of_poll orderly polled, established, within⟩, _,
        .of_quiet rfl (quiet_of_poll polled) rfl rfl (fun _ => rfl) within⟩
  | setBusy =>
      exact ⟨⟨orderly, established, within⟩, _,
        .of_quiet rfl (by simp [Entry.tells, Entry.delay]) rfl rfl (fun _ => rfl) within⟩
  | ignored =>
      exact ⟨⟨orderly, established, within⟩, [],
        .of_quiet (by simp) (by simp) rfl rfl (fun _ => rfl) within⟩
  | @callback callback _ served =>
      obtain ⟨slot, shows⟩ := orderly
      obtain ⟨nextSlot, -, nextShows⟩ := Line.callback_shows shows served
      refine ⟨⟨⟨nextSlot, nextShows⟩, established, within⟩, _,
        .of_quiet rfl ?_ rfl rfl (fun _ => rfl) within⟩
      cases callback <;> simp [Entry.ofCallback, Entry.tells, Entry.delay]
  | connect =>
      refine ⟨⟨orderly, by simp [onConnect], Nat.zero_le _⟩, [],
        .of_quiet (by simp [onConnect]) (by simp) rfl rfl (fun other => ?_) within⟩
      exact (other rfl).elim
  | lose up =>
      exact ⟨Counts.onDisconnect ⟨orderly, established, within⟩,
        handles_onDisconnect rfl (if_pos (established.mp up)).symm within⟩
  | fail down =>
      have failed : session.retries ≠ 0 := fun zero => by simp [established.mpr zero] at down
      exact ⟨Counts.onDisconnect ⟨orderly, established, within⟩,
        handles_onDisconnect rfl (if_neg failed).symm within⟩

theorem start_counts (statusCache busyHeart heartBeat : Int32) :
    (start statusCache busyHeart heartBeat).Counts :=
  ⟨start_orderly statusCache busyHeart heartBeat, by simp [start], by simp [start]⟩

/-- A part of a run that establishes no connection starts the timers of a growing counter. -/
theorem delays_of_run {session final : Session} {events : List Event} (counts : session.Counts)
    (failing : ∀ event ∈ events, event ≠ .connect)
    (execution : machine.run session events = some final) :
    ∃ entries, final.log = session.log ++ entries ∧
      delays entries = backOff session.retries (events.map Event.disconnects).sum := by
  induction events generalizing session with
  | nil =>
      obtain rfl : session = final := by simpa using execution
      exact ⟨[], by simp, by simp [delays]⟩
  | cons event events ih =>
      obtain ⟨other, failing⟩ := List.forall_mem_cons.mp failing
      obtain ⟨next, step, rest⟩ := Machine.run_cons_eq_some.mp execution
      obtain ⟨after, entries, handles⟩ := counts_step counts step
      obtain ⟨more, log, timers⟩ := ih after failing rest
      refine ⟨entries ++ more, by rw [log, handles.log, List.append_assoc], ?_⟩
      rw [delays_append, handles.timers, timers, handles.retries other, List.map_cons,
        List.sum_cons, backOff_add counts.within]

/-- The handler calls `OnDisConnect2` once for every connection that is lost, never for an attempt
that fails, and it starts one timer for every `OnDisconnect`.  Between two connections the delays
are 100 ms for the first ten retries and 1000 ms for all others. -/
theorem reconnects_of_run (statusCache busyHeart heartBeat : Int32) {events : List Event}
    {final : Session}
    (execution : machine.run (start statusCache busyHeart heartBeat) events = some final) :
    List.Forall₂ Event.Answered events
        (machine.added Session.log (start statusCache busyHeart heartBeat) events) ∧
      ∀ front middle back, events = front ++ .connect :: middle ++ .connect :: back →
        (∀ event ∈ middle, event ≠ .connect) →
        ∃ before after entries,
          machine.run (start statusCache busyHeart heartBeat) (front ++ [.connect]) =
              some before ∧
            machine.run before middle = some after ∧ after.log = before.log ++ entries ∧
            delays entries =
              List.replicate (min (middle.map Event.disconnects).sum 10) 100 ++
                List.replicate ((middle.map Event.disconnects).sum - 10) 1000 := by
  have counts := start_counts statusCache busyHeart heartBeat
  constructor
  · have keep {session next : Session} {event : Event} (counts : session.Counts)
        (moved : machine.step session event = some next) :
        next.Counts ∧ ∃ entries, next.log = session.log ++ entries ∧ event.Answered entries := by
      obtain ⟨kept, entries, handles⟩ := counts_step counts moved
      exact ⟨kept, entries, handles.log, handles.answered⟩
    exact Machine.forall₂_added keep counts execution
  · rintro front middle back rfl failing
    rw [List.append_assoc, List.cons_append, Machine.run_append, Option.bind_eq_some_iff]
      at execution
    obtain ⟨reached, first, rest⟩ := execution
    obtain ⟨before, connects, rest⟩ := Machine.run_cons_eq_some.mp rest
    rw [Machine.run_append, Option.bind_eq_some_iff] at rest
    obtain ⟨after, second, -⟩ := rest
    have reachedCounts : reached.Counts :=
      Machine.invariant_of_run (fun counts moved => (counts_step counts moved).1) counts first
    have beforeCounts := (counts_step reachedCounts connects).1
    have zero : before.retries = 0 := by
      obtain ⟨-, moved⟩ := Option.ite_none_left_eq_some.mp connects
      obtain rfl := Option.some.inj moved
      rfl
    obtain ⟨entries, log, timers⟩ := delays_of_run beforeCounts failing second
    rw [zero] at timers
    exact ⟨before, after, entries, Machine.run_concat first connects, second, log, timers⟩

/-- An attempt fails before each of two connections, and both are lost. -/
theorem reconnects_of_two_losses :
    ∃ final,
      machine.run (start 0 0 0) [.fail, .connect, .lose, .fail, .connect, .lose] = some final ∧
        List.Forall₂ Event.Answered [.fail, .connect, .lose, .fail, .connect, .lose]
          (machine.added Session.log (start 0 0 0)
            [.fail, .connect, .lose, .fail, .connect, .lose]) :=
  ⟨_, rfl, (reconnects_of_run 0 0 0 rfl).1⟩

end Session

end CncRemote
