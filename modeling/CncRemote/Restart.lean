import CncRemote.Delivery

/-!
# Restarts of the server

A client keeps `m_errIndex` and `m_msgIndex` when it connects again, also if the server has been
started anew in between and its lists are empty.  As many entries of the new process as the client
has read before are then skipped.  Nothing is skipped as long as a client connects to a new process
only before it has read anything, and what it reads comes from the process that it is connected to.
-/

namespace CncRemote

/-- The request to which a state was decoded. -/
def Entry.decodedRequest : Entry → Option Request
  | .decoded asked => some asked
  | _ => none

namespace Station

/-- What a server process has given to the client. -/
def givenBy (station : Station) (kind : Kind) (server : Nat) : List Bytes :=
  (station.given kind).filter (·.1 = server) |>.map Prod.snd

/-- The state that the client shows was read from the server process. -/
def ReadFrom (station : Station) (server : Nat) : Prop :=
  ∃ request ∈ (station.session.log.filterMap Entry.decodedRequest).getLast?,
    station.peers request.connection = server

/-- The client is connected and shows a state of the process at the other end: no entry below its
index is missing, and once nothing is pending, none that the state counts. -/
def Complete (kind : Kind) (servers : Servers) (station : Station) : Prop :=
  station.session.connected = true → station.ReadFrom station.peer →
    let entries := (servers.cores station.peer).entries kind
    let given := station.givenBy kind station.peer
    (entries.take (station.index kind).toNat).Sublist given ∧
      (station.has kind = false → (entries.take (station.counted kind)).Sublist given)

/-- The client connects to another process only before it has read anything, and a call returns
what the process at the other end of the connection has logged. -/
def Fresh (kind : Kind) (servers : Servers) (station : Station) : ClientEvent → Prop
  | .session .connect => station.peer = servers.current ∨ station.index kind = 0
  | .finish => ∀ fetch ∈ station.fetch, fetch.kind = kind →
      ∀ answer ∈ fetch.text, answer.1 = station.peer ∧ answer.2 ≠ []
  | _ => True

instance (kind : Kind) (servers : Servers) (station : Station) :
    ∀ event, Decidable (station.Fresh kind servers event)
  | .session .connect => inferInstanceAs (Decidable (_ ∨ _))
  | .finish => inferInstanceAs (Decidable (∀ fetch ∈ station.fetch, _))
  | .session (.poll _) | .session (.command _ _) | .session (.callback _) | .session .lose
  | .session .fail | .serve | .deliver | .call _ | .answer | .fail =>
      inferInstanceAs (Decidable True)

/-- What the connected process has logged below the index of the client has been given to it, and
the text that the call in progress has got is the entry that comes next. -/
structure Covered (kind : Kind) (servers : Servers) (station : Station) : Prop where
  known : station.peer ≤ servers.current
  reached : (station.index kind).toNat ≤ ((servers.cores station.peer).entries kind).length
  covered : (((servers.cores station.peer).entries kind).take
    (station.index kind).toNat).Sublist (station.givenBy kind station.peer)
  next : ∀ fetch ∈ station.fetch, fetch.kind = kind → fetch.index = station.index kind ∧
    ∀ answer ∈ fetch.text, answer.2 ≠ [] → answer.1 ≤ servers.current ∧
      ((servers.cores answer.1).entries kind)[fetch.index.toNat]? = some answer.2

end Station

namespace Servers

theorem CoreCase.prefix {core next : Core} {event : ServerEvent}
    (changed : CoreCase core event next) (kind : Kind) :
    core.entries kind <+: next.entries kind := by
  rw [changed.entries]
  exact List.prefix_append _ _

theorem entries_prefix {servers next : Servers} {event : ServerEvent}
    (moved : servers.step event = some next) (kind : Kind) {server : Nat}
    (known : server ≤ servers.current) : server ≤ next.current ∧
      (servers.cores server).entries kind <+: (next.cores server).entries kind := by
  cases step_cases moved with
  | running changed =>
      refine ⟨known, ?_⟩
      by_cases same : server = servers.current
      · subst same
        simpa [setCore] using changed.prefix kind
      · simp [setCore, same]
  | restart =>
      refine ⟨known.trans (Nat.le_succ _), ?_⟩
      simp [Nat.ne_of_lt (Nat.lt_succ_of_le known)]

end Servers

namespace Station

section Covered

variable {kind : Kind} {servers : Servers} {station : Station}

theorem Covered.complete (covered : station.Covered kind servers) :
    station.Complete kind servers := by
  intro _ _
  refine ⟨covered.covered, fun nothing => ?_⟩
  rw [has, decide_eq_false_iff_not, UInt32.not_lt] at nothing
  exact (List.take_sublist_take_left (UInt32.le_iff_toNat_le.mp nothing)).trans covered.covered

theorem Covered.server (covered : station.Covered kind servers) {next : Servers}
    {event : ServerEvent} (moved : servers.step event = some next) :
    station.Covered kind next := by
  obtain ⟨known, rest, grows⟩ := Servers.entries_prefix moved kind covered.known
  refine ⟨known, ?_, ?_, fun fetch asked concerns => ?_⟩
  · rw [← grows, List.length_append]
    exact covered.reached.trans (Nat.le_add_right _ _)
  · rw [← grows, List.take_append_of_le_length covered.reached]
    exact covered.covered
  · obtain ⟨index, texts⟩ := covered.next fetch asked concerns
    refine ⟨index, fun answer text filled => ?_⟩
    obtain ⟨started, stored⟩ := texts answer text filled
    obtain ⟨remains, later⟩ := Servers.entries_prefix moved kind started
    obtain ⟨rest, grows⟩ := later
    rw [← grows, List.getElem?_append_left (List.getElem?_eq_some_iff.mp stored).1]
    exact ⟨remains, stored⟩

theorem Covered.of_session (covered : station.Covered kind servers) {next : Station}
    (peer : next.peer = station.peer) (index : next.index = station.index)
    (fetch : next.fetch = station.fetch) (given : next.given = station.given) :
    next.Covered kind servers where
  known := by rw [peer]; exact covered.known
  reached := by rw [peer, index]; exact covered.reached
  covered := by
    rw [peer, index, givenBy, given]
    exact covered.covered
  next := by
    rw [index, fetch]
    exact covered.next

/-- A client that has read nothing connects to a process. -/
theorem Covered.connect (covered : station.Covered kind servers) (unread : station.index kind = 0)
    {next : Station} (peer : next.peer = servers.current) (index : next.index = station.index)
    (fetch : next.fetch = station.fetch) : next.Covered kind servers where
  known := peer.le
  reached := by
    rw [index, unread]
    exact Nat.zero_le _
  covered := by
    rw [index, unread]
    exact List.nil_sublist _
  next := by
    rw [index, fetch]
    exact covered.next

@[simp] theorem finish_peer (station : Station) (fetch : Fetch) (answer : Nat × Bytes) :
    (station.finish fetch answer).peer = station.peer := rfl

theorem toNat_advance (index : UInt32) :
    (index + 1).toNat = index.toNat + 1 ∨ (index + 1).toNat = 0 := by
  have below := index.toNat_lt
  rw [UInt32.toNat_add, UInt32.toNat_one]
  omega

/-- A call returns what the process at the other end of the connection has logged. -/
theorem Covered.finish (covered : station.Covered kind servers) {fetch : Fetch}
    (asked : station.fetch = some fetch) (concerns : fetch.kind = kind) {answer : Nat × Bytes}
    (answered : fetch.text = some answer) (current : answer.1 = station.peer)
    (filled : answer.2 ≠ []) : (station.finish fetch answer).Covered kind servers := by
  subst concerns
  obtain ⟨index, texts⟩ := covered.next fetch asked rfl
  obtain ⟨-, stored⟩ := texts answer answered filled
  rw [index, current] at stored
  have below := (List.getElem?_eq_some_iff.mp stored).1
  have given : (station.finish fetch answer).givenBy fetch.kind station.peer =
      station.givenBy fetch.kind station.peer ++ [answer.2] := by
    simp [givenBy, Station.finish, current]
  have advanced : (station.finish fetch answer).index fetch.kind =
      station.index fetch.kind + 1 := by
    simp [Station.finish]
  refine ⟨covered.known, ?_, ?_, ?_⟩
  · rw [advanced, finish_peer]
    rcases toNat_advance (station.index fetch.kind) with next | wrapped
    · rw [next]
      exact below
    · rw [wrapped]
      exact Nat.zero_le _
  · rw [advanced]
    rw [finish_peer, given]
    rcases toNat_advance (station.index fetch.kind) with next | wrapped
    · rw [next, List.take_add_one, stored]
      exact covered.covered.append (List.Sublist.refl _)
    · rw [wrapped]
      exact List.nil_sublist _
  · rintro _ ⟨⟩

theorem Covered.finish_other (covered : station.Covered kind servers) {fetch : Fetch}
    (other : fetch.kind ≠ kind) (answer : Nat × Bytes) :
    (station.finish fetch answer).Covered kind servers := by
  have index : (station.finish fetch answer).index kind = station.index kind := by
    simp [Station.finish, other.symm]
  have given : (station.finish fetch answer).givenBy kind station.peer =
      station.givenBy kind station.peer := by
    simp [givenBy, Station.finish, other.symm]
  refine ⟨covered.known, ?_, ?_, ?_⟩
  · rw [index]
    exact covered.reached
  · rw [index]
    rw [finish_peer, given]
    exact covered.covered
  · rintro _ ⟨⟩

theorem covered_step {next : Station} {event : ClientEvent}
    (covered : station.Covered kind servers) (fresh : station.Fresh kind servers event)
    (moved : station.step servers event = some next) : next.Covered kind servers := by
  cases step_cases moved with
  | session _ other stepped =>
      refine covered.of_session ?_ rfl rfl rfl
      exact congrArg station.peers (Session.connection_step other stepped)
  | @connect session stepped =>
      have current : Station.peer
          { station with
            session
            peers := Function.update station.peers session.connection servers.current } =
          servers.current := Function.update_self _ _ _
      rcases fresh with same | unread
      · exact covered.of_session (current.trans same.symm) rfl rfl rfl
      · exact covered.connect unread current rfl rfl
  | serve => exact covered.of_session rfl rfl rfl rfl
  | deliver _ delivered =>
      refine covered.of_session ?_ rfl rfl rfl
      exact congrArg station.peers (Session.connection_step (by simp) delivered)
  | @call other =>
      rw [getNext]
      split
      · exact covered
      · refine ⟨covered.known, covered.reached, covered.covered, fun fetch asked concerns => ?_⟩
        obtain rfl := Option.some.inj asked
        obtain rfl : other = kind := concerns
        refine ⟨rfl, ?_⟩
        rintro _ ⟨⟩
  | @answer fetch asked =>
      refine ⟨covered.known, covered.reached, covered.covered, fun answered same concerns => ?_⟩
      obtain rfl := Option.some.inj same
      obtain ⟨index, -⟩ := covered.next fetch asked concerns
      refine ⟨index, fun answer text filled => ?_⟩
      obtain rfl := Option.some.inj text
      obtain rfl : fetch.kind = kind := concerns
      exact ⟨Nat.le_refl _, getElem?_of_entryAt rfl filled⟩
  | @finish fetch answer asked answered =>
      by_cases concerns : fetch.kind = kind
      · obtain ⟨current, filled⟩ := fresh fetch asked concerns answer answered
        exact covered.finish asked concerns answered current filled
      · exact covered.finish_other concerns answer
  | fail =>
      refine ⟨covered.known, covered.reached, covered.covered, ?_⟩
      rintro _ ⟨⟩

end Covered

end Station

namespace Plant

variable {ι : Type*} [DecidableEq ι]

/-- The client does not carry its index over to another process. -/
def Fresh (client : ι) (kind : Kind) (plant : Plant ι) : PlantEvent ι → Prop
  | .server _ => True
  | .client other event =>
      other = client → (plant.stations client).Fresh kind plant.servers event

instance (client : ι) (kind : Kind) (plant : Plant ι) :
    ∀ event, Decidable (plant.Fresh client kind event)
  | .server _ => inferInstanceAs (Decidable True)
  | .client _ _ => inferInstanceAs (Decidable (_ → _))

theorem covered_step {client : ι} {kind : Kind} {plant next : Plant ι} {event : PlantEvent ι}
    (covered : (plant.stations client).Covered kind plant.servers)
    (fresh : plant.Fresh client kind event) (moved : machine.step plant event = some next) :
    (next.stations client).Covered kind next.servers := by
  cases event with
  | server event =>
      obtain ⟨servers, stepped, rfl⟩ := Option.map_eq_some_iff.mp moved
      exact covered.server stepped
  | client other event =>
      obtain ⟨station, stepped, rfl⟩ := Option.map_eq_some_iff.mp moved
      by_cases same : client = other
      · subst same
        simpa using Station.covered_step covered (fresh rfl) stepped
      · simpa [same] using covered

/-- If a client never carries its index over to another process, it misses no entry of the process
that it is connected to, however often the server is restarted. -/
theorem always_complete_of_fresh (memory : ι → Int32 × Int32 × Int32) (client : ι) (kind : Kind)
    {events : List (PlantEvent ι)}
    (fresh : machine.Guarded (Fresh client kind) (start memory) events) :
    machine.Always (fun plant => (plant.stations client).Complete kind plant.servers)
      (start memory) events := by
  have covered : ((start memory).stations client).Covered kind (start memory).servers :=
    ⟨Nat.le_refl _, Nat.zero_le _, List.nil_sublist _, by simp [start, Station.start]⟩
  exact (fresh.always covered_step covered).mono fun _ => Station.Covered.complete

/-- The server is restarted while the client waits for a state on its first connection. -/
def restart : List (PlantEvent Unit) :=
  [.server .restart, .client () (.session .lose),
    .client () (.session (.callback (.error ⟨2, "GetState", 1⟩ "closed")))]

/-- A client that has read nothing gets the first error of the new process. -/
theorem always_complete_after_restart :
    machine.Always (fun plant => (plant.stations ()).Complete .error plant.servers)
      (start fun _ : Unit => (0, 0, 0))
      (readState ++ restart ++ logError [97] ++ readState ++ getError) :=
  always_complete_of_fresh (fun _ => (0, 0, 0)) () .error (by decide +kernel)

/-- A client that has read an error of the first process misses the first error of the next one. -/
theorem not_complete_of_restart :
    ¬∀ (memory : Unit → Int32 × Int32 × Int32) (kind : Kind) (events : List (PlantEvent Unit)),
      machine.Always (fun plant => (plant.stations ()).Complete kind plant.servers)
        (start memory) events := by
  intro always
  obtain ⟨final, execution, connected, peer, read, entries, index, given⟩ :
      ∃ final, machine.run (start fun _ : Unit => (0, 0, 0))
          (logError [97] ++ readState ++ getError ++ restart ++ logError [98] ++ readState) =
            some final ∧
        (final.stations ()).session.connected = true ∧ (final.stations ()).peer = 1 ∧
        (final.stations ()).ReadFrom 1 ∧ (final.servers.cores 1).entries .error = [[98]] ∧
        (final.stations ()).index .error = 1 ∧ (final.stations ()).givenBy .error 1 = [] :=
    ⟨_, rfl, rfl, rfl, ⟨_, rfl, rfl⟩, rfl, rfl, rfl⟩
  have complete := Machine.always_iff.mp (always _ .error _) _ final List.prefix_rfl execution
  have covered := (complete connected (by rwa [peer])).1
  rw [peer, entries, index, given] at covered
  exact absurd covered (by decide)

end Plant

end CncRemote
