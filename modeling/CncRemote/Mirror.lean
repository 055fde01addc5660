import CncRemote.Carrying
import CncRemote.Protocols
import CncRemote.Readings

/-!
# What a client shows of the machine

A client shows the state that its last poll has decoded.  Connections are lost, servers are
restarted and responses arrive late; still, `linear_of_run` says that the states which a client
shows are those of the server at successive moments, each of them after the state was asked for.
-/

namespace CncRemote

/-- A plant as it has been so far, and what one of its clients has read. -/
structure Mirror (ι : Type*) where
  plant : Plant ι
  /-- The state of the machine at every moment, which is the beginning of an event. -/
  past : List (State Double)
  /-- The moment after the client has sent its latest request. -/
  asked : Nat
  /-- The states that the client has decoded, oldest first. -/
  shown : List (Reading (State Double))
  /-- The connection was lost after the latest of them was decoded. -/
  lost : Bool

namespace Mirror

variable {ι : Type*}

/-- Nothing has happened yet. -/
def start (memory : ι → Int32 × Int32 × Int32) : Mirror ι := ⟨.start memory, [], 0, [], false⟩

/-- What is noted of an event that makes another plant of a plant. -/
def note (client : ι) (mirror : Mirror ι) (next : Plant ι) : Mirror ι :=
  let before := (mirror.plant.stations client).session
  let after := (next.stations client).session
  let entries := after.log.drop before.log.length
  let now := mirror.past.length
  { plant := next
    past := mirror.past ++ [mirror.plant.servers.state]
    asked := if entries.any Entry.isRequest then now + 1 else mirror.asked
    shown :=
      if entries.any Entry.isDecoded then
        mirror.shown ++ [⟨mirror.asked, now, after.client.state⟩]
      else
        mirror.shown
    lost :=
      if entries.any Entry.isDecoded then false
      else mirror.lost || entries.any Entry.isLoss }

/-- The plants of a run, with what is noted of them. -/
def machine [DecidableEq ι] (client : ι) : Machine (Mirror ι) (PlantEvent ι) :=
  ⟨fun mirror event => (mirror.plant.step event).map (mirror.note client)⟩

end Mirror

namespace Mirror

variable {ι : Type*} {client : ι} {mirror : Mirror ι} {next : Plant ι} {moments : List Nat}

/-- If it is a state, it is one of the past that was asked for by the latest request, later than
these moments. -/
def Recent (past : List (State Double)) (asked : Nat) (moments : List Nat) (reply : Reply) : Prop :=
  ∀ state, reply = .state state →
    ∃ moment, asked ≤ moment ∧ past[moment]? = some state ∧ ∀ earlier ∈ moments, earlier < moment

/-- The state that the client has decoded last; it shows another one before the first. -/
def last (mirror : Mirror ι) : State Double :=
  (mirror.shown.getLast?.map Reading.value).getD .initial

/-- What is left of that state. -/
def shows (mirror : Mirror ι) : State Double :=
  if mirror.lost then mirror.last.lost else mirror.last

/-- What the client has shown is what it was at these moments, and what it is going to show is more
recent. -/
structure Faithful (client : ι) (mirror : Mirror ι) (moments : List Nat) : Prop where
  linear : Linear mirror.past moments mirror.shown
  asked : mirror.asked ≤ mirror.past.length
  display : (mirror.plant.stations client).display = mirror.shows
  carrying : (mirror.plant.stations client).Carrying (Recent mirror.past mirror.asked moments)

theorem start_faithful (memory : ι → Int32 × Int32 × Int32) (client : ι) :
    (start memory).Faithful client [] where
  linear := .nil _
  asked := Nat.le_refl 0
  display := rfl
  carrying :=
    { sent := by simp [start, Plant.start, Station.start]
      slot :=
        ⟨.free, Line.new_shows, by simp [start, Plant.start, Station.start, Station.Carries]⟩ }

theorem Recent.pass {past : List (State Double)} {asked : Nat} {reply : Reply}
    (recent : Recent past asked moments reply) (now : State Double) :
    Recent (past ++ [now]) asked moments reply := by
  intro state result
  obtain ⟨moment, later, found, last⟩ := recent state result
  exact ⟨moment, later, Linear.getElem?_concat found now, last⟩

theorem Faithful.recent_reply (faithful : mirror.Faithful client moments) (core : Core)
    (request : Request) :
    Recent (mirror.past ++ [core.state]) mirror.asked moments (core.reply request).result := by
  intro state result
  obtain rfl := Core.state_of_reply result
  exact ⟨mirror.past.length, faithful.asked, by simp, faithful.linear.bounded⟩

theorem Faithful.note (faithful : mirror.Faithful client moments) {entries : List Entry}
    (log : (next.stations client).session.log =
      (mirror.plant.stations client).session.log ++ entries)
    (passes : (mirror.plant.stations client).Passes (Recent mirror.past mirror.asked moments)
      (Recent (mirror.past ++ [mirror.plant.servers.state]) mirror.asked moments)
      (next.stations client) entries) :
    ∃ after, (mirror.note client next).Faithful client after := by
  have passed := faithful.linear.pass mirror.plant.servers.state
  have longer : (mirror.past ++ [mirror.plant.servers.state]).length = mirror.past.length + 1 :=
    List.length_append
  have asked : (if entries.any Entry.isRequest then mirror.past.length + 1 else mirror.asked) ≤
      mirror.past.length + 1 := by
    split
    · exact Nat.le_refl _
    · exact faithful.asked.trans (Nat.le_succ _)
  obtain ⟨displays, carries⟩ := passes
  rw [Mirror.note, log, List.drop_left]
  cases decodes : entries.any Entry.isDecoded with
  | false =>
      have shows := (if_neg (by rw [decodes]; exact Bool.false_ne_true)).mp displays
      have display : (next.stations client).display =
          if mirror.lost || entries.any Entry.isLoss then mirror.last.lost else mirror.last := by
        rw [shows, faithful.display, State.after, Mirror.shows]
        cases mirror.lost <;> cases entries.any Entry.isLoss <;> rfl
      refine ⟨moments, passed, longer ▸ asked, display, ?_⟩
      rcases carries with ⟨-, asks, carrying⟩ | nothing
      · simp only [asks]
        exact carrying
      · exact nothing _
  | true =>
      have nothing : ∀ any, (next.stations client).Carrying any := by
        rcases carries with ⟨none, -⟩ | nothing
        · rw [decodes] at none
          cases none
        · exact nothing
      obtain ⟨moment, later, found, last⟩ := (if_pos decodes).mp displays _ rfl
      refine ⟨moments ++ [moment], ?_, longer ▸ asked, ?_, nothing _⟩
      · exact (faithful.linear.read later found last).pass _
      · simp [Mirror.shows, Mirror.last, Station.display]

theorem Faithful.step [DecidableEq ι] (faithful : mirror.Faithful client moments)
    {event : PlantEvent ι} (moved : mirror.plant.step event = some next) :
    ∃ after, (mirror.note client next).Faithful client after := by
  have now := faithful.recent_reply (mirror.plant.servers.cores mirror.plant.servers.current)
  have weaken (reply : Reply) (recent : Recent mirror.past mirror.asked moments reply) :=
    recent.pass mirror.plant.servers.state
  rcases Plant.station_cases client moved with ⟨own, -, stepped⟩ | ⟨same, -⟩
  · obtain ⟨entries, log, passes⟩ := faithful.carrying.step weaken now stepped
    exact faithful.note log passes
  · have carries := faithful.carrying.mono weaken
    rw [← same] at carries
    refine faithful.note (by rw [same, List.append_nil]) ⟨?_, .inl ⟨rfl, rfl, carries⟩⟩
    rw [same]
    rfl

/-- Whatever happens to a plant: the states that a client decodes are those of the running server at
moments that follow one another, each of them after the client has asked for the state and before it
is decoded; and the client shows the one that it has decoded last, with `NO_SERVER` in it exactly if
the connection was lost since. -/
theorem linear_of_run [DecidableEq ι] (memory : ι → Int32 × Int32 × Int32) (client : ι)
    {events : List (PlantEvent ι)} {plant : Plant ι}
    (execution : Plant.machine.run (Plant.start memory) events = some plant) :
    ∃ mirror, (machine client).run (start memory) events = some mirror ∧ mirror.plant = plant ∧
      (∃ moments, Linear mirror.past moments mirror.shown) ∧
      (plant.stations client).display = mirror.shows := by
  have shows {mirror : Mirror ι} {event : PlantEvent ι} :
      ((machine client).step mirror event).map Mirror.plant =
        Plant.machine.step mirror.plant event := by
    rw [machine, Option.map_map]
    exact Option.map_id'
  have runs := @Machine.run_map _ _ _ (machine client) Plant.machine Mirror.plant (fun _ => True)
    (fun _ _ => trivial) (fun _ => shows) (start memory) trivial events
  have execution : ((machine client).run (start memory) events).map Mirror.plant = some plant :=
    runs.trans execution
  obtain ⟨mirror, ran, same⟩ := Option.map_eq_some_iff.mp execution
  have keep {before after : Mirror ι} {event : PlantEvent ι}
      (faithful : ∃ moments, before.Faithful client moments)
      (moved : (machine client).step before event = some after) :
      ∃ moments, after.Faithful client moments := by
    obtain ⟨moments, faithful⟩ := faithful
    obtain ⟨next, stepped, rfl⟩ := Option.map_eq_some_iff.mp moved
    exact faithful.step stepped
  obtain ⟨moments, faithful⟩ :=
    Machine.invariant_of_run keep ⟨[], start_faithful memory client⟩ ran
  exact ⟨mirror, ran, same, ⟨moments, faithful.linear⟩, same ▸ faithful.display⟩

theorem linear_readState :
    ∃ plant mirror,
      Plant.machine.run (Plant.start fun _ : Unit => (0, 0, 0)) Plant.readState = some plant ∧
      (machine ()).run (start fun _ : Unit => (0, 0, 0)) Plant.readState = some mirror ∧
      mirror.plant = plant ∧
      mirror.shown.length = 1 ∧
      (∃ moments, Linear mirror.past moments mirror.shown) ∧
      (plant.stations ()).display = mirror.shows := by
  obtain ⟨plant, execution⟩ : ∃ plant,
      Plant.machine.run (Plant.start fun _ : Unit => (0, 0, 0)) Plant.readState = some plant :=
    ⟨_, rfl⟩
  obtain ⟨mirror, ran, same, linear, displays⟩ := linear_of_run (fun _ => (0, 0, 0)) () execution
  have once : ((machine ()).run (start fun _ : Unit => (0, 0, 0)) Plant.readState).map
      (fun mirror => mirror.shown.length) = some 1 := rfl
  rw [ran] at once
  exact ⟨plant, mirror, execution, ran, same, Option.some.inj once, linear, displays⟩

end Mirror

end CncRemote
