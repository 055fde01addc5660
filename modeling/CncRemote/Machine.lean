import Mathlib.Data.List.Infix

/-!
# Machines driven by events

A machine has a partial step function: an event that its state does not allow has no successor.
`Always` and `Guarded` follow one list of events through the states it reaches.  The central
theorem `always_iff_guarded` turns three facts about single steps into an exact account of the
runs on which a property holds throughout.
-/

/-- A deterministic machine whose step may be undefined. -/
structure Machine (σ ε : Type*) where
  /-- Successor of a state under one event, if the state allows the event. -/
  step : σ → ε → Option σ

namespace Machine

variable {σ ε : Type*} (machine : Machine σ ε)

/-- Run a list of events, failing at the first one that is not allowed. -/
def run : σ → List ε → Option σ
  | state, [] => some state
  | state, event :: events => (machine.step state event).bind fun next => run next events

/-- Two machines that take the same events. -/
def pair {τ : Type*} (left : Machine σ ε) (right : Machine τ ε) : Machine (σ × τ) ε :=
  ⟨fun states event => (left.step states.1 event).bind fun next =>
    (right.step states.2 event).map (next, ·)⟩

/-- The property holds in the initial state and in every state the events reach. -/
def Always (property : σ → Prop) : σ → List ε → Prop
  | state, [] => property state
  | state, event :: events =>
      property state ∧ ∀ next, machine.step state event = some next → Always property next events

/-- Every step that the events take satisfies the guard in the state it is taken from. -/
def Guarded (guard : σ → ε → Prop) : σ → List ε → Prop
  | _, [] => True
  | state, event :: events =>
      ∀ next, machine.step state event = some next →
        guard state event ∧ Guarded guard next events

/-- What each event of a run adds to a log. -/
def added {α : Type*} (log : σ → List α) : σ → List ε → List (List α)
  | _, [] => []
  | state, event :: events =>
      match machine.step state event with
      | none => []
      | some next => (log next).drop (log state).length :: added log next events

variable {machine}

@[simp] theorem run_nil (state : σ) : machine.run state [] = some state := rfl

theorem run_cons (state : σ) (event : ε) (events : List ε) :
    machine.run state (event :: events) =
      (machine.step state event).bind fun next => machine.run next events := rfl

theorem run_cons_eq_some {state final : σ} {event : ε} {events : List ε} :
    machine.run state (event :: events) = some final ↔
      ∃ next, machine.step state event = some next ∧ machine.run next events = some final := by
  rw [run_cons, Option.bind_eq_some_iff]

/-- A pair moves when both of its machines do. -/
theorem pair_step_eq_some {τ : Type*} {left : Machine σ ε} {right : Machine τ ε}
    {states next : σ × τ} {event : ε} :
    (pair left right).step states event = some next ↔
      left.step states.1 event = some next.1 ∧ right.step states.2 event = some next.2 := by
  obtain ⟨nextLeft, nextRight⟩ := next
  simp only [pair, Option.bind_eq_some_iff, Option.map_eq_some_iff, Prod.mk.injEq]
  constructor
  · rintro ⟨_, leftStep, _, rightStep, rfl, rfl⟩
    exact ⟨leftStep, rightStep⟩
  · rintro ⟨leftStep, rightStep⟩
    exact ⟨nextLeft, leftStep, nextRight, rightStep, rfl, rfl⟩

theorem run_append (state : σ) (front back : List ε) :
    machine.run state (front ++ back) =
      (machine.run state front).bind fun middle => machine.run middle back := by
  induction front generalizing state with
  | nil => rfl
  | cons event front ih =>
      simp only [List.cons_append, run_cons, Option.bind_assoc]
      exact Option.bind_congr fun next _ => ih next

/-- A run that takes one more event. -/
theorem run_concat {state middle final : σ} {events : List ε} {event : ε}
    (execution : machine.run state events = some middle)
    (step : machine.step middle event = some final) :
    machine.run state (events ++ [event]) = some final := by
  rw [run_append, execution, Option.bind_some, run_cons, step, Option.bind_some, run_nil]

/-- A property preserved by every step holds at the end of every run. -/
theorem invariant_of_run {inv : σ → Prop}
    (keep : ∀ {state event next}, inv state → machine.step state event = some next → inv next)
    {state final : σ} {events : List ε} (start : inv state)
    (execution : machine.run state events = some final) : inv final := by
  induction events generalizing state with
  | nil =>
      obtain rfl : state = final := by simpa using execution
      exact start
  | cons event events ih =>
      obtain ⟨next, step, rest⟩ := run_cons_eq_some.mp execution
      exact ih (keep start step) rest

/-- A simulation of single steps carries whole runs over. -/
theorem simulate {τ : Type*} {abstract : Machine τ ε} {shows : σ → τ → Prop}
    (sim : ∀ {state image event next}, shows state image →
      machine.step state event = some next →
        ∃ nextImage, abstract.step image event = some nextImage ∧ shows next nextImage)
    {state final : σ} {image : τ} {events : List ε} (start : shows state image)
    (execution : machine.run state events = some final) :
    ∃ finalImage, abstract.run image events = some finalImage ∧ shows final finalImage := by
  induction events generalizing state image with
  | nil =>
      obtain rfl : state = final := by simpa using execution
      exact ⟨image, rfl, start⟩
  | cons event events ih =>
      obtain ⟨next, step, rest⟩ := run_cons_eq_some.mp execution
      obtain ⟨nextImage, imageStep, nextShows⟩ := sim start step
      obtain ⟨finalImage, imageRun, finalShows⟩ := ih nextShows rest
      exact ⟨finalImage, run_cons_eq_some.mpr ⟨nextImage, imageStep, imageRun⟩, finalShows⟩

theorem Always.start {property : σ → Prop} {state : σ} {events : List ε}
    (always : machine.Always property state events) : property state := by
  cases events with
  | nil => exact always
  | cons event events => exact always.1

/-- A decidable property can be checked along a list of events. -/
instance decidableAlways (property : σ → Prop) [DecidablePred property] :
    ∀ (state : σ) (events : List ε), Decidable (machine.Always property state events)
  | state, [] => inferInstanceAs (Decidable (property state))
  | state, event :: events =>
      match step : machine.step state event with
      | none => decidable_of_iff (property state) (by simp [Always, step])
      | some next =>
          have := decidableAlways property next events
          decidable_of_iff (property state ∧ machine.Always property next events)
            (by simp [Always, step])

/-- A decidable guard can be checked along a list of events. -/
instance decidableGuarded (guard : σ → ε → Prop) [∀ state event, Decidable (guard state event)] :
    ∀ (state : σ) (events : List ε), Decidable (machine.Guarded guard state events)
  | _, [] => inferInstanceAs (Decidable True)
  | state, event :: events =>
      match step : machine.step state event with
      | none => isTrue (by simp [Guarded, step])
      | some next =>
          have := decidableGuarded guard next events
          decidable_of_iff (guard state event ∧ machine.Guarded guard next events)
            (by simp [Guarded, step])

theorem Always.rest {property : σ → Prop} {state middle : σ} {front back : List ε}
    (always : machine.Always property state (front ++ back))
    (execution : machine.run state front = some middle) :
    machine.Always property middle back := by
  induction front generalizing state with
  | nil =>
      obtain rfl : state = middle := by simpa using execution
      exact always
  | cons event front ih =>
      obtain ⟨next, step, rest⟩ := run_cons_eq_some.mp execution
      exact ih (always.2 next step) rest

/-- What holds throughout a run holds wherever an initial part of the run ends. -/
theorem Always.of_run {property : σ → Prop} {state final : σ} {front back : List ε}
    (always : machine.Always property state (front ++ back))
    (execution : machine.run state front = some final) : property final :=
  (always.rest execution).start

/-- `Always` speaks about the states that the initial parts of the run reach. -/
theorem always_iff {property : σ → Prop} {state : σ} {events : List ε} :
    machine.Always property state events ↔
      ∀ front final, front <+: events → machine.run state front = some final →
        property final := by
  constructor
  · rintro always front final ⟨back, rfl⟩ execution
    exact always.of_run execution
  · intro reached
    induction events generalizing state with
    | nil => exact reached [] state List.prefix_rfl rfl
    | cons event events ih =>
        refine ⟨reached [] state List.nil_prefix rfl, fun next step => ih fun front final within
          execution => ?_⟩
        exact reached (event :: front) final (List.cons_prefix_cons.mpr ⟨rfl, within⟩)
          (run_cons_eq_some.mpr ⟨next, step, execution⟩)

/-- What holds throughout a run holds throughout an initial part of it. -/
theorem Always.of_prefix {property : σ → Prop} {state : σ} {front events : List ε}
    (always : machine.Always property state events) (within : front <+: events) :
    machine.Always property state front :=
  always_iff.mpr fun part final inside =>
    always_iff.mp always part final (inside.trans within)

theorem Always.mono {property weaker : σ → Prop} (weaken : ∀ state, property state → weaker state)
    {state : σ} {events : List ε} (always : machine.Always property state events) :
    machine.Always weaker state events :=
  always_iff.mpr fun front final within execution =>
    weaken final (always_iff.mp always front final within execution)

/-- An invariant whose preservation needs a property that is known to hold throughout. -/
theorem Always.invariant_of_run {property inv : σ → Prop}
    (keep : ∀ {state event next}, property state → property next → inv state →
      machine.step state event = some next → inv next)
    {state final : σ} {events : List ε} (always : machine.Always property state events)
    (start : inv state) (execution : machine.run state events = some final) : inv final := by
  induction events generalizing state with
  | nil =>
      obtain rfl : state = final := by simpa using execution
      exact start
  | cons event events ih =>
      obtain ⟨next, step, rest⟩ := run_cons_eq_some.mp execution
      have after := always.2 next step
      exact ih after (keep always.start after.start start step) rest

/-- If guarded steps add to the log what their events say, so does every guarded run. -/
theorem Guarded.added_eq_map {α ι : Type*} {log : σ → List α} {event : ι → ε} {adds : ι → List α}
    {inv : σ → Prop} {guard : σ → ε → Prop}
    (total : ∀ {state} item, inv state → ∃ next, machine.step state (event item) = some next)
    (keep : ∀ {state item next}, inv state → guard state (event item) →
      machine.step state (event item) = some next →
        inv next ∧ log next = log state ++ adds item)
    {state : σ} {items : List ι} (guarded : machine.Guarded guard state (items.map event))
    (start : inv state) : machine.added log state (items.map event) = items.map adds := by
  induction items generalizing state with
  | nil => rfl
  | cons item items ih =>
      obtain ⟨next, step⟩ := total item start
      obtain ⟨allowed, rest⟩ := guarded next step
      obtain ⟨kept, grown⟩ := keep start allowed step
      simp only [List.map_cons, added, step, grown, List.drop_left]
      rw [ih rest kept]

/-- If every step from an invariant adds to the log what answers its event, then so does every step
of a run. -/
theorem forall₂_added {α : Type*} {log : σ → List α} {answers : ε → List α → Prop} {inv : σ → Prop}
    (keep : ∀ {state event next}, inv state → machine.step state event = some next →
      inv next ∧ ∃ entries, log next = log state ++ entries ∧ answers event entries)
    {state final : σ} {events : List ε} (start : inv state)
    (execution : machine.run state events = some final) :
    List.Forall₂ answers events (machine.added log state events) := by
  induction events generalizing state with
  | nil => exact .nil
  | cons event events ih =>
      obtain ⟨next, step, rest⟩ := run_cons_eq_some.mp execution
      obtain ⟨kept, entries, grown, answered⟩ := keep start step
      simp only [added, step, grown, List.drop_left]
      exact .cons answered (ih kept rest)

theorem Guarded.of_all {guard : σ → ε → Prop} (holds : ∀ state event, guard state event)
    (state : σ) (events : List ε) : machine.Guarded guard state events := by
  induction events generalizing state with
  | nil => trivial
  | cons event events ih => exact fun next _ => ⟨holds state event, ih next⟩

/-- A guard that asks nothing of the state holds along a list of events that satisfy it. -/
theorem Guarded.of_forall {guard : ε → Prop} {events : List ε}
    (allowed : ∀ event ∈ events, guard event) (state : σ) :
    machine.Guarded (fun _ event => guard event) state events := by
  induction events generalizing state with
  | nil => trivial
  | cons event events ih =>
      obtain ⟨first, rest⟩ := List.forall_mem_cons.mp allowed
      exact fun next _ => ⟨first, ih rest next⟩

theorem Guarded.append {guard : σ → ε → Prop} {state : σ} {front back : List ε}
    (guarded : machine.Guarded guard state front)
    (rest : ∀ middle, machine.run state front = some middle → machine.Guarded guard middle back) :
    machine.Guarded guard state (front ++ back) := by
  induction front generalizing state with
  | nil => exact rest state rfl
  | cons event front ih =>
      intro next step
      obtain ⟨first, later⟩ := guarded next step
      refine ⟨first, ih later fun middle ran => rest middle ?_⟩
      exact run_cons_eq_some.mpr ⟨next, step, ran⟩

/-- On a machine that allows every event, such a guard is a condition on the events alone. -/
theorem guarded_iff_forall {guard : ε → Prop} (step : σ → ε → σ) (state : σ) (events : List ε) :
    (⟨fun state event => some (step state event)⟩ : Machine σ ε).Guarded
        (fun _ event => guard event) state events ↔ ∀ event ∈ events, guard event := by
  refine ⟨fun guarded => ?_, fun allowed => Guarded.of_forall allowed state⟩
  induction events generalizing state with
  | nil => simp
  | cons event events ih =>
      obtain ⟨first, rest⟩ := guarded (step state event) rfl
      exact List.forall_mem_cons.mpr ⟨first, ih (step state event) rest⟩

/-- Guards that agree on every step from an invariant allow the same runs. -/
theorem guarded_congr_of_invariant {left right : σ → ε → Prop} {inv : σ → Prop}
    (keep : ∀ {state event next}, inv state → machine.step state event = some next → inv next)
    (agree : ∀ {state event next}, inv state → machine.step state event = some next →
      (left state event ↔ right state event)) {state : σ} (start : inv state) (events : List ε) :
    machine.Guarded left state events ↔ machine.Guarded right state events := by
  induction events generalizing state with
  | nil => rfl
  | cons event events ih =>
      apply forall_congr'
      intro next
      apply imp_congr_right
      intro step
      rw [agree start step, ih (keep start step)]

/-- Guards that agree on every step allow the same runs. -/
theorem guarded_congr {left right : σ → ε → Prop}
    (agree : ∀ {state event next}, machine.step state event = some next →
      (left state event ↔ right state event)) (state : σ) (events : List ε) :
    machine.Guarded left state events ↔ machine.Guarded right state events :=
  guarded_congr_of_invariant (fun _ _ => trivial) (fun _ step => agree step) trivial events

/-- An invariant that only the guarded steps preserve holds throughout every guarded run. -/
theorem Guarded.always {guard : σ → ε → Prop} {inv : σ → Prop}
    (keep : ∀ {state event next}, inv state → guard state event →
      machine.step state event = some next → inv next)
    {state : σ} {events : List ε} (guarded : machine.Guarded guard state events)
    (start : inv state) : machine.Always inv state events := by
  induction events generalizing state with
  | nil => exact start
  | cons event events ih =>
      refine ⟨start, fun next step => ?_⟩
      obtain ⟨allowed, rest⟩ := guarded next step
      exact ih rest (keep start allowed step)

/-- What follows from the guard and an invariant of the guarded steps is a guard as well. -/
theorem Guarded.mono_of_invariant {guard weaker : σ → ε → Prop} {inv : σ → Prop}
    (keep : ∀ {state event next}, inv state → guard state event →
      machine.step state event = some next → inv next)
    (weaken : ∀ {state event}, inv state → guard state event → weaker state event)
    {state : σ} {events : List ε} (guarded : machine.Guarded guard state events)
    (start : inv state) : machine.Guarded weaker state events := by
  induction events generalizing state with
  | nil => trivial
  | cons event events ih =>
      intro next step
      obtain ⟨allowed, rest⟩ := guarded next step
      exact ⟨weaken start allowed, ih rest (keep start allowed step)⟩

/-- If guarded steps keep an invariant that gives the property, and an unguarded step from the
invariant loses the property, then the guard is exactly what the property asks of a run, among those
runs whose steps are allowed. -/
theorem Guarded.always_iff {allowed guard : σ → ε → Prop} {property inv : σ → Prop}
    (keep : ∀ {state event next}, inv state → allowed state event → guard state event →
      machine.step state event = some next → inv next)
    (good : ∀ {state}, inv state → property state)
    (bad : ∀ {state event next}, inv state → allowed state event → ¬guard state event →
      machine.step state event = some next → ¬property next)
    {state : σ} (start : inv state) {events : List ε}
    (admitted : machine.Guarded allowed state events) :
    machine.Always property state events ↔ machine.Guarded guard state events := by
  induction events generalizing state with
  | nil => exact iff_of_true (good start) trivial
  | cons event events ih =>
      constructor
      · intro always next step
        obtain ⟨first, rest⟩ := admitted next step
        have after := always.2 next step
        have guarded : guard state event := by
          by_contra refused
          exact bad start first refused step after.start
        exact ⟨guarded, (ih (keep start first guarded step) rest).mp after⟩
      · intro guarded
        refine ⟨good start, fun next step => ?_⟩
        obtain ⟨first, rest⟩ := admitted next step
        obtain ⟨now, later⟩ := guarded next step
        exact (ih (keep start first now step) rest).mpr later

/-- `Guarded.always_iff` for runs whose steps are all allowed. -/
theorem always_iff_guarded {guard : σ → ε → Prop} {property inv : σ → Prop}
    (keep : ∀ {state event next}, inv state → guard state event →
      machine.step state event = some next → inv next)
    (good : ∀ {state}, inv state → property state)
    (bad : ∀ {state event next}, inv state → ¬guard state event →
      machine.step state event = some next → ¬property next)
    {state : σ} (start : inv state) (events : List ε) :
    machine.Always property state events ↔ machine.Guarded guard state events :=
  Guarded.always_iff (fun holds _ => keep holds) good (fun holds _ => bad holds) start
    (Guarded.of_all (fun _ _ => trivial) state events)

end Machine
