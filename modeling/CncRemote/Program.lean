import CncRemote.Machine
import Mathlib.Tactic.Tauto

/-!
# Programs that may fault

A program reads and changes a state and returns a value, or it faults: it dereferences a null
pointer, say, or acquires a mutex that it holds.  `Ends` is the condition before a program under
which it does not fault and ends as required; its rules are equivalences, so that they compute this
condition.  `Mutex.guard` is a scope that holds a mutex, and `Program.machine` takes programs as the
steps of a machine.
-/

/-- A program over states `σ` that returns a value in `α` unless it faults. -/
abbrev Program (σ α : Type) := StateT σ Option α

namespace Program

variable {σ α β : Type}

/-- The program that faults. -/
def fault : Program σ α := fun _ => none

/-- From this state the program does not fault, and its value and the next state are as required. -/
def Ends (program : Program σ α) (state : σ) (post : α → σ → Prop) : Prop :=
  ∃ value next, program state = some (value, next) ∧ post value next

@[simp] theorem ends_fault (state : σ) (post : α → σ → Prop) : ¬Ends fault state post := by
  rintro ⟨_, _, faults, _⟩
  cases faults

@[simp] theorem ends_pure (value : α) (state : σ) (post : α → σ → Prop) :
    Ends (pure value) state post ↔ post value state := by
  constructor
  · rintro ⟨_, _, ends, holds⟩
    obtain ⟨rfl, rfl⟩ := Prod.mk.inj (Option.some.inj ends)
    exact holds
  · exact fun holds => ⟨value, state, rfl, holds⟩

@[simp] theorem ends_bind (program : Program σ α) (rest : α → Program σ β) (state : σ)
    (post : β → σ → Prop) :
    Ends (program >>= rest) state post ↔
      Ends program state fun value next => Ends (rest value) next post := by
  constructor
  · rintro ⟨result, final, ends, holds⟩
    obtain ⟨⟨value, next⟩, first, second⟩ := Option.bind_eq_some_iff.mp ends
    exact ⟨value, next, first, result, final, second, holds⟩
  · rintro ⟨value, next, first, result, final, second, holds⟩
    exact ⟨result, final, Option.bind_eq_some_iff.mpr ⟨(value, next), first, second⟩, holds⟩

@[simp] theorem ends_map (change : α → β) (program : Program σ α) (state : σ)
    (post : β → σ → Prop) :
    Ends (change <$> program) state post ↔
      Ends program state fun value next => post (change value) next := by
  rw [map_eq_pure_bind, ends_bind]
  simp only [ends_pure]

@[simp] theorem ends_get (state : σ) (post : σ → σ → Prop) :
    Ends (get : Program σ σ) state post ↔ post state state :=
  ends_pure (σ := σ) state state post

@[simp] theorem ends_set (next state : σ) (post : PUnit → σ → Prop) :
    Ends (set next : Program σ PUnit) state post ↔ post ⟨⟩ next := by
  constructor
  · rintro ⟨_, _, ends, holds⟩
    obtain ⟨-, rfl⟩ := Prod.mk.inj (Option.some.inj ends)
    exact holds
  · exact fun holds => ⟨⟨⟩, next, rfl, holds⟩

@[simp] theorem ends_modify (change : σ → σ) (state : σ) (post : PUnit → σ → Prop) :
    Ends (modify change : Program σ PUnit) state post ↔ post ⟨⟩ (change state) := by
  constructor
  · rintro ⟨_, _, ends, holds⟩
    obtain ⟨-, rfl⟩ := Prod.mk.inj (Option.some.inj ends)
    exact holds
  · exact fun holds => ⟨⟨⟩, change state, rfl, holds⟩

@[simp] theorem ends_ite {condition : Prop} [Decidable condition] (yes no : Program σ α)
    (state : σ) (post : α → σ → Prop) :
    Ends (if condition then yes else no) state post ↔
      if condition then Ends yes state post else Ends no state post := by
  split <;> rfl

theorem Ends.mono {program : Program σ α} {state : σ} {post weaker : α → σ → Prop}
    (ends : program.Ends state post) (weaken : ∀ value next, post value next → weaker value next) :
    program.Ends state weaker := by
  obtain ⟨value, next, runs, holds⟩ := ends
  exact ⟨value, next, runs, weaken value next holds⟩

/-- A program on a part of the state. -/
def inside {τ : Type} (part : τ → σ) (replace : σ → τ → τ) (body : Program σ α) : Program τ α :=
  fun state => (body (part state)).map fun result => (result.1, replace result.2 state)

@[simp] theorem ends_inside {τ : Type} (part : τ → σ) (replace : σ → τ → τ) (body : Program σ α)
    (state : τ) (post : α → τ → Prop) :
    (inside part replace body).Ends state post ↔
      body.Ends (part state) fun value next => post value (replace next state) := by
  constructor
  · rintro ⟨_, _, ends, holds⟩
    obtain ⟨⟨value, next⟩, runs, ⟨⟩⟩ := Option.map_eq_some_iff.mp ends
    exact ⟨value, next, runs, holds⟩
  · rintro ⟨value, next, runs, holds⟩
    exact ⟨value, _, Option.map_eq_some_iff.mpr ⟨(value, next), runs, rfl⟩, holds⟩

theorem Ends.and {program : Program σ α} {state : σ} {left right : α → σ → Prop}
    (ends : program.Ends state left) (also : program.Ends state right) :
    program.Ends state fun value next => left value next ∧ right value next := by
  obtain ⟨value, next, runs, holds⟩ := ends
  obtain ⟨_, _, again, holds'⟩ := also
  obtain ⟨rfl, rfl⟩ := Prod.mk.inj (Option.some.inj (runs.symm.trans again))
  exact ⟨value, next, runs, holds, holds'⟩

/-- What a program does decides what it ends in. -/
theorem ends_iff_of_eq {program : Program σ α} {state next : σ} {value : α}
    (runs : program state = some (value, next)) (post : α → σ → Prop) :
    program.Ends state post ↔ post value next := by
  refine ⟨?_, fun holds => ⟨value, next, runs, holds⟩⟩
  rintro ⟨_, _, again, holds⟩
  obtain ⟨rfl, rfl⟩ := Prod.mk.inj (Option.some.inj (again.symm.trans runs))
  exact holds

/-- A decidable requirement can be checked by running the program. -/
instance decidableEnds (program : Program σ α) (state : σ) (post : α → σ → Prop)
    [∀ value next, Decidable (post value next)] : Decidable (program.Ends state post) :=
  match runs : program state with
  | none => isFalse fun ⟨_, _, again, _⟩ => nomatch runs.symm.trans again
  | some (value, next) => decidable_of_iff (post value next) (ends_iff_of_eq runs post).symm

/-- The program does not fault where the predicate holds, and keeps it. -/
def Keeps (program : Program σ α) (inv : σ → Prop) : Prop :=
  ∀ state, inv state → program.Ends state fun _ => inv

theorem Keeps.pure (value : α) (inv : σ → Prop) : (pure value : Program σ α).Keeps inv :=
  fun state holds => (ends_pure value state _).mpr holds

theorem Keeps.get (inv : σ → Prop) : (get : Program σ σ).Keeps inv :=
  fun state holds => (ends_get state _).mpr holds

theorem Keeps.bind {program : Program σ α} {rest : α → Program σ β} {inv : σ → Prop}
    (first : program.Keeps inv) (second : ∀ value, (rest value).Keeps inv) :
    (program >>= rest).Keeps inv :=
  fun state holds => (ends_bind program rest state _).mpr
    ((first state holds).mono fun value next => second value next)

theorem Keeps.map (change : α → β) {program : Program σ α} {inv : σ → Prop}
    (keeps : program.Keeps inv) : (change <$> program).Keeps inv := by
  rw [map_eq_pure_bind]
  exact keeps.bind fun _ => .pure _ inv

theorem Keeps.ite {condition : Prop} [Decidable condition] {yes no : Program σ α}
    {inv : σ → Prop} (positive : condition → yes.Keeps inv) (negative : ¬condition → no.Keeps inv) :
    (if condition then yes else no).Keeps inv := by
  split
  · exact positive ‹_›
  · exact negative ‹_›

theorem Keeps.forM {body : β → Program σ PUnit} {inv : σ → Prop}
    (once : ∀ item, (body item).Keeps inv) (items : List β) : (items.forM body).Keeps inv := by
  induction items with
  | nil => exact .pure _ _
  | cons item items ih => exact (once item).bind fun _ => ih

/-- The program never faults and leaves a part of the state as it is. -/
def Leaves {τ : Type} (program : Program σ α) (view : σ → τ) : Prop :=
  ∀ state, program.Ends state fun _ next => view next = view state

section Leaves

variable {τ : Type} {view : σ → τ}

theorem Leaves.pure (value : α) : (pure value : Program σ α).Leaves view :=
  fun state => (ends_pure value state _).mpr rfl

theorem Leaves.get : (get : Program σ σ).Leaves view :=
  fun state => (ends_get state _).mpr rfl

theorem Leaves.modify {change : σ → σ} (same : ∀ state, view (change state) = view state) :
    (modify change : Program σ PUnit).Leaves view :=
  fun state => (ends_modify change state _).mpr (same state)

theorem Leaves.bind {program : Program σ α} {rest : α → Program σ β}
    (first : program.Leaves view) (second : ∀ value, (rest value).Leaves view) :
    (program >>= rest).Leaves view := by
  intro state
  rw [ends_bind]
  refine (first state).mono fun value next same => ?_
  exact (second value next).mono fun _ _ same' => same'.trans same

theorem Leaves.ite {condition : Prop} [Decidable condition] {yes no : Program σ α}
    (positive : yes.Leaves view) (negative : no.Leaves view) :
    (if condition then yes else no).Leaves view := by
  split
  · exact positive
  · exact negative

end Leaves

/-- The program leaves a part of the state as it is, unless it faults. -/
def Frames {τ : Type} (program : Program σ α) (view : σ → τ) : Prop :=
  ∀ ⦃state value next⦄, program state = some (value, next) → view next = view state

section Frames

variable {τ : Type} {view : σ → τ}

theorem Frames.fault : (fault : Program σ α).Frames view := fun _ _ _ runs => nomatch runs

theorem Frames.pure (value : α) : (pure value : Program σ α).Frames view := by
  rintro _ _ _ ⟨⟩
  rfl

theorem Frames.get : (get : Program σ σ).Frames view := by
  rintro _ _ _ ⟨⟩
  rfl

theorem Frames.modify {change : σ → σ} (same : ∀ state, view (change state) = view state) :
    (modify change : Program σ PUnit).Frames view := by
  rintro state _ _ ⟨⟩
  exact same state

theorem Frames.bind {program : Program σ α} {rest : α → Program σ β}
    (first : program.Frames view) (second : ∀ value, (rest value).Frames view) :
    (program >>= rest).Frames view := by
  intro state value next runs
  obtain ⟨⟨middle, between⟩, runs, runs'⟩ := Option.bind_eq_some_iff.mp runs
  exact (second middle runs').trans (first runs)

theorem Frames.map (change : α → β) {program : Program σ α} (frames : program.Frames view) :
    (change <$> program).Frames view := by
  rw [map_eq_pure_bind]
  exact frames.bind fun _ => .pure _

theorem Frames.forM {body : β → Program σ PUnit} (once : ∀ item, (body item).Frames view)
    (items : List β) : (items.forM body).Frames view := by
  induction items with
  | nil => exact .pure _
  | cons item items ih => exact (once item).bind fun _ => ih

/-- A part of what is left as it is. -/
theorem Frames.comp {υ : Type} {program : Program σ α} (frames : program.Frames view)
    (part : τ → υ) : program.Frames fun state => part (view state) :=
  fun _ _ _ runs => congrArg part (frames runs)

theorem Frames.ite {condition : Prop} [Decidable condition] {yes no : Program σ α}
    (positive : yes.Frames view) (negative : no.Frames view) :
    (if condition then yes else no).Frames view := by
  split
  · exact positive
  · exact negative

end Frames

/-- The predicate still holds after the program, unless it faults. -/
def Preserves (program : Program σ α) (inv : σ → Prop) : Prop :=
  ∀ ⦃state value next⦄, inv state → program state = some (value, next) → inv next

section Preserves

variable {inv : σ → Prop}

/-- A program preserves what is said about a part that it leaves as it is. -/
theorem Frames.preserves {τ : Type} {view : σ → τ} {program : Program σ α}
    (frames : program.Frames view) (about : τ → Prop) :
    program.Preserves fun state => about (view state) := by
  intro state value next holds runs
  rw [frames runs]
  exact holds

theorem Keeps.preserves {program : Program σ α} (keeps : program.Keeps inv) :
    program.Preserves inv := by
  intro state value next holds runs
  exact (ends_iff_of_eq runs _).mp (keeps state holds)

theorem Preserves.and {also : σ → Prop} {program : Program σ α} (left : program.Preserves inv)
    (right : program.Preserves also) : program.Preserves fun state => inv state ∧ also state :=
  fun _ _ _ holds runs => ⟨left holds.1 runs, right holds.2 runs⟩

theorem Preserves.fault : (fault : Program σ α).Preserves inv :=
  fun _ _ _ _ runs => nomatch runs

theorem Preserves.pure (value : α) : (pure value : Program σ α).Preserves inv :=
  (Frames.pure value : (Pure.pure value : Program σ α).Frames id).preserves inv

theorem Preserves.get : (get : Program σ σ).Preserves inv :=
  (Frames.get : (MonadState.get : Program σ σ).Frames id).preserves inv

theorem Preserves.modify {change : σ → σ} (kept : ∀ state, inv state → inv (change state)) :
    (modify change : Program σ PUnit).Preserves inv := by
  rintro state _ _ holds ⟨⟩
  exact kept state holds

theorem Preserves.bind {program : Program σ α} {rest : α → Program σ β}
    (first : program.Preserves inv) (second : ∀ value, (rest value).Preserves inv) :
    (program >>= rest).Preserves inv := by
  intro state value next holds runs
  obtain ⟨⟨middle, between⟩, runs, runs'⟩ := Option.bind_eq_some_iff.mp runs
  exact second middle (first holds runs) runs'

theorem Preserves.map (change : α → β) {program : Program σ α} (preserves : program.Preserves inv) :
    (change <$> program).Preserves inv := by
  rw [map_eq_pure_bind]
  exact preserves.bind fun _ => .pure _

theorem Preserves.ite {condition : Prop} [Decidable condition] {yes no : Program σ α}
    (positive : yes.Preserves inv) (negative : no.Preserves inv) :
    (if condition then yes else no).Preserves inv := by
  split
  · exact positive
  · exact negative

end Preserves

/-- Where the predicate holds the program does not fault, keeps it, and adds these entries to the
log. -/
def Appends {τ : Type} (program : Program σ α) (inv : σ → Prop) (log : σ → List τ)
    (entries : List τ) : Prop :=
  ∀ state, inv state →
    program.Ends state fun _ next => inv next ∧ log next = log state ++ entries

section Appends

variable {τ : Type} {inv : σ → Prop} {log : σ → List τ}

theorem Appends.bind {program : Program σ α} {rest : α → Program σ β} {front back : List τ}
    (first : program.Appends inv log front) (second : ∀ value, (rest value).Appends inv log back) :
    (program >>= rest).Appends inv log (front ++ back) := by
  intro state holds
  rw [ends_bind]
  refine (first state holds).mono ?_
  rintro value middle ⟨kept, grown⟩
  refine (second value middle kept).mono ?_
  rintro _ next ⟨kept', grown'⟩
  exact ⟨kept', by rw [grown', grown, List.append_assoc]⟩

theorem Appends.map (change : α → β) {program : Program σ α} {entries : List τ}
    (appends : program.Appends inv log entries) :
    (change <$> program).Appends inv log entries := by
  intro state holds
  rw [ends_map]
  exact appends state holds

theorem Appends.ite {condition : Prop} [Decidable condition] {yes no : Program σ α}
    {front back : List τ} (positive : yes.Appends inv log front)
    (negative : no.Appends inv log back) :
    (if condition then yes else no).Appends inv log (if condition then front else back) := by
  split
  · exact positive
  · exact negative

theorem Appends.forM {body : β → Program σ PUnit} {entries : β → List τ}
    (once : ∀ item, (body item).Appends inv log (entries item)) (items : List β) :
    (items.forM body).Appends inv log (items.flatMap entries) := by
  induction items with
  | nil => exact fun state holds => (ends_pure _ state _).mpr ⟨holds, (List.append_nil _).symm⟩
  | cons item items ih => exact (once item).bind fun _ => ih

end Appends

/-- Programs as steps; `none` is the state after a fault, which nothing leaves. -/
def machine {ε : Type} (program : ε → Program σ Unit) : Machine (Option σ) ε :=
  ⟨fun state event => state.map fun state => (program event state).map Prod.snd⟩

section Machine

variable {ε : Type} {program : ε → Program σ Unit}

theorem Ends.step {state : σ} {event : ε} {post : σ → Prop}
    (ends : (program event).Ends state fun _ => post) :
    ∃ next, (machine program).step (some state) event = some (some next) ∧ post next := by
  obtain ⟨value, next, runs, holds⟩ := ends
  exact ⟨next, by simp [machine, runs], holds⟩

theorem step_eq_some_some {state next : σ} {event : ε} :
    (machine program).step (some state) event = some (some next) ↔
      ∃ value, program event state = some (value, next) := by
  simp [machine]

theorem ends_of_step {state next : σ} {event : ε}
    (step : (machine program).step (some state) event = some (some next)) :
    (program event).Ends state fun _ final => final = next := by
  obtain ⟨⟨value, final⟩, runs, rfl⟩ :
      ∃ result, program event state = some result ∧ result.2 = next := by
    simpa [machine] using step
  exact ⟨value, final, runs, rfl⟩

/-- No state is reached after a fault. -/
theorem run_none_ne_some (events : List ε) {final : σ} :
    (machine program).run none events ≠ some (some final) := by
  cases events with
  | nil => rintro ⟨⟩
  | cons event events => rintro ⟨⟩

/-- Programs one after the other are a run. -/
theorem run_of_forM {state final : σ} {events : List ε}
    (runs : events.forM program state = some (⟨⟩, final)) :
    (machine program).run (some state) events = some (some final) := by
  induction events generalizing state with
  | nil =>
      obtain ⟨-, rfl⟩ := Prod.mk.inj (Option.some.inj runs)
      rfl
  | cons event events ih =>
      obtain ⟨⟨value, next⟩, first, rest⟩ := Option.bind_eq_some_iff.mp runs
      exact Machine.run_cons_eq_some.mpr
        ⟨some next, step_eq_some_some.mpr ⟨value, first⟩, ih rest⟩

/-- A relation to what is noted of the events, if all programs keep it: it holds at the end of every
run, and no program faults. -/
theorem run_of_notes {ν : Type} {note : ν → ε → ν} {inv : ν → σ → Prop}
    (keeps : ∀ {notes state} event, inv notes state →
      (program event).Ends state fun _ => inv (note notes event))
    {notes : ν} {state : σ} (holds : inv notes state) (events : List ε) :
    ∃ final, (machine program).run (some state) events = some (some final) ∧
      inv (events.foldl note notes) final := by
  induction events generalizing notes state with
  | nil => exact ⟨state, rfl, holds⟩
  | cons event events ih =>
      obtain ⟨next, step, kept⟩ := (keeps event holds).step
      obtain ⟨final, rest, kept'⟩ := ih kept
      exact ⟨final, Machine.run_cons_eq_some.mpr ⟨some next, step, rest⟩, kept'⟩

/-- What all programs keep holds at the end of every run, and none of them faults. -/
theorem run_of_keeps {inv : σ → Prop} (keeps : ∀ event, (program event).Keeps inv) {state : σ}
    (holds : inv state) (events : List ε) :
    ∃ final, (machine program).run (some state) events = some (some final) ∧ inv final :=
  @run_of_notes _ _ program Unit (fun _ _ => ()) (fun _ => inv)
    (fun event holds => keeps event _ holds) () state holds events

/-- What all programs preserve holds at the end of every run without a fault. -/
theorem holds_of_run {inv : σ → Prop} (preserves : ∀ event, (program event).Preserves inv)
    {state final : σ} {events : List ε} (holds : inv state)
    (ran : (machine program).run (some state) events = some (some final)) : inv final := by
  induction events generalizing state with
  | nil =>
      obtain rfl : state = final := by simpa using ran
      exact holds
  | cons event events ih =>
      obtain ⟨next, step, rest⟩ := Machine.run_cons_eq_some.mp ran
      cases next with
      | none =>
          -- nothing follows a fault
          exact absurd rest (run_none_ne_some events)
      | some next =>
          obtain ⟨value, runs⟩ := step_eq_some_some.mp step
          exact ih (preserves event holds runs) rest

/-- `Machine.Guarded.always_iff` for programs: that none of them faults is part of the property. -/
theorem always_iff_of_guarded {allowed guard : σ → ε → Prop} {property inv : σ → Prop}
    (keep : ∀ {state event}, inv state → allowed state event → guard state event →
      (program event).Ends state fun _ => inv)
    (good : ∀ {state}, inv state → property state)
    (bad : ∀ {state event}, inv state → allowed state event → ¬guard state event →
      ¬(program event).Ends state fun _ => property)
    {state : σ} (start : inv state) {events : List ε}
    (admitted : (machine program).Guarded
      (fun reached event => ∀ state ∈ reached, allowed state event) (some state) events) :
    (machine program).Always (fun reached => ∃ state ∈ reached, property state)
        (some state) events ↔
      (machine program).Guarded (fun reached event => ∀ state ∈ reached, guard state event)
        (some state) events := by
  refine @Machine.Guarded.always_iff _ _ (machine program)
    (fun reached event => ∀ state ∈ reached, allowed state event)
    (fun reached event => ∀ state ∈ reached, guard state event)
    (fun reached => ∃ state ∈ reached, property state)
    (fun reached => ∃ state ∈ reached, inv state) ?_ ?_ ?_ _ ⟨state, rfl, start⟩ events admitted
  · rintro _ event reached ⟨state, rfl, holds⟩ allowed guarded step
    obtain ⟨next, stepped, kept⟩ := (keep holds (allowed state rfl) (guarded state rfl)).step
    exact ⟨next, (Option.some.inj (step.symm.trans stepped)), kept⟩
  · rintro _ ⟨state, rfl, holds⟩
    exact ⟨state, rfl, good holds⟩
  · rintro _ event reached ⟨state, rfl, holds⟩ allowed refused step ⟨next, rfl, lucky⟩
    refine @bad _ event holds (allowed state rfl) (fun guarded => ?_) ?_
    · exact refused fun other same => Option.some.inj same ▸ guarded
    · exact (ends_of_step step).mono fun _ _ same => same ▸ lucky

/-- `Machine.always_iff_guarded` for programs. -/
theorem always_iff_guarded {guard : σ → ε → Prop} {property inv : σ → Prop}
    (keep : ∀ {state event}, inv state → guard state event →
      (program event).Ends state fun _ => inv)
    (good : ∀ {state}, inv state → property state)
    (bad : ∀ {state event}, inv state → ¬guard state event →
      ¬(program event).Ends state fun _ => property)
    {state : σ} (start : inv state) (events : List ε) :
    (machine program).Always (fun reached => ∃ state ∈ reached, property state)
        (some state) events ↔
      (machine program).Guarded (fun reached event => ∀ state ∈ reached, guard state event)
        (some state) events :=
  @always_iff_of_guarded _ _ program (fun _ _ => True) guard property inv
    (fun holds _ => keep holds) good (fun holds _ => bad holds) _ start _
    (Machine.Guarded.of_all (fun _ _ _ _ => trivial) _ _)

/-- `Machine.guarded_congr_of_invariant` for programs. -/
theorem guarded_congr_of_invariant {left right : σ → ε → Prop} {inv : σ → Prop}
    (keep : ∀ event, (program event).Preserves inv)
    (agree : ∀ {state} event, inv state → (left state event ↔ right state event))
    {state : σ} (start : inv state) (events : List ε) :
    (machine program).Guarded (fun reached event => ∀ state ∈ reached, left state event)
        (some state) events ↔
      (machine program).Guarded (fun reached event => ∀ state ∈ reached, right state event)
        (some state) events := by
  refine @Machine.guarded_congr_of_invariant _ _ (machine program)
    (fun reached event => ∀ state ∈ reached, left state event)
    (fun reached event => ∀ state ∈ reached, right state event)
    (fun reached => ∀ state ∈ reached, inv state) ?_ ?_ _ ?_ events
  · rintro (_ | before) event next holds step
    · cases step
    · rintro after rfl
      obtain ⟨value, runs⟩ := step_eq_some_some.mp step
      exact keep event (holds before rfl) runs
  · intro reached event next holds step
    exact forall₂_congr fun state same => agree event (holds state same)
  · rintro _ ⟨⟩
    exact start

/-- An invariant that the guarded steps preserve, wherever no program has faulted. -/
theorem always_of_guarded {guard : σ → ε → Prop} {inv : σ → Prop}
    (keep : ∀ {state next event}, inv state → guard state event →
      (machine program).step (some state) event = some (some next) → inv next)
    {state : σ} (start : inv state) {events : List ε}
    (guarded : (machine program).Guarded (fun reached event => ∀ state ∈ reached, guard state event)
      (some state) events) :
    (machine program).Always (fun reached => ∀ state ∈ reached, inv state) (some state) events := by
  refine guarded.always ?_ ?_
  · rintro (_ | before) event next holds allowed step
    · cases step
    · rintro after rfl
      exact keep (holds before rfl) (allowed before rfl) step
  · rintro _ ⟨⟩
    exact start

end Machine

end Program

/-- A mutex that is not recursive: the state says whether the running thread holds it. -/
structure Mutex (σ : Type) where
  held : σ → Bool
  setHeld : Bool → σ → σ
  held_setHeld : ∀ flag state, held (setHeld flag state) = flag

namespace Mutex

variable {σ α : Type} (mutex : Mutex σ)

/-- The body in a scope that holds the mutex from its beginning to its end. -/
def guard (body : Program σ α) : Program σ α := do
  if mutex.held (← get) then
    Program.fault
  else
    modify (mutex.setHeld true)
    let value ← body
    modify (mutex.setHeld false)
    return value

/-- A scope needs the mutex to be free. -/
@[simp] theorem ends_guard (body : Program σ α) (state : σ) (post : α → σ → Prop) :
    (mutex.guard body).Ends state post ↔
      mutex.held state = false ∧
        body.Ends (mutex.setHeld true state) fun value next =>
          post value (mutex.setHeld false next) := by
  cases held : mutex.held state <;> simp [guard, held]

/-- A scope frames what its body frames, up to the mutex. -/
theorem frames_guard {τ : Type} {view : σ → τ} {body : Program σ α} (frames : body.Frames view)
    (blind : ∀ flag state, view (mutex.setHeld flag state) = view state) :
    (mutex.guard body).Frames view := by
  refine .bind .get fun state => .ite .fault ?_
  refine .bind (.modify (blind true)) fun _ => .bind frames fun _ => ?_
  exact .bind (.modify (blind false)) fun _ => .pure _

/-- A scope preserves what its body preserves, up to the mutex. -/
theorem preserves_guard {inv : σ → Prop} {body : Program σ α} (preserves : body.Preserves inv)
    (blind : ∀ flag state, inv state → inv (mutex.setHeld flag state)) :
    (mutex.guard body).Preserves inv := by
  refine .bind .get fun state => .ite (fun _ _ _ _ runs => nomatch runs) ?_
  refine .bind (.modify (blind true)) fun _ => .bind preserves fun _ => ?_
  exact .bind (.modify (blind false)) fun _ => .pure _

/-- A scope within a scope of the same mutex faults. -/
theorem not_ends_guard_of_held {state : σ} (held : mutex.held state = true) (body : Program σ α)
    (post : α → σ → Prop) : ¬(mutex.guard body).Ends state post := by
  simp [held]

end Mutex
