import CncRemote.Program

/-!
# Protocols of components

A component takes those events of a whole that are about it, in an order that its protocol allows.
`Machine.run_filterMap` finds the run of a part in a run of the whole, and
`Program.run_of_protocol` says that programs which rely on the protocol do not fault, whatever else
comes in between, and `Program.guarded_of_protocol` that they need a guard where they fault without
it.
-/

theorem List.filterMap_cons_eq_append {α β : Type*} (about : α → Option β) (item : α)
    (items : List α) :
    (item :: items).filterMap about = (about item).toList ++ items.filterMap about := by
  cases found : about item with
  | none => rw [List.filterMap_cons_none found, Option.toList_none, List.nil_append]
  | some part => rw [List.filterMap_cons_some found, Option.toList_some, List.singleton_append]

namespace Machine

variable {σ τ ε δ : Type*}

/-- A part whose state is seen in that of the whole, and for which the steps of the whole are steps
or nothing at all: its run is what the run of the whole shows of it. -/
theorem run_filterMap {machine : Machine σ ε} {part : Machine τ δ} {view : σ → τ}
    {about : ε → Option δ} {inv : σ → Prop}
    (keep : ∀ {state event next}, inv state → machine.step state event = some next → inv next)
    (shows : ∀ {state event next}, inv state → machine.step state event = some next →
      part.run (view state) (about event).toList = some (view next))
    {state final : σ} {events : List ε} (start : inv state)
    (execution : machine.run state events = some final) :
    part.run (view state) (events.filterMap about) = some (view final) := by
  induction events generalizing state with
  | nil =>
      obtain rfl : state = final := by simpa using execution
      rfl
  | cons event events ih =>
      obtain ⟨next, step, rest⟩ := run_cons_eq_some.mp execution
      rw [List.filterMap_cons_eq_append, run_append, shows start step]
      exact ih (keep start step) rest

/-- A machine whose steps are those of what is seen of it runs as that does. -/
theorem run_map {machine : Machine σ ε} {abstract : Machine τ ε} {view : σ → τ} {inv : σ → Prop}
    (keep : ∀ {state event next}, inv state → machine.step state event = some next → inv next)
    (shows : ∀ {state event}, inv state →
      (machine.step state event).map view = abstract.step (view state) event)
    {state : σ} (start : inv state) (events : List ε) :
    (machine.run state events).map view = abstract.run (view state) events := by
  induction events generalizing state with
  | nil => rfl
  | cons event events ih =>
      rw [run_cons, run_cons, ← shows start, Option.map_bind]
      cases step : machine.step state event with
      | none => rfl
      | some next => exact ih (keep start step)

/-- A machine that counts its events down. -/
def countdown : Machine Nat Unit := ⟨fun left _ => some (left - 1)⟩

theorem run_countdown (left : Nat) (ticks : List Unit) :
    countdown.run left ticks = some (left - ticks.length) := by
  induction ticks generalizing left with
  | nil => rfl
  | cons tick ticks ih =>
      rw [run_cons, List.length_cons, Nat.add_comm, Nat.sub_add_eq]
      exact ih (left - 1)

end Machine

namespace Program

variable {σ τ ε δ : Type}

section Protocol

variable {program : ε → Program σ Unit} {protocol : Machine τ δ} {call : ε → Option δ}
  {allowed : ε → Prop} {guard : σ → ε → Prop} {inv : τ → σ → Prop}

/-- Programs whose calls are made as a protocol allows: where each of them keeps its relation to the
protocol under a guard, none faults. -/
theorem run_of_protocol
    (keeps : ∀ {stage next state event}, inv stage state → allowed event → guard state event →
      protocol.run stage (call event).toList = some next →
        (program event).Ends state fun _ => inv next)
    {stage last : τ} {state : σ} {events : List ε} (holds : inv stage state)
    (all : ∀ event ∈ events, allowed event)
    (calls : protocol.run stage (events.filterMap call) = some last)
    (guarded : (machine program).Guarded (fun reached event => ∀ state ∈ reached, guard state event)
      (some state) events) :
    ∃ final, (machine program).run (some state) events = some (some final) ∧ inv last final := by
  induction events generalizing stage state with
  | nil =>
      obtain rfl : stage = last := Option.some.inj calls
      exact ⟨state, rfl, holds⟩
  | cons event events ih =>
      obtain ⟨first, rest⟩ := List.forall_mem_cons.mp all
      rw [List.filterMap_cons_eq_append, Machine.run_append] at calls
      obtain ⟨middle, called, calls⟩ := Option.bind_eq_some_iff.mp calls
      have now : guard state event := by
        obtain ⟨stepped, step⟩ : ∃ stepped, (machine program).step (some state) event =
          some stepped := ⟨_, rfl⟩
        exact (guarded stepped step).1 state rfl
      obtain ⟨next, step, kept⟩ := (keeps holds first now called).step
      obtain ⟨final, ran, ends⟩ := ih kept rest calls (guarded (some next) step).2
      exact ⟨final, Machine.run_cons_eq_some.mpr ⟨some next, step, ran⟩, ends⟩

/-- Where the programs fault without the guard, a run without a fault is guarded. -/
theorem guarded_of_protocol
    (keeps : ∀ {stage next state event}, inv stage state → allowed event → guard state event →
      protocol.run stage (call event).toList = some next →
        (program event).Ends state fun _ => inv next)
    (faults : ∀ {stage next state event}, inv stage state → ¬guard state event →
      protocol.run stage (call event).toList = some next →
        ¬(program event).Ends state fun _ _ => True)
    {stage last : τ} {state final : σ} {events : List ε} (holds : inv stage state)
    (all : ∀ event ∈ events, allowed event)
    (calls : protocol.run stage (events.filterMap call) = some last)
    (ran : (machine program).run (some state) events = some (some final)) :
    (machine program).Guarded (fun reached event => ∀ state ∈ reached, guard state event)
      (some state) events := by
  induction events generalizing stage state with
  | nil => trivial
  | cons event events ih =>
      obtain ⟨first, rest⟩ := List.forall_mem_cons.mp all
      rw [List.filterMap_cons_eq_append, Machine.run_append] at calls
      obtain ⟨middle, called, calls⟩ := Option.bind_eq_some_iff.mp calls
      obtain ⟨reached, step, continued⟩ := Machine.run_cons_eq_some.mp ran
      cases reached with
      | none => exact absurd continued (run_none_ne_some events)
      | some after =>
          have now : guard state event := by
            by_contra unguarded
            refine faults holds unguarded called ((ends_of_step step).mono fun _ _ _ => trivial)
          obtain ⟨next, again, kept⟩ := (keeps holds first now called).step
          obtain rfl : next = after := Option.some.inj (Option.some.inj (again.symm.trans step))
          intro other once
          obtain rfl := Option.some.inj (step.symm.trans once)
          exact ⟨fun _ same => Option.some.inj same ▸ now, ih kept rest calls continued⟩

end Protocol

/-- A goal that each tick brings nearer, and that nothing else takes away that is allowed, is
reached after enough ticks. -/
theorem run_of_countdown {program : ε → Program σ Unit} {tick : ε → Option Unit}
    {guard : σ → ε → Prop} {inv : Nat → σ → Prop}
    (keeps : ∀ {left state event}, inv left state → guard state event →
      (program event).Ends state fun _ => inv (left - (tick event).toList.length))
    {left : Nat} {state : σ} {events : List ε} (holds : inv left state)
    (guarded : (machine program).Guarded (fun reached event => ∀ state ∈ reached, guard state event)
      (some state) events) :
    ∃ final, (machine program).run (some state) events = some (some final) ∧
      inv (left - (events.filterMap tick).length) final := by
  refine @run_of_protocol _ _ _ _ program Machine.countdown tick (fun _ => True) guard inv
    (fun {stage next state event} holds _ guarded ticks => ?_) _ _ _ _ holds (fun _ _ => trivial)
    (Machine.run_countdown left _) guarded
  rw [Machine.run_countdown] at ticks
  exact Option.some.inj ticks ▸ keeps holds guarded

end Program
