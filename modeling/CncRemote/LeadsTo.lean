import CncRemote.Machine

/-!
# What a state can lead to

`LeadsTo` says that some events of an allowed kind, and not more than a number of them, take a
machine from a state to a goal.  Such facts are put together by `step` and `trans`.  Beside them
stands `guarded_or_of_run`: a run whose steps are not all guarded is stuck, if every step that is
not guarded gets it stuck.
-/

namespace Machine

variable {σ ε : Type*} {machine : Machine σ ε} {allowed : σ → ε → Prop} {inv goal middle : σ → Prop}
  {state : σ} {count more : Nat}

/-- Some allowed events, at most so many, lead from the state to the goal. -/
def LeadsTo (machine : Machine σ ε) (allowed : σ → ε → Prop) (count : Nat) (state : σ)
    (goal : σ → Prop) : Prop :=
  ∃ events final, events.length ≤ count ∧ machine.Guarded allowed state events ∧
    machine.run state events = some final ∧ goal final

namespace LeadsTo

theorem here (reached : goal state) : machine.LeadsTo allowed count state goal :=
  ⟨[], state, Nat.zero_le count, trivial, rfl, reached⟩

theorem step {event : ε} {next : σ} (helps : allowed state event)
    (moved : machine.step state event = some next)
    (rest : machine.LeadsTo allowed count next goal) :
    machine.LeadsTo allowed (count + 1) state goal := by
  obtain ⟨events, final, length, guarded, execution, reached⟩ := rest
  refine ⟨event :: events, final, Nat.succ_le_succ length, fun other stepped => ?_, ?_, reached⟩
  · obtain rfl := Option.some.inj (moved.symm.trans stepped)
    exact ⟨helps, guarded⟩
  · exact run_cons_eq_some.mpr ⟨next, moved, execution⟩

theorem within (leads : machine.LeadsTo allowed count state goal) (le : count ≤ more) :
    machine.LeadsTo allowed more state goal := by
  obtain ⟨events, final, length, rest⟩ := leads
  exact ⟨events, final, length.trans le, rest⟩

theorem mono {weaker : σ → Prop} (leads : machine.LeadsTo allowed count state goal)
    (weaken : ∀ final, goal final → weaker final) :
    machine.LeadsTo allowed count state weaker := by
  obtain ⟨events, final, length, guarded, execution, reached⟩ := leads
  exact ⟨events, final, length, guarded, execution, weaken final reached⟩

/-- The second goal is reached by way of the first; what allowed events keep is kept. -/
theorem trans
    (keep : ∀ {state event next}, inv state → allowed state event →
      machine.step state event = some next → inv next)
    (holds : inv state) (first : machine.LeadsTo allowed count state middle)
    (second : ∀ state, inv state → middle state → machine.LeadsTo allowed more state goal) :
    machine.LeadsTo allowed (count + more) state goal := by
  obtain ⟨events, final, length, guarded, execution, reached⟩ := first
  induction events generalizing state count with
  | nil =>
      obtain rfl : state = final := Option.some.inj execution
      exact (second state holds reached).within (Nat.le_add_left more count)
  | cons event events ih =>
      obtain ⟨next, moved, rest⟩ := run_cons_eq_some.mp execution
      obtain ⟨helps, guarded⟩ := guarded next moved
      have shorter : events.length ≤ count - 1 := Nat.le_sub_one_of_lt length
      have leads := ih (keep holds helps moved) shorter guarded rest
      refine (step helps moved leads).within ?_
      rw [List.length_cons] at length
      omega

/-- What a part can reach, the whole can. -/
theorem lift {τ δ : Type*} {whole : Machine τ δ} {permitted : τ → δ → Prop} {put : σ → τ}
    {event : ε → δ}
    (steps : ∀ {state item next}, machine.step state item = some next →
      whole.step (put state) (event item) = some (put next))
    (permits : ∀ {state item}, allowed state item → permitted (put state) (event item))
    {target : τ → Prop} (reaches : ∀ final, goal final → target (put final))
    (leads : machine.LeadsTo allowed count state goal) :
    whole.LeadsTo permitted count (put state) target := by
  obtain ⟨events, final, length, guarded, execution, reached⟩ := leads
  induction events generalizing state count with
  | nil =>
      obtain rfl : state = final := Option.some.inj execution
      exact here (reaches state reached)
  | cons item events ih =>
      obtain ⟨next, moved, rest⟩ := run_cons_eq_some.mp execution
      obtain ⟨helps, guarded⟩ := guarded next moved
      have leads := ih (Nat.le_refl events.length) guarded rest
      exact (step (permits helps) (steps moved) leads).within length

end LeadsTo

/-- Either every step of a run is guarded, or an unguarded one has got it stuck for good. -/
theorem guarded_or_of_run {guard : σ → ε → Prop} {stuck : σ → Prop}
    (keep : ∀ {state event next}, inv state → guard state event →
      machine.step state event = some next → inv next)
    (bad : ∀ {state event next}, inv state → ¬guard state event →
      machine.step state event = some next → stuck next)
    (stay : ∀ {state event next}, stuck state → machine.step state event = some next → stuck next)
    {final : σ} {events : List ε} (holds : inv state)
    (execution : machine.run state events = some final) :
    machine.Guarded guard state events ∧ inv final ∨
      ¬machine.Guarded guard state events ∧ stuck final := by
  induction events generalizing state with
  | nil =>
      obtain rfl : state = final := Option.some.inj execution
      exact .inl ⟨trivial, holds⟩
  | cons event events ih =>
      obtain ⟨next, moved, rest⟩ := run_cons_eq_some.mp execution
      rcases Classical.em (guard state event) with allowed | refused
      · rcases ih (keep holds allowed moved) rest with ⟨guarded, kept⟩ | ⟨unguarded, stuck⟩
        · refine .inl ⟨fun other stepped => ?_, kept⟩
          obtain rfl := Option.some.inj (moved.symm.trans stepped)
          exact ⟨allowed, guarded⟩
        · exact .inr ⟨fun guarded => unguarded (guarded next moved).2, stuck⟩
      · refine .inr ⟨fun guarded => refused (guarded next moved).1, ?_⟩
        exact invariant_of_run stay (bad holds refused moved) rest

end Machine
