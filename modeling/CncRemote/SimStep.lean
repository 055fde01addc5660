import CncRemote.Sim
import CncRemote.Stride

/-!
# Steps of the simulator

After `JogStep`, every `Poll` moves the simulator by the feed rate towards the target, and past it
when less than that is left.  `jogStep_ends_iff` says which steps come to an end, as far as the
clients are told.
-/

namespace CncRemote

variable {K : Type} [Field K] [LinearOrder K] [IsStrictOrderedRing K] (sqrt : SquareRoot K)

omit [IsStrictOrderedRing K] in
theorem SquareRoot.root_eq [IsStrictOrderedRing K] {value root : K} (nonneg : 0 ≤ root)
    (square : root * root = value) : sqrt.root value = root := by
  have value_nonneg : 0 ≤ value := square ▸ mul_self_nonneg root
  have same : sqrt.root value * sqrt.root value = root * root :=
    (sqrt.mul_self value value_nonneg).trans square.symm
  exact (mul_self_inj (sqrt.nonneg value) nonneg).mp same

namespace Axes

theorem squares_nonneg (axes : Axes K) : 0 ≤ axes.squares := by
  have square (ct : Fin maxAxes) : 0 ≤ axes.array ct * axes.array ct := mul_self_nonneg _
  rw [squares]
  linarith [square 0, square 1, square 2, square 3, square 4, square 5]

omit [LinearOrder K] [IsStrictOrderedRing K] in
theorem squares_mul (axes : Axes K) (factor : K) :
    (axes.mul factor).squares = factor * factor * axes.squares := by
  simp only [squares, mul]
  ring

theorem length_mul (axes : Axes K) (factor : K) :
    (axes.mul factor).length sqrt = |factor| * axes.length sqrt := by
  refine sqrt.root_eq (mul_nonneg (abs_nonneg factor) (sqrt.nonneg _)) ?_
  rw [mul_mul_mul_comm, abs_mul_abs_self, length, sqrt.mul_self _ axes.squares_nonneg,
    squares_mul]

end Axes

namespace Sim

/-- The distance to the target. -/
def remaining (sim : Sim K) : K := (sim.machine.target - sim.state.position).length sqrt

/-- The distance by which `Poll` moves. -/
def stride (sim : Sim K) : K := sim.machine.feedRate * sim.machine.feedOverride

/-- No jog is going on. -/
def NoJog (sim : Sim K) : Prop := ∀ ct, sim.machine.jogVel.array ct = 0

/-- The requests that change the target, the feed or the jog velocity. -/
def Steers : SimEvent K → Prop
  | .drivesOn false | .jogVel _ | .jogStep _ _ | .feedOverride _ => True
  | _ => False

/-- The event is a call of `Poll`. -/
def isPoll : SimEvent K → Bool
  | .poll => true
  | _ => false

section Poll

variable {sqrt} {sim : Sim K}

omit [IsStrictOrderedRing K] in
theorem jog_of_noJog (still : sim.NoJog) (busy : ControlState) : sim.jog busy = (sim, busy) := by
  refine if_neg ?_
  rintro ⟨ct, moves⟩
  exact moves (still ct)

omit [IsStrictOrderedRing K] in
theorem poll_of_noJog (still : sim.NoJog) :
    sim.poll sqrt =
      report (({ sim with machine := countdown sim.machine } : Sim K).approach sqrt
        (busyState (countdown sim.machine))) := by
  have stays : ({ sim with machine := countdown sim.machine } : Sim K).NoJog := still
  simp only [poll, jog_of_noJog stays]

omit [IsStrictOrderedRing K] in
theorem approach_of_near (near : sim.remaining sqrt ≤ reach) (busy : ControlState) :
    sim.approach sqrt busy = (sim, busy) := if_neg (not_lt.mpr near)

omit [IsStrictOrderedRing K] in
theorem approach_of_far (far : reach < sim.remaining sqrt) (busy : ControlState) :
    sim.approach sqrt busy =
      ({ sim with state := { sim.state with
          position := sim.state.position + ((sim.machine.target - sim.state.position).div
            (sim.remaining sqrt)).mul sim.stride } }, .running) := if_pos far

theorem remaining_approach (sim : Sim K) (busy : ControlState) :
    (sim.approach sqrt busy).1.remaining sqrt =
      Stride.next reach sim.stride (sim.remaining sqrt) := by
  by_cases far : reach < sim.remaining sqrt
  · have positive : 0 < sim.remaining sqrt := by
      refine lt_trans ?_ far
      norm_num [reach]
    rw [Stride.next_of_lt far, approach_of_far far]
    have ahead : sim.machine.target -
        (sim.state.position + ((sim.machine.target - sim.state.position).div
          (sim.remaining sqrt)).mul sim.stride) =
        (sim.machine.target - sim.state.position).mul
          (1 - sim.stride / sim.remaining sqrt) := by
      refine congrArg Axes.mk (funext fun ct => ?_)
      change sim.machine.target.array ct - (sim.state.position.array ct +
        (sim.machine.target.array ct - sim.state.position.array ct) / sim.remaining sqrt *
          sim.stride) =
        (sim.machine.target.array ct - sim.state.position.array ct) *
          (1 - sim.stride / sim.remaining sqrt)
      ring
    calc
      _ = ((sim.machine.target - sim.state.position).mul
          (1 - sim.stride / sim.remaining sqrt)).length sqrt := congrArg (Axes.length sqrt) ahead
      _ = |1 - sim.stride / sim.remaining sqrt| * |sim.remaining sqrt| := by
        rw [Axes.length_mul, abs_of_pos positive]
        rfl
      _ = |sim.remaining sqrt - sim.stride| := by
        rw [← abs_mul, sub_mul, one_mul, div_mul_cancel₀ _ positive.ne']
  · rw [Stride.next_of_le (not_lt.mp far), approach_of_near (not_lt.mp far)]

omit [IsStrictOrderedRing K] in
theorem approach_machine (sim : Sim K) (busy : ControlState) :
    (sim.approach sqrt busy).1.machine = sim.machine := by
  simp only [approach]
  split <;> rfl

omit [Field K] [LinearOrder K] [IsStrictOrderedRing K] in
theorem advance_keeps (machine : MachineState K) :
    (advance machine).jogVel = machine.jogVel ∧ (advance machine).feedRate = machine.feedRate ∧
      (advance machine).feedOverride = machine.feedOverride ∧
        (advance machine).running = machine.running := by
  simp only [advance]
  split_ifs <;> exact ⟨rfl, rfl, rfl, rfl⟩

theorem poll_walks (still : sim.NoJog) :
    (sim.poll sqrt).NoJog ∧ (sim.poll sqrt).stride = sim.stride ∧
      (sim.poll sqrt).machine.running = sim.machine.running ∧
        (sim.poll sqrt).remaining sqrt = Stride.next reach sim.stride (sim.remaining sqrt) := by
  let counted : Sim K := { sim with machine := countdown sim.machine }
  let moved := (counted.approach sqrt (busyState counted.machine)).1
  have machine : moved.machine = counted.machine := approach_machine _ _
  obtain ⟨jogVel, feedRate, feedOverride, running⟩ := advance_keeps moved.machine
  rw [poll_of_noJog still]
  refine ⟨?_, ?_, ?_, ?_⟩
  · change (⟨advance moved.machine, _⟩ : Sim K).NoJog
    rw [NoJog, jogVel, machine]
    exact still
  · change (advance moved.machine).feedRate * (advance moved.machine).feedOverride = sim.stride
    rw [feedRate, feedOverride, machine]
    rfl
  · change (advance moved.machine).running = sim.machine.running
    rw [running, machine]
    rfl
  · refine Eq.trans ?_ (remaining_approach counted (busyState counted.machine))
    change ((advance moved.machine).target - moved.state.position).length sqrt =
      moved.remaining sqrt
    rw [advance_target]
    rfl

omit [IsStrictOrderedRing K] in
theorem poll_reports_iff (still : sim.NoJog) (idle : sim.machine.running = false) :
    (sim.poll sqrt).state.machineState = ControlState.running.code ↔
      reach < sim.remaining sqrt := by
  let counted : Sim K := { sim with machine := countdown sim.machine }
  have same : counted.remaining sqrt = sim.remaining sqrt := rfl
  rw [poll_of_noJog still, ← same]
  by_cases far : reach < counted.remaining sqrt
  · rw [approach_of_far far]
    exact iff_of_true rfl far
  · rw [approach_of_near (not_lt.mp far)]
    refine iff_of_false ?_ far
    have quiet : (countdown sim.machine).running = false := idle
    simp only [report, busyState, quiet, Bool.false_eq_true, if_false]
    split_ifs <;> decide

end Poll

section Run

variable {sim : Sim K}

theorem handle_walks {event : SimEvent K} (still : sim.NoJog) (quiet : ¬Steers event) :
    (sim.handle sqrt event).NoJog ∧ (sim.handle sqrt event).stride = sim.stride ∧
      (sim.handle sqrt event).machine.running = sim.machine.running ∧
        (sim.handle sqrt event).remaining sqrt =
          if isPoll event then Stride.next reach sim.stride (sim.remaining sqrt)
          else sim.remaining sqrt := by
  cases event with
  | poll => exact poll_walks still
  | drivesOn status =>
      cases status with
      | true => exact ⟨still, rfl, rfl, rfl⟩
      | false => exact absurd trivial quiet
  | jogVel | jogStep | feedOverride => exact absurd trivial quiet
  | _ => exact ⟨still, rfl, rfl, rfl⟩

/-- As long as no request steers, the polls alone decide what is left to the target. -/
theorem run_walks {events : List (SimEvent K)} (still : sim.NoJog)
    (quiet : ∀ event ∈ events, ¬Steers event) :
    (events.foldl (handle sqrt) sim).NoJog ∧
      (events.foldl (handle sqrt) sim).machine.running = sim.machine.running ∧
        (events.foldl (handle sqrt) sim).remaining sqrt =
          (Stride.next reach sim.stride)^[events.countP isPoll] (sim.remaining sqrt) := by
  induction events generalizing sim with
  | nil => exact ⟨still, rfl, rfl⟩
  | cons event events ih =>
      obtain ⟨first, rest⟩ := List.forall_mem_cons.mp quiet
      obtain ⟨noJog, stride, running, remaining⟩ := handle_walks sqrt still first
      obtain ⟨noJog', running', remaining'⟩ := ih noJog rest
      refine ⟨noJog', running'.trans running, ?_⟩
      rw [List.foldl_cons, remaining', stride, remaining, List.countP_cons]
      cases isPoll event with
      | true => rfl
      | false => rfl

end Run

/-- From some poll on, the simulator reports that it does not run, whatever requests come in that do
not steer. -/
def Ends (sim : Sim K) : Prop :=
  ∃ polls, ∀ events : List (SimEvent K), (∀ event ∈ events, ¬Steers event) →
    polls ≤ events.countP isPoll →
      ((events.foldl (handle sqrt) sim).poll sqrt).state.machineState ≠
        ControlState.running.code

variable {sqrt} {sim : Sim K}

theorem ends_iff_arrives (still : sim.NoJog) (idle : sim.machine.running = false) :
    sim.Ends sqrt ↔ Stride.Arrives reach sim.stride (sim.remaining sqrt) := by
  have reports {events : List (SimEvent K)} (quiet : ∀ event ∈ events, ¬Steers event) :
      ((events.foldl (handle sqrt) sim).poll sqrt).state.machineState ≠
          ControlState.running.code ↔
        (Stride.next reach sim.stride)^[events.countP isPoll] (sim.remaining sqrt) ≤ reach := by
    obtain ⟨noJog, running, remaining⟩ := run_walks sqrt still quiet
    rw [Ne, poll_reports_iff noJog (running.trans idle), remaining, not_lt]
  constructor
  · rintro ⟨polls, ends⟩
    have quiet : ∀ event ∈ List.replicate polls (SimEvent.poll : SimEvent K), ¬Steers event := by
      intro event member
      rw [List.eq_of_mem_replicate member]
      exact id
    have count : (List.replicate polls (SimEvent.poll : SimEvent K)).countP isPoll = polls := by
      rw [List.countP_replicate]
      exact if_pos rfl
    have near := (reports quiet).mp (ends _ quiet count.ge)
    rw [count] at near
    exact ⟨polls, near⟩
  · rintro ⟨polls, near⟩
    refine ⟨polls, fun events quiet enough => (reports quiet).mpr ?_⟩
    exact Stride.iterate_next_le_of_le enough near

omit [IsStrictOrderedRing K] in
/-- No request starts a program. -/
theorem running_handle (event : SimEvent K) (idle : sim.machine.running = false) :
    (sim.handle sqrt event).machine.running = false := by
  cases event with
  | poll =>
      have jogged : ∀ busy, (({ sim with machine := countdown sim.machine } : Sim K).jog
          busy).1.machine.running = false := by
        intro busy
        simp only [jog]
        split_ifs <;> exact idle
      change (advance _).running = false
      rw [(advance_keeps _).2.2.2, approach_machine]
      exact jogged _
  | drivesOn status => cases status <;> first | rfl | exact idle
  | _ => exact idle

omit [IsStrictOrderedRing K] in
theorem running_of_run (events : List (SimEvent K)) :
    (events.foldl (handle sqrt) initial).machine.running = false := by
  induction events using List.reverseRecOn with
  | nil => rfl
  | append_singleton events event ih =>
      rw [List.foldl_append]
      exact running_handle event ih

/-- In every state that the simulator reaches without a jog going on, a step that moves it comes to
an end, as far as the clients are told, exactly if its length is a number of strides, up to the
reach of the target.  Any other step goes past the target and back for ever. -/
theorem jogStep_ends_iff [FloorRing K] {before : List (SimEvent K)}
    (reached : before.foldl (handle sqrt) initial = sim) (still : sim.NoJog)
    (distance : Axes K) (speed : K) (moves : 0 < speed * sim.machine.feedOverride) :
    (sim.jogStep distance speed).Ends sqrt ↔
      Stride.rest (speed * sim.machine.feedOverride) (distance.length sqrt) ≤ reach ∨
        speed * sim.machine.feedOverride -
            Stride.rest (speed * sim.machine.feedOverride) (distance.length sqrt) ≤ reach := by
  have idle : sim.machine.running = false := reached ▸ running_of_run before
  have asked : (sim.jogStep distance speed).NoJog := still
  have remaining : (sim.jogStep distance speed).remaining sqrt = distance.length sqrt :=
    congrArg (Axes.length sqrt) (Axes.add_sub_same sim.state.position distance)
  rw [ends_iff_arrives asked idle, remaining]
  exact Stride.arrives_iff moves (sqrt.nonneg _)

/-- Ten units in strides of one unit. -/
theorem ten_ends :
    ((initial.feedOverride 1).jogStep SimRun.tenAhead 1).Ends SquareRoot.real := by
  have one : (1 : ℝ) * (initial.feedOverride (1 : ℝ)).machine.feedOverride = 1 := one_mul 1
  refine (@jogStep_ends_iff ℝ _ _ _ SquareRoot.real (initial.feedOverride 1) _ [.feedOverride 1]
    rfl (fun _ => rfl) SimRun.tenAhead 1 ?_).mpr (.inl ?_)
  · rw [one]
    exact one_pos
  · rw [one, SimRun.length_tenAhead]
    have whole : Int.fract ((10 : ℝ) / 1) = 0 := by
      rw [div_one]
      exact Int.fract_ofNat 10
    rw [Stride.rest, whole, zero_mul]
    norm_num [reach]

end Sim

end CncRemote
