import CncRemote.RemoteCall

/-!
# Blocking calls

`RemoteCall::Call` sends a request and counts down in steps of one tick while it waits for one of
the two callbacks.  The thread inside `Call` and the transport that runs the callbacks interleave
freely: every read of `m_busy` is one action of the thread.  The object of a blocking call usually
lives on the stack, so what matters is whether a request is still outstanding when `Call` is left.
-/

namespace CncRemote

/-- Where a thread inside `Call` stands, after its `CallAsync`. -/
inductive CallPoint (ρ : Type*) where
  /-- Before evaluating `m_busy && ms > 0`. -/
  | test (ms : Nat)
  /-- Before `SleepMs(1); ms--`. -/
  | sleep (ms : Nat)
  /-- Before evaluating `return (!m_busy)`. -/
  | verdict
  /-- Before `return GetResponse()`. -/
  | fetch
  /-- `Call` has returned or thrown. -/
  | left (outcome : Except CallError (Response ρ))

/-- Who acts next: the thread inside `Call`, or the transport with a callback. -/
inductive CallActor (ρ : Type*) where
  | thread
  | transport (callback : Callback ρ)

/-- A thread inside `Call` and the object it was called on. -/
structure BlockingCall (ρ : Type*) where
  point : CallPoint ρ
  line : Line ρ

namespace BlockingCall

variable {ρ : Type*}

/-- `Call` up to the end of its `CallAsync`, whose exceptions leave `Call`.  A negative timeout is
waited for like 0. -/
def start (line : Line ρ) (timeout : Nat) (method : String) (connection : Nat)
    (err : Option String) : BlockingCall ρ where
  point :=
    match (line.call.callAsync err).2 with
    | .ok _ => .test timeout
    | .error exception => .left (.error exception)
  line := line.callAsync method connection err

/-- One action of the thread, which only reads the object. -/
def advance (call : RemoteCall ρ) : CallPoint ρ → Option (CallPoint ρ)
  | .test ms => some (if call.busy = true ∧ 0 < ms then .sleep ms else .verdict)
  | .sleep ms => some (.test (ms - 1))
  | .verdict => some (if call.busy then .left (.error .timeout) else .fetch)
  | .fetch => some (.left call.getResponse)
  | .left _ => none

/-- The thread has not left `Call`. -/
def Inside (state : BlockingCall ρ) : Bool :=
  match state.point with
  | .left _ => false
  | _ => true

/-- The run is followed up to the moment at which `Call` is left. -/
def step (state : BlockingCall ρ) : CallActor ρ → Option (BlockingCall ρ)
  | .thread => (advance state.line.call state.point).map fun point => { state with point }
  | .transport callback =>
      if state.Inside then
        (state.line.callback callback).map fun line => { state with line }
      else
        none

/-- The interleavings of one blocking call with the transport. -/
def machine : Machine (BlockingCall ρ) (CallActor ρ) := ⟨step⟩

/-- Actions the thread still makes when no callback comes, up to its last read of `m_busy`. -/
def countdown : CallPoint ρ → Nat
  | .test ms => 2 * ms + 2
  | .sleep ms => 2 * (ms - 1) + 3
  | .verdict => 1
  | .fetch | .left _ => 0

/-- The first callback comes when the thread has made fewer than `actions` actions. -/
def CalledBackWithin : Nat → List (CallActor ρ) → Prop
  | 0, _ | _, [] => False
  | actions + 1, .thread :: actors => CalledBackWithin actions actors
  | _ + 1, .transport _ :: _ => True

/-- No request that was sent for the object is still without its callback. -/
def MayDestroy (state : BlockingCall ρ) : Prop := state.line.awaited = []

theorem start_of_busy {line : Line ρ} (busy : line.call.busy = true) (timeout : Nat)
    (method : String) (connection : Nat) (err : Option String) :
    start line timeout method connection err =
      ⟨.left (.error .busy), { line with attempts := line.attempts + 1 }⟩ := by
  simp [start, RemoteCall.callAsync_of_busy busy, Line.callAsync_of_busy busy]

theorem start_of_idle {line : Line ρ} (idle : line.call.busy = false) (timeout : Nat)
    (method : String) (connection : Nat) (err : Option String) :
    start line timeout method connection err =
      ⟨match err with
        | none => .test timeout
        | some text => .left (.error (.transfer text)),
        line.callAsync method connection err⟩ := by
  cases err <;> simp [start, RemoteCall.callAsync_of_idle idle]

/-- The thread changes nothing but its own position. -/
theorem thread_step {state next : BlockingCall ρ}
    (moved : machine.step state .thread = some next) :
    advance state.line.call state.point = some next.point ∧ next.line = state.line := by
  obtain ⟨point, advanced, rfl⟩ := Option.map_eq_some_iff.mp moved
  exact ⟨advanced, rfl⟩

/-- A callback changes nothing but the object. -/
theorem transport_step {state next : BlockingCall ρ} {callback : Callback ρ}
    (moved : machine.step state (.transport callback) = some next) :
    state.line.callback callback = some next.line ∧ next.point = state.point := by
  obtain ⟨-, served⟩ := Option.ite_none_right_eq_some.mp moved
  obtain ⟨line, called, rfl⟩ := Option.map_eq_some_iff.mp served
  exact ⟨called, rfl⟩

/-- Once nothing is awaited, nothing is awaited when `Call` is left. -/
theorem mayDestroy_of_run {state final : BlockingCall ρ} {actors : List (CallActor ρ)}
    (quiet : state.MayDestroy) (execution : machine.run state actors = some final) :
    final.MayDestroy := by
  have keep {before next : BlockingCall ρ} {actor : CallActor ρ} (quiet : before.MayDestroy)
      (moved : machine.step before actor = some next) : next.MayDestroy := by
    cases actor with
    | thread =>
        rw [MayDestroy, (thread_step moved).2]
        exact quiet
    | transport callback =>
        have awaited := (Line.callback_eq_some (transport_step moved).1).1
        rw [quiet] at awaited
        cases awaited
  exact Machine.invariant_of_run keep quiet execution

theorem countdown_advance {call : RemoteCall ρ} {point next : CallPoint ρ}
    (busy : call.busy = true) (pending : 0 < countdown point)
    (advanced : advance call point = some next) : countdown point = countdown next + 1 := by
  cases point with
  | test ms =>
      obtain rfl := Option.some.inj advanced
      by_cases positive : 0 < ms
      · simp [busy, positive, countdown]
        omega
      · obtain rfl : ms = 0 := by omega
        simp [countdown]
  | sleep ms =>
      obtain rfl := Option.some.inj advanced
      rfl
  | verdict =>
      obtain rfl := Option.some.inj advanced
      simp [busy, countdown]
  | fetch | left => cases pending

theorem left_of_countdown {call : RemoteCall ρ} {point next : CallPoint ρ}
    (busy : call.busy = true) (pending : 0 < countdown point)
    (advanced : advance call point = some next) (ended : countdown next = 0) :
    ∃ outcome, next = .left outcome := by
  have last := countdown_advance busy pending advanced
  cases point with
  | test ms | sleep ms =>
      rw [ended] at last
      simp [countdown] at last
  | verdict =>
      obtain rfl := Option.some.inj advanced
      exact ⟨.error .timeout, by simp [busy]⟩
  | fetch | left => cases pending

/-- The run ends where `Call` is left. -/
theorem run_left {state final : BlockingCall ρ} {outcome : Except CallError (Response ρ)}
    {actors : List (CallActor ρ)} (left : state.point = .left outcome)
    (execution : machine.run state actors = some final) : final = state := by
  cases actors with
  | nil => exact (Option.some.inj execution).symm
  | cons actor actors =>
      obtain ⟨next, moved, -⟩ := Machine.run_cons_eq_some.mp execution
      cases actor <;> simp [machine, step, advance, Inside, left] at moved

/-- While the request is outstanding, the callback has to come within the countdown. -/
theorem mayDestroy_iff_of_awaiting {state final : BlockingCall ρ} {request : Request}
    {actors : List (CallActor ρ)} {outcome : Except CallError (Response ρ)}
    (waiting : state.line.Shows (.awaiting request)) (pending : 0 < countdown state.point)
    (execution : machine.run state actors = some final) (left : final.point = .left outcome) :
    final.MayDestroy ↔ CalledBackWithin (countdown state.point) actors := by
  induction actors generalizing state with
  | nil =>
      obtain rfl : state = final := Option.some.inj execution
      rw [left] at pending
      cases pending
  | cons actor actors ih =>
      obtain ⟨next, moved, rest⟩ := Machine.run_cons_eq_some.mp execution
      cases actor with
      | thread =>
          obtain ⟨advanced, same⟩ := thread_step moved
          have busy : state.line.call.busy = true := waiting.1
          have waitingNext : next.line.Shows (.awaiting request) := same.symm ▸ waiting
          rw [countdown_advance busy pending advanced]
          by_cases ended : countdown next.point = 0
          · obtain ⟨gaveUp, next_left⟩ := left_of_countdown busy pending advanced ended
            obtain rfl := run_left next_left rest
            obtain ⟨-, -, -, outstanding, -⟩ := waitingNext
            simp [MayDestroy, outstanding, ended, CalledBackWithin]
          · exact ih waitingNext (Nat.pos_of_ne_zero ended) rest
      | transport callback =>
          obtain ⟨actions, actions_eq⟩ := Nat.exists_eq_add_one_of_ne_zero pending.ne'
          obtain ⟨awaited, served⟩ := Line.callback_eq_some (transport_step moved).1
          obtain ⟨-, -, -, outstanding, -⟩ := waiting
          have quiet : next.MayDestroy := by
            rw [outstanding, List.mem_singleton] at awaited
            simp [MayDestroy, served, outstanding, awaited]
          rw [actions_eq]
          exact iff_of_true (mayDestroy_of_run quiet rest) trivial

/-- When `Call` is left, its object may be destroyed exactly if it had nothing outstanding to
begin with and the call was refused or called back before `Wait` read `m_busy` for the last time. -/
theorem mayDestroy_iff {line : Line ρ} {slot : Slot ρ} (shows : line.Shows slot) (timeout : Nat)
    (method : String) (connection : Nat) (err : Option String) {actors : List (CallActor ρ)}
    {final : BlockingCall ρ} {outcome : Except CallError (Response ρ)}
    (execution : machine.run (start line timeout method connection err) actors = some final)
    (left : final.point = .left outcome) :
    final.MayDestroy ↔
      line.awaited = [] ∧
        (line.call.busy = true ∨ err ≠ none ∨ CalledBackWithin (2 * timeout + 2) actors) := by
  cases busy : line.call.busy with
  | true =>
      have refused := start_of_busy busy timeout method connection err
      obtain rfl := run_left (by rw [refused]) execution
      simp [MayDestroy, refused]
  | false =>
      have called := Line.callAsync_shows shows method connection err
      have quiet : line.awaited = [] := by
        cases slot <;> simp_all [Line.Shows]
      rw [start_of_idle busy] at execution
      cases err with
      | some text =>
          obtain rfl := run_left rfl execution
          simp [MayDestroy, Line.callAsync_of_idle busy, quiet]
      | none =>
          have waiting : (line.callAsync method connection none).Shows
              (.awaiting ⟨line.attempts, method, connection⟩) := by
            cases slot <;> simp_all [Line.Shows, Slot.callAsync]
          rw [mayDestroy_iff_of_awaiting waiting (by simp [countdown]) execution left]
          simp [quiet, countdown]

/-- A response that comes between the last test of the loop and the final read is in time. -/
theorem mayDestroy_late_response :
    ∃ final outcome,
      machine.run (start (Line.new : Line Bool) 1 "Mdi" 1 none)
        [.thread, .thread, .thread, .transport (.response ⟨⟨0, "Mdi", 1⟩, true, none⟩), .thread,
          .thread] = some final ∧
      final.point = .left outcome ∧ final.MayDestroy := by
  let answer : Response Bool := ⟨⟨0, "Mdi", 1⟩, true, none⟩
  have execution :
      machine.run (start (Line.new : Line Bool) 1 "Mdi" 1 none)
        [.thread, .thread, .thread, .transport (.response answer), .thread, .thread] =
          some ⟨.left (.ok answer), ⟨⟨some answer, true, "", false⟩, 1, [], some 0⟩⟩ := rfl
  refine ⟨_, _, execution, rfl, ?_⟩
  have called : CalledBackWithin (2 * 1 + 2)
      [.thread, .thread, .thread, .transport (.response answer), .thread, .thread] := trivial
  exact (mayDestroy_iff Line.new_shows 1 "Mdi" 1 none execution rfl).mpr ⟨rfl, .inr (.inr called)⟩

/-- Without a callback the thread sleeps once per tick and gives up. -/
theorem run_without_callback {line : Line ρ} (busy : line.call.busy = true) (ms : Nat) :
    machine.run ⟨.test ms, line⟩ (List.replicate (2 * ms + 2) .thread) =
      some ⟨.left (.error .timeout), line⟩ := by
  induction ms with
  | zero => simp [List.replicate, Machine.run, machine, step, advance, busy]
  | succ ms ih =>
      have slept : machine.run ⟨.test (ms + 1), line⟩ (List.replicate 2 .thread) =
          some ⟨.test ms, line⟩ := by
        simp [Machine.run, machine, step, advance, busy]
      rw [show 2 * (ms + 1) + 2 = 2 + (2 * ms + 2) by omega, List.replicate_add,
        Machine.run_append, slept]
      exact ih

/-- The half second of the client can pass while the transport still holds the request. -/
theorem not_mayDestroy_after_timeout :
    ¬∀ (actors : List (CallActor Bool)) (final : BlockingCall Bool)
        (outcome : Except CallError (Response Bool)),
      machine.run (start Line.new 500 "Mdi" 1 none) actors = some final →
        final.point = .left outcome → final.MayDestroy := by
  intro always
  have quiet := always _ _ _ (run_without_callback rfl 500) rfl
  cases quiet

end BlockingCall

end CncRemote
