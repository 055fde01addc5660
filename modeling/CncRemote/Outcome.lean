import CncRemote.BlockingCall

/-!
# The outcome of a call

`GetResponse` has four answers: the response, an error of the remote function, an error of the
transport, and that the call timed out.  A history remembers which callback ran for the latest
call, so that the answer can be compared with what happened.
-/

namespace CncRemote

/-- What `GetResponse` should answer, given the callback that ran for the latest call. -/
def reportOf {ρ : Type*} : Option (Callback ρ) → Except CallError (Response ρ)
  | none => .error .timeout
  | some (.response response) =>
      match response.error with
      | none => .ok response
      | some text => .error (.remote text)
  | some (.error _ text) => .error (.send text)

/-- A `RemoteCall` object and the callback that ran for its latest call. -/
structure CallHistory (ρ : Type*) where
  line : Line ρ
  /-- The callback, if one ran since the last `CallAsync` that was not refused. -/
  ran : Option (Callback ρ)

namespace CallHistory

variable {ρ : Type*}

/-- An object for which nothing was called. -/
def new : CallHistory ρ := ⟨.new, none⟩

/-- The callback that ran for the latest call, after one more event. -/
def record (history : CallHistory ρ) : CallEvent ρ → Option (Callback ρ)
  | .callAsync _ _ _ => if history.line.call.busy then history.ran else none
  | .callback callback => some callback
  | .wait _ | .getResponse | .clearResponse => history.ran

/-- One event on the object. -/
def step (history : CallHistory ρ) (event : CallEvent ρ) : Option (CallHistory ρ) :=
  (Line.machine.step history.line event).map fun line => ⟨line, history.record event⟩

/-- The machine of all histories. -/
def machine : Machine (CallHistory ρ) (CallEvent ρ) := ⟨step⟩

/-- `GetResponse` answers what happened to the latest call. -/
def Reports (history : CallHistory ρ) : Prop :=
  history.line.call.getResponse = reportOf history.ran

/-- The event neither fails the call in the transport nor drops a response that is on offer. -/
def Keeps (history : CallHistory ρ) : CallEvent ρ → Prop
  | .callback (.error _ _) => False
  | .clearResponse => history.line.call.hasResponse = false
  | .callAsync _ _ _ | .callback (.response _) | .wait _ | .getResponse => True

/-- The slot that the object shows agrees with the callback that ran. -/
def Agrees (history : CallHistory ρ) : Prop :=
  ∃ slot, history.line.Shows slot ∧ history.ran =
    match slot with
    | .holding response => some (.response response)
    | .free | .awaiting _ | .jammed => none

theorem Agrees.reports {history : CallHistory ρ} (agrees : history.Agrees) : history.Reports := by
  obtain ⟨slot, shows, ran⟩ := agrees
  rw [Reports, ran]
  cases slot with
  | holding response =>
      obtain ⟨-, hasResponse, clean, stored, -⟩ := shows
      cases error : response.error <;>
        simp [RemoteCall.getResponse, reportOf, hasResponse, stored, clean, error]
  | free | awaiting | jammed =>
      simp only [Line.Shows] at shows
      simp [RemoteCall.getResponse, reportOf, shows]

theorem agrees_step {history next : CallHistory ρ} {event : CallEvent ρ}
    (agrees : history.Agrees) (keeps : history.Keeps event)
    (moved : machine.step history event = some next) : next.Agrees := by
  obtain ⟨line, step, rfl⟩ := Option.map_eq_some_iff.mp moved
  obtain ⟨slot, shows, ran⟩ := agrees
  cases event with
  | callAsync method connection err =>
      obtain rfl : history.line.callAsync method connection err = line := Option.some.inj step
      refine ⟨_, Line.callAsync_shows shows method connection err, ?_⟩
      cases slot with
      | free | holding =>
          have idle : history.line.call.busy = false := shows.1
          cases err <;> simp [record, idle, Slot.callAsync]
      | awaiting | jammed =>
          have busy : history.line.call.busy = true := shows.1
          simp [record, busy, Slot.callAsync, ran]
  | callback callback =>
      cases callback with
      | error => exact keeps.elim
      | response response =>
          obtain ⟨nextSlot, called, nextShows⟩ := Line.callback_shows shows step
          refine ⟨nextSlot, nextShows, ?_⟩
          obtain rfl := Line.awaiting_of_mem shows (Line.callback_eq_some step).1
          obtain rfl : Slot.holding response = nextSlot := by
            simpa [Slot.callback, Callback.request] using called
          rfl
  | wait | getResponse =>
      obtain rfl : history.line = line := Option.some.inj step
      exact ⟨slot, shows, ran⟩
  | clearResponse =>
      obtain rfl : history.line.clearResponse = line := Option.some.inj step
      refine ⟨_, Line.clearResponse_shows shows, ?_⟩
      cases slot with
      | holding =>
          have hasResponse : history.line.call.hasResponse = true := shows.2.1
          rw [Keeps, hasResponse] at keeps
          cases keeps
      | free | awaiting | jammed => exact ran

/-- A failed transport is answered with a timeout, and so is a response that was dropped. -/
theorem not_reports_of_lost {history next : CallHistory ρ} {event : CallEvent ρ}
    (agrees : history.Agrees) (lost : ¬history.Keeps event)
    (moved : machine.step history event = some next) : ¬next.Reports := by
  obtain ⟨line, step, rfl⟩ := Option.map_eq_some_iff.mp moved
  obtain ⟨slot, shows, ran⟩ := agrees
  cases event with
  | callAsync | wait | getResponse => exact (lost trivial).elim
  | callback callback =>
      cases callback with
      | response => exact (lost trivial).elim
      | error request text =>
          obtain ⟨awaited, rfl⟩ := Line.callback_eq_some step
          obtain rfl := Line.awaiting_of_mem shows awaited
          have unset : history.line.call.hasResponse = false := shows.2.1
          simp [Reports, record, reportOf, RemoteCall.callback, RemoteCall.onError,
            RemoteCall.getResponse, unset]
  | clearResponse =>
      obtain rfl : history.line.clearResponse = line := Option.some.inj step
      cases slot with
      | holding response =>
          simp only [Reports, record, ran, Line.clearResponse, RemoteCall.clearResponse,
            RemoteCall.getResponse]
          cases error : response.error <;> simp [reportOf, error]
      | free | awaiting | jammed =>
          simp only [Line.Shows] at shows
          exact (lost shows.2.1).elim

/-- `GetResponse` answers what happened to the latest call throughout a history exactly if the
transport fails no call and no response on offer is dropped. -/
theorem always_reports_iff (events : List (CallEvent ρ)) :
    machine.Always Reports new events ↔ machine.Guarded Keeps new events :=
  Machine.always_iff_guarded agrees_step Agrees.reports not_reports_of_lost
    ⟨.free, Line.new_shows, rfl⟩ events

end CallHistory

namespace BlockingCall

variable {ρ : Type*}

/-- The transport has failed the call, and nothing else can be reported than a timeout. -/
structure Failed (state : BlockingCall ρ) : Prop where
  idle : state.line.call.busy = false
  unset : state.line.call.hasResponse = false
  quiet : state.MayDestroy
  reported : ∀ outcome, state.point = .left outcome → outcome = .error .timeout

theorem failed_step {state next : BlockingCall ρ} {actor : CallActor ρ} (failed : state.Failed)
    (moved : machine.step state actor = some next) : next.Failed := by
  cases actor with
  | thread =>
      obtain ⟨advanced, same⟩ := thread_step moved
      refine ⟨same ▸ failed.idle, same ▸ failed.unset, ?_, fun outcome left => ?_⟩
      · rw [MayDestroy, same]
        exact failed.quiet
      · rw [left] at advanced
        cases point : state.point with
        | fetch =>
            rw [point] at advanced
            obtain rfl := CallPoint.left.inj (Option.some.inj advanced)
            simp [RemoteCall.getResponse, failed.unset]
        | test | sleep | verdict | left => simp [point, advance, failed.idle] at advanced
  | transport callback =>
      have awaited := (Line.callback_eq_some (transport_step moved).1).1
      rw [failed.quiet] at awaited
      cases awaited

/-- A call that the transport fails is left with a timeout. -/
theorem timeout_of_error {state final : BlockingCall ρ} {slot : Slot ρ}
    {actors : List (CallActor ρ)} {request : Request} {text : String}
    {outcome : Except CallError (Response ρ)} (shows : state.line.Shows slot)
    (execution : machine.run state actors = some final) (left : final.point = .left outcome)
    (fails : .transport (.error request text) ∈ actors) : outcome = .error .timeout := by
  induction actors generalizing state slot with
  | nil => cases fails
  | cons actor actors ih =>
      obtain ⟨next, moved, rest⟩ := Machine.run_cons_eq_some.mp execution
      cases actor with
      | thread =>
          have nextShows : next.line.Shows slot := (thread_step moved).2 ▸ shows
          exact ih nextShows rest (by simpa using fails)
      | transport callback =>
          obtain ⟨inside, -⟩ := Option.ite_none_right_eq_some.mp moved
          obtain ⟨called, same⟩ := transport_step moved
          obtain ⟨nextSlot, -, nextShows⟩ := Line.callback_shows shows called
          cases callback with
          | response => exact ih nextShows rest (by simpa using fails)
          | error =>
              obtain ⟨awaited, served⟩ := Line.callback_eq_some called
              obtain rfl := Line.awaiting_of_mem shows awaited
              obtain ⟨-, unset, -, outstanding, -⟩ := shows
              have failed : next.Failed := by
                refine ⟨?_, ?_, ?_, fun early left => ?_⟩
                · rw [served]
                  rfl
                · rw [served]
                  exact unset
                · simp [MayDestroy, served, outstanding]
                · rw [same] at left
                  simp [Inside, left] at inside
              have final_failed := Machine.invariant_of_run failed_step failed rest
              exact final_failed.reported outcome left

/-- What `GetResponse` answers is what happened, and `Call` does not report a failed transport as
a timeout, exactly if the transport fails no call and no response on offer is dropped. -/
theorem outcome_reported_iff (events history : List (CallEvent ρ)) {line : Line ρ}
    (reached : Line.machine.run .new history = some line) (timeout : Nat) (method : String)
    (connection : Nat) (err : Option String) {actors : List (CallActor ρ)}
    {final : BlockingCall ρ} {outcome : Except CallError (Response ρ)}
    (execution : machine.run (start line timeout method connection err) actors = some final)
    (left : final.point = .left outcome) :
    (CallHistory.machine.Always CallHistory.Reports .new events ↔
      CallHistory.machine.Guarded CallHistory.Keeps .new events) ∧
    (((∃ request text, .transport (.error request text) ∈ actors) → outcome ≠ .error .timeout) ↔
      ∀ request text, .transport (.error request text) ∉ actors) := by
  refine ⟨CallHistory.always_reports_iff events, ?_, ?_⟩
  · intro told request text fails
    obtain ⟨slot, -, shows⟩ := Line.run_shows reached
    have called := Line.callAsync_shows shows method connection err
    exact told ⟨request, text, fails⟩ (timeout_of_error called execution left fails)
  · rintro kept ⟨request, text, fails⟩
    exact (kept request text fails).elim

/-- A response within the timeout is reported as such. -/
theorem outcome_reported_ping :
    ∃ final outcome,
      machine.run (start (Line.new : Line Bool) 1 "Version" 1 none)
        [.thread, .transport (.response ⟨⟨0, "Version", 1⟩, true, none⟩), .thread, .thread,
          .thread, .thread] = some final ∧
      final.point = .left outcome ∧
      ((∃ request text, CallActor.transport (.error request text) ∈
        [.thread, .transport (.response ⟨⟨0, "Version", 1⟩, true, none⟩), .thread, .thread,
          .thread, .thread]) → outcome ≠ .error .timeout) := by
  let answer : Response Bool := ⟨⟨0, "Version", 1⟩, true, none⟩
  have execution :
      machine.run (start (Line.new : Line Bool) 1 "Version" 1 none)
        [.thread, .transport (.response answer), .thread, .thread, .thread, .thread] =
          some ⟨.left (.ok answer), ⟨⟨some answer, true, "", false⟩, 1, [], some 0⟩⟩ := rfl
  refine ⟨_, _, execution, rfl, ?_⟩
  exact (outcome_reported_iff [] [] rfl 1 "Version" 1 none execution rfl).2.mpr (by simp)

end BlockingCall

namespace CallHistory

/-- An error of the transport is answered with a timeout. -/
theorem not_reports_of_error :
    ¬∀ events : List (CallEvent Bool), machine.Always Reports new events := by
  intro always
  have reached := always [.callAsync "Version" 1 none,
    .callback (.error ⟨0, "Version", 1⟩ "Connection reset by peer")]
  have reports := (reached.2 _ rfl).2 _ rfl
  cases reports

end CallHistory

end CncRemote
