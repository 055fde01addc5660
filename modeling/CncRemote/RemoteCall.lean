import CncRemote.Machine

/-!
# Remote calls

`RemoteCall` keeps one request and its response.  A `Line` is such an object together with the
requests that the transport still holds for it: the transport runs at most one callback for every
request it has sent and none for a request it refused to send.  A `Slot` says what the object is
for, and `step_shows` proves that the three flags of the object implement it.
-/

namespace CncRemote

/-- A request, with the connection it was sent on. -/
structure Request where
  /-- Number of the `CallAsync` call that made the request. -/
  msgid : Nat
  /-- Name of the remote function. -/
  method : String
  /-- Number of the connection whose socket was passed to `Send`. -/
  connection : Nat
  deriving DecidableEq, Repr

/-- A response, which carries the request it answers. -/
structure Response (ρ : Type*) where
  /-- The origin request. -/
  request : Request
  /-- Value returned by the remote function. -/
  result : ρ
  /-- `none` when the error is nil, else its text. -/
  error : Option String
  deriving DecidableEq

/-- A callback that the transport runs for a request it has sent. -/
inductive Callback (ρ : Type*) where
  | response (response : Response ρ)
  | error (request : Request) (text : String)
  deriving DecidableEq

/-- The request a callback is run for. -/
def Callback.request {ρ : Type*} : Callback ρ → Request
  | .response answer => answer.request
  | .error failed _ => failed

/-- The exceptions of the client library. -/
inductive CallError where
  | timeout
  | remote (text : String)
  | transfer (text : String)
  | send (text : String)
  | busy
  deriving DecidableEq, Repr

/-- The data members of `RemoteCall`. -/
structure RemoteCall (ρ : Type*) where
  /-- `m_response`, a pointer that is never reset. -/
  response : Option (Response ρ)
  /-- `m_hasResponse` -/
  hasResponse : Bool
  /-- `m_error` -/
  error : String
  /-- `m_busy` -/
  busy : Bool
  deriving DecidableEq

namespace RemoteCall

variable {ρ : Type*}

/-- `RemoteCall::RemoteCall` -/
def new : RemoteCall ρ := ⟨none, false, "", false⟩

/-- `RemoteCall::CallAsync`, where `err` is the message of the error that `Send` returns, or `none`
for `LNR_OK`. -/
def callAsync (call : RemoteCall ρ) (err : Option String) :
    RemoteCall ρ × Except CallError Unit :=
  if call.busy then
    (call, .error .busy)
  else
    let called := { call with busy := true, hasResponse := false, error := "" }
    match err with
    | some text => (called, .error (.transfer text))
    | none => (called, .ok ())

/-- `RemoteCall::GetResponse` -/
def getResponse (call : RemoteCall ρ) : Except CallError (Response ρ) :=
  match call.hasResponse, call.response with
  | true, some response =>
      match response.error with
      | some text => .error (.remote text)
      | none => if call.error = "" then .ok response else .error (.send call.error)
  | _, _ => .error .timeout

/-- `RemoteCall::OnResponse` -/
def onResponse (call : RemoteCall ρ) (response : Response ρ) : RemoteCall ρ :=
  { call with response := some response, hasResponse := true, busy := false }

/-- `RemoteCall::OnError` -/
def onError (call : RemoteCall ρ) (text : String) : RemoteCall ρ :=
  { call with error := text, busy := false }

/-- The two member functions that are bound as callbacks. -/
def callback (call : RemoteCall ρ) : Callback ρ → RemoteCall ρ
  | .response response => call.onResponse response
  | .error _ text => call.onError text

/-- `RemoteCall::ClearResponse` -/
def clearResponse (call : RemoteCall ρ) : RemoteCall ρ := { call with hasResponse := false }

theorem callAsync_of_busy {call : RemoteCall ρ} (busy : call.busy = true) (err : Option String) :
    call.callAsync err = (call, .error .busy) := by
  simp [callAsync, busy]

theorem callAsync_of_idle {call : RemoteCall ρ} (idle : call.busy = false) (err : Option String) :
    call.callAsync err =
      ({ call with busy := true, hasResponse := false, error := "" },
        match err with
        | some text => .error (.transfer text)
        | none => .ok ()) := by
  cases err <;> simp [callAsync, idle]

end RemoteCall

/-- A `RemoteCall` and the requests whose callbacks the transport has not run yet. -/
structure Line (ρ : Type*) where
  /-- The object the callbacks are bound to. -/
  call : RemoteCall ρ
  /-- How often `CallAsync` has been called. -/
  attempts : Nat
  /-- Requests that were sent and still wait for a callback. -/
  awaited : List Request
  /-- Number of the last `CallAsync` that was not refused with `BusyError`. -/
  latest : Option Nat
  deriving DecidableEq

/-- What can happen to a `RemoteCall` object.  `Call` is `callAsync`, `wait` and `getResponse`. -/
inductive CallEvent (ρ : Type*) where
  | callAsync (method : String) (connection : Nat) (err : Option String)
  | callback (callback : Callback ρ)
  | wait (ms : Nat)
  | getResponse
  | clearResponse

namespace Line

variable {ρ : Type*}

/-- A freshly constructed object, for which nothing has been sent. -/
def new : Line ρ := ⟨.new, 0, [], none⟩

/-- `CallAsync` on a socket, as seen by the object and by the transport. -/
def callAsync (line : Line ρ) (method : String) (connection : Nat) (err : Option String) :
    Line ρ :=
  match line.call.callAsync err with
  | (call, .ok _) =>
      { call
        attempts := line.attempts + 1
        awaited := ⟨line.attempts, method, connection⟩ :: line.awaited
        latest := some line.attempts }
  | (call, .error .busy) => { line with call, attempts := line.attempts + 1 }
  | (call, .error _) =>
      { line with call, attempts := line.attempts + 1, latest := some line.attempts }

/-- The transport runs a callback, which it does once, and only for a request it holds. -/
def callback (line : Line ρ) (callback : Callback ρ) : Option (Line ρ) :=
  if callback.request ∈ line.awaited then
    some
      { line with
        call := line.call.callback callback
        awaited := line.awaited.erase callback.request }
  else
    none

/-- The object forgets that it has a response. -/
def clearResponse (line : Line ρ) : Line ρ := { line with call := line.call.clearResponse }

/-- One event on the object; `Wait` and `GetResponse` only read it. -/
def step (line : Line ρ) : CallEvent ρ → Option (Line ρ)
  | .callAsync method connection err => some (line.callAsync method connection err)
  | .callback callback => line.callback callback
  | .wait _ | .getResponse => some line
  | .clearResponse => some line.clearResponse

/-- The machine of one `RemoteCall` object and its transport. -/
def machine : Machine (Line ρ) (CallEvent ρ) := ⟨step⟩

end Line

/-- What a `RemoteCall` is for: room for one request and its response. -/
inductive Slot (ρ : Type*) where
  /-- No request is awaited and no response is held. -/
  | free
  /-- The request has been sent and is not answered yet. -/
  | awaiting (request : Request)
  /-- The response is held until the next call. -/
  | holding (response : Response ρ)
  /-- The last request could not be sent. -/
  | jammed

namespace Slot

variable {ρ : Type*}

/-- A call takes a slot that awaits nothing; `sent` says whether the request could be sent. -/
def callAsync (request : Request) (sent : Bool) : Slot ρ → Slot ρ
  | .free | .holding _ => if sent then .awaiting request else .jammed
  | .awaiting earlier => .awaiting earlier
  | .jammed => .jammed

/-- A held response is dropped. -/
def clearResponse : Slot ρ → Slot ρ
  | .holding _ => .free
  | slot => slot

/-- A response fills the slot that awaits it, an error frees it. -/
def callback (callback : Callback ρ) : Slot ρ → Option (Slot ρ)
  | .awaiting request =>
      if callback.request = request then
        match callback with
        | .response response => some (.holding response)
        | .error _ _ => some .free
      else
        none
  | .free | .holding _ | .jammed => none

/-- One event on a slot and the number of the next call. -/
def step : Nat × Slot ρ → CallEvent ρ → Option (Nat × Slot ρ)
  | (attempts, slot), .callAsync method connection err =>
      some (attempts + 1, slot.callAsync ⟨attempts, method, connection⟩ err.isNone)
  | (attempts, slot), .callback callback => (slot.callback callback).map (attempts, ·)
  | state, .wait _ | state, .getResponse => some state
  | (attempts, slot), .clearResponse => some (attempts, slot.clearResponse)

/-- The machine of one slot. -/
def machine : Machine (Nat × Slot ρ) (CallEvent ρ) := ⟨step⟩

/-- A slot that awaits nothing takes the next call, or is jammed. -/
theorem callAsync_of_idle {slot : Slot ρ} (idle : ∀ earlier, slot ≠ .awaiting earlier)
    (request : Request) (sent : Bool) :
    slot.callAsync request sent = .awaiting request ∨ slot.callAsync request sent = .jammed := by
  cases slot with
  | awaiting earlier => exact (idle earlier rfl).elim
  | free | holding => cases sent <;> simp [callAsync]
  | jammed => exact .inr rfl

end Slot

namespace Line

variable {ρ : Type*}

/-- The flags of the object and the requests of the transport show a slot. -/
def Shows (line : Line ρ) : Slot ρ → Prop
  | .free => line.call.busy = false ∧ line.call.hasResponse = false ∧ line.awaited = []
  | .awaiting request =>
      line.call.busy = true ∧ line.call.hasResponse = false ∧ line.call.error = "" ∧
        line.awaited = [request] ∧ line.latest = some request.msgid ∧
        request.msgid < line.attempts
  | .holding response =>
      line.call.busy = false ∧ line.call.hasResponse = true ∧ line.call.error = "" ∧
        line.call.response = some response ∧ line.awaited = [] ∧
        line.latest = some response.request.msgid ∧ response.request.msgid < line.attempts
  | .jammed => line.call.busy = true ∧ line.call.hasResponse = false ∧ line.awaited = []

theorem new_shows : (new : Line ρ).Shows .free := ⟨rfl, rfl, rfl⟩

theorem Shows.unique {line : Line ρ} {left right : Slot ρ} (leftShows : line.Shows left)
    (rightShows : line.Shows right) : left = right := by
  cases left <;> cases right <;> simp_all [Shows]

theorem Shows.idle {line : Line ρ} {slot : Slot ρ} (shows : line.Shows slot)
    (idle : line.call.busy = false) (earlier : Request) : slot ≠ .awaiting earlier := by
  rintro rfl
  rw [shows.1] at idle
  cases idle

/-- A response on offer is the one that is held. -/
theorem Shows.holding_of_hasResponse {line : Line ρ} {slot : Slot ρ} {response : Response ρ}
    (shows : line.Shows slot) (hasResponse : line.call.hasResponse = true)
    (stored : line.call.response = some response) : slot = .holding response := by
  cases slot <;> simp_all [Shows]

theorem callAsync_of_busy {line : Line ρ} (busy : line.call.busy = true) (method : String)
    (connection : Nat) (err : Option String) :
    line.callAsync method connection err = { line with attempts := line.attempts + 1 } := by
  simp [callAsync, RemoteCall.callAsync_of_busy busy]

theorem callAsync_of_idle {line : Line ρ} (idle : line.call.busy = false) (method : String)
    (connection : Nat) (err : Option String) :
    line.callAsync method connection err =
      { call := { line.call with busy := true, hasResponse := false, error := "" }
        attempts := line.attempts + 1
        awaited := if err.isNone then ⟨line.attempts, method, connection⟩ :: line.awaited
          else line.awaited
        latest := some line.attempts } := by
  cases err <;> simp [callAsync, RemoteCall.callAsync_of_idle idle]

/-- `CallAsync` implements taking the slot. -/
theorem callAsync_shows {line : Line ρ} {slot : Slot ρ} (shows : line.Shows slot)
    (method : String) (connection : Nat) (err : Option String) :
    (line.callAsync method connection err).Shows
      (slot.callAsync ⟨line.attempts, method, connection⟩ err.isNone) := by
  cases slot with
  | free =>
      obtain ⟨idle, -, quiet⟩ := shows
      rw [callAsync_of_idle idle]
      cases err <;> simp [Slot.callAsync, Shows, quiet]
  | awaiting request =>
      obtain ⟨busy, rest⟩ := shows
      rw [callAsync_of_busy busy]
      obtain ⟨unset, clean, quiet, latest, old⟩ := rest
      exact ⟨busy, unset, clean, quiet, latest, by dsimp only; omega⟩
  | holding response =>
      obtain ⟨idle, -, -, -, quiet, -⟩ := shows
      rw [callAsync_of_idle idle]
      cases err <;> simp [Slot.callAsync, Shows, quiet]
  | jammed =>
      obtain ⟨busy, rest⟩ := shows
      rw [callAsync_of_busy busy]
      exact ⟨busy, rest⟩

/-- The request of a callback is the one that the slot awaits. -/
theorem awaiting_of_mem {line : Line ρ} {slot : Slot ρ} {request : Request}
    (shows : line.Shows slot) (awaited : request ∈ line.awaited) : slot = .awaiting request := by
  cases slot with
  | awaiting earlier =>
      obtain ⟨-, -, -, quiet, -⟩ := shows
      rw [quiet, List.mem_singleton] at awaited
      rw [awaited]
  | free | holding | jammed =>
      simp only [Shows] at shows
      simp [shows] at awaited

theorem callback_eq_some {line next : Line ρ} {callback : Callback ρ}
    (called : line.callback callback = some next) :
    callback.request ∈ line.awaited ∧
      next = { line with
        call := line.call.callback callback
        awaited := line.awaited.erase callback.request } := by
  obtain ⟨awaited, eq⟩ := Option.ite_none_right_eq_some.mp called
  exact ⟨awaited, (Option.some.inj eq).symm⟩

/-- A callback implements filling or freeing the slot. -/
theorem callback_shows {line next : Line ρ} {slot : Slot ρ} {callback : Callback ρ}
    (shows : line.Shows slot) (called : line.callback callback = some next) :
    ∃ nextSlot, slot.callback callback = some nextSlot ∧ next.Shows nextSlot := by
  obtain ⟨awaited, rfl⟩ := callback_eq_some called
  obtain rfl := awaiting_of_mem shows awaited
  obtain ⟨-, unset, clean, quiet, latest, old⟩ := shows
  cases callback with
  | response response =>
      refine ⟨.holding response, by simp [Slot.callback, Callback.request], ?_⟩
      simp_all [RemoteCall.callback, RemoteCall.onResponse, Callback.request, Shows]
  | error request text =>
      refine ⟨.free, by simp [Slot.callback, Callback.request], ?_⟩
      simp [RemoteCall.callback, RemoteCall.onError, Callback.request, Shows, unset, quiet]

theorem clearResponse_shows {line : Line ρ} {slot : Slot ρ} (shows : line.Shows slot) :
    line.clearResponse.Shows slot.clearResponse := by
  cases slot <;>
    simp_all [clearResponse, RemoteCall.clearResponse, Slot.clearResponse, Shows]

/-- `GetResponse` succeeds exactly on a held response without an error. -/
theorem getResponse_eq_ok_iff {line : Line ρ} {slot : Slot ρ} {response : Response ρ}
    (shows : line.Shows slot) :
    line.call.getResponse = .ok response ↔ slot = .holding response ∧ response.error = none := by
  cases slot with
  | holding held =>
      obtain ⟨-, hasResponse, clean, stored, -⟩ := shows
      cases error : held.error <;> simp [RemoteCall.getResponse, hasResponse, stored, clean, error]
      · rintro rfl
        exact error
      · rintro rfl
        simp [error]
  | free | awaiting | jammed =>
      simp only [Shows] at shows
      simp [RemoteCall.getResponse, shows]

/-- One step of a line simulates one step of the slot it shows. -/
theorem step_shows {line next : Line ρ} {image : Nat × Slot ρ} {event : CallEvent ρ}
    (shows : line.attempts = image.1 ∧ line.Shows image.2)
    (step : machine.step line event = some next) :
    ∃ nextImage, Slot.machine.step image event = some nextImage ∧
      next.attempts = nextImage.1 ∧ next.Shows nextImage.2 := by
  obtain ⟨attempts, slot⟩ := image
  obtain ⟨rfl, shows⟩ := shows
  cases event with
  | callAsync method connection err =>
      obtain rfl : line.callAsync method connection err = next := Option.some.inj step
      refine ⟨_, rfl, ?_, callAsync_shows shows method connection err⟩
      cases busy : line.call.busy
      · rw [callAsync_of_idle busy]
      · rw [callAsync_of_busy busy]
  | callback callback =>
      obtain ⟨nextSlot, moved, nextShows⟩ := callback_shows shows step
      obtain ⟨-, rfl⟩ := callback_eq_some step
      exact ⟨(line.attempts, nextSlot), by simp [Slot.machine, Slot.step, moved], rfl, nextShows⟩
  | wait | getResponse =>
      obtain rfl : line = next := Option.some.inj step
      cases slot <;> exact ⟨_, rfl, rfl, shows⟩
  | clearResponse =>
      obtain rfl : line.clearResponse = next := Option.some.inj step
      cases slot <;> exact ⟨_, rfl, rfl, clearResponse_shows shows⟩

/-- Whatever happens to a `RemoteCall`, it shows the slot that the same events lead to. -/
theorem run_shows {events : List (CallEvent ρ)} {final : Line ρ}
    (execution : machine.run new events = some final) :
    ∃ slot, Slot.machine.run (0, .free) events = some (final.attempts, slot) ∧
      final.Shows slot := by
  have start : (new : Line ρ).attempts = ((0, .free) : Nat × Slot ρ).1 ∧
      (new : Line ρ).Shows ((0, .free) : Nat × Slot ρ).2 := ⟨rfl, new_shows⟩
  obtain ⟨⟨attempts, slot⟩, slotRun, rfl, shows⟩ := Machine.simulate step_shows start execution
  exact ⟨slot, slotRun, shows⟩

/-- Some slot is shown throughout every run of a `RemoteCall`. -/
theorem always_shows (events : List (CallEvent ρ)) :
    machine.Always (fun line => ∃ slot, line.Shows slot) new events := by
  refine Machine.always_iff.mpr fun front final _ execution => ?_
  obtain ⟨slot, -, shows⟩ := run_shows execution
  exact ⟨slot, shows⟩

/-- Nothing but the response to the `CallAsync` call with the given number can be obtained. -/
def InspectsOnly (line : Line ρ) (number : Option Nat) : Prop :=
  line.call.hasResponse = true →
    ∃ response, line.call.response = some response ∧ some response.request.msgid = number

/-- At most one request is outstanding, and the response on offer answers the last call that was
not refused with `BusyError`. -/
theorem response_is_of_latest (events : List (CallEvent ρ)) :
    machine.Always
      (fun line => line.awaited.length ≤ 1 ∧ line.InspectsOnly line.latest) new events := by
  refine (always_shows events).mono fun line ⟨slot, shows⟩ => ?_
  cases slot with
  | holding response =>
      obtain ⟨-, -, -, stored, quiet, latest, -⟩ := shows
      exact ⟨by simp [quiet], fun _ => ⟨response, stored, latest.symm⟩⟩
  | free | awaiting | jammed =>
      simp only [Shows] at shows
      exact ⟨by simp [shows], fun hasResponse => by simp [shows] at hasResponse⟩

/-- A call refused with `BusyError` is followed by the response to the call before it. -/
theorem response_not_of_last_call :
    ¬∀ events : List (CallEvent Bool), machine.Always
      (fun line => line.awaited.length ≤ 1 ∧ line.InspectsOnly (some (line.attempts - 1)))
      new events := by
  intro always
  have reached := always
    [.callAsync "GetGCodes" 1 none, .callAsync "GetMCodes" 1 none,
      .callback (.response ⟨⟨0, "GetGCodes", 1⟩, true, none⟩)]
  obtain ⟨-, inspects⟩ := (reached.2 _ rfl).2 _ rfl |>.2 _ rfl
  obtain ⟨response, stored, number⟩ := inspects rfl
  obtain rfl : _ = response := Option.some.inj stored
  exact absurd number (by decide)

end Line

end CncRemote
