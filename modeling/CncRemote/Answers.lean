import CncRemote.Dispatch

/-!
# Answers of the server

Whatever is bound, a request is answered by one response and a notification by none: it is only
reported when it fails.  `RequestCase` and `NotifyCase` say what a handler can do, each of the six
templates is one of their instances, and `OnMessage` adds the case that no handler is found.
-/

namespace CncRemote

open Msgpack (Value Codec)

variable {σ : Type*} {κ : Type}

/-- What can come of a request: `call` is the bound function with the decoded arguments, if there
is a function and the parameters can be decoded. -/
inductive RequestCase (backend : Backend σ κ) (running : Running σ κ) (msgid : UInt32) :
    Option κ → Running σ κ × Message → Prop
  | refused {result error : Value} (failed : error ≠ .nil) :
      RequestCase backend running msgid none (running, .response msgid result error)
  | returned {call : κ} {value : Value}
      (returns : (backend.perform running.state call).2 = .ok value) :
      RequestCase backend running msgid (some call)
        ((running.invoke backend call).1, .response msgid value .nil)
  | threw {call : κ} {thrown : Thrown} {result error : Value} (failed : error ≠ .nil)
      (throws : (backend.perform running.state call).2 = .error thrown) :
      RequestCase backend running msgid (some call)
        ((running.invoke backend call).1, .response msgid result error)

/-- What can come of a notification. -/
inductive NotifyCase (backend : Backend σ κ) (running : Running σ κ) :
    Option κ → Running σ κ × List Message → Prop
  | refused {message method : Bytes} :
      NotifyCase backend running none (running, [exceptionNotify message method])
  | returned {call : κ} {value : Value}
      (returns : (backend.perform running.state call).2 = .ok value) :
      NotifyCase backend running (some call) ((running.invoke backend call).1, [])
  | threw {call : κ} {thrown : Thrown} {message method : Bytes}
      (throws : (backend.perform running.state call).2 = .error thrown) :
      NotifyCase backend running (some call)
        ((running.invoke backend call).1, [exceptionNotify message method])

/-- A request calls the function with the decoded arguments, if there is one. -/
theorem RequestCase.next_running {backend : Backend σ κ} {running : Running σ κ}
    {msgid : UInt32} {called : Option κ} {next : Running σ κ × Message}
    (answered : RequestCase backend running msgid called next) :
    next.1 = called.elim running fun call => (running.invoke backend call).1 := by
  cases answered with
  | refused | returned | threw => rfl

/-- A notification calls the function with the decoded arguments, if there is one. -/
theorem NotifyCase.next_running {backend : Backend σ κ} {running : Running σ κ}
    {called : Option κ} {next : Running σ κ × List Message}
    (notified : NotifyCase backend running called next) :
    next.1 = called.elim running fun call => (running.invoke backend call).1 := by
  cases notified with
  | refused | returned | threw => rfl

/-- The handler calls the function that `called` makes of the parameters. -/
def RequestHandler.Calls (handler : RequestHandler σ κ) (called : Value → Option κ) : Prop :=
  ∀ backend running msgid method params,
    RequestCase backend running msgid (called params)
      (handler.execute backend running msgid method params)

/-- The handler calls the function that `called` makes of the parameters. -/
def NotifyHandler.Calls (handler : NotifyHandler σ κ) (called : Value → Option κ) : Prop :=
  ∀ backend running method params,
    NotifyCase backend running (called params) (handler.execute backend running method params)

theorem exceptionData_ne_nil (message function : Bytes) : exceptionData message function ≠ .nil :=
  nofun

theorem requestHandler0_calls (name : Bytes) (func : κ) :
    (requestHandler0 name func : RequestHandler σ κ).Calls fun _ => some func := by
  intro backend running msgid method params
  simp only [requestHandler0, Running.invoke]
  cases result : (backend.perform running.state func).2 with
  | ok value => exact .returned result
  | error thrown =>
      refine .threw ?_ result
      rintro ⟨⟩

theorem requestHandler1_calls {α : Type} [Inhabited α] (codec : Codec α) (name : Bytes)
    (func : α → κ) :
    (requestHandler1 codec name func : RequestHandler σ κ).Calls fun params =>
      (codec.as params).map func := by
  intro backend running msgid method params
  simp only [requestHandler1, Running.invoke]
  cases codec.as params with
  | none => exact .refused (exceptionData_ne_nil _ _)
  | some argument =>
      cases result : (backend.perform running.state (func argument)).2 with
      | ok value =>
          simp only [result]
          exact .returned result
      | error thrown =>
          simp only [result]
          split
          · exact .threw (exceptionData_ne_nil _ _) result
          · exact .threw (exceptionData_ne_nil _ _) result

theorem notifyHandler0_calls (name : Bytes) (func : κ) :
    (notifyHandler0 name func : NotifyHandler σ κ).Calls fun _ => some func := by
  intro backend running method params
  simp only [notifyHandler0, Running.invoke]
  cases result : (backend.perform running.state func).2 with
  | ok value => exact .returned result
  | error thrown => exact .threw result

theorem notifyHandler1_calls {α : Type} [Inhabited α] (codec : Codec α) (name : Bytes)
    (func : α → κ) :
    (notifyHandler1 codec name func : NotifyHandler σ κ).Calls fun params =>
      (codec.as params).map func := by
  intro backend running method params
  simp only [notifyHandler1, Running.invoke]
  cases codec.as params with
  | none => exact .refused
  | some argument =>
      cases result : (backend.perform running.state (func argument)).2 with
      | ok value =>
          simp only [result]
          exact .returned result
      | error thrown =>
          simp only [result]
          split
          · exact .threw result
          · exact .threw result

/-- A use of `BIND_REQ0`, `BIND_REQ1` or `BIND_REQ2`. -/
inductive RequestBinding (κ : Type) : Type 1 where
  | req0 (name : Bytes) (func : κ)
  | req1 {α : Type} [Inhabited α] (codec : Codec α) (name : Bytes) (func : α → κ)
  | req2 {α β : Type} [Inhabited α] [Inhabited β] (arg1 : Codec α) (arg2 : Codec β) (name : Bytes)
      (func : α → β → κ)

/-- A use of `BIND_NOTIFY0`, `BIND_NOTIFY1` or `BIND_NOTIFY2`. -/
inductive NotifyBinding (κ : Type) : Type 1 where
  | notify0 (name : Bytes) (func : κ)
  | notify1 {α : Type} [Inhabited α] (codec : Codec α) (name : Bytes) (func : α → κ)
  | notify2 {α β : Type} [Inhabited α] [Inhabited β] (arg1 : Codec α) (arg2 : Codec β)
      (name : Bytes) (func : α → β → κ)

namespace RequestBinding

/-- The name of the handler. -/
def name : RequestBinding κ → Bytes
  | req0 name _ | req1 _ name _ | req2 _ _ name _ => setName name

/-- The handler that is bound. -/
def handler : RequestBinding κ → RequestHandler σ κ
  | req0 name func => requestHandler0 name func
  | req1 codec name func => requestHandler1 codec name func
  | req2 arg1 arg2 name func => requestHandler2 arg1 arg2 name func

/-- The function with the arguments that the parameters decode to. -/
def called : RequestBinding κ → Value → Option κ
  | req0 _ func, _ => some func
  | req1 codec _ func, params => (codec.as params).map func
  | req2 arg1 arg2 _ func, params =>
      ((requestDataCodec arg1 arg2).as params).map fun d => func d.1 d.2

theorem handler_calls (binding : RequestBinding κ) :
    (binding.handler : RequestHandler σ κ).Calls binding.called := by
  cases binding with
  | req0 name func => exact requestHandler0_calls name func
  | req1 codec name func => exact requestHandler1_calls codec name func
  | req2 arg1 arg2 name func => exact requestHandler1_calls (requestDataCodec arg1 arg2) name _

@[simp] theorem handler_name (binding : RequestBinding κ) :
    (binding.handler : RequestHandler σ κ).name = binding.name := by
  cases binding <;> rfl

end RequestBinding

namespace NotifyBinding

/-- The name of the handler. -/
def name : NotifyBinding κ → Bytes
  | notify0 name _ | notify1 _ name _ | notify2 _ _ name _ => setName name

/-- The handler that is bound. -/
def handler : NotifyBinding κ → NotifyHandler σ κ
  | notify0 name func => notifyHandler0 name func
  | notify1 codec name func => notifyHandler1 codec name func
  | notify2 arg1 arg2 name func => notifyHandler2 arg1 arg2 name func

/-- The function with the arguments that the parameters decode to. -/
def called : NotifyBinding κ → Value → Option κ
  | notify0 _ func, _ => some func
  | notify1 codec _ func, params => (codec.as params).map func
  | notify2 arg1 arg2 _ func, params =>
      ((notifyDataCodec arg1 arg2).as params).map fun d => func d.1 d.2

theorem handler_calls (binding : NotifyBinding κ) :
    (binding.handler : NotifyHandler σ κ).Calls binding.called := by
  cases binding with
  | notify0 name func => exact notifyHandler0_calls name func
  | notify1 codec name func => exact notifyHandler1_calls codec name func
  | notify2 arg1 arg2 name func => exact notifyHandler1_calls (notifyDataCodec arg1 arg2) name _

@[simp] theorem handler_name (binding : NotifyBinding κ) :
    (binding.handler : NotifyHandler σ κ).name = binding.name := by
  cases binding <;> rfl

end NotifyBinding

/-- The functions that are bound to names. -/
structure Bindings (κ : Type) where
  requests : List (RequestBinding κ)
  notifications : List (NotifyBinding κ)

namespace Bindings

/-- The handler after all uses of the macros. -/
def handler (bindings : Bindings κ) : Handler σ κ where
  requestHandlers := bindings.requests.map RequestBinding.handler
  notifyHandlers := bindings.notifications.map NotifyBinding.handler

/-- The function that a request calls: the first one of its name, with the arguments that the
parameters decode to. -/
def requestCall (bindings : Bindings κ) (method : Bytes) (params : Value) : Option κ :=
  (bindings.requests.find? fun binding => binding.name = method).bind fun binding =>
    binding.called params

/-- The function that a notification calls. -/
def notifyCall (bindings : Bindings κ) (method : Bytes) (params : Value) : Option κ :=
  (bindings.notifications.find? fun binding => binding.name = method).bind fun binding =>
    binding.called params

/-- A request is answered by one response. -/
theorem request_case (bindings : Bindings κ) (backend : Backend σ κ) (running : Running σ κ)
    (msgid : UInt32) (method : Bytes) (params : Value) :
    ∃ next response,
      bindings.handler.onMessage backend running (.request msgid method params) =
        (next, [response]) ∧
      RequestCase backend running msgid (bindings.requestCall method params)
        (next, response) := by
  simp only [Handler.onMessage, handler, requestCall, List.find?_map, Function.comp_def,
    RequestBinding.handler_name]
  cases bindings.requests.find? fun binding => binding.name = method with
  | none => exact ⟨_, _, rfl, .refused (exceptionData_ne_nil _ _)⟩
  | some binding =>
      exact ⟨_, _, rfl, binding.handler_calls backend running msgid method params⟩

/-- A notification is reported if it fails. -/
theorem notify_case (bindings : Bindings κ) (backend : Backend σ κ) (running : Running σ κ)
    (method : Bytes) (params : Value) :
    NotifyCase backend running (bindings.notifyCall method params)
      (bindings.handler.onMessage backend running (.notify method params)) := by
  simp only [Handler.onMessage, handler, notifyCall, List.find?_map, Function.comp_def,
    NotifyBinding.handler_name]
  cases bindings.notifications.find? fun binding => binding.name = method with
  | none => exact .refused
  | some binding => exact binding.handler_calls backend running method params

end Bindings

/-- The uses of the macros in `Server::Server`. -/
def serverBindings : Bindings ServerCall where
  requests :=
    [.req0 (ascii "GetState_") .getState_, .req1 .string (ascii "Mdi") .mdi,
      .req1 .string (ascii "LoadFile") .loadFile, .req0 (ascii "CloseFile") .closeFile,
      .req1 .uint (ascii "GetOffset") .getOffset, .req0 (ascii "GetGCodes") .getGCodes,
      .req0 (ascii "GetMCodes") .getMCodes, .req1 .string (ascii "SendInit") .sendInit,
      .req2 .string .int (ascii "SendData") .sendData,
      .req1 .uint (ascii "GetError") .getError, .req1 .uint (ascii "GetMessage") .getMessage,
      .req0 (ascii "Version") .version,
      .req1 .int (ascii "StartPreview") fun size => .startPreview size.toUInt32,
      .req0 (ascii "GetPreview") .getPreview]
  notifications :=
    [.notify1 .bool (ascii "DrivesOn") .drivesOn, .notify1 axesCodec (ascii "JogVel") .jogVel,
      .notify2 axesCodec .double (ascii "JogStep") .jogStep,
      .notify1 .double (ascii "FeedOverride") .feedOverride,
      .notify1 .double (ascii "SpindleOverride") .spindleOverride,
      .notify1 .double (ascii "RapidOverride") .rapidOverride,
      .notify0 (ascii "CycleStart") .cycleStart, .notify0 (ascii "CycleStop") .cycleStop,
      .notify1 .bool (ascii "FeedHold") .feedHold,
      .notify1 .bool (ascii "BlockDelete") .blockDelete,
      .notify1 .bool (ascii "SingleStep") .singleStep,
      .notify1 .bool (ascii "OptionalStop") .optionalStop,
      .notify1 boolAxesCodec (ascii "Home") .home, .notify0 (ascii "EndPreview") .endPreview]

/-- They bind the handlers that `OnMessage` searches. -/
theorem onMessage_eq_serverBindings (backend : Backend σ) (running : Running σ)
    (message : Message) :
    onMessage backend running message = serverBindings.handler.onMessage backend running message :=
  rfl

/-- There is a function to call, and it returns the value. -/
def Returns (backend : Backend σ κ) (state : σ) (called : Option κ) (value : Value) : Prop :=
  ∃ call, called = some call ∧ (backend.perform state call).2 = .ok value

/-- The server after the function was executed once, if there is one to call. -/
def Running.after (running : Running σ κ) (backend : Backend σ κ) : Option κ → Running σ κ
  | none => running
  | some call => ⟨(backend.perform running.state call).1, running.executed ++ [call]⟩

theorem not_returns_none (backend : Backend σ κ) (state : σ) (value : Value) :
    ¬Returns backend state none value := by
  rintro ⟨call, none, -⟩
  cases none

theorem not_returns_of_throws {backend : Backend σ κ} {state : σ} {call : κ} {thrown : Thrown}
    (throws : (backend.perform state call).2 = .error thrown) (value : Value) :
    ¬Returns backend state (some call) value := by
  rintro ⟨_, same, returns⟩
  obtain rfl := Option.some.inj same
  cases throws.symm.trans returns

/-- The error of a response is nil exactly if the function returned, and then the response carries
what it returned. -/
theorem RequestCase.answer {backend : Backend σ κ} {running next : Running σ κ} {msgid : UInt32}
    {called : Option κ} {response : Message}
    (answered : RequestCase backend running msgid called (next, response)) :
    ∃ result error, response = .response msgid result error ∧
      (error = .nil ↔ ∃ value, Returns backend running.state called value) ∧
      (∀ value, Returns backend running.state called value → result = value) ∧
      next = running.after backend called := by
  cases answered with
  | @refused result error failed =>
      have never := not_returns_none backend running.state
      exact ⟨result, error, rfl, iff_of_false failed (not_exists.mpr never),
        fun value returns => (never value returns).elim, rfl⟩
  | @returned call value returns =>
      refine ⟨value, .nil, rfl, iff_of_true rfl ⟨value, call, rfl, returns⟩, ?_, rfl⟩
      rintro other ⟨_, same, otherReturns⟩
      obtain rfl := Option.some.inj same
      exact Except.ok.inj (returns.symm.trans otherReturns)
  | @threw call thrown result error failed throws =>
      have never := not_returns_of_throws throws
      exact ⟨result, error, rfl, iff_of_false failed (not_exists.mpr never),
        fun value returns => (never value returns).elim, rfl⟩

theorem NotifyCase.report {backend : Backend σ κ} {running next : Running σ κ}
    {called : Option κ} {sent : List Message}
    (notified : NotifyCase backend running called (next, sent)) :
    (sent = [] ↔ ∃ value, Returns backend running.state called value) ∧
      (sent = [] ∨ ∃ message method, sent = [exceptionNotify message method]) ∧
      next = running.after backend called := by
  cases notified with
  | @refused message method =>
      have never := not_returns_none backend running.state
      exact ⟨iff_of_false nofun (not_exists.mpr never), .inr ⟨message, method, rfl⟩, rfl⟩
  | @returned call value returns =>
      exact ⟨iff_of_true rfl ⟨value, call, rfl, returns⟩, .inl rfl, rfl⟩
  | @threw call thrown message method throws =>
      have never := not_returns_of_throws throws
      exact ⟨iff_of_false nofun (not_exists.mpr never), .inr ⟨message, method, rfl⟩, rfl⟩

/-- Every request gets one response with its number, which is free of an error exactly if its
function was found, could be given its arguments and returned; the response then carries the
result.  A notification gets no response, and exactly one report unless its function returned.
Both execute the function once if it was found and could be given its arguments, and no other. -/
theorem onMessage_answers (bindings : Bindings κ) (backend : Backend σ κ)
    (running : Running σ κ) :
    (∀ msgid method params, ∃ next result error,
      bindings.handler.onMessage backend running (.request msgid method params) =
        (next, [.response msgid result error]) ∧
      (error = .nil ↔
        ∃ value, Returns backend running.state (bindings.requestCall method params) value) ∧
      (∀ value, Returns backend running.state (bindings.requestCall method params) value →
        result = value) ∧
      next = running.after backend (bindings.requestCall method params)) ∧
    ∀ method params, ∃ next sent,
      bindings.handler.onMessage backend running (.notify method params) = (next, sent) ∧
      (sent = [] ↔
        ∃ value, Returns backend running.state (bindings.notifyCall method params) value) ∧
      (sent = [] ∨ ∃ message function, sent = [exceptionNotify message function]) ∧
      next = running.after backend (bindings.notifyCall method params) := by
  constructor
  · intro msgid method params
    obtain ⟨next, response, sends, answered⟩ :=
      bindings.request_case backend running msgid method params
    obtain ⟨result, error, rfl, outcome⟩ := answered.answer
    exact ⟨next, result, error, sends, outcome⟩
  · intro method params
    exact ⟨_, _, rfl, (bindings.notify_case backend running method params).report⟩

end CncRemote
