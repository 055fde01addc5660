import CncRemote.Comms
import CncRemote.Msgpack

/-!
# Dispatching messages on the server

`Server::Handler::OnMessage` looks the method of a message up in one of two tables, and the handler
it finds decodes the parameters and calls a member function of `Server`.  What these functions do is
up to the driver.
-/

namespace CncRemote

open Msgpack (Value Codec)

/-- A call of one of the member functions of `Server` that are bound to a name. -/
inductive ServerCall where
  | getState_
  | drivesOn (state : Bool)
  | jogVel (velocities : Axes Double)
  | jogStep (distance : Axes Double) (speed : Double)
  | mdi (line : Bytes)
  | feedOverride (percent : Double)
  | spindleOverride (percent : Double)
  | rapidOverride (percent : Double)
  | loadFile (fileName : Bytes)
  | closeFile
  | cycleStart
  | cycleStop
  | feedHold (state : Bool)
  | blockDelete (state : Bool)
  | singleStep (state : Bool)
  | optionalStop (state : Bool)
  | home (axes : BoolAxes)
  | getOffset (index : UInt32)
  | getGCodes
  | getMCodes
  | sendInit (nameHint : Bytes)
  | sendData (data : Bytes) (block : Int32)
  | getError (index : UInt32)
  | getMessage (index : UInt32)
  | version
  | startPreview (recommendedSize : UInt32)
  | getPreview
  | endPreview

/-- An exception derived from `std::exception`. -/
structure Thrown where
  /-- The exception is a `std::bad_cast`. -/
  isBadCast : Bool
  /-- `what()` -/
  what : Bytes

/-- What the handlers need and do not know: the functions that are bound, which return a packed
result or throw, and the text that `stringify` makes of parameters. -/
structure Backend (σ : Type*) (κ : Type := ServerCall) where
  perform : σ → κ → σ × Except Thrown Value
  stringify : Value → Bytes

/-- The state of the server, and the calls of the bound functions, oldest first. -/
structure Running (σ : Type*) (κ : Type := ServerCall) where
  state : σ
  executed : List κ

/-- A message of the transport. -/
inductive Message where
  | request (msgid : UInt32) (method : Bytes) (params : Value)
  | response (msgid : UInt32) (result error : Value)
  | notify (method : Bytes) (params : Value)

/-- The codec of `Axes`. -/
def axesCodec : Codec (Axes Double) :=
  .wrapped Axes.mk Axes.array (fun _ => rfl) (.single (.cArray maxAxes .double))

/-- The codec of `BoolAxes`. -/
def boolAxesCodec : Codec BoolAxes :=
  .wrapped BoolAxes.mk BoolAxes.array (fun _ => rfl) (.single (.cArray maxAxes .bool))

/-- The codec of `CallData2`, in which the client packs two arguments. -/
def callData2Codec {α β : Type} (arg1 : Codec α) (arg2 : Codec β) : Codec (α × β) :=
  .map2 (ascii "arg1") (ascii "arg2") (by decide) arg1 arg2

/-- The codec of `RequestHandler2::Data`. -/
def requestDataCodec {α β : Type} (arg1 : Codec α) (arg2 : Codec β) : Codec (α × β) :=
  .map2 (ascii "arg1") (ascii "arg2") (by decide) arg1 arg2

/-- The codec of `NotifyHandler2::Data`. -/
def notifyDataCodec {α β : Type} (arg1 : Codec α) (arg2 : Codec β) : Codec (α × β) :=
  .map2 (ascii "arg1") (ascii "arg2") (by decide) arg1 arg2

section Data

variable {α β : Type} [Inhabited α] [Inhabited β] (arg1 : Codec α) (arg2 : Codec β) (args : α × β)

@[simp] theorem requestData_as_callData2 :
    (requestDataCodec arg1 arg2).as ((callData2Codec arg1 arg2).pack args) = some args :=
  (requestDataCodec arg1 arg2).as_pack args

@[simp] theorem notifyData_as_callData2 :
    (notifyDataCodec arg1 arg2).as ((callData2Codec arg1 arg2).pack args) = some args :=
  (notifyDataCodec arg1 arg2).as_pack args

end Data

/-- A packed `ExceptionData`. -/
def exceptionData (message function : Bytes) : Value :=
  (Codec.map2 (ascii "message") (ascii "function") (by decide) .string .string).pack
    (message, function)

instance : Inhabited (Axes Double) := ⟨⟨fun _ => 0⟩⟩

instance : Inhabited BoolAxes := ⟨.zero⟩

variable {σ : Type*} {κ : Type}

/-- `m_func(...)` -/
def Running.invoke (running : Running σ κ) (backend : Backend σ κ) (call : κ) :
    Running σ κ × Except Thrown Value :=
  let (state, result) := backend.perform running.state call
  (⟨state, running.executed ++ [call]⟩, result)

/-- `HandlerCallback::SetName`, which removes a trailing underscore. -/
def setName (name : Bytes) : Bytes :=
  if name.getLast? = some 95 then name.dropLast else name

/-- A handler of requests: `Execute` takes the number, the method and the parameters of a request
and sends one response. -/
structure RequestHandler (σ : Type*) (κ : Type := ServerCall) where
  name : Bytes
  execute : Backend σ κ → Running σ κ → UInt32 → Bytes → Value → Running σ κ × Message

/-- A handler of notifications, which replies with a notification when something was thrown. -/
structure NotifyHandler (σ : Type*) (κ : Type := ServerCall) where
  name : Bytes
  execute : Backend σ κ → Running σ κ → Bytes → Value → Running σ κ × List Message

/-- `RequestHandler0`, which ignores the parameters. -/
def requestHandler0 (name : Bytes) (func : κ) : RequestHandler σ κ where
  name := setName name
  execute backend running msgid method _ :=
    match running.invoke backend func with
    | (running, .ok result) => (running, .response msgid result .nil)
    | (running, .error thrown) => (running, .response msgid (.str method) (.str thrown.what))

/-- `RequestHandler1` -/
def requestHandler1 {α : Type} [Inhabited α] (codec : Codec α) (name : Bytes)
    (func : α → κ) : RequestHandler σ κ where
  name := setName name
  execute backend running msgid method params :=
    let invalid : Message := .response msgid (.str [])
      (exceptionData (ascii "Invalid arguments:" ++ backend.stringify params) method)
    match codec.as params with
    | none => (running, invalid)
    | some argument =>
        match running.invoke backend (func argument) with
        | (running, .ok result) => (running, .response msgid result .nil)
        | (running, .error thrown) =>
            if thrown.isBadCast then (running, invalid)
            else (running, .response msgid (.str []) (exceptionData thrown.what method))

/-- `RequestHandler2`, which unpacks its arguments from a `Data`. -/
def requestHandler2 {α β : Type} [Inhabited α] [Inhabited β] (arg1 : Codec α) (arg2 : Codec β)
    (name : Bytes) (func : α → β → κ) : RequestHandler σ κ :=
  requestHandler1 (requestDataCodec arg1 arg2) name fun d => func d.1 d.2

/-- The notification that reports an exception. -/
def exceptionNotify (message method : Bytes) : Message :=
  .notify (ascii "_Exception_") (exceptionData message method)

/-- `NotifyHandler0`, which ignores the parameters. -/
def notifyHandler0 (name : Bytes) (func : κ) : NotifyHandler σ κ where
  name := setName name
  execute backend running method _ :=
    match running.invoke backend func with
    | (running, .ok _) => (running, [])
    | (running, .error thrown) => (running, [exceptionNotify thrown.what method])

/-- `NotifyHandler1` -/
def notifyHandler1 {α : Type} [Inhabited α] (codec : Codec α) (name : Bytes)
    (func : α → κ) : NotifyHandler σ κ where
  name := setName name
  execute backend running method params :=
    let invalid : Message :=
      exceptionNotify (ascii "Invalid arguments: " ++ backend.stringify params) method
    match codec.as params with
    | none => (running, [invalid])
    | some argument =>
        match running.invoke backend (func argument) with
        | (running, .ok _) => (running, [])
        | (running, .error thrown) =>
            if thrown.isBadCast then (running, [invalid])
            else (running, [exceptionNotify thrown.what method])

/-- `NotifyHandler2`, which unpacks its arguments from a `Data`. -/
def notifyHandler2 {α β : Type} [Inhabited α] [Inhabited β] (arg1 : Codec α) (arg2 : Codec β)
    (name : Bytes) (func : α → β → κ) : NotifyHandler σ κ :=
  notifyHandler1 (notifyDataCodec arg1 arg2) name fun d => func d.1 d.2

/-- `m_requestHandlers`, as `Server::Server` binds it. -/
def requestHandlers : List (RequestHandler σ) :=
  [requestHandler0 (ascii "GetState_") .getState_,
    requestHandler1 .string (ascii "Mdi") .mdi,
    requestHandler1 .string (ascii "LoadFile") .loadFile,
    requestHandler0 (ascii "CloseFile") .closeFile,
    requestHandler1 .uint (ascii "GetOffset") .getOffset,
    requestHandler0 (ascii "GetGCodes") .getGCodes,
    requestHandler0 (ascii "GetMCodes") .getMCodes,
    requestHandler1 .string (ascii "SendInit") .sendInit,
    requestHandler2 .string .int (ascii "SendData") .sendData,
    requestHandler1 .uint (ascii "GetError") .getError,
    requestHandler1 .uint (ascii "GetMessage") .getMessage,
    requestHandler0 (ascii "Version") .version,
    -- the bound type is `int`, the parameter of the function is `unsigned`
    requestHandler1 .int (ascii "StartPreview") fun size => .startPreview size.toUInt32,
    requestHandler0 (ascii "GetPreview") .getPreview]

/-- `m_notifyHandlers`, as `Server::Server` binds it. -/
def notifyHandlers : List (NotifyHandler σ) :=
  [notifyHandler1 .bool (ascii "DrivesOn") .drivesOn,
    notifyHandler1 axesCodec (ascii "JogVel") .jogVel,
    notifyHandler2 axesCodec .double (ascii "JogStep") .jogStep,
    notifyHandler1 .double (ascii "FeedOverride") .feedOverride,
    notifyHandler1 .double (ascii "SpindleOverride") .spindleOverride,
    notifyHandler1 .double (ascii "RapidOverride") .rapidOverride,
    notifyHandler0 (ascii "CycleStart") .cycleStart,
    notifyHandler0 (ascii "CycleStop") .cycleStop,
    notifyHandler1 .bool (ascii "FeedHold") .feedHold,
    notifyHandler1 .bool (ascii "BlockDelete") .blockDelete,
    notifyHandler1 .bool (ascii "SingleStep") .singleStep,
    notifyHandler1 .bool (ascii "OptionalStop") .optionalStop,
    notifyHandler1 boolAxesCodec (ascii "Home") .home,
    notifyHandler0 (ascii "EndPreview") .endPreview]

/-- `Server::Handler`, with its two tables. -/
structure Handler (σ : Type*) (κ : Type := ServerCall) where
  /-- `m_requestHandlers` -/
  requestHandlers : List (RequestHandler σ κ)
  /-- `m_notifyHandlers` -/
  notifyHandlers : List (NotifyHandler σ κ)

/-- `Server::Handler::OnMessage`, with the messages it sends. -/
def Handler.onMessage (handler : Handler σ κ) (backend : Backend σ κ) (running : Running σ κ) :
    Message → Running σ κ × List Message
  | .request msgid method params =>
      match handler.requestHandlers.find? fun handler => handler.name = method with
      | some handler =>
          let (running, response) := handler.execute backend running msgid method params
          (running, [response])
      | none =>
          (running,
            [.response msgid (.str []) (exceptionData (ascii "Function not found") method)])
  | .response _ _ _ => (running, [])
  | .notify method params =>
      match handler.notifyHandlers.find? fun handler => handler.name = method with
      | some handler => handler.execute backend running method params
      | none => (running, [exceptionNotify (ascii "Method not found") method])

/-- `OnMessage` with the tables that `Server::Server` binds. -/
def onMessage (backend : Backend σ) (running : Running σ) (message : Message) :
    Running σ × List Message :=
  Handler.onMessage ⟨requestHandlers, notifyHandlers⟩ backend running message

/-- The messages of a connection are handled one after the other. -/
def onMessages (backend : Backend σ) (running : Running σ) (messages : List Message) :
    Running σ :=
  messages.foldl (fun running message => (onMessage backend running message).1) running

@[simp] theorem invoke_executed (running : Running σ κ) (backend : Backend σ κ) (call : κ) :
    (running.invoke backend call).1.executed = running.executed ++ [call] := rfl

/-- A request for a function without arguments calls it, whatever its parameters are. -/
theorem executed_of_request0 {name method : Bytes} {func : ServerCall}
    (found : (requestHandlers : List (RequestHandler σ)).find?
      (fun handler => handler.name = method) = some (requestHandler0 name func))
    (backend : Backend σ) (running : Running σ) (msgid : UInt32) (params : Value) :
    (onMessage backend running (.request msgid method params)).1.executed =
      running.executed ++ [func] := by
  rw [← invoke_executed running backend func]
  simp only [onMessage, Handler.onMessage, found, requestHandler0]
  split <;> simp_all

/-- A request for a function of one argument calls it with the argument that was packed. -/
theorem executed_of_request1 {α : Type} [Inhabited α] {codec : Codec α} {name method : Bytes}
    {func : α → ServerCall}
    (found : (requestHandlers : List (RequestHandler σ)).find?
      (fun handler => handler.name = method) = some (requestHandler1 codec name func))
    (backend : Backend σ) (running : Running σ) (msgid : UInt32) (argument : α) :
    (onMessage backend running (.request msgid method (codec.pack argument))).1.executed =
      running.executed ++ [func argument] := by
  rw [← invoke_executed running backend (func argument)]
  simp only [onMessage, Handler.onMessage, found, requestHandler1, Codec.as_pack]
  split
  · simp_all
  · split <;> simp_all

/-- A notification for a function without arguments calls it, whatever its parameters are. -/
theorem executed_of_notify0 {name method : Bytes} {func : ServerCall}
    (found : (notifyHandlers : List (NotifyHandler σ)).find?
      (fun handler => handler.name = method) = some (notifyHandler0 name func))
    (backend : Backend σ) (running : Running σ) (params : Value) :
    (onMessage backend running (.notify method params)).1.executed =
      running.executed ++ [func] := by
  rw [← invoke_executed running backend func]
  simp only [onMessage, Handler.onMessage, found, notifyHandler0]
  split <;> simp_all

/-- A notification for a function of one argument calls it with the argument that was packed. -/
theorem executed_of_notify1 {α : Type} [Inhabited α] {codec : Codec α} {name method : Bytes}
    {func : α → ServerCall}
    (found : (notifyHandlers : List (NotifyHandler σ)).find?
      (fun handler => handler.name = method) = some (notifyHandler1 codec name func))
    (backend : Backend σ) (running : Running σ) (argument : α) :
    (onMessage backend running (.notify method (codec.pack argument))).1.executed =
      running.executed ++ [func argument] := by
  rw [← invoke_executed running backend (func argument)]
  simp only [onMessage, Handler.onMessage, found, notifyHandler1, Codec.as_pack]
  split
  · simp_all
  · split <;> simp_all

end CncRemote
