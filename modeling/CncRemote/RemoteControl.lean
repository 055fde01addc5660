import CncRemote.Answers
import CncRemote.Commands
import CncRemote.Links
import CncRemote.Wire

/-!
# Control over the network

A driver is an object with functions that return values or throw.  A client calls the functions by
messages, and learns the results from messages.  `remote_of_run` compares the two: over any number
of connections and in any order of events, a driver that is controlled over the network does what it
would do if the functions were called directly, and every client learns how its own calls ended,
but for those that it has given up.
-/

namespace CncRemote

open Msgpack (Value Codec)

namespace ServerCall

/-- What a bound function returns. -/
abbrev Result : ServerCall → Type
  | .getState_ => State Double
  | .mdi _ | .loadFile _ | .closeFile | .sendData _ _ | .startPreview _ => Bool
  | .getOffset _ => Axes Double
  | .getGCodes | .getMCodes => List Int32
  | .sendInit _ | .getError _ | .getMessage _ => Bytes
  | .version => UInt32
  | .getPreview => List PreviewAxes
  | .drivesOn _ | .jogVel _ | .jogStep _ _ | .feedOverride _ | .spindleOverride _
  | .rapidOverride _ | .cycleStart | .cycleStop | .feedHold _ | .blockDelete _ | .singleStep _
  | .optionalStop _ | .home _ | .endPreview => Unit

/-- How the result of a function is packed; a function that notifications call has none. -/
def pack : (call : ServerCall) → call.Result → Value
  | .getState_, state => stateCodec.pack state
  | .mdi _, value => Codec.bool.pack value
  | .loadFile _, value => Codec.bool.pack value
  | .closeFile, value => Codec.bool.pack value
  | .sendData _ _, value => Codec.bool.pack value
  | .startPreview _, value => Codec.bool.pack value
  | .getOffset _, axes => axesCodec.pack axes
  | .getGCodes, codes => Codec.int.vector.pack codes
  | .getMCodes, codes => Codec.int.vector.pack codes
  | .sendInit _, text => Codec.string.pack text
  | .getError _, text => Codec.string.pack text
  | .getMessage _, text => Codec.string.pack text
  | .version, bits => Codec.float.pack bits
  | .getPreview, data => packPreview data
  | _, _ => .nil

end ServerCall

/-- A class that is derived from `Server`, with the functions that are bound. -/
structure DerivedServer (σ : Type*) where
  perform : σ → (call : ServerCall) → σ × Except Thrown call.Result

/-- The functions as the handlers call them. -/
def DerivedServer.backend {σ : Type*} (driver : DerivedServer σ) (stringify : Value → Bytes) :
    Backend σ where
  perform state call :=
    let (state, result) := driver.perform state call
    (state, result.map call.pack)
  stringify := stringify

/-- A call of a function of the server by a function of `Client`. -/
inductive ApiCall where
  | drivesOn (state : Bool)
  | jogVel (velocities : Axes Double)
  | mdi (line : Bytes)
  | feedOverride (percent : Double)
  | spindleOverride (percent : Double)
  | rapidOverride (percent : Double)
  | loadFile (file : Bytes)
  | closeFile
  | cycleStart
  | cycleStop
  | feedHold (state : Bool)
  | blockDelete (state : Bool)
  | singleStep (state : Bool)
  | optionalStop (state : Bool)
  /-- `Home` and `HomeAll` -/
  | home (axes : BoolAxes)
  | getGCodes
  | getMCodes
  /-- The first request of `LoadFile` over a connection that is not local. -/
  | sendInit (name : Bytes)
  | sendData (data : Bytes) (block : Int32)
  /-- `GetNextError` -/
  | getError (index : UInt32)
  /-- `GetNextMessage` -/
  | getMessage (index : UInt32)
  /-- `Ping`, and `Poll` during the handshake. -/
  | version
  /-- `Poll` after the handshake. -/
  | getState

namespace ApiCall

/-- The name under which the call is sent; `CycleStop` is sent under that of `CycleStart`. -/
def method : ApiCall → Bytes
  | .drivesOn _ => ascii "DrivesOn"
  | .jogVel _ => ascii "JogVel"
  | .mdi _ => ascii "Mdi"
  | .feedOverride _ => ascii "FeedOverride"
  | .spindleOverride _ => ascii "SpindleOverride"
  | .rapidOverride _ => ascii "RapidOverride"
  | .loadFile _ => ascii "LoadFile"
  | .closeFile => ascii "CloseFile"
  | .cycleStart | .cycleStop => ascii "CycleStart"
  | .feedHold _ => ascii "FeedHold"
  | .blockDelete _ => ascii "BlockDelete"
  | .singleStep _ => ascii "SingleStep"
  | .optionalStop _ => ascii "OptionalStop"
  | .home _ => ascii "Home"
  | .getGCodes => ascii "GetGCodes"
  | .getMCodes => ascii "GetMCodes"
  | .sendInit _ => ascii "SendInit"
  | .sendData _ _ => ascii "SendData"
  | .getError _ => ascii "GetError"
  | .getMessage _ => ascii "GetMessage"
  | .version => ascii "Version"
  | .getState => ascii "GetState"

/-- The parameter that is sent along. -/
def params : ApiCall → Value
  | .drivesOn state | .feedHold state | .blockDelete state | .singleStep state
  | .optionalStop state => Codec.bool.pack state
  | .jogVel velocities => axesCodec.pack velocities
  | .feedOverride percent | .spindleOverride percent | .rapidOverride percent =>
      Codec.double.pack percent
  | .cycleStart => Codec.bool.pack true
  | .cycleStop => Codec.bool.pack false
  | .home axes => boolAxesCodec.pack axes
  | .mdi text | .loadFile text | .sendInit text => Codec.string.pack text
  | .sendData data block => (callData2Codec .string .int).pack (data, block)
  | .getError index | .getMessage index => Codec.uint.pack index
  | .closeFile | .getGCodes | .getMCodes | .version | .getState => Codec.int.pack 0

/-- The call is a request, which is answered; the others are notifications. -/
def isRequest : ApiCall → Bool
  | .mdi _ | .loadFile _ | .closeFile | .getGCodes | .getMCodes | .sendInit _ | .sendData _ _
  | .getError _ | .getMessage _ | .version | .getState => true
  | _ => false

/-- The message by which the function is called. -/
def message (msgid : UInt32) (call : ApiCall) : Message :=
  if call.isRequest then .request msgid call.method call.params
  else .notify call.method call.params

/-- The function that is called. -/
def serverCall : ApiCall → ServerCall
  | .drivesOn state => .drivesOn state
  | .jogVel velocities => .jogVel velocities
  | .mdi line => .mdi line
  | .feedOverride percent => .feedOverride percent
  | .spindleOverride percent => .spindleOverride percent
  | .rapidOverride percent => .rapidOverride percent
  | .loadFile file => .loadFile file
  | .closeFile => .closeFile
  | .cycleStart | .cycleStop => .cycleStart
  | .feedHold state => .feedHold state
  | .blockDelete state => .blockDelete state
  | .singleStep state => .singleStep state
  | .optionalStop state => .optionalStop state
  | .home axes => .home axes
  | .getGCodes => .getGCodes
  | .getMCodes => .getMCodes
  | .sendInit name => .sendInit name
  | .sendData data block => .sendData data block
  | .getError index => .getError index
  | .getMessage index => .getMessage index
  | .version => .version
  | .getState => .getState_

/-- `result.as<...>()`, with the type that the function of `Client` gives. -/
def unpack : (call : ApiCall) → Value → Option call.serverCall.Result
  | .mdi _, value => Codec.bool.as value
  | .loadFile _, value => Codec.bool.as value
  | .closeFile, value => Codec.bool.as value
  | .sendData _ _, value => Codec.bool.as value
  | .getGCodes, value => Codec.int.vector.as value
  | .getMCodes, value => Codec.int.vector.as value
  | .sendInit _, value => Codec.string.as value
  | .getError _, value => Codec.string.as value
  | .getMessage _, value => Codec.string.as value
  | .version, value => Codec.float.as value
  | .getState, value => stateCodec.as value
  | .drivesOn _, _ => none
  | .jogVel _, _ => none
  | .feedOverride _, _ => none
  | .spindleOverride _, _ => none
  | .rapidOverride _, _ => none
  | .cycleStart, _ => none
  | .cycleStop, _ => none
  | .feedHold _, _ => none
  | .blockDelete _, _ => none
  | .singleStep _, _ => none
  | .optionalStop _, _ => none
  | .home _, _ => none

theorem unpack_pack (call : ApiCall) (request : call.isRequest = true)
    (result : call.serverCall.Result) :
    call.unpack (call.serverCall.pack result) = some result := by
  cases call with
  | mdi | loadFile | closeFile | sendData => exact Codec.bool.as_pack result
  | getGCodes | getMCodes => exact Codec.int.vector.as_pack result
  | sendInit | getError | getMessage => exact Codec.string.as_pack result
  | version => exact Codec.float.as_pack result
  | getState => exact stateCodec.as_pack result
  | _ => cases request

end ApiCall

namespace Command

/-- The calls that a command of the client makes. -/
def calls : Command → List ApiCall
  | .drivesOn state => [.drivesOn state]
  | .jogVel velocities => [.jogVel velocities]
  | .mdi line => [.mdi line]
  | .feedOverride percent => [.feedOverride percent]
  | .spindleOverride percent => [.spindleOverride percent]
  | .rapidOverride percent => [.rapidOverride percent]
  | .loadFile file => [.loadFile file]
  | .closeFile => [.closeFile]
  | .cycleStart => [.cycleStart]
  | .cycleStop => [.cycleStop]
  | .feedHold state => [.feedHold state]
  | .blockDelete state => [.blockDelete state]
  | .singleStep state => [.singleStep state]
  | .optionalStop state => [.optionalStop state]
  | .home axis =>
      if exists_ : axis.toNat < maxAxes then [.home (oneAxis ⟨axis.toNat, exists_⟩)] else []
  | .homeAll => [.home allAxes]
  | .getGCodes => [.getGCodes]
  | .getMCodes => [.getMCodes]
  | .getGCodesInto call | .getMCodesInto call => if call.busy then [] else [.getGCodes]

/-- A command sends the messages of its calls. -/
theorem messages_eq_calls (msgid : UInt32) (command : Command) :
    command.messages msgid = command.calls.map (ApiCall.message msgid) := by
  cases command with
  | home axis =>
      by_cases exists_ : axis.toNat < maxAxes
      · simp only [messages, calls, exists_, dif_pos]
        rfl
      · simp only [messages, calls, exists_, dif_neg, not_false_eq_true]
        rfl
  | getGCodesInto call | getMCodesInto call =>
      cases busy : call.busy with
      | true => simp [messages, calls, RemoteCall.callMessages_of_busy busy, busy]
      | false =>
          simp only [messages, calls, RemoteCall.callMessages_of_idle busy, busy,
            Bool.false_eq_true, if_false]
          rfl
  | _ => rfl

end Command

/-- What a client learns about its calls. -/
inductive Observation where
  /-- The function of `Client` returns what the function of the server returned. -/
  | returned (msgid : UInt32) (call : ApiCall) (result : call.serverCall.Result)
  /-- The function of `Client` throws `RemoteError`, with this error as a text. -/
  | remoteError (msgid : UInt32) (call : ApiCall) (error : Value)
  /-- The result cannot be converted. -/
  | badCast (msgid : UInt32) (call : ApiCall)
  /-- `OnRemoteException` is called. -/
  | onRemoteException (message function : Bytes)

/-- The request that an observation is about; the report of an exception names none. -/
def Observation.msgid : Observation → Option UInt32
  | .returned msgid _ _ | .remoteError msgid _ _ | .badCast msgid _ => some msgid
  | .onRemoteException _ _ => none

/-- The observation is not about a request that was given up. -/
def Observation.awaited (gaveUp : List UInt32) (observation : Observation) : Bool :=
  observation.msgid.all fun msgid => msgid ∉ gaveUp

theorem message_ne_function : ascii "message" ≠ ascii "function" := by decide

/-- The codec of `ExceptionData`. -/
def exceptionDataCodec : Codec (Bytes × Bytes) :=
  .map2 (ascii "message") (ascii "function") message_ne_function .string .string

/-- What a client makes of a response to a call: `RemoteCall::GetResponse` and the conversion. -/
def ApiCall.onResponse (msgid : UInt32) (call : ApiCall) (result : Value) : Value → Observation
  | .nil =>
      match call.unpack result with
      | some value => .returned msgid call value
      | none => .badCast msgid call
  | error => .remoteError msgid call error

/-- What a client learns from a message, when it has made some calls.  A response belongs to the
request of its number; any notification is taken for the report of an exception. -/
def observe (issued : List (UInt32 × ApiCall)) : Message → Option Observation
  | .request _ _ _ => none
  | .response msgid result error =>
      (issued.find? fun entry => entry.2.isRequest && entry.1 == msgid).map fun entry =>
        entry.2.onResponse msgid result error
  | .notify _ params =>
      (exceptionDataCodec.as params).map fun exc => .onRemoteException exc.1 exc.2

namespace ApiCall

/-- The text that is sent when a function throws; arguments that cannot be converted are reported
like a `std::bad_cast`. -/
def reason (stringify : Value → Bytes) (invalid : String) (call : ApiCall) (thrown : Thrown) :
    Bytes :=
  if thrown.isBadCast then ascii invalid ++ stringify call.params else thrown.what

/-- The error of the response to a request whose function throws. -/
def error (stringify : Value → Bytes) (call : ApiCall) (thrown : Thrown) : Value :=
  match call with
  | .closeFile | .getGCodes | .getMCodes | .version | .getState => .str thrown.what
  | call => exceptionData (call.reason stringify "Invalid arguments:" thrown) call.method

/-- The text of the report about a notification whose function throws. -/
def report (stringify : Value → Bytes) (call : ApiCall) (thrown : Thrown) : Bytes :=
  match call with
  | .cycleStart | .cycleStop => thrown.what
  | call => call.reason stringify "Invalid arguments: " thrown

/-- How a call ends for the client. -/
def outcome (stringify : Value → Bytes) (msgid : UInt32) (call : ApiCall) :
    Except Thrown call.serverCall.Result → List Observation
  | .ok result => if call.isRequest then [.returned msgid call result] else []
  | .error thrown =>
      if call.isRequest then [.remoteError msgid call (call.error stringify thrown)]
      else [.onRemoteException (call.report stringify thrown) call.method]

/-- What the server sends when the function of a call has ended. -/
def replies (stringify : Value → Bytes) (msgid : UInt32) (call : ApiCall) :
    Except Thrown call.serverCall.Result → List Message
  | .ok result =>
      if call.isRequest then [.response msgid (call.serverCall.pack result) .nil] else []
  | .error thrown =>
      if call.isRequest then
        [.response msgid
          (match call with
            | .closeFile | .getGCodes | .getMCodes | .version | .getState => .str call.method
            | _ => .str [])
          (call.error stringify thrown)]
      else [exceptionNotify (call.report stringify thrown) call.method]

end ApiCall

section Serve

variable {σ : Type*} (driver : DerivedServer σ) (stringify : Value → Bytes)

theorem DerivedServer.invoke (running : Running σ) (call : ServerCall) :
    running.invoke (driver.backend stringify) call =
      (⟨(driver.perform running.state call).1, running.executed ++ [call]⟩,
        (driver.perform running.state call).2.map call.pack) := rfl

variable {driver stringify}

theorem onMessage_request0 {name method : Bytes} {func : ServerCall}
    (found : (requestHandlers : List (RequestHandler σ)).find?
      (fun handler => handler.name = method) = some (requestHandler0 name func))
    (running : Running σ) (msgid : UInt32) (params : Value) :
    onMessage (driver.backend stringify) running (.request msgid method params) =
      (⟨(driver.perform running.state func).1, running.executed ++ [func]⟩,
        [match (driver.perform running.state func).2 with
          | .ok result => .response msgid (func.pack result) .nil
          | .error thrown => .response msgid (.str method) (.str thrown.what)]) := by
  simp only [onMessage, Handler.onMessage, found, requestHandler0, driver.invoke]
  cases (driver.perform running.state func).2 <;> rfl

theorem onMessage_request1 {α : Type} [Inhabited α] {codec : Codec α} {name method : Bytes}
    {func : α → ServerCall}
    (found : (requestHandlers : List (RequestHandler σ)).find?
      (fun handler => handler.name = method) = some (requestHandler1 codec name func))
    (running : Running σ) (msgid : UInt32) (argument : α) :
    onMessage (driver.backend stringify) running (.request msgid method (codec.pack argument)) =
      (⟨(driver.perform running.state (func argument)).1,
          running.executed ++ [func argument]⟩,
        [match (driver.perform running.state (func argument)).2 with
          | .ok result => .response msgid ((func argument).pack result) .nil
          | .error thrown => .response msgid (.str []) (exceptionData
              (if thrown.isBadCast then
                ascii "Invalid arguments:" ++ stringify (codec.pack argument)
              else thrown.what) method)]) := by
  simp only [onMessage, Handler.onMessage, found, requestHandler1, Codec.as_pack, driver.invoke]
  cases (driver.perform running.state (func argument)).2 with
  | ok result => rfl
  | error thrown =>
      simp only [Except.map]
      cases thrown.isBadCast <;> rfl

theorem onMessage_notify0 {name method : Bytes} {func : ServerCall}
    (found : (notifyHandlers : List (NotifyHandler σ)).find?
      (fun handler => handler.name = method) = some (notifyHandler0 name func))
    (running : Running σ) (params : Value) :
    onMessage (driver.backend stringify) running (.notify method params) =
      (⟨(driver.perform running.state func).1, running.executed ++ [func]⟩,
        match (driver.perform running.state func).2 with
          | .ok _ => []
          | .error thrown => [exceptionNotify thrown.what method]) := by
  simp only [onMessage, Handler.onMessage, found, notifyHandler0, driver.invoke]
  cases (driver.perform running.state func).2 <;> rfl

theorem onMessage_notify1 {α : Type} [Inhabited α] {codec : Codec α} {name method : Bytes}
    {func : α → ServerCall}
    (found : (notifyHandlers : List (NotifyHandler σ)).find?
      (fun handler => handler.name = method) = some (notifyHandler1 codec name func))
    (running : Running σ) (argument : α) :
    onMessage (driver.backend stringify) running (.notify method (codec.pack argument)) =
      (⟨(driver.perform running.state (func argument)).1,
          running.executed ++ [func argument]⟩,
        match (driver.perform running.state (func argument)).2 with
          | .ok _ => []
          | .error thrown => [exceptionNotify
              (if thrown.isBadCast then
                ascii "Invalid arguments: " ++ stringify (codec.pack argument)
              else thrown.what) method]) := by
  simp only [onMessage, Handler.onMessage, found, notifyHandler1, Codec.as_pack, driver.invoke]
  cases (driver.perform running.state (func argument)).2 with
  | ok result => rfl
  | error thrown =>
      simp only [Except.map]
      cases thrown.isBadCast <;> rfl

variable (driver stringify)

/-- The server at one end of the connections. -/
def remoteService (running : Running σ) (entry : UInt32 × ApiCall) : Running σ × List Message :=
  onMessage (driver.backend stringify) running (entry.2.message entry.1)

/-- The driver itself, whose functions are called without messages. -/
def directService (state : σ) (entry : UInt32 × ApiCall) : σ × List Observation :=
  let (state, result) := driver.perform state entry.2.serverCall
  (state, entry.2.outcome stringify entry.1 result)

theorem onMessage_message (running : Running σ) (msgid : UInt32) (call : ApiCall) :
    onMessage (driver.backend stringify) running (call.message msgid) =
      (⟨(driver.perform running.state call.serverCall).1,
          running.executed ++ [call.serverCall]⟩,
        call.replies stringify msgid (driver.perform running.state call.serverCall).2) := by
  cases call with
  | closeFile | getGCodes | getMCodes | version | getState =>
      refine (onMessage_request0 rfl running msgid _).trans ?_
      congr 1
      dsimp only [ApiCall.serverCall]
      cases (driver.perform running.state _).2 <;> rfl
  | mdi | loadFile | sendInit | sendData | getError | getMessage =>
      refine (onMessage_request1 rfl running msgid _).trans ?_
      congr 1
      dsimp only [ApiCall.serverCall]
      cases (driver.perform running.state _).2 <;> rfl
  | cycleStart | cycleStop =>
      refine (onMessage_notify0 rfl running _).trans ?_
      congr 1
      dsimp only [ApiCall.serverCall]
      cases (driver.perform running.state _).2 <;> rfl
  | _ =>
      refine (onMessage_notify1 rfl running _).trans ?_
      congr 1
      dsimp only [ApiCall.serverCall]
      cases (driver.perform running.state _).2 <;> rfl

theorem remoteService_state (running : Running σ) (entry : UInt32 × ApiCall) :
    (remoteService driver stringify running entry).1.state =
      (directService driver stringify running.state entry).1 := by
  rw [remoteService, onMessage_message]
  rfl

theorem replay_executed {ι : Type*} (running : Running σ)
    (handled : List (ι × UInt32 × ApiCall)) :
    (Links.replay (remoteService driver stringify) running handled).executed =
      running.executed ++ handled.map fun entry => entry.2.2.serverCall := by
  induction handled generalizing running with
  | nil => exact (List.append_nil _).symm
  | cons entry handled ih =>
      rw [Links.replay_cons, ih, remoteService, onMessage_message, List.map_cons,
        List.append_assoc, List.singleton_append]

end Serve

/-- The requests have different numbers. -/
def Numbered (issued : List (UInt32 × ApiCall)) : Prop :=
  ((issued.filter fun entry => entry.2.isRequest).map Prod.fst).Nodup

theorem Numbered.find? {issued : List (UInt32 × ApiCall)} (numbered : Numbered issued)
    {msgid : UInt32} {call : ApiCall} (sent : (msgid, call) ∈ issued)
    (request : call.isRequest = true) :
    issued.find? (fun entry => entry.2.isRequest && entry.1 == msgid) = some (msgid, call) := by
  induction issued with
  | nil => cases sent
  | cons first issued ih =>
      rw [Numbered, List.filter_cons] at numbered
      rcases List.mem_cons.mp sent with rfl | sent
      · simp [request]
      · have later : (msgid, call) ∈ issued.filter fun entry => entry.2.isRequest :=
          List.mem_filter.mpr ⟨sent, request⟩
        cases asks : first.2.isRequest with
        | false =>
            rw [asks, if_neg Bool.false_ne_true] at numbered
            rw [List.find?_cons_of_neg (by simp [asks])]
            exact ih numbered sent
        | true =>
            rw [asks, if_pos rfl, List.map_cons, List.nodup_cons] at numbered
            have apart : first.1 ≠ msgid := fun same =>
              numbered.1 (same ▸ List.mem_map_of_mem later)
            rw [List.find?_cons_of_neg (by simp [apart])]
            exact ih numbered.2 sent

theorem ApiCall.onResponse_error (msgid : UInt32) (call : ApiCall) (stringify : Value → Bytes)
    (thrown : Thrown) (result : Value) :
    call.onResponse msgid result (call.error stringify thrown) =
      .remoteError msgid call (call.error stringify thrown) := by
  cases call <;> rfl

theorem observe_exceptionNotify (issued : List (UInt32 × ApiCall)) (text method : Bytes) :
    observe issued (exceptionNotify text method) = some (.onRemoteException text method) := by
  have unpacked : exceptionDataCodec.as (exceptionData text method) = some (text, method) :=
    exceptionDataCodec.as_pack (text, method)
  rw [exceptionNotify, observe, unpacked, Option.map_some]

theorem observe_replies {issued : List (UInt32 × ApiCall)} (numbered : Numbered issued)
    {msgid : UInt32} {call : ApiCall} (sent : (msgid, call) ∈ issued)
    (stringify : Value → Bytes) (result : Except Thrown call.serverCall.Result) :
    (call.replies stringify msgid result).filterMap (observe issued) =
      call.outcome stringify msgid result := by
  cases request : call.isRequest with
  | false =>
      cases result with
      | ok value => simp [ApiCall.replies, ApiCall.outcome, request]
      | error thrown =>
          simp [ApiCall.replies, ApiCall.outcome, request, observe_exceptionNotify]
  | true =>
      have found := numbered.find? sent request
      cases result with
      | ok value =>
          simp [ApiCall.replies, ApiCall.outcome, request, observe, found, ApiCall.onResponse,
            call.unpack_pack request]
      | error thrown =>
          simp [ApiCall.replies, ApiCall.outcome, request, observe, found,
            call.onResponse_error]

section Remote

variable {ι : Type*} [DecidableEq ι] {σ : Type*} (driver : DerivedServer σ)
  (stringify : Value → Bytes)

/-- What the client at the end of a connection learns from all answers is how its calls end when
they are made directly. -/
theorem answers_observed {issued : List (UInt32 × ApiCall)} (numbered : Numbered issued)
    {link : ι} {handled : List (ι × UInt32 × ApiCall)}
    (sent : ∀ entry ∈ Links.messages link handled, entry ∈ issued) (running : Running σ) :
    (Links.answers (remoteService driver stringify) link running handled).filterMap
        (observe issued) =
      Links.answers (directService driver stringify) link running.state handled := by
  refine Links.answers_image (remoteService_state driver stringify) ?_ running
  rintro ⟨msgid, call⟩ member running
  rw [remoteService, onMessage_message]
  exact observe_replies numbered (sent _ member) stringify _

/-- A server that is controlled over some connections, and what its clients know. -/
structure Remote (ι σ : Type*) where
  links : Links ι (Running σ) (UInt32 × ApiCall) Message
  /-- The requests for which a function of the client has thrown `TimeoutError`. -/
  gaveUp : ι → List UInt32
  /-- What the client has learned, oldest first. -/
  learned : ι → List Observation

/-- What happens to a server and its clients. -/
inductive RemoteEvent (ι : Type*) where
  | link (event : LinkEvent ι (UInt32 × ApiCall))
  /-- `RemoteCall::Wait` has waited for `m_timeout`, or `GetResponse` finds no response. -/
  | giveUp (link : ι) (msgid : UInt32)

namespace Remote

/-- Nothing was sent yet. -/
def start (state : σ) : Remote ι σ := ⟨.start ⟨state, []⟩, fun _ => [], fun _ => []⟩

/-- What a client learns from the message that arrives next; nobody waits for the response to a
request that was given up. -/
def learns (remote : Remote ι σ) (link : ι) : List Observation :=
  (((remote.links.outbound link).take 1).filterMap (observe (remote.links.sent link))).filter
    (Observation.awaited (remote.gaveUp link))

/-- What the clients know after an event on a connection. -/
def learnedAfter (remote : Remote ι σ) : LinkEvent ι (UInt32 × ApiCall) → ι → List Observation
  | .deliver link =>
      Function.update remote.learned link (remote.learned link ++ remote.learns link)
  | .send _ _ | .handle _ | .lose _ _ => remote.learned

/-- One event.  A client gives up a request that has not been answered; what it has sent goes on its
way all the same. -/
def step (remote : Remote ι σ) : RemoteEvent ι → Option (Remote ι σ)
  | .link event =>
      (Links.step (remoteService driver stringify) remote.links event).map fun links =>
        { remote with links, learned := remote.learnedAfter event }
  | .giveUp link msgid =>
      if (∃ entry ∈ remote.links.sent link, entry.1 = msgid ∧ entry.2.isRequest = true) ∧
          (remote.learned link).all (Observation.awaited [msgid]) then
        some { remote with
          gaveUp := Function.update remote.gaveUp link (msgid :: remote.gaveUp link) }
      else
        none

/-- The server and its clients, with all orders of events. -/
def machine : Machine (Remote ι σ) (RemoteEvent ι) := ⟨step driver stringify⟩

end Remote

/-- The message is not a response, or the response to a request that was sent. -/
def Message.Addressed (issued : List (UInt32 × ApiCall)) : Message → Prop
  | .response msgid _ _ => ∃ entry ∈ issued, entry.1 = msgid ∧ entry.2.isRequest = true
  | .request _ _ _ | .notify _ _ => True

theorem Message.Addressed.observe_append {issued : List (UInt32 × ApiCall)} {message : Message}
    (addressed : message.Addressed issued) (more : List (UInt32 × ApiCall)) :
    observe (issued ++ more) message = observe issued message := by
  cases message with
  | request | notify => rfl
  | response msgid result error =>
      obtain ⟨entry, sent, rfl, request⟩ := addressed
      have found : (issued.find? fun other => other.2.isRequest && other.1 == entry.1).isSome :=
        List.find?_isSome.mpr ⟨entry, sent, by simp [request]⟩
      rw [observe, observe, List.find?_append, Option.or_of_isSome found]

theorem addressed_of_mem_answers {issued : List (UInt32 × ApiCall)} {link : ι} {state : Running σ}
    {handled : List (ι × UInt32 × ApiCall)}
    (sent : ∀ entry ∈ Links.messages link handled, entry ∈ issued) {answer : Message}
    (given : answer ∈ Links.answers (remoteService driver stringify) link state handled) :
    answer.Addressed issued := by
  obtain ⟨⟨msgid, call⟩, member, running, given⟩ := Links.mem_answers _ given
  rw [remoteService, onMessage_message] at given
  cases request : call.isRequest with
  | false =>
      cases result : (driver.perform running.state call.serverCall).2 with
      | ok value => simp [result, ApiCall.replies, request] at given
      | error thrown =>
          simp only [result, ApiCall.replies, request, Bool.false_eq_true, if_false,
            List.mem_singleton] at given
          subst given
          trivial
  | true =>
      have response : ∃ result error, answer = .response msgid result error := by
        cases result : (driver.perform running.state call.serverCall).2 <;>
          simp only [result, ApiCall.replies, request, if_true, List.mem_singleton] at given <;>
            exact ⟨_, _, given⟩
      obtain ⟨result, error, rfl⟩ := response
      exact ⟨_, sent _ member, rfl, request⟩

theorem Observation.awaited_cons (msgid : UInt32) (gaveUp : List UInt32)
    (observation : Observation) :
    observation.awaited (msgid :: gaveUp) =
      (observation.awaited [msgid] && observation.awaited gaveUp) := by
  cases named : observation.msgid with
  | none => simp [awaited, named]
  | some number => simp [awaited, named, Bool.decide_and]

namespace Remote

/-- The messages are accounted for, and a client knows what the messages say that have arrived,
except about requests that it has given up. -/
structure Coherent (state : σ) (remote : Remote ι σ) : Prop where
  links : Links.Coherent (remoteService driver stringify) ⟨state, []⟩ remote.links
  learned : ∀ link, remote.learned link =
    ((remote.links.received link).filterMap (observe (remote.links.sent link))).filter
      (Observation.awaited (remote.gaveUp link))

variable {driver stringify} {state : σ} {remote next : Remote ι σ}

theorem Coherent.addressed (coherent : remote.Coherent driver stringify state) {link : ι}
    {message : Message} (arrived : message ∈ remote.links.received link) :
    message.Addressed (remote.links.sent link) := by
  have accounted := coherent.links.accounted link
  refine addressed_of_mem_answers driver stringify (fun entry member => ?_)
    (accounted.returns.subset (List.mem_append_left _ arrived))
  exact accounted.arrives.subset (List.mem_append_left _ member)

theorem Coherent.learned_send (coherent : remote.Coherent driver stringify state) (link : ι)
    (more : List (UInt32 × ApiCall)) :
    remote.learned link =
      ((remote.links.received link).filterMap (observe (remote.links.sent link ++ more))).filter
        (Observation.awaited (remote.gaveUp link)) := by
  rw [coherent.learned link]
  congr 1
  exact List.filterMap_congr fun message arrived =>
    ((coherent.addressed arrived).observe_append more).symm

theorem Coherent.learned_deliver (coherent : remote.Coherent driver stringify state) {link : ι}
    {answer : Message} {rest : List Message}
    (waiting : remote.links.outbound link = answer :: rest) :
    remote.learned link ++ remote.learns link =
      ((remote.links.received link ++ [answer]).filterMap
        (observe (remote.links.sent link))).filter (Observation.awaited (remote.gaveUp link)) := by
  rw [List.filterMap_append, List.filter_append, ← coherent.learned link, learns, waiting]
  rfl

theorem Coherent.learned_giveUp (coherent : remote.Coherent driver stringify state) {link : ι}
    {msgid : UInt32} (unanswered : (remote.learned link).all (Observation.awaited [msgid])) :
    remote.learned link =
      ((remote.links.received link).filterMap (observe (remote.links.sent link))).filter
        (Observation.awaited (msgid :: remote.gaveUp link)) := by
  have all := List.filter_eq_self.mpr (List.all_eq_true.mp unanswered)
  have split : Observation.awaited (msgid :: remote.gaveUp link) = fun observation =>
      observation.awaited [msgid] && observation.awaited (remote.gaveUp link) :=
    funext fun observation => observation.awaited_cons msgid _
  rw [split, ← List.filter_filter, ← coherent.learned link, all]

theorem Coherent.step {event : RemoteEvent ι} (coherent : remote.Coherent driver stringify state)
    (moved : (machine driver stringify).step remote event = some next) :
    next.Coherent driver stringify state := by
  cases event with
  | link event =>
      obtain ⟨links, stepped, rfl⟩ := Option.map_eq_some_iff.mp moved
      refine ⟨coherent.links.step stepped, fun other => ?_⟩
      cases event with
      | send link message =>
          obtain ⟨-, rfl⟩ := Links.step_send_eq_some.mp stepped
          by_cases same : other = link
          · subst same
            simpa [learnedAfter] using coherent.learned_send other [message]
          · simpa [learnedAfter, same] using coherent.learned other
      | handle link =>
          obtain ⟨_, _, -, rfl⟩ := Links.step_handle_eq_some.mp stepped
          exact coherent.learned other
      | deliver link =>
          obtain ⟨answer, rest, waiting, rfl⟩ := Links.step_deliver_eq_some.mp stepped
          by_cases same : other = link
          · subst same
            simpa only [learnedAfter, Function.update_self] using coherent.learned_deliver waiting
          · simpa [learnedAfter, same] using coherent.learned other
      | lose link arriving =>
          obtain ⟨-, rfl⟩ := Links.step_lose_eq_some.mp stepped
          exact coherent.learned other
  | giveUp link msgid =>
      obtain ⟨⟨-, unanswered⟩, given⟩ := Option.ite_none_right_eq_some.mp moved
      obtain rfl := Option.some.inj given
      refine ⟨coherent.links, fun other => ?_⟩
      by_cases same : other = link
      · subst same
        simpa only [Function.update_self] using coherent.learned_giveUp unanswered
      · simpa [same] using coherent.learned other

theorem Coherent.run {events : List (RemoteEvent ι)} {final : Remote ι σ}
    (coherent : remote.Coherent driver stringify state)
    (execution : (machine driver stringify).run remote events = some final) :
    final.Coherent driver stringify state :=
  @Machine.invariant_of_run _ _ (machine driver stringify) (Coherent driver stringify state)
    (fun coherent moved => coherent.step moved) _ _ _ coherent execution

variable (driver stringify) in
theorem start_coherent (state : σ) : (start state : Remote ι σ).Coherent driver stringify state :=
  ⟨Links.start_coherent _, fun _ => rfl⟩

/-- What happens on the connections happens to the server and its clients, who give up nothing. -/
theorem run_links {events : List (LinkEvent ι (UInt32 × ApiCall))}
    {links : Links ι (Running σ) (UInt32 × ApiCall) Message}
    (execution : (Links.machine (remoteService driver stringify)).run remote.links events =
      some links) :
    ∃ final, (machine driver stringify).run remote (events.map .link) = some final ∧
      final.links = links ∧ final.gaveUp = remote.gaveUp := by
  induction events generalizing remote with
  | nil => exact ⟨remote, rfl, Option.some.inj execution, rfl⟩
  | cons event events ih =>
      obtain ⟨next, stepped, rest⟩ := Machine.run_cons_eq_some.mp execution
      have moved : (machine driver stringify).step remote (.link event) =
          some { remote with links := next, learned := remote.learnedAfter event } :=
        Option.map_eq_some_iff.mpr ⟨next, stepped, rfl⟩
      obtain ⟨final, continued, reached, same⟩ :=
        @ih { remote with links := next, learned := remote.learnedAfter event } rest
      exact ⟨final, Machine.run_cons_eq_some.mpr ⟨_, moved, continued⟩, reached, same⟩

end Remote

/-- A driver that is controlled over the network compared with one whose functions are called
directly. -/
structure AsDirect (state : σ) (remote : Remote ι σ) : Prop where
  /-- The driver is where the calls that have arrived bring it, in the order in which they did. -/
  arrived : remote.links.server.state =
    Links.replay (directService driver stringify) state remote.links.handled
  executed : remote.links.server.executed =
    remote.links.handled.map fun entry => entry.2.2.serverCall
  /-- On a connection the calls arrive in the order in which they are sent, and the client learns in
  this order how they end when they are made directly, if it has not given them up. -/
  observed : ∀ link, Links.Accounted (remote.links.up link) (remote.links.sent link)
    (Links.messages link remote.links.handled) (remote.links.inbound link)
    ((Links.answers (directService driver stringify) link state remote.links.handled).filter
      (Observation.awaited (remote.gaveUp link)))
    (remote.learned link)
    (((remote.links.outbound link).filterMap (observe (remote.links.sent link))).filter
      (Observation.awaited (remote.gaveUp link)))

/-- In every run a driver that is controlled over the network does what it does when the calls are
made directly, and every client learns how its own calls have ended; only a connection that is lost
lacks some calls or outcomes, and a client lacks the outcomes of those that it has given up. -/
theorem remote_of_run {state : σ} {remote : Remote ι σ} {events : List (RemoteEvent ι)}
    (execution : (Remote.machine driver stringify).run (Remote.start state) events = some remote)
    (numbered : ∀ link, Numbered (remote.links.sent link)) :
    AsDirect driver stringify state remote := by
  have coherent := (Remote.start_coherent driver stringify state).run execution
  refine ⟨?_, ?_, fun link => ?_⟩
  · rw [coherent.links.replayed]
    exact Links.replay_image (remoteService_state driver stringify) _ _
  · rw [coherent.links.replayed, replay_executed, List.nil_append]
  · have accounted := coherent.links.accounted link
    have sent : ∀ entry ∈ Links.messages link remote.links.handled,
        entry ∈ remote.links.sent link :=
      fun entry member => accounted.arrives.subset (List.mem_append_left _ member)
    rw [← answers_observed driver stringify (numbered link) sent ⟨state, []⟩,
      coherent.learned link]
    exact (accounted.filterMap (observe (remote.links.sent link))).filter _

/-- However far a run has come, the server can go on to work off a connection that is up: then every
call that was sent on it has been executed exactly once, and the client knows how each has ended
that it has not given up. -/
theorem remote_settles {state : σ} {remote : Remote ι σ} {events : List (RemoteEvent ι)}
    (execution : (Remote.machine driver stringify).run (Remote.start state) events = some remote)
    {link : ι} (up : remote.links.up link = true) (numbered : Numbered (remote.links.sent link)) :
    ∃ (more : List (LinkEvent ι (UInt32 × ApiCall))) (final : Remote ι σ),
      (∀ event ∈ more, Links.Serves link event) ∧
      (Remote.machine driver stringify).run remote (more.map .link) = some final ∧
        Links.messages link final.links.handled = remote.links.sent link ∧
          final.learned link =
            (Links.answers (directService driver stringify) link state
              final.links.handled).filter (Observation.awaited (remote.gaveUp link)) := by
  have coherent := (Remote.start_coherent driver stringify state).run execution
  obtain ⟨more, links, serves, continued, sent, handled, received⟩ :=
    Links.run_settle coherent.links up
  obtain ⟨final, execution, rfl, gaveUp⟩ := Remote.run_links continued
  refine ⟨more, final, serves, execution, handled, ?_⟩
  rw [(coherent.run execution).learned link, received, gaveUp, sent]
  congr 1
  exact answers_observed driver stringify numbered (fun entry member => handled ▸ member)
    ⟨state, []⟩

end Remote

instance : DecidablePred Numbered := fun _ => inferInstanceAs (Decidable (List.Nodup _))

/-- A server that executes lines and refuses everything else, and counts the calls. -/
def linesOnly : DerivedServer Nat where
  perform
    | calls, .mdi _ => (calls + 1, .ok true)
    | calls, _ => (calls + 1, .error ⟨false, ascii "refused"⟩)

/-- One client starts the drives while two lines of another one are on their way, which gives up the
first of them. -/
def linesAndDrives : List (RemoteEvent Bool) :=
  [.link (.send false (1, .mdi (ascii "G0"))), .link (.send true (1, .drivesOn true)),
    .link (.handle true), .link (.deliver true), .giveUp false 1,
    .link (.send false (2, .mdi (ascii "G1"))), .link (.handle false)]

theorem remote_of_linesAndDrives :
    ∃ remote, (Remote.machine linesOnly fun _ => []).run (Remote.start 0) linesAndDrives =
        some remote ∧ AsDirect linesOnly (fun _ => []) 0 remote :=
  ⟨_, rfl, @remote_of_run Bool _ Nat linesOnly (fun _ => []) 0 _ linesAndDrives rfl (by decide)⟩

theorem settles_linesAndDrives :
    ∃ remote, (Remote.machine linesOnly fun _ => []).run (Remote.start 0) linesAndDrives =
        some remote ∧
      ∃ (more : List (LinkEvent Bool (UInt32 × ApiCall))) (final : Remote Bool Nat),
        (∀ event ∈ more, Links.Serves false event) ∧
        (Remote.machine linesOnly fun _ => []).run remote (more.map .link) = some final ∧
          Links.messages false final.links.handled = remote.links.sent false ∧
            final.learned false =
              (Links.answers (directService linesOnly fun _ => []) false 0
                final.links.handled).filter (Observation.awaited (remote.gaveUp false)) :=
  ⟨_, rfl,
    @remote_settles Bool _ Nat linesOnly (fun _ => []) 0 _ linesAndDrives rfl false rfl
      (by decide)⟩

end CncRemote
