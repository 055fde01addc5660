import CncRemote.Dispatch
import CncRemote.RemoteCall

/-!
# Commands of the client

Each command function of `Client` sends at most one message.  Client and server name the functions
independently of each other, so what a command means and what the server executes for it are two
definitions; `executed_eq_meant_iff` compares them over all sequences of commands.
-/

namespace CncRemote

open Msgpack (Value Codec)

/-- A call of a command function of `Client`, on a connected socket. -/
inductive Command where
  | drivesOn (state : Bool)
  | jogVel (velocities : Axes Double)
  | mdi (line : Bytes)
  | feedOverride (percent : Double)
  | spindleOverride (percent : Double)
  | rapidOverride (percent : Double)
  /-- `LoadFile` over a local connection. -/
  | loadFile (file : Bytes)
  | closeFile
  | cycleStart
  | cycleStop
  | feedHold (state : Bool)
  | blockDelete (state : Bool)
  | singleStep (state : Bool)
  | optionalStop (state : Bool)
  | home (axis : UInt32)
  | homeAll
  | getGCodes
  | getMCodes
  /-- `GetGCodes(RemoteCall& call)` -/
  | getGCodesInto (call : RemoteCall Value)
  /-- `GetMCodes(RemoteCall& call)` -/
  | getMCodesInto (call : RemoteCall Value)

/-- `RemoteCall::Call`, which sends its request unless the object is busy. -/
def RemoteCall.callMessages (call : RemoteCall Value) (msgid : UInt32) (function : Bytes)
    (param : Value) : List Message :=
  match (call.callAsync none).2 with
  | .ok _ => [.request msgid function param]
  | .error _ => []

theorem RemoteCall.callMessages_of_busy {call : RemoteCall Value} (busy : call.busy = true)
    (msgid : UInt32) (function : Bytes) (param : Value) :
    call.clearResponse.callMessages msgid function param = [] := by
  have refused : call.clearResponse.busy = true := busy
  rw [callMessages, callAsync_of_busy refused]

theorem RemoteCall.callMessages_of_idle {call : RemoteCall Value} (idle : call.busy = false)
    (msgid : UInt32) (function : Bytes) (param : Value) :
    call.clearResponse.callMessages msgid function param = [.request msgid function param] := by
  have free : call.clearResponse.busy = false := idle
  rw [callMessages, callAsync_of_idle free]

namespace Command

/-- The axes that `Client::Home` selects. -/
def oneAxis (axis : Fin maxAxes) : BoolAxes := ⟨Function.update BoolAxes.zero.array axis true⟩

/-- The axes that `Client::HomeAll` selects. -/
def allAxes : BoolAxes := ⟨fun _ => true⟩

/-- The messages that a command sends; `msgid` is the number of its request, if it sends one.
`RemoteCall::Call` without a parameter packs the number 0. -/
def messages (msgid : UInt32) : Command → List Message
  | .drivesOn state => [.notify (ascii "DrivesOn") (Codec.bool.pack state)]
  | .jogVel velocities => [.notify (ascii "JogVel") (axesCodec.pack velocities)]
  | .mdi line => RemoteCall.new.callMessages msgid (ascii "Mdi") (Codec.string.pack line)
  | .feedOverride percent => [.notify (ascii "FeedOverride") (Codec.double.pack percent)]
  | .spindleOverride percent => [.notify (ascii "SpindleOverride") (Codec.double.pack percent)]
  | .rapidOverride percent => [.notify (ascii "RapidOverride") (Codec.double.pack percent)]
  | .loadFile file => RemoteCall.new.callMessages msgid (ascii "LoadFile") (Codec.string.pack file)
  | .closeFile => RemoteCall.new.callMessages msgid (ascii "CloseFile") (Codec.int.pack 0)
  | .cycleStart => [.notify (ascii "CycleStart") (Codec.bool.pack true)]
  | .cycleStop => [.notify (ascii "CycleStart") (Codec.bool.pack false)]
  | .feedHold state => [.notify (ascii "FeedHold") (Codec.bool.pack state)]
  | .blockDelete state => [.notify (ascii "BlockDelete") (Codec.bool.pack state)]
  | .singleStep state => [.notify (ascii "SingleStep") (Codec.bool.pack state)]
  | .optionalStop state => [.notify (ascii "OptionalStop") (Codec.bool.pack state)]
  | .home axis =>
      if exists_ : axis.toNat < maxAxes then
        [.notify (ascii "Home") (boolAxesCodec.pack (oneAxis ⟨axis.toNat, exists_⟩))]
      else []
  | .homeAll => [.notify (ascii "Home") (boolAxesCodec.pack allAxes)]
  | .getGCodes => RemoteCall.new.callMessages msgid (ascii "GetGCodes") (Codec.int.pack 0)
  | .getMCodes => RemoteCall.new.callMessages msgid (ascii "GetMCodes") (Codec.int.pack 0)
  | .getGCodesInto call =>
      call.clearResponse.callMessages msgid (ascii "GetGCodes") (Codec.int.pack 0)
  | .getMCodesInto call =>
      call.clearResponse.callMessages msgid (ascii "GetGCodes") (Codec.int.pack 0)

/-- What a command stands for: the function of the same name with the same arguments.  Homing all
axes is one call, homing an axis that does not exist is none, and a busy `RemoteCall` refuses. -/
def meant : Command → List ServerCall
  | .drivesOn state => [.drivesOn state]
  | .jogVel velocities => [.jogVel velocities]
  | .mdi line => [.mdi line]
  | .feedOverride percent => [.feedOverride percent]
  | .spindleOverride percent => [.spindleOverride percent]
  | .rapidOverride percent => [.rapidOverride percent]
  | .loadFile file => [.loadFile file]
  | .closeFile => [.closeFile]
  | .cycleStart => [.cycleStart]
  | .cycleStop => [.cycleStop]
  | .feedHold state => [.feedHold state]
  | .blockDelete state => [.blockDelete state]
  | .singleStep state => [.singleStep state]
  | .optionalStop state => [.optionalStop state]
  | .home axis =>
      if exists_ : axis.toNat < maxAxes then [.home (oneAxis ⟨axis.toNat, exists_⟩)] else []
  | .homeAll => [.home allAxes]
  | .getGCodes => [.getGCodes]
  | .getMCodes => [.getMCodes]
  | .getGCodesInto call => if call.busy then [] else [.getGCodes]
  | .getMCodesInto call => if call.busy then [] else [.getMCodes]

/-- The command is not one of the two that are sent under the name of another one. -/
def OwnName : Command → Prop
  | .cycleStop => False
  | .getMCodesInto call => call.busy = true
  | _ => True

/-- What the server executes for a command. -/
def executes : Command → List ServerCall
  | .cycleStop => [.cycleStart]
  | .getMCodesInto call => if call.busy then [] else [.getGCodes]
  | command => command.meant

variable {σ : Type*}

theorem executed_of_messages (backend : Backend σ) (running : Running σ) (msgid : UInt32)
    (command : Command) :
    (onMessages backend running (command.messages msgid)).executed =
      running.executed ++ command.executes := by
  cases command with
  | drivesOn | jogVel | feedOverride | spindleOverride | rapidOverride | feedHold | blockDelete
  | singleStep | optionalStop | homeAll => exact executed_of_notify1 rfl backend running _
  | cycleStart | cycleStop => exact executed_of_notify0 rfl backend running _
  | mdi | loadFile => exact executed_of_request1 rfl backend running msgid _
  | closeFile | getGCodes | getMCodes => exact executed_of_request0 rfl backend running msgid _
  | home axis =>
      by_cases exists_ : axis.toNat < maxAxes
      · simp only [messages, executes, meant, exists_, dif_pos]
        exact executed_of_notify1 rfl backend running _
      · simp only [messages, executes, meant, exists_, dif_neg, not_false_eq_true]
        exact (List.append_nil _).symm
  | getGCodesInto call | getMCodesInto call =>
      cases busy : call.busy with
      | true =>
          simp only [messages, executes, meant, RemoteCall.callMessages_of_busy busy, busy,
            if_true]
          exact (List.append_nil _).symm
      | false =>
          simp only [messages, executes, meant, RemoteCall.callMessages_of_idle busy, busy,
            Bool.false_eq_true, if_false]
          exact executed_of_request0 rfl backend running msgid _

/-- What the server executes for a sequence of commands, each with the number of its request. -/
def executed (backend : Backend σ) (state : σ) (commands : List (UInt32 × Command)) :
    List ServerCall :=
  (onMessages backend ⟨state, []⟩
    (commands.flatMap fun numbered => numbered.2.messages numbered.1)).executed

theorem executed_of_commands (backend : Backend σ) (running : Running σ)
    (commands : List (UInt32 × Command)) :
    (onMessages backend running
      (commands.flatMap fun numbered => numbered.2.messages numbered.1)).executed =
        running.executed ++ commands.flatMap fun numbered => numbered.2.executes := by
  induction commands generalizing running with
  | nil => exact (List.append_nil _).symm
  | cons numbered commands ih =>
      have first := executed_of_messages backend running numbered.1 numbered.2
      rw [List.flatMap_cons, List.flatMap_cons, onMessages, List.foldl_append]
      change (onMessages backend (onMessages backend running _) _).executed = _
      rw [ih, first, List.append_assoc]

theorem length_executes (command : Command) :
    command.executes.length = command.meant.length := by
  cases command with
  | getMCodesInto call => cases busy : call.busy <;> simp [executes, meant, busy]
  | _ => rfl

theorem executes_eq_meant_iff (command : Command) :
    command.executes = command.meant ↔ command.OwnName := by
  cases command with
  | cycleStop => simp [executes, meant, OwnName]
  | getMCodesInto call => cases busy : call.busy <;> simp [executes, meant, OwnName, busy]
  | _ => simp [executes, OwnName]

theorem flatMap_eq_flatMap_iff {α β : Type*} {left right : α → List β} {items : List α}
    (lengths : ∀ item, (left item).length = (right item).length) :
    items.flatMap left = items.flatMap right ↔ ∀ item ∈ items, left item = right item := by
  induction items with
  | nil => simp
  | cons item items ih =>
      rw [List.flatMap_cons, List.flatMap_cons, List.forall_mem_cons, ← ih]
      constructor
      · exact fun equal => List.append_inj equal (lengths item)
      · rintro ⟨first, rest⟩
        rw [first, rest]

/-- The server executes what the commands mean exactly if none of them is sent under the name of
another one, which `CycleStop` is, and `GetMCodes` on a `RemoteCall` that is not busy. -/
theorem executed_eq_meant_iff (backend : Backend σ) (state : σ)
    (commands : List (UInt32 × Command)) :
    executed backend state commands = commands.flatMap (fun numbered => numbered.2.meant) ↔
      ∀ numbered ∈ commands, numbered.2.OwnName := by
  have lengths (numbered : UInt32 × Command) :
      numbered.2.executes.length = numbered.2.meant.length := length_executes numbered.2
  rw [executed, executed_of_commands, List.nil_append, flatMap_eq_flatMap_iff lengths]
  simp only [executes_eq_meant_iff]

/-- A server that answers every call with nil. -/
def idleBackend : Backend Unit where
  perform _ _ := ((), .ok .nil)
  stringify _ := []

/-- A stop command is executed as a start. -/
theorem executed_ne_meant_of_cycleStop :
    ¬∀ (backend : Backend Unit) (commands : List (UInt32 × Command)),
      executed backend () commands = commands.flatMap (fun numbered => numbered.2.meant) := by
  intro equal
  have stopped : [ServerCall.cycleStart] = [ServerCall.cycleStop] :=
    equal idleBackend [(1, .cycleStop)]
  cases stopped

end Command

end CncRemote
