import CncRemote.Dispatch

/-!
# Records on the wire

`State` lists its members for the packer in an order of its own, and `PreviewAxes` inherits the
list of `Axes`, which does not know the member that it adds.
-/

namespace CncRemote

open Msgpack (Value Codec Members)

/-- The members of a `State` in the order in which they are packed. -/
abbrev StateMembers : Type :=
  Axes Double × Axes Double × Double × Bool × Bool × Bool × Int32 × Int32 × Bool × Double ×
    Double × Int32 × Bool × Bool × BoolAxes × BoolAxes × UInt32 × UInt32 × Double × Double ×
    Double × Double × Double × Double × Double × Int32 × Bytes × UInt32 × Unit

/-- The list of members of `State`. -/
def State.members (state : State Double) : StateMembers :=
  (state.machinePos, state.position, state.feedOverride, state.feedHold, state.optionalStop,
    state.blockDelete, state.machineState, state.currentLine, state.singleStep, state.spindleCmd,
    state.spindleActual, state.spindleState, state.mist, state.flood, state.homed,
    state.axisAngular, state.errorCount, state.messageCount, state.maxFeedLin, state.maxFeedAng,
    state.gcodeUnits, state.spindleOverride, state.rapidOverride, state.feedCmd, state.feedActual,
    state.tool, state.interpState, state.fileCount, ())

/-- The state that has the listed members. -/
def State.ofMembers : StateMembers → State Double
  | (machinePos, position, feedOverride, feedHold, optionalStop, blockDelete, machineState,
      currentLine, singleStep, spindleCmd, spindleActual, spindleState, mist, flood, homed,
      axisAngular, errorCount, messageCount, maxFeedLin, maxFeedAng, gcodeUnits, spindleOverride,
      rapidOverride, feedCmd, feedActual, tool, interpState, fileCount, ()) =>
    { position, machinePos, feedHold, feedOverride, optionalStop, blockDelete, machineState,
      currentLine, singleStep, spindleCmd, spindleActual, spindleState, mist, flood, homed,
      axisAngular, maxFeedLin, maxFeedAng, gcodeUnits, spindleOverride, rapidOverride, feedCmd,
      feedActual, tool, errorCount, messageCount, fileCount, interpState }

theorem State.ofMembers_members (state : State Double) : .ofMembers state.members = state := rfl

/-- How the listed members are packed. -/
def stateMembers : Members StateMembers :=
  .cons axesCodec <| .cons axesCodec <| .cons .double <| .cons .bool <| .cons .bool <|
    .cons .bool <| .cons .int <| .cons .int <| .cons .bool <| .cons .double <| .cons .double <|
    .cons .int <| .cons .bool <| .cons .bool <| .cons boolAxesCodec <| .cons boolAxesCodec <|
    .cons .uint <| .cons .uint <| .cons .double <| .cons .double <| .cons .double <|
    .cons .double <| .cons .double <| .cons .double <| .cons .double <| .cons .int <|
    .cons .string <| .cons .uint .nil

/-- The codec of `State`. -/
def stateCodec : Codec (State Double) :=
  .wrapped State.ofMembers State.members State.ofMembers_members (.array stateMembers)

/-- A response that reports a state decodes to that state, and a request with two arguments that the
client has packed calls the function that is bound with these arguments. -/
theorem state_and_callData2_decode {σ : Type*} (backend : Backend σ) (running : Running σ)
    (msgid : UInt32) (params : Value) (state : State Double)
    (returns : (backend.perform running.state .getState_).2 = .ok (stateCodec.pack state)) :
    (∃ next value,
      onMessage backend running (.request msgid (ascii "GetState") params) =
        (next, [.response msgid value .nil]) ∧ stateCodec.as value = some state) ∧
    ∀ {κ α β : Type} [Inhabited α] [Inhabited β] (arg1 : Codec α) (arg2 : Codec β)
      (name method : Bytes) (func : α → β → κ) (handler : Handler σ κ) (backend : Backend σ κ)
      (running : Running σ κ) (first : α) (second : β),
      handler.requestHandlers.find? (fun handler => handler.name = method) =
          some (requestHandler2 arg1 arg2 name func) →
        (requestDataCodec arg1 arg2).as ((callData2Codec arg1 arg2).pack (first, second)) =
            some (first, second) ∧
          (handler.onMessage backend running
              (.request msgid method ((callData2Codec arg1 arg2).pack (first, second)))).1 =
            ⟨(backend.perform running.state (func first second)).1,
              running.executed ++ [func first second]⟩ := by
  constructor
  · have found : (requestHandlers : List (RequestHandler σ)).find?
        (fun handler => handler.name = ascii "GetState") =
          some (requestHandler0 (ascii "GetState_") .getState_) := rfl
    refine ⟨(running.invoke backend .getState_).1, stateCodec.pack state, ?_,
      stateCodec.as_pack state⟩
    simp only [onMessage, Handler.onMessage, found, requestHandler0, Running.invoke, returns]
  · intro κ α β _ _ arg1 arg2 name method func handler backend running first second found
    refine ⟨requestData_as_callData2 arg1 arg2 (first, second), ?_⟩
    simp only [Handler.onMessage, found, requestHandler2, requestHandler1,
      requestData_as_callData2, Running.invoke]
    split
    · simp_all
    · split <;> simp_all

/-- A server whose spindle turns in reverse while line 7 runs. -/
def reversing : State Double :=
  { State.initial with
    machineState := ControlState.running.code, currentLine := 7, spindleState := 2 }

/-- It reports its state, and is sent a block of a file. -/
theorem state_decodes_reversing :
    (∃ next value,
      onMessage (σ := Unit) ⟨fun _ _ => ((), .ok (stateCodec.pack reversing)), fun _ => []⟩
          ⟨(), []⟩ (.request 1 (ascii "GetState") .nil) =
        (next, [.response 1 value .nil]) ∧ stateCodec.as value = some reversing) ∧
      (onMessage (σ := Unit) ⟨fun _ _ => ((), .ok (stateCodec.pack reversing)), fun _ => []⟩
          ⟨(), []⟩
          (.request 1 (ascii "SendData") ((callData2Codec .string .int).pack ([7], 3)))).1 =
        ⟨(), [.sendData [7] 3]⟩ := by
  let backend : Backend Unit := ⟨fun _ _ => ((), .ok (stateCodec.pack reversing)), fun _ => []⟩
  obtain ⟨reports, decodes⟩ :=
    state_and_callData2_decode backend ⟨(), []⟩ 1 .nil reversing rfl
  have sent := decodes .string .int (ascii "SendData") (ascii "SendData") ServerCall.sendData
    ⟨requestHandlers, notifyHandlers⟩ backend ⟨(), []⟩ [7] 3 rfl
  exact ⟨reports, sent.2⟩

/-- `PREVIEWTYPE` -/
inductive PreviewType where
  | start
  | move
  | rapid
  deriving DecidableEq, Repr

/-- The value of an enumerator, as carried by the `int` alias `_type`. -/
def PreviewType.code : PreviewType → Int32
  | .start => 0
  | .move => 1
  | .rapid => 2

/-- A point of a preview. -/
structure PreviewAxes extends Axes Double where
  /-- `_type`, the alias of the move type. -/
  type : Int32

namespace PreviewAxes

/-- Packing is inherited from `Axes`. -/
def pack (point : PreviewAxes) : Value := axesCodec.pack point.toAxes

/-- Conversion is inherited from `Axes`. -/
def convert (into : PreviewAxes) (value : Value) : Option PreviewAxes :=
  (axesCodec.convert into.toAxes value).map fun axes => { into with toAxes := axes }

/-- Only the coordinates are converted. -/
theorem convert_pack (into point : PreviewAxes) :
    into.convert point.pack = some { point with type := into.type } := by
  simp [convert, pack]

end PreviewAxes

/-- Encode a `PreviewData`. -/
def packPreview (data : List PreviewAxes) : Value := Msgpack.packVector PreviewAxes.pack data

/-- Decode a `PreviewData`; `fresh` is what the elements of a new vector hold. -/
def convertPreview (fresh : Nat → PreviewAxes) (value : Value) : Option (List PreviewAxes) :=
  Msgpack.convertVector PreviewAxes.convert fresh value

/-- A preview is decoded as it was encoded exactly if every move type is the one that the new
element holds anyway. -/
theorem convertPreview_packPreview_iff (fresh : Nat → PreviewAxes) (data : List PreviewAxes) :
    convertPreview fresh (packPreview data) = some data ↔
      ∀ (index : Nat) (below : index < data.length), data[index].type = (fresh index).type := by
  rw [convertPreview, packPreview, Msgpack.convertVector_packVector PreviewAxes.convert_pack,
    Option.some_inj]
  constructor
  · intro same index below
    have at_index := congrArg (·[index]?) same
    simp only [List.getElem?_mapIdx, List.getElem?_eq_getElem below, Option.map_some,
      Option.some_inj] at at_index
    rw [← at_index]
  · intro types
    apply List.ext_getElem (List.length_mapIdx)
    intro index _ below
    rw [List.getElem_mapIdx, ← types index below]

/-- A rapid move arrives as the start of a move. -/
theorem convertPreview_rapid :
    ¬∀ data : List PreviewAxes,
      convertPreview (fun _ => ⟨⟨fun _ => 0⟩, PreviewType.start.code⟩) (packPreview data) =
        some data := by
  intro decodes
  let point : PreviewAxes := ⟨⟨fun _ => 0⟩, PreviewType.rapid.code⟩
  have decoded := decodes [point]
  rw [convertPreview, packPreview, Msgpack.convertVector_packVector PreviewAxes.convert_pack]
    at decoded
  have types := congrArg PreviewAxes.type (List.cons.inj (Option.some.inj decoded)).1
  exact absurd types (by decide)

end CncRemote
