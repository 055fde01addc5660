import CncRemote.Dispatch
import CncRemote.Machine
import CncRemote.Wire

/-!
# The server for EdingCNC

`EdingCncServer` passes requests on to a library of the control.  What the library returns is not
used here; the commands that it is given are recorded.
-/

namespace CncRemote

/-- `CNC_MOVE_TYPE` -/
inductive MoveType where
  | unknown
  | g0
  | g1
  | arc
  | probe
  | jog
  | home
  | originOffset
  | startPosition
  | setGraphStartPoint
  | outLine
  | end_
  | endCollision
  deriving DecidableEq, Repr

/-- `CNC_GRAPH_FIFO_DATA`, as far as the driver reads it. -/
structure GraphPoint where
  pos : Axes Double
  type : MoveType

/-- The functions of the library that change the control. -/
inductive CncCommand where
  | runSingleLine (line : Bytes)
  | setSpeedOverride (factor : Double)
  | setFeedOverride (factor : Double)
  | loadJob (file : Bytes)
  | pauseJob
  | reset
  | enableBlockDelete (enable : Bool)
  | singleStepMode (enable : Bool)
  | enableOptionalStop (enable : Bool)
  deriving DecidableEq, Repr

/-- The server for EdingCNC and the graph of the control. -/
structure EdingCncServer where
  recSize : Int32
  graphOffset : Axes Double
  /-- The entries of the graph that `CncGraphFifoGet` has not returned yet. -/
  fifo : List GraphPoint
  /-- The commands that were given to the control, oldest first. -/
  sent : List CncCommand
  /-- The arrays that `GetPreview` returned, oldest first. -/
  previews : List (List PreviewAxes)

namespace EdingCncServer

/-- Give commands to the control. -/
def send (commands : List CncCommand) (server : EdingCncServer) : EdingCncServer :=
  { server with sent := server.sent ++ commands }

/-- `EdingCncServer::Mdi` -/
def mdi (line : Bytes) : EdingCncServer → EdingCncServer := send [.runSingleLine (cString line)]

/-- `EdingCncServer::SpindleOverride` -/
def spindleOverride (percent : Double) : EdingCncServer → EdingCncServer :=
  send [.setSpeedOverride percent]

/-- `EdingCncServer::FeedOverride` -/
def feedOverride (percent : Double) : EdingCncServer → EdingCncServer :=
  send [.setFeedOverride percent]

/-- `EdingCncServer::LoadFile` -/
def loadFile (file : Bytes) : EdingCncServer → EdingCncServer := send [.loadJob (cString file)]

/-- `EdingCncServer::CloseFile` -/
def closeFile : EdingCncServer → EdingCncServer := send [.loadJob []]

/-- `EdingCncServer::CycleStop` -/
def cycleStop : EdingCncServer → EdingCncServer := send [.pauseJob, .reset]

/-- `EdingCncServer::FeedHold`, which does not use its argument. -/
def feedHold (_state : Bool) : EdingCncServer → EdingCncServer := send [.pauseJob]

/-- `EdingCncServer::BlockDelete` -/
def blockDelete (state : Bool) : EdingCncServer → EdingCncServer := send [.enableBlockDelete state]

/-- `EdingCncServer::SingleStep` -/
def singleStep (state : Bool) : EdingCncServer → EdingCncServer := send [.singleStepMode state]

/-- `EdingCncServer::OptionalStop` -/
def optionalStop (state : Bool) : EdingCncServer → EdingCncServer :=
  send [.enableOptionalStop state]

/-- The subroutines that home one axis, in the order in which they are called. -/
def homeLines : List (Fin maxAxes × Bytes) :=
  [(2, ascii "gosub home_z"), (0, ascii "gosub home_x"), (1, ascii "gosub home_y"),
    (3, ascii "gosub home_a"), (4, ascii "gosub home_b"), (5, ascii "gosub home_c")]

/-- `EdingCncServer::Home` -/
def home (axes : BoolAxes) : EdingCncServer → EdingCncServer :=
  if (List.finRange maxAxes).all axes.array then
    send [.runSingleLine (ascii "gosub home_all")]
  else
    send ((homeLines.filter fun entry => axes.array entry.1).map fun entry =>
      .runSingleLine entry.2)

/-- How a point is drawn, if it is drawn. -/
def previewType : MoveType → Option PreviewType
  | .g1 | .probe => some .move
  | .g0 => some .rapid
  | .startPosition => some .start
  | _ => none

variable (add : Double → Double → Double)

/-- The loop of `GetPreview` with the array, the offset and the rest of the graph that it leaves. -/
def getPreviewLoop : Nat → Axes Double → List GraphPoint →
    List PreviewAxes × Axes Double × List GraphPoint
  | 0, offset, fifo => ([], offset, fifo)
  | _, offset, [] => ([], offset, [])
  | rounds + 1, offset, point :: fifo =>
      match previewType point.type with
      | some type =>
          let (ret, rest) := getPreviewLoop rounds offset fifo
          (⟨⟨fun ct => add (point.pos.array ct) (offset.array ct)⟩, type.code⟩ :: ret, rest)
      | none =>
          getPreviewLoop rounds (if point.type = .originOffset then point.pos else offset) fifo

/-- `EdingCncServer::GetPreview` -/
def getPreview (server : EdingCncServer) : EdingCncServer :=
  let (ret, graphOffset, fifo) :=
    getPreviewLoop add server.recSize.toInt.toNat server.graphOffset server.fifo
  { server with graphOffset, fifo, previews := server.previews ++ [ret] }

/-- The handlers of the server without their results.  The `StartPreview` of the driver takes an
`int`, so that it does not override the one of `Server`, which takes an `unsigned`, does nothing and
is the one that is bound.  The requests that move the drives, start the program and read the state
use members that are not modelled. -/
def handle : ServerCall → EdingCncServer → EdingCncServer
  | .mdi line => mdi line
  | .spindleOverride percent => spindleOverride percent
  | .feedOverride percent => feedOverride percent
  | .loadFile fileName => loadFile fileName
  | .closeFile | .sendInit _ => closeFile
  | .cycleStop => cycleStop
  | .feedHold state => feedHold state
  | .blockDelete state => blockDelete state
  | .singleStep state => singleStep state
  | .optionalStop state => optionalStop state
  | .home axes => home axes
  | .getPreview => getPreview add
  | .startPreview _ | .endPreview => id
  | .getState_ | .drivesOn _ | .jogVel _ | .jogStep _ _ | .rapidOverride _ | .cycleStart
  | .getOffset _ | .getGCodes | .getMCodes | .sendData _ _ | .getError _ | .getMessage _
  | .version => id

/-- The server takes every request. -/
def machine : Machine EdingCncServer ServerCall :=
  ⟨fun server call => some (handle add call server)⟩

end EdingCncServer

end CncRemote
