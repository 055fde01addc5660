import CncRemote.Dispatch
import CncRemote.Program
import CncRemote.Upload
import Mathlib.Algebra.Order.Field.Rat
import Mathlib.Data.List.FinRange

/-!
# The server in Mach3

`MachServer` answers its clients with the memory and the buttons of Mach3.  Every handler is a
program over the server, which faults where the running thread acquires a mutex that it holds.
Doubles are exact numbers here.
-/

namespace CncRemote

open Program

/-- `AxisInfo`, as far as the driver uses it. -/
structure AxisInfo where
  index : Int32
  curVelocity : Int32
  maxVelocity : Int32
  acceleration : Int32
  dec : Bool
  jogging : Bool
  joggDir : Int32

/-- The memory of Mach3 that the driver reads and writes. -/
structure Mach3 where
  /-- `Engine->Axis` -/
  axis : Fin maxAxes → AxisInfo
  trajIndex : Int32
  trajHead : Int32
  eStop : Bool
  currentUnits : Int32
  displayLine : Int32
  pulseCount : Int32
  referenced : Fin maxAxes → Bool
  /-- `MainPlanner->StepsPerAxis` -/
  stepsPerAxis : Fin maxAxes → ℚ
  velocities : Fin maxAxes → ℚ
  acceleration : Fin maxAxes → ℚ
  /-- The six doubles from `_setup->axis_offset_x` on. -/
  axisOffset : Fin maxAxes → ℚ
  /-- The six doubles from `_setup->origin_offset_x` on. -/
  originOffset : Fin maxAxes → ℚ
  /-- The `RS274NGC_ACTIVE_G_CODES` integers from `_setup->active_g_codes` on. -/
  activeGCodes : Fin 13 → Int32
  /-- As many integers from `_setup->active_m_codes` on. -/
  activeMCodes : Fin 13 → Int32
  /-- `GetLED` -/
  led : Int → Bool
  /-- `GetDRO` -/
  dro : Int → ℚ

/-- The functions of Mach3, of Windows and of the C library that the driver calls. -/
structure MachApi where
  doButton : Int → Mach3 → Mach3
  setDRO : Int → ℚ → Mach3 → Mach3
  setLED : Int → Bool → Mach3 → Mach3
  code : Bytes → Mach3 → Mach3
  loadGCodeFile : List UInt16 → Mach3 → Mach3
  /-- `MultiByteToWideChar` into `MAX_PATH` characters, without the final zero; `none` when it
  fails. -/
  toWide : Bytes → Option (List UInt16)
  /-- The conversion `%f`. -/
  print : ℚ → Bytes
  sqrt : ℚ → ℚ
  /-- The number that a bit pattern stands for. -/
  number : Double → ℚ

/-- How Windows answers when `SendInit` asks for a temporary file. -/
inductive WindowsTemp where
  /-- `GetTempPathA` or `GetTempFileNameA` fails. -/
  | refused
  /-- `GetTempFileNameA` creates a file, and `fopen` returns a stream or `NULL`. -/
  | created (path : Bytes) (stream : Bool)

/-- `MachServer::AXISDATA` -/
structure AxisData where
  targetJog : Int32
  jogging : Bool
  acc : Int32
  index : Int32
  homeSpeed : ℚ

/-- The server of the Mach3 plugin as the thread sees it that runs. -/
structure MachServer where
  /-- `m_file`, `m_curBlock` and `m_curFile` -/
  server : Server
  files : Files
  errors : List Bytes
  messages : List Bytes
  state : State ℚ
  jogAxes : Fin maxAxes → AxisData
  running : Bool
  /-- `m_filePath` up to its first zero. -/
  filePath : List UInt16
  /-- `m_Mach4App` is not `NULL`. -/
  app : Bool
  /-- `m_Mach4Scripter` is not `NULL`. -/
  scripter : Bool
  mach3 : Mach3
  /-- The running thread holds `m_syncLock`. -/
  syncLock : Bool
  /-- The running thread holds `m_msgLock`. -/
  msgLock : Bool
  /-- How many `LoadThread`s have not looked at `m_filePath` yet. -/
  started : Nat
  /-- How many `LoadThread`s have found a path and not locked the state yet. -/
  loading : Nat
  /-- The paths of the calls of `LoadFile` that returned true, oldest first. -/
  accepted : List (List UInt16)
  /-- The paths that `LoadGCodeFile` was invoked with, oldest first. -/
  invoked : List (List UInt16)

/-- The conversion of a number to `int`, which cuts off its fraction. -/
def truncate (value : ℚ) : Int32 := Int32.ofInt (value.num.tdiv value.den)

namespace MachServer

/-- `m_syncLock`, which `GetLock` and `GetState` acquire for a scope. -/
def syncMutex : Mutex MachServer where
  held := syncLock
  setHeld flag server := { server with syncLock := flag }
  held_setHeld _ _ := rfl

/-- `m_msgLock` -/
def msgMutex : Mutex MachServer where
  held := msgLock
  setHeld flag server := { server with msgLock := flag }
  held_setHeld _ _ := rfl

variable (api : MachApi)

/-- A change of the memory of Mach3. -/
def changeMach3 (change : Mach3 → Mach3) : Program MachServer Unit :=
  modify fun server => { server with mach3 := change server.mach3 }

/-- `DoButton` -/
def doButton (button : Int) : Program MachServer Unit := changeMach3 (api.doButton button)

/-- `Code` -/
def code (line : Bytes) : Program MachServer Unit := changeMach3 (api.code line)

/-- `SetDRO` -/
def setDRO (number : Int) (value : ℚ) : Program MachServer Unit :=
  changeMach3 (api.setDRO number value)

/-- `SetLED` -/
def setLED (number : Int) (value : Bool) : Program MachServer Unit :=
  changeMach3 (api.setLED number value)

/-- `state->machineState = ...` -/
def setMachineState (value : ControlState) : Program MachServer Unit :=
  modify fun server => { server with state := { server.state with machineState := value.code } }

/-- `Server::LogError` -/
def logError (error : Bytes) : Program MachServer Unit :=
  if error = [] then
    pure ()
  else
    msgMutex.guard do
      modify fun server =>
        let errors := server.errors ++ [error]
        { server with
          errors
          state := { server.state with errorCount := UInt32.ofNat errors.length } }

/-- `MachServer::StartLoop`, where Mach3 may refuse its application and its scripter. -/
def startLoop (app scripter : Bool) : Program MachServer Unit :=
  if app = false then
    logError (ascii "OLE registry keys missing. Install registry keys.")
  else
    modify fun server => { server with app, scripter := if scripter then true else server.scripter }

/-- What `Poll` does for an axis that may be jogging. -/
def pollAxis (axis : AxisData) (eng : AxisInfo) : AxisData × AxisInfo :=
  if axis.jogging = false then
    (axis, eng)
  else
    let moving := decide (eng.index ≠ axis.index)
    let axis := { axis with index := eng.index }
    if axis.targetJog = 0 then
      ({ axis with jogging := moving }, { eng with dec := true, jogging := true })
    else
      let dir := decide (axis.targetJog < 0)
      if dir = decide (eng.joggDir = 0) ∧ eng.curVelocity ≠ 0 then
        (axis, { eng with dec := true, jogging := true })
      else
        (axis,
          { eng with
            acceleration := axis.acc
            joggDir := if dir then 1 else 0
            maxVelocity := if axis.targetJog < 0 then -axis.targetJog else axis.targetJog
            dec := false
            jogging := true })

/-- The state of the control that `Poll` stores. -/
def polledState (mach3 : Mach3) : ControlState :=
  if mach3.eStop then .off
  else if mach3.trajIndex ≠ mach3.trajHead then .running
  else if (List.finRange maxAxes).any fun ct => (mach3.axis ct).jogging then .moving
  else .idle

/-- `spinOFF`, `spinFWD` and `spinREV`. -/
def spindleState (mach3 : Mach3) : Int32 :=
  if mach3.led 164 then 1 else if mach3.led 165 then 2 else 0

/-- What `Poll` stores while it holds the state. -/
def pollState (mach3 : Mach3) (state : State ℚ) : State ℚ :=
  { state with
    gcodeUnits := if mach3.currentUnits = 1 then 1 / 25.4 else 1
    feedHold := mach3.led 111
    feedOverride := mach3.dro 821 / 100
    optionalStop := mach3.led 65
    blockDelete := mach3.led 66
    machineState := (polledState mach3).code
    currentLine := mach3.displayLine
    singleStep := mach3.led 82
    spindleActual := mach3.dro 39
    spindleCmd := mach3.dro 817
    spindleState := spindleState mach3
    mist := mach3.led 12
    flood := mach3.led 13
    spindleOverride := mach3.dro 74 / 100
    rapidOverride := mach3.dro 223 / 100
    homed := ⟨mach3.referenced⟩
    position := ⟨fun ct => mach3.dro (800 + ct)⟩ }

/-- `MachServer::Poll` -/
def poll : Program MachServer Unit := do
  modify fun server =>
    { server with
      jogAxes := fun ct => (pollAxis (server.jogAxes ct) (server.mach3.axis ct)).1
      mach3 :=
        { server.mach3 with
          axis := fun ct => (pollAxis (server.jogAxes ct) (server.mach3.axis ct)).2 } }
  syncMutex.guard do
    modify fun server => { server with state := pollState server.mach3 server.state }

/-- The test that a `LoadThread` makes before it locks the state. -/
def loadThreadTest : Program MachServer Unit :=
  modify fun server =>
    if server.started = 0 then
      server
    else if server.running = true ∧ server.filePath ≠ [] then
      { server with started := server.started - 1, loading := server.loading + 1 }
    else
      { server with started := server.started - 1 }

/-- The rest of a `LoadThread`, which holds the state until the file is loaded. -/
def loadThreadLoad : Program MachServer Unit := do
  if (← get).loading = 0 then
    return
  modify fun server => { server with loading := server.loading - 1 }
  syncMutex.guard do
    setMachineState .running
    if (← get).app then
      modify fun server =>
        { server with
          mach3 := api.loadGCodeFile server.filePath server.mach3
          invoked := server.invoked ++ [server.filePath] }
    modify fun server => { server with filePath := [] }
    setMachineState .idle

/-- The position of an axis of Mach3. -/
def axisPosition (mach3 : Mach3) (ct : Fin maxAxes) : ℚ :=
  if mach3.currentUnits = 1 then
    (mach3.axis ct).index.toInt / mach3.stepsPerAxis ct * 25.4
  else
    (mach3.axis ct).index.toInt / mach3.stepsPerAxis ct

/-- `MachServer::UpdateState`, whose loops begin with the axis of number 1. -/
def updateState (mach3 : Mach3) (state : State ℚ) : State ℚ :=
  { state with
    machinePos := ⟨fun ct =>
      if ct = 0 then state.machinePos.array 0 else axisPosition mach3 ct⟩ }

/-- `Server::GetState_` -/
def getState_ : Program MachServer (State ℚ) :=
  syncMutex.guard do
    modify fun server => { server with state := updateState server.mach3 server.state }
    return (← get).state

/-- `MachServer::DrivesOn` -/
def drivesOn (mode : Bool) : Program MachServer Unit :=
  syncMutex.guard do
    let cur := decide (ControlState.off.code < (← get).state.machineState)
    if mode ≠ cur then
      doButton api 1021

/-- What `JogVel` stores for an axis. -/
def jogAxis (mach3 : Mach3) (velocity : ℚ) (ct : Fin maxAxes) (axis : AxisData) : AxisData :=
  let cmd := velocity * mach3.velocities ct
  let cmd :=
    if cmd < 0 then
      if cmd < -mach3.velocities ct then -mach3.velocities ct else cmd
    else
      if cmd > mach3.velocities ct then mach3.velocities ct else cmd
  let accScale : ℚ := 2048 / (mach3.pulseCount * 2 : Int32).toInt
  let jogAmount := truncate (cmd * mach3.stepsPerAxis ct * 2048)
  { axis with
    acc := truncate (mach3.acceleration ct * mach3.stepsPerAxis ct * accScale)
    targetJog := jogAmount
    jogging := if jogAmount ≠ 0 then true else axis.jogging }

/-- `MachServer::JogVel`, which locks nothing. -/
def jogVel (velocities : Axes Double) : Program MachServer Unit :=
  modify fun server =>
    { server with
      jogAxes := fun ct =>
        jogAxis server.mach3 (api.number (velocities.array ct)) ct (server.jogAxes ct) }

/-- `MachServer::JogStep`, whose body is a comment. -/
def jogStep (_distance : Axes Double) (_speed : Double) : Program MachServer Unit := pure ()

/-- `MachServer::Mdi` -/
def mdi (line : Bytes) : Program MachServer Bool :=
  syncMutex.guard do
    let machineState := (← get).state.machineState
    if machineState ≤ ControlState.off.code ∨ ControlState.running.code ≤ machineState then
      return false
    else
      code api (cString line)
      return true

/-- The overrides write a percentage to one of the numbers of Mach3. -/
def override (dro : Int) (percent : Double) : Program MachServer Unit :=
  syncMutex.guard do
    setDRO api dro (api.number percent * 100)

/-- `MachServer::SpindleOverride` -/
def spindleOverride : Double → Program MachServer Unit := override api 74

/-- `MachServer::FeedOverride` -/
def feedOverride : Double → Program MachServer Unit := override api 821

/-- `MachServer::RapidOverride` -/
def rapidOverride : Double → Program MachServer Unit := override api 223

/-- `MachServer::LoadFile` -/
def loadFile (file : Bytes) : Program MachServer Bool :=
  syncMutex.guard do
    let server ← get
    if server.scripter = false ∨ ControlState.running.code ≤ server.state.machineState then
      return false
    else
      match api.toWide (cString file) with
      | none =>
          modify fun server => { server with filePath := [] }
          return false
      | some path =>
          modify fun server => { server with filePath := path }
          setMachineState .running
          modify fun server =>
            { server with started := server.started + 1, accepted := server.accepted ++ [path] }
          return true

/-- `MachServer::CloseFile`, which locks the state once more after its test. -/
def closeFile : Program MachServer Bool :=
  syncMutex.guard do
    if ControlState.running.code ≤ (← get).state.machineState then
      return false
    else
      syncMutex.guard do
        doButton api 169
        return true

/-- `MachServer::CycleStart` -/
def cycleStart : Program MachServer Unit :=
  syncMutex.guard do
    doButton api 1000

/-- `MachServer::CycleStop` -/
def cycleStop : Program MachServer Unit :=
  syncMutex.guard do
    doButton api 1003
    doButton api 1002

/-- `MachServer::FeedHold` -/
def feedHold (state : Bool) : Program MachServer Unit :=
  syncMutex.guard do
    let cur := (← get).mach3.led 111
    if state ≠ cur then
      doButton api 1001

/-- `MachServer::BlockDelete` -/
def blockDelete (state : Bool) : Program MachServer Unit :=
  syncMutex.guard do
    let cur := (← get).mach3.led 66
    if state ≠ cur then
      doButton api 176

/-- `MachServer::SingleStep` -/
def singleStep (state : Bool) : Program MachServer Unit :=
  syncMutex.guard do
    let cur := (← get).mach3.led 82
    if state ≠ cur then
      doButton api 1004
    setLED api 82 state

/-- `MachServer::OptionalStop` -/
def optionalStop (state : Bool) : Program MachServer Unit :=
  syncMutex.guard do
    setLED api 65 state
    let cur := (← get).mach3.led 65
    if state ≠ cur then
      doButton api 177

/-- The letters of the axes. -/
def axChars : Bytes := ascii "XYZABC"

/-- The sum of the squared home speeds of the axes to home. -/
def homeFeed (server : MachServer) (axes : BoolAxes) : ℚ :=
  ((List.finRange maxAxes).map fun ct =>
    if axes.array ct then
      let f := (server.jogAxes ct).homeSpeed * server.mach3.velocities ct * 60
      f * f
    else
      0).sum

/-- The line that homes the axes. -/
def homeLine (server : MachServer) (axes : BoolAxes) : Bytes :=
  ascii "G28.1" ++
    ((List.finRange maxAxes).flatMap fun ct =>
      if axes.array ct then
        ascii " " ++ (axChars[ct.val]?).toList ++ api.print (50 * server.state.gcodeUnits)
      else
        []) ++
    ascii " F" ++ api.print (api.sqrt (homeFeed server axes) * server.state.gcodeUnits)

/-- `MachServer::Home`, which locks the state once more unless all axes are to be homed. -/
def home (axes : BoolAxes) : Program MachServer Unit :=
  syncMutex.guard do
    if (List.finRange maxAxes).all axes.array then
      doButton api 105
    else
      syncMutex.guard do
        let server ← get
        if homeFeed server axes = 0 then
          return
        else
          code api (homeLine api server axes)

/-- `MachServer::GetOffset`, which locks nothing. -/
def getOffset (index : UInt32) : Program MachServer (Axes ℚ) := do
  let mach3 := (← get).mach3
  if index = 1 then
    return ⟨mach3.axisOffset⟩
  else if index = 2 then
    return ⟨mach3.originOffset⟩
  else
    return ⟨fun _ => 0⟩

/-- The codes that are not negative. -/
def activeCodes (codes : Fin 13 → Int32) : List Int32 := (List.ofFn codes).filter (0 ≤ ·)

/-- `MachServer::GetGCodes`, which locks nothing. -/
def getGCodes : Program MachServer (List Int32) := do
  return activeCodes (← get).mach3.activeGCodes

/-- `MachServer::GetMCodes`, whose loop has the length of `GetGCodes`. -/
def getMCodes : Program MachServer (List Int32) := do
  return activeCodes (← get).mach3.activeMCodes

/-- `Server::SendInit` on Windows, after its call of `CloseFile`. -/
def createTemp (temp : WindowsTemp) : Program MachServer Bytes := do
  modify fun server =>
    { server with
      server := { server.server with curBlock := 0 }
      files := server.server.deleteTemp server.files }
  match temp with
  | .refused => return []
  | .created path false =>
      modify fun server =>
        { server with
          server := { server.server with file := none }
          files := server.files.create path }
      return []
  | .created path true =>
      modify fun server =>
        { server with
          server := { server.server with file := some server.files.next, curFile := path }
          files := (server.files.create path).fdopen server.files.next }
      return path

/-- `Server::SendInit` -/
def sendInit (temp : WindowsTemp) : Program MachServer Bytes := do
  let _ ← closeFile api
  createTemp temp

/-- `Server::SendData` -/
def sendData (data : Bytes) (block : Int32) (written : Nat) : Program MachServer Bool := do
  let server ← get
  let (record, files, value) := server.server.sendData server.files data block written
  set { server with server := record, files }
  return value

/-- `Server::GetError` -/
def getError (index : UInt32) : Program MachServer Bytes :=
  msgMutex.guard do
    return (← get).errors.getD index.toNat []

/-- `Server::GetMessage` -/
def getMessage (index : UInt32) : Program MachServer Bytes :=
  msgMutex.guard do
    return (← get).messages.getD index.toNat []

/-- The handlers of the server without their results, where the system answers a request for a
temporary file and reports that a number of bytes were written.  What the driver does not override
is empty. -/
def handle (temp : WindowsTemp) (written : Nat) : ServerCall → Program MachServer Unit
  | .getState_ => (fun _ => ()) <$> getState_
  | .drivesOn state => drivesOn api state
  | .jogVel velocities => jogVel api velocities
  | .jogStep distance speed => jogStep distance speed
  | .mdi line => (fun _ => ()) <$> mdi api line
  | .feedOverride percent => feedOverride api percent
  | .spindleOverride percent => spindleOverride api percent
  | .rapidOverride percent => rapidOverride api percent
  | .loadFile fileName => (fun _ => ()) <$> loadFile api fileName
  | .closeFile => (fun _ => ()) <$> closeFile api
  | .cycleStart => cycleStart api
  | .cycleStop => cycleStop api
  | .feedHold state => feedHold api state
  | .blockDelete state => blockDelete api state
  | .singleStep state => singleStep api state
  | .optionalStop state => optionalStop api state
  | .home axes => home api axes
  | .getOffset index => (fun _ => ()) <$> getOffset index
  | .getGCodes => (fun _ => ()) <$> getGCodes
  | .getMCodes => (fun _ => ()) <$> getMCodes
  | .sendInit _ => (fun _ => ()) <$> sendInit api temp
  | .sendData data block => (fun _ => ()) <$> sendData data block written
  | .getError index => (fun _ => ()) <$> getError index
  | .getMessage index => (fun _ => ()) <$> getMessage index
  | .version | .startPreview _ | .getPreview | .endPreview => pure ()

end MachServer

/-- An event in the life of the server: a thread runs a handler, `Poll`, `StartLoop` or a part of a
`LoadThread`, or Mach3 changes its memory. -/
inductive MachEvent where
  | call (temp : WindowsTemp) (written : Nat) (call : ServerCall)
  | startLoop (app scripter : Bool)
  | poll
  | test
  | load
  | mach3 (memory : Mach3)

namespace MachServer

/-- The program of an event. -/
def program (api : MachApi) : MachEvent → Program MachServer Unit
  | .call temp written call => handle api temp written call
  | .startLoop app scripter => startLoop app scripter
  | .poll => poll
  | .test => loadThreadTest
  | .load => loadThreadLoad api
  | .mach3 memory => modify fun server => { server with mach3 := memory }

/-- The members that the constructor sets, before it loads the profile. -/
def empty (curBlock : Int32) (files : Files) (homeSpeed : Fin maxAxes → ℚ) (mach3 : Mach3) :
    MachServer where
  server := .new curBlock
  files := files
  errors := []
  messages := []
  state := .initial
  jogAxes ct := ⟨0, false, 0, 0, homeSpeed ct⟩
  running := true
  filePath := []
  app := false
  scripter := false
  mach3 := mach3
  syncLock := false
  msgLock := false
  started := 0
  loading := 0
  accepted := []
  invoked := []

/-- The server after its constructor, which says so if it cannot load the home speeds. -/
def start (curBlock : Int32) (files : Files) (homeSpeed : Fin maxAxes → ℚ) (loaded : Bool)
    (mach3 : Mach3) : MachServer :=
  let server := empty curBlock files homeSpeed mach3
  if loaded then
    server
  else
    { server with
      errors := [ascii "Failed to load profile"]
      state := { server.state with errorCount := 1 } }

end MachServer

namespace MachServer

/-- What only `GetState_`, `LoadFile`, `LogError`, `Poll` and `LoadThread` change. -/
def core (server : MachServer) :
    State ℚ × Bool × List UInt16 × Bool × Bool × Nat × Nat × List (List UInt16) ×
      List (List UInt16) :=
  (server.state, server.running, server.filePath, server.app, server.scripter, server.started,
    server.loading, server.accepted, server.invoked)

variable (api : MachApi)

theorem changeMach3_frames (change : Mach3 → Mach3) : (changeMach3 change).Frames core :=
  .modify fun _ => rfl

theorem frames_syncMutex {α : Type} {body : Program MachServer α} (frames : body.Frames core) :
    (syncMutex.guard body).Frames core :=
  syncMutex.frames_guard frames fun _ _ => rfl

theorem closeFile_frames : (closeFile api).Frames core := by
  refine frames_syncMutex (.bind .get fun _ => .ite (.pure false) (frames_syncMutex ?_))
  exact .bind (changeMach3_frames _) fun _ => .pure true

theorem createTemp_frames (temp : WindowsTemp) : (createTemp temp).Frames core := by
  unfold createTemp
  refine .bind (.modify fun _ => rfl) fun _ => ?_
  cases temp with
  | refused => exact .pure []
  | created path stream =>
      cases stream with
      | false => exact .bind (.modify fun _ => rfl) fun _ => .pure []
      | true => exact .bind (.modify fun _ => rfl) fun _ => .pure path

theorem home_frames (axes : BoolAxes) : (home api axes).Frames core := by
  refine frames_syncMutex (.ite (changeMach3_frames _) (frames_syncMutex ?_))
  exact .bind .get fun _ => .ite (.pure ()) (changeMach3_frames _)

theorem sendData_frames (data : Bytes) (block : Int32) (written : Nat) :
    (sendData data block written).Frames core := by
  rintro server _ _ ⟨⟩
  rfl

/-- All handlers but two leave the core alone. -/
theorem handle_frames (temp : WindowsTemp) (written : Nat) {call : ServerCall}
    (reads : call ≠ .getState_) (stays : ∀ file, call ≠ .loadFile file) :
    (handle api temp written call).Frames core := by
  cases call with
  | getState_ => exact absurd rfl reads
  | loadFile file => exact absurd rfl (stays file)
  | drivesOn state =>
      exact frames_syncMutex (.bind .get fun _ => .ite (changeMach3_frames _) (.pure ()))
  | jogVel velocities => exact .modify fun _ => rfl
  | mdi line =>
      refine .map _ (frames_syncMutex (.bind .get fun _ => .ite (.pure _) ?_))
      exact .bind (changeMach3_frames _) fun _ => .pure _
  | feedOverride percent | spindleOverride percent | rapidOverride percent =>
      exact frames_syncMutex (changeMach3_frames _)
  | closeFile => exact .map _ (closeFile_frames api)
  | cycleStart => exact frames_syncMutex (changeMach3_frames _)
  | cycleStop =>
      exact frames_syncMutex (.bind (changeMach3_frames _) fun _ => changeMach3_frames _)
  | feedHold state | blockDelete state =>
      exact frames_syncMutex (.bind .get fun _ => .ite (changeMach3_frames _) (.pure ()))
  | singleStep state =>
      refine frames_syncMutex (.bind .get fun _ => .ite ?_ (changeMach3_frames _))
      exact .bind (changeMach3_frames _) fun _ => changeMach3_frames _
  | optionalStop state =>
      refine frames_syncMutex (.bind (changeMach3_frames _) fun _ => .bind .get fun _ => ?_)
      exact .ite (changeMach3_frames _) (.pure ())
  | home axes => exact home_frames api axes
  | getOffset index =>
      exact .map _ (.bind .get fun _ => .ite (.pure _) (.ite (.pure _) (.pure _)))
  | getGCodes | getMCodes => exact .map _ (.bind .get fun _ => .pure _)
  | sendInit nameHint =>
      exact .map _ (.bind (closeFile_frames api) fun _ => createTemp_frames temp)
  | sendData data block => exact .map _ (sendData_frames data block written)
  | getError index | getMessage index =>
      refine .map _ (msgMutex.frames_guard ?_ fun _ _ => rfl)
      exact .bind .get fun _ => .pure _
  | jogStep | version | startPreview | getPreview | endPreview => exact .pure ()

end MachServer

/-- A Mach3 at rest with one step per unit. -/
def Mach3.rest : Mach3 where
  axis _ := ⟨0, 0, 0, 0, false, false, 0⟩
  trajIndex := 0
  trajHead := 0
  eStop := true
  currentUnits := 0
  displayLine := 0
  pulseCount := 1
  referenced _ := false
  stepsPerAxis _ := 1
  velocities _ := 1
  acceleration _ := 1
  axisOffset _ := 0
  originOffset _ := 0
  activeGCodes _ := -1
  activeMCodes _ := -1
  led _ := false
  dro _ := 0

/-- Functions under which the emergency stop is the only button that does something. -/
def MachApi.plain : MachApi where
  doButton button mach3 := if button = 1021 then { mach3 with eStop := !mach3.eStop } else mach3
  setDRO number value mach3 := { mach3 with dro := Function.update mach3.dro number value }
  setLED number value mach3 := { mach3 with led := Function.update mach3.led number value }
  code _ mach3 := mach3
  loadGCodeFile _ mach3 := mach3
  toWide text := if text.length < 260 then some (text.map UInt8.toUInt16) else none
  print _ := []
  sqrt value := value
  number _ := 0

end CncRemote
