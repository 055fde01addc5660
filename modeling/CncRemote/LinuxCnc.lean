import CncRemote.Dispatch
import CncRemote.Heap
import CncRemote.Program

/-!
# The server for LinuxCNC

`LinuxCnc` talks to the control over three channels of the NML library.  Every member function is a
program over the server, which faults where it follows a null pointer or a pointer to a channel that
was deleted.  The library answers from a tape, which nothing is known of.
-/

namespace CncRemote

open Program

/-- What the driver needs to know of `double`: rounded or exact arithmetic, and comparisons for
which the zeros are equal to each other. -/
structure Arith (R : Type) where
  ofInt : Int → R
  mul : R → R → R
  sub : R → R → R
  div : R → R → R
  /-- The comparison `==`. -/
  eq : R → R → Bool
  /-- The comparison `<`. -/
  lt : R → R → Bool
  /-- The number that a bit pattern stands for. -/
  number : Double → R
  zero_eq_zero : eq (ofInt 0) (ofInt 0) = true
  eq_of_zero : ∀ {left right}, eq left (ofInt 0) = true → eq right (ofInt 0) = true →
    eq left right = true
  zero_of_eq : ∀ {left right}, eq left (ofInt 0) = true → eq left right = true →
    eq right (ofInt 0) = true

/-- Exact arithmetic. -/
def Arith.exact (number : Double → ℚ) : Arith ℚ where
  ofInt value := value
  mul := (· * ·)
  sub := (· - ·)
  div := (· / ·)
  eq left right := decide (left = right)
  lt left right := decide (left < right)
  number := number
  zero_eq_zero := by simp
  eq_of_zero := by simp +contextual
  zero_of_eq {left right} := by
    simp only [decide_eq_true_eq]
    rintro rfl equal
    exact equal.symm

namespace Double

/-- The exponent has its greatest value and the fraction is not zero. -/
def isNaN (value : Double) : Bool :=
  value &&& 0x7ff0000000000000 = 0x7ff0000000000000 ∧ value &&& 0x000fffffffffffff ≠ 0

/-- Nothing but the sign is set. -/
def isZero (value : Double) : Bool := value &&& 0x7fffffffffffffff = 0

/-- The comparison `==` of bit patterns. -/
def eq (left right : Double) : Bool :=
  !isNaN left && !isNaN right && (decide (left = right) || isZero left && isZero right)

theorem eq_zero {value : Double} :
    eq value 0 = true ↔ isNaN value = false ∧ isZero value = true := by
  simp only [eq, Bool.and_eq_true, Bool.not_eq_true', Bool.or_eq_true, decide_eq_true_eq]
  constructor
  · rintro ⟨⟨number, -⟩, rfl | ⟨isZero, -⟩⟩
    · exact ⟨number, by decide⟩
    · exact ⟨number, isZero⟩
  · rintro ⟨number, isZero⟩
    exact ⟨⟨number, by decide⟩, .inr ⟨isZero, by decide⟩⟩

end Double

/-- Bit patterns with the comparison of `double` and any arithmetic on them. -/
def Arith.double (ofInt : Int → Double) (mul sub div : Double → Double → Double)
    (lt : Double → Double → Bool) (zero : ofInt 0 = 0) : Arith Double where
  ofInt := ofInt
  mul := mul
  sub := sub
  div := div
  eq := Double.eq
  lt := lt
  number := id
  zero_eq_zero := by rw [zero]; decide
  eq_of_zero {left right} := by
    rw [zero, Double.eq_zero, Double.eq_zero, Double.eq]
    rintro ⟨leftNumber, leftZero⟩ ⟨rightNumber, rightZero⟩
    simp [leftNumber, leftZero, rightNumber, rightZero]
  zero_of_eq {left right} := by
    rw [zero, Double.eq_zero, Double.eq_zero, Double.eq]
    simp only [Bool.and_eq_true, Bool.not_eq_true', Bool.or_eq_true, decide_eq_true_eq]
    rintro ⟨-, leftZero⟩ ⟨⟨-, rightNumber⟩, rfl | ⟨-, rightZero⟩⟩
    · exact ⟨rightNumber, leftZero⟩
    · exact ⟨rightNumber, rightZero⟩

/-- What is fixed when the driver is built. -/
structure Build where
  /-- `LINUXCNC_PRE_JOINTS` -/
  preJoints : Bool
  /-- `LINELEN` -/
  lineLen : Nat

/-- `EMC_TASK_MODE_ENUM` -/
inductive TaskMode where
  | manual
  | auto
  | mdi
  deriving DecidableEq, Repr

/-- `EMC_TASK_STATE_ENUM` -/
inductive TaskState where
  | estop
  | estopReset
  | off
  | on
  deriving DecidableEq, Repr

/-- `EMC_STAT`, as far as the driver reads it.  A joint is an axis before the time of joints. -/
structure EmcStat (R : Type) where
  /-- `size` is `sizeof(EMC_STAT)`. -/
  sizeMatches : Bool
  echoSerialNumber : Int32
  taskMode : TaskMode
  taskState : TaskState
  interpState : Int32
  heartbeat : UInt32
  taskPaused : Bool
  optionalStopState : Bool
  blockDeleteState : Bool
  motionLine : Int32
  toolOffset : Axes R
  g5xOffset : Axes R
  g92Offset : Axes R
  activeGCodes : List Int32
  activeMCodes : List Int32
  /-- `motion.traj.mode` is `EMC_TRAJ_MODE_FREE`. -/
  trajFree : Bool
  actualPosition : Axes R
  currentVel : R
  maxVelocity : R
  linearUnits : R
  angularUnits : R
  /-- `motion.joint[ct].units` -/
  units : Fin maxAxes → R
  /-- `motion.joint[ct].homed` -/
  homed : Fin maxAxes → Bool
  /-- The type of the joint is `EMC_LINEAR`. -/
  linear : Fin maxAxes → Bool
  /-- `motion.spindle.enabled` -/
  spindleEnabled : Int32
  spindleSpeed : R
  mist : Bool
  flood : Bool

/-- The messages to the control.  A jog has a `jjogmode` unless joints are not known yet; it is true
for `JOGJOINT`. -/
inductive NmlCommand (R : Type) where
  | setState (state : TaskState)
  | setMode (mode : TaskMode)
  | jog (jjogmode : Option Bool) (axis : Fin maxAxes) (vel : R)
  | jogStop (jjogmode : Option Bool) (axis : Fin maxAxes)
  | jogIncr (jjogmode : Option Bool) (axis : Fin maxAxes) (vel incr : R)
  | setTeleopEnable (enable : Bool)
  | planExecute (command : Bytes)
  | setSpindleScale (scale : R)
  | setScale (scale : R)
  | setRapidScale (scale : R)
  | planOpen (file : Bytes)
  | planRun (line : Int32)
  | abort
  | planPause
  | planResume
  | planSetBlockDelete (state : Bool)
  | planStep
  | planSetOptionalStop (state : Bool)
  | home (joint : Int32)

/-- An answer of the NML library or of the clock: a number, and the status that the control has at
that moment. -/
structure NmlAnswer (R : Type) where
  value : Int
  status : EmcStat R
  /-- How a comparison with the answer comes out if it overflows, which C++ leaves undefined. -/
  overflow : Bool

/-- The server for LinuxCNC with its globals. -/
structure LinuxCnc (R : Type) where
  /-- The channels. -/
  heap : Heap
  emcCommandBuffer : Pointer
  emcStatusBuffer : Pointer
  /-- `m_emcStatus`, which points into the channel of this number. -/
  emcStatus : Pointer
  emcErrorBuffer : Pointer
  /-- The status that a channel holds. -/
  content : Nat → EmcStat R
  heartbeat : UInt32
  nextTime : Int
  /-- `g_jogAxes` -/
  jogAxes : Fin maxAxes → R
  maxSpeedLin : R
  maxSpeedAng : R
  state : State R
  /-- The status of the control when the library last answered. -/
  control : EmcStat R
  /-- The answers to come. -/
  tape : Nat → NmlAnswer R
  /-- The calls of `CommandSend` and what they returned, oldest first. -/
  sent : List (NmlCommand R × Bool)
  /-- `exit` has been called. -/
  exited : Bool

namespace LinuxCnc

variable {R : Type} (arith : Arith R) (build : Build)

/-- The next answer. -/
def ask : Program (LinuxCnc R) (NmlAnswer R) := do
  let server ← get
  set { server with tape := fun index => server.tape (index + 1) }
  return server.tape 0

/-- An answer of the library. -/
def library : Program (LinuxCnc R) Int := do
  let answer ← ask
  modify fun server => { server with control := answer.status }
  return answer.value

/-- `time(NULL)` -/
def time : Program (LinuxCnc R) Int := return (← ask).value

/-- Follow a pointer to a channel. -/
def follow (pointer : Pointer) : Program (LinuxCnc R) Unit := do
  if (← get).heap.Live pointer then
    return
  else
    fault

/-- `delete` -/
def deleteChannel (pointer : Pointer) : Program (LinuxCnc R) Unit := do
  match (← get).heap.delete pointer with
  | none => fault
  | some heap => modify fun server => { server with heap }

/-- `valid()` -/
def valid (channel : Pointer) : Program (LinuxCnc R) Bool := do
  follow channel
  return (← library) ≠ 0

/-- `m_emcStatusBuffer->peek()`, which fails with -1 and otherwise copies the status of the control
into the channel. -/
def peekStatus : Program (LinuxCnc R) Int := do
  let channel := (← get).emcStatusBuffer
  follow channel
  let type ← library
  if type = -1 then
    return -1
  else
    modify fun server =>
      { server with
        content := Function.update server.content (channel.getD 0) server.control }
    return type

/-- Read from `m_emcStatus`. -/
def readStatus : Program (LinuxCnc R) (EmcStat R) := do
  let server ← get
  follow server.emcStatus
  return server.content (server.emcStatus.getD 0)

@[simp] theorem ends_ask (server : LinuxCnc R) (post : NmlAnswer R → LinuxCnc R → Prop) :
    Ends ask server post ↔
      post (server.tape 0) { server with tape := fun index => server.tape (index + 1) } := by
  simp [ask]

@[simp] theorem ends_library (server : LinuxCnc R) (post : Int → LinuxCnc R → Prop) :
    Ends library server post ↔
      post (server.tape 0).value
        { server with
          tape := fun index => server.tape (index + 1)
          control := (server.tape 0).status } := by
  simp [library]

@[simp] theorem ends_time (server : LinuxCnc R) (post : Int → LinuxCnc R → Prop) :
    Ends time server post ↔
      post (server.tape 0).value
        { server with tape := fun index => server.tape (index + 1) } := by
  simp [time]

@[simp] theorem ends_follow (pointer : Pointer) (server : LinuxCnc R)
    (post : Unit → LinuxCnc R → Prop) :
    Ends (follow pointer) server post ↔ server.heap.Live pointer ∧ post () server := by
  by_cases live : server.heap.Live pointer <;> simp [follow, live]

/-- `LinuxCnc::DisconnectNml` -/
def disconnectNml : Program (LinuxCnc R) Unit := do
  deleteChannel (← get).emcCommandBuffer
  deleteChannel (← get).emcStatusBuffer
  deleteChannel (← get).emcErrorBuffer
  modify fun server =>
    { server with
      emcCommandBuffer := none
      emcStatusBuffer := none
      emcStatus := none
      emcErrorBuffer := none }

/-- `LinuxCnc::OK` -/
def ok : Program (LinuxCnc R) Bool := do
  let server ← get
  if server.emcStatus = none then
    return false
  else if server.emcStatusBuffer = none then
    return false
  else if (← valid server.emcStatusBuffer) = false then
    return false
  else if server.emcErrorBuffer = none then
    return false
  else
    valid server.emcErrorBuffer

/-- Create a channel. -/
def newChannel : Program (LinuxCnc R) Pointer := do
  let server ← get
  set { server with heap := server.heap.new }
  return some server.heap.next

/-- The part of `ConnectNml` that opens the channel for commands. -/
def openCommand : Program (LinuxCnc R) Bool := do
  if (← get).emcCommandBuffer = none then
    let channel ← newChannel
    modify fun server => { server with emcCommandBuffer := channel }
    if (← valid channel) = false then
      disconnectNml
      return false
    else
      return true
  else
    return true

/-- The part of `ConnectNml` that opens the channel for the status.  The type of the message that
`peek` finds is `EMC_STAT_TYPE` when the answer is positive. -/
def openStatus : Program (LinuxCnc R) Bool := do
  if (← get).emcStatusBuffer = none then
    let channel ← newChannel
    modify fun server => { server with emcStatusBuffer := channel }
    if (← valid channel) = false then
      disconnectNml
      return false
    else if (← peekStatus) ≤ 0 then
      disconnectNml
      return false
    else
      modify fun server => { server with emcStatus := channel }
      return true
  else
    return true

/-- The part of `ConnectNml` that opens the channel for errors. -/
def openError : Program (LinuxCnc R) Bool := do
  if (← get).emcErrorBuffer = none then
    let channel ← newChannel
    modify fun server => { server with emcErrorBuffer := channel }
    if (← valid channel) = false then
      disconnectNml
      return false
    else
      return true
  else
    return true

/-- `LinuxCnc::ConnectNml` -/
def connectNml : Program (LinuxCnc R) Bool := do
  if (← openCommand) = false then
    return false
  else if (← openStatus) = false then
    return false
  else if (← openError) = false then
    return false
  else
    ok

/-- The part of `ConnectLCnc` that reads the status.  It ends the process if the control is of
another version. -/
def readControl : Program (LinuxCnc R) Bool := do
  let status ← readStatus
  if status.sizeMatches = false then
    modify fun server => { server with exited := true }
    return false
  else
    let now ← time
    modify fun server =>
      { server with
        heartbeat := status.heartbeat
        nextTime := now + 1
        maxSpeedLin :=
          if arith.lt status.maxVelocity (arith.ofInt (10 ^ 17)) then status.maxVelocity
          else server.maxSpeedLin
        maxSpeedAng :=
          if arith.lt status.maxVelocity (arith.ofInt (10 ^ 17)) then status.maxVelocity
          else server.maxSpeedAng }
    return true

/-- `LinuxCnc::ConnectLCnc` after its loop. -/
def connectRest : Program (LinuxCnc R) Bool := do
  if (← peekStatus) = -1 then
    return false
  else if (← readControl arith) = false then
    return false
  else
    ok

/-- A turn of the loop of `LinuxCnc::ConnectLCnc` and, if it connects, the rest of the function. -/
def connectLCnc : Program (LinuxCnc R) Bool := do
  if (← connectNml) = false then
    return false
  else
    connectRest arith

/-- `state.machineState = ...` -/
def setMachineState (value : ControlState) : Program (LinuxCnc R) Unit :=
  modify fun server => { server with state := { server.state with machineState := value.code } }

/-- The state of the control that `UpdateState` stores. -/
def machineState (status : EmcStat R) : ControlState :=
  if status.taskState = .on then
    if 1 < status.interpState then
      if status.taskMode = .mdi then .mdi else .running
    else if arith.eq status.currentVel (arith.ofInt 0) then .idle
    else .moving
  else .off

/-- The rest of `UpdateState`, which fills the state. -/
def fillState (server : LinuxCnc R) (status : EmcStat R) (state : State R) : State R :=
  { state with
    machinePos := ⟨fun ct => arith.div (status.actualPosition.array ct) (status.units ct)⟩
    position :=
      ⟨fun ct =>
        arith.div
          (arith.sub (arith.sub (status.actualPosition.array ct) (status.g5xOffset.array ct))
            (status.g92Offset.array ct))
          (status.units ct)⟩
    machineState := (machineState arith status).code
    spindleState :=
      if status.spindleEnabled = 0 then 0
      else if status.spindleEnabled = -1 then 2
      else if status.spindleEnabled = 1 then 1
      else state.spindleState
    spindleCmd := status.spindleSpeed
    spindleActual := status.spindleSpeed
    feedHold := status.taskPaused
    maxFeedLin := arith.div (arith.mul server.maxSpeedLin (arith.ofInt 60)) status.linearUnits
    maxFeedAng := arith.div (arith.mul server.maxSpeedAng (arith.ofInt 60)) status.angularUnits
    optionalStop := status.optionalStopState
    blockDelete := status.blockDeleteState
    mist := status.mist
    flood := status.flood
    currentLine := status.motionLine
    homed := ⟨status.homed⟩
    gcodeUnits := status.linearUnits }

/-- The second test of `UpdateState`: the channels are valid and the status can be read. -/
def reachable : Program (LinuxCnc R) Bool := do
  if (← ok) = false then
    return false
  else
    return (← peekStatus) ≠ -1

/-- The check of the heartbeat that `UpdateState` makes once a second. -/
def alive : Program (LinuxCnc R) Bool := do
  if (← time) ≤ (← get).nextTime then
    return true
  else
    let status ← readStatus
    if (← get).heartbeat = status.heartbeat then
      return false
    else
      let now ← time
      modify fun server => { server with heartbeat := status.heartbeat, nextTime := now + 1 }
      return true

/-- `LinuxCnc::UpdateState` -/
def updateState : Program (LinuxCnc R) Unit := do
  if (← get).emcStatus = none then
    setMachineState .offline
  else if (← reachable) = false then
    return
  else if (← alive) = false then
    setMachineState .offline
    disconnectNml
  else
    let status ← readStatus
    modify fun server => { server with state := fillState arith server status server.state }

/-- `Server::GetState_` -/
def getState_ : Program (LinuxCnc R) (State R) := do
  updateState arith
  return (← get).state

/-- The comparison `echo_serial_number - serial >= 0`. -/
def echoReached (echo serial : Int32) (overflow : Bool) : Bool :=
  let difference := echo.toInt - serial.toInt
  if -2 ^ 31 ≤ difference ∧ difference < 2 ^ 31 then 0 ≤ difference else overflow

/-- The loop of `CommandSend` that waits for the echo of a serial number. -/
def awaitEcho (serial : Int32) : Nat → Program (LinuxCnc R) Bool
  | 0 => return false
  | rounds + 1 => do
      let overflow := ((← get).tape 0).overflow
      if (← peekStatus) < 0 then
        return false
      else if echoReached (← readStatus).echoSerialNumber serial overflow then
        return true
      else
        awaitEcho serial rounds

/-- `CommandSend` without its record: it writes the command, whose serial number the library
chooses. -/
def transmit : Program (LinuxCnc R) Bool := do
  let server ← get
  if server.emcStatus = none then
    return false
  else
    follow server.emcCommandBuffer
    if (← library) ≠ 0 then
      return false
    else
      awaitEcho (Int32.ofInt (← ask).value) 1000

/-- `LinuxCnc::CommandSend` -/
def commandSend (cmd : NmlCommand R) : Program (LinuxCnc R) Bool := do
  let accepted ← transmit
  modify fun server => { server with sent := server.sent ++ [(cmd, accepted)] }
  return accepted

/-- A call of `CommandSend` whose result is dropped. -/
def command (cmd : NmlCommand R) : Program (LinuxCnc R) Unit := (fun _ => ()) <$> commandSend cmd

/-- `LinuxCnc::SetMode` -/
def setMode (mode : TaskMode) : Program (LinuxCnc R) Bool := do
  if (← readStatus).taskMode = mode then
    return true
  else
    commandSend (.setMode mode)

/-- The `jjogmode` of the jogs that `SendJog` sends. -/
def jogMode : Program (LinuxCnc R) (Option Bool) := do
  if build.preJoints then
    return none
  else
    return some (← readStatus).trajFree

/-- `LinuxCnc::SendJog` -/
def sendJog (axis : Fin maxAxes) (vel : R) : Program (LinuxCnc R) Unit := do
  if arith.eq vel ((← get).jogAxes axis) then
    return
  else
    let mode ← jogMode build
    command
      (if arith.eq vel (arith.ofInt 0) then .jogStop mode axis else .jog mode axis vel)
    modify fun server => { server with jogAxes := Function.update server.jogAxes axis vel }

/-- The greatest speed of an axis: the first three axes are linear. -/
def maxSpeed (server : LinuxCnc R) (axis : Fin maxAxes) : R :=
  if axis.val < 3 then server.maxSpeedLin else server.maxSpeedAng

/-- `LinuxCnc::SendJogVel` -/
def sendJogVel (velocities : Axes R) : Program (LinuxCnc R) Unit :=
  (List.finRange maxAxes).forM fun axis => do
    let server ← get
    sendJog arith build axis (arith.mul (velocities.array axis) (server.maxSpeed axis))

/-- `LinuxCnc::SendJogStep` -/
def sendJogStep (axis : Fin maxAxes) (val : R) : Program (LinuxCnc R) Unit := do
  let status ← readStatus
  let server ← get
  let speed := if status.linear axis then server.maxSpeedLin else server.maxSpeedAng
  command
    (.jogIncr (if build.preJoints then none else some false) axis
      (arith.div speed (arith.ofInt 60)) val)

/-- What every request but `GetState_` does first: it is answered at once when there is no
status. -/
def connected {α : Type} (absent : α) (body : Program (LinuxCnc R) α) :
    Program (LinuxCnc R) α := do
  if (← get).emcStatus = none then
    return absent
  else
    body

/-- `LinuxCnc::DrivesOn` -/
def drivesOn (state : Bool) : Program (LinuxCnc R) Unit :=
  connected () do
    if state then
      command (.setState .estopReset)
      command (.setState .on)
    else
      command (.setState .off)

/-- `LinuxCnc::JogVel` -/
def jogVel (velocities : Axes Double) : Program (LinuxCnc R) Unit :=
  connected () do
    let _ ← setMode .manual
    sendJogVel arith build ⟨fun axis => arith.number (velocities.array axis)⟩

/-- `LinuxCnc::JogStep`, which does not use the speed. -/
def jogStep (distance : Axes Double) (_speed : Double) : Program (LinuxCnc R) Unit :=
  connected () do
    let _ ← setMode .manual
    if (← commandSend (.setTeleopEnable true)) = false then
      return
    else
      (List.finRange maxAxes).forM fun axis => do
        let val := arith.number (distance.array axis)
        if arith.eq val (arith.ofInt 0) then
          return
        else
          sendJogStep arith build axis val

/-- The text that `strncpy` leaves in a buffer of `LINELEN` characters whose last one is cleared. -/
def line (text : Bytes) : Bytes := (cString text).take (build.lineLen - 1)

/-- `LinuxCnc::Mdi` -/
def mdi (text : Bytes) : Program (LinuxCnc R) Bool :=
  connected false do
    let _ ← setMode .mdi
    commandSend (.planExecute (line build text))

/-- The overrides are not negative. -/
def override (percent : Double) : R :=
  if arith.lt (arith.number percent) (arith.ofInt 0) then arith.ofInt 0 else arith.number percent

/-- `LinuxCnc::SpindleOverride` -/
def spindleOverride (percent : Double) : Program (LinuxCnc R) Unit :=
  connected () (command (.setSpindleScale (override arith percent)))

/-- `LinuxCnc::FeedOverride` -/
def feedOverride (percent : Double) : Program (LinuxCnc R) Unit :=
  connected () (command (.setScale (override arith percent)))

/-- `LinuxCnc::RapidOverride` -/
def rapidOverride (percent : Double) : Program (LinuxCnc R) Unit :=
  connected () (command (.setRapidScale (override arith percent)))

/-- `LinuxCnc::LoadFile` -/
def loadFile (fileName : Bytes) : Program (LinuxCnc R) Bool :=
  connected false (commandSend (.planOpen (line build fileName)))

/-- `LinuxCnc::CloseFile` -/
def closeFile : Program (LinuxCnc R) Bool := connected false (commandSend (.planOpen []))

/-- `LinuxCnc::CycleStart` -/
def cycleStart : Program (LinuxCnc R) Unit :=
  connected () do
    let _ ← setMode .auto
    command (.planRun 0)

/-- `LinuxCnc::CycleStop` -/
def cycleStop : Program (LinuxCnc R) Unit := connected () (command .abort)

/-- `LinuxCnc::FeedHold` -/
def feedHold (state : Bool) : Program (LinuxCnc R) Unit :=
  connected () (command (if state then .planPause else .planResume))

/-- `LinuxCnc::BlockDelete` -/
def blockDelete (state : Bool) : Program (LinuxCnc R) Unit :=
  connected () (command (.planSetBlockDelete state))

/-- `LinuxCnc::SingleStep`, which does not use its argument. -/
def singleStep (_state : Bool) : Program (LinuxCnc R) Unit := connected () (command .planStep)

/-- `LinuxCnc::OptionalStop` -/
def optionalStop (state : Bool) : Program (LinuxCnc R) Unit :=
  connected () (command (.planSetOptionalStop state))

/-- `LinuxCnc::Home` -/
def home (axes : BoolAxes) : Program (LinuxCnc R) Unit :=
  connected () do
    let _ ← setMode .manual
    command (.setTeleopEnable true)
    if axes.array 0 ∧ axes.array 1 ∧ axes.array 2 then
      command (.home (-1))
    else
      (List.finRange maxAxes).forM fun ct => command (.home (Int32.ofNat ct))

/-- `LinuxCnc::GetOffset` -/
def getOffset (index : UInt32) : Program (LinuxCnc R) (Axes R) :=
  connected ⟨fun _ => arith.ofInt 0⟩ do
    let status ← readStatus
    let scaled (pose : Axes R) : Axes R :=
      ⟨fun ct => arith.div (pose.array ct) (status.units ct)⟩
    if index = 0 then
      return scaled status.toolOffset
    else if index = 1 then
      return scaled status.g5xOffset
    else if index = 2 then
      return scaled status.g92Offset
    else
      return ⟨fun _ => arith.ofInt 0⟩

/-- `LinuxCnc::GetGCodes` -/
def getGCodes : Program (LinuxCnc R) (List Int32) :=
  connected [] do
    return (← readStatus).activeGCodes.filter (0 ≤ ·)

/-- `LinuxCnc::GetMCodes` -/
def getMCodes : Program (LinuxCnc R) (List Int32) :=
  connected [] do
    return (← readStatus).activeMCodes.filter (0 ≤ ·)

/-- The handlers of the server without their results.  The uploads and the logs have nothing to do
with the driver, except that `SendInit` closes the file. -/
def handle : ServerCall → Program (LinuxCnc R) Unit
  | .getState_ => (fun _ => ()) <$> getState_ arith
  | .drivesOn state => drivesOn state
  | .jogVel velocities => jogVel arith build velocities
  | .jogStep distance speed => jogStep arith build distance speed
  | .mdi line => (fun _ => ()) <$> mdi build line
  | .feedOverride percent => feedOverride arith percent
  | .spindleOverride percent => spindleOverride arith percent
  | .rapidOverride percent => rapidOverride arith percent
  | .loadFile fileName => (fun _ => ()) <$> loadFile build fileName
  | .closeFile | .sendInit _ => (fun _ => ()) <$> closeFile
  | .cycleStart => cycleStart
  | .cycleStop => cycleStop
  | .feedHold state => feedHold state
  | .blockDelete state => blockDelete state
  | .singleStep state => singleStep state
  | .optionalStop state => optionalStop state
  | .home axes => home axes
  | .getOffset index => (fun _ => ()) <$> getOffset arith index
  | .getGCodes => (fun _ => ()) <$> getGCodes
  | .getMCodes => (fun _ => ()) <$> getMCodes
  | .sendData _ _ | .getError _ | .getMessage _ | .version | .startPreview _ | .getPreview
  | .endPreview => pure ()

end LinuxCnc

/-- The calls that the main loop and the requests make.  What comes after `exit` is not left out. -/
inductive LinuxEvent where
  | connectNml
  | connectLCnc
  | disconnectNml
  | call (call : ServerCall)

namespace LinuxCnc

variable {R : Type} (arith : Arith R) (build : Build)

/-- The program of an event. -/
def program : LinuxEvent → Program (LinuxCnc R) Unit
  | .connectNml => (fun _ => ()) <$> connectNml
  | .connectLCnc => (fun _ => ()) <$> connectLCnc arith
  | .disconnectNml => disconnectNml
  | .call call => handle arith build call

/-- The server after its constructor, which leaves `m_nextTime` as it is. -/
def start (nextTime : Int) (control : EmcStat R) (tape : Nat → NmlAnswer R) : LinuxCnc R where
  heap := .empty
  emcCommandBuffer := none
  emcStatusBuffer := none
  emcStatus := none
  emcErrorBuffer := none
  content _ := control
  heartbeat := 0
  nextTime := nextTime
  jogAxes _ := arith.ofInt 0
  maxSpeedLin := arith.ofInt 4000
  maxSpeedAng := arith.ofInt 100
  state := @State.initial R ⟨arith.ofInt 0⟩
  control := control
  tape := tape
  sent := []
  exited := false

end LinuxCnc

/-- The status of a control at rest in manual mode. -/
def EmcStat.rest : EmcStat ℚ where
  sizeMatches := true
  echoSerialNumber := 0
  taskMode := .manual
  taskState := .on
  interpState := 1
  heartbeat := 0
  taskPaused := false
  optionalStopState := false
  blockDeleteState := false
  motionLine := 0
  toolOffset := ⟨fun _ => 0⟩
  g5xOffset := ⟨fun _ => 0⟩
  g92Offset := ⟨fun _ => 0⟩
  activeGCodes := []
  activeMCodes := []
  trajFree := true
  actualPosition := ⟨fun _ => 0⟩
  currentVel := 0
  maxVelocity := 1
  linearUnits := 1
  angularUnits := 1
  units _ := 1
  homed _ := false
  linear _ := true
  spindleEnabled := 0
  spindleSpeed := 0
  mist := false
  flood := false

end CncRemote
