import Mathlib.Algebra.Order.Field.Rat
import Mathlib.Data.Fintype.Basic
import Mathlib.Data.UInt

/-!
# Shared declarations of client and server

Constants, enumerations and records of `cnccomms.h`.  Records whose members are doubles are
generic in the scalar type: on the wire a double is its bit pattern, and drivers that compute with
coordinates instantiate the same records with exact numbers.
-/

namespace CncRemote

/-- A `std::string` or a block of file data. -/
abbrev Bytes := List UInt8

/-- The bytes of an ASCII literal. -/
def ascii (text : String) : Bytes := text.toList.map fun char => UInt8.ofNat char.toNat

/-- The characters of a string up to its first zero. -/
def cString (text : Bytes) : Bytes := text.takeWhile (· ≠ 0)

/-- The bit pattern of a `double`. -/
abbrev Double := UInt64

/-- A `float` up to its rounding: exact finite values, the infinities and NaN. -/
inductive Single where
  | nan
  | negInf
  | finite (value : ℚ)
  | posInf
  deriving DecidableEq, Repr

namespace Single

/-- The comparison `<`, which is false as soon as one side is NaN. -/
def lt : Single → Single → Bool
  | .nan, _ | _, .nan => false
  | _, .negInf | .posInf, _ => false
  | .negInf, _ | _, .posInf => true
  | .finite left, .finite right => decide (left < right)

/-- The comparison `<=`, which is false as soon as one side is NaN. -/
def le : Single → Single → Bool
  | .nan, _ | _, .nan => false
  | .negInf, _ | _, .posInf => true
  | _, .negInf | .posInf, _ => false
  | .finite left, .finite right => decide (left ≤ right)

theorem lt_eq_false_of_not_le {left right : Single} (not_le : left.le right = false) :
    left.lt right = false := by
  cases left with
  | nan | posInf => cases right <;> rfl
  | negInf => cases right <;> first | rfl | cases not_le
  | finite left =>
      cases right with
      | finite right =>
          simp only [le, lt, decide_eq_false_iff_not] at not_le ⊢
          exact fun less => not_le (Rat.le_of_lt less)
      | nan | negInf => rfl
      | posInf => cases not_le

end Single

/-- `CNCREMOTE_MIN_PROTOCOL_VERSION` -/
def minProtocolVersion : Single := .finite 3

/-- `MAX_AXES` -/
abbrev maxAxes : Nat := 6

instance : NeZero maxAxes := ⟨by decide⟩

/-- `FILE_BLOCK_SIZE` -/
def fileBlockSize : Nat := 16000

/-- `CONTROLSTATE` -/
inductive ControlState where
  | noServer
  | offline
  | off
  | idle
  | moving
  | mdi
  | running
  deriving DecidableEq, Repr

/-- The value of an enumerator, as carried by the `int` alias `_machineState`. -/
def ControlState.code : ControlState → Int32
  | .noServer => 0
  | .offline => 1
  | .off => 2
  | .idle => 3
  | .moving => 4
  | .mdi => 5
  | .running => 6

/-- `COMERROR`, as far as `Client::Poll` uses it. -/
inductive ComError where
  | ok
  | connect
  | wrongVer
  deriving DecidableEq, Repr

/-- One scalar per axis. -/
structure Axes (R : Type*) where
  /-- The array that every named coordinate is an alias of. -/
  array : Fin maxAxes → R

/-- One flag per axis. -/
structure BoolAxes where
  /-- The array that every named flag is an alias of. -/
  array : Fin maxAxes → Bool

/-- `BoolAxes::Zero` -/
def BoolAxes.zero : BoolAxes := ⟨fun _ => false⟩

/-- The state of the machine as the server reports it. -/
structure State (R : Type*) where
  position : Axes R
  machinePos : Axes R
  feedHold : Bool
  feedOverride : R
  optionalStop : Bool
  blockDelete : Bool
  /-- `_machineState`, the alias through which the enumerator travels. -/
  machineState : Int32
  currentLine : Int32
  singleStep : Bool
  spindleCmd : R
  spindleActual : R
  /-- `_spindleState`, the alias through which the enumerator travels. -/
  spindleState : Int32
  mist : Bool
  flood : Bool
  homed : BoolAxes
  axisAngular : BoolAxes
  maxFeedLin : R
  maxFeedAng : R
  gcodeUnits : R
  spindleOverride : R
  rapidOverride : R
  feedCmd : R
  feedActual : R
  tool : Int32
  errorCount : UInt32
  messageCount : UInt32
  fileCount : UInt32
  interpState : Bytes

/-- `State::State`: everything up to the interpreter text is cleared to zero. -/
def State.initial {R : Type*} [Zero R] : State R where
  position := ⟨fun _ => 0⟩
  machinePos := ⟨fun _ => 0⟩
  feedHold := false
  feedOverride := 0
  optionalStop := false
  blockDelete := false
  machineState := ControlState.noServer.code
  currentLine := 0
  singleStep := false
  spindleCmd := 0
  spindleActual := 0
  spindleState := 0
  mist := false
  flood := false
  homed := .zero
  axisAngular := .zero
  maxFeedLin := 0
  maxFeedAng := 0
  gcodeUnits := 0
  spindleOverride := 0
  rapidOverride := 0
  feedCmd := 0
  feedActual := 0
  tool := 0
  errorCount := 0
  messageCount := 0
  fileCount := 0
  interpState := []

instance {R : Type*} [Zero R] : Inhabited (State R) := ⟨.initial⟩

end CncRemote
