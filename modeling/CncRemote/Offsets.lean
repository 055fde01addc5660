import CncRemote.Mach
import CncRemote.NmlPointers

/-!
# The offsets of the drivers

Every driver answers `GetOffset` from a structure of its control, and two of them walk over it with
a pointer to `double`.  `OffsetMap` says where a control keeps its offsets and which index they
have; `meets_iff_answers` compares it with what the drivers read.
-/

namespace CncRemote

open Program

/-- The offsets that have an index. -/
inductive OffsetKind where
  | tool
  /-- G54 to G59.3. -/
  | g5x
  | g92
  | spindle
  | total
  deriving DecidableEq, Repr

/-- Where a control keeps its offsets: each cell of its memory holds one number. -/
structure OffsetMap (γ : Type) where
  /-- The offset that an index stands for. -/
  kind : UInt32 → Option OffsetKind
  /-- The component of an offset for an axis, if the control has it. -/
  place : OffsetKind → Fin maxAxes → Option γ
  /-- The units of an axis, if the control reports raw units. -/
  units : Fin maxAxes → Option γ

/-- What `GetOffset` returns, and the cells that it reads. -/
structure Reading (γ R : Type) where
  offset : Axes R
  reads : List γ

variable {γ R : Type} (arith : Arith R)

namespace OffsetMap

/-- The offset that an index stands for, with zeros for what the control does not have. -/
def documented (map : OffsetMap γ) (memory : γ → R) (index : UInt32) : Axes R :=
  ⟨fun ct =>
    match (map.kind index).bind fun kind => map.place kind ct with
    | none => arith.ofInt 0
    | some cell =>
        match map.units ct with
        | none => memory cell
        | some units => arith.div (memory cell) (memory units)⟩

/-- The cell belongs to the offset that the index stands for. -/
def Owns (map : OffsetMap γ) (index : UInt32) (cell : γ) : Prop :=
  ∃ kind ct, map.kind index = some kind ∧ (map.place kind ct = some cell ∨ map.units ct = some cell)

/-- The offset is the one that the index stands for, and nothing else is read. -/
structure Meets (map : OffsetMap γ) (memory : γ → R) (index : UInt32) (reading : Reading γ R) :
    Prop where
  offset : reading.offset = map.documented arith memory index
  reads : ∀ cell ∈ reading.reads, map.Owns index cell

end OffsetMap

/-- A control without offsets. -/
def OffsetMap.absent : OffsetMap γ := ⟨fun _ => none, fun _ _ => none, fun _ => none⟩

/-- The zeros that are returned when nothing is read. -/
def Reading.zero : Reading γ R := ⟨⟨fun _ => arith.ofInt 0⟩, []⟩

/-- `*ptr++` for some axes, and zeros for the others. -/
def Reading.walk (memory : γ → R) (ptr : Nat → γ) (axes : Nat) : Reading γ R :=
  ⟨⟨fun ct => if ct < axes then memory (ptr ct) else arith.ofInt 0⟩, (List.range axes).map ptr⟩

/-- The indices that all drivers may use. -/
def commonKind (index : UInt32) : Option OffsetKind :=
  if index = 0 then some .tool
  else if index = 1 then some .g5x
  else if index = 2 then some .g92
  else none

/-- The numbers of `EMC_STAT` that are about offsets. -/
inductive EmcCell where
  | toolOffset (axis : Fin maxAxes)
  | g5xOffset (axis : Fin maxAxes)
  | g92Offset (axis : Fin maxAxes)
  | units (axis : Fin maxAxes)
  deriving DecidableEq, Repr

/-- The cells of a status. -/
def EmcStat.cell (status : EmcStat R) : EmcCell → R
  | .toolOffset axis => status.toolOffset.array axis
  | .g5xOffset axis => status.g5xOffset.array axis
  | .g92Offset axis => status.g92Offset.array axis
  | .units axis => status.units axis

/-- LinuxCNC reports all offsets in raw units. -/
def EmcCell.layout : OffsetMap EmcCell where
  kind := commonKind
  place
    | .tool, axis => some (.toolOffset axis)
    | .g5x, axis => some (.g5xOffset axis)
    | .g92, axis => some (.g92Offset axis)
    | .spindle, _ | .total, _ => none
  units axis := some (.units axis)

/-- An offset of LinuxCNC in the units of the driver. -/
def EmcCell.scaled (memory : EmcCell → R) (pose : Fin maxAxes → EmcCell) : Reading EmcCell R :=
  ⟨⟨fun ct => arith.div (memory (pose ct)) (memory (.units ct))⟩,
    (List.finRange maxAxes).flatMap fun ct => [pose ct, .units ct]⟩

/-- `LinuxCnc::GetOffset`, which may find no status. -/
def EmcCell.getOffset (status : Option (EmcCell → R)) (index : UInt32) : Reading EmcCell R :=
  match status with
  | none => .zero arith
  | some memory =>
      if index = 0 then scaled arith memory .toolOffset
      else if index = 1 then scaled arith memory .g5xOffset
      else if index = 2 then scaled arith memory .g92Offset
      else .zero arith

/-- The numbers of `setup_struct` around its offsets, by their distance from the start of a
member. -/
inductive SetupCell where
  /-- `axis_offset_x`, `axis_offset_y` and `axis_offset_z`: the G92 offset. -/
  | axisOffset (axis : Nat)
  /-- The words of `block1`, the next member. -/
  | block1 (word : Nat)
  /-- `origin_offset_x`, `origin_offset_y` and `origin_offset_z`. -/
  | originOffset (axis : Nat)
  /-- The next member. -/
  | parameters (index : Nat)
  /-- `AA_axis_offset`, `BB_axis_offset` and `CC_axis_offset`: the G92 offset. -/
  | rotaryAxisOffset (axis : Nat)
  /-- `AA_origin_offset`, `BB_origin_offset` and `CC_origin_offset`. -/
  | rotaryOriginOffset (axis : Nat)
  | toolXoffset
  | toolLengthOffset
  deriving DecidableEq, Repr

/-- The doubles from `axis_offset_x` on. -/
def SetupCell.fromAxisOffset (ct : Nat) : SetupCell :=
  if ct < 3 then .axisOffset ct else .block1 (ct - 3)

/-- The doubles from `origin_offset_x` on. -/
def SetupCell.fromOriginOffset (ct : Nat) : SetupCell :=
  if ct < 3 then .originOffset ct else .parameters (ct - 3)

/-- Mach keeps the offsets of the rotary axes apart, and has tool offsets along `x` and `z` only. -/
def SetupCell.layout : OffsetMap SetupCell where
  kind := commonKind
  place
    | .g5x, ct => some (if ct < 3 then .originOffset ct else .rotaryOriginOffset (ct - 3))
    | .g92, ct => some (if ct < 3 then .axisOffset ct else .rotaryAxisOffset (ct - 3))
    | .tool, ct =>
        if ct = 0 then some .toolXoffset else if ct = 2 then some .toolLengthOffset else none
    | .spindle, _ | .total, _ => none
  units _ := none

/-- `MachServer::GetOffset` -/
def SetupCell.getOffset (memory : SetupCell → R) (index : UInt32) : Reading SetupCell R :=
  if index = 1 then .walk arith memory fromAxisOffset maxAxes
  else if index = 2 then .walk arith memory fromOriginOffset maxAxes
  else .zero arith

/-- The numbers of `CNC_OFFSET_AND_PLANE`, by their distance from the start of a member. -/
inductive PlaneCell where
  | g5xOffset (axis : Nat)
  | g92Offset (axis : Nat)
  | spindleConfigOffset (axis : Nat)
  | totalOffset (axis : Nat)
  | toolOffset (axis : Nat)
  /-- Eight bytes from `currentG5X` on: the number of the coordinate system, which ends the
  structure, and what comes after the structure. -/
  | fromCurrentG5X (word : Nat)
  deriving DecidableEq, Repr

/-- The memory of the driver for Eding. -/
inductive EdingCell where
  /-- The status of the library, to which its `CncGetMotionStatus` returns a pointer. -/
  | status (cell : PlaneCell)
  /-- The local `motStatus` of the driver.  `cncapi2.h` declares a `CncGetMotionStatus` that returns
  the status by value, so `motStatus` is read from a place that the library never writes to. -/
  | motStatus (cell : PlaneCell)
  deriving DecidableEq, Repr

/-- The tool offset of Eding is a vector without rotary axes. -/
def EdingCell.layout : OffsetMap EdingCell where
  kind index :=
    if index = 3 then some .spindle else if index = 4 then some .total else commonKind index
  place
    | .tool, ct => if ct < 3 then some (.status (.toolOffset ct)) else none
    | .g5x, ct => some (.status (.g5xOffset ct))
    | .g92, ct => some (.status (.g92Offset ct))
    | .spindle, ct => some (.status (.spindleConfigOffset ct))
    | .total, ct => some (.status (.totalOffset ct))
  units _ := none

/-- `EdingCncServer::GetOffset`, where the case of `totalOffset` goes on with the default one. -/
def EdingCell.getOffset (memory : EdingCell → R) (index : UInt32) : Reading EdingCell R :=
  if index = 0 then .walk arith memory (fun ct => .motStatus (.toolOffset ct)) 3
  else if index = 1 then .walk arith memory (fun ct => .motStatus (.fromCurrentG5X ct)) maxAxes
  else if index = 2 then .walk arith memory (fun ct => .motStatus (.g92Offset ct)) maxAxes
  else if index = 3 then .walk arith memory (fun ct => .motStatus (.spindleConfigOffset ct)) maxAxes
  else if index = 4 then .walk arith memory (fun ct => .motStatus (.totalOffset ct)) 0
  else .zero arith

/-- `Sim::GetOffset` -/
def simOffset : Reading Empty R := .zero arith

/-- The memory that a driver finds. -/
inductive ControlMemory (R : Type) where
  /-- There may be no status yet. -/
  | linuxCnc (status : Option (EmcCell → R))
  | mach (setup : SetupCell → R)
  | eding (memory : EdingCell → R)
  | sim

/-- The answer of the driver is the offset that the index stands for, and all that it reads. -/
def ControlMemory.Meets (index : UInt32) : ControlMemory R → Prop
  | .linuxCnc none =>
      OffsetMap.absent.Meets arith (fun _ => arith.ofInt 0) index (EmcCell.getOffset arith none index)
  | .linuxCnc (some status) =>
      EmcCell.layout.Meets arith status index (EmcCell.getOffset arith (some status) index)
  | .mach setup => SetupCell.layout.Meets arith setup index (SetupCell.getOffset arith setup index)
  | .eding memory =>
      EdingCell.layout.Meets arith memory index (EdingCell.getOffset arith memory index)
  | .sim => OffsetMap.absent.Meets arith Empty.elim index (simOffset arith)

/-- The driver gets the index right. -/
def ControlMemory.Answers (index : UInt32) : ControlMemory R → Prop
  | .linuxCnc _ | .sim => True
  | .mach setup =>
      index ≠ 1 ∧ index ≠ 2 ∧
        (index = 0 → setup .toolXoffset = arith.ofInt 0 ∧ setup .toolLengthOffset = arith.ofInt 0)
  | .eding memory =>
      4 ≤ index ∧
        (index = 4 → ∀ ct : Fin maxAxes, memory (.status (.totalOffset ct)) = arith.ofInt 0)

namespace OffsetMap

variable {arith} {map : OffsetMap γ} {memory : γ → R} {index : UInt32}

theorem meets_zero (nothing : ∀ kind ct, map.kind index = some kind → map.place kind ct = none) :
    map.Meets arith memory index (.zero arith) := by
  refine ⟨congrArg Axes.mk (funext fun ct => ?_), by simp [Reading.zero]⟩
  cases known : map.kind index with
  | none => rfl
  | some kind => simp [nothing kind ct known]

theorem not_meets_walk {ptr : Nat → γ} {axes : Nat} (some_axis : 0 < axes)
    (foreign : ¬map.Owns index (ptr 0)) :
    ¬map.Meets arith memory index (.walk arith memory ptr axes) :=
  fun meets =>
    foreign (meets.reads (ptr 0) (List.mem_map.mpr ⟨0, List.mem_range.mpr some_axis, rfl⟩))

/-- An index gets zeros when the control has zeros there. -/
theorem meets_zero_iff (raw : ∀ ct, map.units ct = none) :
    map.Meets arith memory index (.zero arith) ↔
      ∀ kind ct cell, map.kind index = some kind → map.place kind ct = some cell →
        memory cell = arith.ofInt 0 := by
  constructor
  · intro meets kind ct cell known place
    have same := congrFun (congrArg Axes.array meets.offset) ct
    simpa [Reading.zero, documented, known, place, raw, eq_comm] using same
  · intro zeros
    refine ⟨congrArg Axes.mk (funext fun ct => ?_), by simp [Reading.zero]⟩
    cases known : map.kind index with
    | none => rfl
    | some kind =>
        cases place : map.place kind ct with
        | none => simp [place]
        | some cell => simp [place, raw, zeros kind ct cell known place]

end OffsetMap

theorem EmcCell.meets_scaled {memory : EmcCell → R} {index : UInt32} (kind : OffsetKind)
    {pose : Fin maxAxes → EmcCell} (known : layout.kind index = some kind)
    (place : ∀ ct, layout.place kind ct = some (pose ct)) :
    layout.Meets arith memory index (scaled arith memory pose) := by
  have units (ct : Fin maxAxes) : layout.units ct = some (.units ct) := rfl
  constructor
  · refine congrArg Axes.mk (funext fun ct => ?_)
    simp [known, place, units]
  · intro cell read
    obtain ⟨ct, -, read⟩ := List.mem_flatMap.mp read
    refine ⟨kind, ct, known, ?_⟩
    rcases List.mem_pair.mp read with rfl | rfl
    · exact .inl (place ct)
    · exact .inr rfl

theorem commonKind_eq_none {index : UInt32} (tool : index ≠ 0) (g5x : index ≠ 1)
    (g92 : index ≠ 2) : commonKind index = none := by
  simp [commonKind, tool, g5x, g92]

theorem EmcCell.meets (memory : EmcCell → R) (index : UInt32) :
    layout.Meets arith memory index (getOffset arith (some memory) index) := by
  simp only [getOffset]
  split_ifs with tool g5x g92
  · subst tool
    exact meets_scaled arith .tool rfl fun _ => rfl
  · subst g5x
    exact meets_scaled arith .g5x rfl fun _ => rfl
  · subst g92
    exact meets_scaled arith .g92 rfl fun _ => rfl
  · refine OffsetMap.meets_zero fun kind ct known => ?_
    cases known.symm.trans (commonKind_eq_none tool g5x g92)

/-- Mach takes two offsets for one another and goes on behind their linear axes, and the driver does
not know the tool offsets. -/
theorem SetupCell.meets_iff (memory : SetupCell → R) (index : UInt32) :
    layout.Meets arith memory index (getOffset arith memory index) ↔
      index ≠ 1 ∧ index ≠ 2 ∧
        (index = 0 → memory .toolXoffset = arith.ofInt 0 ∧
          memory .toolLengthOffset = arith.ofInt 0) := by
  by_cases g5x : index = 1
  · subst g5x
    refine iff_of_false (OffsetMap.not_meets_walk (by decide) ?_) fun answers => answers.1 rfl
    rintro ⟨kind, ct, known, place | units⟩
    · obtain rfl : OffsetKind.g5x = kind := Option.some.inj known
      simp only [layout, Option.some.injEq] at place
      split at place <;> cases place
    · cases units
  by_cases g92 : index = 2
  · subst g92
    refine iff_of_false (OffsetMap.not_meets_walk (by decide) ?_) fun answers => answers.2.1 rfl
    rintro ⟨kind, ct, known, place | units⟩
    · obtain rfl : OffsetKind.g92 = kind := Option.some.inj known
      simp only [layout, Option.some.injEq] at place
      split at place <;> cases place
    · cases units
  have zero : getOffset arith memory index = .zero arith := by simp [getOffset, g5x, g92]
  rw [zero, OffsetMap.meets_zero_iff fun _ => rfl]
  constructor
  · refine fun zeros => ⟨g5x, g92, ?_⟩
    rintro rfl
    exact ⟨zeros .tool 0 .toolXoffset rfl rfl, zeros .tool 2 .toolLengthOffset rfl rfl⟩
  · rintro ⟨-, -, zeros⟩ kind ct cell known place
    by_cases tool : index = 0
    · subst tool
      obtain rfl : OffsetKind.tool = kind := Option.some.inj known
      simp only [layout] at place
      split_ifs at place
      · obtain rfl := Option.some.inj place
        exact (zeros rfl).1
      · obtain rfl := Option.some.inj place
        exact (zeros rfl).2
    · cases known.symm.trans (commonKind_eq_none tool g5x g92)

/-- No offset of Eding is in the local variable of the driver. -/
theorem EdingCell.not_owns_motStatus (index : UInt32) (cell : PlaneCell) :
    ¬layout.Owns index (.motStatus cell) := by
  rintro ⟨kind, ct, -, place | units⟩
  · cases kind <;> simp [layout] at place
  · cases units

/-- What the driver for Eding reads is not what the library reports, and it never reads the total
offset. -/
theorem EdingCell.meets_iff (memory : EdingCell → R) (index : UInt32) :
    layout.Meets arith memory index (getOffset arith memory index) ↔
      4 ≤ index ∧
        (index = 4 → ∀ ct : Fin maxAxes, memory (.status (.totalOffset ct)) = arith.ofInt 0) := by
  simp only [getOffset]
  split_ifs with tool g5x g92 spindle four
  · subst tool
    exact iff_of_false (OffsetMap.not_meets_walk (by decide) (not_owns_motStatus _ _)) (by simp)
  · subst g5x
    exact iff_of_false (OffsetMap.not_meets_walk (by decide) (not_owns_motStatus _ _)) (by simp)
  · subst g92
    exact iff_of_false (OffsetMap.not_meets_walk (by decide) (not_owns_motStatus _ _)) (by simp)
  · subst spindle
    exact iff_of_false (OffsetMap.not_meets_walk (by decide) (not_owns_motStatus _ _)) (by simp)
  · subst four
    have empty : Reading.walk arith memory (fun ct => .motStatus (.totalOffset ct)) 0 =
        .zero arith := rfl
    rw [empty, OffsetMap.meets_zero_iff fun _ => rfl]
    constructor
    · exact fun zeros => ⟨by decide, fun _ ct => zeros .total ct _ rfl rfl⟩
    · rintro ⟨-, zeros⟩ kind ct cell known place
      obtain rfl : OffsetKind.total = kind := Option.some.inj known
      obtain rfl := Option.some.inj place
      exact zeros rfl ct
  · refine iff_of_true (OffsetMap.meets_zero fun kind ct known => ?_)
      ⟨?_, fun same => absurd same four⟩
    · simp [layout, spindle, four, commonKind_eq_none tool g5x g92] at known
    · grind

/-- A `setup_struct` with a G92 offset along the first axis and a tool of some length. -/
def shifted : SetupCell → ℚ := fun cell =>
  if cell = .axisOffset 0 ∨ cell = .toolLengthOffset then 5 else 0

/-- A status with a total offset and a tool offset along the first axis. -/
def summed : EdingCell → ℚ := fun cell =>
  if cell = .status (.totalOffset 0) ∨ cell = .status (.toolOffset 0) then 5 else 0

/-- The status that `LinuxCnc::GetOffset` reads. -/
def LinuxCnc.offsetCells (server : LinuxCnc R) : Option (EmcCell → R) :=
  server.emcStatus.map fun status => (server.content status).cell

/-- The program of the driver for LinuxCNC returns what is read from the cells of its status. -/
theorem LinuxCnc.ends_getOffset {server : LinuxCnc R} (linked : server.Linked) (index : UInt32) :
    (getOffset arith index).Ends server fun offset next =>
      next = server ∧ offset = (EmcCell.getOffset arith server.offsetCells index).offset := by
  cases status : server.emcStatus with
  | none =>
      simp [getOffset, connected, status, offsetCells, EmcCell.getOffset, Reading.zero]
  | some object =>
      have live : server.heap.Live (some object) :=
        status ▸ Connected.live ⟨linked, by simp [status]⟩
      simp only [getOffset, connected, ends_bind, ends_get, ends_ite, status, reduceCtorEq,
        if_false, readStatus, ends_follow, live, true_and, ends_pure, offsetCells,
        EmcCell.getOffset, Option.map_some, Option.getD_some]
      split_ifs <;> rfl

/-- The program of the driver for Mach returns what is read from `setup_struct`. -/
theorem MachServer.ends_getOffset {server : MachServer} {setup : SetupCell → ℚ}
    (axis : ∀ ct, server.mach3.axisOffset ct = setup (.fromAxisOffset ct))
    (origin : ∀ ct, server.mach3.originOffset ct = setup (.fromOriginOffset ct))
    (number : Double → ℚ) (index : UInt32) :
    (getOffset index).Ends server fun offset next =>
      next = server ∧ offset = (SetupCell.getOffset (.exact number) setup index).offset := by
  simp only [getOffset, ends_bind, ends_get, ends_ite, ends_pure, SetupCell.getOffset]
  split_ifs
  · exact ⟨trivial, congrArg Axes.mk (funext fun ct => by simp [axis])⟩
  · exact ⟨trivial, congrArg Axes.mk (funext fun ct => by simp [origin])⟩
  · exact ⟨trivial, by simp [Reading.zero, Arith.exact]⟩

end CncRemote
