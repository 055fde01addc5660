import CncRemote.EdingJog

/-!
# Resuming a job on the Eding control

`CycleStart` brings the tool back to where a job was paused before it resumes the job.  `CheckPause`
lifts the tool, moves it sideways and lowers it, and waits in between.  `resume_careful` says that
the tool is never moved sideways below the positions that are known to be safe, and that the job is
not resumed once a move was cut short.
-/

namespace CncRemote

/-- `CNC_CART_DOUBLE` -/
structure Cart (R : Type) where
  x : R
  y : R
  z : R
  a : R
  b : R
  c : R
  deriving DecidableEq, Repr

/-- `CNC_PAUSE_STS`, as far as `CheckPause` uses it. -/
structure PauseStatus (R : Type) where
  manualActionRequired : Bool
  position : Cart R
  valid : Bool
  spindle : Int
  flood : Int
  mist : Int

/-- The outputs that `CheckPause` sets. -/
inductive CncOutput where
  | coolant2
  | coolant1
  | tool
  deriving DecidableEq, Repr

/-- What `CycleStart` tells the control, and where `WaitMove` returned in the meantime. -/
inductive CncStep (R : Type) where
  /-- `CncMoveTo`, at a fifth of the velocity. -/
  | moveTo (pos : Cart R) (moveArray : BoolAxes)
  | setOutput (output : CncOutput) (value : Int)
  | waited (succeeded : Bool)
  | runOrResumeJob

/-- What a function has done, and its result unless it still waits. -/
structure Progress (R α : Type) where
  steps : List (CncStep R)
  result : Option α

/-- Some steps, and then the others. -/
def Progress.after {R α : Type} (steps : List (CncStep R)) (progress : Progress R α) :
    Progress R α :=
  ⟨steps ++ progress.steps, progress.result⟩

namespace EdingPause

variable {R : Type}

/-- `EdingCncServer::WaitMove` with the states that `CncGetState` is going to answer; without a
result when they end before the loop does. -/
def waitMove : List CncIeState → Option (Bool × List CncIeState)
  | [] => none
  | state :: states =>
      if state = .runningAxisjog then waitMove states else some (state = .pausedJob, states)

/-- `if(!WaitMove()) return(false);` -/
def waitThen (states : List CncIeState) (next : List CncIeState → Progress R Bool) :
    Progress R Bool :=
  match waitMove states with
  | none => ⟨[], none⟩
  | some (false, _) => ⟨[.waited false], some false⟩
  | some (true, states) => ⟨.waited true :: (next states).steps, (next states).result⟩

/-- `moveArray`, which selects all axes. -/
def moveArray : BoolAxes := ⟨fun _ => true⟩

section CheckPause

variable [LinearOrder R]

/-- The new value of `m_zMax`. -/
def raisedZ (machinePos pausePos : Cart R) (zMax : R) : R :=
  let zMax := if zMax < machinePos.z then machinePos.z else zMax
  if zMax < pausePos.z then pausePos.z else zMax

/-- The moves of `CheckPause`, over the height `zMax`. -/
def safetyMoves (sts : PauseStatus R) (machinePos : Cart R) (zMax : R) (states : List CncIeState) :
    Progress R Bool :=
  let pausePos := sts.position
  let sideways := machinePos.x ≠ pausePos.x ∨ machinePos.y ≠ pausePos.y
  let lifted := if sideways then { machinePos with z := zMax } else machinePos
  let above := { pausePos with z := lifted.z }
  let lowered := { above with z := pausePos.z }
  .after (if sideways then [.moveTo lifted moveArray] else []) <|
    waitThen states fun states =>
      .after [.setOutput .coolant2 sts.mist, .setOutput .coolant1 sts.flood,
          .setOutput .tool sts.spindle, .moveTo above moveArray] <|
        waitThen states fun states =>
          .after [.moveTo lowered moveArray] <|
            waitThen states fun _ => ⟨[], some true⟩

/-- `EdingCncServer::CheckPause`, with `m_zMax`. -/
def checkPause (sts : PauseStatus R) (machinePos : Cart R) (zMax : R) (states : List CncIeState) :
    R × Progress R Bool :=
  if sts.manualActionRequired then
    (zMax, ⟨[], some true⟩)
  else if sts.valid = false then
    (zMax, ⟨[], some false⟩)
  else if sts.position = machinePos then
    (zMax, ⟨[], some true⟩)
  else
    let zMax := raisedZ machinePos sts.position zMax
    (zMax, safetyMoves sts machinePos zMax states)

/-- The states in which `CycleStart` calls `CheckPause`. -/
def Paused (cnc : CncIeState) : Prop :=
  cnc = .pausedLine ∨ cnc = .pausedJob ∨ cnc = .pausedSub ∨ cnc = .pausedLineSearch ∨
    cnc = .pausedSubSearch

instance : DecidablePred Paused := fun _ => inferInstanceAs (Decidable (_ ∨ _))

/-- `EdingCncServer::CycleStart`, where `unset` is the value to which `m_zMax` is reset. -/
def cycleStart (unset : R) (cnc : CncIeState) (sts : PauseStatus R) (machinePos : Cart R) (zMax : R)
    (states : List CncIeState) : R × Progress R Unit :=
  if Paused cnc then
    let (zMax, checked) := checkPause sts machinePos zMax states
    match checked.result with
    | none => (zMax, ⟨checked.steps, none⟩)
    | some false => (zMax, ⟨checked.steps, some ()⟩)
    | some true => (zMax, ⟨checked.steps ++ [.runOrResumeJob], some ()⟩)
  else
    (unset, ⟨[.runOrResumeJob], some ()⟩)

end CheckPause

/-- The position after a step. -/
def moved (pos : Cart R) : CncStep R → Cart R
  | .moveTo target _ => target
  | .setOutput _ _ | .waited _ | .runOrResumeJob => pos

/-- A step that changes X or Y starts and ends at one Z, which is safe. -/
def LevelStep (safe : R → Prop) (pos : Cart R) (step : CncStep R) : Prop :=
  (moved pos step).x ≠ pos.x ∨ (moved pos step).y ≠ pos.y →
    (moved pos step).z = pos.z ∧ safe pos.z

/-- All steps from a position are level. -/
def Level (safe : R → Prop) : Cart R → List (CncStep R) → Prop
  | _, [] => True
  | pos, step :: steps => LevelStep safe pos step ∧ Level safe (moved pos step) steps

theorem foldl_moved_of_last {pos target : Cart R} {array : BoolAxes}
    {front back : List (CncStep R)} (last : ∀ other array, .moveTo other array ∉ back) :
    (front ++ .moveTo target array :: back).foldl moved pos = target := by
  have stays : back.foldl moved target = target := by
    induction back with
    | nil => rfl
    | cons step back ih =>
        have here : moved target step = target := by
          cases step with
          | moveTo other array => exact absurd List.mem_cons_self (last other array)
          | _ => rfl
        rw [List.foldl_cons, here]
        exact ih fun other array member => last other array (List.mem_cons_of_mem _ member)
  rw [List.foldl_append, List.foldl_cons]
  exact stays

/-- Nothing comes after a wait that fails. -/
def StopsShort (progress : Progress R Bool) : Prop :=
  ∀ front back, progress.steps = front ++ .waited false :: back →
    back = [] ∧ progress.result = some false

/-- From a position, the steps are level and move all axes, end at the goal if they come to an end,
stop short if a wait fails, and do not resume the job. -/
structure Careful (safe : R → Prop) (goal pos : Cart R) (progress : Progress R Bool) : Prop where
  level : Level safe pos progress.steps
  all : ∀ target array, .moveTo target array ∈ progress.steps → array = moveArray
  arrives : progress.result = some true → progress.steps.foldl moved pos = goal
  stops : StopsShort progress
  quiet : .runOrResumeJob ∉ progress.steps

section Careful

variable {safe : R → Prop} {goal pos : Cart R} {progress : Progress R Bool}

theorem careful_nil {result : Option Bool} (arrived : result = some true → pos = goal) :
    Careful safe goal pos ⟨[], result⟩ :=
  ⟨trivial, by simp, arrived, by simp [StopsShort], by simp⟩

theorem Careful.cons {step : CncStep R} (careful : Careful safe goal (moved pos step) progress)
    (level : LevelStep safe pos step)
    (all : ∀ target array, step = .moveTo target array → array = moveArray)
    (succeeds : step ≠ .waited false) (quiet : step ≠ .runOrResumeJob) :
    Careful safe goal pos (.after [step] progress) := by
  refine ⟨⟨level, careful.level⟩, ?_, careful.arrives, ?_, ?_⟩
  · intro target array member
    rcases List.mem_cons.mp member with same | member
    · exact all target array same.symm
    · exact careful.all target array member
  · intro front back same
    cases front with
    | nil =>
        obtain ⟨rfl, -⟩ := List.cons.inj same
        exact absurd rfl succeeds
    | cons first front =>
        obtain ⟨-, same⟩ := List.cons.inj same
        exact careful.stops front back same
  · exact fun member => (List.mem_cons.mp member).elim (fun same => quiet same.symm) careful.quiet

theorem Careful.moveTo {target : Cart R} (careful : Careful safe goal target progress)
    (level : target.x ≠ pos.x ∨ target.y ≠ pos.y → target.z = pos.z ∧ safe pos.z) :
    Careful safe goal pos (.after [.moveTo target moveArray] progress) := by
  refine careful.cons level ?_ (by simp) (by simp)
  rintro _ _ ⟨⟩
  rfl

theorem Careful.setOutput (careful : Careful safe goal pos progress) (output : CncOutput)
    (value : Int) : Careful safe goal pos (.after [.setOutput output value] progress) := by
  refine Careful.cons careful ?_ (by simp) (by simp) (by simp)
  simp [LevelStep, moved]

/-- What comes after a wait that succeeds decides. -/
theorem careful_waitThen {next : List CncIeState → Progress R Bool}
    (careful : ∀ states, Careful safe goal pos (next states)) (states : List CncIeState) :
    Careful safe goal pos (waitThen states next) := by
  have still (succeeded : Bool) : LevelStep safe pos (.waited succeeded) := by
    simp [LevelStep, moved]
  cases waited : waitMove states with
  | none =>
      rw [waitThen, waited]
      exact careful_nil (by simp)
  | some outcome =>
      obtain ⟨succeeded, states⟩ := outcome
      cases succeeded with
      | false =>
          simp only [waitThen, waited]
          refine ⟨⟨still false, trivial⟩, by simp, by simp, ?_, by simp⟩
          intro front back same
          cases front with
          | nil =>
              obtain ⟨-, rfl⟩ := List.cons.inj same
              exact ⟨rfl, rfl⟩
          | cons first front => simp at same
      | true =>
          simp only [waitThen, waited]
          exact Careful.cons (careful states) (still true) (by simp) (by simp) (by simp)

end Careful

section Resume

variable [LinearOrder R]

/-- The heights at which nothing is in the way: not below the tool, the position of the pause and
the greatest height so far. -/
def Safe (machinePos pausePos : Cart R) (zMax height : R) : Prop :=
  machinePos.z ≤ height ∧ pausePos.z ≤ height ∧ zMax ≤ height

theorem raisedZ_safe (machinePos pausePos : Cart R) (zMax : R) :
    Safe machinePos pausePos zMax (raisedZ machinePos pausePos zMax) := by
  simp only [Safe, raisedZ]
  split_ifs <;> grind

/-- The moves are careful over a safe height. -/
theorem safetyMoves_careful {safe : R → Prop} {zMax : R} (high : safe zMax) (sts : PauseStatus R)
    (machinePos : Cart R) (states : List CncIeState) :
    Careful safe sts.position machinePos (safetyMoves sts machinePos zMax states) := by
  by_cases sideways : machinePos.x ≠ sts.position.x ∨ machinePos.y ≠ sts.position.y
  · simp only [safetyMoves, sideways, if_true]
    refine Careful.moveTo (careful_waitThen (fun states => ?_) states) (by simp)
    have level : sts.position.x ≠ machinePos.x ∨ sts.position.y ≠ machinePos.y →
        zMax = zMax ∧ safe zMax := fun _ => ⟨rfl, high⟩
    refine .setOutput (.setOutput (.setOutput (.moveTo ?_ level) _ _) _ _) _ _
    refine careful_waitThen (fun states => .moveTo ?_ (by simp)) states
    exact careful_waitThen (fun _ => careful_nil fun _ => rfl) states
  · simp only [safetyMoves, sideways, if_false]
    refine careful_waitThen (fun states => ?_) states
    have level : sts.position.x ≠ machinePos.x ∨ sts.position.y ≠ machinePos.y →
        machinePos.z = machinePos.z ∧ safe machinePos.z := by
      intro differs
      exact absurd (differs.imp Ne.symm Ne.symm) sideways
    refine .setOutput (.setOutput (.setOutput (.moveTo ?_ level) _ _) _ _) _ _
    refine careful_waitThen (fun states => .moveTo ?_ (by simp)) states
    exact careful_waitThen (fun _ => careful_nil fun _ => rfl) states

theorem checkPause_careful (sts : PauseStatus R) (machinePos : Cart R) (zMax : R)
    (states : List CncIeState) :
    (checkPause sts machinePos zMax states).2 = ⟨[], some true⟩ ∨
      Careful (Safe machinePos sts.position zMax) sts.position machinePos
        (checkPause sts machinePos zMax states).2 := by
  simp only [checkPause]
  split_ifs
  · exact .inl rfl
  · exact .inr (careful_nil (by simp))
  · exact .inl rfl
  · exact .inr (safetyMoves_careful (raisedZ_safe machinePos sts.position zMax) _ _ _)

theorem cycleStart_of_failed {unset zMax : R} {cnc : CncIeState} (paused : Paused cnc)
    {sts : PauseStatus R} {machinePos : Cart R} {states : List CncIeState}
    (failed : (checkPause sts machinePos zMax states).2.result = some false) :
    (cycleStart unset cnc sts machinePos zMax states).2.steps =
      (checkPause sts machinePos zMax states).2.steps := by
  simp only [cycleStart, paused, if_true]
  rw [failed]

/-- The tool is moved sideways at a safe height only, ends where the job was paused, and stops for
good when a wait fails, and then the job is not resumed either. -/
theorem resume_careful (unset : R) (sts : PauseStatus R) (machinePos : Cart R) (zMax : R)
    (states : List CncIeState) :
    Level (Safe machinePos sts.position zMax) machinePos
        (checkPause sts machinePos zMax states).2.steps ∧
      ((checkPause sts machinePos zMax states).2.result = some true →
        ∀ front target array back,
          (checkPause sts machinePos zMax states).2.steps =
              front ++ .moveTo target array :: back →
            (∀ other array, .moveTo other array ∉ back) →
              target = sts.position ∧ array = moveArray) ∧
      ∀ front back,
        (checkPause sts machinePos zMax states).2.steps = front ++ .waited false :: back →
          (∀ target array, .moveTo target array ∉ back) ∧
            (checkPause sts machinePos zMax states).2.result = some false ∧
              ∀ cnc, Paused cnc →
                .runOrResumeJob ∉ (cycleStart unset cnc sts machinePos zMax states).2.steps := by
  rcases checkPause_careful sts machinePos zMax states with nothing | careful
  · rw [nothing]
    exact ⟨trivial, by simp, by simp⟩
  · refine ⟨careful.level, fun arrived front target array back same last => ⟨?_, ?_⟩, ?_⟩
    · have ends := careful.arrives arrived
      rwa [same, foldl_moved_of_last last] at ends
    · exact careful.all target array (same ▸ by simp)
    · intro front back same
      obtain ⟨rfl, failed⟩ := careful.stops front back same
      refine ⟨by simp, failed, fun cnc paused => ?_⟩
      rw [cycleStart_of_failed paused failed]
      exact careful.quiet

end Resume

end EdingPause

end CncRemote
