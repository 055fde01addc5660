import CncRemote.Homing
import CncRemote.ToolPosition
import Mathlib.Algebra.Order.Ring.Abs

/-!
# Speeds of jogs

`JogVel` and `JogStep` of the driver for LinuxCNC both take a fraction of the full speed.  The
former looks up the full speed by the number of the axis, the latter by the type of the joint, and
it does not look at the fraction.  `stepsLikeJogs_iff` says when they command the same speed.
-/

namespace CncRemote

open Program

namespace LinuxCnc

variable {R : Type}

theorem flatMap_ite_eq {ι : Type} [DecidableEq ι] (items : List ι) (item : ι) (entry : R) :
    (items.flatMap fun other => if other = item then [entry] else []) =
      List.replicate (items.count item) entry := by
  induction items with
  | nil => rfl
  | cons other items ih =>
      rw [List.flatMap_cons, ih]
      by_cases same : other = item
      · simp [same, List.replicate_succ]
      · simp [same]

/-- The speed of an incremental jog of the axis. -/
def stepSpeed? (axis : Fin maxAxes) : NmlCommand R → Option R
  | .jogIncr _ moved vel _ => if moved = axis then some vel else none
  | _ => none

/-- The speeds of the incremental jogs of the axis, oldest first. -/
def stepSpeeds (axis : Fin maxAxes) (server : LinuxCnc R) : List R :=
  server.sent.filterMap fun entry => stepSpeed? axis entry.1

/-- Every status of the control has the same type for the joint, and the full speeds are the given
ones. -/
structure Fixed (axis : Fin maxAxes) (linear : Bool) (lin ang : R) (server : LinuxCnc R) :
    Prop where
  status : server.status.linear axis = linear
  control : server.control.linear axis = linear
  tape : ∀ index, (server.tape index).status.linear axis = linear
  maxSpeedLin : server.maxSpeedLin = lin
  maxSpeedAng : server.maxSpeedAng = ang

/-- A server that is connected to such a control. -/
def Jogging (axis : Fin maxAxes) (linear : Bool) (lin ang : R) (server : LinuxCnc R) : Prop :=
  server.Connected ∧ server.Fixed axis linear lin ang

section Fixed

variable {axis : Fin maxAxes} {linear : Bool} {lin ang : R}

theorem ask_fixed :
    (ask : Program (LinuxCnc R) (NmlAnswer R)).Preserves (Fixed axis linear lin ang) := by
  rintro server _ _ fixed ⟨⟩
  exact { fixed with tape := fun index => fixed.tape (index + 1) }

theorem library_fixed :
    (library : Program (LinuxCnc R) Int).Preserves (Fixed axis linear lin ang) := by
  rintro server _ _ fixed ⟨⟩
  exact { fixed with control := fixed.tape 0, tape := fun index => fixed.tape (index + 1) }

theorem peekStatus_fixed :
    (peekStatus : Program (LinuxCnc R) Int).Preserves (Fixed axis linear lin ang) := by
  refine .bind .get fun before => .bind (follow_preserves _) fun _ => ?_
  refine .bind library_fixed fun type => .ite (.pure _) (.bind (.modify ?_) fun _ => .pure _)
  intro server fixed
  refine { fixed with status := ?_ }
  change (Function.update server.content (before.emcStatusBuffer.getD 0) server.control
    (server.emcStatus.getD 0)).linear axis = linear
  by_cases shown : server.emcStatus.getD 0 = before.emcStatusBuffer.getD 0
  · rw [shown, Function.update_self]
    exact fixed.control
  · rw [Function.update_of_ne shown]
    exact fixed.status

theorem transmit_fixed :
    (transmit : Program (LinuxCnc R) Bool).Preserves (Fixed axis linear lin ang) :=
  transmit_preserves ask_fixed library_fixed peekStatus_fixed

theorem commandSend_fixed (cmd : NmlCommand R) :
    (commandSend cmd).Preserves (Fixed axis linear lin ang) :=
  .bind transmit_fixed fun _ => .bind (.modify fun _ fixed => { fixed with }) fun _ => .pure _

theorem commandSend_jogging (cmd : NmlCommand R) :
    (commandSend cmd).Preserves (Jogging axis linear lin ang) :=
  (commandSend_keeps cmd).preserves.and (commandSend_fixed cmd)

theorem commandSend_steps (cmd : NmlCommand R) :
    (commandSend cmd).Appends (Jogging axis linear lin ang) (stepSpeeds axis)
      (stepSpeed? axis cmd).toList :=
  commandSend_appends (fun _ jogging => jogging.1) _ (commandSend_jogging cmd)

theorem setMode_steps (mode : TaskMode) :
    (setMode mode : Program (LinuxCnc R) Bool).Appends (Jogging axis linear lin ang)
      (stepSpeeds axis) [] :=
  setMode_appends (fun _ jogging => jogging.1) (stepSpeed? axis) rfl (commandSend_jogging _)

variable (arith : Arith R) (build : Build)

/-- The full speed of a joint by its type, for one second. -/
def typeSpeed (linear : Bool) (lin ang : R) : R :=
  arith.div (if linear then lin else ang) (arith.ofInt 60)

theorem sendJogStep_steps (moved : Fin maxAxes) (val : R) :
    (sendJogStep arith build moved val).Appends (Jogging axis linear lin ang) (stepSpeeds axis)
      (if moved = axis then [typeSpeed arith linear lin ang] else []) := by
  intro server jogging
  rw [sendJogStep, ends_bind, ends_iff_of_eq jogging.1.readStatus, ends_bind, ends_get]
  refine ((commandSend_steps _).map _ server jogging).mono ?_
  rintro _ next ⟨kept, grown⟩
  refine ⟨kept, grown.trans ?_⟩
  by_cases same : moved = axis
  · obtain rfl := same
    obtain ⟨-, fixed⟩ := jogging
    simp [stepSpeed?, typeSpeed, fixed.status, fixed.maxSpeedLin, fixed.maxSpeedAng]
  · simp [stepSpeed?, same]

theorem steps_of_loop {distance : Axes Double}
    (moves : arith.eq (arith.number (distance.array axis)) (arith.ofInt 0) = false) :
    Appends
      ((List.finRange maxAxes).forM fun moved => do
        let val := arith.number (distance.array moved)
        if arith.eq val (arith.ofInt 0) then
          return
        else
          sendJogStep arith build moved val)
      (Jogging axis linear lin ang) (stepSpeeds axis) [typeSpeed arith linear lin ang] := by
  have once (moved : Fin maxAxes) :
      Appends
        (do
          let val := arith.number (distance.array moved)
          if arith.eq val (arith.ofInt 0) then
            return
          else
            sendJogStep arith build moved val)
        (Jogging axis linear lin ang) (stepSpeeds axis)
        (if moved = axis then [typeSpeed arith linear lin ang] else []) := by
    by_cases rests : arith.eq (arith.number (distance.array moved)) (arith.ofInt 0) = true
    · have other : moved ≠ axis := by
        rintro rfl
        exact Bool.false_ne_true (moves.symm.trans rests)
      intro server jogging
      simp only [rests, if_true, other, if_false, ends_pure, List.append_nil, and_true]
      exact jogging
    · dsimp only
      rw [if_neg rests]
      exact sendJogStep_steps arith build moved (arith.number (distance.array moved))
  have only : (List.finRange maxAxes).flatMap
      (fun moved => if moved = axis then [typeSpeed arith linear lin ang] else []) =
        [typeSpeed arith linear lin ang] := by
    rw [flatMap_ite_eq, List.count_eq_one_of_mem (List.nodup_finRange _) (List.mem_finRange axis)]
    rfl
  rw [← only]
  exact .forM once _

end Fixed

section Exact

variable {axis : Fin maxAxes} {linear : Bool} {lin ang : ℚ} {server : LinuxCnc ℚ}
variable (number : Double → ℚ) (build : Build)

/-- In exact arithmetic `SendJog` leaves the velocity in the cache, whether or not it had to send
it. -/
theorem ends_sendJog (jogging : server.Jogging axis linear lin ang) (moved : Fin maxAxes)
    (vel : ℚ) :
    (sendJog (.exact number) build moved vel).Ends server fun _ next =>
      next.Jogging axis linear lin ang ∧
        next.jogAxes = Function.update server.jogAxes moved vel := by
  obtain ⟨connected, fixed⟩ := jogging
  by_cases cached : vel = server.jogAxes moved
  · have runs := sendJog_of_cached (.exact number) build (decide_eq_true cached)
    rw [ends_iff_of_eq runs, cached, Function.update_eq_self]
    exact ⟨⟨connected, fixed⟩, rfl⟩
  · obtain ⟨mode, accepted, after, sends, same, runs⟩ :=
      sendJog_eq (.exact number) build connected (decide_eq_false cached)
    have kept := (ends_iff_of_eq sends _).mp (transmit_keeps server connected)
    have fixed := transmit_fixed fixed sends
    obtain ⟨jogAxes, -⟩ := Prod.mk.inj same
    rw [ends_iff_of_eq runs]
    exact ⟨⟨kept.congr rfl, { fixed with }⟩, by rw [jogAxes]⟩

/-- The velocity that a fraction of the full speed of an axis is. -/
def fraction (velocities : Axes ℚ) (lin ang : ℚ) (moved : Fin maxAxes) : ℚ :=
  velocities.array moved * if moved.val < 3 then lin else ang

theorem ends_sendJogVel_loop (velocities : Axes ℚ) (moved : List (Fin maxAxes))
    (jogging : server.Jogging axis linear lin ang) :
    (moved.forM fun ct => do
        let server ← get
        sendJog (.exact number) build ct
          ((Arith.exact number).mul (velocities.array ct) (server.maxSpeed ct))).Ends
      server fun _ next =>
        next.Jogging axis linear lin ang ∧
          ∀ ct, next.jogAxes ct =
            if ct ∈ moved then fraction velocities lin ang ct else server.jogAxes ct := by
  induction moved generalizing server with
  | nil => exact (ends_pure _ _ _).mpr ⟨jogging, fun ct => by simp⟩
  | cons first moved ih =>
      have target : (Arith.exact number).mul (velocities.array first) (server.maxSpeed first) =
          fraction velocities lin ang first := by
        rw [maxSpeed, jogging.2.maxSpeedLin, jogging.2.maxSpeedAng]
        rfl
      refine (ends_bind _ _ _ _).mpr ((ends_bind _ _ _ _).mpr ((ends_get _ _).mpr ?_))
      rw [target]
      refine (ends_sendJog number build jogging first _).mono ?_
      rintro _ middle ⟨kept, cached⟩
      refine (ih kept).mono ?_
      rintro _ next ⟨kept, jogs⟩
      refine ⟨kept, fun ct => ?_⟩
      rw [jogs, cached]
      by_cases later : ct ∈ moved
      · simp [later]
      · by_cases same : ct = first
        · simp [same]
        · simp [later, same]

theorem ends_jogVel (velocities : Axes Double) (jogging : server.Jogging axis linear lin ang) :
    (jogVel (.exact number) build velocities).Ends server fun _ next =>
      ∀ ct, next.jogAxes ct =
        fraction ⟨fun ct => number (velocities.array ct)⟩ lin ang ct := by
  rw [jogVel, jogging.1.ends_connected, ends_bind]
  refine (setMode_steps .manual server jogging).mono ?_
  rintro _ middle ⟨kept, -⟩
  refine (ends_sendJogVel_loop number build _ _ kept).mono ?_
  rintro _ next ⟨-, jogs⟩ ct
  rw [jogs, if_pos (List.mem_finRange ct)]
  rfl

/-- The control accepts the mode that `JogStep` needs. -/
def TeleopAccepts (server : LinuxCnc ℚ) : Prop :=
  (do
    let _ ← setMode .manual
    commandSend (.setTeleopEnable true)).Ends server fun accepted _ => accepted = true

/-- The speeds of the incremental jogs of the axis since an earlier state. -/
def stepsSince (axis : Fin maxAxes) (before server : LinuxCnc R) : List R :=
  (stepSpeeds axis server).drop (stepSpeeds axis before).length

/-- The speed of an incremental jog of the axis is that of the velocity that `JogVel` commands for
the same fraction of the full speed. -/
def StepsLikeJogs (server : LinuxCnc ℚ) (distance velocities : Axes Double) (axis : Fin maxAxes) :
    Prop :=
  (jogStep (.exact number) build distance (velocities.array axis)).Ends server fun _ stepped =>
    (jogVel (.exact number) build velocities).Ends server fun _ jogged =>
      ∀ vel ∈ stepsSince axis server stepped, vel = |jogged.jogAxes axis|

instance (distance velocities : Axes Double) :
    Decidable (StepsLikeJogs number build server distance velocities axis) :=
  have (stepped jogged : LinuxCnc ℚ) : Decidable
      (∀ vel ∈ stepsSince axis server stepped, vel = |jogged.jogAxes axis|) :=
    List.decidableBAll _ _
  decidableEnds _ _ _

theorem ends_jogStep (jogging : server.Jogging axis linear lin ang) {distance : Axes Double}
    (moves : number (distance.array axis) ≠ 0) (speed : Double) :
    (jogStep (.exact number) build distance speed).Ends server fun _ stepped =>
      (server.TeleopAccepts →
        stepsSince axis server stepped = [(if linear then lin else ang) / 60]) ∧
      (¬server.TeleopAccepts → stepsSince axis server stepped = []) := by
  obtain ⟨_, middle, sets, kept, silent⟩ := setMode_steps .manual server jogging
  obtain ⟨accepted, next, sends, kept', silent'⟩ :=
    commandSend_steps (.setTeleopEnable true) middle kept
  have before : stepSpeeds axis next = stepSpeeds axis server := by
    rw [silent', silent, List.append_nil]
    exact List.append_nil _
  have accepts : server.TeleopAccepts ↔ accepted = true := by
    rw [TeleopAccepts, ends_bind, ends_iff_of_eq sets, ends_iff_of_eq sends]
  simp only [jogStep, jogging.1.ends_connected, ends_bind, ends_iff_of_eq sets,
    ends_iff_of_eq sends, accepts]
  cases accepted with
  | false =>
      rw [if_pos rfl]
      refine (ends_pure _ _ _).mpr ⟨fun accepts => absurd accepts (by simp), fun _ => ?_⟩
      rw [stepsSince, before, List.drop_length]
  | true =>
      rw [if_neg (by simp)]
      have rests : (Arith.exact number).eq ((Arith.exact number).number (distance.array axis))
          ((Arith.exact number).ofInt 0) = false := by
        refine decide_eq_false ?_
        change number (distance.array axis) ≠ ((0 : Int) : ℚ)
        rw [Int.cast_zero]
        exact moves
      refine (steps_of_loop (.exact number) build rests next kept').mono ?_
      rintro _ stepped ⟨-, grown⟩
      refine ⟨fun _ => ?_, fun refused => absurd rfl refused⟩
      rw [stepsSince, grown, before, List.drop_left]
      refine congrArg (fun minute : ℚ => [(if linear then lin else ang) / minute]) ?_
      exact Int.cast_ofNat 60

/-- An incremental jog has the speed of the type of the joint, whatever fraction of it is asked
for. -/
theorem stepsLikeJogs_iff (jogging : server.Jogging axis linear lin ang)
    {distance velocities : Axes Double} (moves : number (distance.array axis) ≠ 0) :
    StepsLikeJogs number build server distance velocities axis ↔
      (server.TeleopAccepts →
        (if linear then lin else ang) / 60 =
          |number (velocities.array axis) * if axis.val < 3 then lin else ang|) := by
  obtain ⟨_, stepped, steps, accepts, refuses⟩ :=
    ends_jogStep number build jogging moves (velocities.array axis)
  obtain ⟨_, jogged, jogs, targets⟩ := ends_jogVel number build velocities jogging
  rw [StepsLikeJogs, ends_iff_of_eq steps, ends_iff_of_eq jogs, targets]
  by_cases teleop : server.TeleopAccepts
  · rw [accepts teleop, List.forall_mem_singleton]
    exact ⟨fun same _ => same, fun same => same teleop⟩
  · rw [refuses teleop]
    exact iff_of_true (fun vel inside => absurd inside List.not_mem_nil) (absurd · teleop)

end Exact

/-- A number that is a count of sixtieths. -/
def sixtieths (bits : Double) : ℚ := bits.toNat / 60

/-- A server whose three channels are open and whose control is at rest. -/
def restful : LinuxCnc ℚ :=
  { start (.exact sixtieths) 0 .rest fun _ => ⟨0, .rest, false⟩ with
    heap := ⟨3, []⟩
    emcCommandBuffer := some 0
    emcStatusBuffer := some 1
    emcStatus := some 1
    emcErrorBuffer := some 2 }

theorem restful_jogging (axis : Fin maxAxes) : restful.Jogging axis true 4000 100 := by
  have held : restful.Held := by
    change restful.heap.Owned [some 0, some 1, some 2]
    decide
  have linked : restful.Linked := ⟨rfl, fun _ => Option.some_ne_none 0, held⟩
  exact ⟨⟨linked, Option.some_ne_none 1⟩, rfl, rfl, fun _ => rfl, rfl, rfl⟩

/-- A sixtieth of the full speed. -/
theorem stepsLikeJogs_of_sixtieth :
    StepsLikeJogs sixtieths ⟨false, 255⟩ restful ⟨fun _ => 60⟩ ⟨fun _ => 1⟩ 0 :=
  (stepsLikeJogs_iff sixtieths ⟨false, 255⟩ (restful_jogging 0) (by decide +kernel)).mpr
    fun _ => by decide +kernel

/-- At full speed the incremental jog of the axis is sixty times too slow. -/
theorem not_stepsLikeJogs_of_full :
    ¬∀ (number : Double → ℚ) (build : Build) (server : LinuxCnc ℚ) (axis : Fin maxAxes)
      (distance velocities : Axes Double) (lin ang : ℚ),
      server.Jogging axis (axis.val < 3) lin ang → 0 < lin → 0 < ang →
        0 < number (velocities.array axis) → number (velocities.array axis) ≤ 1 →
          number (distance.array axis) ≠ 0 →
            StepsLikeJogs number build server distance velocities axis := by
  intro always
  have slow : ¬StepsLikeJogs sixtieths ⟨false, 255⟩ restful ⟨fun _ => 60⟩ ⟨fun _ => 60⟩ 0 := by
    decide +kernel
  refine slow (always _ _ _ 0 _ _ 4000 100 (restful_jogging 0) ?_ ?_ ?_ ?_ ?_)
  all_goals decide +kernel

end LinuxCnc

end CncRemote
