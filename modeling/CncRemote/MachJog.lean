import CncRemote.MachLocks
import Mathlib.Data.Rat.Floor
import Mathlib.Tactic.Linarith
import Mathlib.Tactic.Positivity

/-!
# Jogging on Mach3

`JogVel` stores a velocity for every axis, and `Poll` passes it on to the engine, which moves the
axes meanwhile.  `poll_safe` says that no axis is reversed while it moves, that the engine never
gets a velocity that was not asked for or is too great, and that an axis is slowed down when it
should go no further.
-/

namespace CncRemote

open Program

theorem tdiv_eq_floor {value : ℚ} (nonneg : 0 ≤ value) :
    value.num.tdiv value.den = ⌊value⌋ := by
  rw [Int.tdiv_eq_ediv_of_nonneg (Rat.num_nonneg.mpr nonneg), Rat.floor_def']

theorem abs_tdiv_le (value : ℚ) : |((value.num.tdiv value.den : ℤ) : ℚ)| ≤ |value| := by
  rcases le_total 0 value with nonneg | nonpos
  · rw [tdiv_eq_floor nonneg, abs_of_nonneg nonneg,
      abs_of_nonneg (Int.cast_nonneg (Int.floor_nonneg.mpr nonneg))]
    exact Int.floor_le value
  · have mirrored : value.num.tdiv value.den = -⌊-value⌋ := by
      rw [← tdiv_eq_floor (neg_nonneg.mpr nonpos), Rat.neg_num, Rat.neg_den, Int.neg_tdiv, neg_neg]
    rw [mirrored, abs_of_nonpos nonpos, Int.cast_neg, abs_neg,
      abs_of_nonneg (Int.cast_nonneg (Int.floor_nonneg.mpr (neg_nonneg.mpr nonpos)))]
    exact Int.floor_le (-value)

theorem neg_of_tdiv_neg {value : ℚ} (neg : value.num.tdiv value.den < 0) : value < 0 := by
  by_contra nonneg
  rw [tdiv_eq_floor (not_lt.mp nonneg)] at neg
  exact absurd (Int.floor_nonneg.mpr (not_lt.mp nonneg)) (not_le.mpr neg)

theorem pos_of_tdiv_pos {value : ℚ} (pos : 0 < value.num.tdiv value.den) : 0 < value := by
  refine neg_neg_iff_pos.mp (neg_of_tdiv_neg ?_)
  rw [Rat.neg_num, Rat.neg_den, Int.neg_tdiv]
  exact neg_neg_iff_pos.mpr pos

theorem toInt_truncate {value : ℚ} (small : |value| < 2 ^ 31) :
    (truncate value).toInt = value.num.tdiv value.den := by
  have bound : |value.num.tdiv value.den| < 2 ^ 31 := by
    have cast : ((|value.num.tdiv value.den| : ℤ) : ℚ) < ((2 ^ 31 : ℤ) : ℚ) := by
      rw [Int.cast_abs]
      exact (abs_tdiv_le value).trans_lt (by exact_mod_cast small)
    exact_mod_cast cast
  obtain ⟨lower, upper⟩ := abs_lt.mp bound
  exact Int32.toInt_ofInt_of_le lower.le upper

/-- A velocity of the engine suits a request: it is within the range, and goes the same way unless
it is zero. -/
structure Suits (range request : ℚ) (targetJog : Int32) : Prop where
  bound : |(targetJog.toInt : ℚ)| ≤ range
  neg : targetJog.toInt < 0 → request < 0
  pos : 0 < targetJog.toInt → 0 < request

theorem Suits.neg_iff {range request : ℚ} {targetJog : Int32}
    (suits : Suits range request targetJog) (nonzero : targetJog ≠ 0) :
    (targetJog < 0 ↔ request < 0) ∧ (¬targetJog < 0 ↔ 0 < request) := by
  have sign : targetJog < 0 ↔ targetJog.toInt < 0 := Int32.lt_iff_toInt_lt
  have apart : targetJog.toInt ≠ 0 := fun same => nonzero (Int32.toInt_inj.mp same)
  rcases lt_or_gt_of_ne apart with neg | pos
  · have request := suits.neg neg
    exact ⟨iff_of_true (sign.mpr neg) request,
      iff_of_false (not_not.mpr (sign.mpr neg)) request.asymm⟩
  · have request := suits.pos pos
    exact ⟨iff_of_false (sign.not.mpr pos.asymm) request.asymm,
      iff_of_true (sign.not.mpr pos.asymm) request⟩

theorem suits_truncate {range request value : ℚ} (small : range < 2 ^ 31) (bound : |value| ≤ range)
    (neg : value < 0 → request < 0) (pos : 0 < value → 0 < request) :
    Suits range request (truncate value) := by
  have whole := toInt_truncate (bound.trans_lt small)
  refine ⟨?_, fun below => ?_, fun above => ?_⟩
  · rw [whole]
    exact (abs_tdiv_le value).trans bound
  · exact neg (neg_of_tdiv_neg (whole ▸ below))
  · exact pos (pos_of_tdiv_pos (whole ▸ above))

/-- The greatest velocity of an axis, in the units of the engine. -/
def Mach3.jogRange (mach3 : Mach3) (ct : Fin maxAxes) : ℚ :=
  mach3.velocities ct * mach3.stepsPerAxis ct * 2048

/-- The velocities and the steps are not negative, and the range fits in an `int`. -/
structure Mach3.Geared (mach3 : Mach3) : Prop where
  velocities : ∀ ct, 0 ≤ mach3.velocities ct
  stepsPerAxis : ∀ ct, 0 ≤ mach3.stepsPerAxis ct
  range : ∀ ct, mach3.jogRange ct < 2 ^ 31

namespace MachServer

/-- How `JogVel` limits a velocity. -/
def clamp (limit cmd : ℚ) : ℚ :=
  if cmd < 0 then if cmd < -limit then -limit else cmd
  else if cmd > limit then limit else cmd

theorem abs_clamp_le {limit : ℚ} (nonneg : 0 ≤ limit) (cmd : ℚ) : |clamp limit cmd| ≤ limit := by
  unfold clamp
  refine abs_le.mpr ?_
  split_ifs <;> constructor <;> linarith

theorem neg_of_clamp_neg {limit cmd : ℚ} (nonneg : 0 ≤ limit) (neg : clamp limit cmd < 0) :
    cmd < 0 := by
  unfold clamp at neg
  split_ifs at neg <;> linarith

theorem pos_of_clamp_pos {limit cmd : ℚ} (nonneg : 0 ≤ limit) (pos : 0 < clamp limit cmd) :
    0 < cmd := by
  unfold clamp at pos
  split_ifs at pos <;> linarith

theorem suits_jogAxis {mach3 : Mach3} (geared : mach3.Geared) (velocity : ℚ) (ct : Fin maxAxes)
    (axis : AxisData) :
    Suits (mach3.jogRange ct) velocity (jogAxis mach3 velocity ct axis).targetJog := by
  have limit := geared.velocities ct
  have steps := geared.stepsPerAxis ct
  have scale : (0 : ℚ) ≤ 2048 := by norm_num
  let cmd := clamp (mach3.velocities ct) (velocity * mach3.velocities ct)
  change Suits _ _ (truncate (cmd * mach3.stepsPerAxis ct * 2048))
  refine suits_truncate (geared.range ct) ?_ (fun neg => ?_) fun pos => ?_
  · calc
      |cmd * mach3.stepsPerAxis ct * 2048| = |cmd| * mach3.stepsPerAxis ct * 2048 := by
        rw [abs_mul, abs_mul, abs_of_nonneg steps, abs_of_nonneg scale]
      _ ≤ mach3.jogRange ct := by
        have clamped := abs_clamp_le limit (velocity * mach3.velocities ct)
        exact mul_le_mul_of_nonneg_right (mul_le_mul_of_nonneg_right clamped steps) scale
  · have cmd_neg : cmd < 0 := neg_of_mul_neg_left (neg_of_mul_neg_left neg scale) steps
    exact neg_of_mul_neg_left (neg_of_clamp_neg limit cmd_neg) limit
  · have cmd_pos : 0 < cmd := pos_of_mul_pos_left (pos_of_mul_pos_left pos scale) steps
    exact pos_of_mul_pos_left (pos_of_clamp_pos limit cmd_pos) limit

/-- The request goes against the direction of the axis. -/
def Opposite (request : ℚ) (joggDir : Int32) : Prop :=
  request < 0 ∧ joggDir = 0 ∨ 0 < request ∧ joggDir ≠ 0

/-- What a call of `Poll` may do with an axis whose latest request is known. -/
structure SafePoll (range request : ℚ) (axis : AxisData) (eng next : AxisInfo) : Prop where
  /-- A moving axis keeps its direction. -/
  direction : eng.curVelocity ≠ 0 → (next.joggDir = 0 ↔ eng.joggDir = 0)
  /-- A velocity that is written has the direction of the request and is in range. -/
  velocity : next.maxVelocity = eng.maxVelocity ∧ next.joggDir = eng.joggDir ∨
    1 ≤ next.maxVelocity.toInt ∧ (next.maxVelocity.toInt : ℚ) ≤ range ∧
      (request < 0 ∧ next.joggDir ≠ 0 ∨ 0 < request ∧ next.joggDir = 0)
  /-- An axis that should go no further is slowed down. -/
  slows : axis.jogging = true →
    request = 0 ∨ Opposite request eng.joggDir ∧ eng.curVelocity ≠ 0 → next.dec = true

theorem toInt_abs {value : Int32} (bound : |value.toInt| < 2 ^ 31) :
    (if value < 0 then -value else value).toInt = |value.toInt| := by
  obtain ⟨lower, upper⟩ := abs_lt.mp bound
  have sign : value < 0 ↔ value.toInt < 0 := Int32.lt_iff_toInt_lt
  by_cases neg : value < 0
  · rw [if_pos neg, abs_of_neg (sign.mp neg), Int32.toInt_neg]
    exact Int.bmod_eq_of_le (by omega) (by omega)
  · rw [if_neg neg, abs_of_nonneg (not_lt.mp (sign.not.mp neg))]

/-- What `Poll` does with an axis, and when: it leaves the axis alone, slows it down, or drives
it. -/
theorem pollAxis_cases (axis : AxisData) (eng : AxisInfo) :
    axis.jogging = false ∧ (pollAxis axis eng).2 = eng ∨
      axis.jogging = true ∧ (pollAxis axis eng).2 = { eng with dec := true, jogging := true } ∨
      axis.jogging = true ∧ axis.targetJog ≠ 0 ∧
        (eng.curVelocity ≠ 0 → (axis.targetJog < 0 ↔ eng.joggDir ≠ 0)) ∧
        (pollAxis axis eng).2 =
          { eng with
            acceleration := axis.acc
            joggDir := if axis.targetJog < 0 then 1 else 0
            maxVelocity := if axis.targetJog < 0 then -axis.targetJog else axis.targetJog
            dec := false
            jogging := true } := by
  unfold pollAxis
  by_cases idle : axis.jogging = false
  · exact .inl ⟨idle, by rw [if_pos idle]⟩
  have jogs : axis.jogging = true := by simpa using idle
  rw [if_neg idle]
  dsimp only
  by_cases zero : axis.targetJog = 0
  · exact .inr (.inl ⟨jogs, by rw [if_pos zero]⟩)
  rw [if_neg zero]
  by_cases against : decide (axis.targetJog < 0) = decide (eng.joggDir = 0) ∧ eng.curVelocity ≠ 0
  · exact .inr (.inl ⟨jogs, by rw [if_pos against]⟩)
  · refine .inr (.inr ⟨jogs, zero, fun moving => ?_, ?_⟩)
    · have apart : ¬(axis.targetJog < 0 ↔ eng.joggDir = 0) := fun same =>
        against ⟨decide_eq_decide.mpr same, moving⟩
      tauto
    · simp only [if_neg against, decide_eq_true_eq]

theorem pollAxis_safe {range request : ℚ} (small : range < 2 ^ 31) {axis : AxisData}
    (suits : axis.jogging = true → Suits range request axis.targetJog) (eng : AxisInfo) :
    SafePoll range request axis eng (pollAxis axis eng).2 := by
  obtain ⟨idle, same⟩ | ⟨-, slowed⟩ | ⟨jogs, zero, along, driven⟩ := pollAxis_cases axis eng
  · rw [same]
    exact ⟨fun _ => Iff.rfl, .inl ⟨rfl, rfl⟩, fun jogs => absurd (idle.symm.trans jogs) (by decide)⟩
  · rw [slowed]
    exact ⟨fun _ => Iff.rfl, .inl ⟨rfl, rfl⟩, fun _ _ => rfl⟩
  · rw [driven]
    have suits := suits jogs
    obtain ⟨neg, pos⟩ := suits.neg_iff zero
    have apart : axis.targetJog.toInt ≠ 0 := fun same => zero (Int32.toInt_inj.mp same)
    have bound : |axis.targetJog.toInt| < 2 ^ 31 := by
      have cast : ((|axis.targetJog.toInt| : ℤ) : ℚ) < ((2 ^ 31 : ℤ) : ℚ) := by
        rw [Int.cast_abs]
        exact suits.bound.trans_lt (by exact_mod_cast small)
      exact_mod_cast cast
    have dir : (if axis.targetJog < 0 then 1 else 0 : Int32) = 0 ↔ ¬axis.targetJog < 0 := by
      split_ifs with back
      · exact iff_of_false (by decide) (not_not.mpr back)
      · exact iff_of_true rfl back
    refine ⟨fun moving => ?_, .inr ⟨?_, ?_, ?_⟩, fun _ stop => ?_⟩
    · exact dir.trans ((not_congr (along moving)).trans not_not)
    · rw [toInt_abs bound]
      exact Int.one_le_abs apart
    · rw [toInt_abs bound, Int.cast_abs]
      exact suits.bound
    · by_cases back : axis.targetJog < 0
      · exact .inl ⟨neg.mp back, fun forward => dir.mp forward back⟩
      · exact .inr ⟨pos.mp back, dir.mpr back⟩
    · rcases stop with rest | ⟨⟨back, straight⟩ | ⟨forth, curved⟩, moving⟩
      · by_cases back : axis.targetJog < 0
        · exact absurd rest (neg.mp back).ne
        · exact absurd rest (pos.mp back).ne'
      · exact absurd straight ((along moving).mp (neg.mpr back))
      · exact absurd ((along moving).mpr curved) (pos.mpr forth)

/-- What happens while an axis is jogged. -/
inductive JogPoll where
  | jogVel (velocities : Axes Double)
  | poll
  /-- The engine goes on, or starts and ends jogs of its own. -/
  | engine (index curVelocity : Fin maxAxes → Int32) (jogging : Fin maxAxes → Bool)

variable (api : MachApi)

/-- The engine changes what it owns. -/
def runEngine (index curVelocity : Fin maxAxes → Int32) (jogging : Fin maxAxes → Bool)
    (mach3 : Mach3) : Mach3 :=
  { mach3 with axis := fun ct =>
      { mach3.axis ct with
        index := index ct, curVelocity := curVelocity ct, jogging := jogging ct } }

/-- One event. -/
def jogProgram : JogPoll → Program MachServer Unit
  | .jogVel velocities => jogVel api velocities
  | .poll => poll
  | .engine index curVelocity jogging => changeMach3 (runEngine index curVelocity jogging)

/-- The latest request after an event. -/
def noted (requests : Fin maxAxes → ℚ) : JogPoll → Fin maxAxes → ℚ
  | .jogVel velocities => fun ct => api.number (velocities.array ct)
  | .poll | .engine _ _ _ => requests

/-- Each axis that jogs stores a velocity that suits its latest request. -/
structure Tracks (mach3 : Mach3) (requests : Fin maxAxes → ℚ) (server : MachServer) : Prop where
  free : server.Free
  velocities : server.mach3.velocities = mach3.velocities
  stepsPerAxis : server.mach3.stepsPerAxis = mach3.stepsPerAxis
  suits : ∀ ct, (server.jogAxes ct).jogging = true →
    Suits (mach3.jogRange ct) (requests ct) (server.jogAxes ct).targetJog

theorem tracks_start (curBlock : Int32) (files : Files) (homeSpeed : Fin maxAxes → ℚ)
    (loaded : Bool) (mach3 : Mach3) (requests : Fin maxAxes → ℚ) :
    Tracks mach3 requests (start curBlock files homeSpeed loaded mach3) := by
  cases loaded <;> exact ⟨rfl, rfl, rfl, by simp [start, empty]⟩

section Tracks

variable {mach3 : Mach3} {requests : Fin maxAxes → ℚ} {server : MachServer}

theorem Tracks.jogRange (tracks : Tracks mach3 requests server) (ct : Fin maxAxes) :
    server.mach3.jogRange ct = mach3.jogRange ct := by
  simp only [Mach3.jogRange, tracks.velocities, tracks.stepsPerAxis]

theorem Tracks.geared (tracks : Tracks mach3 requests server) (geared : mach3.Geared) :
    server.mach3.Geared where
  velocities ct := tracks.velocities ▸ geared.velocities ct
  stepsPerAxis ct := tracks.stepsPerAxis ▸ geared.stepsPerAxis ct
  range ct := tracks.jogRange ct ▸ geared.range ct

theorem pollAxis_keeps {axis : AxisData} {eng : AxisInfo}
    (jogs : (pollAxis axis eng).1.jogging = true) :
    axis.jogging = true ∧ (pollAxis axis eng).1.targetJog = axis.targetJog := by
  by_cases idle : axis.jogging = false
  · rw [pollAxis, if_pos idle] at jogs
    exact absurd (idle.symm.trans jogs) (by decide)
  · refine ⟨by simpa using idle, ?_⟩
    rw [pollAxis, if_neg idle]
    dsimp only
    split
    · rfl
    · split <;> rfl

theorem ends_poll_axes (free : server.Free) :
    poll.Ends server fun _ next => next.Free ∧
      (∀ ct, next.jogAxes ct = (pollAxis (server.jogAxes ct) (server.mach3.axis ct)).1) ∧
      next.mach3 = { server.mach3 with
        axis := fun ct => (pollAxis (server.jogAxes ct) (server.mach3.axis ct)).2 } := by
  refine (ends_poll free).and ?_
  obtain ⟨sync, -⟩ := Prod.mk.inj free
  simp only [poll, ends_bind, ends_modify, Mutex.ends_guard]
  exact ⟨sync, fun _ => rfl, rfl⟩

theorem Tracks.ends_jogProgram (tracks : Tracks mach3 requests server) (geared : mach3.Geared)
    (event : JogPoll) :
    (jogProgram api event).Ends server fun _ => Tracks mach3 (noted api requests event) := by
  cases event with
  | jogVel velocities =>
      rw [jogProgram, jogVel, ends_modify]
      refine ⟨tracks.free, tracks.velocities, tracks.stepsPerAxis, fun ct _ => ?_⟩
      rw [← tracks.jogRange ct]
      exact suits_jogAxis (tracks.geared geared) _ ct _
  | poll =>
      refine (ends_poll_axes tracks.free).mono ?_
      rintro _ next ⟨free, axes, memory⟩
      refine ⟨free, ?_, ?_, fun ct jogs => ?_⟩
      · rw [memory]
        exact tracks.velocities
      · rw [memory]
        exact tracks.stepsPerAxis
      · rw [axes ct] at jogs ⊢
        obtain ⟨before, same⟩ := pollAxis_keeps jogs
        rw [same]
        exact tracks.suits ct before
  | engine index curVelocity jogging =>
      rw [jogProgram, changeMach3, ends_modify]
      exact ⟨tracks.free, tracks.velocities, tracks.stepsPerAxis, tracks.suits⟩

theorem Tracks.run (tracks : Tracks mach3 requests server) (geared : mach3.Geared)
    (events : List JogPoll) :
    ∃ final, (machine (jogProgram api)).run (some server) events = some (some final) ∧
      Tracks mach3 (events.foldl (noted api) requests) final :=
  run_of_notes (fun event tracks => tracks.ends_jogProgram api geared event) tracks events

/-- `Poll` is safe for all axes. -/
theorem Tracks.ends_poll (tracks : Tracks mach3 requests server) (geared : mach3.Geared) :
    poll.Ends server fun _ next => ∀ ct,
      SafePoll (mach3.jogRange ct) (requests ct) (server.jogAxes ct) (server.mach3.axis ct)
        (next.mach3.axis ct) := by
  refine (ends_poll_axes tracks.free).mono ?_
  rintro _ next ⟨-, -, memory⟩ ct
  rw [memory]
  exact pollAxis_safe (geared.range ct) (tracks.suits ct) _

end Tracks

/-- Whatever was asked for and whatever the engine does meanwhile, `Poll` is safe. -/
theorem poll_safe {mach3 : Mach3} (geared : mach3.Geared) (curBlock : Int32) (files : Files)
    (homeSpeed : Fin maxAxes → ℚ) (loaded : Bool) (events : List JogPoll) :
    ∃ server,
      (machine (jogProgram api)).run (some (start curBlock files homeSpeed loaded mach3)) events =
          some (some server) ∧
        poll.Ends server fun _ next => ∀ ct,
          SafePoll (mach3.jogRange ct) (events.foldl (noted api) (fun _ => 0) ct)
            (server.jogAxes ct) (server.mach3.axis ct) (next.mach3.axis ct) := by
  have tracks := tracks_start curBlock files homeSpeed loaded mach3 fun _ => 0
  obtain ⟨server, run, tracks⟩ := tracks.run api geared events
  exact ⟨server, run, tracks.ends_poll geared⟩

/-- A Mach3 with one step per unit, which is asked to jog and polled. -/
theorem poll_safe_rest :
    ∃ server,
      (machine (jogProgram { MachApi.plain with number := fun _ => 1 })).run
          (some (start 0 ⟨fun _ => none, fun _ => [], 0, []⟩ (fun _ => 1) true .rest))
          [.jogVel ⟨fun _ => 0⟩, .poll] = some (some server) ∧
        poll.Ends server fun _ next => ∀ ct,
          SafePoll (Mach3.rest.jogRange ct) 1 (server.jogAxes ct) (server.mach3.axis ct)
            (next.mach3.axis ct) := by
  refine poll_safe _ ⟨fun _ => ?_, fun _ => ?_, fun _ => ?_⟩ 0 _ _ true
    [.jogVel ⟨fun _ => 0⟩, .poll]
  · exact zero_le_one
  · exact zero_le_one
  · norm_num [Mach3.rest, Mach3.jogRange]

end MachServer

end CncRemote
