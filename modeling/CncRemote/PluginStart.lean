import CncRemote.LinuxPlugin

/-!
# How the LinuxCNC plugin waits for its server

After `ExecStart` the function `Start` of the plugin has a loop with a deadline, in which it reads
what the server prints and tries to connect.  `waits_iff` says when it tries at all and when its
answer is the right one.
-/

namespace CncRemote

open Program

/-- What `Connect` and, if it returns true, `Ping` do. -/
inductive Attempt where
  /-- `Connect` returns false. -/
  | refused
  /-- One of them throws. -/
  | thrown
  | connected (ping : Bool)
  deriving DecidableEq

/-- The attempt ends the loop: what `Ping` returns does not matter. -/
def Attempt.reached : Attempt → Bool
  | .connected _ => true
  | .refused | .thrown => false

/-- How `while(ExecPoll()){}` ends. -/
inductive DrainEnd where
  /-- `feof` is true; the exit status of the child, for which `pclose2` waits. -/
  | closed (status : Int)
  /-- `fgets` returns NULL: it has met the end of the stream, or an error. -/
  | null
  deriving DecidableEq

/-- What `ExecPoll` finds at the end. -/
def DrainEnd.answer : DrainEnd → StreamAnswer
  | .closed status => .ended status
  | .null => .nothing

/-- What happens in one round of the loop of `Start`. -/
structure StartRound where
  /-- The clock at the test, in nanoseconds. -/
  clock : Int
  /-- How many lines `ExecPoll` reads. -/
  lines : Nat
  /-- How it ends after them.  It does not end while the child keeps the pipe open and prints
  nothing: `fgets` waits for a line. -/
  last : Option DrainEnd
  /-- The time when `Connect` is called. -/
  moment : Int
  attempt : Attempt

/-- A call of `Connect` in the loop. -/
structure Tried where
  moment : Int
  /-- `exec` is not NULL. -/
  isOpen : Bool
  attempt : Attempt

/-- What a round of the loop comes to. -/
inductive StartProgress where
  /-- The loop goes on with its test. -/
  | goes
  | returned (value : Bool)
  /-- The call of `fgets` does not return. -/
  | hangs
  deriving DecidableEq

namespace LinuxPlugin

/-- `Start` where it runs the server: what it returns if it does not come to its loop. -/
def runServer (opened : Bool) : Program LinuxPlugin (Option Bool) := do
  if (← get).serverPath = [] then
    return some false
  else if ← execStart opened then
    return none
  else
    return some false

/-- `Start` up to its loop. -/
def startPrelude (first : Attempt) (opened : Bool) : Program LinuxPlugin (Option Bool) :=
  match first with
  | .refused => return some false
  | .connected true => return some true
  | .connected false | .thrown => runServer opened

/-- `while(ExecPoll()){};`, and whether it ends. -/
def drain (last : Option DrainEnd) : Nat → Program LinuxPlugin Bool
  | 0 =>
      match last with
      | none => do
          use (← get).exec
          return false
      | some last => do
          let _ ← execPoll last.answer
          return true
  | lines + 1 => do
      if ← execPoll .line then drain last lines else return true

/-- One round of the loop: the calls of `Connect` in it, and what it comes to. -/
def startRound (deadline : Int) (round : StartRound) :
    Program LinuxPlugin (List Tried × StartProgress) := do
  if deadline < round.clock ∧ (← get).exec ≠ none then
    if ← drain round.last round.lines then
      let isOpen := (← get).exec.isSome
      return ([⟨round.moment, isOpen, round.attempt⟩],
        if round.attempt.reached then .returned true else .goes)
    else
      return ([], .hangs)
  else
    return ([], .returned false)

end LinuxPlugin

/-- A call of `Start` that has come to its loop. -/
structure Launch where
  plugin : LinuxPlugin
  tried : List Tried
  progress : StartProgress

namespace Launch

open LinuxPlugin

/-- A round, unless `Start` has returned or hangs. -/
def step (deadline : Int) (launch : Launch) (round : StartRound) : Option Launch :=
  if launch.progress = .goes then
    (startRound deadline round launch.plugin).map fun ((tried, progress), plugin) =>
      ⟨plugin, launch.tried ++ tried, progress⟩
  else
    some launch

/-- The call after a number of rounds. -/
def after (deadline : Int) (rounds : Nat → StartRound) (launch : Launch) : Nat → Option Launch
  | 0 => some launch
  | n + 1 => (after deadline rounds launch n).bind fun launch => step deadline launch (rounds n)

end Launch

namespace LinuxPlugin

variable {plugin launched : LinuxPlugin}

/-- What the plugin is when everything that the stream offers has been read. -/
def drained (plugin : LinuxPlugin) : DrainEnd → LinuxPlugin
  | .null => plugin
  | .closed status =>
      { plugin with
        exec := none
        execRet := if plugin.children.Live plugin.execPid then status else -1
        streams := plugin.streams.release plugin.exec
        children := plugin.children.release plugin.execPid }

theorem drain_of_open (nonnull : plugin.exec ≠ none) (live : plugin.streams.Live plugin.exec)
    (last : DrainEnd) (lines : Nat) :
    (drain (some last) lines).Ends plugin fun ends next =>
      ends = true ∧ next = plugin.drained last := by
  induction lines with
  | zero => cases last <;> simp [drain, drained, execPoll, DrainEnd.answer, nonnull, live]
  | succ lines ih => simpa [drain, execPoll, nonnull, live] using ih

theorem drain_of_waiting (nonnull : plugin.exec ≠ none) (live : plugin.streams.Live plugin.exec)
    (lines : Nat) :
    (drain none lines).Ends plugin fun ends next => ends = false ∧ next = plugin := by
  induction lines with
  | zero => simp [drain, live]
  | succ lines ih => simpa [drain, execPoll, nonnull, live] using ih

/-- The events of the plugin that a round consists of. -/
def roundEvents (deadline : Int) (round : StartRound) : List PluginEvent :=
  .again (deadline < round.clock) ::
    (List.replicate round.lines (.drain .line) ++
      match round.last with
      | none => []
      | some last => [.drain last.answer, .connect round.attempt.reached])

/-- Where the plugin is after a round. -/
def phaseAfter : StartProgress → PluginPhase
  | .goes => .launching
  | .returned _ => .started
  | .hangs => .draining

/-- `ExecPoll` reads lines until something else comes. -/
theorem run_lines (nonnull : plugin.exec ≠ none) (live : plugin.streams.Live plugin.exec)
    (lines : Nat) :
    (machine program).run (some { plugin with phase := .draining })
        (List.replicate lines (.drain .line)) =
      some (some { plugin with phase := .draining }) := by
  induction lines with
  | zero => rfl
  | succ lines ih =>
      have line : (program (.drain .line)).Ends { plugin with phase := .draining } fun _ next =>
          next = { plugin with phase := .draining } := by
        simp [program, execPoll, nonnull, live]
      obtain ⟨_, stepped, rfl⟩ := line.step
      exact Machine.run_cons_eq_some.mpr ⟨_, stepped, ih⟩

/-- The end of the loop and the attempt after it. -/
theorem run_last (nonnull : plugin.exec ≠ none) (live : plugin.streams.Live plugin.exec)
    (last : DrainEnd) (reached : Bool) :
    (machine program).run (some { plugin with phase := .draining })
        [.drain last.answer, .connect reached] =
      some (some { plugin.drained last with
        phase := if reached then .started else .launching }) := by
  refine run_of_forM ?_
  have ends : ([.drain last.answer, .connect reached].forM program).Ends
      { plugin with phase := .draining } fun _ next => next =
        { plugin.drained last with phase := if reached then .started else .launching } := by
    cases last <;> cases reached <;>
      simp [program, execPoll, drained, DrainEnd.answer, nonnull, live]
  obtain ⟨_, _, runs, rfl⟩ := ends
  exact runs

/-- What is left of a round has no effect when `Start` has returned. -/
theorem run_started (started : plugin.phase = .started) {events : List PluginEvent}
    (others : ∀ event ∈ events,
      (∃ answer, event = .drain answer) ∨ ∃ reached, event = .connect reached) :
    (machine program).run (some plugin) events = some (some plugin) := by
  induction events with
  | nil => rfl
  | cons event events ih =>
      obtain ⟨first, rest⟩ := List.forall_mem_cons.mp others
      have ends : (program event).Ends plugin fun _ next => next = plugin := by
        obtain ⟨_, rfl⟩ | ⟨_, rfl⟩ := first <;> simp [program, started]
      obtain ⟨_, stepped, rfl⟩ := ends.step
      exact Machine.run_cons_eq_some.mpr ⟨_, stepped, ih rest⟩

theorem startRound_of_open {deadline : Int} {round : StartRound} (late : deadline < round.clock)
    (nonnull : plugin.exec ≠ none) (live : plugin.streams.Live plugin.exec) :
    (startRound deadline round).Ends plugin fun result next =>
      match round.last with
      | none => result = ([], .hangs) ∧ next = plugin
      | some last =>
          result = ([⟨round.moment, next.exec.isSome, round.attempt⟩],
            if round.attempt.reached then .returned true else .goes) ∧
          next = plugin.drained last := by
  simp only [startRound, ends_bind, ends_get, ends_ite, if_pos (And.intro late nonnull)]
  cases round.last with
  | none =>
      refine (drain_of_waiting nonnull live round.lines).mono ?_
      rintro _ _ ⟨rfl, rfl⟩
      simp
  | some last =>
      refine (drain_of_open nonnull live last round.lines).mono ?_
      rintro _ _ ⟨rfl, rfl⟩
      simp

/-- The test of the loop fails. -/
theorem startRound_of_test {deadline : Int} {round : StartRound}
    (fails : ¬(deadline < round.clock ∧ plugin.exec ≠ none)) :
    (startRound deadline round).Ends plugin fun result next =>
      result = ([], .returned false) ∧ next = plugin := by
  simp only [startRound, ends_bind, ends_get, ends_ite, if_neg fails, ends_pure, and_self]

/-- A round is a run of the plugin. -/
theorem run_roundEvents {deadline : Int} {round : StartRound} {next : LinuxPlugin}
    {result : List Tried × StartProgress}
    (live : plugin.exec ≠ none → plugin.streams.Live plugin.exec)
    (runs : startRound deadline round plugin = some (result, next)) :
    (machine program).run (some { plugin with phase := .launching })
        (roundEvents deadline round) =
      some (some { next with phase := phaseAfter result.2 }) := by
  by_cases test : deadline < round.clock ∧ plugin.exec ≠ none
  · have enters : (program (.again (deadline < round.clock))).Ends
        { plugin with phase := .launching } fun _ next =>
          next = { plugin with phase := .draining } := by
      simp [program, test]
    obtain ⟨_, stepped, rfl⟩ := enters.step
    refine Machine.run_cons_eq_some.mpr ⟨_, stepped, ?_⟩
    rw [Machine.run_append, run_lines test.2 (live test.2), Option.bind_some]
    have ends := (ends_iff_of_eq runs _).mp (startRound_of_open test.1 test.2 (live test.2))
    cases last : round.last with
    | none =>
        rw [last] at ends
        obtain ⟨rfl, rfl⟩ := ends
        rfl
    | some last' =>
        rw [last] at ends
        obtain ⟨rfl, rfl⟩ := ends
        refine (run_last test.2 (live test.2) last' round.attempt.reached).trans ?_
        cases round.attempt.reached <;> rfl
  · have leaves : (program (.again (deadline < round.clock))).Ends
        { plugin with phase := .launching } fun _ next =>
          next = { plugin with phase := .started } := by
      by_cases late : deadline < round.clock
      · have null : plugin.exec = none := by simpa [late] using test
        simp [program, null]
      · simp [program, late]
    obtain ⟨rfl, rfl⟩ := (ends_iff_of_eq runs _).mp (startRound_of_test test)
    obtain ⟨_, stepped, rfl⟩ := leaves.step
    refine Machine.run_cons_eq_some.mpr ⟨_, stepped, run_started rfl fun event member => ?_⟩
    rcases List.mem_append.mp member with line | rest
    · exact .inl ⟨_, List.eq_of_mem_replicate line⟩
    · cases last : round.last with
      | none => simp [last] at rest
      | some last' =>
          rw [last] at rest
          rcases List.mem_pair.mp rest with drain | connect
          · exact .inl ⟨_, drain⟩
          · exact .inr ⟨_, connect⟩

/-- The loop starts with an open stream. -/
theorem open_of_runServer (sound : plugin.streams.Sound) (opened : Bool) :
    (runServer opened).Ends plugin fun returned next =>
      returned = none → next.exec ≠ none ∧ next.streams.Live next.exec := by
  have live := sound.live_new
  simp only [runServer, ends_bind, ends_get, ends_ite, ends_pure]
  split
  · exact fun returned => by cases returned
  · cases opened <;> simp [execStart, popen2, live]

theorem open_of_startPrelude (sound : plugin.streams.Sound) {first : Attempt} {opened : Bool}
    (launches : startPrelude first opened plugin = some (none, launched)) :
    launched.exec ≠ none ∧ launched.streams.Live launched.exec := by
  have runs : runServer opened plugin = some (none, launched) := by
    cases first with
    | refused => cases launches
    | thrown => exact launches
    | connected ping =>
        cases ping with
        | true => cases launches
        | false => exact launches
  exact (ends_iff_of_eq runs _).mp (open_of_runServer sound opened) rfl

section Sound

variable {body : Program LinuxPlugin Unit}

/-- Only streams that were opened have been closed. -/
abbrev SoundStreams (plugin : LinuxPlugin) : Prop := plugin.streams.Sound

theorem enter_sound (phase : PluginPhase) : (enter phase).Preserves SoundStreams :=
  .modify fun _ => id

theorem awaiting_sound (phase : PluginPhase) (preserves : body.Preserves SoundStreams) :
    (awaiting phase body).Preserves SoundStreams :=
  .bind .get fun _ => .ite preserves (.pure _)

theorem pclose2_sound (stream child : Pointer) (status : Int) :
    (pclose2 stream child status).Preserves SoundStreams := by
  refine .bind (.bind .get fun _ => .ite (.pure _) .fault) fun _ => ?_
  refine .bind (.modify fun plugin sound => sound.release stream) fun _ => .bind .get fun _ => ?_
  exact .bind (.modify fun _ => id) fun _ => .pure _

theorem execPoll_sound (answer : StreamAnswer) : (execPoll answer).Preserves SoundStreams := by
  refine .bind .get fun plugin => .ite (.pure _) ?_
  refine .bind (.bind .get fun _ => .ite (.pure _) .fault) fun _ => ?_
  cases answer with
  | ended status =>
      refine .bind (pclose2_sound _ _ status) fun _ => .bind (.modify fun _ => id) fun _ => .pure _
  | line => exact .pure _
  | nothing => exact .pure _

theorem execStart_sound (opened : Bool) : (execStart opened).Preserves SoundStreams := by
  refine .bind (.modify fun _ => id) fun _ => .bind (.bind .get fun _ => ?_) fun _ =>
    .bind (.modify fun _ => id) fun _ => .pure _
  refine .bind (.modify fun _ => id) fun _ => .ite (.bind .get fun _ => ?_) ?_
  · exact .bind (.modify fun plugin sound => sound.new) fun _ => .pure _
  · exact .bind (.modify fun _ => id) fun _ => .pure _

theorem probed_sound : probed.Preserves SoundStreams := by
  refine .bind .get fun _ => .ite (.bind .get fun _ => .ite ?_ (enter_sound _)) (enter_sound _)
  exact .bind (.modify fun _ => id) fun _ => enter_sound _

theorem program_sound (event : PluginEvent) : (program event).Preserves SoundStreams := by
  cases event with
  | controlExists pluginDir running opened =>
      refine awaiting_sound _ (.ite (.pure _) (.bind (.modify fun _ => id) fun _ => ?_))
      exact .bind (execStart_sound opened) fun _ => probed_sound
  | probe answer => exact awaiting_sound _ (.bind (execPoll_sound answer) fun _ => probed_sound)
  | start running opened =>
      refine awaiting_sound _ (.ite (enter_sound _) (.bind .get fun _ => .ite (enter_sound _) ?_))
      exact .bind (execStart_sound opened) fun _ => .ite (enter_sound _) (enter_sound _)
  | again clock =>
      exact awaiting_sound _ (.bind .get fun _ => .ite (enter_sound _) (enter_sound _))
  | drain answer =>
      refine awaiting_sound _ (.bind (execPoll_sound answer) fun _ => ?_)
      exact .ite (.pure _) (enter_sound _)
  | connect reached => exact awaiting_sound _ (.ite (enter_sound _) (enter_sound _))
  | poll answer => exact awaiting_sound _ (.bind (execPoll_sound answer) fun _ => .pure _)
  | stop status =>
      refine awaiting_sound _ (.bind .get fun _ => .ite (enter_sound _) ?_)
      exact .bind (pclose2_sound _ _ status) fun _ => enter_sound _

end Sound

end LinuxPlugin

/-- The clock does not go back. -/
def Forward (began : Int) (rounds : Nat → StartRound) : Prop :=
  began ≤ (rounds 0).clock ∧
    ∀ n, (rounds n).clock ≤ (rounds n).moment ∧ (rounds n).moment ≤ (rounds (n + 1)).clock

/-- In all of the first rounds the reading ended, the stream was not closed, and the attempt did not
end the loop. -/
def Unanswered (rounds : Nat → StartRound) (n : Nat) : Prop :=
  ∀ m < n, (rounds m).last = some .null ∧ (rounds m).attempt.reached = false

theorem Unanswered.succ {rounds : Nat → StartRound} {n : Nat} (unanswered : Unanswered rounds n)
    (goes : (rounds n).last = some .null) (fails : (rounds n).attempt.reached = false) :
    Unanswered rounds (n + 1) := by
  intro m less
  rcases Nat.lt_succ_iff_lt_or_eq.mp less with earlier | rfl
  · exact unanswered m earlier
  · exact ⟨goes, fails⟩

/-- No attempt ends the loop up to the round in which the stream is closed or `fgets` does not
return. -/
def Fruitless (rounds : Nat → StartRound) : Prop :=
  ∀ n, (∀ m < n, (rounds m).last = some .null) → (rounds n).last ≠ none →
    (rounds n).attempt.reached = false

theorem Forward.first_le {began : Int} {rounds : Nat → StartRound}
    (forward : Forward began rounds) (n : Nat) : (rounds 0).clock ≤ (rounds n).clock := by
  induction n with
  | zero => exact Int.le_refl _
  | succ n ih =>
      obtain ⟨tries, tests⟩ := forward.2 n
      omega

/-- The attempt succeeds in time and while the stream is open. -/
def Tried.Timely (deadline : Int) (tried : Tried) : Prop :=
  tried.moment < deadline ∧ tried.isOpen = true ∧ tried.attempt = .connected true

namespace Launch

open LinuxPlugin

variable {deadline : Int} {launch next : Launch} {round : StartRound}

theorem step_of_halted (halted : launch.progress ≠ .goes) :
    step deadline launch round = some launch :=
  if_neg halted

theorem step_of_test (waits : launch.progress = .goes)
    (fails : ¬(deadline < round.clock ∧ launch.plugin.exec ≠ none)) :
    step deadline launch round = some { launch with progress := .returned false } := by
  obtain ⟨_, _, runs, rfl, rfl⟩ := startRound_of_test fails
  rw [step, if_pos waits, runs]
  simp

/-- The loop hangs while the child is silent. -/
theorem step_of_waiting (waits : launch.progress = .goes) (late : deadline < round.clock)
    (nonnull : launch.plugin.exec ≠ none)
    (live : launch.plugin.streams.Live launch.plugin.exec) (silent : round.last = none) :
    step deadline launch round = some { launch with progress := .hangs } := by
  obtain ⟨result, _, runs, ends⟩ := startRound_of_open late nonnull live
  rw [silent] at ends
  obtain ⟨rfl, rfl⟩ := ends
  rw [step, if_pos waits, runs]
  simp

theorem step_of_open (waits : launch.progress = .goes) (late : deadline < round.clock)
    (nonnull : launch.plugin.exec ≠ none)
    (live : launch.plugin.streams.Live launch.plugin.exec) {last : DrainEnd}
    (drains : round.last = some last) :
    step deadline launch round =
      some
        { plugin := launch.plugin.drained last
          tried := launch.tried ++
            [⟨round.moment, (launch.plugin.drained last).exec.isSome, round.attempt⟩]
          progress := if round.attempt.reached then .returned true else .goes } := by
  obtain ⟨result, _, runs, ends⟩ := startRound_of_open late nonnull live
  rw [drains] at ends
  obtain ⟨rfl, rfl⟩ := ends
  rw [step, if_pos waits, runs]
  rfl

section Loop

variable {rounds : Nat → StartRound} {launched : LinuxPlugin}

theorem tried_eq_nil (early : ¬deadline < (rounds 0).clock) (n : Nat) :
    ∀ launch ∈ after deadline rounds ⟨launched, [], .goes⟩ n,
      launch.tried = [] ∧ (launch.progress = .goes → n = 0) := by
  induction n with
  | zero =>
      rintro _ ⟨⟩
      exact ⟨rfl, fun _ => rfl⟩
  | succ n ih =>
      intro next reached
      obtain ⟨launch, before, stepped⟩ := Option.bind_eq_some_iff.mp reached
      obtain ⟨nothing, first⟩ := ih launch before
      by_cases waits : launch.progress = .goes
      · obtain rfl := first waits
        rw [step_of_test waits fun test => early test.1] at stepped
        obtain rfl := Option.some.inj stepped
        exact ⟨nothing, nofun⟩
      · rw [step_of_halted waits] at stepped
        obtain rfl := Option.some.inj stepped
        exact ⟨nothing, fun goes => absurd goes waits⟩

/-- What holds after a number of rounds when the first test came late. -/
structure Story (deadline : Int) (rounds : Nat → StartRound) (launched : LinuxPlugin) (n : Nat)
    (launch : Launch) : Prop where
  late : ∀ tried ∈ launch.tried, deadline < tried.moment
  waiting : launch.progress = .goes → launch.plugin.exec ≠ none →
    Unanswered rounds n ∧ launch.plugin = launched
  found : launch.progress = .returned true →
    ∃ m, Unanswered rounds m ∧ (rounds m).last ≠ none ∧ (rounds m).attempt.reached = true

theorem after_of_unanswered (late : ∀ n, deadline < (rounds n).clock)
    (nonnull : launched.exec ≠ none) (live : launched.streams.Live launched.exec) {n : Nat}
    (unanswered : Unanswered rounds n) :
    ∃ tried, after deadline rounds ⟨launched, [], .goes⟩ n = some ⟨launched, tried, .goes⟩ := by
  induction n with
  | zero => exact ⟨[], rfl⟩
  | succ n ih =>
      obtain ⟨tried, before⟩ := ih fun m less => unanswered m (Nat.lt_succ_of_lt less)
      obtain ⟨goes, fails⟩ := unanswered n (Nat.lt_succ_self n)
      have stepped :=
        @step_of_open deadline ⟨launched, tried, .goes⟩ _ rfl (late n) nonnull live _ goes
      rw [fails] at stepped
      rw [after, before, Option.bind_some, stepped]
      exact ⟨_, rfl⟩

theorem Story.step_of_open {n : Nat} (story : Story deadline rounds launched n launch)
    (late : deadline < (rounds n).clock) (forward : (rounds n).clock ≤ (rounds n).moment)
    (live : launched.streams.Live launched.exec) (waits : launch.progress = .goes)
    (nonnull : launch.plugin.exec ≠ none)
    (stepped : step deadline launch (rounds n) = some next) :
    Story deadline rounds launched (n + 1) next := by
  obtain ⟨unanswered, rfl⟩ := story.waiting waits nonnull
  cases drains : (rounds n).last with
  | none =>
      rw [step_of_waiting waits late nonnull live drains] at stepped
      obtain rfl := Option.some.inj stepped
      exact ⟨story.late, nofun, nofun⟩
  | some last =>
      rw [Launch.step_of_open waits late nonnull live drains] at stepped
      obtain rfl := Option.some.inj stepped
      refine ⟨fun tried member => ?_, fun goes opened => ?_, fun returned => ?_⟩
      · rcases List.mem_append.mp member with old | new
        · exact story.late tried old
        · obtain rfl := List.mem_singleton.mp new
          exact late.trans_le forward
      · have fails : (rounds n).attempt.reached = false := by
          by_contra reached
          simp [reached] at goes
        cases last with
        | closed status => simp [drained] at opened
        | null => exact ⟨unanswered.succ drains fails, rfl⟩
      · refine ⟨n, unanswered, by simp [drains], ?_⟩
        by_contra fails
        simp [fails] at returned

theorem Story.step {n : Nat} (story : Story deadline rounds launched n launch)
    (late : deadline < (rounds n).clock) (forward : (rounds n).clock ≤ (rounds n).moment)
    (live : launched.streams.Live launched.exec)
    (stepped : Launch.step deadline launch (rounds n) = some next) :
    Story deadline rounds launched (n + 1) next := by
  by_cases waits : launch.progress = .goes
  · by_cases null : launch.plugin.exec = none
    · rw [step_of_test waits fun test => test.2 null] at stepped
      obtain rfl := Option.some.inj stepped
      exact ⟨story.late, nofun, nofun⟩
    · exact story.step_of_open late forward live waits null stepped
  · rw [step_of_halted waits] at stepped
    obtain rfl := Option.some.inj stepped
    exact ⟨story.late, fun goes => absurd goes waits, story.found⟩

theorem story_after (late : ∀ n, deadline < (rounds n).clock)
    (forward : ∀ n, (rounds n).clock ≤ (rounds n).moment)
    (live : launched.streams.Live launched.exec) (n : Nat) :
    ∀ launch ∈ after deadline rounds ⟨launched, [], .goes⟩ n,
      Story deadline rounds launched n launch := by
  induction n with
  | zero =>
      rintro _ ⟨⟩
      refine ⟨fun _ member => absurd member List.not_mem_nil, fun _ _ => ⟨?_, rfl⟩, nofun⟩
      exact fun m less => absurd less (Nat.not_lt_zero m)
  | succ n ih =>
      intro next reached
      obtain ⟨launch, before, stepped⟩ := Option.bind_eq_some_iff.mp reached
      exact (ih launch before).step (late n) (forward n) live stepped

end Loop

end Launch

namespace LinuxPlugin

/-- `Start` tries to connect, it returns true exactly when it succeeds in time, and it does not give
up before the deadline. -/
structure Waits (deadline : Int) (rounds : Nat → StartRound) (launched : LinuxPlugin) : Prop where
  tries : ∃ n, ∃ launch ∈ Launch.after deadline rounds ⟨launched, [], .goes⟩ n, launch.tried ≠ []
  returns :
    (∃ n, ∃ launch ∈ Launch.after deadline rounds ⟨launched, [], .goes⟩ n,
        launch.progress = .returned true) ↔
      ∃ n, ∃ launch ∈ Launch.after deadline rounds ⟨launched, [], .goes⟩ n,
        ∃ tried ∈ launch.tried, tried.Timely deadline
  patient : ∀ n, ∀ launch ∈ Launch.after deadline rounds ⟨launched, [], .goes⟩ n,
    launch.progress = .goes →
      ∀ next ∈ Launch.after deadline rounds ⟨launched, [], .goes⟩ (n + 1),
        next.progress = .returned false → deadline ≤ (rounds n).clock

variable {deadline began : Int} {rounds : Nat → StartRound} {plugin launched : LinuxPlugin}

theorem returns_of_not_fruitless (late : ∀ n, deadline < (rounds n).clock)
    (nonnull : launched.exec ≠ none) (live : launched.streams.Live launched.exec)
    (answered : ¬Fruitless rounds) :
    ∃ n, ∃ launch ∈ Launch.after deadline rounds ⟨launched, [], .goes⟩ n,
      launch.progress = .returned true := by
  classical
  -- the first such round is the one in which the loop ends
  let Ends (n : Nat) : Prop := (∀ m < n, (rounds m).last = some .null) ∧
    (rounds n).last ≠ none ∧ (rounds n).attempt.reached = true
  have some_round : ∃ n, Ends n := by
    simpa [Ends, Fruitless] using answered
  obtain ⟨n, ⟨goes, drains, reached⟩, least⟩ : ∃ n, Ends n ∧ ∀ m < n, ¬Ends m :=
    ⟨Nat.find some_round, Nat.find_spec some_round, fun m => Nat.find_min some_round⟩
  have unanswered : Unanswered rounds n := by
    intro m less
    refine ⟨goes m less, ?_⟩
    by_contra answers
    refine least m less ⟨fun k before => goes k (before.trans less), ?_, by simpa using answers⟩
    rw [goes m less]
    exact Option.some_ne_none _
  obtain ⟨tried, before⟩ := Launch.after_of_unanswered late nonnull live unanswered
  obtain ⟨last, drains⟩ := Option.ne_none_iff_exists'.mp drains
  have stepped :=
    @Launch.step_of_open deadline ⟨launched, tried, .goes⟩ (rounds n) rfl (late n) nonnull live _
      drains
  rw [reached, if_pos rfl] at stepped
  exact ⟨n + 1, _, Option.bind_eq_some_iff.mpr ⟨_, before, stepped⟩, rfl⟩

theorem tried_eq_nil_of_silent (late : deadline < (rounds 0).clock)
    (nonnull : launched.exec ≠ none) (live : launched.streams.Live launched.exec)
    (silent : (rounds 0).last = none) (n : Nat) :
    ∀ launch ∈ Launch.after deadline rounds ⟨launched, [], .goes⟩ n, launch.tried = [] := by
  have hung (n : Nat) : Launch.after deadline rounds ⟨launched, [], .goes⟩ (n + 1) =
      some ⟨launched, [], .hangs⟩ := by
    induction n with
    | zero =>
        exact @Launch.step_of_waiting deadline ⟨launched, [], .goes⟩ (rounds 0) rfl late nonnull
          live silent
    | succ n ih =>
        rw [Launch.after, ih, Option.bind_some]
        exact Launch.step_of_halted (by simp)
  intro launch reached
  cases n with
  | zero =>
      obtain rfl := Option.some.inj reached
      rfl
  | succ n =>
      obtain rfl := Option.some.inj ((hung n).symm.trans reached)
      rfl

theorem waits_iff_of_open (forward : Forward began rounds) (nonnull : launched.exec ≠ none)
    (live : launched.streams.Live launched.exec) :
    Waits deadline rounds launched ↔
      deadline < (rounds 0).clock ∧ (rounds 0).last ≠ none ∧ Fruitless rounds := by
  by_cases first : deadline < (rounds 0).clock
  · have late (n : Nat) : deadline < (rounds n).clock :=
      first.trans_le (forward.first_le n)
    have story := Launch.story_after late (fun n => (forward.2 n).1) live
    have untimely : ¬∃ n, ∃ launch ∈ Launch.after deadline rounds ⟨launched, [], .goes⟩ n,
        ∃ tried ∈ launch.tried, tried.Timely deadline := by
      rintro ⟨n, launch, reached, tried, member, timely, -⟩
      exact lt_asymm timely ((story n launch reached).late tried member)
    constructor
    · intro waits
      refine ⟨first, fun silent => ?_, ?_⟩
      · obtain ⟨n, launch, reached, tries⟩ := waits.tries
        exact tries (tried_eq_nil_of_silent first nonnull live silent n launch reached)
      · by_contra answered
        exact untimely (waits.returns.mp (returns_of_not_fruitless late nonnull live answered))
    · rintro ⟨-, drains, fruitless⟩
      refine ⟨?_, iff_of_false ?_ untimely, fun n _ _ _ _ _ _ => (late n).le⟩
      · obtain ⟨last, drains⟩ := Option.ne_none_iff_exists'.mp drains
        have stepped :=
          @Launch.step_of_open deadline ⟨launched, [], .goes⟩ (rounds 0) rfl first nonnull live _
            drains
        exact ⟨1, _, stepped, List.cons_ne_nil _ _⟩
      · rintro ⟨n, launch, reached, returned⟩
        obtain ⟨m, unanswered, drains, answers⟩ := (story n launch reached).found returned
        have fails := fruitless m (fun k less => (unanswered k less).1) drains
        exact Bool.false_ne_true (fails.symm.trans answers)
  · refine iff_of_false ?_ fun both => first both.1
    rintro ⟨⟨n, launch, reached, tries⟩, -⟩
    exact tries (Launch.tried_eq_nil first n launch reached).1

/-- One second on the clock. -/
def second : Int := 1000000000

/-- The test of the loop is the wrong way round: `Start` gives up at once unless a second passes
before the first test, and then whatever it finds is too late, or it never comes to look because it
waits for a child that prints nothing. -/
theorem waits_iff {events : List PluginEvent} {first : Attempt} {opened : Bool}
    (reached : (machine program).run (some initial) events = some (some plugin))
    (launches : startPrelude first opened plugin = some (none, launched))
    (forward : Forward began rounds) :
    Waits (began + second) rounds launched ↔
      began + second < (rounds 0).clock ∧ (rounds 0).last ≠ none ∧ Fruitless rounds := by
  have sound := holds_of_run program_sound Heap.Sound.empty reached
  obtain ⟨nonnull, live⟩ := open_of_startPrelude sound launches
  exact waits_iff_of_open forward nonnull live

/-- Rounds of a nanosecond each.  The child ends without having printed anything: the first `fgets`
meets the end of the stream, and from then on `feof` is true. -/
def childlessRounds (began : Int) (attempt : Attempt) (n : Nat) : StartRound :=
  ⟨began + n, 0, some (if n = 0 then .null else .closed 0), began + n, attempt⟩

theorem childlessRounds_forward {began first : Int} (before : began ≤ first) (attempt : Attempt) :
    Forward began (childlessRounds first attempt) := by
  refine ⟨?_, fun n => ⟨le_rfl, ?_⟩⟩
  · simpa [childlessRounds] using before
  · simp [childlessRounds]

/-- The first call of `Start` comes to its loop. -/
theorem exists_launched :
    ∃ plugin launched,
      (machine program).run (some initial)
          [.controlExists (ascii "/") false true, .probe (.ended 0)] = some (some plugin) ∧
        startPrelude .thrown true plugin = some (none, launched) :=
  ⟨_, _, rfl, rfl⟩

/-- Two seconds pass before the first test, and the server never answers. -/
theorem waits_of_lateTest :
    ∃ launched, Waits (0 + second) (childlessRounds 2000000000 .refused) launched := by
  obtain ⟨plugin, launched, reached, launches⟩ := exists_launched
  have forward := @childlessRounds_forward 0 2000000000 (by decide) .refused
  exact ⟨launched, (waits_iff reached launches forward).mpr ⟨by decide, nofun, fun _ _ _ => rfl⟩⟩

/-- The server answers at once, but `Start` has given up by then. -/
theorem not_waits_of_earlyTest :
    ¬∀ (events : List PluginEvent) (plugin launched : LinuxPlugin) (first : Attempt)
      (opened : Bool) (began : Int) (rounds : Nat → StartRound),
      (machine program).run (some initial) events = some (some plugin) →
        startPrelude first opened plugin = some (none, launched) → Forward began rounds →
          Waits (began + second) rounds launched := by
  intro always
  obtain ⟨plugin, launched, reached, launches⟩ := exists_launched
  have forward := childlessRounds_forward (le_refl 0) (.connected true)
  obtain ⟨n, launch, after, tries⟩ := (always _ _ _ _ _ 0 _ reached launches forward).tries
  exact tries (Launch.tried_eq_nil (by decide) n launch after).1

end LinuxPlugin

end CncRemote
