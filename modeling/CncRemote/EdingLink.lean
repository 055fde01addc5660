import CncRemote.EdingDll
import CncRemote.Machine

/-!
# The connection to the Eding server

`PollConnected` connects to the vendor's server once its user interface has been running for a while
and remembers this in `m_connected`.  `always_current_iff` says in which runs the flag is about the
user interface that is running now.
-/

namespace CncRemote

/-- `_tcsicmp` folds the letters to one case. -/
def foldCase (char : UInt16) : UInt16 := if 65 ≤ char ∧ char ≤ 90 then char + 32 else char

/-- The name of a process, in any case. -/
def Named (process : Wide) (name : String) : Prop :=
  process.map foldCase = (wide name).map foldCase

instance (process : Wide) (name : String) : Decidable (Named process name) :=
  inferInstanceAs (Decidable (_ = _))

/-- The process is the user interface. -/
def IsGui (process : Wide) : Prop := Named process "usbcnc.exe" ∨ Named process "cnc.exe"

/-- The process is the server. -/
def IsCncServer (process : Wide) : Prop := Named process "CncServer.exe"

instance : DecidablePred IsGui := fun _ => inferInstanceAs (Decidable (_ ∨ _))

instance : DecidablePred IsCncServer := fun _ => inferInstanceAs (Decidable (Named _ _))

/-- The loop of `GuiRunning`. -/
def scanProcesses : List Wide → Nat → Bool
  | [], _ => false
  | process :: rest, found =>
      let found := if IsGui process then found ||| 1 else found
      let found := if IsCncServer process then found ||| 2 else found
      if found = 3 then true else scanProcesses rest found

/-- `GuiRunning` on the names of the processes, where `none` is a snapshot that fails. -/
def guiRunning : Option (List Wide) → Bool
  | none => false
  | some processes => scanProcesses processes 0

/-- What a call of `PollConnected` finds. -/
structure LinkPoll where
  /-- The processes that are running. -/
  processes : Option (List Wide)
  loadDll : Bool
  /-- The result of `CncConnectServer`. -/
  connectServer : Int
  isServerConnected : Bool
  deriving DecidableEq, Repr

/-- `CNC_RC_ALREADY_RUNS`. -/
def cncRcAlreadyRuns : Int := 6

/-- The variables of `PollConnected`. -/
structure EdingLink where
  connected : Bool
  connectCount : Nat
  deriving DecidableEq, Repr

/-- How far a call of `PollConnected` comes. -/
inductive LinkOutcome where
  | waiting
  /-- `CncConnectServer` is called in vain. -/
  | refused
  | connected
  deriving DecidableEq, Repr

namespace EdingLink

/-- A new driver. -/
def initial : EdingLink := ⟨false, 0⟩

/-- `PollConnected`. -/
def pollConnected (link : EdingLink) (poll : LinkPoll) : EdingLink × LinkOutcome :=
  if guiRunning poll.processes = false then
    ({ link with connectCount := 0 }, .waiting)
  else if link.connected then
    (link, .waiting)
  else if link.connectCount < 4 then
    ({ link with connectCount := link.connectCount + 1 }, .waiting)
  else if poll.loadDll = false then
    (link, .waiting)
  else if poll.connectServer ≠ cncRcAlreadyRuns then
    (link, .refused)
  else if poll.isServerConnected = false then
    (link, .refused)
  else
    ({ link with connected := true }, .connected)

theorem pollConnected_cases (link : EdingLink) {poll : LinkPoll}
    (running : guiRunning poll.processes = true) :
    (link.pollConnected poll = (link, .waiting) ∧
        (link.connected = true ∨ 4 ≤ link.connectCount ∧ poll.loadDll = false)) ∨
      (link.pollConnected poll = ({ link with connectCount := link.connectCount + 1 }, .waiting) ∧
        link.connected = false ∧ link.connectCount < 4) ∨
      (link.pollConnected poll = (link, .refused) ∧
        link.connected = false ∧ 4 ≤ link.connectCount) ∨
      link.pollConnected poll = ({ link with connected := true }, .connected) ∧
        link.connected = false ∧ 4 ≤ link.connectCount := by
  unfold pollConnected
  split_ifs with missing connected early library refused alone
  · simp [running] at missing
  · exact .inl ⟨rfl, .inl connected⟩
  · exact .inr (.inl ⟨rfl, by simpa using connected, early⟩)
  · exact .inl ⟨rfl, .inr ⟨by omega, library⟩⟩
  · exact .inr (.inr (.inl ⟨rfl, by simpa using connected, by omega⟩))
  · exact .inr (.inr (.inl ⟨rfl, by simpa using connected, by omega⟩))
  · exact .inr (.inr (.inr ⟨rfl, by simpa using connected, by omega⟩))

end EdingLink

/-- A driver and what its polls have found. -/
structure LinkHistory where
  link : EdingLink
  /-- How many polls have found the user interface running since the last one that did not. -/
  running : Nat
  /-- The driver has connected since the last poll that did not find the user interface. -/
  fresh : Bool
  /-- The last poll called `CncConnectServer`. -/
  called : Bool
  /-- The last poll was at least the fifth in a row, no connection had been made in the
  meantime, and the library was there. -/
  due : Bool
  deriving DecidableEq, Repr

namespace LinkHistory

/-- A new driver that has not been polled. -/
def start : LinkHistory := ⟨.initial, 0, false, false, false⟩

/-- One call of `PollConnected`. -/
def step (history : LinkHistory) (poll : LinkPoll) : LinkHistory :=
  let (link, outcome) := history.link.pollConnected poll
  if guiRunning poll.processes then
    { link
      running := history.running + 1
      fresh := history.fresh || outcome == .connected
      called := outcome != .waiting
      due := decide (5 ≤ history.running + 1) && !history.fresh && poll.loadDll }
  else
    { link, running := 0, fresh := false, called := outcome != .waiting, due := false }

/-- The polls of a driver. -/
def machine : Machine LinkHistory LinkPoll := ⟨fun history poll => some (history.step poll)⟩

/-- `CncConnectServer` is called only after the fifth poll in a row that finds the user interface.
-/
def Debounced (history : LinkHistory) : Prop := history.called = true → 5 ≤ history.running

/-- The driver does not rush, holds a connection to the user interface that is running now if any,
and otherwise connects as soon as it may. -/
structure Current (history : LinkHistory) : Prop where
  debounced : history.Debounced
  fresh : history.link.connected = true → history.fresh = true
  prompt : history.due = true → history.called = true

instance : DecidablePred Current := fun history =>
  decidable_of_iff
    ((history.called = true → 5 ≤ history.running) ∧
      (history.link.connected = true → history.fresh = true) ∧
        (history.due = true → history.called = true))
    ⟨fun ⟨debounced, fresh, prompt⟩ => ⟨debounced, fresh, prompt⟩,
      fun ⟨debounced, fresh, prompt⟩ => ⟨debounced, fresh, prompt⟩⟩

/-- The counter is at most the number of polls that it counts. -/
structure Counted (history : LinkHistory) : Prop where
  debounced : history.Debounced
  counted : history.link.connectCount ≤ history.running

/-- What the polls keep that find the user interface running or no connection. -/
structure Steady (history : LinkHistory) : Prop extends history.Current where
  connected : history.link.connected = history.fresh
  counted : history.link.connectCount ≤ history.running
  waited : history.fresh = false → history.link.connectCount = min 4 history.running

/-- No poll that finds a connection misses the user interface. -/
def Notices (history : LinkHistory) (poll : LinkPoll) : Prop :=
  history.link.connected = true → guiRunning poll.processes = true

variable {history : LinkHistory}

theorem start_steady : start.Steady := by
  refine ⟨⟨?_, ?_, ?_⟩, rfl, Nat.le_refl 0, fun _ => rfl⟩ <;> rintro ⟨⟩

theorem step_of_missing {poll : LinkPoll} (missing : guiRunning poll.processes = false) :
    history.step poll =
      { link := { history.link with connectCount := 0 }
        running := 0, fresh := false, called := false, due := false } := by
  simp [step, EdingLink.pollConnected, missing]

theorem step_of_running {poll : LinkPoll} {link : EdingLink} {outcome : LinkOutcome}
    (running : guiRunning poll.processes = true)
    (polled : history.link.pollConnected poll = (link, outcome)) :
    history.step poll =
      { link
        running := history.running + 1
        fresh := history.fresh || outcome == .connected
        called := outcome != .waiting
        due := decide (5 ≤ history.running + 1) && !history.fresh && poll.loadDll } := by
  simp [step, polled, running]

theorem Counted.step (counted : history.Counted) (poll : LinkPoll) :
    (history.step poll).Counted := by
  have bound := counted.counted
  cases running : guiRunning poll.processes with
  | false =>
      rw [step_of_missing running]
      exact ⟨by simp [Debounced], Nat.le_refl 0⟩
  | true =>
      obtain ⟨polled, -⟩ | ⟨polled, -, -⟩ | ⟨polled, -, ready⟩ | ⟨polled, -, ready⟩ :=
        history.link.pollConnected_cases running
      all_goals
        rw [step_of_running running polled]
        constructor
      · simp [Debounced]
      · exact Nat.le_succ_of_le bound
      · simp [Debounced]
      · exact Nat.succ_le_succ bound
      · exact fun _ => Nat.succ_le_succ (ready.trans bound)
      · exact Nat.le_succ_of_le bound
      · exact fun _ => Nat.succ_le_succ (ready.trans bound)
      · exact Nat.le_succ_of_le bound

/-- Whatever the polls find, the driver does not rush. -/
theorem always_debounced (polls : List LinkPoll) : machine.Always Debounced start polls := by
  refine Machine.always_iff.mpr fun front final _ execution => ?_
  have start_counted : start.Counted := ⟨by simp [Debounced, start], Nat.le_refl 0⟩
  refine (Machine.invariant_of_run ?_ start_counted execution).debounced
  rintro history poll _ counted ⟨⟩
  exact counted.step poll

theorem Steady.step (steady : history.Steady) {poll : LinkPoll} (notices : history.Notices poll) :
    (history.step poll).Steady := by
  have same := steady.connected
  have bound := steady.counted
  cases running : guiRunning poll.processes with
  | false =>
      have apart : history.link.connected = false := by
        by_contra connected
        simp [notices (by simpa using connected)] at running
      rw [step_of_missing running]
      exact ⟨⟨by simp [Debounced], by simp [apart], by simp⟩, apart, Nat.le_refl 0, by simp⟩
  | true =>
      obtain ⟨polled, late⟩ | ⟨polled, apart, early⟩ | ⟨polled, apart, ready⟩ |
          ⟨polled, apart, ready⟩ := history.link.pollConnected_cases running
      · rw [step_of_running running polled]
        refine ⟨⟨by simp [Debounced], by simp [same], ?_⟩, by simp [same],
          Nat.le_succ_of_le bound, ?_⟩
        · rcases late with connected | ⟨-, missing⟩
          · simp [← same, connected]
          · simp [missing]
        · intro stale
          have stale : history.fresh = false := by simpa using stale
          have waited := steady.waited stale
          rcases late with connected | ⟨ready, -⟩
          · simp [same, stale] at connected
          · show history.link.connectCount = min 4 (history.running + 1)
            omega
      · have waited := steady.waited (same ▸ apart)
        rw [step_of_running running polled]
        refine ⟨⟨by simp [Debounced], by simp [same], ?_⟩, by simp [same],
          Nat.succ_le_succ bound, ?_⟩
        · intro due
          have five : 5 ≤ history.running + 1 := by
            simp only [Bool.and_eq_true, decide_eq_true_eq] at due
            exact due.1.1
          omega
        · intro
          show history.link.connectCount + 1 = min 4 (history.running + 1)
          omega
      · have waited := steady.waited (same ▸ apart)
        rw [step_of_running running polled]
        refine ⟨⟨fun _ => Nat.succ_le_succ (ready.trans bound), by simp [same], by simp⟩,
          by simp [same], Nat.le_succ_of_le bound, ?_⟩
        intro
        show history.link.connectCount = min 4 (history.running + 1)
        omega
      · rw [step_of_running running polled]
        exact ⟨⟨fun _ => Nat.succ_le_succ (ready.trans bound), by simp, by simp⟩, by simp,
          Nat.le_succ_of_le bound, by simp⟩

/-- The flag stays set when the user interface is gone. -/
theorem not_current_of_missed {poll : LinkPoll} (missed : ¬history.Notices poll) :
    ¬(history.step poll).Current := by
  simp only [Notices, not_forall, Bool.not_eq_true] at missed
  obtain ⟨connected, missing⟩ := missed
  rw [step_of_missing missing]
  intro current
  exact Bool.false_ne_true (current.fresh connected)

/-- The flag is about the user interface that is running in the runs in which no poll that finds a
connection misses the user interface. -/
theorem always_current_iff (polls : List LinkPoll) :
    machine.Always Current start polls ↔ machine.Guarded Notices start polls := by
  refine Machine.always_iff_guarded ?_ (fun steady => steady.toCurrent) ?_ start_steady polls
  · rintro history poll _ steady notices ⟨⟩
    exact steady.step notices
  · rintro history poll _ steady missed ⟨⟩
    exact not_current_of_missed missed

/-- A poll that finds the user interface and the server, and connects. -/
def answering : LinkPoll := ⟨some [wide "CNC.EXE", wide "CncServer.exe"], true, 6, true⟩

/-- The user interface is closed, and started again: the driver goes by the old connection and calls
`CncConnectServer` on none of the polls that follow. -/
theorem connected_without_gui :
    ¬machine.Always Current start (List.replicate 5 answering ++
        { answering with processes := some [] } :: List.replicate 5 answering) ∧
      (machine.run start (List.replicate 5 answering ++
        { answering with processes := some [] } :: List.replicate 5 answering)).map
          (fun history => (history.running, history.due, history.called)) =
        some (5, true, false) :=
  ⟨by decide +kernel, by decide +kernel⟩

end LinkHistory

end CncRemote
