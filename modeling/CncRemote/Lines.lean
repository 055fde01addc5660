import CncRemote.JogCache
import Mathlib.Data.List.TakeWhile

/-!
# Lines for the control of LinuxCNC

`Mdi` and `LoadFile` copy a text into a buffer of `LINELEN` characters.  `lines_iff` says when what
they send is the whole text, and when their result can be believed.
-/

namespace CncRemote

open Program

deriving instance DecidableEq for NmlCommand

namespace LinuxCnc

variable {R : Type}

/-- `*m_emcStatus` -/
def status (server : LinuxCnc R) : EmcStat R := server.content (server.emcStatus.getD 0)

/-- `SetMode` would return true. -/
def SetsMode (server : LinuxCnc R) (mode : TaskMode) : Prop :=
  server.status.taskMode = mode ∨ server.Accepts

instance (server : LinuxCnc R) (mode : TaskMode) : Decidable (server.SetsMode mode) :=
  inferInstanceAs (Decidable (_ ∨ _))

/-- The calls of `CommandSend` since a state of the server. -/
def sentSince (before server : LinuxCnc R) : List (NmlCommand R × Bool) :=
  server.sent.drop before.sent.length

theorem sentSince_of_append {before server : LinuxCnc R} {added : List (NmlCommand R × Bool)}
    (grown : server.sent = before.sent ++ added) : sentSince before server = added := by
  rw [sentSince, grown, List.drop_left]

section Connected

variable {server : LinuxCnc R}

theorem Connected.readStatus (connected : server.Connected) :
    readStatus server = some (server.status, server) := by
  have ends : LinuxCnc.readStatus.Ends server fun status next =>
      status = server.status ∧ next = server := by
    rw [LinuxCnc.readStatus, ends_bind, ends_get, ends_bind, ends_follow, ends_pure]
    exact ⟨connected.live, rfl, rfl⟩
  obtain ⟨_, _, reads, rfl, rfl⟩ := ends
  exact reads

/-- `SetMode` sends nothing but its command, and that only if it has to. -/
theorem Connected.setMode (connected : server.Connected) (mode : TaskMode) :
    ∃ moded next added, setMode mode server = some (moded, next) ∧ next.Connected ∧
      next.sent = server.sent ++ added ∧ (∀ entry ∈ added, entry.1 = .setMode mode) ∧
      (server.SetsMode mode ↔
        server.status.taskMode = mode ∨ (.setMode mode, true) ∈ added) := by
  have reads : LinuxCnc.setMode mode server =
      (if server.status.taskMode = mode then pure true
        else LinuxCnc.commandSend (.setMode mode) : Program (LinuxCnc R) Bool) server := by
    change (LinuxCnc.readStatus server).bind _ = _
    rw [connected.readStatus]
    rfl
  by_cases already : server.status.taskMode = mode
  · refine ⟨true, server, [], ?_, connected, by simp, by simp, ?_⟩
    · rw [reads, if_pos already]
      rfl
    · exact iff_of_true (.inl already) (.inl already)
  · obtain ⟨accepted, next, sends, kept, grown, accepts⟩ := connected.commandSend (.setMode mode)
    refine ⟨accepted, next, [(.setMode mode, accepted)], ?_, kept, grown, by simp, ?_⟩
    · rw [reads, if_neg already]
      exact sends
    · rw [SetsMode, ← accepts]
      simp [eq_comm]

end Connected

end LinuxCnc

/-- A call of `Mdi` or of `LoadFile`. -/
inductive LineCall where
  | mdi (line : Bytes)
  | loadFile (fileName : Bytes)

namespace LineCall

/-- The argument of the call. -/
def text : LineCall → Bytes
  | .mdi text | .loadFile text => text

/-- The mode that the control has to be in. -/
def mode : LineCall → Option TaskMode
  | .mdi _ => some .mdi
  | .loadFile _ => none

/-- The message with a text in its buffer. -/
def message {R : Type} (text : Bytes) : LineCall → NmlCommand R
  | .mdi _ => .planExecute text
  | .loadFile _ => .planOpen text

/-- The handler that serves the call. -/
def program {R : Type} (build : Build) : LineCall → Program (LinuxCnc R) Bool
  | .mdi line => LinuxCnc.mdi build line
  | .loadFile fileName => LinuxCnc.loadFile build fileName

end LineCall

namespace LinuxCnc

variable {R : Type}

/-- The text of a message that executes a line or opens a file. -/
def planText? : NmlCommand R → Option Bytes
  | .planExecute command => some command
  | .planOpen file => some file
  | _ => none

/-- The result is true only if the control accepted the message with the whole text, in the mode
for it. -/
def Honest (call : LineCall) (server : LinuxCnc R) (value : Bool) (next : LinuxCnc R) : Prop :=
  value = true →
    (sentSince server next).getLast? = some (call.message call.text, true) ∧
      ∀ mode ∈ call.mode,
        server.status.taskMode = mode ∨ (.setMode mode, true) ∈ sentSince server next

instance [DecidableEq R] (call : LineCall) (server : LinuxCnc R) (value : Bool)
    (next : LinuxCnc R) : Decidable (Honest call server value next) :=
  inferInstanceAs (Decidable (_ → _ ∧ _))

/-- The control gets no other text, whatever it does with it. -/
def Whole (call : LineCall) (server : LinuxCnc R) (_ : Bool) (next : LinuxCnc R) : Prop :=
  ∀ entry ∈ sentSince server next, ∀ text ∈ planText? entry.1, text = call.text

instance (call : LineCall) (server : LinuxCnc R) (value : Bool) (next : LinuxCnc R) :
    Decidable (Whole call server value next) :=
  inferInstanceAs (Decidable (∀ _ ∈ _, _))

/-- The text has no zero and leaves room for the last one. -/
def Fits (build : Build) (text : Bytes) : Prop := 0 ∉ text ∧ text.length ≤ build.lineLen - 1

/-- The control would be in the mode for the call. -/
def Moded (server : LinuxCnc R) (call : LineCall) : Prop :=
  ∀ mode ∈ call.mode, server.SetsMode mode

/-- `CommandSend` would return true for the line. -/
def TakesLine (server : LinuxCnc R) : LineCall → Prop
  | .mdi _ => (setMode .mdi).Ends server fun _ next => next.Accepts
  | .loadFile _ => server.Accepts

/-- What is left in the buffer is the whole text if that fits. -/
theorem line_eq_iff (build : Build) (text : Bytes) : line build text = text ↔ Fits build text := by
  have cut : cString text = text ↔ 0 ∉ text := by
    rw [cString, List.takeWhile_eq_self_iff]
    constructor
    · intro nonzero zero
      simpa using nonzero 0 zero
    · intro zero byte present
      simpa using fun same : byte = 0 => zero (same ▸ present)
  rw [Fits, ← cut, line]
  constructor
  · intro same
    have shorter : (cString text).length ≤ text.length := (List.takeWhile_sublist _).length_le
    have longer := congrArg List.length same
    rw [List.length_take] at longer
    have whole : (cString text).length = text.length := by omega
    exact ⟨(List.takeWhile_sublist _).eq_of_length whole, by omega⟩
  · rintro ⟨whole, short⟩
    rw [whole, List.take_of_length_le short]

section Call

variable (build : Build) (call : LineCall) {server : LinuxCnc R}

theorem Connected.lineCall (connected : server.Connected) :
    ∃ value next added, call.program build server = some (value, next) ∧
      sentSince server next = added ++ [(call.message (line build call.text), value)] ∧
      (∀ entry ∈ added, planText? entry.1 = none) ∧
      (value = true ↔ server.TakesLine call) ∧
      (server.Moded call ↔ ∀ mode ∈ call.mode,
        server.status.taskMode = mode ∨ (.setMode mode, true) ∈ added) := by
  cases call with
  | mdi text =>
      obtain ⟨moded, middle, added, sets, kept, grown, modes, succeeds⟩ := connected.setMode .mdi
      obtain ⟨value, next, sends, -, grown', accepts⟩ :=
        kept.commandSend (.planExecute (line build text))
      refine ⟨value, next, added, ?_, ?_, ?_, ?_, ?_⟩
      · refine (connected_of_ne connected.2).trans ?_
        change (LinuxCnc.setMode .mdi server).bind _ = _
        rw [sets]
        exact sends
      · apply sentSince_of_append
        rw [grown', grown, List.append_assoc]
        rfl
      · intro entry present
        rw [modes entry present]
        rfl
      · have takes : server.TakesLine (.mdi text) ↔ middle.Accepts := ends_iff_of_eq sets _
        rw [accepts, takes]
      · simpa [Moded, LineCall.mode] using succeeds
  | loadFile text =>
      obtain ⟨value, next, sends, -, grown, accepts⟩ :=
        connected.commandSend (.planOpen (line build text))
      refine ⟨value, next, [], ?_, sentSince_of_append grown, by simp, accepts, ?_⟩
      · exact (connected_of_ne connected.2).trans sends
      · simp [Moded, LineCall.mode]

theorem Connected.honest_iff (connected : server.Connected) :
    (call.program build).Ends server (Honest call server) ↔
      (server.TakesLine call → server.Moded call ∧ Fits build call.text) := by
  obtain ⟨value, next, added, calls, sent, -, takes, moded⟩ := connected.lineCall build call
  rw [ends_iff_of_eq calls, Honest, sent, ← takes, moded]
  refine imp_congr_right fun taken => ?_
  have whole : (added ++ [(call.message (line build call.text), value)]).getLast? =
      some (call.message call.text, true) ↔ Fits build call.text := by
    rw [List.getLast?_concat, ← line_eq_iff, taken]
    cases call <;> simp [LineCall.message]
  rw [whole, and_comm]
  refine and_congr_left fun _ => forall₂_congr fun mode needed => ?_
  cases call with
  | mdi text => simp [LineCall.message]
  | loadFile text => simp [LineCall.mode] at needed

theorem Connected.whole_iff (connected : server.Connected) :
    (call.program build).Ends server (Whole call server) ↔ Fits build call.text := by
  obtain ⟨value, next, added, calls, sent, others, -, -⟩ := connected.lineCall build call
  rw [ends_iff_of_eq calls, Whole, sent, List.forall_mem_append, and_iff_right, ← line_eq_iff]
  · cases call <;> simp [LineCall.message, planText?]
  · intro entry present text planned
    rw [others entry present] at planned
    cases planned

theorem lineCall_of_none (null : server.emcStatus = none) :
    call.program build server = some (false, server) ∧ ¬server.TakesLine call := by
  cases call with
  | mdi text =>
      refine ⟨connected_of_none null, ?_⟩
      simp [TakesLine, setMode, readStatus, null, Heap.Live]
  | loadFile text =>
      refine ⟨connected_of_none null, ?_⟩
      simp [TakesLine, Accepts, transmit, null]

/-- In every state that is reached, the result of a call can be believed exactly when a line that
the control takes fits and `SetMode` succeeds, and no other text is sent exactly when the text fits
or nothing is sent. -/
theorem lines_iff (arith : Arith R) (nextTime : Int) (control : EmcStat R)
    (tape : Nat → NmlAnswer R) (history : List LinuxEvent) :
    ∃ server,
      (machine (program arith build)).run (some (start arith nextTime control tape)) history =
          some (some server) ∧
        ((call.program build).Ends server (Honest call server) ↔
          (server.TakesLine call → server.Moded call ∧ Fits build call.text)) ∧
        ((call.program build).Ends server (Whole call server) ↔
          (server.emcStatus ≠ none → Fits build call.text)) := by
  obtain ⟨server, run, linked⟩ := run_of_keeps (program_keeps arith build)
    (start_linked arith nextTime control tape) history
  refine ⟨server, run, ?_⟩
  by_cases null : server.emcStatus = none
  · obtain ⟨calls, refuses⟩ := lineCall_of_none build call null
    constructor
    · rw [ends_iff_of_eq calls]
      exact iff_of_true (by simp [Honest]) fun takes => absurd takes refuses
    · rw [ends_iff_of_eq calls]
      exact iff_of_true (by simp [Whole, sentSince]) (absurd null)
  · have connected : server.Connected := ⟨linked, null⟩
    constructor
    · exact connected.honest_iff build call
    · rw [connected.whole_iff build call, imp_iff_right null]

end Call

/-- The control executes and opens what is left of a text that is too long, and executes a line
although it refused to change its mode. -/
theorem line_cut_off :
    (∃ reached ∈ (machine (program (.exact fun _ => 0) ⟨false, 255⟩)).run
        (some (start (.exact fun _ => 0) 0 .rest fun index =>
          ⟨if index < 6 then 1 else 0, .rest, false⟩)) [.connectNml],
      ∃ server ∈ reached,
        ¬((LineCall.mdi (ascii "G0 X1" ++ List.replicate 250 48)).program ⟨false, 255⟩).Ends
            server (Honest (.mdi (ascii "G0 X1" ++ List.replicate 250 48)) server) ∧
          ¬((LineCall.loadFile (List.replicate 255 97)).program ⟨false, 255⟩).Ends
            server (Honest (.loadFile (List.replicate 255 97)) server)) ∧
      ∃ reached ∈ (machine (program (.exact fun _ => 0) ⟨false, 255⟩)).run
          (some (start (.exact fun _ => 0) 0 .rest fun index =>
            ⟨if index < 7 then 1 else 0, .rest, false⟩)) [.connectNml],
        ∃ server ∈ reached,
          ¬((LineCall.mdi (ascii "G0 X1")).program ⟨false, 255⟩).Ends server
            (Honest (.mdi (ascii "G0 X1")) server) := by
  decide +kernel

end LinuxCnc

end CncRemote
