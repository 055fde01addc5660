import CncRemote.Core
import CncRemote.Heap
import Mathlib.Data.List.Chain

/-!
# Messages of the operator

`Poll` of the driver for LinuxCNC logs the message that the error channel shows.  It takes a message
to be new when its address is not that of the message before.  `logsOnce_iff` says when every
message of a history is logged once and in order.
-/

namespace CncRemote

/-- The types of messages that `Poll` tells apart. -/
inductive NmlType where
  | operatorError
  | operatorText
  | operatorDisplay
  | nmlError
  | nmlText
  | nmlDisplay
  | other
  deriving DecidableEq

/-- What a message of the type is to be logged as. -/
def NmlType.kind : NmlType → Kind
  | .operatorError | .nmlError | .other => .error
  | .operatorText | .operatorDisplay | .nmlText | .nmlDisplay => .message

/-- What `peek` and `get_address` find in the error channel. -/
inductive Peek where
  | error
  | noData
  | message (type : NmlType) (address : Nat) (text : Bytes)

/-- The members that `Poll` uses. -/
structure OperatorLog where
  /-- `m_lastMessage` -/
  lastMessage : Pointer
  core : Core

namespace OperatorLog

variable (lineLen : Nat)

/-- `strncpy` into a buffer that is one byte longer. -/
def buf (text : Bytes) : Bytes := (cString text).take lineLen

/-- `LinuxCnc::Poll`, after its call of `OK`. -/
def poll (ok : Bool) (peek : Peek) (log : OperatorLog) : Bool × OperatorLog :=
  if ok = false then (false, log)
  else
    match peek with
    | .error => (true, log)
    | .noData => (true, log)
    | .message type address text =>
        if some address = log.lastMessage then (true, log)
        else
          (true,
            { lastMessage := some address
              core :=
                match type with
                | .operatorError => log.core.logError (buf lineLen text)
                | .operatorText => log.core.logMessage (buf lineLen text)
                | .operatorDisplay => log.core.logMessage (buf lineLen text)
                | .nmlError => log.core.logError (buf lineLen text)
                | .nmlText => log.core.logMessage (buf lineLen text)
                | .nmlDisplay => log.core.logMessage (buf lineLen text)
                | .other => log.core.logError (ascii "Unknown error") })

end OperatorLog

/-- A message of one of the six types. -/
structure OperatorMessage where
  type : NmlType
  known : type ≠ .other
  address : Nat
  text : Bytes

/-- What a call of `Poll` finds while a message is the current one. -/
inductive Glance where
  /-- `OK` returns false. -/
  | disconnected
  /-- `peek` fails. -/
  | failed
  /-- `peek` reports no data. -/
  | empty
  /-- `peek` reports the message. -/
  | shown
  deriving DecidableEq

/-- A message and the calls of `Poll` while it is the current one. -/
structure Tenure where
  message : OperatorMessage
  glances : List Glance

namespace OperatorMessage

/-- The message in the channel. -/
def peek (message : OperatorMessage) : Peek :=
  .message message.type message.address message.text

/-- The log that the message belongs to and its text there. -/
def entry (lineLen : Nat) (message : OperatorMessage) : Kind × Bytes :=
  (message.type.kind, OperatorLog.buf lineLen message.text)

end OperatorMessage

namespace OperatorLog

variable (lineLen : Nat)

/-- A call of `Poll` while the message is the current one. -/
def glance (message : OperatorMessage) (log : OperatorLog) : Glance → OperatorLog
  | .disconnected => (log.poll lineLen false message.peek).2
  | .failed => (log.poll lineLen true .error).2
  | .empty => (log.poll lineLen true .noData).2
  | .shown => (log.poll lineLen true message.peek).2

/-- The calls of `Poll` while one message is the current one. -/
def hear (log : OperatorLog) (tenure : Tenure) : OperatorLog :=
  tenure.glances.foldl (glance lineLen tenure.message) log

/-- The calls of `Poll` in a history of messages. -/
def run (log : OperatorLog) (tenures : List Tenure) : OperatorLog :=
  tenures.foldl (hear lineLen) log

variable {log : OperatorLog} {message : OperatorMessage}

theorem glance_shown :
    log.glance lineLen message .shown =
      if some message.address = log.lastMessage then log
      else
        { lastMessage := some message.address
          core := log.core.log message.type.kind (buf lineLen message.text) } := by
  obtain ⟨type, known, address, text⟩ := message
  by_cases same : some address = log.lastMessage
  · simp [glance, poll, OperatorMessage.peek, same]
  · cases type with
    | other => exact absurd rfl known
    | _ =>
        simp only [glance, poll, OperatorMessage.peek, if_neg same]
        rfl

theorem glance_glance (other : Glance) :
    (log.glance lineLen message .shown).glance lineLen message other =
      log.glance lineLen message .shown := by
  cases other with
  | shown =>
      have last : some message.address = (log.glance lineLen message .shown).lastMessage := by
        rw [glance_shown]
        split
        · assumption
        · rfl
      exact (glance_shown lineLen).trans (if_pos last)
  | _ => rfl

theorem hear_eq (tenure : Tenure) :
    log.hear lineLen tenure =
      if .shown ∈ tenure.glances then log.glance lineLen tenure.message .shown else log := by
  obtain ⟨message, glances⟩ := tenure
  induction glances generalizing log with
  | nil => rfl
  | cons first glances ih =>
      have step : log.hear lineLen ⟨message, first :: glances⟩ =
          (log.glance lineLen message first).hear lineLen ⟨message, glances⟩ := rfl
      rw [step, ih]
      cases first with
      | shown => simp [glance_glance]
      | disconnected => simp [glance, poll]
      | failed => simp [glance, poll]
      | empty => simp [glance, poll]

/-- The message is logged when its calls of `Poll` are over. -/
def News (last : Pointer) (tenure : Tenure) : Prop :=
  .shown ∈ tenure.glances ∧ some tenure.message.address ≠ last ∧
    buf lineLen tenure.message.text ≠ []

instance (last : Pointer) (tenure : Tenure) : Decidable (News lineLen last tenure) :=
  inferInstanceAs (Decidable (_ ∧ _ ∧ _))

/-- The address in `m_lastMessage` after a message. -/
def lastAfter (last : Pointer) (tenure : Tenure) : Pointer :=
  if .shown ∈ tenure.glances then some tenure.message.address else last

/-- The entries that a history adds to the logs. -/
def added : Pointer → List Tenure → List (Kind × Bytes)
  | _, [] => []
  | last, tenure :: tenures =>
      if News lineLen last tenure then
        tenure.message.entry lineLen :: added (lastAfter last tenure) tenures
      else
        added (lastAfter last tenure) tenures

/-- The entries that the messages of a history are. -/
def wanted (tenures : List Tenure) : List (Kind × Bytes) :=
  tenures.map fun tenure => tenure.message.entry lineLen

/-- The texts of one of the logs. -/
def texts (kind : Kind) (entries : List (Kind × Bytes)) : List Bytes :=
  (entries.filter (·.1 = kind)).map Prod.snd

theorem hear_lastMessage (log : OperatorLog) (tenure : Tenure) :
    (log.hear lineLen tenure).lastMessage = lastAfter log.lastMessage tenure := by
  rw [hear_eq, lastAfter, glance_shown]
  split
  · split
    · rename_i same
      exact same.symm
    · rfl
  · rfl

theorem entries_log {core : Core} {text : Bytes} (filled : text ≠ []) (kind other : Kind) :
    (core.log kind text).entries other =
      core.entries other ++ if other = kind then [text] else [] := by
  rw [Core.log, if_pos (List.length_pos_of_ne_nil filled)]
  exact core.entries_store kind other text

theorem entries_hear (log : OperatorLog) (tenure : Tenure) (kind : Kind) :
    (log.hear lineLen tenure).core.entries kind =
      log.core.entries kind ++
        texts kind (if News lineLen log.lastMessage tenure then [tenure.message.entry lineLen]
          else []) := by
  obtain ⟨message, glances⟩ := tenure
  by_cases shown : .shown ∈ glances
  · rw [hear_eq, if_pos shown, glance_shown]
    by_cases same : some message.address = log.lastMessage
    · simp [News, same, texts]
    · by_cases blank : buf lineLen message.text = []
      · simp [News, same, blank, Core.log, texts]
      · have news : News lineLen log.lastMessage ⟨message, glances⟩ := ⟨shown, same, blank⟩
        rw [if_neg same, if_pos news, entries_log blank]
        by_cases own : kind = message.type.kind
        · simp [own, texts, OperatorMessage.entry]
        · simp [own, Ne.symm own, texts, OperatorMessage.entry]
  · simp [hear_eq, News, shown, texts]

theorem texts_append (kind : Kind) (first second : List (Kind × Bytes)) :
    texts kind (first ++ second) = texts kind first ++ texts kind second := by
  simp [texts]

theorem added_cons (last : Pointer) (tenure : Tenure) (tenures : List Tenure) :
    added lineLen last (tenure :: tenures) =
      (if News lineLen last tenure then [tenure.message.entry lineLen] else []) ++
        added lineLen (lastAfter last tenure) tenures := by
  rw [added]
  split <;> rfl

/-- What a history adds. -/
theorem entries_run (log : OperatorLog) (tenures : List Tenure) (kind : Kind) :
    (log.run lineLen tenures).core.entries kind =
      log.core.entries kind ++ texts kind (added lineLen log.lastMessage tenures) := by
  induction tenures generalizing log with
  | nil => exact (List.append_nil _).symm
  | cons tenure tenures ih =>
      have step : log.run lineLen (tenure :: tenures) =
          (log.hear lineLen tenure).run lineLen tenures := rfl
      rw [step, ih, entries_hear, hear_lastMessage, added_cons, texts_append, List.append_assoc]

theorem added_sublist (last : Pointer) (tenures : List Tenure) :
    (added lineLen last tenures).Sublist (wanted lineLen tenures) := by
  induction tenures generalizing last with
  | nil => exact List.Sublist.slnil
  | cons tenure tenures ih =>
      rw [added]
      split
      · exact (ih _).cons_cons _
      · exact (ih _).cons _

/-- Every message is seen, has not the address of the one before it and is not empty. -/
def AllNews (last : Pointer) (tenures : List Tenure) : Prop :=
  (last :: tenures.map fun tenure => some tenure.message.address).IsChain (· ≠ ·) ∧
    ∀ tenure ∈ tenures,
      .shown ∈ tenure.glances ∧ buf lineLen tenure.message.text ≠ []

theorem allNews_cons (last : Pointer) (tenure : Tenure) (tenures : List Tenure) :
    AllNews lineLen last (tenure :: tenures) ↔
      News lineLen last tenure ∧ AllNews lineLen (lastAfter last tenure) tenures := by
  simp only [AllNews, News, List.map_cons, List.isChain_cons_cons, List.forall_mem_cons]
  constructor
  · rintro ⟨⟨fresh, chain⟩, ⟨shown, filled⟩, rest⟩
    rw [lastAfter, if_pos shown]
    exact ⟨⟨shown, fresh.symm, filled⟩, chain, rest⟩
  · rintro ⟨⟨shown, fresh, filled⟩, chain, rest⟩
    rw [lastAfter, if_pos shown] at chain
    exact ⟨⟨fresh.symm, chain⟩, ⟨shown, filled⟩, rest⟩

/-- The first message that is no news is missing for ever. -/
theorem added_eq_wanted_iff (last : Pointer) (tenures : List Tenure) :
    added lineLen last tenures = wanted lineLen tenures ↔ AllNews lineLen last tenures := by
  induction tenures generalizing last with
  | nil => exact iff_of_true rfl ⟨List.isChain_singleton _, fun _ => by simp⟩
  | cons tenure tenures ih =>
      rw [allNews_cons, ← ih, added]
      split
      · rename_i news
        exact (List.cons_inj_right _).trans (iff_and_self.mpr fun _ => news)
      · rename_i old
        refine iff_of_false (fun same => ?_) fun both => old both.1
        have short := (added_sublist lineLen (lastAfter last tenure) tenures).length_le
        rw [same, wanted, wanted, List.map_cons, List.length_cons] at short
        omega

theorem length_eq_add (entries : List (Kind × Bytes)) :
    entries.length = (texts .error entries).length + (texts .message entries).length := by
  induction entries with
  | nil => rfl
  | cons entry entries ih =>
      obtain ⟨kind, text⟩ := entry
      cases kind with
      | error => simp [texts] at ih ⊢; omega
      | message => simp [texts] at ih ⊢; omega

/-- Every message of a history is logged once and in order. -/
def LogsOnce (log : OperatorLog) (tenures : List Tenure) : Prop :=
  ∀ kind, (log.run lineLen tenures).core.entries kind =
    log.core.entries kind ++ texts kind (wanted lineLen tenures)

/-- Messages are lost when they come to lie where the one before them was. -/
theorem logsOnce_iff (log : OperatorLog) (tenures : List Tenure) :
    LogsOnce lineLen log tenures ↔ AllNews lineLen log.lastMessage tenures := by
  rw [← added_eq_wanted_iff]
  simp only [LogsOnce, entries_run, List.append_right_inj]
  constructor
  · intro same
    refine (added_sublist lineLen _ tenures).eq_of_length ?_
    rw [length_eq_add, length_eq_add, same .error, same .message]
  · intro same kind
    rw [same]

/-- Two errors that are stored at one address. -/
theorem not_logsOnce_of_sameAddress :
    ¬∀ (lineLen : Nat) (log : OperatorLog) (tenures : List Tenure),
      (∀ tenure ∈ tenures,
        .shown ∈ tenure.glances ∧ buf lineLen tenure.message.text ≠ []) →
      LogsOnce lineLen log tenures := by
  intro always
  have lost := always 255 ⟨none, .new⟩
    [⟨⟨.operatorError, by decide, 0, ascii "limit switch"⟩, [.shown, .shown]⟩,
      ⟨⟨.operatorError, by decide, 0, ascii "joint following error"⟩, [.shown]⟩] (by decide) .error
  exact absurd lost (by decide)

end OperatorLog

end CncRemote
