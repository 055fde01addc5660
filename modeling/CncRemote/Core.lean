import CncRemote.Comms
import Mathlib.Logic.Function.Basic

/-!
# Errors, messages and the shared state

The part of `Server` that is not the driver's: `m_state` and the two lists of texts that are logged.
Errors and messages are treated alike, so both have one definition with the kind as a parameter.
-/

namespace CncRemote

/-- What a text is logged as. -/
inductive Kind where
  | error
  | message
  deriving DecidableEq

namespace State

/-- `errorCount` and `messageCount` -/
def count (state : State Double) : Kind → UInt32
  | .error => state.errorCount
  | .message => state.messageCount

/-- Assign `errorCount` or `messageCount`. -/
def setCount (state : State Double) (count : UInt32) : Kind → State Double
  | .error => { state with errorCount := count }
  | .message => { state with messageCount := count }

/-- The members that no driver assigns are the same. -/
def SameCounts (before after : State Double) : Prop :=
  after.errorCount = before.errorCount ∧ after.messageCount = before.messageCount ∧
    after.fileCount = before.fileCount

instance (before after : State Double) : Decidable (before.SameCounts after) :=
  inferInstanceAs (Decidable (_ ∧ _ ∧ _))

theorem SameCounts.count {before after : State Double} (same : before.SameCounts after)
    (kind : Kind) : after.count kind = before.count kind := by
  obtain ⟨errors, messages, -⟩ := same
  cases kind with
  | error => exact errors
  | message => exact messages

@[simp] theorem count_setCount (state : State Double) (count : UInt32) (kind : Kind) :
    (state.setCount count kind).count kind = count := by
  cases kind <;> rfl

theorem count_setCount_of_ne (state : State Double) (count : UInt32) {kind other : Kind}
    (ne : other ≠ kind) : (state.setCount count kind).count other = state.count other := by
  cases kind <;> cases other <;> first | rfl | exact (ne rfl).elim

@[simp] theorem fileCount_setCount (state : State Double) (count : UInt32) (kind : Kind) :
    (state.setCount count kind).fileCount = state.fileCount := by
  cases kind <;> rfl

end State

/-- The shared members of `Server`. -/
structure Core where
  /-- `m_state` -/
  state : State Double
  /-- `m_errors` and `m_messages` -/
  entries : Kind → List Bytes

/-- The text with the given index, which is empty when there is none. -/
def entryAt (entries : List Bytes) (index : UInt32) : Bytes :=
  if index.toNat ≥ entries.length then [] else entries.getD index.toNat []

namespace Core

/-- The members as `Server::Server` leaves them. -/
def new : Core := ⟨.initial, fun _ => []⟩

/-- `push_back` of a text. -/
def store (kind : Kind) (core : Core) (text : Bytes) : Core :=
  { core with entries := Function.update core.entries kind (core.entries kind ++ [text]) }

/-- Assign the size of a list to its counter. -/
def tally (kind : Kind) (core : Core) : Core :=
  { core with state := core.state.setCount (UInt32.ofNat (core.entries kind).length) kind }

/-- Log a text, unless it is empty. -/
def log (kind : Kind) (core : Core) (text : Bytes) : Core :=
  if text.length > 0 then (core.store kind text).tally kind else core

/-- `Server::LogError` -/
def logError : Core → Bytes → Core := log .error

/-- `Server::LogMessage` -/
def logMessage : Core → Bytes → Core := log .message

/-- `Server::GetError` -/
def getError (core : Core) (index : UInt32) : Bytes := entryAt (core.entries .error) index

/-- `Server::GetMessage` -/
def getMessage (core : Core) (index : UInt32) : Bytes := entryAt (core.entries .message) index

/-- The driver assigns members of `m_state`. -/
def update (core : Core) (state : State Double) : Core := { core with state }

/-- The texts are not empty, and `m_state` counts no more than there are. -/
structure Trails (core : Core) : Prop where
  filled : ∀ kind, [] ∉ core.entries kind
  counted : ∀ kind, (core.state.count kind).toNat ≤ (core.entries kind).length

/-- Texts were added and none was taken away. -/
structure Extends (before after : Core) : Prop where
  entries : ∀ kind, before.entries kind <+: after.entries kind
  counts : ∀ kind, (before.state.count kind).toNat ≤ (after.state.count kind).toNat

/-- The number of texts fits in its counter. -/
def Fits (core : Core) : Prop := ∀ kind, (core.entries kind).length < 2 ^ 32

instance (core : Core) : Decidable core.Fits :=
  decidable_of_iff
    ((core.entries .error).length < 2 ^ 32 ∧ (core.entries .message).length < 2 ^ 32)
    ⟨fun fits kind => by
      cases kind with
      | error => exact fits.1
      | message => exact fits.2, fun fits => ⟨fits .error, fits .message⟩⟩

theorem entries_store (core : Core) (kind other : Kind) (text : Bytes) :
    (core.store kind text).entries other =
      core.entries other ++ if other = kind then [text] else [] := by
  by_cases same : other = kind
  · subst same
    simp [store]
  · simp [store, same]

theorem count_tally (core : Core) (kind other : Kind) :
    (core.tally kind).state.count other =
      if other = kind then UInt32.ofNat (core.entries kind).length
      else core.state.count other := by
  by_cases same : other = kind
  · subst same
    simp [tally]
  · simp [tally, same, State.count_setCount_of_ne]

@[simp] theorem fileCount_log (core : Core) (kind : Kind) (text : Bytes) :
    (core.log kind text).state.fileCount = core.state.fileCount := by
  rw [log]
  split <;> simp [tally, store]

theorem new_trails : new.Trails where
  filled _ := List.not_mem_nil
  counted kind := by cases kind <;> decide

theorem Extends.refl (core : Core) : core.Extends core :=
  ⟨fun _ => List.prefix_rfl, fun _ => Nat.le_refl _⟩

theorem store_extends (core : Core) (kind : Kind) (text : Bytes) :
    core.Extends (core.store kind text) where
  entries other := by
    rw [entries_store]
    exact List.prefix_append _ _
  counts _ := Nat.le_refl _

theorem Trails.store {core : Core} (trails : core.Trails) (kind : Kind) {text : Bytes}
    (filled : text ≠ []) : (core.store kind text).Trails where
  filled other empty := by
    rw [entries_store] at empty
    rcases List.mem_append.mp empty with old | new
    · exact trails.filled other old
    · split at new
      · exact filled (List.mem_singleton.mp new).symm
      · cases new
  counted other :=
    (trails.counted other).trans ((store_extends core kind text).entries other).length_le

theorem Trails.tally {core : Core} (trails : core.Trails) (kind : Kind) :
    (core.tally kind).Trails where
  filled := trails.filled
  counted other := by
    rw [count_tally]
    split
    · rename_i same
      subst same
      exact (UInt32.toNat_ofNat' ..).trans_le (Nat.mod_le _ _)
    · exact trails.counted other

/-- A list that fits in its counter is counted as a whole. -/
theorem Trails.tally_extends {core : Core} (trails : core.Trails) (fits : core.Fits)
    (kind : Kind) : core.Extends (core.tally kind) where
  entries _ := List.prefix_rfl
  counts other := by
    rw [count_tally]
    split
    · rename_i same
      subst same
      rw [UInt32.toNat_ofNat', Nat.mod_eq_of_lt (fits other)]
      exact trails.counted other
    · exact Nat.le_refl _

theorem update_extends (core : Core) {state : State Double} (same : core.state.SameCounts state) :
    core.Extends (core.update state) where
  entries _ := List.prefix_rfl
  counts kind := (congrArg UInt32.toNat (same.count kind)).ge

theorem Trails.update {core : Core} (trails : core.Trails) {state : State Double}
    (same : core.state.SameCounts state) : (core.update state).Trails where
  filled := trails.filled
  counted kind := (congrArg UInt32.toNat (same.count kind)).trans_le (trails.counted kind)

end Core

/-- An entry that is not empty is in the list. -/
theorem getElem?_of_entryAt {entries : List Bytes} {index : UInt32} {text : Bytes}
    (found : entryAt entries index = text) (filled : text ≠ []) :
    entries[index.toNat]? = some text := by
  rw [entryAt] at found
  split at found
  · exact (filled found.symm).elim
  · rename_i below
    rw [List.getD_eq_getElem?_getD, List.getElem?_eq_getElem (by omega), Option.getD_some]
      at found
    rw [List.getElem?_eq_getElem (by omega), found]

/-- An index below the length finds its entry. -/
theorem getElem?_entryAt {entries : List Bytes} {index : UInt32}
    (below : index.toNat < entries.length) :
    entries[index.toNat]? = some (entryAt entries index) := by
  rw [entryAt, if_neg (Nat.not_le.mpr below), List.getElem?_eq_getElem below]
  simp [below]

end CncRemote
