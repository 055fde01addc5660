import CncRemote.Heap
import CncRemote.LoadFile
import CncRemote.RemoteCall

/-!
# The file that a client uploads

`Client::LoadFile` opens the local file and goes on with a call after the other, each of which may
end `LoadFile`.  `clean_iff` says when the file is closed in the end.
-/

namespace CncRemote

/-- The result of a response, by what `LoadFile` can decode it as. -/
inductive LoadReply where
  | text (value : Bytes)
  | flag (value : Bool)
  | other

/-- What a call of `RemoteCall::Call` ends with. -/
abbrev CallResult := Except CallError LoadReply

namespace CallResult

/-- `Call(...).result.as<string>()`, where `none` is an exception. -/
def asString : CallResult → Option Bytes
  | .ok (.text value) => some value
  | _ => none

/-- `Call(...).result.as<bool>()` -/
def asBool : CallResult → Option Bool
  | .ok (.flag value) => some value
  | _ => none

end CallResult

/-- Where a call of `Client::LoadFile` is. -/
inductive Course where
  | within (phase : LoadPhase)
  /-- An exception has left the call. -/
  | thrown

/-- A call of `Client::LoadFile` with the streams it has opened and closed. -/
structure SourceFile where
  course : Course
  /-- What `fread` reads from the file. -/
  content : Bytes
  fp : Pointer
  streams : Heap

namespace SourceFile

/-- The file is opened. -/
def Uploads (connected isLocal : Bool) (content : Option Bytes) : Prop :=
  connected = true ∧ isLocal = false ∧ content ≠ none

instance (connected isLocal : Bool) (content : Option Bytes) :
    Decidable (Uploads connected isLocal content) :=
  inferInstanceAs (Decidable (_ ∧ _ ∧ _))

/-- The call up to its first request, after others that opened the given streams; `content` is
`none` when `fopen` fails. -/
def start (streams : Heap) (connected isLocal : Bool) (file : Bytes) (content : Option Bytes) :
    SourceFile where
  course := .within (Loader.start connected isLocal file content).phase
  content := content.getD []
  fp := if Uploads connected isLocal content then some streams.next else none
  streams := if Uploads connected isLocal content then streams.new else streams

/-- Build flags: `HANDLE_CNCREMOTE_EXCEPTIONS` makes the client handle its exceptions. -/
structure ClientBuild where
  handleExceptions : Bool

/-- An exception, which is handled or leaves the call. -/
def exception (build : ClientBuild) : Course :=
  if build.handleExceptions then .within (.returned false) else .thrown

/-- What follows a result that was decoded. -/
def after {α : Type} (build : ClientBuild) (value : Option α) (next : α → LoadPhase) : Course :=
  match value with
  | some value => .within (next value)
  | none => exception build

/-- The next call ends. -/
def proceed (build : ClientBuild) (content : Bytes) : LoadPhase → CallResult → Option Course
  | .sendInit, result =>
      some (after build result.asString fun file =>
        if file = [] then .returned false else .sendData file content 0)
  | .sendData file rest block, result =>
      some (after build result.asBool (Loader.afterBlock file rest block))
  | .loadFile _, result => some (after build result.asBool .returned)
  | .returned _, _ => none

/-- The next call ends, unless `LoadFile` has been left.  No way out of it closes the file. -/
def step (build : ClientBuild) (call : SourceFile) (result : CallResult) : Option SourceFile :=
  match call.course with
  | .within phase =>
      (proceed build call.content phase result).map fun course => { call with course }
  | .thrown => none

/-- The machine of a call of `LoadFile`. -/
def machine (build : ClientBuild) : Machine SourceFile CallResult := ⟨step build⟩

/-- `LoadFile` has returned or thrown. -/
def Left (call : SourceFile) : Prop :=
  call.course = .thrown ∨ ∃ result, call.course = .within (.returned result)

/-- The results make `LoadFile` return or throw in the final state. -/
def Leaves (build : ClientBuild) (call : SourceFile) (results : List CallResult)
    (final : SourceFile) : Prop :=
  (machine build).run call results = some final ∧ final.Left

variable {build : ClientBuild} {call next final : SourceFile} {results : List CallResult}

theorem step_eq_some {result : CallResult} :
    (machine build).step call result = some next ↔
      ∃ phase course, call.course = .within phase ∧
        proceed build call.content phase result = some course ∧ { call with course } = next := by
  obtain ⟨course, content, fp, streams⟩ := call
  cases course with
  | thrown => simp [machine, step]
  | within phase => simp [machine, step]

/-- A request that the server handles ends a call, with its reply or with the timeout. -/
theorem proceed_of_serve {loader served : Loader} {server left : Server} {files rest : Files}
    {outcome : Outcome} (serves : loader.serve server files outcome = some (left, rest, served)) :
    ∃ result, proceed ⟨true⟩ loader.content loader.phase result = some (.within served.phase) := by
  obtain ⟨file, content, phase, waiting, sent⟩ := loader
  cases phase <;> cases outcome <;> simp only [Loader.serve, reduceCtorEq] at serves
  case sendInit.temp temp =>
    obtain ⟨⟨server, files, path⟩, -, result⟩ := Option.map_eq_some_iff.mp serves
    obtain ⟨-, -, rfl⟩ : _ ∧ _ ∧ _ := by simpa using result
    cases waiting with
    | true => exact ⟨.ok (.text path), rfl⟩
    | false => exact ⟨.error .timeout, rfl⟩
  case sendData.wrote path rest block written =>
    obtain ⟨-, -, rfl⟩ : _ ∧ _ ∧ _ := by simpa using serves
    cases waiting with
    | true => exact ⟨.ok (.flag _), rfl⟩
    | false => exact ⟨.error .timeout, rfl⟩
  case loadFile.loaded path result =>
    obtain ⟨-, -, rfl⟩ : _ ∧ _ ∧ _ := by simpa using serves
    cases waiting with
    | true => exact ⟨.ok (.flag result), rfl⟩
    | false => exact ⟨.error .timeout, rfl⟩

/-- A bound on the number of calls that are left. -/
def callsLeft (content : Bytes) : Course → Nat
  | .within .sendInit => content.length / fileBlockSize + 3
  | .within (.sendData _ rest _) => rest.length / fileBlockSize + 2
  | .within (.loadFile _) => 1
  | .within (.returned _) => 0
  | .thrown => 0

theorem callsLeft_exception (content : Bytes) : callsLeft content (exception build) = 0 := by
  rw [exception]
  split <;> rfl

theorem callsLeft_afterBlock (content file rest : Bytes) (block : Int32) (value : Bool) :
    callsLeft content (.within (Loader.afterBlock file rest block value)) <
      rest.length / fileBlockSize + 2 := by
  rw [Loader.afterBlock]
  split
  · exact Nat.zero_lt_succ _
  · split
    · rename_i full
      rw [List.length_take] at full
      simp only [callsLeft, List.length_drop, fileBlockSize] at full ⊢
      omega
    · exact Nat.succ_lt_succ (Nat.zero_lt_succ _)

theorem callsLeft_after {α : Type} {content : Bytes} {bound : Nat} (value : Option α)
    {follows : α → LoadPhase} (positive : 0 < bound)
    (less : ∀ value, callsLeft content (.within (follows value)) < bound) :
    callsLeft content (after build value follows) < bound := by
  cases value with
  | none => exact (callsLeft_exception content).trans_lt positive
  | some value => exact less value

theorem callsLeft_proceed {content : Bytes} {phase : LoadPhase} {result : CallResult}
    {course : Course} (proceeds : proceed build content phase result = some course) :
    callsLeft content course < callsLeft content (.within phase) := by
  cases phase with
  | returned => cases proceeds
  | sendInit =>
      obtain rfl := Option.some.inj proceeds
      refine callsLeft_after _ (Nat.zero_lt_succ _) fun file => ?_
      split
      · exact Nat.zero_lt_succ _
      · exact Nat.lt_succ_self _
  | sendData file rest block =>
      obtain rfl := Option.some.inj proceeds
      exact callsLeft_after _ (Nat.zero_lt_succ _) (callsLeft_afterBlock content file rest block)
  | loadFile =>
      obtain rfl := Option.some.inj proceeds
      exact callsLeft_after _ Nat.one_pos fun _ => Nat.one_pos

/-- `LoadFile` is left after a call for each block and two more. -/
theorem length_le_callsLeft (ran : (machine build).run call results = some final) :
    results.length ≤ callsLeft call.content call.course := by
  induction results generalizing call with
  | nil => exact Nat.zero_le _
  | cons result results ih =>
      obtain ⟨next, stepped, ran⟩ := Machine.run_cons_eq_some.mp ran
      obtain ⟨phase, course, within, proceeds, rfl⟩ := step_eq_some.mp stepped
      rw [within]
      exact (ih ran).trans_lt (callsLeft_proceed proceeds)

/-- No call closes a stream. -/
theorem streams_run (ran : (machine build).run call results = some final) :
    final.streams = call.streams := by
  induction results generalizing call with
  | nil =>
      obtain rfl := Option.some.inj ran
      rfl
  | cons result results ih =>
      obtain ⟨next, stepped, ran⟩ := Machine.run_cons_eq_some.mp ran
      obtain ⟨phase, course, -, -, rfl⟩ := step_eq_some.mp stepped
      have same := ih ran
      exact same

theorem not_clean_new {streams : Heap} (clean : streams.Clean) : ¬streams.new.Clean := by
  intro closed
  have before := clean.length_eq
  have after := closed.length_eq
  simp only [Heap.new, List.length_range] at before after
  omega

/-- The file is closed exactly when it was not opened. -/
theorem clean_iff {streams : Heap} (clean : streams.Clean) {connected isLocal : Bool}
    {file : Bytes} {content : Option Bytes}
    (leaves : (start streams connected isLocal file content).Leaves build results final) :
    final.streams.Clean ↔ ¬Uploads connected isLocal content := by
  have same : final.streams =
      if Uploads connected isLocal content then streams.new else streams := streams_run leaves.1
  rw [same]
  by_cases uploads : Uploads connected isLocal content
  · rw [if_pos uploads]
    exact iff_of_false (not_clean_new clean) (not_not.mpr uploads)
  · rw [if_neg uploads]
    exact iff_of_true clean uploads

/-- A local connection where the only call runs into its timeout. -/
theorem clean_of_local :
    ∃ final : SourceFile, final.streams.Clean ∧ final.course = .thrown := by
  have clean : Heap.empty.Clean := by decide
  obtain ⟨final, leaves, thrown⟩ : ∃ final,
      (start .empty true true (ascii "/a.nc") (some [])).Leaves ⟨false⟩ [.error .timeout] final ∧
        final.course = .thrown := ⟨_, ⟨rfl, .inl rfl⟩, rfl⟩
  exact ⟨final, (clean_iff clean leaves).mpr (by decide), thrown⟩

/-- An upload that is served to its end. -/
theorem not_clean_of_upload :
    ¬∀ (build : ClientBuild) (streams : Heap) (connected isLocal : Bool) (file : Bytes)
      (content : Option Bytes) (results : List CallResult) (final : SourceFile),
      streams.Clean → (start streams connected isLocal file content).Leaves build results final →
        final.streams.Clean := by
  intro always
  have clean : Heap.empty.Clean := by decide
  obtain ⟨final, leaves, leaks⟩ : ∃ final,
      (start .empty true false (ascii "/a.nc") (some (ascii "G0"))).Leaves ⟨true⟩
        [.ok (.text (ascii "/tmp/CncRemotea000000")), .ok (.flag true), .ok (.flag true)] final ∧
        ¬final.streams.Clean :=
    ⟨_, ⟨rfl, .inr ⟨true, rfl⟩⟩, by decide⟩
  exact leaks (always _ _ _ _ _ _ _ final clean leaves)

end SourceFile

end CncRemote
