import CncRemote.Upload

/-!
# Ownership of the temporary file

`SendInit` creates a temporary file and `DeleteTemp` removes it; `m_curFile` is all that the server
remembers of it.  `owned_iff` says which failures of `mkstemp` and `fdopen` this survives.
-/

namespace CncRemote

/-- A call that creates or removes a temporary file. -/
inductive TempCall where
  | created (path : Bytes)
  | removed (path : Bytes)
  deriving DecidableEq, Repr

/-- Every call of `remove` is on a path that was created once more than it was removed before. -/
def RemovesOwn (calls : List TempCall) : Prop :=
  ∀ front path back, calls = front ++ .removed path :: back →
    front.count (.removed path) < front.count (.created path)

/-- The call of `remove` in `DeleteTemp`. -/
def Server.removals (server : Server) : List TempCall :=
  if server.curFile = [] then [] else [.removed server.curFile]

/-- The call of `mkstemp`, when it creates a file. -/
def Temp.creations (nameHint : Bytes) : Temp → List TempCall
  | .refused => []
  | .created suffix _ => [.created (Server.tempPath nameHint suffix)]

/-- A server, its files, and what it did to temporary files. -/
structure TempOwner where
  server : Server
  files : Files
  /-- The server has not been destroyed. -/
  alive : Bool
  /-- What the last `SendInit` returned; empty before the first one. -/
  answer : Bytes
  /-- The calls of `mkstemp` that created a file and all calls of `remove`, oldest first. -/
  calls : List TempCall

namespace TempOwner

/-- A new server. -/
def start (curBlock : Int32) (directory : Bytes → Option Nat) (content : Nat → Bytes)
    (next : Nat) : TempOwner :=
  ⟨.new curBlock, ⟨directory, content, next, []⟩, true, [], []⟩

/-- One event on a server that has not been destroyed. -/
def step (owner : TempOwner) (event : UploadEvent) : Option TempOwner :=
  if owner.alive = false then
    none
  else
    match event with
    | .sendInit nameHint temp =>
        (owner.server.sendInit owner.files nameHint temp).map fun (server, files, answer) =>
          { owner with
            server, files, answer
            calls := owner.calls ++ owner.server.removals ++ temp.creations nameHint }
    | .sendData data block written =>
        let (server, files, _) := owner.server.sendData owner.files data block written
        some { owner with server, files }
    | .destroy =>
        some
          { owner with
            files := owner.server.deleteTemp owner.files
            alive := false
            calls := owner.calls ++ owner.server.removals }

/-- The machine of one server. -/
def machine : Machine TempOwner UploadEvent := ⟨step⟩

/-- Only own files are removed, and the own files that exist are `m_curFile` alone while the server
lives and its last `SendInit` succeeded, and none otherwise. -/
structure Owned (owner : TempOwner) : Prop where
  removals : RemovesOwn owner.calls
  existing : ∀ path, .created path ∈ owner.calls ∧ owner.files.directory path ≠ none ↔
    owner.alive = true ∧ owner.answer ≠ [] ∧ path = owner.server.curFile

/-- `fdopen` does not fail, and `mkstemp` fails only while `m_curFile` is empty, which it is until
a `SendInit` has succeeded. -/
def Recorded (owner : TempOwner) : UploadEvent → Prop
  | .sendInit _ .refused => owner.server.curFile = []
  | .sendInit _ (.created _ stream) => stream = true
  | .sendData _ _ _ | .destroy => True

instance (owner : TempOwner) (event : UploadEvent) : Decidable (owner.Recorded event) := by
  rcases event with ⟨_, _ | _⟩ | _ | _ <;> unfold Recorded <;> infer_instance

/-- All own files have been removed, each of them once. -/
structure Cleared (calls : List TempCall) (files : Files) : Prop where
  removals : RemovesOwn calls
  balance : ∀ path, calls.count (.created path) = calls.count (.removed path)
  gone : ∀ path, .created path ∈ calls → files.directory path = none

/-- What the guarded events keep: `m_curFile` names the only file that was created and not
removed. -/
structure Holds (owner : TempOwner) : Prop where
  alive : owner.alive = true
  answer : owner.answer = owner.server.curFile
  removals : RemovesOwn owner.calls
  balance : ∀ path, owner.calls.count (.created path) =
    owner.calls.count (.removed path) + if path ≠ [] ∧ path = owner.server.curFile then 1 else 0
  existing : ∀ path, .created path ∈ owner.calls →
    (owner.files.directory path ≠ none ↔ path ≠ [] ∧ path = owner.server.curFile)

/-- `m_curFile` names a file that has been removed already. -/
structure Stale (owner : TempOwner) : Prop where
  named : owner.server.curFile ≠ []
  removed : owner.calls.count (.created owner.server.curFile) ≤
    owner.calls.count (.removed owner.server.curFile)

end TempOwner

theorem deleteTemp_directory (server : Server) (files : Files) :
    (server.deleteTemp files).directory =
      if server.curFile = [] then files.directory
      else Function.update files.directory server.curFile none := by
  rw [Server.deleteTemp]
  cases server.file <;> dsimp only <;> split <;> rfl

theorem sendData_frame (server : Server) (files : Files) (data : Bytes) (block : Int32)
    (written : Nat) :
    (server.sendData files data block written).1.curFile = server.curFile ∧
      (server.sendData files data block written).2.1.directory = files.directory := by
  cases file : server.file with
  | none => simp [Server.sendData, file]
  | some stream =>
      have result_case := Server.sendData_cases file files data block written
      generalize server.sendData files data block written = result at result_case
      cases result_case <;> exact ⟨rfl, rfl⟩

/-- A call of `remove` on a file of one's own. -/
theorem RemovesOwn.removed {calls : List TempCall} (own : RemovesOwn calls) {path : Bytes}
    (exists_path : calls.count (.removed path) < calls.count (.created path)) :
    RemovesOwn (calls ++ [.removed path]) := by
  intro front other back split
  rcases List.eq_nil_or_concat back with rfl | ⟨back, last, rfl⟩
  · obtain ⟨rfl, same⟩ := List.append_inj' split rfl
    obtain rfl : path = other := by simpa using same
    exact exists_path
  · have split' : calls ++ [.removed path] = (front ++ .removed other :: back) ++ [last] := by
      simpa using split
    exact own front other back (List.append_inj' split' rfl).1

/-- Creating a file removes none. -/
theorem RemovesOwn.created {calls : List TempCall} (own : RemovesOwn calls) (path : Bytes) :
    RemovesOwn (calls ++ [.created path]) := by
  intro front other back split
  rcases List.eq_nil_or_concat back with rfl | ⟨back, last, rfl⟩
  · cases (List.append_inj' split rfl).2
  · have split' : calls ++ [.created path] = (front ++ .removed other :: back) ++ [last] := by
      simpa using split
    exact own front other back (List.append_inj' split' rfl).1

namespace TempOwner

theorem Holds.owned {owner : TempOwner} (holds : owner.Holds) : owner.Owned where
  removals := holds.removals
  existing path := by
    constructor
    · rintro ⟨created, present⟩
      obtain ⟨nonempty, rfl⟩ := (holds.existing path created).mp present
      exact ⟨holds.alive, holds.answer ▸ nonempty, rfl⟩
    · rintro ⟨-, nonempty, rfl⟩
      rw [holds.answer] at nonempty
      have created : .created owner.server.curFile ∈ owner.calls := by
        refine List.count_pos_iff.mp ?_
        rw [holds.balance, if_pos ⟨nonempty, rfl⟩]
        exact Nat.succ_pos _
      exact ⟨created, (holds.existing _ created).mpr ⟨nonempty, rfl⟩⟩

/-- `DeleteTemp` removes the one file that is left. -/
theorem Holds.cleared {owner : TempOwner} (holds : owner.Holds) :
    Cleared (owner.calls ++ owner.server.removals) (owner.server.deleteTemp owner.files) := by
  rw [Server.removals]
  by_cases named : owner.server.curFile = []
  · simp only [named, if_true, List.append_nil]
    refine ⟨holds.removals, fun path => ?_, fun path created => ?_⟩
    · rw [holds.balance, if_neg (by simp +contextual [named]), Nat.add_zero]
    · rw [deleteTemp_directory, if_pos named]
      by_contra present
      obtain ⟨nonempty, rfl⟩ := (holds.existing path created).mp present
      exact nonempty named
  · simp only [named, if_false]
    refine ⟨holds.removals.removed ?_, fun path => ?_, fun path created => ?_⟩
    · rw [holds.balance, if_pos ⟨named, rfl⟩]
      exact Nat.lt_succ_self _
    · rw [List.count_append, List.count_append, holds.balance]
      by_cases same : path = owner.server.curFile
      · simp [same, named]
      · simp [same, Ne.symm same]
    · have before : .created path ∈ owner.calls := by simpa using created
      rw [deleteTemp_directory, if_neg named]
      by_cases same : path = owner.server.curFile
      · rw [same, Function.update_self]
      · rw [Function.update_of_ne same]
        by_contra present
        exact same ((holds.existing path before).mp present).2

theorem Cleared.holds {calls : List TempCall} {files : Files} (cleared : Cleared calls files)
    {owner : TempOwner} {path : Bytes} (alive : owner.alive = true) (nonempty : path ≠ [])
    (named : owner.server.curFile = path) (answer : owner.answer = path)
    (calls_eq : owner.calls = calls ++ [.created path]) {file : Option Nat} (present : file ≠ none)
    (directory : owner.files.directory = Function.update files.directory path file) :
    owner.Holds where
  alive := alive
  answer := answer.trans named.symm
  removals := calls_eq ▸ cleared.removals.created path
  balance other := by
    rw [calls_eq, List.count_append, List.count_append, cleared.balance, named]
    by_cases same : other = path
    · simp [same, nonempty]
    · simp [same, Ne.symm same]
  existing other created := by
    rw [directory, named]
    by_cases same : other = path
    · simp [same, nonempty, present]
    · have before : .created other ∈ calls := by
        rw [calls_eq, List.mem_append] at created
        exact created.resolve_right (by simp [same])
      simp [same, cleared.gone other before]

theorem Cleared.holds_nil {calls : List TempCall} {files : Files} (cleared : Cleared calls files)
    {owner : TempOwner} (alive : owner.alive = true) (named : owner.server.curFile = [])
    (answer : owner.answer = []) (calls_eq : owner.calls = calls)
    (directory : owner.files.directory = files.directory) : owner.Holds where
  alive := alive
  answer := answer.trans named.symm
  removals := calls_eq ▸ cleared.removals
  balance path := by
    rw [calls_eq, cleared.balance, named, if_neg (by simp +contextual), Nat.add_zero]
  existing path created := by
    rw [directory, cleared.gone path (calls_eq ▸ created), named]
    simp +contextual

theorem holds_start (curBlock : Int32) (directory : Bytes → Option Nat) (content : Nat → Bytes)
    (next : Nat) : (start curBlock directory content next).Holds where
  alive := rfl
  answer := rfl
  removals front path back split := by simp [start] at split
  balance path := by simp +contextual [start, Server.new]
  existing path created := by simp [start] at created

theorem step_refused {owner next : TempOwner} {nameHint : Bytes} (alive : owner.alive = true)
    (step : machine.step owner (.sendInit nameHint .refused) = some next) :
    next = { owner with
      server := { owner.server with curBlock := 0 }
      files := owner.server.deleteTemp owner.files
      answer := []
      calls := owner.calls ++ owner.server.removals } := by
  simpa [machine, TempOwner.step, alive, Server.sendInit, Temp.creations, eq_comm] using step

theorem step_created {owner next : TempOwner} {nameHint suffix : Bytes} {stream : Bool}
    (alive : owner.alive = true)
    (step : machine.step owner (.sendInit nameHint (.created suffix stream)) = some next) :
    next.alive = true ∧
      next.calls = owner.calls ++ owner.server.removals ++
        [.created (Server.tempPath nameHint suffix)] ∧
      next.files.directory =
        Function.update (owner.server.deleteTemp owner.files).directory
          (Server.tempPath nameHint suffix)
          (some (owner.server.deleteTemp owner.files).next) ∧
      if stream then
        next.server.curFile = Server.tempPath nameHint suffix ∧
          next.answer = Server.tempPath nameHint suffix
      else
        next.server.curFile = owner.server.curFile ∧ next.answer = [] := by
  simp only [machine, TempOwner.step, alive, Bool.true_eq_false, if_false] at step
  obtain ⟨⟨server, files, answer⟩, initialized, rfl⟩ := Option.map_eq_some_iff.mp step
  obtain ⟨-, initialized⟩ := Option.ite_none_right_eq_some.mp initialized
  cases stream with
  | true =>
      obtain ⟨rfl, rfl, rfl⟩ : _ ∧ _ ∧ _ := by simpa using initialized
      exact ⟨rfl, rfl, rfl, rfl, rfl⟩
  | false =>
      obtain ⟨rfl, rfl, rfl⟩ : _ ∧ _ ∧ _ := by simpa using initialized
      exact ⟨rfl, rfl, rfl, rfl, rfl⟩

theorem step_sendData {owner next : TempOwner} {data : Bytes} {block : Int32} {written : Nat}
    (alive : owner.alive = true)
    (step : machine.step owner (.sendData data block written) = some next) :
    next.server.curFile = owner.server.curFile ∧
      next.files.directory = owner.files.directory ∧ next.alive = true ∧
      next.answer = owner.answer ∧ next.calls = owner.calls := by
  obtain ⟨named, directory⟩ := sendData_frame owner.server owner.files data block written
  obtain rfl : _ = next := by simpa [machine, TempOwner.step, alive] using step
  exact ⟨named, directory, rfl, rfl, rfl⟩

theorem step_destroy {owner next : TempOwner} (alive : owner.alive = true)
    (step : machine.step owner .destroy = some next) :
    next = { owner with
      files := owner.server.deleteTemp owner.files
      alive := false
      calls := owner.calls ++ owner.server.removals } := by
  simpa [machine, TempOwner.step, alive, eq_comm] using step

theorem Holds.step {owner next : TempOwner} {event : UploadEvent} (holds : owner.Holds)
    (recorded : owner.Recorded event) (step : machine.step owner event = some next)
    (lives : event ≠ .destroy) : next.Holds := by
  cases event with
  | sendInit nameHint temp =>
      cases temp with
      | refused =>
          obtain rfl := step_refused holds.alive step
          exact holds.cleared.holds_nil holds.alive recorded rfl rfl rfl
      | created suffix stream =>
          obtain rfl : stream = true := recorded
          obtain ⟨alive, calls, directory, named, answer⟩ := step_created holds.alive step
          exact holds.cleared.holds alive (Server.tempPath_ne_nil nameHint suffix) named answer
            calls (Option.some_ne_none _) directory
  | sendData data block written =>
      obtain ⟨named, directory, alive, answer, calls⟩ := step_sendData holds.alive step
      exact
        { alive
          answer := by rw [answer, named, holds.answer]
          removals := calls ▸ holds.removals
          balance := by rw [calls, named]; exact holds.balance
          existing := by rw [calls, named, directory]; exact holds.existing }
  | destroy => exact absurd rfl lives

theorem Holds.owned_destroy {owner next : TempOwner} (holds : owner.Holds)
    (step : machine.step owner .destroy = some next) : next.Owned := by
  obtain rfl := step_destroy holds.alive step
  refine ⟨holds.cleared.removals, fun path => ?_⟩
  constructor
  · rintro ⟨created, present⟩
    exact absurd (holds.cleared.gone path created) present
  · rintro ⟨dead, -⟩
    cases dead

/-- A second removal of the same file. -/
theorem Stale.not_owned {owner next : TempOwner} (stale : owner.Stale) {back : List TempCall}
    (calls : next.calls = owner.calls ++ owner.server.removals ++ back) : ¬next.Owned := by
  intro owned
  have split : next.calls = owner.calls ++ .removed owner.server.curFile :: back := by
    simp [calls, Server.removals, stale.named]
  exact absurd (owned.removals _ _ _ split) (Nat.not_lt.mpr stale.removed)

theorem Stale.not_owned_destroy {owner next : TempOwner} (stale : owner.Stale)
    (alive : owner.alive = true) (step : machine.step owner .destroy = some next) :
    ¬next.Owned := by
  obtain rfl := step_destroy alive step
  exact stale.not_owned (List.append_nil _).symm

/-- Once `m_curFile` is stale, the file it names is removed a second time at the latest when the
server is destroyed. -/
theorem Stale.not_always {owner final : TempOwner} {events : List UploadEvent}
    (stale : owner.Stale) (alive : owner.alive = true)
    (execution : machine.run owner (events ++ [.destroy]) = some final) :
    ¬machine.Always Owned owner (events ++ [.destroy]) := by
  induction events generalizing owner with
  | nil =>
      intro always
      obtain ⟨next, step, -⟩ := Machine.run_cons_eq_some.mp execution
      exact stale.not_owned_destroy alive step (always.2 next step)
  | cons event events ih =>
      intro always
      obtain ⟨next, step, rest⟩ := Machine.run_cons_eq_some.mp execution
      have after := always.2 next step
      cases event with
      | sendInit nameHint temp =>
          cases temp with
          | refused =>
              obtain rfl := step_refused alive step
              exact stale.not_owned (List.append_nil _).symm after.start
          | created suffix stream =>
              obtain ⟨-, calls, -⟩ := step_created alive step
              exact stale.not_owned calls after.start
      | sendData data block written =>
          obtain ⟨named, -, alive, -, calls⟩ := step_sendData alive step
          have kept : next.Stale := by
            refine ⟨?_, ?_⟩
            · rw [named]; exact stale.named
            · rw [named, calls]; exact stale.removed
          exact ih kept alive rest after
      | destroy => exact stale.not_owned_destroy alive step after.start

/-- When `mkstemp` fails after an earlier success, `DeleteTemp` has just removed `m_curFile`. -/
theorem Holds.stale {owner next : TempOwner} {nameHint : Bytes} (holds : owner.Holds)
    (named : owner.server.curFile ≠ [])
    (step : machine.step owner (.sendInit nameHint .refused) = some next) : next.Stale := by
  obtain rfl := step_refused holds.alive step
  exact ⟨named, (holds.cleared.balance _).le⟩

/-- When `fdopen` fails, the new file stays without an owner. -/
theorem Holds.not_owned {owner next : TempOwner} {nameHint suffix : Bytes} (holds : owner.Holds)
    (step : machine.step owner (.sendInit nameHint (.created suffix false)) = some next) :
    ¬next.Owned := by
  intro owned
  obtain ⟨-, calls, directory, -, answer⟩ := step_created holds.alive step
  refine ((owned.existing (Server.tempPath nameHint suffix)).mp ⟨?_, ?_⟩).2.1 answer
  · simp [calls]
  · simp [directory]

/-- An unguarded event makes it certain that the server fails its temporary files before the end. -/
theorem Holds.not_always {owner next final : TempOwner} {event : UploadEvent}
    {events : List UploadEvent} (holds : owner.Holds) (unrecorded : ¬owner.Recorded event)
    (step : machine.step owner event = some next)
    (rest : machine.run next (events ++ [.destroy]) = some final) :
    ¬machine.Always Owned next (events ++ [.destroy]) := by
  cases event with
  | sendInit nameHint temp =>
      cases temp with
      | refused =>
          have alive : next.alive = true := by
            obtain rfl := step_refused holds.alive step
            exact holds.alive
          exact (holds.stale unrecorded step).not_always alive rest
      | created suffix stream =>
          obtain rfl : stream = false := by simpa [Recorded] using unrecorded
          exact fun always => holds.not_owned step always.start
  | sendData => exact absurd trivial unrecorded
  | destroy => exact absurd trivial unrecorded

/-- Nothing happens to a server that has been destroyed. -/
theorem run_dead {owner : TempOwner} (dead : owner.alive = false) (events : List UploadEvent) :
    machine.run owner (events ++ [.destroy]) = none := by
  cases events <;> simp [Machine.run, machine, TempOwner.step, dead]

/-- Up to its destruction the server owns its temporary file exactly when every file that `mkstemp`
creates is recorded and `mkstemp` fails only while there is no record. -/
theorem Holds.always_iff {owner final : TempOwner} {events : List UploadEvent}
    (holds : owner.Holds)
    (execution : machine.run owner (events ++ [.destroy]) = some final) :
    machine.Always Owned owner (events ++ [.destroy]) ↔ machine.Guarded Recorded owner events := by
  induction events generalizing owner with
  | nil =>
      refine ⟨fun _ => trivial, fun _ => ⟨holds.owned, fun next step => ?_⟩⟩
      exact holds.owned_destroy step
  | cons event events ih =>
      obtain ⟨next, step, rest⟩ := Machine.run_cons_eq_some.mp execution
      have lives : event ≠ .destroy := by
        rintro rfl
        obtain rfl := step_destroy holds.alive step
        cases (run_dead (by rfl) events).symm.trans rest
      have unique {other : TempOwner} (again : machine.step owner event = some other) :
          next = other := Option.some.inj (step.symm.trans again)
      constructor
      · intro always other again
        obtain rfl := unique again
        have after := always.2 next step
        have recorded : owner.Recorded event := by
          by_contra unrecorded
          exact holds.not_always unrecorded step rest after
        exact ⟨recorded, (ih (holds.step recorded step lives) rest).mp after⟩
      · intro guarded
        obtain ⟨recorded, later⟩ := guarded next step
        refine ⟨holds.owned, fun other again => ?_⟩
        obtain rfl := unique again
        exact (ih (holds.step recorded step lives) rest).mpr later

/-- `Holds.always_iff` for a server from its construction to its destruction. -/
theorem owned_iff {curBlock : Int32} {directory : Bytes → Option Nat} {content : Nat → Bytes}
    {next : Nat} {events : List UploadEvent} {final : TempOwner}
    (execution : machine.run (start curBlock directory content next) (events ++ [.destroy]) =
      some final) :
    machine.Always Owned (start curBlock directory content next) (events ++ [.destroy]) ↔
      machine.Guarded Recorded (start curBlock directory content next) events :=
  (holds_start curBlock directory content next).always_iff execution

/-- An upload that begins at the second attempt is recorded. -/
theorem owned_of_retry :
    machine.Always Owned (start 0 (fun _ => none) (fun _ => []) 0)
      ([.sendInit [112] .refused, .sendInit [112] (.created [113] true)] ++ [.destroy]) :=
  (owned_iff (by rfl)).mpr (by decide)

/-- A failure of `fdopen` leaves a file behind, and a failure of `mkstemp` after a success makes the
destructor remove a file for the second time. -/
theorem not_owned_of_failure :
    (∃ final,
      machine.run (start 0 (fun _ => none) (fun _ => []) 0)
          ([.sendInit [112] (.created [113] false)] ++ [.destroy]) = some final ∧
        ¬machine.Always Owned (start 0 (fun _ => none) (fun _ => []) 0)
          ([.sendInit [112] (.created [113] false)] ++ [.destroy])) ∧
      ∃ final,
        machine.run (start 0 (fun _ => none) (fun _ => []) 0)
            ([.sendInit [112] (.created [113] true), .sendInit [112] .refused] ++ [.destroy]) =
          some final ∧
          ¬machine.Always Owned (start 0 (fun _ => none) (fun _ => []) 0)
            ([.sendInit [112] (.created [113] true), .sendInit [112] .refused] ++ [.destroy]) := by
  have fresh := holds_start 0 (fun _ => none) (fun _ => []) 0
  constructor
  · exact ⟨_, rfl, fun always => absurd ((fresh.always_iff rfl).mp always) (by decide)⟩
  · exact ⟨_, rfl, fun always => absurd ((fresh.always_iff rfl).mp always) (by decide)⟩

end TempOwner

end CncRemote
