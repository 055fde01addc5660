import CncRemote.TempFiles

/-!
# Where the temporary files are

`SendInit` prints a hint that comes from the network into the path of a temporary file, which a
later `DeleteTemp` removes.  `guarded_confined_iff` says which hints keep the printed text within
its buffer and all these paths directly under `/tmp`.
-/

namespace CncRemote

/-- The path is that of an entry of `/tmp`. -/
def InTmp (path : Bytes) : Prop := ∃ name, path = ascii "/tmp/" ++ name ∧ 47 ∉ name

/-- `mkstemp` puts characters of the portable file name character set at the end of the path. -/
def UploadEvent.Portable : UploadEvent → Prop
  | .sendInit _ (.created suffix _) => 47 ∉ suffix
  | .sendInit _ .refused | .sendData _ _ _ | .destroy => True

/-- The hint is not too long, and if it has a slash then no path is returned. -/
def UploadEvent.Bounded : UploadEvent → Prop
  | .sendInit nameHint (.created _ true) =>
      (cString nameHint).length + 21 ≤ pathMax ∧ 47 ∉ cString nameHint
  | .sendInit nameHint (.created _ false) | .sendInit nameHint .refused =>
      (cString nameHint).length + 21 ≤ pathMax
  | .sendData _ _ _ | .destroy => True

/-- The path is directly under `/tmp` exactly if what is printed of the hint has no slash. -/
theorem inTmp_tempPath_iff (nameHint : Bytes) {suffix : Bytes} (portable : 47 ∉ suffix) :
    InTmp (Server.tempPath nameHint suffix) ↔ 47 ∉ cString nameHint := by
  have path : Server.tempPath nameHint suffix =
      ascii "/tmp/" ++ (ascii "CncRemote" ++ cString nameHint ++ suffix) := rfl
  have word : 47 ∉ ascii "CncRemote" := by decide
  rw [path]
  constructor
  · rintro ⟨name, same, flat⟩
    obtain rfl := List.append_cancel_left same
    exact fun inside => flat (List.mem_append_left _ (List.mem_append_right _ inside))
  · intro flat
    exact ⟨_, rfl, by simp [word, flat, portable]⟩

namespace TempOwner

/-- What the step prints fits into its buffer, and all paths that the server has returned or removed
after it are directly under `/tmp`. -/
structure Confined (owner : TempOwner) (event : UploadEvent) : Prop where
  fits : ∀ nameHint temp, event = .sendInit nameHint temp →
    (tempTemplate nameHint).length + 1 ≤ pathMax
  returned : ∀ next, machine.step owner event = some next →
    next.answer ≠ [] → InTmp next.answer
  removed : ∀ next path, machine.step owner event = some next →
    .removed path ∈ next.calls → InTmp path

/-- The paths that the server knows are directly under `/tmp`. -/
structure Local (owner : TempOwner) : Prop where
  named : owner.server.curFile ≠ [] → InTmp owner.server.curFile
  returned : owner.answer ≠ [] → InTmp owner.answer
  removed : ∀ path, .removed path ∈ owner.calls → InTmp path

variable {owner next : TempOwner} {event : UploadEvent}

theorem start_local (curBlock : Int32) (directory : Bytes → Option Nat) (content : Nat → Bytes)
    (first : Nat) : (start curBlock directory content first).Local :=
  ⟨fun named => absurd rfl named, fun returned => absurd rfl returned, by simp [start]⟩

theorem alive_of_step (step : machine.step owner event = some next) : owner.alive = true := by
  by_contra dead
  simp [machine, TempOwner.step, dead] at step

/-- `DeleteTemp` removes what the server knows. -/
theorem Local.removals (inv : owner.Local) {path : Bytes}
    (removed : .removed path ∈ owner.calls ++ owner.server.removals) : InTmp path := by
  obtain before | now := List.mem_append.mp removed
  · exact inv.removed path before
  · rw [Server.removals] at now
    split at now
    · cases now
    · rename_i named
      obtain rfl : path = owner.server.curFile := by simpa using now
      exact inv.named named

theorem Local.step (inv : owner.Local) (portable : event.Portable) (bounded : event.Bounded)
    (step : machine.step owner event = some next) : next.Local := by
  have alive := alive_of_step step
  cases event with
  | sendInit nameHint temp =>
      cases temp with
      | refused =>
          obtain rfl := step_refused alive step
          exact ⟨inv.named, fun returned => absurd rfl returned, fun _ => inv.removals⟩
      | created suffix stream =>
          obtain ⟨-, calls, -, answered⟩ := step_created alive step
          have removed (path : Bytes) (removed : .removed path ∈ next.calls) : InTmp path := by
            rw [calls, List.mem_append] at removed
            exact inv.removals (removed.resolve_right (by simp))
          cases stream with
          | false =>
              obtain ⟨named, answer⟩ := answered
              exact ⟨by rw [named]; exact inv.named, fun returned => absurd answer returned,
                removed⟩
          | true =>
              obtain ⟨named, answer⟩ := answered
              have path := (inTmp_tempPath_iff nameHint portable).mpr bounded.2
              exact ⟨fun _ => named ▸ path, fun _ => answer ▸ path, removed⟩
  | sendData data block written =>
      obtain ⟨named, -, -, answer, calls⟩ := step_sendData alive step
      exact ⟨named ▸ inv.named, answer ▸ inv.returned, calls ▸ inv.removed⟩
  | destroy =>
      obtain rfl := step_destroy alive step
      exact ⟨inv.named, inv.returned, fun _ => inv.removals⟩

/-- A step is confined exactly if its event is bounded. -/
theorem Local.confined_iff (inv : owner.Local) (portable : event.Portable)
    (step : machine.step owner event = some next) : owner.Confined event ↔ event.Bounded := by
  constructor
  · intro confined
    cases event with
    | sendInit nameHint temp =>
        have fits := confined.fits nameHint temp rfl
        rw [tempTemplate_length] at fits
        cases temp with
        | refused => exact fits
        | created suffix stream =>
            cases stream with
            | false => exact fits
            | true =>
                obtain ⟨-, -, -, -, answer⟩ := step_created (alive_of_step step) step
                have path := confined.returned next step (answer ▸ Server.tempPath_ne_nil _ _)
                rw [answer, inTmp_tempPath_iff nameHint portable] at path
                exact ⟨fits, path⟩
    | sendData | destroy => trivial
  · intro bounded
    refine ⟨?_, fun after step => (inv.step portable bounded step).returned,
      fun after path step => (inv.step portable bounded step).removed path⟩
    rintro nameHint temp rfl
    rw [tempTemplate_length]
    rcases temp with _ | ⟨suffix, _ | _⟩
    · exact bounded
    · exact bounded
    · exact bounded.1

/-- On a server with paths directly under `/tmp`, the runs that stay there are those with bounded
hints. -/
theorem Local.guarded_iff (inv : owner.Local) {events : List UploadEvent}
    (portable : ∀ event ∈ events, event.Portable) :
    machine.Guarded Confined owner events ↔
      machine.Guarded (fun _ event => event.Bounded) owner events := by
  induction events generalizing owner with
  | nil => rfl
  | cons event events ih =>
      obtain ⟨first, rest⟩ := List.forall_mem_cons.mp portable
      refine forall₂_congr fun next step => ?_
      rw [inv.confined_iff first step]
      exact and_congr_right fun bounded => ih (inv.step first bounded step) rest

/-- In which runs of a server all that `SendInit` prints fits into its buffer, and all that it
returns and `DeleteTemp` removes is directly under `/tmp`. -/
theorem guarded_confined_iff (curBlock : Int32) (directory : Bytes → Option Nat)
    (content : Nat → Bytes) (first : Nat) {events : List UploadEvent}
    (portable : ∀ event ∈ events, event.Portable) :
    machine.Guarded Confined (start curBlock directory content first) events ↔
      machine.Guarded (fun _ event => event.Bounded)
        (start curBlock directory content first) events :=
  (start_local curBlock directory content first).guarded_iff portable

/-- One upload of `part`. -/
theorem guarded_confined_iff_of_part :
    machine.Guarded Confined (start 0 (fun _ => none) (fun _ => []) 0)
        [.sendInit (ascii "part") (.created (ascii "a1B2c3") true), .destroy] ↔
      machine.Guarded (fun _ event => event.Bounded) (start 0 (fun _ => none) (fun _ => []) 0)
        [.sendInit (ascii "part") (.created (ascii "a1B2c3") true), .destroy] :=
  guarded_confined_iff 0 _ _ 0 (by simp [UploadEvent.Portable]; decide)

/-- Where there is a directory `/tmp/CncRemote`, the hint `/../../etc/x` leads out of `/tmp`. -/
theorem not_guarded_confined :
    ¬∀ (curBlock : Int32) (directory : Bytes → Option Nat) (content : Nat → Bytes) (first : Nat)
      (events : List UploadEvent), (∀ event ∈ events, event.Portable) →
        machine.Guarded Confined (start curBlock directory content first) events := by
  intro always
  have guarded := always 0 (fun _ => none) (fun _ => []) 0
    [.sendInit (ascii "/../../etc/x") (.created (ascii "a1B2c3") true)]
    (by simp [UploadEvent.Portable]; decide)
  have bounded := ((start_local 0 _ _ 0).guarded_iff
    (by simp [UploadEvent.Portable]; decide)).mp guarded
  exact absurd ((bounded _ rfl).1.2) (by decide)

end TempOwner

end CncRemote
