import CncRemote.JogCache
import CncRemote.MachLocks

/-!
# Reported positions

`GetState_` returns a state that lives from one call to the next and that `UpdateState` fills.
`reports_iff` says for the drivers of LinuxCNC and Mach3 when the position in it is the one that the
control has.
-/

namespace CncRemote

open Program

namespace LinuxCnc

variable {R : Type} (arith : Arith R) (build : Build)

/-- The position of an axis of the control. -/
def position (status : EmcStat R) (ct : Fin maxAxes) : R :=
  arith.div (status.actualPosition.array ct) (status.units ct)

/-- The control is reported to be offline, or the position is that of the control. -/
def Correct (state : State R) (server : LinuxCnc R) : Prop :=
  state.machineState = ControlState.offline.code ∨
    ∀ ct, state.machinePos.array ct = position arith server.control ct

/-- What `GetState_` returns is correct. -/
def Reports (server : LinuxCnc R) : LinuxEvent → Prop
  | .call .getState_ => (getState_ arith).Ends server (Correct arith)
  | _ => True

instance [DecidableEq R] (state : State R) (server : LinuxCnc R) :
    Decidable (Correct arith state server) :=
  inferInstanceAs (Decidable (_ ∨ _))

instance [DecidableEq R] (server : LinuxCnc R) (event : LinuxEvent) :
    Decidable (Reports arith server event) := by
  unfold Reports
  split <;> infer_instance

/-- `GetState_` finds no status or reaches the control, or what is left of the last state is
correct. -/
def Reaches (server : LinuxCnc R) : LinuxEvent → Prop
  | .call .getState_ =>
      server.emcStatus = none ∨
        reachable.Ends server fun up next => up = true ∨ Correct arith server.state next
  | _ => True

variable {server next : LinuxCnc R}

theorem reachable_content (connected : server.Connected) :
    reachable.Ends server fun up next =>
      up = true → next.content (next.emcStatus.getD 0) = next.control := by
  rw [reachable, ends_bind]
  refine (ok_keeps server connected).mono fun good middle ⟨linked, nonnull⟩ => ?_
  rw [ends_ite]
  split
  · exact (ends_pure _ _ _).mpr nofun
  have live := linked.held.live_status (linked.status ▸ nonnull)
  simp only [peekStatus, ends_bind, ends_get, ends_follow, ends_library, ends_ite, ends_pure,
    ends_modify]
  refine ⟨live, ?_⟩
  split
  · simp
  · intro _
    rw [linked.status, Function.update_self]

/-- What the check of the heartbeat leaves as it is. -/
def shown (server : LinuxCnc R) : (Nat → EmcStat R) × Pointer × EmcStat R :=
  (server.content, server.emcStatus, server.control)

theorem alive_frames_shown : (alive : Program (LinuxCnc R) Bool).Frames shown := by
  have clock : (time : Program (LinuxCnc R) Int).Frames shown := by
    rintro _ _ _ ⟨⟩
    rfl
  have reads : (readStatus : Program (LinuxCnc R) (EmcStat R)).Frames shown :=
    .bind .get fun _ => .bind (.bind .get fun _ => .ite (.pure _) .fault) fun _ => .pure _
  refine .bind clock fun _ => .bind .get fun _ => .ite (.pure _) (.bind reads fun _ => ?_)
  refine .bind .get fun _ => .ite (.pure _) (.bind clock fun _ => .bind (.modify ?_) fun _ => ?_)
  · exact fun _ => rfl
  · exact .pure _

theorem correct_of_reachable (connected : server.Connected)
    (runs : reachable server = some (true, next)) :
    (getState_ arith).Ends server (Correct arith) := by
  obtain ⟨_, _, again, kept⟩ := reachable_keeps server connected
  obtain ⟨rfl, rfl⟩ := Prod.mk.inj (Option.some.inj (again.symm.trans runs))
  have content := (ends_iff_of_eq runs _).mp (reachable_content connected) rfl
  obtain ⟨live, after, runs', kept'⟩ := alive_keeps _ kept
  have shows := alive_frames_shown runs'
  simp only [shown, Prod.mk.injEq] at shows
  obtain ⟨content', status', control'⟩ := shows
  simp only [getState_, updateState, ends_bind, ends_get, if_neg connected.2, ends_iff_of_eq runs,
    Bool.true_eq_false, if_false, ends_iff_of_eq runs', ends_pure]
  cases live with
  | false =>
      have held : Held { after with
          state := { after.state with machineState := ControlState.offline.code } } := kept'.1.held
      simp only [if_true, ends_bind, setMachineState, ends_modify]
      obtain ⟨_, final, disconnects, -⟩ := held.ends_disconnectNml
      rw [ends_iff_of_eq disconnects]
      have same := disconnectNml_frames disconnects
      simp only [driven, Prod.mk.injEq] at same
      exact .inl (by rw [same.2.2])
  | true =>
      simp only [Bool.true_eq_false, if_false, readStatus, ends_bind, ends_get, ends_follow,
        ends_pure, ends_modify]
      refine ⟨kept'.live, .inr fun ct => ?_⟩
      rw [content', status', content, ← control']
      rfl

theorem reports_iff_reaches (linked : server.Linked) (event : LinuxEvent) :
    Reports arith server event ↔ Reaches arith server event := by
  unfold Reports Reaches
  split
  · by_cases null : server.emcStatus = none
    · refine iff_of_true ?_ (.inl null)
      simp only [getState_, updateState, ends_bind, ends_get, null, if_true, setMachineState,
        ends_modify, ends_pure]
      exact .inl rfl
    · obtain ⟨up, next, runs, kept⟩ := reachable_keeps server ⟨linked, null⟩
      rw [ends_iff_of_eq runs]
      cases up with
      | true =>
          exact iff_of_true (correct_of_reachable arith ⟨linked, null⟩ runs) (.inr (.inl rfl))
      | false =>
          have same := reachable_frames runs
          simp only [driven, Prod.mk.injEq] at same
          simp only [getState_, updateState, ends_bind, ends_get, null, if_false,
            ends_iff_of_eq runs, if_true, ends_pure, same.2.2, Bool.false_eq_true, false_or]
  · exact Iff.rfl

end LinuxCnc

namespace MachServer

/-- The state never says that the control is offline, and the first axis has never been written. -/
def Blank (server : MachServer) : Prop :=
  server.state.machineState ≠ ControlState.offline.code ∧ server.state.machinePos.array 0 = 0

/-- The control is reported to be offline, or the position is that of the control. -/
def Correct (state : State ℚ) (server : MachServer) : Prop :=
  state.machineState = ControlState.offline.code ∨
    ∀ ct, state.machinePos.array ct = axisPosition server.mach3 ct

/-- What `GetState_` returns is correct. -/
def Reports (server : MachServer) : MachEvent → Prop
  | .call _ _ .getState_ => getState_.Ends server Correct
  | _ => True

instance (state : State ℚ) (server : MachServer) : Decidable (Correct state server) :=
  inferInstanceAs (Decidable (_ ∨ _))

instance (server : MachServer) (event : MachEvent) : Decidable (Reports server event) := by
  unfold Reports
  split <;> infer_instance

/-- `GetState_` finds the first axis of the control at zero. -/
def AtZero (server : MachServer) : MachEvent → Prop
  | .call _ _ .getState_ => axisPosition server.mach3 0 = 0
  | _ => True

variable {api : MachApi} {server next : MachServer}

theorem polledState_ne_offline (mach3 : Mach3) :
    (polledState mach3).code ≠ ControlState.offline.code := by
  unfold polledState
  split
  · decide
  · split
    · decide
    · split <;> decide

theorem setMachineState_blank {value : ControlState} (online : value.code ≠ 1) :
    (setMachineState value).Preserves Blank :=
  .modify fun _ blank => ⟨online, blank.2⟩

theorem syncMutex_blank {α : Type} {body : Program MachServer α}
    (preserves : body.Preserves Blank) : (syncMutex.guard body).Preserves Blank :=
  syncMutex.preserves_guard preserves fun _ _ => id

theorem loadFile_blank (file : Bytes) : (loadFile api file).Preserves Blank := by
  refine syncMutex_blank (.bind .get fun _ => .ite (.pure _) ?_)
  cases api.toWide (cString file) with
  | none => exact .bind (.modify fun _ => id) fun _ => .pure _
  | some path =>
      refine .bind (.modify fun _ => id) fun _ => ?_
      refine .bind (setMachineState_blank (by decide)) fun _ => ?_
      exact .bind (.modify fun _ => id) fun _ => .pure _

theorem program_blank (event : MachEvent) : (program api event).Preserves Blank := by
  cases event with
  | call temp written call =>
      by_cases reads : call = .getState_
      · subst reads
        refine .map _ (syncMutex_blank (.bind ?_ fun _ => .bind .get fun _ => .pure _))
        exact .modify fun _ blank => blank
      · by_cases stays : ∀ file, call ≠ .loadFile file
        · refine (handle_frames api temp written reads stays).preserves fun core =>
            core.1.machineState ≠ ControlState.offline.code ∧ core.1.machinePos.array 0 = 0
        · obtain ⟨file, rfl⟩ : ∃ file, call = .loadFile file := by simpa using stays
          exact .map _ (loadFile_blank file)
  | startLoop app scripter =>
      refine .ite (.ite (.pure _) (msgMutex.preserves_guard ?_ fun _ _ => id)) ?_
      · exact .modify fun _ => id
      · exact .modify fun _ => id
  | poll =>
      refine .bind (.modify fun _ => id) fun _ => syncMutex_blank ?_
      exact .modify fun _ blank => ⟨polledState_ne_offline _, blank.2⟩
  | test =>
      refine .modify fun server blank => ?_
      split
      · exact blank
      · split <;> exact blank
  | load =>
      refine .bind .get fun _ => .ite (.pure _) (.bind (.modify fun _ => id) fun _ => ?_)
      refine syncMutex_blank (.bind (setMachineState_blank (by decide)) fun _ => ?_)
      refine .bind .get fun _ => ?_
      have clears : (modify fun server => { server with filePath := [] } : Program MachServer Unit)
          |>.Preserves Blank := .modify fun _ => id
      refine .ite (.bind (.modify fun _ => id) fun _ => ?_) ?_
      all_goals exact .bind clears fun _ => setMachineState_blank (by decide)
  | mach3 memory => exact .modify fun _ => id

/-- `GetState_` is correct exactly when the first axis is at zero. -/
theorem reports_iff_atZero (free : server.Free) (blank : server.Blank) (event : MachEvent) :
    Reports server event ↔ AtZero server event := by
  unfold Reports AtZero
  split
  · obtain ⟨sync, -⟩ := Prod.mk.inj free
    simp only [getState_, Mutex.ends_guard, ends_bind, ends_modify, ends_get, ends_pure, syncMutex,
      sync, true_and, Correct, updateState]
    constructor
    · rintro (offline | equal)
      · exact absurd offline blank.1
      · exact (equal 0).symm.trans blank.2
    · refine fun zero => .inr fun ct => ?_
      by_cases first : ct = 0
      · rw [if_pos first, first]
        exact blank.2.trans zero.symm
      · rw [if_neg first]
  · exact Iff.rfl

end MachServer

/-- In a run of either driver every state that `GetState_` returns is correct exactly when, for
LinuxCNC, every call reaches the control or finds nothing to do and, for Mach3, every call finds the
first axis at zero. -/
theorem reports_iff {R : Type} (arith : Arith R) (build : Build) (nextTime : Int)
    (control : EmcStat R) (tape : Nat → NmlAnswer R) (linuxEvents : List LinuxEvent)
    (api : MachApi) (curBlock : Int32) (files : Files) (homeSpeed : Fin maxAxes → ℚ)
    (loaded : Bool) (mach3 : Mach3) (machEvents : List MachEvent) :
    ((machine (LinuxCnc.program arith build)).Guarded
          (fun reached event => ∀ server ∈ reached, LinuxCnc.Reports arith server event)
          (some (.start arith nextTime control tape)) linuxEvents ↔
        (machine (LinuxCnc.program arith build)).Guarded
          (fun reached event => ∀ server ∈ reached, LinuxCnc.Reaches arith server event)
          (some (.start arith nextTime control tape)) linuxEvents) ∧
      ((machine (MachServer.program api)).Guarded
          (fun reached event => ∀ server ∈ reached, MachServer.Reports server event)
          (some (.start curBlock files homeSpeed loaded mach3)) machEvents ↔
        (machine (MachServer.program api)).Guarded
          (fun reached event => ∀ server ∈ reached, MachServer.AtZero server event)
          (some (.start curBlock files homeSpeed loaded mach3)) machEvents) := by
  constructor
  · have keep (event : LinuxEvent) :
        (LinuxCnc.program arith build event).Preserves LinuxCnc.Linked :=
      (LinuxCnc.program_keeps arith build event).preserves
    refine guarded_congr_of_invariant keep (fun event linked => ?_) ?_ _
    · exact LinuxCnc.reports_iff_reaches arith linked event
    · exact LinuxCnc.start_linked arith nextTime control tape
  · have free (event : MachEvent) : (MachServer.program api event).Preserves MachServer.Free :=
      fun _ value _ free runs => free.step api (step_eq_some_some.mpr ⟨value, runs⟩)
    have keep (event : MachEvent) := (free event).and (MachServer.program_blank event)
    refine guarded_congr_of_invariant keep (fun event holds => ?_) ?_ _
    · exact MachServer.reports_iff_atZero holds.1 holds.2 event
    · have online : ControlState.noServer.code ≠ ControlState.offline.code := by decide
      cases loaded <;> exact ⟨rfl, online, rfl⟩

/-- The driver for LinuxCNC reports an old position when a channel is no longer valid while the
control moves, and the one for Mach3 when the first axis is not at zero. -/
theorem not_reports_of_move :
    ¬(machine (LinuxCnc.program (.exact fun _ => 0) ⟨false, 255⟩)).Guarded
        (fun reached event =>
          ∀ server ∈ reached, LinuxCnc.Reports (.exact fun _ => 0) server event)
        (some (.start (.exact fun _ => 0) 0 .rest fun index =>
          if index < 6 then ⟨1, .rest, false⟩
          else ⟨0, { EmcStat.rest with actualPosition := ⟨fun _ => 1⟩ }, false⟩))
        [.connectNml, .call .getState_] ∧
      ¬(machine (MachServer.program .plain)).Guarded
        (fun reached event => ∀ server ∈ reached, MachServer.Reports server event)
        (some (.start 0 ⟨fun _ => none, fun _ => [], 0, []⟩ (fun _ => 1) true
          { Mach3.rest with axis := fun _ => ⟨1, 0, 0, 0, false, false, 0⟩ }))
        [.call .refused 0 .getState_] := by
  decide +kernel

end CncRemote
