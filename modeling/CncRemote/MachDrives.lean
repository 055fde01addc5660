import CncRemote.MachLocks

/-!
# Drives of the Mach3 server

`DrivesOn` compares what it is asked for with `machineState`, a copy that `Poll` refreshes, and
presses a button that toggles the emergency stop.  `obeys_iff` says when the result is what was
asked for.
-/

namespace CncRemote

open Program

namespace MachServer

/-- The copy in `machineState` agrees with the emergency stop. -/
def Fresh (server : MachServer) : Prop :=
  ControlState.off.code < server.state.machineState ↔ server.mach3.eStop = false

/-- The drives are enabled after `DrivesOn` exactly when it was asked to enable them. -/
def Obeys (api : MachApi) (reached : Option MachServer) : MachEvent → Prop
  | .call _ _ (.drivesOn mode) =>
      ∀ server ∈ reached, (drivesOn api mode).Ends server fun _ next =>
        next.mach3.eStop = false ↔ mode = true
  | _ => True

/-- `DrivesOn` finds a fresh copy. -/
def AsksFresh (server : MachServer) : MachEvent → Prop
  | .call _ _ (.drivesOn _) => server.Fresh
  | _ => True

instance (server : MachServer) : Decidable server.Fresh := inferInstanceAs (Decidable (_ ↔ _))

instance (server : MachServer) (event : MachEvent) : Decidable (server.AsksFresh event) := by
  unfold AsksFresh
  split <;> infer_instance

section Toggle

variable {api : MachApi} (toggle : ∀ mach3, (api.doButton 1021 mach3).eStop = !mach3.eStop)

include toggle

/-- What `DrivesOn` does to the emergency stop. -/
theorem ends_drivesOn_iff (mode : Bool) {server : MachServer} (free : server.Free)
    (post : Bool → Int32 → Prop) :
    ((drivesOn api mode).Ends server fun _ next =>
        post next.mach3.eStop next.state.machineState) ↔
      post
        (if mode ≠ decide (ControlState.off.code < server.state.machineState) then
          !server.mach3.eStop else server.mach3.eStop)
        server.state.machineState := by
  obtain ⟨sync, -⟩ := Prod.mk.inj free
  simp only [drivesOn, doButton, changeMach3, Mutex.ends_guard, ends_bind, ends_get, ends_ite,
    ends_modify, ends_pure, syncMutex, sync, true_and]
  split
  · rw [toggle]
  · rfl

theorem obeys_iff_fresh (mode : Bool) {server : MachServer} (free : server.Free) :
    ((drivesOn api mode).Ends server fun _ next => next.mach3.eStop = false ↔ mode = true) ↔
      server.Fresh := by
  rw [ends_drivesOn_iff toggle mode free fun eStop _ => eStop = false ↔ mode = true, Fresh]
  by_cases moving : ControlState.off.code < server.state.machineState <;>
    cases mode <;> cases server.mach3.eStop <;> simp [moving]

/-- In a run of the server every `DrivesOn` is obeyed exactly when every `DrivesOn` finds a fresh
copy. -/
theorem obeys_iff (curBlock : Int32) (files : Files) (homeSpeed : Fin maxAxes → ℚ)
    (loaded : Bool) (mach3 : Mach3) (events : List MachEvent) :
    (machine (program api)).Guarded (Obeys api)
        (some (start curBlock files homeSpeed loaded mach3)) events ↔
      (machine (program api)).Guarded
        (fun reached event => ∀ server ∈ reached, server.AsksFresh event)
        (some (start curBlock files homeSpeed loaded mach3)) events := by
  refine @Machine.guarded_congr_of_invariant _ _ (machine (program api)) _ _
    (fun reached => ∀ server ∈ reached, server.Free) ?_ ?_ _ ?_ events
  · rintro (_ | before) event next free step
    · cases step
    · rintro after rfl
      exact (free before rfl).step api step
  · rintro (_ | before) event next free step
    · cases step
    · unfold Obeys AsksFresh
      split
      · constructor
        · rintro obeys _ ⟨⟩
          exact (obeys_iff_fresh toggle _ (free before rfl)).mp (obeys before rfl)
        · rintro fresh _ ⟨⟩
          exact (obeys_iff_fresh toggle _ (free before rfl)).mpr (fresh before rfl)
      · simp
  · rintro _ ⟨⟩
    cases loaded <;> rfl

end Toggle

/-- Drives that are enabled, polled and disabled. -/
theorem obeys_of_poll :
    (machine (program .plain)).Guarded (Obeys .plain)
      (some (start 0 ⟨fun _ => none, fun _ => [], 0, []⟩ (fun _ => 1) true .rest))
      [.call .refused 0 (.drivesOn true), .poll, .call .refused 0 (.drivesOn true),
        .call .refused 0 (.drivesOn false)] :=
  (obeys_iff (fun _ => rfl) _ _ _ _ _ _).mpr (by decide +kernel)

/-- A second request to enable the drives disables them when no `Poll` came in between. -/
theorem not_obeys_of_repeat :
    ¬(machine (program .plain)).Guarded (Obeys .plain)
      (some (start 0 ⟨fun _ => none, fun _ => [], 0, []⟩ (fun _ => 1) true .rest))
      [.call .refused 0 (.drivesOn true), .call .refused 0 (.drivesOn true)] := by
  intro guarded
  obtain ⟨-, rest⟩ := guarded _ rfl
  obtain ⟨obeys, -⟩ := rest _ rfl
  have fresh := (obeys_iff_fresh (fun _ => rfl) true (by rfl)).mp (obeys _ rfl)
  revert fresh
  decide +kernel

end MachServer

end CncRemote
