import CncRemote.Plugins
import Mathlib.Data.List.Count

/-!
# What `LoadPlugins` loads

One call of `LoadPlugins` walks over a directory listing and opens libraries.  `librariesOf` lists
the libraries that it opens, each of which is either registered or unloaded again; the handles are
numbered in the order of `dlopen`.
-/

namespace CncRemote

open Program

/-- The library that one round of the POSIX loop opens. -/
def DirEntry.opens (file : DirEntry) : Option Library :=
  if file.regular then file.library else none

/-- The regular files of a listing that open. -/
def librariesOf (directory : List DirEntry) : List Library := directory.filterMap DirEntry.opens

/-- The handle of a library, if it is registered as a plugin. -/
def Library.registered (library : Library) (handle : Nat) : Option Nat :=
  if library.accepted then some handle else none

/-- What is done to one library that is opened. -/
def Library.handled (library : Library) (handle : Nat) : List PluginAction :=
  .load handle :: if library.accepted then [] else [.unload handle]

/-- The pointers that `dlsym` returns for an accepted library are not null, and its control is
there. -/
theorem Library.accepted_iff {library : Library} :
    library.accepted = true ↔
      library.start = true ∧ library.stop = true ∧ library.getName = true ∧
        library.quit = true ∧ library.poll = true ∧ library.controlExists = some true := by
  simp only [accepted, Bool.and_eq_true, beq_iff_eq, and_assoc]

/-- The handles that are registered, of libraries opened from `first` on. -/
def registered (libraries : List Library) (first : Nat) : List Nat :=
  (libraries.zipIdx first).filterMap fun pair => pair.1.registered pair.2

/-- What is done to libraries opened from `first` on. -/
def handled (libraries : List Library) (first : Nat) : List PluginAction :=
  (libraries.zipIdx first).flatMap fun pair => pair.1.handled pair.2

theorem registered_cons (library : Library) (libraries : List Library) (first : Nat) :
    registered (library :: libraries) first =
      (library.registered first).toList ++ registered libraries (first + 1) := by
  rw [registered, List.zipIdx_cons, List.filterMap_cons]
  cases library.registered first <;> rfl

theorem handled_cons (library : Library) (libraries : List Library) (first : Nat) :
    handled (library :: libraries) first =
      library.handled first ++ handled libraries (first + 1) := by
  rw [handled, List.zipIdx_cons, List.flatMap_cons]
  rfl

theorem mem_registered {libraries : List Library} {first handle : Nat} :
    handle ∈ registered libraries first ↔
      ∃ library, first ≤ handle ∧ libraries[handle - first]? = some library ∧
        library.accepted = true := by
  rw [registered, List.mem_filterMap]
  constructor
  · rintro ⟨⟨library, index⟩, inside, taken⟩
    obtain ⟨accepted, same⟩ := Option.ite_none_right_eq_some.mp taken
    obtain rfl : index = handle := Option.some.inj same
    obtain ⟨first_le, at_index⟩ := List.mk_mem_zipIdx_iff_le_and_getElem?_sub.mp inside
    exact ⟨library, first_le, at_index, accepted⟩
  · rintro ⟨library, first_le, at_index, accepted⟩
    exact ⟨(library, handle), List.mk_mem_zipIdx_iff_le_and_getElem?_sub.mpr ⟨first_le, at_index⟩,
      if_pos accepted⟩

theorem count_handled_of_lt (libraries : List Library) {first handle : Nat}
    (before : handle < first) :
    (handled libraries first).count (.load handle) = 0 ∧
      (handled libraries first).count (.unload handle) = 0 := by
  induction libraries generalizing first with
  | nil => exact ⟨rfl, rfl⟩
  | cons library libraries ih =>
      obtain ⟨loads, unloads⟩ := ih (Nat.lt_succ_of_lt before)
      have differ : first ≠ handle := before.ne'
      rw [handled_cons, List.count_append, List.count_append, loads, unloads, Library.handled]
      cases library.accepted <;> simp [differ]

theorem count_handled {libraries : List Library} {first handle : Nat} (after : first ≤ handle)
    (within : handle < first + libraries.length) :
    (handled libraries first).count (.load handle) = 1 ∧
      (handled libraries first).count (.unload handle) =
        if handle ∈ registered libraries first then 0 else 1 := by
  induction libraries generalizing first with
  | nil => exact absurd (after.trans_lt within) (Nat.lt_irrefl first)
  | cons library libraries ih =>
      rw [handled_cons, registered_cons, List.count_append, List.count_append]
      obtain rfl | later := after.eq_or_lt
      · obtain ⟨loads, unloads⟩ := count_handled_of_lt libraries (Nat.lt_succ_self first)
        have fresh : first ∉ registered libraries (first + 1) := fun inside => by
          obtain ⟨_, succ_le, -⟩ := mem_registered.mp inside
          exact Nat.not_succ_le_self first succ_le
        rw [loads, unloads, Library.handled, Library.registered]
        cases library.accepted <;> simp [fresh]
      · have rest : handle < first + 1 + libraries.length := by
          rw [Nat.add_right_comm, Nat.add_assoc]
          exact within
        obtain ⟨loads, unloads⟩ := ih later rest
        have differ : first ≠ handle := later.ne
        rw [loads, unloads, Library.handled, Library.registered]
        cases library.accepted <;> simp [differ, differ.symm]

namespace PluginClient

/-- A client after it has opened libraries. -/
def after (client : PluginClient) (libraries : List Library) (buffer : Nat) : PluginClient :=
  { client with
    plugins := client.plugins ++ registered libraries client.opened
    buffer
    opened := client.opened + libraries.length
    log := client.log ++ handled libraries client.opened }

theorem ends_loadPlugin (file : DirEntry) (client : PluginClient) :
    (loadPlugin false file).Ends client fun _ next =>
      ∃ buffer, next = client.after file.opens.toList buffer := by
  obtain ⟨regular, library⟩ := file
  cases regular with
  | false =>
      rw [loadPlugin, if_pos ⟨rfl, rfl⟩]
      refine (ends_pure _ _ _).mpr ⟨client.buffer, ?_⟩
      simp [after, DirEntry.opens, registered, handled]
  | true =>
      rw [loadPlugin, if_neg (by simp)]
      cases library with
      | none =>
          refine (ends_pure _ _ _).mpr ⟨client.buffer, ?_⟩
          simp [after, DirEntry.opens, registered, handled]
      | some library =>
          simp only [dlopen, bind_assoc, ends_bind, ends_get, ends_modify, pure_bind, ends_ite,
            ends_act]
          split
          · rename_i accepted
            refine ⟨client.buffer + 1, ?_⟩
            simp [after, pushBack, DirEntry.opens, registered, handled, Library.registered,
              Library.handled, accepted]
          · rename_i rejected
            refine ⟨client.buffer, ?_⟩
            simp [after, DirEntry.opens, registered, handled, Library.registered,
              Library.handled, rejected]

theorem after_after (client : PluginClient) (front back : List Library) (first second : Nat) :
    (client.after front first).after back second = client.after (front ++ back) second := by
  simp only [after, registered, handled, List.zipIdx_append, List.filterMap_append,
    List.flatMap_append, List.append_assoc, List.length_append, Nat.add_assoc]

theorem ends_loadPlugins_loop (directory : List DirEntry) (client : PluginClient) :
    (directory.forM (loadPlugin false)).Ends client fun _ next =>
      ∃ buffer, next = client.after (librariesOf directory) buffer := by
  induction directory generalizing client with
  | nil =>
      refine (ends_pure _ _ _).mpr ⟨client.buffer, ?_⟩
      simp [after, librariesOf, registered, handled]
  | cons file files ih =>
      refine (ends_bind _ _ _ _).mpr ((ends_loadPlugin file client).mono ?_)
      rintro _ _ ⟨first, rfl⟩
      refine (ih _).mono ?_
      rintro _ _ ⟨second, rfl⟩
      refine ⟨second, ?_⟩
      rw [after_after, librariesOf, librariesOf, List.filterMap_cons]
      cases file.opens <;> rfl

/-- Once there are plugins, the call does nothing. -/
theorem ends_loadPlugins_again {client : PluginClient} (loaded : client.plugins ≠ [])
    (windows logFunc : Bool) (directory : Option (List DirEntry)) :
    (loadPlugins windows logFunc directory).Ends client fun again next =>
      again = true ∧ next = client := by
  have some_plugins : 0 < client.plugins.length := List.length_pos_iff.mpr loaded
  unfold loadPlugins
  rw [ends_bind, ends_get, if_pos some_plugins]
  exact (ends_pure _ _ _).mpr ⟨rfl, rfl⟩

/-- A client without plugins registers exactly the regular files that open, have all six functions
and report that their control exists, and unloads what else it has opened once.  It reports a
failure only for a listing without a single entry.  When there are plugins, a second call changes
nothing. -/
theorem loadPlugins_of_empty {client : PluginClient} (empty : client.plugins = [])
    (directory : List DirEntry) :
    (loadPlugins false true (some directory)).Ends client fun loaded next =>
      loaded = !directory.isEmpty ∧
        next.opened = client.opened + (librariesOf directory).length ∧
        next.plugins = registered (librariesOf directory) client.opened ∧
        (∀ plugin ∈ next.plugins, ∃ library,
          (librariesOf directory)[plugin - client.opened]? = some library ∧
            library.start = true ∧ library.stop = true ∧ library.getName = true ∧
            library.quit = true ∧ library.poll = true ∧ library.controlExists = some true) ∧
        (∃ entries, next.log = client.log ++ entries ∧
          ∀ handle, client.opened ≤ handle → handle < next.opened →
            entries.count (.load handle) = 1 ∧
              entries.count (.unload handle) = if handle ∈ next.plugins then 0 else 1) ∧
        (next.plugins ≠ [] → ∀ windows logFunc directory,
          (loadPlugins windows logFunc directory).Ends next fun again final =>
            again = true ∧ final = next) := by
  have loop : (loadPlugins false true (some directory)).Ends client fun loaded next =>
      loaded = !directory.isEmpty ∧
        ∃ buffer, next = client.after (librariesOf directory) buffer := by
    unfold loadPlugins
    rw [ends_bind, ends_get, if_neg (by simp [empty]), if_neg (by simp)]
    cases directory with
    | nil =>
        refine (ends_pure _ _ _).mpr ⟨rfl, client.buffer, ?_⟩
        simp [after, librariesOf, registered, handled]
    | cons file files =>
        refine (ends_bind _ _ _ _).mpr ((ends_loadPlugins_loop (file :: files) client).mono ?_)
        exact fun _ next walked => (ends_pure _ _ _).mpr ⟨rfl, walked⟩
  refine loop.mono ?_
  rintro loaded _ ⟨result, buffer, rfl⟩
  have plugins : (client.after (librariesOf directory) buffer).plugins =
      registered (librariesOf directory) client.opened := by
    rw [after, empty, List.nil_append]
  refine ⟨result, rfl, plugins, ?_, ⟨_, rfl, ?_⟩, ends_loadPlugins_again⟩
  · intro plugin inside
    rw [plugins] at inside
    obtain ⟨library, -, at_index, accepted⟩ := mem_registered.mp inside
    exact ⟨library, at_index, Library.accepted_iff.mp accepted⟩
  · intro handle from_first within
    rw [plugins]
    exact count_handled from_first within

/-- Of three regular files one has no control and one does not open. -/
theorem loadPlugins_of_construct :
    (loadPlugins false true (some
        [⟨true, some ⟨true, true, true, true, true, some false⟩⟩, ⟨true, none⟩,
          ⟨true, some ⟨true, true, true, true, true, some true⟩⟩])).Ends construct
      fun loaded next => loaded = true ∧ next.plugins = [1] :=
  (loadPlugins_of_empty rfl _).mono fun _ _ after => ⟨after.1, after.2.2.1⟩

/-- A directory in which `readdir` finds no entry at all is reported as a failure. -/
theorem not_loadPlugins_of_noEntry :
    ¬∀ directory : List DirEntry,
      (loadPlugins false true (some directory)).Ends construct fun loaded _ => loaded = true := by
  intro always
  exact absurd (always []) (by decide +kernel)

end PluginClient

end CncRemote
