import CncRemote.Protocols
import CncRemote.Shared
import Mathlib.Data.List.AList
import Mathlib.Data.Multiset.Dedup
import Mathlib.Data.Set.Basic

/-!
# Locks that are copied

A `ThreadLock` is a shared pointer to the guard of a mutex, and so is a `LockedState`.  Pointers,
guards and mutexes are those of the library `linear`, which is not in the repository: they are
parameters here, with what is documented about such classes.  Threads create, copy, assign and
destroy objects in any order.  `run_held` says that they do and wait as if every object held its
mutex by itself: as long as it or a copy of it exists.
-/

namespace CncRemote

/-- What `linear::mutex` and `linear::lock_guard` offer to threads. -/
structure MutexApi (τ μ : Type) where
  /-- How all mutexes are locked. -/
  Mutexes : Type
  Guard : Type
  unlocked : Mutexes
  /-- A thread makes a guard of a mutex; `none` as long as it waits for the mutex. -/
  lock (mutexes : Mutexes) (thread : τ) (mutex : μ) : Option (Guard × Mutexes)
  /-- A thread deletes a guard. -/
  unlock (mutexes : Mutexes) (thread : τ) (guard : Guard) : Mutexes
  /-- The mutex that a guard was made of. -/
  mutex (guard : Guard) : μ

/-- What is documented about mutexes and guards, where `holders` are the threads that hold a mutex,
each as often as it does.  Which threads need not wait for a mutex that others hold is left open: a
mutex may be recursive. -/
structure MutexApi.Guards {τ μ : Type} [DecidableEq μ] (api : MutexApi τ μ)
    (admits : Set τ → τ → Prop) (holders : api.Mutexes → μ → Multiset τ) : Prop where
  unlocked (mutex : μ) : holders api.unlocked mutex = 0
  waits (mutexes : api.Mutexes) (thread : τ) (mutex : μ) :
    api.lock mutexes thread mutex = none ↔ ¬admits { other | other ∈ holders mutexes mutex } thread
  mutex {mutexes thread mutex guard next} :
    api.lock mutexes thread mutex = some (guard, next) → api.mutex guard = mutex
  locks {mutexes thread mutex guard next} :
    api.lock mutexes thread mutex = some (guard, next) →
      holders next = Function.update (holders mutexes) mutex (thread ::ₘ holders mutexes mutex)
  /-- The thread has to be one that holds the mutex. -/
  unlocks {mutexes thread guard others} : holders mutexes (api.mutex guard) = thread ::ₘ others →
    holders (api.unlock mutexes thread guard) =
      Function.update (holders mutexes) (api.mutex guard) others

/-- What a thread does to its locks. -/
inductive LockEvent (ι μ : Type) where
  /-- `ThreadLock object(mutex)`, which waits for the mutex. -/
  | lock (object : ι) (mutex : μ)
  /-- `ThreadLock object(source)` -/
  | copy (source object : ι)
  /-- `object = source` -/
  | assign (source object : ι)
  | destroy (object : ι)

/-- The locks of all threads. -/
structure Locks (τ ι : Type) {μ : Type} (mutexApi : MutexApi τ μ)
    (sharedApi : SharedApi mutexApi.Guard) where
  /-- The objects of each thread, and what the shared pointer in each of them contains. -/
  objects : AList fun _ : τ × ι => sharedApi.Pointer
  /-- The guards that are shared. -/
  guards : sharedApi.Memory
  mutexes : mutexApi.Mutexes

namespace Locks

variable {τ ι μ : Type} {mutexApi : MutexApi τ μ} {sharedApi : SharedApi mutexApi.Guard}

/-- There are no locks yet. -/
def initial : Locks τ ι mutexApi sharedApi := ⟨∅, sharedApi.empty, mutexApi.unlocked⟩

/-- A pointer of a thread is gone.  A guard that is deleted with it unlocks its mutex. -/
def drop (locks : Locks τ ι mutexApi sharedApi) (thread : τ)
    (released : Option mutexApi.Guard × sharedApi.Memory) : Locks τ ι mutexApi sharedApi where
  objects := locks.objects
  guards := released.2
  mutexes :=
    match released.1 with
    | none => locks.mutexes
    | some guard => mutexApi.unlock locks.mutexes thread guard

section Step

variable [DecidableEq τ] [DecidableEq ι]

/-- A step of a thread; `none` when it has to wait, or when its objects are not there. -/
def step (locks : Locks τ ι mutexApi sharedApi) (thread : τ) :
    LockEvent ι μ → Option (Locks τ ι mutexApi sharedApi)
  | .lock object mutex =>
      if locks.objects.lookup (thread, object) = none then
        (mutexApi.lock locks.mutexes thread mutex).map fun (guard, mutexes) =>
          let (pointer, guards) := sharedApi.new locks.guards guard
          ⟨locks.objects.insert (thread, object) pointer, guards, mutexes⟩
      else
        none
  | .copy source object =>
      if locks.objects.lookup (thread, object) = none then
        (locks.objects.lookup (thread, source)).map fun pointer =>
          { locks with
            objects := locks.objects.insert (thread, object) pointer
            guards := sharedApi.copy locks.guards pointer }
      else
        none
  | .assign source object => do
      let pointer ← locks.objects.lookup (thread, source)
      let old ← locks.objects.lookup (thread, object)
      return drop { locks with objects := locks.objects.insert (thread, object) pointer } thread
        (sharedApi.assign locks.guards pointer old)
  | .destroy object =>
      (locks.objects.lookup (thread, object)).map fun pointer =>
        drop { locks with objects := locks.objects.erase (thread, object) } thread
          (sharedApi.release locks.guards pointer)

/-- The locks of all threads, as a machine. -/
def machine : Machine (Locks τ ι mutexApi sharedApi) (τ × LockEvent ι μ) :=
  ⟨fun locks event => locks.step event.1 event.2⟩

end Step

/-- The mutex of the guard that a pointer points to. -/
def mutexOf (guards : sharedApi.Memory) (pointer : sharedApi.Pointer) : Option μ :=
  (sharedApi.get guards pointer).map mutexApi.mutex

/-- The mutex that an object keeps locked. -/
def held [DecidableEq τ] [DecidableEq ι] (locks : Locks τ ι mutexApi sharedApi) (object : τ × ι) :
    Option μ := (locks.objects.lookup object).bind (mutexOf locks.guards)

end Locks

section Abstract

variable {τ ι μ : Type} [DecidableEq τ] [DecidableEq ι]

open Classical in
/-- Threads whose objects hold mutexes by themselves.  A thread may lock a mutex if those whose
objects hold it admit that. -/
noncomputable def holding (admits : Set τ → τ → Prop) :
    Machine (τ × ι → Option μ) (τ × LockEvent ι μ) where
  step held
    | (thread, .lock object mutex) =>
        if held (thread, object) = none ∧
            admits { other | ∃ name, held (other, name) = some mutex } thread then
          some (Function.update held (thread, object) (some mutex))
        else
          none
    | (thread, .copy source object) =>
        if held (thread, object) = none ∧ held (thread, source) ≠ none then
          some (Function.update held (thread, object) (held (thread, source)))
        else
          none
    | (thread, .assign source object) =>
        if held (thread, object) ≠ none ∧ held (thread, source) ≠ none then
          some (Function.update held (thread, object) (held (thread, source)))
        else
          none
    | (thread, .destroy object) =>
        if held (thread, object) ≠ none then
          some (Function.update held (thread, object) none)
        else
          none

end Abstract

namespace Locks

variable {τ ι μ : Type} {mutexApi : MutexApi τ μ} {sharedApi : SharedApi mutexApi.Guard}
  {guards next : sharedApi.Memory} {owners : Multiset (τ × sharedApi.Pointer)}
  {owner : τ × sharedApi.Pointer} {mutex : μ}

/-- The pointers of the objects, with the threads whose objects they are. -/
def ownersOf (objects : AList fun _ : τ × ι => sharedApi.Pointer) :
    Multiset (τ × sharedApi.Pointer) := objects.entries.map fun entry => (entry.1.1, entry.2)

section Objects

variable [DecidableEq τ] [DecidableEq ι] {object : τ × ι} {thread : τ}
  {pointer : sharedApi.Pointer} {objects : AList fun _ : τ × ι => sharedApi.Pointer}
  {mutexes after : mutexApi.Mutexes} {locks : Locks τ ι mutexApi sharedApi}

theorem ownersOf_insert (object : τ × ι) (pointer : sharedApi.Pointer) :
    ownersOf (objects.insert object pointer) =
      (object.1, pointer) ::ₘ ownersOf (objects.erase object) := rfl

theorem ownersOf_of_lookup (found : objects.lookup object = some pointer) :
    ownersOf objects = (object.1, pointer) ::ₘ ownersOf (objects.erase object) := by
  have same : objects.entries.Perm (objects.insert object pointer).entries := by
    refine List.lookup_ext objects.nodupKeys (AList.nodupKeys _) fun other content => ?_
    change content ∈ objects.lookup other ↔ content ∈ (objects.insert object pointer).lookup other
    rcases eq_or_ne other object with rfl | different
    · rw [found, AList.lookup_insert]
    · rw [AList.lookup_insert_ne different]
  exact Multiset.coe_eq_coe.mpr (same.map _)

theorem ownersOf_of_absent (absent : objects.lookup object = none) :
    ownersOf (objects.erase object) = ownersOf objects := by
  have same := List.kerase_of_notMem_keys (AList.lookup_eq_none.mp absent)
  exact congrArg (fun entries : List (Sigma fun _ : τ × ι => sharedApi.Pointer) =>
    (entries.map fun entry => (entry.1.1, entry.2) : Multiset (τ × sharedApi.Pointer))) same

theorem mem_ownersOf : (thread, pointer) ∈ ownersOf objects ↔
    ∃ name, objects.lookup (thread, name) = some pointer := by
  constructor
  · intro member
    obtain ⟨⟨⟨_, name⟩, _⟩, entry, same⟩ := List.mem_map.mp member
    obtain ⟨rfl, rfl⟩ := Prod.mk.inj same
    exact ⟨name, AList.mem_lookup_iff.mpr entry⟩
  · rintro ⟨name, found⟩
    rw [ownersOf_of_lookup found]
    exact Multiset.mem_cons_self _ _

theorem held_of_lookup (found : locks.objects.lookup object = some pointer) :
    locks.held object = mutexOf locks.guards pointer := by
  rw [held, found, Option.bind_some]

theorem held_insert (object : τ × ι) (pointer : sharedApi.Pointer) :
    held ⟨objects.insert object pointer, guards, mutexes⟩ =
      Function.update (held ⟨objects, guards, mutexes⟩) object (mutexOf guards pointer) := by
  funext other
  rcases eq_or_ne other object with rfl | different
  · simp [held]
  · simp [held, different]

theorem held_erase (object : τ × ι) :
    held ⟨objects.erase object, guards, mutexes⟩ =
      Function.update (held ⟨objects, guards, mutexes⟩) object none := by
  funext other
  rcases eq_or_ne other object with rfl | different
  · simp [held]
  · simp [held, different]

theorem held_congr (same : ∀ owner ∈ ownersOf objects,
    sharedApi.get next owner.2 = sharedApi.get guards owner.2) :
    held ⟨objects, next, after⟩ = held ⟨objects, guards, mutexes⟩ := by
  funext other
  refine Option.bind_congr fun pointer found => ?_
  rw [mutexOf, mutexOf, same (other.1, pointer) (mem_ownersOf.mpr ⟨other.2, found⟩)]

end Objects

section Threads

variable [DecidableEq μ]

open Classical in
/-- The threads that hold a mutex: those of the pointers, one for each guard of the mutex. -/
noncomputable def threads (guards : sharedApi.Memory) (owners : Multiset (τ × sharedApi.Pointer))
    (mutex : μ) : Multiset τ :=
  (owners.dedup.filter fun owner => mutexOf guards owner.2 = some mutex).map Prod.fst

theorem mem_threads {thread : τ} : thread ∈ threads guards owners mutex ↔
    ∃ pointer, (thread, pointer) ∈ owners ∧ mutexOf guards pointer = some mutex := by
  simp [threads]

theorem threads_cons_of_mem (member : owner ∈ owners) :
    threads guards (owner ::ₘ owners) = threads guards owners := by
  classical
  funext mutex
  rw [threads, Multiset.dedup_cons_of_mem member, threads]

theorem threads_cons_of_notMem (fresh : owner ∉ owners)
    (guards_mutex : mutexOf guards owner.2 = some mutex) :
    threads guards (owner ::ₘ owners) =
      Function.update (threads guards owners) mutex (owner.1 ::ₘ threads guards owners mutex) := by
  classical
  funext other
  rw [threads, Multiset.dedup_cons_of_notMem fresh]
  rcases eq_or_ne other mutex with rfl | different
  · simp [guards_mutex, threads]
  · simp [guards_mutex, different, different.symm, threads]

theorem threads_congr
    (same : ∀ owner ∈ owners, sharedApi.get next owner.2 = sharedApi.get guards owner.2) :
    threads next owners = threads guards owners := by
  classical
  funext mutex
  rw [threads, threads]
  refine congrArg _ (Multiset.filter_congr fun owner member => ?_)
  rw [mutexOf, mutexOf, same owner (Multiset.mem_dedup.mp member)]

end Threads

variable [DecidableEq μ]

/-- All pointers are counted, each guard is one thread's, and guards keep their mutexes locked. -/
structure Sound (counted : sharedApi.Memory → Multiset sharedApi.Pointer → Prop)
    (holders : mutexApi.Mutexes → μ → Multiset τ) (guards : sharedApi.Memory)
    (mutexes : mutexApi.Mutexes) (owners : Multiset (τ × sharedApi.Pointer)) : Prop where
  counted : counted guards (owners.map Prod.snd)
  single {first second : τ} {pointer : sharedApi.Pointer} :
    (first, pointer) ∈ owners → (second, pointer) ∈ owners → first = second
  holds : holders mutexes = threads guards owners

variable {admits : Set τ → τ → Prop} {holders : mutexApi.Mutexes → μ → Multiset τ}
  {counted : sharedApi.Memory → Multiset sharedApi.Pointer → Prop}
  {mutexes after : mutexApi.Mutexes} {thread : τ} {pointer : sharedApi.Pointer}

section Shares

variable (shares : sharedApi.Shares counted)

include shares

theorem Sound.copy (sound : Sound counted holders guards mutexes owners)
    (member : (thread, pointer) ∈ owners) :
    Sound counted holders (sharedApi.copy guards pointer) mutexes
      ((thread, pointer) ::ₘ owners) where
  counted := by
    rw [Multiset.map_cons]
    exact shares.copy sound.counted (Multiset.mem_map_of_mem Prod.snd member)
  single ofFirst ofSecond := by
    have old {owner : τ × sharedApi.Pointer} (held : owner ∈ (thread, pointer) ::ₘ owners) :
        owner ∈ owners := by
      rcases Multiset.mem_cons.mp held with rfl | held
      · exact member
      · exact held
    exact sound.single (old ofFirst) (old ofSecond)
  holds := by
    rw [threads_cons_of_mem member, sound.holds]
    refine (threads_congr fun owner held => ?_).symm
    exact shares.get_copy sound.counted (Multiset.mem_map_of_mem Prod.snd member)
      (Multiset.mem_map_of_mem Prod.snd held)

/-- What the other pointers point to is left. -/
theorem Sound.get_release
    (sound : Sound counted holders guards mutexes ((thread, pointer) ::ₘ owners))
    (member : owner ∈ owners) :
    sharedApi.get (sharedApi.release guards pointer).2 owner.2 = sharedApi.get guards owner.2 := by
  have all := sound.counted
  rw [Multiset.map_cons] at all
  exact shares.get_release all (Multiset.mem_map_of_mem Prod.snd member)

end Shares

section Mutexes

variable (excludes : mutexApi.Guards admits holders) (shares : sharedApi.Shares counted)

include excludes shares

theorem Sound.lock (sound : Sound counted holders guards mutexes owners) {guard : mutexApi.Guard}
    (locked : mutexApi.lock mutexes thread mutex = some (guard, after)) :
    Sound counted holders (sharedApi.new guards guard).2 after
      ((thread, (sharedApi.new guards guard).1) ::ₘ owners) where
  counted := by
    rw [Multiset.map_cons]
    exact shares.new guard sound.counted
  single ofFirst ofSecond := by
    have fresh := shares.new_notMem guard sound.counted
    have absent {other : τ} : (other, (sharedApi.new guards guard).1) ∉ owners := fun member =>
      fresh (Multiset.mem_map_of_mem Prod.snd member)
    rcases Multiset.mem_cons.mp ofFirst with first | first <;>
      rcases Multiset.mem_cons.mp ofSecond with second | second
    · exact (Prod.mk.inj first).1.trans (Prod.mk.inj second).1.symm
    · obtain ⟨rfl, rfl⟩ := Prod.mk.inj first
      exact absurd second absent
    · obtain ⟨rfl, rfl⟩ := Prod.mk.inj second
      exact absurd first absent
    · exact sound.single first second
  holds := by
    have fresh : (thread, (sharedApi.new guards guard).1) ∉ owners := fun member =>
      shares.new_notMem guard sound.counted (Multiset.mem_map_of_mem Prod.snd member)
    have made : mutexOf (sharedApi.new guards guard).2 (sharedApi.new guards guard).1 =
        some mutex := by
      rw [mutexOf, shares.get_new guard sound.counted, Option.map_some, excludes.mutex locked]
    have same : threads (sharedApi.new guards guard).2 owners = threads guards owners :=
      threads_congr fun owner member =>
        shares.get_new_of_mem guard sound.counted (Multiset.mem_map_of_mem Prod.snd member)
    rw [threads_cons_of_notMem fresh made, same, excludes.locks locked, sound.holds]

/-- The pointers that are left keep the mutexes of their guards locked. -/
theorem Sound.release {locks : Locks τ ι mutexApi sharedApi}
    (sound : Sound counted holders guards locks.mutexes ((thread, pointer) ::ₘ owners)) :
    Sound counted holders (locks.drop thread (sharedApi.release guards pointer)).guards
      (locks.drop thread (sharedApi.release guards pointer)).mutexes owners := by
  have all := sound.counted
  rw [Multiset.map_cons] at all
  have single {first second : τ} {other : sharedApi.Pointer} (ofFirst : (first, other) ∈ owners)
      (ofSecond : (second, other) ∈ owners) : first = second :=
    sound.single (Multiset.mem_cons_of_mem ofFirst) (Multiset.mem_cons_of_mem ofSecond)
  have same : threads (sharedApi.release guards pointer).2 owners = threads guards owners :=
    threads_congr fun owner member => sound.get_release shares member
  have holds := sound.holds
  refine ⟨shares.release all, single, ?_⟩
  by_cases shared : (thread, pointer) ∈ owners
  · rw [threads_cons_of_mem shared] at holds
    simp only [drop, shares.keeps all (Multiset.mem_map_of_mem Prod.snd shared), same, holds]
  · -- No other thread has a pointer to the guard either, so it is deleted.
    have last : pointer ∉ owners.map Prod.snd := by
      intro member
      obtain ⟨⟨other, _⟩, held, rfl⟩ := Multiset.mem_map.mp member
      obtain rfl := sound.single (Multiset.mem_cons_of_mem held) (Multiset.mem_cons_self _ _)
      exact shared held
    obtain ⟨guard, points⟩ :=
      Option.ne_none_iff_exists'.mp (shares.filled all (Multiset.mem_cons_self _ _))
    rw [threads_cons_of_notMem shared (by rw [mutexOf, points, Option.map_some])] at holds
    have unlocked := excludes.unlocks ((congrFun holds _).trans (Function.update_self ..))
    simp only [drop, shares.deletes all last, points, same, unlocked, holds,
      Function.update_idem, Function.update_eq_self]

end Mutexes

section Consistent

variable [DecidableEq τ] [DecidableEq ι] {locks : Locks τ ι mutexApi sharedApi}

/-- The pointers of the objects are all there are. -/
abbrev Consistent (counted : sharedApi.Memory → Multiset sharedApi.Pointer → Prop)
    (holders : mutexApi.Mutexes → μ → Multiset τ) (locks : Locks τ ι mutexApi sharedApi) : Prop :=
  Sound counted holders locks.guards locks.mutexes (ownersOf locks.objects)

theorem Sound.mem_holders (sound : locks.Consistent counted holders) :
    thread ∈ holders locks.mutexes mutex ↔ ∃ name, locks.held (thread, name) = some mutex := by
  rw [sound.holds, mem_threads]
  constructor
  · rintro ⟨pointer, owned, guards⟩
    obtain ⟨name, found⟩ := mem_ownersOf.mp owned
    exact ⟨name, (held_of_lookup found).trans guards⟩
  · rintro ⟨name, holds⟩
    obtain ⟨pointer, found, guards⟩ := Option.bind_eq_some_iff.mp holds
    exact ⟨pointer, mem_ownersOf.mpr ⟨name, found⟩, guards⟩

theorem Sound.held_eq_none_iff (shares : sharedApi.Shares counted)
    (sound : locks.Consistent counted holders) (object : τ × ι) :
    locks.held object = none ↔ locks.objects.lookup object = none := by
  rw [held]
  cases found : locks.objects.lookup object with
  | none => simp
  | some pointer =>
      refine iff_of_false ?_ (Option.some_ne_none pointer)
      have owned := mem_ownersOf.mpr ⟨object.2, found⟩
      have points := shares.filled sound.counted (Multiset.mem_map_of_mem Prod.snd owned)
      simpa [mutexOf] using points

/-- An object that is to be assigned shares the other guard before it drops its own. -/
theorem Sound.assigned (shares : sharedApi.Shares counted) {source name : ι}
    {old : sharedApi.Pointer} (sound : locks.Consistent counted holders)
    (found : locks.objects.lookup (thread, source) = some pointer)
    (present : locks.objects.lookup (thread, name) = some old) :
    Sound counted holders (sharedApi.copy locks.guards pointer) locks.mutexes
      ((thread, old) ::ₘ ownersOf (locks.objects.insert (thread, name) pointer)) := by
  have copied := sound.copy shares (mem_ownersOf.mpr ⟨source, found⟩)
  rwa [ownersOf_of_lookup present, Multiset.cons_swap, ← ownersOf_insert (thread, name)] at copied

theorem Sound.assign_eq (shares : sharedApi.Shares counted) {source name : ι}
    {old : sharedApi.Pointer} (sound : locks.Consistent counted holders)
    (found : locks.objects.lookup (thread, source) = some pointer)
    (present : locks.objects.lookup (thread, name) = some old) :
    sharedApi.assign locks.guards pointer old =
      sharedApi.release (sharedApi.copy locks.guards pointer) old :=
  shares.assign sound.counted
    (Multiset.mem_map_of_mem Prod.snd (mem_ownersOf.mpr ⟨source, found⟩))
    (Multiset.mem_map_of_mem Prod.snd (mem_ownersOf.mpr ⟨name, present⟩))

variable (excludes : mutexApi.Guards admits holders) (shares : sharedApi.Shares counted)

include excludes shares

theorem Sound.step (sound : locks.Consistent counted holders) {event : LockEvent ι μ}
    {left : Locks τ ι mutexApi sharedApi} (step : locks.step thread event = some left) :
    left.Consistent counted holders := by
  cases event with
  | lock name mutex =>
      obtain ⟨absent, step⟩ := Option.ite_none_right_eq_some.mp step
      obtain ⟨⟨guard, after⟩, locked, rfl⟩ := Option.map_eq_some_iff.mp step
      rw [Consistent, ownersOf_insert, ownersOf_of_absent absent]
      exact sound.lock excludes shares locked
  | copy source name =>
      obtain ⟨absent, step⟩ := Option.ite_none_right_eq_some.mp step
      obtain ⟨pointer, found, rfl⟩ := Option.map_eq_some_iff.mp step
      rw [Consistent, ownersOf_insert, ownersOf_of_absent absent]
      exact sound.copy shares (mem_ownersOf.mpr ⟨source, found⟩)
  | assign source name =>
      obtain ⟨pointer, found, step⟩ := Option.bind_eq_some_iff.mp step
      obtain ⟨old, present, step⟩ := Option.bind_eq_some_iff.mp step
      obtain rfl := Option.some.inj step
      rw [sound.assign_eq shares found present]
      exact (sound.assigned shares found present).release excludes shares
  | destroy name =>
      obtain ⟨pointer, present, rfl⟩ := Option.map_eq_some_iff.mp step
      rw [Consistent, ownersOf_of_lookup present] at sound
      exact sound.release excludes shares

omit excludes in
theorem Sound.held_copy (sound : locks.Consistent counted holders) {source : ι}
    (found : locks.objects.lookup (thread, source) = some pointer) (object : τ × ι) :
    held ⟨locks.objects.insert object pointer, sharedApi.copy locks.guards pointer,
        locks.mutexes⟩ =
      Function.update locks.held object (locks.held (thread, source)) := by
  have owned := mem_ownersOf.mpr ⟨source, found⟩
  have same : ∀ owner ∈ ownersOf locks.objects,
      sharedApi.get (sharedApi.copy locks.guards pointer) owner.2 =
        sharedApi.get locks.guards owner.2 := fun owner member =>
    shares.get_copy sound.counted (Multiset.mem_map_of_mem Prod.snd owned)
      (Multiset.mem_map_of_mem Prod.snd member)
  rw [held_insert, held_of_lookup found, mutexOf, same _ owned, held_congr same]
  rfl

omit excludes in
theorem Sound.held_release {objects : AList fun _ : τ × ι => sharedApi.Pointer}
    (sound : Sound counted holders guards mutexes ((thread, pointer) ::ₘ ownersOf objects)) :
    (drop ⟨objects, locks.guards, mutexes⟩ thread (sharedApi.release guards pointer)).held =
      held ⟨objects, guards, mutexes⟩ :=
  held_congr fun _ member => sound.get_release shares member

/-- A step does to what is held what it would do if every object held its mutex by itself. -/
theorem held_step (sound : locks.Consistent counted holders) (event : LockEvent ι μ) :
    (locks.step thread event).map held = (holding admits).step locks.held (thread, event) := by
  have absent_iff := sound.held_eq_none_iff shares
  cases event with
  | lock name mutex =>
      by_cases absent : locks.objects.lookup (thread, name) = none
      · have waits := excludes.waits locks.mutexes thread mutex
        simp only [sound.mem_holders] at waits
        rw [step, if_pos absent]
        cases locked : mutexApi.lock locks.mutexes thread mutex with
        | none =>
            exact (if_neg fun allowed => waits.mp locked allowed.2).symm
        | some made =>
            obtain ⟨guard, after⟩ := made
            have admitted := not_not.mp (mt waits.mpr (locked ▸ Option.some_ne_none _))
            have allowed := And.intro ((absent_iff _).mpr absent) admitted
            refine Eq.trans ?_ (if_pos allowed).symm
            have same : ∀ owner ∈ ownersOf locks.objects,
                sharedApi.get (sharedApi.new locks.guards guard).2 owner.2 =
                  sharedApi.get locks.guards owner.2 := fun owner member =>
              shares.get_new_of_mem guard sound.counted (Multiset.mem_map_of_mem Prod.snd member)
            rw [Option.map_some, Option.map_some, held_insert, held_congr same, mutexOf,
              shares.get_new guard sound.counted, Option.map_some, excludes.mutex locked]
      · simp [step, holding, absent_iff, absent]
  | copy source name =>
      cases found : locks.objects.lookup (thread, source) with
      | none => simp [step, holding, found, (absent_iff (thread, source)).mpr found]
      | some pointer =>
          by_cases absent : locks.objects.lookup (thread, name) = none
          · have there : locks.held (thread, source) ≠ none := by simp [absent_iff, found]
            rw [step, if_pos absent, found, Option.map_some, Option.map_some,
              sound.held_copy shares found]
            exact (if_pos (And.intro ((absent_iff _).mpr absent) there)).symm
          · simp [step, holding, absent_iff, absent]
  | assign source name =>
      cases found : locks.objects.lookup (thread, source) with
      | none => simp [step, holding, found, (absent_iff (thread, source)).mpr found]
      | some pointer =>
          cases present : locks.objects.lookup (thread, name) with
          | none => simp [step, holding, found, present, (absent_iff (thread, name)).mpr present]
          | some old =>
              have there : locks.held (thread, source) ≠ none := by simp [absent_iff, found]
              have held : locks.held (thread, name) ≠ none := by simp [absent_iff, present]
              have after : locks.step thread (.assign source name) =
                  some (drop ⟨locks.objects.insert (thread, name) pointer, locks.guards,
                    locks.mutexes⟩ thread
                      (sharedApi.release (sharedApi.copy locks.guards pointer) old)) := by
                rw [← sound.assign_eq shares found present]
                simp [step, found, present]
              rw [after, Option.map_some,
                (sound.assigned shares found present).held_release shares,
                sound.held_copy shares found]
              exact (if_pos (And.intro held there)).symm
  | destroy name =>
      cases present : locks.objects.lookup (thread, name) with
      | none => simp [step, holding, present, (absent_iff (thread, name)).mpr present]
      | some old =>
          have there : locks.held (thread, name) ≠ none := by simp [absent_iff, present]
          rw [Consistent, ownersOf_of_lookup present] at sound
          rw [step, present, Option.map_some, Option.map_some, sound.held_release shares,
            held_erase]
          exact (if_pos there).symm

omit [DecidableEq τ] [DecidableEq ι] in
theorem Sound.initial :
    (initial : Locks τ ι mutexApi sharedApi).Consistent counted holders where
  counted := shares.empty
  single member := absurd member (Multiset.notMem_zero _)
  holds := funext excludes.unlocked

theorem map_held_run (events : List (τ × LockEvent ι μ)) :
    (machine.run (initial : Locks τ ι mutexApi sharedApi) events).map held =
      (holding admits).run (fun _ => none) events :=
  @Machine.run_map _ _ _ machine (holding admits) held (Consistent counted holders)
    (fun sound step => sound.step excludes shares step)
    (fun sound => held_step excludes shares sound _) _ (Sound.initial excludes shares) events

theorem holders_of_run {events : List (τ × LockEvent ι μ)}
    (execution : machine.run initial events = some locks) :
    thread ∈ holders locks.mutexes mutex ↔ ∃ name, locks.held (thread, name) = some mutex := by
  have sound : locks.Consistent counted holders :=
    @Machine.invariant_of_run _ _ machine (Consistent counted holders)
      (fun sound step => sound.step excludes shares step) _ _ _ (Sound.initial excludes shares)
      execution
  exact sound.mem_holders

/-- Whatever threads do to their locks: it happens, and makes them wait, as if every object held its
mutex by itself.  A thread holds a mutex as long as an object exists that it has created for the
mutex, or a copy of one. -/
theorem run_held (events : List (τ × LockEvent ι μ)) :
    (machine.run (initial : Locks τ ι mutexApi sharedApi) events).map held =
        (holding admits).run (fun _ => none) events ∧
      ∀ locks : Locks τ ι mutexApi sharedApi, machine.run initial events = some locks →
        ∀ (thread : τ) (mutex : μ), thread ∈ holders locks.mutexes mutex ↔
          ∃ name, locks.held (thread, name) = some mutex :=
  ⟨map_held_run excludes shares events, fun _ execution _ _ =>
    holders_of_run excludes shares execution⟩

end Consistent

end Locks

section Counting

variable {τ ι μ : Type} [DecidableEq τ] [DecidableEq μ] (recursive : Bool)

/-- Mutexes that count how often each thread holds them.  One that is not recursive makes the thread
that holds it wait as well. -/
def countingMutexes : MutexApi τ μ where
  Mutexes := μ → Multiset τ
  Guard := μ
  unlocked _ := 0
  lock mutexes thread mutex :=
    if mutexes mutex = 0 ∨ recursive = true ∧ ∀ other ∈ mutexes mutex, other = thread then
      some (mutex, Function.update mutexes mutex (thread ::ₘ mutexes mutex))
    else
      none
  unlock mutexes thread mutex := Function.update mutexes mutex ((mutexes mutex).erase thread)
  mutex guard := guard

/-- Whom a mutex does not keep waiting. -/
def Admits (others : Set τ) (thread : τ) : Prop :=
  others = ∅ ∨ recursive = true ∧ others ⊆ {thread}

theorem countingMutexes_guards : (countingMutexes recursive : MutexApi τ μ).Guards
    (Admits recursive) (fun mutexes => mutexes) where
  unlocked _ := rfl
  waits mutexes thread mutex := by
    simp [countingMutexes, Admits, Set.eq_empty_iff_forall_notMem,
      Multiset.eq_zero_iff_forall_notMem]
  mutex locked :=
    (Prod.mk.inj (Option.some.inj (Option.ite_none_right_eq_some.mp locked).2)).1.symm
  locks locked :=
    (Prod.mk.inj (Option.some.inj (Option.ite_none_right_eq_some.mp locked).2)).2.symm
  unlocks {mutexes thread guard others} held := by
    change Function.update mutexes guard ((mutexes guard).erase thread) = _
    rw [show mutexes guard = thread ::ₘ others from held, Multiset.erase_cons_head]
    rfl

end Counting

/-- A thread copies a lock and destroys the first one. -/
def copiedLock : List (Nat × LockEvent Nat Unit) :=
  [(0, .lock 0 ()), (0, .copy 0 1), (0, .destroy 0)]

/-- The thread holds the mutex then, and another thread waits for the copy. -/
theorem Locks.run_held_copiedLock :
    (∃ locks : Locks Nat Nat (countingMutexes false) (Shared.api Unit),
        machine.run initial copiedLock = some locks ∧ 0 ∈ locks.mutexes ()) ∧
      machine.run (initial : Locks Nat Nat (countingMutexes false) (Shared.api Unit))
        (copiedLock ++ [(1, .lock 0 ())]) = none := by
  have held := run_held (countingMutexes_guards false) (Shared.shares Unit) copiedLock
  exact ⟨⟨_, rfl, (held.2 _ rfl 0 ()).mpr ⟨1, rfl⟩⟩, rfl⟩

end CncRemote
