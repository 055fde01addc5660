import Mathlib.Algebra.Order.Group.Int
import Mathlib.Data.List.Basic

/-!
# Watchdogs

A watchdog watches a beat that changes as long as someone is alive.  It gives up when it finds the
beat that it saw last, and looks no more than once a second.  `watch_eq_none` says how soon it gives
up on a beat that has stopped, and `exists_of_watch_eq_none` that it never does so too soon.
-/

/-- What a watchdog saw last, and when it may look again. -/
structure Watchdog (β : Type*) where
  beat : β
  /-- The last second in which it does not look. -/
  due : Int

/-- A look at the clock, at the beat and at the clock again. -/
structure Look (β : Type*) where
  time : Int
  beat : β
  later : Int
  deriving DecidableEq

/-- The clock does not run backwards. -/
def Look.Forward {β : Type*} : Int → List (Look β) → Prop
  | _, [] => True
  | now, look :: looks => now ≤ look.time ∧ look.time ≤ look.later ∧ Forward look.later looks

namespace Look

variable {β : Type*} {now : Int} {look : Look β} {front back : List (Look β)}

theorem Forward.time_ge (forward : Forward now (front ++ look :: back)) : now ≤ look.time := by
  induction front generalizing now with
  | nil => exact forward.1
  | cons first front ih =>
      obtain ⟨before, during, after⟩ := forward
      have rest := ih after
      omega

theorem Forward.later_ge (forward : Forward now (front ++ look :: back)) :
    look.time ≤ look.later := by
  induction front generalizing now with
  | nil => exact forward.2.1
  | cons first front ih => exact ih forward.2.2

end Look

namespace Watchdog

variable {β : Type*} [DecidableEq β]

/-- The watchdog after a look, unless it gives up. -/
def look (dog : Watchdog β) (look : Look β) : Option (Watchdog β) :=
  if look.time ≤ dog.due then some dog
  else if dog.beat = look.beat then none
  else some ⟨look.beat, look.later + 1⟩

/-- The watchdog after some looks, unless it gives up. -/
def watch (dog : Watchdog β) (looks : List (Look β)) : Option (Watchdog β) :=
  looks.foldlM look dog

variable {dog next : Watchdog β} {seen : Look β} {looks : List (Look β)}

theorem watch_cons (dog : Watchdog β) (seen : Look β) (looks : List (Look β)) :
    dog.watch (seen :: looks) = (dog.look seen).bind fun next => next.watch looks :=
  List.foldlM_cons

theorem watch_append (dog : Watchdog β) (front back : List (Look β)) :
    dog.watch (front ++ back) = (dog.watch front).bind fun next => next.watch back :=
  List.foldlM_append

theorem look_of_early (early : seen.time ≤ dog.due) : dog.look seen = some dog := if_pos early

theorem look_of_same (late : dog.due < seen.time) (same : dog.beat = seen.beat) :
    dog.look seen = none := by
  rw [look, if_neg (not_le.mpr late), if_pos same]

theorem look_of_new (late : dog.due < seen.time) (new : dog.beat ≠ seen.beat) :
    dog.look seen = some ⟨seen.beat, seen.later + 1⟩ := by
  rw [look, if_neg (not_le.mpr late), if_neg new]

/-- The watchdog has seen the beat, and looks again after the bound at the latest. -/
structure Poised (beat : β) (bound : Int) (dog : Watchdog β) : Prop where
  beat : dog.beat = beat
  due : dog.due ≤ bound

section Frozen

variable {beat : β} {bound : Int}

theorem Poised.look (poised : Poised beat bound dog) (frozen : seen.beat = beat)
    (looked : dog.look seen = some next) : Poised beat bound next := by
  by_cases early : seen.time ≤ dog.due
  · rw [look_of_early early] at looked
    obtain rfl := Option.some.inj looked
    exact poised
  · rw [look_of_same (not_le.mp early) (poised.beat.trans frozen.symm)] at looked
    cases looked

theorem Poised.watch (poised : Poised beat bound dog) (frozen : ∀ seen ∈ looks, seen.beat = beat)
    (watched : dog.watch looks = some next) : Poised beat bound next := by
  induction looks generalizing dog with
  | nil =>
      obtain rfl := Option.some.inj watched
      exact poised
  | cons seen looks ih =>
      obtain ⟨first, rest⟩ := List.forall_mem_cons.mp frozen
      rw [watch_cons] at watched
      obtain ⟨middle, looked, watched⟩ := Option.bind_eq_some_iff.mp watched
      exact ih (poised.look first looked) rest watched

theorem poised_of_late {now : Int} {front back : List (Look β)}
    (forward : Look.Forward now (front ++ seen :: back))
    (frozen : ∀ look ∈ front ++ [seen], look.beat = beat) (late : dog.due < seen.time)
    (watched : dog.watch (front ++ [seen]) = some next) :
    Poised beat (seen.later + 1) next := by
  induction front generalizing dog now with
  | nil =>
      have same : seen.beat = beat := frozen seen (List.mem_singleton_self seen)
      rw [List.nil_append, watch_cons] at watched
      by_cases known : dog.beat = seen.beat
      · rw [look_of_same late known] at watched
        cases watched
      · rw [look_of_new late known] at watched
        obtain rfl := Option.some.inj watched
        exact ⟨same, le_refl _⟩
  | cons first front ih =>
      obtain ⟨same, rest⟩ := List.forall_mem_cons.mp frozen
      rw [List.cons_append, watch_cons] at watched
      obtain ⟨middle, looked, watched⟩ := Option.bind_eq_some_iff.mp watched
      by_cases early : first.time ≤ dog.due
      · rw [look_of_early early] at looked
        obtain rfl := Option.some.inj looked
        exact ih forward.2.2 rest late watched
      · by_cases known : dog.beat = first.beat
        · rw [look_of_same (not_le.mp early) known] at looked
          cases looked
        · rw [look_of_new (not_le.mp early) known] at looked
          obtain rfl := Option.some.inj looked
          have order : first.later ≤ seen.time := forward.2.2.time_ge
          have more : seen.time ≤ seen.later := forward.2.2.later_ge
          have poised : Poised beat (seen.later + 1) ⟨first.beat, first.later + 1⟩ := by
            refine ⟨same, ?_⟩
            change first.later + 1 ≤ seen.later + 1
            omega
          exact poised.watch rest watched

/-- A beat that has stopped is given up by the second of two looks of which the first is late and
the second more than a second later. -/
theorem watch_eq_none {now : Int} {front middle back : List (Look β)} {first second : Look β}
    (forward : Look.Forward now (front ++ first :: (middle ++ second :: back)))
    (frozen : ∀ look ∈ front ++ first :: (middle ++ second :: back), look.beat = beat)
    (late : dog.due < first.time) (later : first.later + 1 < second.time) :
    dog.watch (front ++ first :: (middle ++ second :: back)) = none := by
  have split : front ++ first :: (middle ++ second :: back) =
      (front ++ [first]) ++ (middle ++ second :: back) := by
    rw [List.append_assoc]
    rfl
  have here : ∀ look ∈ front ++ [first], look.beat = beat := by
    intro look member
    apply frozen
    rw [split]
    exact List.mem_append_left _ member
  have there : ∀ look ∈ middle ++ second :: back, look.beat = beat := by
    intro look member
    apply frozen
    rw [split]
    exact List.mem_append_right _ member
  rw [split, watch_append]
  refine Option.bind_eq_none_iff.mpr fun next watched => ?_
  have poised := poised_of_late forward here late watched
  rw [watch_append]
  refine Option.bind_eq_none_iff.mpr fun after watched => ?_
  have still := poised.watch (fun look member => there look (List.mem_append_left _ member)) watched
  have same : second.beat = beat :=
    there second (List.mem_append_right _ List.mem_cons_self)
  rw [watch_cons, look_of_same (lt_of_le_of_lt still.due later) (still.beat.trans same.symm)]
  rfl

end Frozen

/-- What is given up has shown one beat twice, more than a second apart. -/
theorem exists_of_watch_eq_none (given : dog.watch looks = none) :
    ∃ front seen back, looks = front ++ seen :: back ∧
      (dog.beat = seen.beat ∧ dog.due < seen.time ∨
        ∃ earlier ∈ front, earlier.beat = seen.beat ∧ earlier.later + 1 < seen.time) := by
  induction looks generalizing dog with
  | nil => cases given
  | cons first looks ih =>
      rw [watch_cons] at given
      by_cases early : first.time ≤ dog.due
      · rw [look_of_early early] at given
        obtain ⟨front, seen, back, rfl, twice⟩ := ih given
        refine ⟨first :: front, seen, back, rfl, twice.imp_right ?_⟩
        rintro ⟨earlier, member, twice⟩
        exact ⟨earlier, List.mem_cons_of_mem _ member, twice⟩
      · by_cases known : dog.beat = first.beat
        · exact ⟨[], first, looks, rfl, .inl ⟨known, not_le.mp early⟩⟩
        · rw [look_of_new (not_le.mp early) known] at given
          obtain ⟨front, seen, back, rfl, ⟨beat, due⟩ | ⟨earlier, member, twice⟩⟩ := ih given
          · exact ⟨first :: front, seen, back, rfl, .inr ⟨first, List.mem_cons_self, beat, due⟩⟩
          · exact ⟨first :: front, seen, back, rfl,
              .inr ⟨earlier, List.mem_cons_of_mem _ member, twice⟩⟩

end Watchdog
