import CncRemote.Program
import Mathlib.Data.List.Forall2

/-!
# Programs that follow a script

A script is a list of lines that entries of a log may meet.  `Performs` says that entries meet some
of the lines, in order, and `Program.Follows` that whatever a program adds to its log does.
-/

/-- Each of the entries meets a line of the script, in order and no line twice. -/
def Performs {τ : Type} (script : List (τ → Prop)) (entries : List τ) : Prop :=
  List.SublistForall₂ (fun entry line => line entry) entries script

namespace Performs

variable {τ : Type} {script front back : List (τ → Prop)} {entries more : List τ}

theorem nil : Performs script [] := List.SublistForall₂.nil

theorem single {line : τ → Prop} {entry : τ} (meets : line entry) : Performs [line] [entry] :=
  List.SublistForall₂.cons meets .nil

theorem of_sublist (performs : Performs front entries) (shorter : front.Sublist script) :
    Performs script entries := by
  obtain ⟨lines, meets, sub⟩ := List.sublistForall₂_iff.mp performs
  exact List.sublistForall₂_iff.mpr ⟨lines, meets, sub.trans shorter⟩

theorem append (first : Performs front entries) (second : Performs back more) :
    Performs (front ++ back) (entries ++ more) := by
  obtain ⟨lines, meets, sub⟩ := List.sublistForall₂_iff.mp first
  obtain ⟨lines', meets', sub'⟩ := List.sublistForall₂_iff.mp second
  exact List.sublistForall₂_iff.mpr
    ⟨lines ++ lines', List.rel_append meets meets', sub.append sub'⟩

end Performs

namespace Program

variable {σ α β τ : Type} {log : σ → List τ}

/-- Whatever the program adds to the log follows the script. -/
def Follows (program : Program σ α) (log : σ → List τ) (script : List (τ → Prop)) : Prop :=
  ∀ ⦃state value next⦄, program state = some (value, next) →
    ∃ entries, log next = log state ++ entries ∧ Performs script entries

namespace Follows

variable {script front back : List (τ → Prop)}

/-- What leaves the log as it is follows every script. -/
theorem of_frames {program : Program σ α} (frames : program.Frames log) :
    program.Follows log script := by
  intro state value next runs
  exact ⟨[], (frames runs).trans (List.append_nil _).symm, .nil⟩

theorem pure (value : α) : (pure value : Program σ α).Follows log script :=
  of_frames (.pure value)

theorem of_sublist {program : Program σ α} (follows : program.Follows log front)
    (shorter : front.Sublist script) : program.Follows log script := by
  intro state value next runs
  obtain ⟨entries, grown, performs⟩ := follows runs
  exact ⟨entries, grown, performs.of_sublist shorter⟩

theorem bind {program : Program σ α} {rest : α → Program σ β} (first : program.Follows log front)
    (second : ∀ value, (rest value).Follows log back) :
    (program >>= rest).Follows log (front ++ back) := by
  intro state value next runs
  obtain ⟨⟨middle, between⟩, runs, runs'⟩ := Option.bind_eq_some_iff.mp runs
  obtain ⟨entries, grown, performs⟩ := first runs
  obtain ⟨more, grown', performs'⟩ := second middle runs'
  refine ⟨entries ++ more, ?_, performs.append performs'⟩
  rw [grown', grown, List.append_assoc]

theorem after {program : Program σ α} {rest : α → Program σ β} (first : program.Frames log)
    (second : ∀ value, (rest value).Follows log script) :
    (program >>= rest).Follows log script := by
  have nothing : program.Follows log [] := of_frames first
  exact nothing.bind second

theorem before {program : Program σ α} {rest : α → Program σ β}
    (first : program.Follows log script) (second : ∀ value, (rest value).Frames log) :
    (program >>= rest).Follows log script := by
  have nothing (value : α) : (rest value).Follows log [] := of_frames (second value)
  have whole := first.bind nothing
  rwa [List.append_nil] at whole

theorem map (change : α → β) {program : Program σ α} (follows : program.Follows log script) :
    (change <$> program).Follows log script := by
  rw [map_eq_pure_bind]
  exact follows.before fun _ => .pure _

theorem ite {condition : Prop} [Decidable condition] {yes no : Program σ α}
    (positive : condition → yes.Follows log script)
    (negative : ¬condition → no.Follows log script) :
    (if condition then yes else no).Follows log script := by
  split
  · exact positive ‹_›
  · exact negative ‹_›

theorem forM {body : β → Program σ PUnit} {lines : β → List (τ → Prop)}
    (once : ∀ item, (body item).Follows log (lines item)) (items : List β) :
    (items.forM body).Follows log (items.flatMap lines) := by
  induction items with
  | nil => exact pure _
  | cons item items ih => exact (once item).bind fun _ => ih

end Follows

end Program
