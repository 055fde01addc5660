import Mathlib.Data.List.Basic
import Mathlib.Logic.Function.Basic
import Mathlib.Tactic.Tauto

/-!
# Temporary files and streams

Files are numbered in the order in which they are created, and a stream has the number of its file.
The record of calls tells which streams are open; a call on a stream that is not open is undefined
in C, so it is recorded and has no effect.
-/

/-- A call on a stream. -/
inductive StreamCall where
  | opened (stream : Nat)
  | wrote (stream : Nat)
  | closed (stream : Nat)
  deriving DecidableEq, Repr

/-- The call is none that writes or closes what the earlier call has closed. -/
def StreamCall.Spares : StreamCall → StreamCall → Prop
  | .closed stream, .wrote later | .closed stream, .closed later => stream ≠ later
  | _, _ => True

instance : DecidableRel StreamCall.Spares := fun earlier later => by
  cases earlier <;> cases later <;> unfold StreamCall.Spares <;> infer_instance

/-- Files with paths in `π` and bytes in `β`. -/
structure Stdio (π β : Type*) where
  /-- The file that a path names. -/
  directory : π → Option Nat
  /-- The bytes of a file. -/
  content : Nat → List β
  /-- Number of the next file. -/
  next : Nat
  /-- The calls on streams, oldest first. -/
  calls : List StreamCall

namespace Stdio

variable {π β : Type*}

/-- What the file under a path holds. -/
def read (files : Stdio π β) (path : π) : Option (List β) :=
  (files.directory path).map files.content

/-- The stream has been opened and not been closed. -/
def IsOpen (files : Stdio π β) (stream : Nat) : Prop :=
  .opened stream ∈ files.calls ∧ .closed stream ∉ files.calls

instance (files : Stdio π β) (stream : Nat) : Decidable (files.IsOpen stream) :=
  inferInstanceAs (Decidable (_ ∧ _))

/-- A new, empty file under a path that names none, as `mkstemp` creates it. -/
def create [DecidableEq π] (files : Stdio π β) (path : π) : Stdio π β :=
  { files with
    directory := Function.update files.directory path (some files.next)
    content := Function.update files.content files.next []
    next := files.next + 1 }

/-- `fdopen` of the descriptor of a file. -/
def fdopen (files : Stdio π β) (stream : Nat) : Stdio π β :=
  { files with calls := files.calls ++ [.opened stream] }

/-- `fwrite`, when it reports that a number of bytes were written. -/
def fwrite (files : Stdio π β) (stream : Nat) (data : List β) (written : Nat) : Stdio π β :=
  { files with
    content :=
      if files.IsOpen stream then
        Function.update files.content stream (files.content stream ++ data.take written)
      else
        files.content
    calls := files.calls ++ [.wrote stream] }

/-- `fclose` -/
def fclose (files : Stdio π β) (stream : Nat) : Stdio π β :=
  { files with calls := files.calls ++ [.closed stream] }

/-- `remove` -/
def remove [DecidableEq π] (files : Stdio π β) (path : π) : Stdio π β :=
  { files with directory := Function.update files.directory path none }

/-- No stream is written or closed after it was closed. -/
def Tidy (files : Stdio π β) : Prop := files.calls.Pairwise StreamCall.Spares

instance (files : Stdio π β) : Decidable files.Tidy :=
  inferInstanceAs (Decidable (List.Pairwise _ _))

/-- Every stream has a file. -/
def Numbered (files : Stdio π β) : Prop :=
  ∀ stream, .opened stream ∈ files.calls ∨ .closed stream ∈ files.calls → stream < files.next

/-- A file that was just created has no stream. -/
theorem Numbered.isOpen_create [DecidableEq π] {files : Stdio π β} (numbered : files.Numbered)
    (path : π) :
    ((files.create path).fdopen files.next).IsOpen files.next := by
  refine ⟨by simp [fdopen], fun closed => ?_⟩
  have old : .closed files.next ∈ files.calls := by simpa [fdopen, create] using closed
  exact absurd (numbered files.next (.inr old)) (Nat.lt_irrefl _)

theorem Numbered.create [DecidableEq π] {files : Stdio π β} (numbered : files.Numbered)
    (path : π) : (files.create path).Numbered :=
  fun stream used => Nat.lt_succ_of_lt (numbered stream used)

/-- A new stream has the number of the new file. -/
theorem Numbered.fdopen_create [DecidableEq π] {files : Stdio π β} (numbered : files.Numbered)
    (path : π) : ((files.create path).fdopen files.next).Numbered := by
  intro stream used
  have cases : (.opened stream ∈ files.calls ∨ .closed stream ∈ files.calls) ∨
      stream = files.next := by
    simp only [fdopen, Stdio.create, List.mem_append, List.mem_singleton,
      StreamCall.opened.injEq, reduceCtorEq, or_false] at used
    tauto
  rcases cases with old | rfl
  · exact Nat.lt_succ_of_lt (numbered stream old)
  · exact Nat.lt_succ_self _

theorem Numbered.fwrite {files : Stdio π β} (numbered : files.Numbered) (stream : Nat)
    (data : List β) (written : Nat) : (files.fwrite stream data written).Numbered :=
  fun other used => numbered other (by simpa [Stdio.fwrite] using used)

theorem Numbered.fclose {files : Stdio π β} {stream : Nat} (numbered : files.Numbered)
    (below : stream < files.next) : (files.fclose stream).Numbered := by
  intro other used
  have cases : (.opened other ∈ files.calls ∨ .closed other ∈ files.calls) ∨ other = stream := by
    simp only [Stdio.fclose, List.mem_append, List.mem_singleton, StreamCall.closed.injEq,
      reduceCtorEq, or_false] at used
    tauto
  rcases cases with old | rfl
  · exact numbered other old
  · exact below

theorem IsOpen.fwrite {files : Stdio π β} {stream : Nat} (isOpen : files.IsOpen stream)
    (other : Nat) (data : List β) (written : Nat) :
    (files.fwrite other data written).IsOpen stream := by
  simpa [IsOpen, Stdio.fwrite] using isOpen

/-- Writing to an open stream appends to its file. -/
theorem IsOpen.content_fwrite {files : Stdio π β} {stream : Nat} (isOpen : files.IsOpen stream)
    (data : List β) (written : Nat) :
    (files.fwrite stream data written).content stream =
      files.content stream ++ data.take written := by
  simp [Stdio.fwrite, isOpen]

theorem Tidy.fdopen {files : Stdio π β} (tidy : files.Tidy) (stream : Nat) :
    (files.fdopen stream).Tidy := by
  refine List.pairwise_append.mpr ⟨tidy, List.pairwise_singleton _ _, ?_⟩
  rintro earlier - later new
  obtain rfl := List.mem_singleton.mp new
  cases earlier <;> trivial

/-- A call on a stream that is open spares what is closed. -/
theorem Tidy.append_of_isOpen {files : Stdio π β} {stream : Nat} (tidy : files.Tidy)
    (isOpen : files.IsOpen stream) (call : StreamCall)
    (own : call = .wrote stream ∨ call = .closed stream) :
    (files.calls ++ [call]).Pairwise StreamCall.Spares := by
  refine List.pairwise_append.mpr ⟨tidy, List.pairwise_singleton _ _, ?_⟩
  rintro earlier old later new
  obtain rfl := List.mem_singleton.mp new
  cases earlier with
  | opened | wrote => trivial
  | closed ended =>
      have differs : ended ≠ stream := by
        rintro rfl
        exact isOpen.2 old
      rcases own with rfl | rfl <;> exact differs

theorem Tidy.fwrite {files : Stdio π β} {stream : Nat} (tidy : files.Tidy)
    (isOpen : files.IsOpen stream) (data : List β) (written : Nat) :
    (files.fwrite stream data written).Tidy := tidy.append_of_isOpen isOpen _ (.inl rfl)

theorem Tidy.fclose {files : Stdio π β} {stream : Nat} (tidy : files.Tidy)
    (isOpen : files.IsOpen stream) : (files.fclose stream).Tidy :=
  tidy.append_of_isOpen isOpen _ (.inr rfl)

end Stdio
