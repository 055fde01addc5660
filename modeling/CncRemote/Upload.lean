import CncRemote.Comms
import CncRemote.Machine
import CncRemote.Stdio

/-!
# Uploads on the server

`SendInit` opens a temporary file, `SendData` appends numbered blocks to it, and the first block
that is shorter than the others ends the upload.  The documentation of `SendData` describes an
automaton; `Automaton` is that description, and `always_conforms_iff` says on which runs the three
members of the server implement it.
-/

namespace CncRemote

/-- The file system that the server works on. -/
abbrev Files := Stdio Bytes UInt8

/-- The members of `Server` that an upload uses. -/
structure Server where
  /-- `m_file`, where `none` is `NULL`. -/
  file : Option Nat
  /-- `m_curBlock` -/
  curBlock : Int32
  /-- `m_curFile` -/
  curFile : Bytes

/-- What the system answers when `SendInit` asks for a temporary file. -/
inductive Temp where
  /-- `mkstemp` fails. -/
  | refused
  /-- `mkstemp` finds a suffix for the path, and `fdopen` returns a stream or `NULL`. -/
  | created (suffix : Bytes) (stream : Bool)

/-- `PATH_MAX` -/
def pathMax : Nat := 4096

/-- What `sprintf` prints into the buffer of `SendInit`, without the zero that ends it. -/
def tempTemplate (nameHint : Bytes) : Bytes :=
  ascii "/tmp/CncRemote" ++ cString nameHint ++ ascii "XXXXXX"

theorem tempTemplate_length (nameHint : Bytes) :
    (tempTemplate nameHint).length + 1 = (cString nameHint).length + 21 := by
  have front : (ascii "/tmp/CncRemote").length = 14 := by decide
  have back : (ascii "XXXXXX").length = 6 := by decide
  rw [tempTemplate, List.length_append, List.length_append, front, back]
  omega

namespace Server

/-- `Server::Server`, which leaves the number of the next block as it finds it. -/
def new (curBlock : Int32) : Server := ⟨none, curBlock, []⟩

/-- The path of a temporary file.  The hint is printed as a C string, up to its first zero. -/
def tempPath (nameHint suffix : Bytes) : Bytes :=
  ascii "/tmp/CncRemote" ++ nameHint.takeWhile (· ≠ 0) ++ suffix

theorem tempPath_ne_nil (nameHint suffix : Bytes) : tempPath nameHint suffix ≠ [] :=
  nofun

/-- `Server::DeleteTemp`, which is also all that the destructor does. -/
def deleteTemp (server : Server) (files : Files) : Files :=
  let closed :=
    match server.file with
    | some stream => files.fclose stream
    | none => files
  if server.curFile = [] then closed else closed.remove server.curFile

/-- `Server::SendInit` after its call of `CloseFile`, a function of the driver, where `path` has
room for what `sprintf` prints.  `mkstemp` never chooses a path that is taken. -/
def sendInit (server : Server) (files : Files) (nameHint : Bytes) :
    Temp → Option (Server × Files × Bytes)
  | .refused => some ({ server with curBlock := 0 }, server.deleteTemp files, [])
  | .created suffix stream =>
      let path := tempPath nameHint suffix
      let deleted := server.deleteTemp files
      if deleted.directory path = none then
        if stream then
          some (⟨some deleted.next, 0, path⟩, (deleted.create path).fdopen deleted.next, path)
        else
          some ({ server with file := none, curBlock := 0 }, deleted.create path, [])
      else
        none

/-- `Server::SendData`, where `fwrite` reports the given number of bytes. -/
def sendData (server : Server) (files : Files) (data : Bytes) (block : Int32) (written : Nat) :
    Server × Files × Bool :=
  match server.file with
  | none => (server, files, false)
  | some stream =>
      if block ≠ server.curBlock then
        (server, files.fclose stream, false)
      else
        let counted := { server with curBlock := block + 1 }
        let files := files.fwrite stream data written
        let l := Int32.ofNat data.length
        if Int32.ofNat written ≠ l then
          (counted, files.fclose stream, false)
        else if l < Int32.ofNat fileBlockSize then
          (counted, files.fclose stream, true)
        else
          (counted, files, true)

/-- What `SendData` can do while there is a stream. -/
inductive SendDataCase (server : Server) (files : Files) (stream : Nat) (data : Bytes)
    (block : Int32) (written : Nat) : Server × Files × Bool → Prop
  | misnumbered (number : block ≠ server.curBlock) :
      SendDataCase server files stream data block written (server, files.fclose stream, false)
  | unwritten (number : block = server.curBlock)
      (incomplete : Int32.ofNat written ≠ Int32.ofNat data.length) :
      SendDataCase server files stream data block written
        ({ server with curBlock := block + 1 },
          (files.fwrite stream data written).fclose stream, false)
  | last (number : block = server.curBlock)
      (complete : Int32.ofNat written = Int32.ofNat data.length)
      (short : Int32.ofNat data.length < Int32.ofNat fileBlockSize) :
      SendDataCase server files stream data block written
        ({ server with curBlock := block + 1 },
          (files.fwrite stream data written).fclose stream, true)
  | full (number : block = server.curBlock)
      (complete : Int32.ofNat written = Int32.ofNat data.length)
      (long : Int32.ofNat fileBlockSize ≤ Int32.ofNat data.length) :
      SendDataCase server files stream data block written
        ({ server with curBlock := block + 1 }, files.fwrite stream data written, true)

theorem sendData_cases {server : Server} {stream : Nat} (file : server.file = some stream)
    (files : Files) (data : Bytes) (block : Int32) (written : Nat) :
    SendDataCase server files stream data block written
      (server.sendData files data block written) := by
  simp only [sendData, file]
  split
  · rename_i number
    exact .misnumbered number
  · rename_i number
    split
    · rename_i incomplete
      simpa only [file] using SendDataCase.unwritten (not_not.mp number) incomplete
    · rename_i complete
      split
      · rename_i short
        simpa only [file] using SendDataCase.last (not_not.mp number) (not_not.mp complete) short
      · rename_i long
        simpa only [file] using
          SendDataCase.full (not_not.mp number) (not_not.mp complete) (Int32.not_lt.mp long)

theorem deleteTemp_calls (server : Server) (files : Files) :
    (server.deleteTemp files).calls =
      files.calls ++ match server.file with
        | some stream => [.closed stream]
        | none => [] := by
  rw [deleteTemp]
  cases server.file <;> dsimp only <;> split <;> simp [Stdio.fclose, Stdio.remove]

/-- Every stream that the server knows has a file. -/
structure Sound (server : Server) (files : Files) : Prop where
  numbered : files.Numbered
  below : ∀ stream, server.file = some stream → stream < files.next

theorem Sound.deleteTemp {server : Server} {files : Files} (sound : server.Sound files) :
    (server.deleteTemp files).Numbered := by
  have closed : Stdio.Numbered (match server.file with
      | some stream => files.fclose stream
      | none => files) := by
    cases file : server.file with
    | none => exact sound.numbered
    | some stream => exact sound.numbered.fclose (sound.below stream file)
  rw [Server.deleteTemp]
  split
  · exact closed
  · exact closed

theorem deleteTemp_next (server : Server) (files : Files) :
    (server.deleteTemp files).next = files.next := by
  rw [deleteTemp]
  cases server.file <;> dsimp only <;> split <;> rfl

theorem Sound.sendInit {server after : Server} {files left : Files} {nameHint path : Bytes}
    {temp : Temp} (sound : server.Sound files)
    (initialized : server.sendInit files nameHint temp = some (after, left, path)) :
    after.Sound left := by
  have numbered := sound.deleteTemp
  cases temp with
  | refused =>
      obtain ⟨rfl, rfl, -⟩ : _ ∧ _ ∧ _ := by simpa [Server.sendInit] using initialized
      exact ⟨numbered, fun stream file => by
        rw [deleteTemp_next]
        exact sound.below stream file⟩
  | created suffix stream =>
      obtain ⟨-, initialized⟩ := Option.ite_none_right_eq_some.mp initialized
      cases stream with
      | false =>
          obtain ⟨rfl, rfl, -⟩ : _ ∧ _ ∧ _ := by simpa using initialized
          exact ⟨numbered.create _, fun _ file => by cases file⟩
      | true =>
          obtain ⟨rfl, rfl, -⟩ : _ ∧ _ ∧ _ := by simpa using initialized
          refine ⟨numbered.fdopen_create _, fun stream file => ?_⟩
          obtain rfl := Option.some.inj file
          exact Nat.lt_succ_self _

theorem Sound.sendData {server after : Server} {files left : Files} {data : Bytes}
    {block : Int32} {written : Nat} {value : Bool} (sound : server.Sound files)
    (received : server.sendData files data block written = (after, left, value)) :
    after.Sound left := by
  cases file : server.file with
  | none =>
      obtain ⟨rfl, rfl, -⟩ : _ ∧ _ ∧ _ := by simpa [Server.sendData, file] using received
      exact sound
  | some stream =>
      have result_case := sendData_cases file files data block written
      have below := sound.below stream file
      rw [received] at result_case
      cases result_case with
      | misnumbered => exact ⟨sound.numbered.fclose below, sound.below⟩
      | unwritten | last =>
          exact ⟨(sound.numbered.fwrite stream data written).fclose below, sound.below⟩
      | full => exact ⟨sound.numbered.fwrite stream data written, sound.below⟩

end Server

/-- An event in the life of one server. -/
inductive UploadEvent where
  | sendInit (nameHint : Bytes) (temp : Temp)
  | sendData (data : Bytes) (block : Int32) (written : Nat)
  | destroy

/-- What `SendData` returned, and whether it called a function on a stream. -/
structure Answer where
  value : Bool
  touched : Bool
  deriving DecidableEq

/-- A server, its files and the answers it gave, oldest first. -/
structure Service where
  server : Server
  files : Files
  /-- The server has not been destroyed. -/
  alive : Bool
  /-- `sprintf` has written past the end of `path`. -/
  smashed : Bool
  answers : List Answer

namespace Service

/-- A new server, before which nothing in the process has used a stream. -/
def start (curBlock : Int32) (directory : Bytes → Option Nat) (content : Nat → Bytes)
    (next : Nat) : Service :=
  ⟨.new curBlock, ⟨directory, content, next, []⟩, true, false, []⟩

/-- One event on a server that has not been destroyed.  After an overrun of `path` there is
none: the stack of the server is lost. -/
def step (service : Service) (event : UploadEvent) : Option Service :=
  if service.alive = false ∨ service.smashed = true then
    none
  else
    match event with
    | .sendInit nameHint temp =>
        if (tempTemplate nameHint).length + 1 ≤ pathMax then
          (service.server.sendInit service.files nameHint temp).map fun (server, files, _) =>
            { service with server, files }
        else
          some
            { service with files := service.server.deleteTemp service.files, smashed := true }
    | .sendData data block written =>
        let (server, files, value) := service.server.sendData service.files data block written
        some
          { service with
            server, files
            answers := service.answers ++ [⟨value, decide (files.calls ≠ service.files.calls)⟩] }
    | .destroy =>
        some { service with files := service.server.deleteTemp service.files, alive := false }

/-- The machine of one server. -/
def machine : Machine Service UploadEvent := ⟨step⟩

end Service

/-- The automaton that the documentation of `SendInit` and `SendData` describes. -/
structure Automaton where
  /-- How many blocks the running upload has accepted; `none` when no upload is running. -/
  accepted : Option Nat
  answers : List Answer

namespace Automaton

/-- A block for the running upload, if there is one.  It is accepted when it is the next one and
could be written, and it ends the upload when it is short or refused. -/
def receive (data : Bytes) (block : Int32) (written : Nat) : Option Nat → Option Nat × Answer
  | none => (none, ⟨false, false⟩)
  | some accepted =>
      if block = Int32.ofNat accepted ∧ written = data.length then
        (if data.length < fileBlockSize then none else some (accepted + 1), ⟨true, true⟩)
      else
        (none, ⟨false, true⟩)

/-- One event; it is always allowed. -/
def step (automaton : Automaton) : UploadEvent → Option Automaton
  | .sendInit _ (.created _ true) => some { automaton with accepted := some 0 }
  | .sendInit _ (.created _ false) | .sendInit _ .refused =>
      some { automaton with accepted := none }
  | .sendData data block written =>
      let (accepted, answer) := receive data block written automaton.accepted
      some ⟨accepted, automaton.answers ++ [answer]⟩
  | .destroy => some { automaton with accepted := none }

/-- The machine of the documentation. -/
def machine : Machine Automaton UploadEvent := ⟨step⟩

theorem step_sendData {automaton : Automaton} {data : Bytes} {block : Int32} {written : Nat}
    {accepted : Option Nat} {answer : Answer}
    (received : receive data block written automaton.accepted = (accepted, answer)) :
    machine.step automaton (.sendData data block written) =
      some ⟨accepted, automaton.answers ++ [answer]⟩ := by
  simp [machine, step, received]

end Automaton

namespace Service

/-- The service is intact and answers as the automaton does, every stream that was opened is closed
once and not used after that, and `m_file` is `NULL` or an open stream. -/
structure Conforms (service : Service) (automaton : Automaton) : Prop where
  intact : service.smashed = false
  answers : service.answers = automaton.answers
  tidy : service.files.Tidy
  closed : ∀ stream, .opened stream ∈ service.files.calls →
    .closed stream ∈ service.files.calls ∨
      service.alive = true ∧ service.server.file = some stream
  valid : service.alive = true → ∀ stream, service.server.file = some stream →
    service.files.IsOpen stream

/-- What the three members of the server say about the automaton. -/
structure Tracks (service : Service) (automaton : Automaton) : Prop extends
    service.Conforms automaton where
  numbered : service.files.Numbered
  idle : service.alive = true → service.server.file = none → automaton.accepted = none
  receiving : service.alive = true → ∀ stream, service.server.file = some stream →
    ∃ accepted, automaton.accepted = some accepted ∧
      service.server.curBlock = Int32.ofNat accepted

/-- The event closes no stream that `m_file` keeps pointing to.  `SendInit` has a hint that is not
too long and finds a temporary file or no stream to close, and a block that comes while `m_file` is
set is the next one, is written completely and is not short. -/
def KeepsHandle (service : Service) : UploadEvent → Prop
  | .sendInit nameHint .refused =>
      (cString nameHint).length + 21 ≤ pathMax ∧ service.server.file = none
  | .sendInit nameHint (.created _ _) => (cString nameHint).length + 21 ≤ pathMax
  | .destroy => True
  | .sendData data block written =>
      service.server.file = none ∨
        block = service.server.curBlock ∧ written = data.length ∧
          Int32.ofNat fileBlockSize ≤ Int32.ofNat data.length

end Service

namespace Service

/-- The server of a step has neither been destroyed nor lost its stack. -/
theorem alive_of_step {service next : Service} {event : UploadEvent}
    (moved : machine.step service event = some next) :
    service.alive = true ∧ service.smashed = false := by
  obtain ⟨usable, -⟩ := Option.ite_none_left_eq_some.mp moved
  simpa using usable

theorem step_sendInit {service next : Service} {nameHint : Bytes} {temp : Temp}
    (short : (cString nameHint).length + 21 ≤ pathMax)
    (moved : machine.step service (.sendInit nameHint temp) = some next) :
    ∃ server files path,
      service.server.sendInit service.files nameHint temp = some (server, files, path) ∧
        next = { service with server, files } := by
  obtain ⟨-, moved⟩ := Option.ite_none_left_eq_some.mp moved
  dsimp only at moved
  rw [tempTemplate_length, if_pos short] at moved
  obtain ⟨⟨server, files, path⟩, initialized, rfl⟩ := Option.map_eq_some_iff.mp moved
  exact ⟨server, files, path, initialized, rfl⟩

/-- A hint that is too long overruns the buffer. -/
theorem step_sendInit_long {service next : Service} {nameHint : Bytes} {temp : Temp}
    (long : ¬(cString nameHint).length + 21 ≤ pathMax)
    (moved : machine.step service (.sendInit nameHint temp) = some next) :
    next.smashed = true := by
  obtain ⟨-, moved⟩ := Option.ite_none_left_eq_some.mp moved
  dsimp only at moved
  rw [tempTemplate_length, if_neg long] at moved
  obtain rfl := Option.some.inj moved
  rfl

theorem KeepsHandle.short {service : Service} {nameHint : Bytes} {temp : Temp}
    (keeps : service.KeepsHandle (.sendInit nameHint temp)) :
    (cString nameHint).length + 21 ≤ pathMax := by
  cases temp with
  | refused => exact keeps.1
  | created => exact keeps

/-- With a valid `m_file`, `DeleteTemp` leaves nothing open. -/
theorem Tracks.deleteTemp {service : Service} {automaton : Automaton}
    (inv : service.Tracks automaton) (alive : service.alive = true) :
    (service.server.deleteTemp service.files).Tidy ∧
    (service.server.deleteTemp service.files).Numbered ∧
    ∀ stream, .opened stream ∈ (service.server.deleteTemp service.files).calls →
      .closed stream ∈ (service.server.deleteTemp service.files).calls := by
  have sound : service.server.Sound service.files :=
    ⟨inv.numbered, fun stream file => inv.numbered stream (.inl (inv.valid alive stream file).1)⟩
  have numbered := sound.deleteTemp
  simp only [Stdio.Tidy, Server.deleteTemp_calls]
  cases file : service.server.file with
  | none =>
      simp only [List.append_nil]
      refine ⟨inv.tidy, numbered, fun stream opened => ?_⟩
      rcases inv.closed stream opened with closed | ⟨-, current⟩
      · exact closed
      · rw [file] at current
        cases current
  | some stream =>
      have isOpen := inv.valid alive stream file
      refine ⟨inv.tidy.append_of_isOpen isOpen _ (.inr rfl), numbered, fun other opened => ?_⟩
      rcases inv.closed other (by simpa using opened) with closed | ⟨-, current⟩
      · simp [closed]
      · rw [file] at current
        simp [Option.some.inj current]

theorem Tracks.of_created {files : Files} {path : Bytes} {answers : List Answer}
    (tidy : files.Tidy) (numbered : files.Numbered)
    (closed : ∀ stream, .opened stream ∈ files.calls → .closed stream ∈ files.calls) :
    Tracks
      ⟨⟨some files.next, 0, path⟩, (files.create path).fdopen files.next, true, false, answers⟩
      ⟨some 0, answers⟩ where
  intact := rfl
  answers := rfl
  tidy := by
    have created : (files.create path).Tidy := tidy
    exact created.fdopen _
  closed := by
    intro stream opened
    rcases List.mem_append.mp opened with old | new
    · exact .inl (List.mem_append_left _ (closed stream old))
    · obtain rfl : stream = files.next := by simpa using new
      exact .inr ⟨rfl, rfl⟩
  valid := by
    rintro - stream file
    obtain rfl := Option.some.inj file
    exact numbered.isOpen_create path
  numbered := numbered.fdopen_create path
  idle := fun _ file => by cases file
  receiving := fun _ _ _ => ⟨0, rfl, rfl⟩

/-- A call of `SendInit` that may not reopen the stream leaves `m_file` without one. -/
theorem Tracks.sendInit {service next : Service} {automaton after : Automaton} {nameHint : Bytes}
    {temp : Temp} (inv : service.Tracks automaton)
    (keeps : service.KeepsHandle (.sendInit nameHint temp))
    (moved : machine.step service (.sendInit nameHint temp) = some next)
    (described : Automaton.machine.step automaton (.sendInit nameHint temp) = some after) :
    next.Tracks after := by
  obtain ⟨alive, intact⟩ := alive_of_step moved
  obtain ⟨tidy, numbered, closed⟩ := inv.deleteTemp alive
  obtain ⟨server, files, path, initialized, rfl⟩ := step_sendInit keeps.short moved
  cases temp with
  | refused =>
      obtain ⟨rfl, rfl, -⟩ : _ ∧ _ ∧ _ := by simpa [Server.sendInit] using initialized
      obtain rfl := Option.some.inj described
      have null : service.server.file = none := keeps.2
      exact {
        intact := intact
        answers := inv.answers
        tidy := tidy
        closed := fun stream opened => .inl (closed stream opened)
        valid := fun _ stream file => by simp [null] at file
        numbered := numbered
        idle := fun _ _ => rfl
        receiving := fun _ stream file => by simp [null] at file }
  | created suffix stream =>
      obtain ⟨fresh, initialized⟩ := Option.ite_none_right_eq_some.mp initialized
      cases stream with
      | false =>
          obtain ⟨rfl, rfl, -⟩ : _ ∧ _ ∧ _ := by simpa using initialized
          obtain rfl := Option.some.inj described
          exact {
            intact := intact
            answers := inv.answers
            tidy := tidy
            closed := fun stream opened => .inl (closed stream opened)
            valid := fun _ stream file => by cases file
            numbered := numbered.create _
            idle := fun _ _ => rfl
            receiving := fun _ stream file => by cases file }
      | true =>
          obtain ⟨rfl, rfl, -⟩ : _ ∧ _ ∧ _ := by simpa using initialized
          obtain rfl := Option.some.inj described
          simp only [alive, intact, inv.answers]
          exact .of_created tidy numbered closed

theorem not_short {length : Nat} (long : Int32.ofNat fileBlockSize ≤ Int32.ofNat length) :
    ¬length < fileBlockSize := by
  intro short
  have bound : length < 2 ^ 31 := short.trans (by decide)
  exact Int32.not_lt.mpr long ((Int32.ofNat_lt_iff_lt bound (by decide)).mpr short)

/-- A call of `SendData` on a server that has not been destroyed. -/
theorem step_sendData {service : Service} {data : Bytes} {block : Int32} {written : Nat}
    {server : Server} {files : Files} {value : Bool} (alive : service.alive = true)
    (intact : service.smashed = false)
    (received : service.server.sendData service.files data block written =
      (server, files, value)) :
    machine.step service (.sendData data block written) = some
      { service with
        server, files
        answers := service.answers ++ [⟨value, decide (files.calls ≠ service.files.calls)⟩] } := by
  simp [machine, step, alive, intact, received]

theorem Tracks.refuse {service : Service} {automaton : Automaton}
    (inv : service.Tracks automaton) (file : service.server.file = none) :
    Tracks { service with answers := service.answers ++ [⟨false, false⟩] }
      ⟨none, automaton.answers ++ [⟨false, false⟩]⟩ where
  intact := inv.intact
  answers := by rw [inv.answers]
  tidy := inv.tidy
  closed := inv.closed
  valid := inv.valid
  numbered := inv.numbered
  idle := fun _ _ => rfl
  receiving := fun _ stream now => by
    rw [file] at now
    cases now

theorem Tracks.append {service : Service} {automaton : Automaton} {stream accepted : Nat}
    (inv : service.Tracks automaton) (alive : service.alive = true)
    (file : service.server.file = some stream)
    (number : service.server.curBlock = Int32.ofNat accepted) (data : Bytes) :
    Tracks
      { service with
        server := { service.server with curBlock := service.server.curBlock + 1 }
        files := service.files.fwrite stream data data.length
        answers := service.answers ++ [⟨true, true⟩] }
      ⟨some (accepted + 1), automaton.answers ++ [⟨true, true⟩]⟩ where
  intact := inv.intact
  answers := by rw [inv.answers]
  tidy := inv.tidy.fwrite (inv.valid alive stream file) data data.length
  closed := by
    intro other opened
    rcases inv.closed other (by simpa [Stdio.fwrite] using opened) with closed | current
    · exact .inl (List.mem_append_left _ closed)
    · exact .inr current
  valid := fun _ other now => (inv.valid alive other now).fwrite stream data data.length
  numbered := inv.numbered.fwrite stream data data.length
  idle := fun _ now => by
    rw [file] at now
    cases now
  receiving := fun _ _ _ => ⟨accepted + 1, rfl, by rw [number, Int32.ofNat_add]; rfl⟩

theorem Tracks.sendData {service next : Service} {automaton after : Automaton} {data : Bytes}
    {block : Int32} {written : Nat} (inv : service.Tracks automaton)
    (keeps : service.KeepsHandle (.sendData data block written))
    (moved : machine.step service (.sendData data block written) = some next)
    (described : Automaton.machine.step automaton (.sendData data block written) = some after) :
    next.Tracks after := by
  obtain ⟨alive, intact⟩ := alive_of_step moved
  cases file : service.server.file with
  | none =>
      have received : service.server.sendData service.files data block written =
          (service.server, service.files, false) := by
        simp [Server.sendData, file]
      obtain rfl := Option.some.inj ((step_sendData alive intact received).symm.trans moved)
      have answered : Automaton.receive data block written automaton.accepted =
          (none, ⟨false, false⟩) := by
        rw [inv.idle alive file]
        rfl
      obtain rfl :=
        Option.some.inj ((Automaton.step_sendData answered).symm.trans described)
      simpa using inv.refuse file
  | some stream =>
      obtain ⟨accepted, phase, number⟩ := inv.receiving alive stream file
      obtain ⟨rfl, rfl, long⟩ := keeps.resolve_left (by simp [file])
      have received : service.server.sendData service.files data service.server.curBlock
          data.length = ({ service.server with curBlock := service.server.curBlock + 1 },
            service.files.fwrite stream data data.length, true) := by
        simp [Server.sendData, file, Int32.not_lt.mpr long]
      obtain rfl := Option.some.inj ((step_sendData alive intact received).symm.trans moved)
      have answered : Automaton.receive data service.server.curBlock data.length
          automaton.accepted = (some (accepted + 1), ⟨true, true⟩) := by
        simp [Automaton.receive, phase, number, not_short long]
      obtain rfl :=
        Option.some.inj ((Automaton.step_sendData answered).symm.trans described)
      simpa [Stdio.fwrite] using inv.append alive file number data

theorem tracks_step {states next : Service × Automaton} {event : UploadEvent}
    (inv : states.1.Tracks states.2) (keeps : states.1.KeepsHandle event)
    (moved : (machine.pair Automaton.machine).step states event = some next) :
    next.1.Tracks next.2 := by
  obtain ⟨moved, described⟩ := Machine.pair_step_eq_some.mp moved
  cases event with
  | sendInit => exact inv.sendInit keeps moved described
  | sendData => exact inv.sendData keeps moved described
  | destroy =>
      obtain ⟨alive, intact⟩ := alive_of_step moved
      obtain ⟨-, moved⟩ := Option.ite_none_left_eq_some.mp moved
      obtain ⟨tidy, numbered, closed⟩ := inv.deleteTemp alive
      rw [← Option.some.inj moved, ← Option.some.inj described]
      exact {
        intact := intact
        answers := inv.answers
        tidy := tidy
        closed := fun stream opened => .inl (closed stream opened)
        valid := nofun
        numbered := numbered
        idle := nofun
        receiving := nofun }

/-- A stream that was closed while `m_file` still points to it is not what the automaton asks
for. -/
theorem not_conforms_of_closed {service : Service} {automaton : Automaton} {stream : Nat}
    (alive : service.alive = true) (file : service.server.file = some stream)
    (closed : .closed stream ∈ service.files.calls) : ¬service.Conforms automaton :=
  fun conforms => (conforms.valid alive stream file).2 closed

/-- An upload can be started neither with a hint that overruns the buffer nor, when there was one
before, without a temporary file. -/
theorem not_conforms_of_sendInit {service next : Service} {automaton : Automaton}
    {nameHint : Bytes} {temp : Temp} (fails : ¬service.KeepsHandle (.sendInit nameHint temp))
    (moved : machine.step service (.sendInit nameHint temp) = some next) :
    ¬next.Conforms automaton := by
  by_cases short : (cString nameHint).length + 21 ≤ pathMax
  · obtain ⟨alive, -⟩ := alive_of_step moved
    obtain ⟨server, files, path, initialized, rfl⟩ := step_sendInit short moved
    cases temp with
    | refused =>
        obtain ⟨rfl, rfl, -⟩ : _ ∧ _ ∧ _ := by simpa [Server.sendInit] using initialized
        obtain ⟨stream, file⟩ := Option.ne_none_iff_exists'.mp (not_and.mp fails short)
        exact not_conforms_of_closed alive file (by simp [Server.deleteTemp_calls, file])
    | created => exact (fails short).elim
  · intro conforms
    have overrun := step_sendInit_long short moved
    rw [conforms.intact] at overrun
    cases overrun

theorem not_conforms_of_sendData {service next : Service} {automaton after : Automaton}
    {data : Bytes} {block : Int32} {written : Nat} (inv : service.Tracks automaton)
    (closes : ¬service.KeepsHandle (.sendData data block written))
    (moved : machine.step service (.sendData data block written) = some next)
    (described : Automaton.machine.step automaton (.sendData data block written) = some after) :
    ¬next.Conforms after := by
  obtain ⟨alive, intact⟩ := alive_of_step moved
  obtain ⟨unset, closes⟩ := not_or.mp closes
  obtain ⟨stream, file⟩ := Option.ne_none_iff_exists'.mp unset
  obtain ⟨accepted, phase, -⟩ := inv.receiving alive stream file
  generalize received : service.server.sendData service.files data block written = result
  have result_case := Server.sendData_cases file service.files data block written
  rw [received] at result_case
  obtain ⟨server, files, value⟩ := result
  obtain rfl := Option.some.inj ((step_sendData alive intact received).symm.trans moved)
  cases result_case with
  | misnumbered | unwritten | last =>
      exact not_conforms_of_closed alive file (by simp [Stdio.fclose])
  | full number complete long =>
      intro conforms
      have incomplete : written ≠ data.length := fun same => closes ⟨number, same, long⟩
      have answered : Automaton.receive data block written automaton.accepted =
          (none, ⟨false, true⟩) := by
        simp [Automaton.receive, phase, incomplete]
      obtain rfl := Option.some.inj ((Automaton.step_sendData answered).symm.trans described)
      have answers := conforms.answers
      simp [inv.answers] at answers

theorem start_tracks (curBlock : Int32) (directory : Bytes → Option Nat) (content : Nat → Bytes)
    (next : Nat) : (start curBlock directory content next).Tracks ⟨none, []⟩ where
  intact := rfl
  answers := rfl
  tidy := List.Pairwise.nil
  closed := fun _ opened => by cases opened
  valid := fun _ _ file => by cases file
  numbered := fun _ used => by rcases used with opened | closed <;> contradiction
  idle := fun _ _ => rfl
  receiving := fun _ _ file => by cases file

/-- The server is the documented automaton exactly as long as no hint is too long for `path` and no
event closes a stream that `m_file` keeps pointing to: it closes streams and never resets
`m_file`. -/
theorem always_conforms_iff (curBlock : Int32) (directory : Bytes → Option Nat)
    (content : Nat → Bytes) (next : Nat) (events : List UploadEvent) :
    (machine.pair Automaton.machine).Always (fun states => states.1.Conforms states.2)
        (start curBlock directory content next, ⟨none, []⟩) events ↔
      (machine.pair Automaton.machine).Guarded (fun states => states.1.KeepsHandle)
        (start curBlock directory content next, ⟨none, []⟩) events := by
  have bad {states after : Service × Automaton} {event : UploadEvent}
      (inv : states.1.Tracks states.2) (closes : ¬states.1.KeepsHandle event)
      (moved : (machine.pair Automaton.machine).step states event = some after) :
      ¬after.1.Conforms after.2 := by
    obtain ⟨moved, described⟩ := Machine.pair_step_eq_some.mp moved
    cases event with
    | sendInit => exact not_conforms_of_sendInit closes moved
    | sendData => exact not_conforms_of_sendData inv closes moved described
    | destroy => exact (closes trivial).elim
  exact Machine.always_iff_guarded tracks_step (fun inv => inv.toConforms) bad
    (start_tracks curBlock directory content next) events

/-- An upload of one short block on a new server, which is then destroyed. -/
def shortUpload : List UploadEvent :=
  [.sendInit (ascii "a") (.created (ascii "000000") true), .sendData (ascii "G0") 0 2, .destroy]

/-- The stream of a complete upload is closed again when the server is destroyed. -/
theorem not_conforms_of_shortUpload :
    ¬∀ (curBlock : Int32) (directory : Bytes → Option Nat) (content : Nat → Bytes) (next : Nat)
        (events : List UploadEvent),
      (machine.pair Automaton.machine).Always (fun states => states.1.Conforms states.2)
        (start curBlock directory content next, ⟨none, []⟩) events := by
  intro always
  obtain ⟨final, execution, calls⟩ : ∃ final,
      (machine.pair Automaton.machine).run
        (start 0 (fun _ => none) (fun _ => []) 0, ⟨none, []⟩) shortUpload = some final ∧
      final.1.files.calls = [.opened 0, .wrote 0, .closed 0, .closed 0] := ⟨_, rfl, rfl⟩
  have conforms := Machine.always_iff.mp (always 0 (fun _ => none) (fun _ => []) 0 shortUpload)
    shortUpload final List.prefix_rfl execution
  have tidy := conforms.tidy
  rw [Stdio.Tidy, calls] at tidy
  simp [StreamCall.Spares] at tidy

end Service

end CncRemote
