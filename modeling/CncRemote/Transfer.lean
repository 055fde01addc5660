import CncRemote.LoadFile

/-!
# One undisturbed transfer

Client and server agree on the framing of a file: full blocks followed by one short block, which is
empty when the length of the file is a multiple of the block size.
-/

namespace CncRemote

/-- The blocks in which a file is sent. -/
def blocks (data : Bytes) : List Bytes :=
  if data.length < fileBlockSize then [data]
  else data.take fileBlockSize :: blocks (data.drop fileBlockSize)
termination_by data.length
decreasing_by
  rw [List.length_drop]
  have positive : 0 < fileBlockSize := by decide
  omega

theorem blocks_of_short {data : Bytes} (short : data.length < fileBlockSize) :
    blocks data = [data] := by
  rw [blocks, if_pos short]

theorem blocks_of_long {data : Bytes} (long : ¬data.length < fileBlockSize) :
    blocks data = data.take fileBlockSize :: blocks (data.drop fileBlockSize) := by
  rw [blocks, if_neg long]

theorem blocks_append {block : Bytes} (full : block.length = fileBlockSize) (rest : Bytes) :
    blocks (block ++ rest) = block :: blocks rest := by
  have long : ¬(block ++ rest).length < fileBlockSize := by
    rw [List.length_append, full]
    omega
  rw [blocks_of_long long, List.take_left' full, List.drop_left' full]

theorem length_blocks (data : Bytes) : (blocks data).length = data.length / fileBlockSize + 1 := by
  have positive : 0 < fileBlockSize := by decide
  induction data using blocks.induct with
  | case1 data short => rw [blocks_of_short short, Nat.div_eq_of_lt short, List.length_singleton]
  | case2 data long ih =>
      rw [blocks_of_long long, List.length_cons, ih, List.length_drop,
        Nat.div_eq_sub_div positive (Nat.not_lt.mp long)]

namespace Server

theorem sendData_of_full {server : Server} {stream : Nat} {rest : Bytes}
    (file : server.file = some stream) (long : ¬rest.length < fileBlockSize) (files : Files) :
    server.sendData files (rest.take fileBlockSize) server.curBlock
        (rest.take fileBlockSize).length =
      ({ server with curBlock := server.curBlock + 1 },
        files.fwrite stream (rest.take fileBlockSize) (rest.take fileBlockSize).length, true) := by
  have full : ¬Int32.ofNat (rest.take fileBlockSize).length < Int32.ofNat fileBlockSize :=
    fun short => long ((Loading.short_iff rest).mp short)
  simp only [sendData, file, ne_eq, not_true_eq_false, if_false, full]

theorem sendData_of_last {server : Server} {stream : Nat} {rest : Bytes}
    (file : server.file = some stream) (short : rest.length < fileBlockSize) (files : Files) :
    server.sendData files (rest.take fileBlockSize) server.curBlock
        (rest.take fileBlockSize).length =
      ({ server with curBlock := server.curBlock + 1 },
        (files.fwrite stream (rest.take fileBlockSize) (rest.take fileBlockSize).length).fclose
          stream, true) := by
  have last := (Loading.short_iff rest).mpr short
  simp only [sendData, file, ne_eq, not_true_eq_false, if_false, last, if_true]

end Server

/-- The event is a request that `Poll` has sent. -/
def LoadEvent.isStatus {ι : Type*} : LoadEvent ι → Bool
  | .status _ => true
  | .serve _ _ | .timeout _ => false

namespace Loading

variable {ι : Type*} [DecidableEq ι]

/-- The requests of `Poll` do not matter to an upload. -/
theorem run_filter_isStatus (loading : Loading ι) (events : List (LoadEvent ι)) :
    machine.run loading (events.filter fun event => !event.isStatus) =
      machine.run loading events := by
  induction events generalizing loading with
  | nil => rfl
  | cons event events ih =>
      cases event with
      | status => exact ih loading
      | serve | timeout => exact Option.bind_congr fun next _ => ih next

/-- The requests of an upload, each with the count of bytes that `fwrite` reports when it writes
all of them. -/
def sends (client : ι) (rest : Bytes) : List (LoadEvent ι) :=
  (blocks rest).map fun block => .serve client (.wrote block.length)

/-- What an upload has left behind when the `LoadFile` request is next. -/
structure Uploaded (loading final : Loading ι) (client : ι) (path : Bytes)
    (stream number count : Nat) : Prop where
  phase : (final.loaders client).phase = .loadFile path
  sent : (final.loaders client).sent = (loading.loaders client).sent ++
    (List.range' number count).map fun block => (Int32.ofNat block, true)
  calls : final.files.calls = loading.files.calls ++ List.replicate count (.wrote stream) ++
    [.closed stream]
  delivered : final.Delivered client path
  content : (final.loaders client).content = (loading.loaders client).content

theorem uploaded_of_last {loading : Loading ι} {client : ι} {path rest : Bytes}
    {stream number : Nat} (inv : loading.Receiving client path stream rest (Int32.ofNat number))
    (waits : (loading.loaders client).waiting = true) (tidy : loading.files.Tidy)
    (short : rest.length < fileBlockSize) :
    ∃ final, machine.step loading (.serve client (.wrote rest.length)) = some final ∧
      loading.Uploaded final client path stream number 1 := by
  have file : loading.server.file = some stream := by rw [inv.server]
  have number_eq : loading.server.curBlock = Int32.ofNat number := by rw [inv.server]
  have received := Server.sendData_of_last file short loading.files
  rw [number_eq] at received
  have all : rest.take fileBlockSize = rest := List.take_of_length_le short.le
  have step := step_wrote inv.phase received
  have isOpen := inv.isOpen.fwrite stream (rest.take fileBlockSize)
    (rest.take fileBlockSize).length
  rw [if_pos ((tidy.fwrite inv.isOpen _ _).fclose isOpen), all] at step
  refine ⟨_, step, ?_⟩
  have kept := inv.isOpen.content_fwrite rest rest.length
  rw [List.take_length, inv.content] at kept
  have named : (loading.files.fwrite stream rest rest.length).directory path = some stream :=
    inv.named
  constructor
  · simp [Loader.proceed_of_waiting, waits, Loader.afterBlock_of_last short]
  · simp [Loader.proceed_of_waiting, waits]
  · simp [Stdio.fclose, Stdio.fwrite]
  · simpa [Delivered, Stdio.read, Stdio.fclose, named, Loader.proceed_of_waiting, waits] using kept
  · simp [Loader.proceed_of_waiting, waits]

theorem receiving_of_full {loading : Loading ι} {client : ι} {path rest : Bytes}
    {stream number : Nat} (inv : loading.Receiving client path stream rest (Int32.ofNat number))
    (waits : (loading.loaders client).waiting = true) (tidy : loading.files.Tidy)
    (long : ¬rest.length < fileBlockSize) :
    ∃ next, machine.step loading
        (.serve client (.wrote (rest.take fileBlockSize).length)) = some next ∧
      next.Receiving client path stream (rest.drop fileBlockSize) (Int32.ofNat (number + 1)) ∧
      (next.loaders client).waiting = true ∧ next.files.Tidy ∧
      (next.loaders client).sent =
        (loading.loaders client).sent ++ [(Int32.ofNat number, true)] ∧
      next.files.calls = loading.files.calls ++ [.wrote stream] ∧
      (next.loaders client).content = (loading.loaders client).content := by
  have file : loading.server.file = some stream := by rw [inv.server]
  have number_eq : loading.server.curBlock = Int32.ofNat number := by rw [inv.server]
  have received := Server.sendData_of_full file long loading.files
  rw [number_eq] at received
  have written := tidy.fwrite inv.isOpen (rest.take fileBlockSize)
    (rest.take fileBlockSize).length
  have step := step_wrote inv.phase received
  rw [if_pos written] at step
  have kept := inv.content_fwrite rfl
  have named : (loading.files.fwrite stream (rest.take fileBlockSize)
      (rest.take fileBlockSize).length).directory path = some stream := inv.named
  refine ⟨_, step, ⟨?_, ?_, inv.isOpen.fwrite _ _ _, named, ?_⟩, ?_, written, ?_, rfl, ?_⟩
  · simp [Loader.proceed_of_waiting, waits, Loader.afterBlock_of_full (Nat.not_lt.mp long)]
  · simp [inv.server]
  · simpa [Loader.proceed_of_waiting, waits] using kept
  · simp [Loader.proceed_of_waiting, waits]
  · simp [Loader.proceed_of_waiting, waits]
  · simp [Loader.proceed_of_waiting, waits]

/-- All blocks of an upload, one after the other. -/
theorem run_sends (rest : Bytes) {loading : Loading ι} {client : ι} {path : Bytes}
    {stream number : Nat} (inv : loading.Receiving client path stream rest (Int32.ofNat number))
    (waits : (loading.loaders client).waiting = true) (tidy : loading.files.Tidy) :
    ∃ final, machine.run loading (sends client rest) = some final ∧
      loading.Uploaded final client path stream number (blocks rest).length := by
  induction rest using blocks.induct generalizing loading number with
  | case1 rest short =>
      obtain ⟨final, step, uploaded⟩ := uploaded_of_last inv waits tidy short
      rw [sends, blocks_of_short short]
      exact ⟨final, Machine.run_cons_eq_some.mpr ⟨final, step, rfl⟩, uploaded⟩
  | case2 rest long ih =>
      obtain ⟨next, step, receiving, nextWaits, nextTidy, sent, calls, content⟩ :=
        receiving_of_full inv waits tidy long
      obtain ⟨final, execution, uploaded⟩ := ih receiving nextWaits nextTidy
      rw [sends, blocks_of_long long]
      refine ⟨final, Machine.run_cons_eq_some.mpr ⟨next, step, execution⟩, ?_⟩
      constructor
      · exact uploaded.phase
      · rw [uploaded.sent, sent, List.length_cons, List.range'_succ]
        simp
      · rw [uploaded.calls, calls, List.length_cons, List.replicate_succ]
        simp
      · exact uploaded.delivered
      · rw [uploaded.content, content]

theorem receiving_of_first (curBlock : Int32) {directory : Bytes → Option Nat}
    (content : Nat → Bytes) (next : Nat) (names contents : ι → Bytes) (client : ι)
    {suffix : Bytes}
    (fresh : directory (Server.tempPath (nameHint (names client)) suffix) = none) :
    ∃ began,
      machine.step (start curBlock directory content next names contents)
        (.serve client (.temp (.created suffix true))) = some began ∧
      began.Receiving client (Server.tempPath (nameHint (names client)) suffix) next
        (contents client) (Int32.ofNat 0) ∧
      began.loaders client = ⟨names client, contents client,
        .sendData (Server.tempPath (nameHint (names client)) suffix) (contents client) 0, true,
        []⟩ ∧
      began.files.calls = [.opened next] := by
  have step : machine.step (start curBlock directory content next names contents)
      (.serve client (.temp (.created suffix true))) = some
        { server := ⟨some next, 0, Server.tempPath (nameHint (names client)) suffix⟩
          files := (Stdio.create ⟨directory, content, next, []⟩
            (Server.tempPath (nameHint (names client)) suffix)).fdopen next
          loaders := Function.update
            (start curBlock directory content next names contents).loaders client
            ⟨names client, contents client,
              .sendData (Server.tempPath (nameHint (names client)) suffix) (contents client) 0,
              true, []⟩ } := by
    simp [machine, Loading.step, start, Loader.start, Loader.serve, Server.sendInit, Server.new,
      Server.deleteTemp, fresh, Loader.proceed, Server.tempPath_ne_nil, Stdio.Tidy, Stdio.fdopen,
      Stdio.create]
  refine ⟨_, step, ⟨?_, rfl, ?_, ?_, ?_⟩, ?_, rfl⟩
  · simp
  · simp [Stdio.IsOpen, Stdio.fdopen, Stdio.create]
  · simp [Stdio.fdopen, Stdio.create]
  · simp [Stdio.fdopen, Stdio.create]
  · simp

/-- The first upload on a server, whatever `Poll` asks in between.  It ends; its blocks are
numbered from 0 and all accepted; the file that `SendInit` has named holds the content of the
client, and its stream was closed once, by the last block. -/
theorem upload_completes (curBlock : Int32) (directory : Bytes → Option Nat)
    (content : Nat → Bytes) (next : Nat) (names contents : ι → Bytes) (client : ι)
    (suffix : Bytes) (events : List (LoadEvent ι))
    (fresh : directory (Server.tempPath (nameHint (names client)) suffix) = none)
    (requests : (events.filter fun event => !event.isStatus) =
      .serve client (.temp (.created suffix true)) :: sends client (contents client)) :
    ∃ final,
      machine.run (start curBlock directory content next names contents) events = some final ∧
      (final.loaders client).phase =
        .loadFile (Server.tempPath (nameHint (names client)) suffix) ∧
      (final.loaders client).sent =
        (List.range ((contents client).length / fileBlockSize + 1)).map
          (fun block => (Int32.ofNat block, true)) ∧
      final.files.read (Server.tempPath (nameHint (names client)) suffix) =
        some (contents client) ∧
      final.files.calls = [.opened next] ++
        List.replicate ((contents client).length / fileBlockSize + 1) (.wrote next) ++
        [.closed next] := by
  obtain ⟨began, step, receiving, loader, calls⟩ :=
    receiving_of_first curBlock content next names contents client fresh
  have tidy : began.files.Tidy := by
    rw [Stdio.Tidy, calls]
    exact List.pairwise_singleton _ _
  obtain ⟨final, execution, uploaded⟩ :=
    run_sends (contents client) receiving (by rw [loader]) tidy
  refine ⟨final, ?_, uploaded.phase, ?_, ?_, ?_⟩
  · rw [← run_filter_isStatus, requests]
    exact Machine.run_cons_eq_some.mpr ⟨began, step, execution⟩
  · rw [uploaded.sent, loader, length_blocks, List.range_eq_range', List.nil_append]
  · have delivered := uploaded.delivered
    rwa [Delivered, uploaded.content, loader] at delivered
  · rw [uploaded.calls, calls, length_blocks]

/-- A file of a full block and two bytes. -/
def longFile : Bytes := List.replicate fileBlockSize 71 ++ ascii "M2"

/-- The two blocks are sent, with a status request in between. -/
theorem upload_completes_two :
    ∃ final : Loading Bool,
      machine.run (start 0 (fun _ => none) (fun _ => []) 0 twoNames fun _ => longFile)
        [.serve false (.temp (.created (ascii "000000") true)),
          .serve false (.wrote fileBlockSize), .status false, .serve false (.wrote 2)] =
        some final ∧
      final.files.read (ascii "/tmp/CncRemotea000000") = some longFile ∧
      final.files.calls = [.opened 0, .wrote 0, .wrote 0, .closed 0] := by
  have long : longFile.length = fileBlockSize + 2 := by
    rw [longFile, List.length_append, List.length_replicate]
    rfl
  have framed : blocks longFile = [List.replicate fileBlockSize 71, ascii "M2"] := by
    rw [longFile, blocks_append List.length_replicate, blocks_of_short (by decide)]
  have requests : ([.serve false (.temp (.created (ascii "000000") true)),
      .serve false (.wrote fileBlockSize), .status false, .serve false (.wrote 2)] :
      List (LoadEvent Bool)).filter (fun event => !event.isStatus) =
      .serve false (.temp (.created (ascii "000000") true)) :: sends false longFile := by
    rw [sends, framed, List.map_cons, List.length_replicate]
    rfl
  obtain ⟨final, execution, -, -, held, calls⟩ :=
    upload_completes 0 (fun _ => none) (fun _ => []) 0 twoNames (fun _ => longFile) false
      (ascii "000000") _ rfl requests
  rw [long] at calls
  exact ⟨final, execution, held, calls⟩

end Loading

end CncRemote
