import CncRemote.Upload

/-!
# Clients that load files

`Client::LoadFile` uploads a file in blocks and then has it loaded.  Any number of clients may do so
at one server, which handles one request at a time, in any order.
-/

namespace CncRemote

/-- `find_last_of` for a single character. -/
def lastIndexOf (char : UInt8) (text : Bytes) : Option Nat :=
  (text.reverse.findIdx? (· = char)).map (text.length - 1 - ·)

/-- The index `s` of `LoadFile`. -/
def nameSlash (file : Bytes) : Nat := (lastIndexOf 47 file).getD 0

/-- The index `e` of `LoadFile`. -/
def nameEnd (file : Bytes) : Nat :=
  match lastIndexOf 46 file with
  | some e => if e < nameSlash file then file.length else e
  | none => file.length

/-- The hint that `Client::LoadFile` cuts out of the name of a file: what lies between the last
slash, or else the first character, and the last dot. -/
def nameHint (file : Bytes) : Bytes :=
  let s := nameSlash file
  let e := nameEnd file
  -- a dot at the very start makes the length of the hint wrap around to the largest `size_t`
  if e < s + 1 then file.drop (s + 1) else (file.drop (s + 1)).take (e - (s + 1))

/-- How far a client has come. -/
inductive LoadPhase where
  /-- The next request is `SendInit`. -/
  | sendInit
  /-- The next request is `SendData` with the first block of the rest of the file. -/
  | sendData (path rest : Bytes) (block : Int32)
  /-- The next request is `LoadFile`. -/
  | loadFile (path : Bytes)
  | returned (result : Bool)

/-- A call of `Client::LoadFile`. -/
structure Loader where
  /-- Name of the local file. -/
  file : Bytes
  /-- What `fread` reads from the file. -/
  content : Bytes
  phase : LoadPhase
  /-- The client still waits for the reply to its request. -/
  waiting : Bool
  /-- Numbers of the blocks that were sent, each with the reply of `SendData`. -/
  sent : List (Int32 × Bool)

/-- What the system and the driver answer while a request is handled. -/
inductive Outcome where
  | temp (temp : Temp)
  | wrote (written : Nat)
  | loaded (result : Bool)

namespace Loader

/-- The call up to its first request; `content` is `none` when `fopen` fails. -/
def start (connected isLocal : Bool) (file : Bytes) (content : Option Bytes) : Loader :=
  match connected, isLocal, content with
  | false, _, _ | true, false, none => ⟨file, [], .returned false, true, []⟩
  | true, true, _ => ⟨file, [], .loadFile file, true, []⟩
  | true, false, some content => ⟨file, content, .sendInit, true, []⟩

/-- What follows the reply to a block. -/
def afterBlock (path rest : Bytes) (block : Int32) (value : Bool) : LoadPhase :=
  if value = false then .returned false
  else if (rest.take fileBlockSize).length = fileBlockSize then
    .sendData path (rest.drop fileBlockSize) (block + 1)
  else .loadFile path

theorem afterBlock_of_last {rest : Bytes} (ends : rest.length < fileBlockSize) (path : Bytes)
    (block : Int32) : afterBlock path rest block true = .loadFile path := by
  have short : (rest.take fileBlockSize).length ≠ fileBlockSize := by
    rw [List.length_take]
    omega
  rw [afterBlock, if_neg (by simp), if_neg short]

theorem afterBlock_of_full {rest : Bytes} (more : fileBlockSize ≤ rest.length) (path : Bytes)
    (block : Int32) : afterBlock path rest block true =
      .sendData path (rest.drop fileBlockSize) (block + 1) := by
  rw [afterBlock, if_neg (by simp), if_pos (by rw [List.length_take]; omega)]

/-- The reply arrives.  A client that has run into its timeout has left `LoadFile` by then. -/
def proceed (loader : Loader) (phase : LoadPhase) : Loader :=
  { loader with phase := if loader.waiting then phase else .returned false }

theorem proceed_of_waiting {loader : Loader} (waits : loader.waiting = true)
    (phase : LoadPhase) : loader.proceed phase = { loader with phase } := by
  simp [proceed, waits]

theorem proceed_of_timeout {loader : Loader} (left : loader.waiting = false)
    (phase : LoadPhase) : loader.proceed phase = { loader with phase := .returned false } := by
  simp [proceed, left]

/-- The server handles the next request, and the client goes on with the reply. -/
def serve (loader : Loader) (server : Server) (files : Files) (outcome : Outcome) :
    Option (Server × Files × Loader) :=
  match loader.phase, outcome with
  | .sendInit, .temp temp =>
      (server.sendInit files (nameHint loader.file) temp).map fun (server, files, path) =>
        (server, files,
          loader.proceed (if path = [] then .returned false else .sendData path loader.content 0))
  | .sendData path rest block, .wrote written =>
      let (server, files, value) :=
        server.sendData files (rest.take fileBlockSize) block written
      some (server, files,
        { loader with sent := loader.sent ++ [(block, value)] }.proceed
          (afterBlock path rest block value))
  | .loadFile _, .loaded result => some (server, files, loader.proceed (.returned result))
  | _, _ => none

end Loader

/-- One server, its files and the clients that load files there. -/
structure Loading (ι : Type*) where
  server : Server
  files : Files
  loaders : ι → Loader

/-- What can happen while clients load files. -/
inductive LoadEvent (ι : Type*) where
  /-- The next request of the client is handled. -/
  | serve (client : ι) (outcome : Outcome)
  /-- The client gives up waiting for a reply; its request stays in flight. -/
  | timeout (client : ι)
  /-- A request that `Poll` has sent is handled. -/
  | status (client : ι)

/-- The event is a `SendInit` or `SendData` request of another client. -/
def LoadEvent.Disturbs {ι : Type*} (client : ι) : LoadEvent ι → Prop
  | .serve other (.temp _) | .serve other (.wrote _) => other ≠ client
  | .serve _ (.loaded _) | .timeout _ | .status _ => False

namespace Loading

variable {ι : Type*}

/-- A new server, and every client about to upload its file. -/
def start (curBlock : Int32) (directory : Bytes → Option Nat) (content : Nat → Bytes)
    (next : Nat) (names contents : ι → Bytes) : Loading ι where
  server := .new curBlock
  files := ⟨directory, content, next, []⟩
  loaders := fun client => .start true false (names client) (some (contents client))

/-- One event.  Nothing is said about what follows the use of a stream that was closed. -/
def step [DecidableEq ι] (loading : Loading ι) : LoadEvent ι → Option (Loading ι)
  | .serve client outcome =>
      ((loading.loaders client).serve loading.server loading.files outcome).bind
        fun (server, files, loader) =>
          if files.Tidy then some ⟨server, files, Function.update loading.loaders client loader⟩
          else none
  | .timeout client =>
      let loader := { loading.loaders client with waiting := false }
      some { loading with loaders := Function.update loading.loaders client loader }
  | .status _ => some loading

/-- The machine of all clients and their server. -/
def machine [DecidableEq ι] : Machine (Loading ι) (LoadEvent ι) := ⟨step⟩

/-- The client is in the middle of an upload that is the current one of the server: what its file
holds and what is left to send make up the content. -/
structure Receiving (loading : Loading ι) (client : ι) (path : Bytes) (stream : Nat)
    (rest : Bytes) (block : Int32) : Prop where
  phase : (loading.loaders client).phase = .sendData path rest block
  server : loading.server = ⟨some stream, block, path⟩
  isOpen : loading.files.IsOpen stream
  named : loading.files.directory path = some stream
  content : loading.files.content stream ++ rest = (loading.loaders client).content

/-- The file that the client uploaded is there and holds its content. -/
def Delivered (loading : Loading ι) (client : ι) (path : Bytes) : Prop :=
  loading.files.read path = some (loading.loaders client).content

theorem le_of_ofNat_eq {written length : Nat} (small : length < 2 ^ 31)
    (equal : Int32.ofNat written = Int32.ofNat length) : length ≤ written := by
  by_contra less
  have values := congrArg Int32.toInt equal
  rw [Int32.toInt_ofNat_of_lt (by omega), Int32.toInt_ofNat_of_lt small] at values
  omega

/-- A block is handled, unless it uses a stream that was closed. -/
theorem step_wrote [DecidableEq ι] {loading : Loading ι} {client : ι} {path rest : Bytes}
    {block : Int32} {written : Nat} {server : Server} {files : Files} {value : Bool}
    (phase : (loading.loaders client).phase = .sendData path rest block)
    (received : loading.server.sendData loading.files (rest.take fileBlockSize) block written =
      (server, files, value)) :
    machine.step loading (.serve client (.wrote written)) =
      if files.Tidy then
        some ⟨server, files, Function.update loading.loaders client
          ({ loading.loaders client with
            sent := (loading.loaders client).sent ++ [(block, value)] }.proceed
            (Loader.afterBlock path rest block value))⟩
      else none := by
  simp [machine, step, Loader.serve, phase, received]

/-- What holds of a client whose upload nobody disturbs. -/
inductive OnTrack (loading : Loading ι) (client : ι) : Prop
  | sending (path rest : Bytes) (stream : Nat) (block : Int32)
      (receiving : loading.Receiving client path stream rest block)
  | loading (path : Bytes) (phase : (loading.loaders client).phase = .loadFile path)
      (delivered : loading.Delivered client path)
  | returned (result : Bool) (phase : (loading.loaders client).phase = .returned result)

/-- The block that the server appends is the one that the client sent. -/
theorem Receiving.content_fwrite {loading : Loading ι} {client : ι} {path rest : Bytes}
    {stream : Nat} {block : Int32} {written : Nat}
    (inv : loading.Receiving client path stream rest block)
    (complete : Int32.ofNat written = Int32.ofNat (rest.take fileBlockSize).length) :
    (loading.files.fwrite stream (rest.take fileBlockSize) written).content stream ++
      rest.drop fileBlockSize = (loading.loaders client).content := by
  have small : (rest.take fileBlockSize).length < 2 ^ 31 := by
    rw [List.length_take, fileBlockSize]
    omega
  rw [inv.isOpen.content_fwrite, List.take_of_length_le (le_of_ofNat_eq small complete),
    List.append_assoc, List.take_append_drop, inv.content]

/-- The server takes a block for the last one when the client does. -/
theorem short_iff (rest : Bytes) :
    Int32.ofNat (rest.take fileBlockSize).length < Int32.ofNat fileBlockSize ↔
      rest.length < fileBlockSize := by
  have small : (rest.take fileBlockSize).length ≤ fileBlockSize := List.length_take_le _ _
  rw [Int32.ofNat_lt_iff_lt (small.trans_lt (by decide)) (by decide), List.length_take]
  omega

theorem Receiving.serve [DecidableEq ι] {loading next : Loading ι} {client : ι}
    {path rest : Bytes} {stream : Nat} {block : Int32} {written : Nat}
    (inv : loading.Receiving client path stream rest block)
    (moved : machine.step loading (.serve client (.wrote written)) = some next) :
    next.OnTrack client := by
  have file : loading.server.file = some stream := by rw [inv.server]
  generalize received : loading.server.sendData loading.files (rest.take fileBlockSize) block
    written = result
  have result_case :=
    Server.sendData_cases file loading.files (rest.take fileBlockSize) block written
  rw [received] at result_case
  obtain ⟨server, files, value⟩ := result
  rw [step_wrote inv.phase received] at moved
  obtain ⟨-, moved⟩ := Option.ite_none_right_eq_some.mp moved
  obtain rfl := Option.some.inj moved
  cases waits : (loading.loaders client).waiting with
  | false => exact .returned false (by simp [Loader.proceed_of_timeout, waits])
  | true =>
      cases result_case with
      | misnumbered | unwritten =>
          exact .returned false
            (by simp [Loader.proceed_of_waiting, waits, Loader.afterBlock])
      | last _ complete short =>
          have ends := (short_iff rest).mp short
          have written_all := inv.content_fwrite complete
          rw [List.drop_eq_nil_of_le ends.le, List.append_nil] at written_all
          refine .loading path ?_ ?_
          · simp [Loader.proceed_of_waiting, waits, Loader.afterBlock_of_last ends]
          · have named : (loading.files.fwrite stream (rest.take fileBlockSize) written).directory
                path = some stream := inv.named
            simpa [Delivered, Stdio.read, Stdio.fclose, named, Loader.proceed_of_waiting, waits]
              using written_all
      | full number complete long =>
          have more : fileBlockSize ≤ rest.length :=
            Nat.not_lt.mp fun ends => Int32.not_lt.mpr long ((short_iff rest).mpr ends)
          refine .sending path (rest.drop fileBlockSize) stream (block + 1) ?_
          constructor
          · simp [Loader.proceed_of_waiting, waits, Loader.afterBlock_of_full more]
          · simp [inv.server]
          · exact inv.isOpen.fwrite _ _ _
          · exact inv.named
          · simpa [Loader.proceed_of_waiting, waits] using inv.content_fwrite complete

/-- What holds in every state: streams have files, and no client changes its content. -/
structure Sound (contents : ι → Bytes) (loading : Loading ι) : Prop where
  server : loading.server.Sound loading.files
  content : ∀ client, (loading.loaders client).content = contents client

theorem Sound.update [DecidableEq ι] {contents : ι → Bytes} {loading : Loading ι}
    (inv : loading.Sound contents) {client : ι} {loader : Loader}
    (same : loader.content = (loading.loaders client).content) {server : Server} {files : Files}
    (sound : server.Sound files) :
    Sound contents ⟨server, files, Function.update loading.loaders client loader⟩ where
  server := sound
  content := by
    intro other
    by_cases own : other = client
    · subst own
      simpa [same] using inv.content other
    · simpa [Function.update_of_ne own] using inv.content other

theorem sound_serve {loader after : Loader} {server left : Server} {files rest : Files}
    {outcome : Outcome} (sound : server.Sound files)
    (served : loader.serve server files outcome = some (left, rest, after)) :
    left.Sound rest ∧ after.content = loader.content := by
  cases phase : loader.phase <;> cases outcome <;>
    simp only [Loader.serve, phase, reduceCtorEq] at served
  case sendInit.temp temp =>
    obtain ⟨⟨server, files, path⟩, initialized, result⟩ := Option.map_eq_some_iff.mp served
    obtain ⟨rfl, rfl, rfl⟩ : _ ∧ _ ∧ _ := by simpa using result
    exact ⟨sound.sendInit initialized, rfl⟩
  case sendData.wrote path data block written =>
    obtain ⟨rfl, rfl, rfl⟩ : _ ∧ _ ∧ _ := by simpa using served
    exact ⟨sound.sendData rfl, rfl⟩
  case loadFile.loaded =>
    obtain ⟨rfl, rfl, rfl⟩ : _ ∧ _ ∧ _ := by simpa using served
    exact ⟨sound, rfl⟩

theorem sound_step [DecidableEq ι] {contents : ι → Bytes} {loading next : Loading ι}
    {event : LoadEvent ι} (inv : loading.Sound contents)
    (moved : machine.step loading event = some next) : next.Sound contents := by
  cases event with
  | serve client outcome =>
      obtain ⟨⟨server, files, loader⟩, served, moved⟩ := Option.bind_eq_some_iff.mp moved
      obtain ⟨-, moved⟩ := Option.ite_none_right_eq_some.mp moved
      obtain rfl := Option.some.inj moved
      obtain ⟨sound, same⟩ := sound_serve inv.server served
      exact inv.update same sound
  | timeout client =>
      obtain rfl := Option.some.inj moved
      have same : ({ loading.loaders client with waiting := false } : Loader).content =
          (loading.loaders client).content := rfl
      exact inv.update same inv.server
  | status =>
      obtain rfl := Option.some.inj moved
      exact inv

theorem receiving_of_created {server after : Server} {files left : Files}
    {nameHint path : Bytes} {temp : Temp} (sound : server.Sound files)
    (initialized : server.sendInit files nameHint temp = some (after, left, path))
    (found : path ≠ []) :
    ∃ stream, after = ⟨some stream, 0, path⟩ ∧ left.IsOpen stream ∧
      left.directory path = some stream ∧ left.content stream = [] := by
  cases temp with
  | refused =>
      obtain ⟨rfl, rfl, rfl⟩ : _ ∧ _ ∧ _ := by simpa [Server.sendInit] using initialized
      exact (found rfl).elim
  | created suffix stream =>
      obtain ⟨-, initialized⟩ := Option.ite_none_right_eq_some.mp initialized
      cases stream with
      | false =>
          obtain ⟨rfl, rfl, rfl⟩ : _ ∧ _ ∧ _ := by simpa using initialized
          exact (found rfl).elim
      | true =>
          obtain ⟨rfl, rfl, rfl⟩ : _ ∧ _ ∧ _ := by simpa using initialized
          exact ⟨_, rfl, sound.deleteTemp.isOpen_create _, by simp [Stdio.fdopen, Stdio.create],
            by simp [Stdio.fdopen, Stdio.create]⟩

theorem onTrack_of_sendInit [DecidableEq ι] {contents : ι → Bytes} {loading next : Loading ι}
    {client : ι} {temp : Temp} (inv : loading.Sound contents)
    (moved : machine.step loading (.serve client (.temp temp)) = some next) :
    next.OnTrack client := by
  obtain ⟨⟨server, files, loader⟩, served, moved⟩ := Option.bind_eq_some_iff.mp moved
  obtain ⟨-, moved⟩ := Option.ite_none_right_eq_some.mp moved
  obtain rfl := Option.some.inj moved
  cases phase : (loading.loaders client).phase with
  | sendData | loadFile | returned => simp [Loader.serve, phase] at served
  | sendInit =>
      simp only [Loader.serve, phase] at served
      obtain ⟨⟨after, left, path⟩, initialized, result⟩ := Option.map_eq_some_iff.mp served
      obtain ⟨rfl, rfl, rfl⟩ : _ ∧ _ ∧ _ := by simpa using result
      by_cases empty : path = []
      · exact .returned false (by
          cases waits : (loading.loaders client).waiting <;>
            simp [Loader.proceed, empty])
      · obtain ⟨stream, rfl, isOpen, named, new⟩ :=
          receiving_of_created inv.server initialized empty
        cases waits : (loading.loaders client).waiting with
        | false => exact .returned false (by simp [Loader.proceed_of_timeout, waits])
        | true =>
            refine .sending path (loading.loaders client).content stream 0
              ⟨?_, rfl, isOpen, named, ?_⟩
            · simp [Loader.proceed_of_waiting, waits, empty]
            · simp [Loader.proceed_of_waiting, waits, new]

/-- A client is as far as before when the server, the files and its own call are. -/
theorem OnTrack.of_same {loading next : Loading ι} {client : ι} (track : loading.OnTrack client)
    (server : next.server = loading.server) (files : next.files = loading.files)
    (phase : (next.loaders client).phase = (loading.loaders client).phase)
    (content : (next.loaders client).content = (loading.loaders client).content) :
    next.OnTrack client := by
  cases track with
  | sending path rest stream block receiving =>
      obtain ⟨sending, current, isOpen, named, held⟩ := receiving
      rw [← phase] at sending
      rw [← server] at current
      rw [← files] at isOpen named held
      rw [← content] at held
      exact .sending path rest stream block ⟨sending, current, isOpen, named, held⟩
  | loading path ready delivered =>
      rw [← phase] at ready
      rw [Delivered, ← files, ← content] at delivered
      exact .loading path ready delivered
  | returned result ended =>
      rw [← phase] at ended
      exact .returned result ended

theorem OnTrack.update [DecidableEq ι] {loading : Loading ι} {client other : ι} {loader : Loader}
    (track : loading.OnTrack client)
    (same : other = client → loader.phase = (loading.loaders other).phase ∧
      loader.content = (loading.loaders other).content) :
    OnTrack { loading with loaders := Function.update loading.loaders other loader } client := by
  by_cases own : other = client
  · obtain ⟨phase, content⟩ := same own
    subst own
    exact track.of_same rfl rfl (by simpa using phase) (by simpa using content)
  · exact track.of_same rfl rfl (by simp [Function.update_of_ne (Ne.symm own)])
      (by simp [Function.update_of_ne (Ne.symm own)])

theorem OnTrack.loaded [DecidableEq ι] {loading next : Loading ι} {client other : ι}
    {result : Bool} (track : loading.OnTrack client)
    (moved : machine.step loading (.serve other (.loaded result)) = some next) :
    next.OnTrack client := by
  obtain ⟨⟨server, files, loader⟩, served, moved⟩ := Option.bind_eq_some_iff.mp moved
  obtain ⟨-, moved⟩ := Option.ite_none_right_eq_some.mp moved
  obtain rfl := Option.some.inj moved
  cases phase : (loading.loaders other).phase with
  | sendInit | sendData | returned => simp [Loader.serve, phase] at served
  | loadFile path =>
      simp only [Loader.serve, phase] at served
      obtain ⟨rfl, rfl, rfl⟩ : _ ∧ _ ∧ _ := by simpa using served
      by_cases own : other = client
      · subst own
        cases waits : (loading.loaders other).waiting
        · exact .returned false (by simp [Loader.proceed, waits])
        · exact .returned result (by simp [Loader.proceed, waits])
      · exact track.update fun same => (own same).elim

theorem OnTrack.step [DecidableEq ι] {loading next : Loading ι} {client : ι}
    {event : LoadEvent ι} (track : loading.OnTrack client) (quiet : ¬event.Disturbs client)
    (moved : machine.step loading event = some next) : next.OnTrack client := by
  cases event with
  | status =>
      obtain rfl := Option.some.inj moved
      exact track
  | timeout other =>
      obtain rfl := Option.some.inj moved
      exact track.update fun _ => ⟨rfl, rfl⟩
  | serve other outcome =>
      cases outcome with
      | loaded => exact track.loaded moved
      | temp =>
          obtain rfl := not_not.mp quiet
          have ⟨_, served, _⟩ := Option.bind_eq_some_iff.mp moved
          cases track with
          | sending path rest stream block receiving =>
              simp [Loader.serve, receiving.phase] at served
          | loading path phase | returned result phase => simp [Loader.serve, phase] at served
      | wrote =>
          obtain rfl := not_not.mp quiet
          have ⟨_, served, _⟩ := Option.bind_eq_some_iff.mp moved
          cases track with
          | sending path rest stream block receiving => exact receiving.serve moved
          | loading path phase | returned result phase => simp [Loader.serve, phase] at served

/-- If no other client starts or continues an upload between the `SendInit` request of a client
and its `LoadFile` request, then the file that the client has loaded is there and holds its
content. -/
theorem delivered_of_undisturbed [DecidableEq ι] (curBlock : Int32)
    (directory : Bytes → Option Nat) (content : Nat → Bytes) (next : Nat)
    (names contents : ι → Bytes) {front middle : List (LoadEvent ι)}
    {before began final : Loading ι} {client : ι} {temp : Temp} {path : Bytes}
    (reached : machine.run (start curBlock directory content next names contents) front =
      some before)
    (begins : machine.step before (.serve client (.temp temp)) = some began)
    (continued : machine.run began middle = some final)
    (undisturbed : ∀ event ∈ middle, ¬event.Disturbs client)
    (ready : (final.loaders client).phase = .loadFile path) :
    final.files.read path = some (contents client) := by
  have sound_start : (start curBlock directory content next names contents).Sound contents :=
    { server := ⟨fun _ used => by rcases used with opened | closed <;> contradiction,
        fun _ file => by cases file⟩
      content := fun _ => rfl }
  have sound := Machine.invariant_of_run sound_step sound_start reached
  have sound_final : final.Sound contents :=
    Machine.invariant_of_run sound_step (sound_step sound begins) continued
  have tracked := (Machine.Guarded.of_forall undisturbed began).always
    (fun track quiet moved => OnTrack.step track quiet moved) (onTrack_of_sendInit sound begins)
  have track : final.OnTrack client :=
    Machine.always_iff.mp tracked middle final List.prefix_rfl continued
  cases track with
  | sending path rest stream block receiving =>
      rw [receiving.phase] at ready
      cases ready
  | loading path phase delivered =>
      obtain rfl := LoadPhase.loadFile.inj (phase.symm.trans ready)
      rwa [Delivered, sound_final.content] at delivered
  | returned result phase =>
      rw [phase] at ready
      cases ready

/-- The files of two clients. -/
def twoNames (second : Bool) : Bytes := if second then ascii "/b.nc" else ascii "/a.nc"

/-- What the files of the two clients hold. -/
def twoContents (second : Bool) : Bytes := if second then ascii "G1" else ascii "G0"

/-- Two clients about to upload a file each, where no path is taken. -/
def two : Loading Bool := start 0 (fun _ => none) (fun _ => []) 0 twoNames twoContents

/-- A first upload, while the second client only asks for the state. -/
theorem delivered_of_first :
    ∃ final, machine.run two [.serve false (.temp (.created (ascii "000000") true)),
        .status true, .serve false (.wrote 2)] = some final ∧
      final.files.read (ascii "/tmp/CncRemotea000000") = some (ascii "G0") := by
  obtain ⟨began, final, begins, continued, ready⟩ : ∃ began final,
      machine.step two (.serve false (.temp (.created (ascii "000000") true))) = some began ∧
      machine.run began [.status true, .serve false (.wrote 2)] = some final ∧
      (final.loaders false).phase = .loadFile (ascii "/tmp/CncRemotea000000") :=
    ⟨_, _, rfl, rfl, rfl⟩
  refine ⟨final, Machine.run_cons_eq_some.mpr ⟨began, begins, continued⟩, ?_⟩
  have reached : machine.run two [] = some two := rfl
  exact delivered_of_undisturbed 0 _ _ 0 twoNames twoContents reached begins continued
    (by simp [LoadEvent.Disturbs]) ready

/-- The second client starts before the first one sends its block, which is accepted and goes to
the file of the second one; the file of the first one is gone. -/
theorem not_delivered_of_shared :
    ¬∀ (curBlock : Int32) (directory : Bytes → Option Nat) (content : Nat → Bytes) (next : Nat)
        (names contents : Bool → Bytes) (events : List (LoadEvent Bool)),
      machine.Always (fun loading => ∀ client path,
          (loading.loaders client).phase = .loadFile path →
            loading.files.read path = some (contents client))
        (start curBlock directory content next names contents) events := by
  intro always
  obtain ⟨final, execution, ready, gone⟩ : ∃ final,
      machine.run two [.serve false (.temp (.created (ascii "000000") true)),
        .serve true (.temp (.created (ascii "000001") true)), .serve false (.wrote 2)] =
          some final ∧
      (final.loaders false).phase = .loadFile (ascii "/tmp/CncRemotea000000") ∧
      final.files.read (ascii "/tmp/CncRemotea000000") = none := ⟨_, rfl, rfl, rfl⟩
  have delivered := Machine.always_iff.mp (always 0 _ _ 0 twoNames twoContents _) _ final
    List.prefix_rfl execution
    false _ ready
  rw [gone] at delivered
  cases delivered

end Loading

end CncRemote
