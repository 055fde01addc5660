import CncRemote.EdingCnc

/-!
# Previews of the EdingCNC server

A client asks for a preview of the loaded program in batches until it gets an empty array.
`previewed_iff` says what the graph has to look like for the client to obtain all of its points.
-/

namespace CncRemote

namespace GraphPoint

/-- The entry is a point that is drawn. -/
def drawable (point : GraphPoint) : Bool := (EdingCncServer.previewType point.type).isSome

/-- The origin after an entry of the graph, given the one before it. -/
def origin (offset : Axes Double) (point : GraphPoint) : Axes Double :=
  if point.type = .originOffset then point.pos else offset

end GraphPoint

namespace EdingCncServer

section Draw

variable (add : Double → Double → Double)

/-- The points of a graph with an origin that is carried on. -/
def draw (offset : Axes Double) : List GraphPoint → List PreviewAxes
  | [] => []
  | point :: points =>
      match previewType point.type with
      | some type =>
          ⟨⟨fun ct => add (point.pos.array ct) (offset.array ct)⟩, type.code⟩ :: draw offset points
      | none => draw (point.origin offset) points

/-- The points of a graph that a client is meant to obtain: they have no offset before the first
origin. -/
def path : List GraphPoint → List PreviewAxes
  | [] => []
  | point :: points =>
      match previewType point.type with
      | some type => ⟨point.pos, type.code⟩ :: path points
      | none => if point.type = .originOffset then draw add point.pos points else path points

variable {add} {offset : Axes Double}

theorem origin_of_drawn {point : GraphPoint} {type : PreviewType}
    (drawn : previewType point.type = some type) : point.origin offset = offset := by
  refine if_neg fun origin => ?_
  rw [origin] at drawn
  cases drawn

theorem draw_append (left right : List GraphPoint) :
    draw add offset (left ++ right) =
      draw add offset left ++ draw add (left.foldl GraphPoint.origin offset) right := by
  induction left generalizing offset with
  | nil => rfl
  | cons point left ih =>
      cases drawn : previewType point.type with
      | some type =>
          simp only [List.cons_append, draw, drawn, List.foldl_cons, origin_of_drawn drawn]
          rw [ih]
      | none =>
          simp only [List.cons_append, draw, drawn, List.foldl_cons]
          exact ih

theorem length_draw (points : List GraphPoint) :
    (draw add offset points).length = points.countP GraphPoint.drawable := by
  induction points generalizing offset with
  | nil => rfl
  | cons point points ih =>
      cases drawn : previewType point.type with
      | some type =>
          rw [List.countP_cons_of_pos (by simp [GraphPoint.drawable, drawn])]
          simp only [draw, drawn, List.length_cons, ih]
      | none =>
          rw [List.countP_cons_of_neg (by simp [GraphPoint.drawable, drawn])]
          simp only [draw, drawn, ih]

theorem length_path (points : List GraphPoint) :
    (path add points).length = points.countP GraphPoint.drawable := by
  induction points with
  | nil => rfl
  | cons point points ih =>
      cases drawn : previewType point.type with
      | some type =>
          rw [List.countP_cons_of_pos (by simp [GraphPoint.drawable, drawn])]
          simp only [path, drawn, List.length_cons, ih]
      | none =>
          rw [List.countP_cons_of_neg (by simp [GraphPoint.drawable, drawn])]
          simp only [path, drawn]
          split
          · exact length_draw points
          · exact ih

/-- The origin that the graph begins with moves no point before the first origin of its own. -/
def Unmoved (add : Double → Double → Double) (offset : Axes Double) (points : List GraphPoint) :
    Prop :=
  ∀ front point back, points = front ++ point :: back →
    (∀ other ∈ front, other.type ≠ .originOffset) → point.drawable = true →
      ∀ ct, add (point.pos.array ct) (offset.array ct) = point.pos.array ct

theorem unmoved_cons_iff {point : GraphPoint} {points : List GraphPoint} :
    Unmoved add offset (point :: points) ↔
      (point.drawable = true → ∀ ct, add (point.pos.array ct) (offset.array ct) =
        point.pos.array ct) ∧
      (point.type ≠ .originOffset → Unmoved add offset points) := by
  constructor
  · intro unmoved
    refine ⟨unmoved [] point points rfl (by simp), fun stays front other back split before => ?_⟩
    exact unmoved (point :: front) other back (by rw [split, List.cons_append])
      (List.forall_mem_cons.mpr ⟨stays, before⟩)
  · rintro ⟨first, rest⟩ front other back split before
    cases front with
    | nil =>
        obtain ⟨rfl, -⟩ := List.cons.inj split
        exact first
    | cons head front =>
        obtain ⟨rfl, tail⟩ := List.cons.inj split
        obtain ⟨stays, before⟩ := List.forall_mem_cons.mp before
        exact rest stays front other back tail before

/-- A graph is drawn as it should be exactly when the origin that it begins with moves no point. -/
theorem draw_eq_path_iff (points : List GraphPoint) :
    draw add offset points = path add points ↔ Unmoved add offset points := by
  induction points with
  | nil => exact iff_of_true rfl fun _ _ _ split => by simp at split
  | cons point points ih =>
      rw [unmoved_cons_iff, ← ih]
      cases drawn : previewType point.type with
      | some type =>
          have stays : point.type ≠ .originOffset := by
            intro origin
            rw [origin] at drawn
            cases drawn
          have moved : (⟨fun ct => add (point.pos.array ct) (offset.array ct)⟩ : Axes Double) =
              point.pos ↔ ∀ ct, add (point.pos.array ct) (offset.array ct) = point.pos.array ct :=
            ⟨fun same ct => congrFun (congrArg Axes.array same) ct,
              fun same => congrArg Axes.mk (funext same)⟩
          simp [draw, path, GraphPoint.drawable, drawn, stays, moved]
      | none =>
          by_cases origin : point.type = .originOffset
          · simp only [draw, path, GraphPoint.drawable, drawn, GraphPoint.origin, if_pos origin]
            simp [origin]
          · simp [draw, path, GraphPoint.drawable, drawn, GraphPoint.origin, origin]

theorem getPreviewLoop_eq (rounds : Nat) (offset : Axes Double) (fifo : List GraphPoint) :
    getPreviewLoop add rounds offset fifo =
      (draw add offset (fifo.take rounds), (fifo.take rounds).foldl GraphPoint.origin offset,
        fifo.drop rounds) := by
  induction rounds generalizing offset fifo with
  | zero => simp [getPreviewLoop, draw]
  | succ rounds ih =>
      cases fifo with
      | nil => rfl
      | cons point fifo =>
          rw [List.take_succ_cons, List.drop_succ_cons, List.foldl_cons, getPreviewLoop]
          cases drawn : previewType point.type with
          | some type => simp only [draw, drawn, ih, origin_of_drawn drawn]
          | none =>
              simp only [draw, drawn, ih]
              rfl

end Draw

section Session

variable (add : Double → Double → Double)

/-- How many entries of the graph a call of `GetPreview` reads. -/
def rounds (server : EdingCncServer) : Nat := server.recSize.toInt.toNat

/-- The array that a call of `GetPreview` returns, after as many calls as the index says. -/
def batch (server : EdingCncServer) (index : Nat) : List PreviewAxes :=
  draw add ((server.fifo.take (index * server.rounds)).foldl GraphPoint.origin server.graphOffset)
    ((server.fifo.drop (index * server.rounds)).take server.rounds)

/-- What a client obtains that asks until it gets an empty array: no array is too long, and those
before the first empty one make up the points. -/
def Obtained (size : Nat) (points : List PreviewAxes) (arrays : List (List PreviewAxes)) : Prop :=
  (∀ array ∈ arrays, array.length ≤ size) ∧
    ∀ front back, arrays = front ++ [] :: back → [] ∉ front → front.flatten = points

/-- After a request to start a preview, the calls of `GetPreview` return the points of the graph,
whatever other requests come between them. -/
def Previewed (server : EdingCncServer) (size : UInt32) : Prop :=
  ∀ calls, (∀ other, .startPreview other ∉ calls) →
    ∀ final ∈ (machine add).run server (.startPreview size :: calls),
      Obtained size.toNat (path add server.fifo) (final.previews.drop server.previews.length)

/-- Each run of entries that a call reads while there are points left has a point and not too many,
and the old origin moves no point. -/
structure Suits (server : EdingCncServer) (size : UInt32) : Prop where
  batches : ∀ front back, server.fifo = front ++ back → server.rounds ∣ front.length →
    0 < back.countP GraphPoint.drawable →
      0 < (back.take server.rounds).countP GraphPoint.drawable ∧
        (back.take server.rounds).countP GraphPoint.drawable ≤ size.toNat
  unmoved : Unmoved add server.graphOffset server.fifo

/-- The call reads the graph. -/
def reads : ServerCall → Bool
  | .getPreview => true
  | _ => false

/-- The state after a number of calls of `GetPreview`. -/
structure Read (server : EdingCncServer) (count : Nat) (next : EdingCncServer) : Prop where
  recSize : next.recSize = server.recSize
  graphOffset : next.graphOffset =
    (server.fifo.take (count * server.rounds)).foldl GraphPoint.origin server.graphOffset
  fifo : next.fifo = server.fifo.drop (count * server.rounds)
  previews : next.previews = server.previews ++ (List.range count).map (batch add server)

variable {add} {server next : EdingCncServer} {count : Nat}

theorem Read.getPreview (read : Read add server count next) :
    Read add server (count + 1) (next.getPreview add) := by
  have rounds : next.recSize.toInt.toNat = server.rounds := by
    rw [read.recSize, EdingCncServer.rounds]
  refine ⟨read.recSize, ?_, ?_, ?_⟩
  all_goals
    simp only [EdingCncServer.getPreview, getPreviewLoop_eq, rounds, read.graphOffset, read.fifo,
      read.previews]
  · rw [← List.foldl_append, ← List.take_add, Nat.succ_mul]
  · rw [List.drop_drop, Nat.succ_mul]
  · rw [List.range_succ, List.map_append, List.append_assoc]
    rfl

theorem Read.handle (read : Read add server count next) {call : ServerCall}
    (other : reads call = false) : Read add server count (handle add call next) := by
  cases call with
  | getPreview => cases other
  | home axes =>
      rw [EdingCncServer.handle, home]
      split <;> exact ⟨read.recSize, read.graphOffset, read.fifo, read.previews⟩
  | _ => exact ⟨read.recSize, read.graphOffset, read.fifo, read.previews⟩

/-- A run reads the graph as often as it calls `GetPreview`. -/
theorem Read.run (read : Read add server count next) (calls : List ServerCall) :
    ∃ final, (machine add).run next calls = some final ∧
      Read add server (count + calls.countP reads) final := by
  induction calls generalizing next count with
  | nil => exact ⟨next, rfl, read⟩
  | cons call calls ih =>
      cases kind : reads call with
      | false =>
          obtain ⟨final, rest, read⟩ := ih (read.handle kind)
          refine ⟨final, Machine.run_cons_eq_some.mpr ⟨_, rfl, rest⟩, ?_⟩
          rwa [List.countP_cons_of_neg (by simp [kind])]
      | true =>
          have same : call = .getPreview := by
            revert kind
            cases call <;> simp [reads]
          subst same
          obtain ⟨final, rest, read⟩ := ih read.getPreview
          refine ⟨final, Machine.run_cons_eq_some.mpr ⟨_, rfl, rest⟩, ?_⟩
          rwa [List.countP_cons_of_pos rfl, ← Nat.add_assoc, Nat.add_right_comm]

/-- What a client has obtained after a request to start a preview and some others. -/
theorem run_startPreview (server : EdingCncServer) (size : UInt32) (calls : List ServerCall) :
    ∃ final, (machine add).run server (.startPreview size :: calls) = some final ∧
      final.previews.drop server.previews.length =
        (List.range (calls.countP reads)).map (batch add server) := by
  have nothing : Read add server 0 server := by
    refine ⟨rfl, ?_, ?_, ?_⟩ <;> simp
  obtain ⟨final, runs, read⟩ := nothing.run (.startPreview size :: calls)
  refine ⟨final, runs, ?_⟩
  rw [read.previews, List.drop_left, Nat.zero_add, List.countP_cons_of_neg (by simp [reads])]

theorem countP_reads (count : Nat) :
    (List.replicate count ServerCall.getPreview).countP reads = count := by
  simp [List.countP_replicate, reads]

theorem previewed_iff_obtained (server : EdingCncServer) (size : UInt32) :
    Previewed add server size ↔ ∀ count, Obtained size.toNat (path add server.fifo)
      ((List.range count).map (batch add server)) := by
  constructor
  · intro previewed count
    obtain ⟨final, runs, previews⟩ :=
      @run_startPreview add server size (List.replicate count .getPreview)
    rw [countP_reads] at previews
    rw [← previews]
    exact previewed _ (by simp) final runs
  · intro obtained calls _ final runs
    obtain ⟨_, runs', previews⟩ := @run_startPreview add server size calls
    obtain rfl := Option.some.inj (runs'.symm.trans runs)
    rw [previews]
    exact obtained _

theorem flatten_batches (server : EdingCncServer) (count : Nat) :
    ((List.range count).map (batch add server)).flatten =
      draw add server.graphOffset (server.fifo.take (count * server.rounds)) := by
  induction count with
  | zero => simp [draw]
  | succ count ih =>
      rw [List.range_succ, List.map_append, List.flatten_append, ih, Nat.succ_mul, List.take_add,
        draw_append]
      simp [batch]

theorem split_batches {front back : List (List PreviewAxes)}
    (split : (List.range count).map (batch add server) = front ++ [] :: back) :
    front = (List.range front.length).map (batch add server) ∧
      batch add server front.length = [] := by
  have within : front.length < count := by
    have lengths := congrArg List.length split
    simp at lengths
    omega
  constructor
  · have front_eq := congrArg (List.take front.length) split
    rw [List.take_left, ← List.map_take, List.take_range, min_eq_left within.le] at front_eq
    exact front_eq.symm
  · have middle := congrArg (·[front.length]?) split
    simpa [within] using middle

theorem flatten_eq_draw {index : Nat}
    (done : (server.fifo.drop (index * server.rounds)).countP GraphPoint.drawable = 0) :
    ((List.range index).map (batch add server)).flatten =
      draw add server.graphOffset server.fifo := by
  have rest (offset : Axes Double) :
      draw add offset (server.fifo.drop (index * server.rounds)) = [] :=
    List.eq_nil_of_length_eq_zero ((length_draw _).trans done)
  calc ((List.range index).map (batch add server)).flatten
      = draw add server.graphOffset (server.fifo.take (index * server.rounds)) :=
        flatten_batches server index
    _ = draw add server.graphOffset (server.fifo.take (index * server.rounds) ++
          server.fifo.drop (index * server.rounds)) := by rw [draw_append, rest, List.append_nil]
    _ = draw add server.graphOffset server.fifo := by rw [List.take_append_drop]

theorem done_of_flatten {index : Nat}
    (all : ((List.range index).map (batch add server)).flatten = path add server.fifo) :
    (server.fifo.drop (index * server.rounds)).countP GraphPoint.drawable = 0 := by
  have lengths := congrArg List.length all
  rw [flatten_batches, length_draw, length_path] at lengths
  have whole := congrArg (List.countP GraphPoint.drawable)
    (List.take_append_drop (index * server.rounds) server.fifo)
  rw [List.countP_append] at whole
  omega

theorem empty_batch (server : EdingCncServer) :
    batch add server server.fifo.length = [] := by
  apply List.eq_nil_of_length_eq_zero
  rw [batch, length_draw]
  cases zero : server.rounds with
  | zero => simp
  | succ rounds =>
      rw [List.drop_eq_nil_of_le (Nat.le_mul_of_pos_right _ rounds.succ_pos)]
      rfl

theorem Suits.length_batch {size : UInt32} (suits : Suits add server size) (index : Nat) :
    (batch add server index).length ≤ size.toNat ∧
      (batch add server index = [] →
        (server.fifo.drop (index * server.rounds)).countP GraphPoint.drawable = 0) := by
  rcases Nat.eq_zero_or_pos ((server.fifo.drop (index * server.rounds)).countP
    GraphPoint.drawable) with done | left
  · refine ⟨?_, fun _ => done⟩
    rw [batch, length_draw]
    rw [← Nat.le_zero] at done
    exact ((List.take_sublist _ _).countP_le.trans done).trans (Nat.zero_le _)
  · have within : index * server.rounds ≤ server.fifo.length := by
      by_contra beyond
      rw [List.drop_eq_nil_of_le (by omega)] at left
      cases left
    obtain ⟨found, fits⟩ := suits.batches _ _
      (List.take_append_drop (index * server.rounds) server.fifo).symm
      (by rw [List.length_take_of_le within]; exact Nat.dvd_mul_left _ _) left
    refine ⟨by rwa [batch, length_draw], fun empty => ?_⟩
    rw [← @length_draw add ((server.fifo.take (index * server.rounds)).foldl GraphPoint.origin
      server.graphOffset)] at found
    exact absurd (congrArg List.length empty) (Nat.pos_iff_ne_zero.mp found)

theorem Suits.obtained {size : UInt32} (suits : Suits add server size) (count : Nat) :
    Obtained size.toNat (path add server.fifo) ((List.range count).map (batch add server)) := by
  constructor
  · exact List.forall_mem_map.mpr fun index _ => (suits.length_batch index).1
  · intro front back split _
    obtain ⟨first, empty⟩ := split_batches split
    rw [first, flatten_eq_draw ((suits.length_batch front.length).2 empty)]
    exact (draw_eq_path_iff server.fifo).mpr suits.unmoved

theorem Obtained.first {size index : Nat}
    (obtained : Obtained size (path add server.fifo)
      ((List.range (index + 1)).map (batch add server))) (empty : batch add server index = []) :
    ∃ first ≤ index, ((List.range first).map (batch add server)).flatten = path add server.fifo ∧
      (server.fifo.drop (first * server.rounds)).countP GraphPoint.drawable = 0 := by
  have member : [] ∈ (List.range (index + 1)).map (batch add server) :=
    List.mem_map.mpr ⟨index, by simp, empty⟩
  obtain ⟨front, back, split, before⟩ := List.eq_append_cons_of_mem member
  have all := obtained.2 front back split before
  obtain ⟨first, -⟩ := split_batches split
  rw [first] at all
  refine ⟨front.length, ?_, all, done_of_flatten all⟩
  have lengths := congrArg List.length split
  simp at lengths
  omega

/-- A client obtains the points of the graph exactly when the graph suits. -/
theorem suits_of_obtained {size : UInt32}
    (obtained : ∀ count, Obtained size.toNat (path add server.fifo)
      ((List.range count).map (batch add server))) : Suits add server size := by
  constructor
  · intro front back split aligned left
    obtain ⟨index, aligned⟩ := aligned
    have rest : server.fifo.drop (index * server.rounds) = back := by
      rw [split, Nat.mul_comm, ← aligned, List.drop_left]
    have fits := (obtained (index + 1)).1 (batch add server index)
      (List.mem_map.mpr ⟨index, by simp, rfl⟩)
    rw [batch, length_draw, rest] at fits
    refine ⟨Nat.pos_of_ne_zero fun none => ?_, fits⟩
    have empty : batch add server index = [] := by
      apply List.eq_nil_of_length_eq_zero
      rw [batch, length_draw, rest, none]
    obtain ⟨first, before, -, done⟩ := (obtained (index + 1)).first empty
    have inside : back.Sublist (server.fifo.drop (first * server.rounds)) := by
      rw [← rest]
      exact List.drop_sublist_drop_left _ (Nat.mul_le_mul_right _ before)
    exact left.not_ge (done ▸ inside.countP_le)
  · obtain ⟨first, -, all, done⟩ := (obtained _).first (empty_batch server)
    rw [← draw_eq_path_iff, ← all, flatten_eq_draw done]

/-- A client obtains the points of the graph exactly when the graph suits; it gets an empty array in
the end. -/
theorem previewed_iff (add : Double → Double → Double) (server : EdingCncServer) (size : UInt32) :
    (Previewed add server size ↔ Suits add server size) ∧
      ∃ count, ∀ final ∈ (machine add).run server
        (.startPreview size :: List.replicate count .getPreview),
        [] ∈ final.previews.drop server.previews.length := by
  constructor
  · rw [previewed_iff_obtained]
    exact ⟨suits_of_obtained, fun suits => suits.obtained⟩
  · refine ⟨server.fifo.length + 1, fun final runs => ?_⟩
    obtain ⟨_, runs', previews⟩ := @run_startPreview add server size
      (List.replicate (server.fifo.length + 1) .getPreview)
    obtain rfl := Option.some.inj (runs'.symm.trans runs)
    rw [previews, countP_reads]
    exact List.mem_map.mpr ⟨_, by simp, empty_batch server⟩

end Session

/-- One point is never seen while `m_recSize` is zero, as nothing sets it; and it would not be seen
behind an arc in batches of one entry either. -/
theorem not_previewed_of_hidden :
    ¬Previewed (fun left _ => left) ⟨0, ⟨fun _ => 0⟩, [⟨⟨fun _ => 1⟩, .g1⟩], [], []⟩ 1 ∧
      ¬Previewed (fun left _ => left)
        ⟨1, ⟨fun _ => 0⟩, [⟨⟨fun _ => 0⟩, .arc⟩, ⟨⟨fun _ => 1⟩, .g1⟩], [], []⟩ 1 := by
  constructor
  all_goals
    intro previewed
    obtain ⟨-, complete⟩ := previewed [.getPreview] (by simp) _ rfl
    have all := complete [] [] rfl (by simp)
    cases all

end EdingCncServer

end CncRemote
