-- A result-set wire that its client may close at any moment. A wait for room ends when the
-- wire is closed, and the server then goes on as if there were room. Here the server calls
-- `write` without a guard, with data of any length, also longer than the buffer.
import TateyamaBootstrap.ResultSetCell

open runs ring_memory

namespace tateyama_bootstrap.resultset_wires

open simple_wire

/-! ## One wire and its client -/

/-- The offsets from the base address that `write_in_buffer` stores to. -/
def offsets (capacity top length : Nat) : List Nat :=
  if top + length ≤ capacity then (List.range length).map (top + ·)
  else
    let first_part := capacity - top
    (List.range first_part).map (top + ·) ++ List.range (length - first_part)

/-- The offsets that the next step of the writer stores to. -/
def Cell.stores (c : Cell) : List Nat :=
  match c.writer with
  | .store src => offsets c.wire.capacity (c.ring.index c.wire.pushed) src.length
  | .header =>
    offsets c.wire.capacity (c.ring.index c.wire.pushed_valid) LengthHeader.size
  | _ => []

structure Lone where
  cell : Cell
  /-- The client is in `dispose` and has copied the header. -/
  disposing : Bool
  /-- The offsets that the server has stored to. -/
  stored : List Nat

/-- A wire that has just got its buffer. -/
def Lone.init (handle capacity : Nat) (buffer : Nat → UInt8) : Lone where
  cell := ⟨Wire.fresh.attach_buffer handle capacity, buffer, ⟨[], [], 0, []⟩, .idle⟩
  disposing := false
  stored := []

inductive LoneAct
  | write (src : List UInt8)
  | flush
  /-- The server goes on in `write` or in `flush`. -/
  | writer
  | set_closed
  /-- The client has found a record and begins with `dispose`. -/
  | copy_header
  | dispose

def lone_step (s : Lone) : LoneAct → Option Lone
  | .write src =>
    match s.cell.writer with
    | .idle => some { s with cell := { s.cell with writer := .write src } }
    | _ => none
  | .flush => s.cell.flush.map fun cell => { s with cell }
  | .writer =>
    s.cell.write_step.map fun cell => { s with cell, stored := s.stored ++ s.cell.stores }
  | .set_closed => some { s with cell.wire.closed := true }
  | .copy_header =>
    if s.cell.wire.has_record = true ∧ s.disposing = false then
      some { s with cell := s.cell.copy_header, disposing := true }
    else none
  | .dispose =>
    if s.disposing = true then some { s with cell := s.cell.dispose, disposing := false }
    else none

/-! ## The law and its condition -/

/-- Every byte went into the buffer, and what is on the wire fits into it, so that `room` does
not underflow. -/
structure InBounds (s : Lone) : Prop where
  stored : ∀ i ∈ s.stored, i < s.cell.wire.capacity
  poped_le : s.cell.wire.poped ≤ s.cell.wire.pushed
  pushed_le : s.cell.wire.pushed - s.cell.wire.poped ≤ s.cell.wire.capacity
  room : s.cell.wire.room = s.cell.wire.capacity - (s.cell.wire.pushed - s.cell.wire.poped)

/-- On a closed wire the server goes on after a wait only where there is room. (A chunk is
shorter than 2^32 bytes when it is flushed, and the counters do not wrap.) -/
def Cell.RoomWhenClosed (c : Cell) : Prop :=
  match c.writer with
  | .reserve _ => (c.wire.closed = true → LengthHeader.size ≤ c.wire.room) ∧
      c.wire.pushed + LengthHeader.size < 2 ^ 64
  | .store src => (c.wire.closed = true → src.length ≤ c.wire.room) ∧
      c.wire.pushed + src.length < 2 ^ 64
  | .header => c.wire.pushed - (c.wire.pushed_valid + LengthHeader.size) < 2 ^ 32
  | _ => True

def RoomWhenClosed (s : Lone) : LoneAct → Prop
  | .writer => s.cell.RoomWhenClosed
  | _ => True

/-! ## The invariant -/

/-- Where the writer stands. A wait on a wire that is still open has found its room. -/
def Cell.Stands (c : Cell) : Prop :=
  match c.writer with
  | .idle | .write _ => c.Settled
  | .brand_new src => c.NoChunk ∧ src ≠ []
  | .reserve src => c.NoChunk ∧ src ≠ [] ∧ (c.wire.closed = false → 4 ≤ c.wire.room)
  | .room src => c.OpenChunk ∧ src ≠ []
  | .store src => c.OpenChunk ∧ src ≠ [] ∧ (c.wire.closed = false → src.length ≤ c.wire.room)
  | .push src => c.OpenChunk ∧ src ≠ [] ∧ c.Fits src.length ∧
      slice c.buffer c.wire.capacity c.wire.pushed src.length = src
  | .header => c.OpenChunk ∧ c.log.opened ≠ []
  | .publish => c.OpenChunk ∧ c.log.opened ≠ [] ∧ c.log.opened.length < 2 ^ 32 ∧
      slice c.buffer c.wire.capacity c.wire.pushed_valid 4 = bytes.encode 4 c.log.opened.length
  | .notify => c.wire.pushed = c.wire.pushed_valid ∧ c.log.opened = []
  | .crashed => False

structure LoneInv (s : Lone) : Prop where
  framed : s.cell.Framed
  stands : s.cell.Stands
  stored : ∀ i ∈ s.stored, i < s.cell.wire.capacity
  disposing : s.disposing = true →
    ∃ chunk rest, s.cell.log.pending = chunk :: rest ∧ s.cell.length = chunk.length

theorem LoneInv.inBounds {s : Lone} (h : LoneInv s) : InBounds s := by
  have hle := h.framed.pushed_le
  refine ⟨h.stored, Nat.le_trans h.framed.poped_le h.framed.valid_le, ?_, h.framed.room⟩
  omega

theorem offsets_lt {capacity top length : Nat} (htop : top < capacity)
    (hlen : length ≤ capacity) : ∀ i ∈ offsets capacity top length, i < capacity := by
  intro i hi
  unfold offsets at hi
  split at hi
  · simp only [List.mem_map, List.mem_range] at hi
    obtain ⟨j, hj, rfl⟩ := hi
    omega
  · simp only [List.mem_append, List.mem_map, List.mem_range] at hi
    rcases hi with ⟨j, hj, rfl⟩ | hi <;> omega

namespace Cell

section

variable {c c' : Cell} {src : List UInt8} {n : Nat}

theorem Framed.fits (h : Framed c) (hroom : n ≤ c.wire.room) (hlt : c.wire.pushed + n < 2 ^ 64) :
    Fits c n := by
  have hle := h.pushed_le
  have hp := Nat.le_trans h.poped_le h.valid_le
  rw [h.room] at hroom
  exact ⟨by omega, hlt⟩

theorem Framed.with_writer (h : Framed c) (writer : Writer) : Framed { c with writer } :=
  ⟨h.bounded, h.handle, h.poped_le, h.valid_le, h.chunks, h.small, h.disposed_le⟩

theorem NoChunk.with_writer (h : NoChunk c) (writer : Writer) : NoChunk { c with writer } :=
  ⟨h.continued, h.pushed, h.opened⟩

theorem OpenChunk.with_writer (h : OpenChunk c) (writer : Writer) : OpenChunk { c with writer } :=
  ⟨h.continued, h.pushed, h.bytes⟩

theorem Settled.with_writer (h : Settled c) (writer : Writer) : Settled { c with writer } :=
  h.imp (·.with_writer writer) fun ho => ⟨ho.1.with_writer writer, ho.2⟩

theorem Settled.noChunk (h : Settled c) (hc : ¬ c.wire.continued = true) : NoChunk c :=
  h.resolve_right fun ho => hc ho.1.continued

theorem Settled.openChunk (h : Settled c) (hc : c.wire.continued = true) :
    OpenChunk c ∧ c.log.opened ≠ [] := by
  refine h.resolve_left fun hn => ?_
  rw [hn.continued] at hc
  cases hc

/-! ## The steps of the server -/

/-- Room that is there on an open wire, and asked for on a closed one. -/
theorem room_of_either (hopen : c.wire.closed = false → n ≤ c.wire.room)
    (hclosed : c.wire.closed = true → n ≤ c.wire.room) : n ≤ c.wire.room := by
  cases hc : c.wire.closed with
  | false => exact hopen hc
  | true => exact hclosed hc

theorem step_write_stands (h : Framed c) (hw : Stands c) (hwr : c.writer = .write src)
    (hs : c.write_step = some c') : Framed c' ∧ Stands c' := by
  simp only [Stands, hwr] at hw
  simp only [write_step, hwr] at hs
  split at hs
  · rename_i hgo
    have hne : src ≠ [] := List.length_pos_iff.mp hgo.2
    split at hs
    · rename_i hc
      cases hs
      exact ⟨h.with_writer _, (hw.openChunk hc).1.with_writer _, hne⟩
    · rename_i hc
      cases hs
      exact ⟨h.with_writer _, (hw.noChunk hc).with_writer _, hne⟩
  · cases hs
    exact ⟨h.with_writer _, hw.with_writer _⟩

/-- A wait ends with the room there, or because the wire is closed. -/
theorem step_wait_stands (h : Framed c) (hw : Stands c)
    (hwr : c.writer = .brand_new src ∨ c.writer = .room src) (hs : c.write_step = some c') :
    Framed c' ∧ Stands c' := by
  have hroom : ∀ {n}, n ≤ c.wire.room ∨ c.wire.closed = true →
      c.wire.closed = false → n ≤ c.wire.room := by
    intro n hn hopen
    exact hn.resolve_right (by simp [hopen])
  rcases hwr with hwr | hwr
  · simp only [Stands, hwr] at hw
    simp only [write_step, hwr] at hs
    split at hs
    · rename_i hn
      cases hs
      exact ⟨h.with_writer _, hw.1.with_writer _, hw.2, hroom hn⟩
    · cases hs
  · simp only [Stands, hwr] at hw
    simp only [write_step, hwr] at hs
    split at hs
    · rename_i hn
      cases hs
      exact ⟨h.with_writer _, hw.1.with_writer _, hw.2, hroom hn⟩
    · cases hs

theorem write_step_stands (h : Framed c) (hw : Stands c) (hc : RoomWhenClosed c)
    (hs : c.write_step = some c') : Framed c' ∧ Stands c' := by
  cases hwr : c.writer with
  | idle | crashed => simp [write_step, hwr] at hs
  | write src => exact step_write_stands h hw hwr hs
  | brand_new src => exact step_wait_stands h hw (Or.inl hwr) hs
  | room src => exact step_wait_stands h hw (Or.inr hwr) hs
  | reserve src =>
    simp only [Stands, RoomWhenClosed, hwr, LengthHeader.size_eq] at hw hc
    have hfit := h.fits (room_of_either hw.2.2 hc.1) hc.2
    obtain ⟨hf, hop, rfl⟩ := h.reserve hw.1 hwr hfit hs
    exact ⟨hf, hop, hw.2.1⟩
  | store src =>
    simp only [Stands, RoomWhenClosed, hwr] at hw hc
    have hfit := h.fits (room_of_either hw.2.2 hc.1) hc.2
    obtain ⟨hf, hop, hbytes, buffer, rfl⟩ := h.store hw.1 hwr hfit hs
    exact ⟨hf, hop, hw.2.1, hfit, hbytes⟩
  | push src =>
    simp only [Stands, hwr] at hw
    obtain ⟨hop, hne, hfit, hbytes⟩ := hw
    obtain ⟨hf, hop, rfl⟩ := h.push hop hwr hfit hbytes hs
    exact ⟨hf, .inr ⟨hop, by simp [hne]⟩⟩
  | header =>
    simp only [Stands, RoomWhenClosed, hwr, LengthHeader.size_eq] at hw hc
    have hpu := hw.1.pushed
    have hlt : c.log.opened.length < 2 ^ 32 := by omega
    obtain ⟨hf, hop, hhead, buffer, rfl⟩ := h.header hw.1 hwr hlt hs
    exact ⟨hf, hop, hw.2, hlt, hhead⟩
  | publish =>
    simp only [Stands, hwr] at hw
    obtain ⟨hop, hne, hlt, hhead⟩ := hw
    obtain ⟨hf, rfl⟩ := h.publish hop hwr hne hlt hhead hs
    exact ⟨hf, rfl, rfl⟩
  | notify =>
    simp only [Stands, hwr] at hw
    simp only [write_step, hwr, Option.some.injEq] at hs
    subst hs
    exact ⟨⟨⟨h.bounded.size_lt, h.bounded.capacity_lt, h.bounded.poped_le, h.bounded.pushed_le,
      h.bounded.pushed_lt⟩, h.handle, h.poped_le, h.valid_le, h.chunks, h.small, h.disposed_le⟩,
      .inl ⟨rfl, hw.1, hw.2⟩⟩

/-- What a step stores stays in the buffer. -/
theorem stores_lt (h : Framed c) (hw : Stands c) (hc : RoomWhenClosed c) :
    ∀ i ∈ c.stores, i < c.wire.capacity := by
  have hcap : 0 < c.wire.capacity := h.bounded.capacity_pos
  have hidx : ∀ n, c.ring.index n < c.wire.capacity := fun n => Nat.mod_lt _ hcap
  intro i hi
  unfold stores at hi
  split at hi
  · rename_i src hwr
    simp only [Stands, RoomWhenClosed, hwr] at hw hc
    have hroom := room_of_either hw.2.2 hc.1
    rw [h.room] at hroom
    exact offsets_lt (hidx _) (by omega) i hi
  · exact offsets_lt (hidx _) (Nat.le_of_lt h.size_lt) i hi
  · cases hi

/-! ## The steps of the client -/

/-- The client closes the wire, or takes from it: room does not get less. -/
theorem Stands.of_client (hw : Stands c) (hwr : c'.writer = c.writer)
    (hb : c'.buffer = c.buffer) (ho : c'.log.opened = c.log.opened)
    (hco : c'.wire.continued = c.wire.continued) (hcap : c'.wire.capacity = c.wire.capacity)
    (hp : c'.wire.pushed = c.wire.pushed) (hv : c'.wire.pushed_valid = c.wire.pushed_valid)
    (hcl : c'.wire.closed = false → c.wire.closed = false) (hq : c.wire.poped ≤ c'.wire.poped)
    (hroom : c.wire.room ≤ c'.wire.room) : Stands c' := by
  have hsame : SameChunk c c' := ⟨hb, ho, hco, hcap, hp, hv⟩
  have hno := hsame.noChunk
  have hop := hsame.openChunk
  have hset := hsame.settled
  unfold Stands at hw ⊢
  rw [hwr]
  cases hcw : c.writer with
  | idle | write src =>
    rw [hcw] at hw
    exact hset hw
  | brand_new src =>
    rw [hcw] at hw
    exact ⟨hno hw.1, hw.2⟩
  | room src =>
    rw [hcw] at hw
    exact ⟨hop hw.1, hw.2⟩
  | reserve src =>
    rw [hcw] at hw
    exact ⟨hno hw.1, hw.2.1, fun h => Nat.le_trans (hw.2.2 (hcl h)) hroom⟩
  | store src =>
    rw [hcw] at hw
    exact ⟨hop hw.1, hw.2.1, fun h => Nat.le_trans (hw.2.2 (hcl h)) hroom⟩
  | push src =>
    rw [hcw] at hw
    refine ⟨hop hw.1, hw.2.1, ?_, by rw [hb, hcap, hp]; exact hw.2.2.2⟩
    obtain ⟨hfit1, hfit2⟩ := hw.2.2.1
    refine ⟨?_, ?_⟩
    · rw [hp, hcap]
      omega
    · rw [hp]
      exact hfit2
  | header =>
    rw [hcw] at hw
    exact ⟨hop hw.1, by rw [ho]; exact hw.2⟩
  | publish =>
    rw [hcw] at hw
    exact ⟨hop hw.1, by rw [hb, hcap, hv, ho]; exact hw.2⟩
  | notify =>
    rw [hcw] at hw
    dsimp only at hw ⊢
    rw [hp, hv, ho]
    exact hw
  | crashed =>
    rw [hcw] at hw
    exact hw

/-- `has_record` says that a flushed chunk is there. -/
theorem Framed.pending_of_record (h : Framed c) (hr : c.wire.has_record = true) :
    ∃ chunk rest, c.log.pending = chunk :: rest := by
  have hp := h.poped_le
  have hv := h.valid_le
  have hlt := h.pushed_lt
  apply List.exists_cons_of_ne_nil
  intro hnil
  have hlen := congrArg List.length h.chunks
  rw [hnil, length_slice] at hlen
  unfold Wire.has_record Wire.stored_valid at hr
  have hpos := of_decide_eq_true hr
  simp only [List.flatMap_nil, List.length_nil] at hlen
  omega

end

end Cell

/-! ## Over every run -/

section

variable {s t : Lone}

theorem loneInv_init {handle capacity : Nat} (buffer : Nat → UInt8) (hhandle : handle ≠ 0)
    (hsize : 4 < capacity) (hcap : capacity < 2 ^ 64) :
    LoneInv (Lone.init handle capacity buffer) := by
  refine ⟨⟨⟨hsize, hcap, Nat.le_refl _, Nat.zero_le _, Nat.two_pow_pos 64⟩, hhandle,
    Nat.le_refl _, Nat.le_refl _, rfl, ?_, Nat.le_refl _⟩, .inl ⟨rfl, rfl, rfl⟩, ?_, ?_⟩
  · intro chunk hm
    cases hm
  · intro i hi
    cases hi
  · intro h
    cases h

/-- A step of the writer leaves the oldest chunk and the header in the client's hands. -/
theorem pending_of_wrote {c c' : Cell} (h : c.Framed) (hw : Cell.Wrote c c') {chunk : List UInt8}
    {rest : List (List UInt8)} (hp : c.log.pending = chunk :: rest)
    (hlen : c.length = chunk.length) :
    ∃ chunk rest, c'.log.pending = chunk :: rest ∧ c'.length = chunk.length := by
  obtain ⟨more, hmore⟩ := hw.sent
  refine ⟨chunk, rest ++ more, ?_, ?_⟩
  · unfold Log.pending at hp ⊢
    rw [hw.disposed, ← hmore, List.drop_append_of_le_length h.disposed_le, hp, List.cons_append]
  · unfold Cell.length at hlen ⊢
    rw [hw.header]
    exact hlen

theorem loneInv_step {a : LoneAct} (h : LoneInv s) (hc : RoomWhenClosed s a)
    (hs : lone_step s a = some t) : LoneInv t := by
  obtain ⟨hf, hw, hst, hd⟩ := h
  cases a with
  | write src =>
    simp only [lone_step] at hs
    split at hs
    · rename_i hwr
      cases hs
      simp only [Cell.Stands, hwr] at hw
      exact ⟨hf.with_writer _, hw.with_writer _, hst, hd⟩
    · cases hs
  | flush =>
    obtain ⟨cell, hcell, rfl⟩ := Option.map_eq_some_iff.mp hs
    unfold Cell.flush at hcell
    split at hcell
    · rename_i hwr
      have hset := hw
      simp only [Cell.Stands, hwr] at hset
      cases hcell
      split
      · rename_i hco
        obtain ⟨hop, hne⟩ := hset.openChunk hco
        exact ⟨hf.with_writer _, ⟨hop.with_writer _, hne⟩, hst, hd⟩
      · exact ⟨hf, hw, hst, hd⟩
    · cases hcell
  | writer =>
    obtain ⟨cell, hcell, rfl⟩ := Option.map_eq_some_iff.mp hs
    obtain ⟨hf', hw'⟩ := Cell.write_step_stands hf hw hc hcell
    have hwrote := Cell.wrote_of_write_step hcell
    refine ⟨hf', hw', ?_, ?_⟩
    · intro i hi
      dsimp only at hi ⊢
      rw [hwrote.capacity]
      rcases List.mem_append.mp hi with hi | hi
      · exact hst i hi
      · exact Cell.stores_lt hf hw hc i hi
    · intro hdis
      obtain ⟨chunk, rest, hp, hlen⟩ := hd hdis
      exact pending_of_wrote hf hwrote hp hlen
  | set_closed =>
    cases hs
    refine ⟨⟨⟨hf.bounded.size_lt, hf.bounded.capacity_lt, hf.bounded.poped_le,
      hf.bounded.pushed_le, hf.bounded.pushed_lt⟩, hf.handle, hf.poped_le, hf.valid_le, hf.chunks,
      hf.small, hf.disposed_le⟩, ?_, hst, hd⟩
    refine hw.of_client rfl rfl rfl rfl rfl rfl rfl ?_ (Nat.le_refl _) (Nat.le_refl _)
    intro hopen
    cases hopen
  | copy_header =>
    simp only [lone_step] at hs
    split at hs
    · rename_i hrec
      cases hs
      obtain ⟨chunk, rest, hp⟩ := hf.pending_of_record hrec.1
      obtain ⟨hf', hlen⟩ := hf.copy_header hp
      refine ⟨hf', ?_, hst, fun _ => ⟨chunk, rest, hp, hlen⟩⟩
      exact hw.of_client rfl rfl rfl rfl rfl rfl rfl id (Nat.le_refl _) (Nat.le_refl _)
    · cases hs
  | dispose =>
    simp only [lone_step] at hs
    split at hs
    · rename_i hdis
      cases hs
      obtain ⟨chunk, rest, hp, hlen⟩ := hd hdis
      obtain ⟨hf', -, hle⟩ := hf.dispose hp hlen
      refine ⟨hf', ?_, hst, ?_⟩
      · refine hw.of_client rfl rfl rfl rfl rfl rfl rfl id hle ?_
        have hcap : s.cell.dispose.wire.capacity = s.cell.wire.capacity := rfl
        have hpush : s.cell.dispose.wire.pushed = s.cell.wire.pushed := rfl
        rw [hf.room, hf'.room, hcap, hpush]
        omega
      · intro hdis
        cases hdis
    · cases hs

/-- The server has ended a wait without room: the bytes that it takes, and the steps in which
it takes them. -/
def Overrun (s : Lone) (n : Nat) (acts : List LoneAct) : Prop :=
  s.cell.wire.room < n ∧ s.cell.wire.pushed + n < 2 ^ 64 ∧
    ((∃ src, s.cell.writer = .reserve src ∧ n = LengthHeader.size ∧ acts = [.writer]) ∨
      ∃ src, s.cell.writer = .store src ∧ n = src.length ∧ acts = [.writer, .writer])

/-- A counter that has moved by more than the room is out of bounds. -/
theorem not_inBounds_of_pushed {n : Nat} (h : s.cell.Framed) (hroom : s.cell.wire.room < n)
    (hcap : t.cell.wire.capacity = s.cell.wire.capacity)
    (hpoped : t.cell.wire.poped = s.cell.wire.poped)
    (hpushed : t.cell.wire.pushed = s.cell.wire.pushed + n) : ¬ InBounds t := by
  intro ht
  have hle := ht.pushed_le
  have hp := Nat.le_trans h.poped_le h.valid_le
  have hlap := h.pushed_le
  rw [h.room] at hroom
  omega

theorem overrun_breaks {n : Nat} {acts : List LoneAct} (h : s.cell.Framed)
    (ho : Overrun s n acts) (hs : exec lone_step s acts = some t) : ¬ InBounds t := by
  obtain ⟨hroom, hlt, ⟨src, hwr, rfl, rfl⟩ | ⟨src, hwr, rfl, rfl⟩⟩ := ho
  · simp only [exec, lone_step, Cell.write_step, hwr, Option.map_some, Option.bind_some,
      Option.some.injEq] at hs
    subst hs
    exact not_inBounds_of_pushed h hroom rfl rfl (Nat.mod_eq_of_lt hlt)
  · have hstore : s.cell.write_in_buffer s.cell.wire.pushed src (.push src) =
        { s.cell with
          buffer := (s.cell.ring.write_in_buffer (s.cell.ring.index s.cell.wire.pushed) src).buffer
          writer := .push src } := by
      unfold Cell.write_in_buffer
      simp only [Wire.get_bip_address, h.handle, ne_eq, not_false_eq_true, if_true]
    simp only [exec, lone_step, Cell.write_step, hwr, hstore, Option.map_some, Option.bind_some,
      Option.some.injEq] at hs
    subst hs
    exact not_inBounds_of_pushed h hroom rfl rfl (Nat.mod_eq_of_lt hlt)

end

/-- In every run, with data of any length and the wire closed at any moment, no byte is stored
outside the buffer and no more than the buffer holds is on the wire, when the server finds
room wherever it goes on on a closed wire. Where it does not, its next steps break this. -/
theorem writes_stay_in_bounds (handle capacity : Nat) (buffer : Nat → UInt8)
    (hhandle : handle ≠ 0) (hsize : 4 < capacity) (hcap : capacity < 2 ^ 64)
    (acts : List LoneAct) (s : Lone)
    (hr : RunOf lone_step RoomWhenClosed (Lone.init handle capacity buffer) acts s) :
    InBounds s ∧ ∀ n next t, Overrun s n next → exec lone_step s next = some t → ¬ InBounds t := by
  have h : LoneInv s :=
    hr.inv (loneInv_init buffer hhandle hsize hcap) fun _ _ _ h hc hs => loneInv_step h hc hs
  exact ⟨h.inBounds, fun _ _ _ ho hs => overrun_breaks h.framed ho hs⟩

/-- The test for `RoomWhenClosed`. -/
def roomWhenClosed (s : Lone) : LoneAct → Bool
  | .writer =>
    match s.cell.writer with
    | .reserve _ => (!s.cell.wire.closed || LengthHeader.size ≤ s.cell.wire.room) &&
        s.cell.wire.pushed + LengthHeader.size < 2 ^ 64
    | .store src => (!s.cell.wire.closed || src.length ≤ s.cell.wire.room) &&
        s.cell.wire.pushed + src.length < 2 ^ 64
    | .header => s.cell.wire.pushed - (s.cell.wire.pushed_valid + LengthHeader.size) < 2 ^ 32
    | _ => true
  | _ => true

theorem roomWhenClosed_of_test (s : Lone) (a : LoneAct) (h : roomWhenClosed s a = true) :
    RoomWhenClosed s a := by
  cases a with
  | writer =>
    simp only [roomWhenClosed] at h
    simp only [RoomWhenClosed, Cell.RoomWhenClosed]
    cases hwr : s.cell.writer with
    | reserve src | store src =>
      simp only [hwr, Bool.and_eq_true, Bool.or_eq_true, decide_eq_true_eq] at h
      exact ⟨fun hc => h.1.resolve_left (by simp [hc]), h.2⟩
    | header =>
      simp only [hwr, decide_eq_true_eq] at h
      exact h
    | _ => trivial
  | _ => trivial

def goOn (n : Nat) : List LoneAct := List.replicate n .writer

/-- Two bytes are written and flushed. The client closes the wire behind the wait of the next
write, for which there is room, and disposes of the first chunk. -/
def closedInTime : List LoneAct :=
  LoneAct.write [1, 2] :: goOn 6 ++ [LoneAct.flush] ++ goOn 3 ++ [LoneAct.write [3, 4]] ++
    goOn 4 ++ [LoneAct.set_closed, .copy_header, .dispose] ++ goOn 2

theorem writes_stay_in_bounds_closed_in_time :
    ∃ s, RunOf lone_step RoomWhenClosed (Lone.init 1 12 fun _ => 0) closedInTime s ∧
      s.cell.wire.closed = true ∧ s.cell.wire.poped = 6 ∧ s.cell.wire.pushed = 12 ∧
      InBounds s := by
  obtain ⟨s, hr, hp⟩ := RunOf.exists_of_exec (s := Lone.init 1 12 fun _ => 0)
    (p := fun s => s.cell.wire.closed ∧ s.cell.wire.poped = 6 ∧ s.cell.wire.pushed = 12)
    roomWhenClosed_of_test
    (by decide : (exec (guarded lone_step roomWhenClosed) _ closedInTime).any _ = true)
  obtain ⟨hclosed, hpoped, hpushed⟩ : s.cell.wire.closed = true ∧ s.cell.wire.poped = 6 ∧
      s.cell.wire.pushed = 12 := by simpa using hp
  exact ⟨s, hr, hclosed, hpoped, hpushed,
    (writes_stay_in_bounds 1 12 _ (by decide) (by decide) (by decide) _ s hr).1⟩

/-- The server waits in a buffer of eight bytes for the room of twenty. The client closes the
wire, and the bytes are stored up to offset 15. The room is then a number near 2^64. -/
theorem a_closed_wire_is_written_behind_its_buffer :
    ∃ s, RunOf lone_step Free (Lone.init 1 8 fun _ => 0)
      (.write (List.replicate 20 7) :: goOn 3 ++ [.set_closed] ++ goOn 3) s ∧
      s.cell.wire.capacity = 8 ∧ 15 ∈ s.stored ∧ s.cell.wire.pushed = 24 ∧
      s.cell.wire.poped = 0 ∧ s.cell.wire.room = 2 ^ 64 - 16 ∧ ¬ InBounds s := by
  obtain ⟨s, hr, hp⟩ := RunOf.exists_free (s := Lone.init 1 8 fun _ => 0)
    (p := fun s => s.cell.wire.capacity = 8 ∧ 15 ∈ s.stored ∧ s.cell.wire.pushed = 24 ∧
      s.cell.wire.poped = 0 ∧ s.cell.wire.room = 2 ^ 64 - 16)
    (by decide : (exec lone_step _ (.write (List.replicate 20 7) :: goOn 3 ++ [.set_closed] ++
      goOn 3)).any _ = true)
  obtain ⟨hcap, hmem, hpushed, hpoped, hroom⟩ : s.cell.wire.capacity = 8 ∧ 15 ∈ s.stored ∧
      s.cell.wire.pushed = 24 ∧ s.cell.wire.poped = 0 ∧ s.cell.wire.room = 2 ^ 64 - 16 := by
    simpa using hp
  refine ⟨s, hr, hcap, hmem, hpushed, hpoped, hroom, ?_⟩
  intro h
  have hlt := h.stored 15 hmem
  omega

end tateyama_bootstrap.resultset_wires
