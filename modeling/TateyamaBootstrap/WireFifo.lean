-- The wire as a queue of messages: whatever the order of the steps of writer
-- and reader, the reader obtains a prefix of what was written, and a wire that
-- is closed ends at a chunk boundary.
import TateyamaBootstrap.WireStream

open runs ring_memory

namespace tateyama_bootstrap.simple_wire

variable {T : Type} [WireHeader T]

/-! ## The invariant -/

/-- The next chunk of the job does not reach the unread bytes. -/
def Fits (s : Sys T) (j : Job T) : Prop :=
  s.wire.pushed + j.msg_length s.wire ≤ s.wire.poped + s.wire.capacity

/-- The writer goes on where the published bytes end. A closed wire may have cut
a message, and then no chunk gets past its test any more. -/
def WriterOk (s : Sys T) : Prop :=
  match s.writer with
  | .idle => s.closed = true ∨ s.wire.pushed = (stream s.sent).length
  | .wait j => s.closed = true ∨ Working s j
  | .check j => s.closed = true ∨ Working s j ∧ Fits s j
  | .store j => Working s j ∧ Fits s j
  | .publish j => Working s j ∧ Fits s j ∧
      slice s.wire.buffer s.wire.capacity s.wire.pushed (j.msg_length s.wire) =
        j.bytes.take (j.msg_length s.wire)

/-- The reader is in the middle of message `m` and has copied `top` of it. -/
structure Reading (s : Sys T) (m : Message T) (top : List UInt8) : Prop where
  message : s.sent[s.received.length]? = some m
  header : s.wire.header_received = m.header
  top : top <+: m.payload

/-- The reader has popped all before the message that it reads. -/
def ReaderOk (s : Sys T) : Prop :=
  match s.reader with
  | .idle => s.wire.poped = offset s.sent s.received.length
  | .header => ∃ m, Reading s m [] ∧ s.wire.poped = offset s.sent s.received.length ∧
      s.wire.poped + min m.bytes.length s.wire.capacity ≤ s.wire.pushed
  | .copied top length advance => ∃ m, Reading s m top ∧ top.length + length = m.payload.length ∧
      s.wire.poped + advance =
        offset s.sent s.received.length + WireHeader.size T + top.length ∧
      s.wire.poped + advance ≤ s.wire.pushed
  | .loop top length => ∃ m, Reading s m top ∧ top.length + length = m.payload.length ∧
      s.wire.poped = offset s.sent s.received.length + WireHeader.size T + top.length

def Message.parts (m : Message T) : T × List UInt8 := (m.header, m.payload)

/-- What ties the ring, the writer and the reader to the stream of bytes. -/
structure Inv (s : Sys T) : Prop where
  bounded : Bounded s.wire
  total : (stream s.sent).length < 2 ^ 64
  pushed_le : s.wire.pushed ≤ (stream s.sent).length
  unread : ∀ i, s.wire.poped ≤ i → i < s.wire.pushed →
    (stream s.sent)[i]? = some (s.wire.buffer (i % s.wire.capacity))
  boundary : Boundary s.wire.capacity s.sent s.wire.pushed
  received : s.received = (s.sent.take s.received.length).map Message.parts
  writer : WriterOk s
  reader : ReaderOk s

section Lemmas

variable {s t : Sys T} {j : Job T}

theorem Inv.received_le (h : Inv s) : s.received.length ≤ s.sent.length := by
  have hl := congrArg List.length h.received
  rw [List.length_map, List.length_take] at hl
  omega

/-- The ring holds the stream between the two counters. -/
theorem Inv.slice_eq (h : Inv s) {pos len : Nat} (hlo : s.wire.poped ≤ pos)
    (hhi : pos + len ≤ s.wire.pushed) :
    slice s.wire.buffer s.wire.capacity pos len = ((stream s.sent).drop pos).take len := by
  apply List.ext_getElem?
  intro i
  rcases Nat.lt_or_ge i len with hi | hi
  · rw [slice_getElem? _ _ _ _ _ hi, List.getElem?_take_of_lt hi, List.getElem?_drop,
      h.unread (pos + i) (by omega) (by omega)]
  · rw [List.getElem?_eq_none (by simpa using hi), List.getElem?_eq_none]
    rw [List.length_take]
    omega

theorem Working.congr (h : Working s j) (hs : t.sent = s.sent)
    (hp : t.wire.pushed = s.wire.pushed) (hc : t.wire.capacity = s.wire.capacity) :
    Working t j := by
  obtain ⟨ms, m, i, h1, h2, h3, h4, h5⟩ := h
  refine ⟨ms, m, i, hs.trans h1, ?_, ?_, ?_, h5⟩
  · rw [hp, hc]; exact h2
  · rw [hc]; exact h3
  · rw [hc]; exact h4

theorem Fits.mono (h : Fits s j) (hp : t.wire.pushed = s.wire.pushed)
    (hc : t.wire.capacity = s.wire.capacity) (hq : s.wire.poped ≤ t.wire.poped) : Fits t j := by
  unfold Fits Job.msg_length at h ⊢
  rw [hp, hc]
  omega

/-- The steps of the reader leave the writer to its place. -/
theorem WriterOk.of_reader_step (h : WriterOk s) (hw : t.writer = s.writer)
    (hcl : t.closed = s.closed) (hs : t.sent = s.sent) (hp : t.wire.pushed = s.wire.pushed)
    (hc : t.wire.capacity = s.wire.capacity) (hb : t.wire.buffer = s.wire.buffer)
    (hq : s.wire.poped ≤ t.wire.poped) : WriterOk t := by
  unfold WriterOk at h ⊢
  rw [hw, hcl]
  cases hwr : s.writer with
  | idle =>
    rw [hwr] at h
    rw [hs, hp]
    exact h
  | wait j =>
    rw [hwr] at h
    exact h.imp_right fun hk => hk.congr hs hp hc
  | check j =>
    rw [hwr] at h
    exact h.imp_right fun hk => ⟨hk.1.congr hs hp hc, hk.2.mono hp hc hq⟩
  | store j =>
    rw [hwr] at h
    exact ⟨h.1.congr hs hp hc, h.2.mono hp hc hq⟩
  | publish j =>
    rw [hwr] at h
    refine ⟨h.1.congr hs hp hc, h.2.1.mono hp hc hq, ?_⟩
    have hm : j.msg_length t.wire = j.msg_length s.wire := by
      unfold Job.msg_length
      rw [hc]
    rw [hm, hb, hp, hc]
    exact h.2.2

/-- The steps of the writer leave the reader to its place. -/
theorem ReaderOk.of_writer_step (h : ReaderOk s) (hr : t.reader = s.reader)
    (hrec : t.received = s.received) (hh : t.wire.header_received = s.wire.header_received)
    (hq : t.wire.poped = s.wire.poped) (hc : t.wire.capacity = s.wire.capacity)
    (hp : s.wire.pushed ≤ t.wire.pushed)
    (hoff : offset t.sent s.received.length = offset s.sent s.received.length)
    (hget : ∀ m, s.sent[s.received.length]? = some m → t.sent[s.received.length]? = some m) :
    ReaderOk t := by
  have hreading : ∀ m top, Reading s m top → Reading t m top := by
    intro m top hm
    refine ⟨?_, hh.trans hm.header, hm.top⟩
    rw [hrec]
    exact hget m hm.message
  unfold ReaderOk at h ⊢
  rw [hr, hrec, hq, hc, hoff]
  cases hrd : s.reader with
  | idle =>
    rw [hrd] at h
    exact h
  | header =>
    rw [hrd] at h
    obtain ⟨m, h1, h2, h3⟩ := h
    exact ⟨m, hreading m _ h1, h2, by omega⟩
  | copied top length advance =>
    rw [hrd] at h
    obtain ⟨m, h1, h2, h3, h4⟩ := h
    exact ⟨m, hreading m _ h1, h2, h3, by omega⟩
  | loop top length =>
    rw [hrd] at h
    obtain ⟨m, h1, h2, h3⟩ := h
    exact ⟨m, hreading m _ h1, h2, h3⟩

end Lemmas

/-! ## The steps of the writer -/

section Writer

variable {s t : Sys T}

/-- A step of the writer that moves nothing but its own place. -/
theorem Inv.writer_moves {w : Writer T} (h : Inv s) (hw : WriterOk { s with writer := w }) :
    Inv { s with writer := w } :=
  ⟨h.bounded, h.total, h.pushed_le, h.unread, h.boundary, h.received, hw,
    h.reader.of_writer_step rfl rfl rfl rfl rfl (Nat.le_refl _) rfl fun _ hm => hm⟩

theorem Inv.write (h : Inv s) (hw : s.writer = .idle) {m : Message T} {j : Job T}
    (hj : j.bytes = m.bytes) (hl : j.length = m.bytes.length)
    (htotal : (stream (s.sent ++ [m])).length < 2 ^ 64) :
    Inv { s with writer := .wait j, sent := s.sent ++ [m] } := by
  have hle := h.received_le
  have hpl := h.pushed_le
  have hwr := h.writer
  unfold WriterOk at hwr
  rw [hw] at hwr
  refine ⟨h.bounded, htotal, ?_, ?_, h.boundary.append m, ?_, ?_, ?_⟩
  · rw [stream_snoc, List.length_append]
    dsimp only
    omega
  · intro i h1 h2
    rw [stream_snoc, List.getElem?_append_left (Nat.lt_of_lt_of_le h2 hpl)]
    exact h.unread i h1 h2
  · dsimp only
    rw [List.take_append_of_le_length hle]
    exact h.received
  · refine hwr.imp_right fun hp => ⟨s.sent, m, 0, rfl, ?_, ?_, ?_, by rw [hl, hj]⟩
    · dsimp only
      omega
    · rw [Nat.zero_mul]
      exact m.bytes_pos
    · rw [Nat.zero_mul, List.drop_zero]
      exact hj
  · refine h.reader.of_writer_step rfl rfl rfl rfl rfl (Nat.le_refl _) (offset_append _ _ hle) ?_
    intro m' hm'
    rw [List.getElem?_append_left (List.getElem?_eq_some_iff.mp hm').1]
    exact hm'

theorem Inv.store (h : Inv s) {j : Job T} (hw : s.writer = .store j) :
    Inv { s with wire := j.store s.wire, writer := .publish j } := by
  have hwr := h.writer
  unfold WriterOk at hwr
  rw [hw] at hwr
  obtain ⟨hwork, hfits⟩ := hwr
  have hb := h.bounded
  have hlen : (j.bytes.take (j.msg_length s.wire)).length = j.msg_length s.wire := by
    obtain ⟨-, -, -, -, -, -, -, hl⟩ := hwork
    rw [List.length_take, ← hl]
    exact Nat.min_eq_left (Nat.min_le_left _ _)
  obtain ⟨buffer, he, hwritten⟩ := store_written hwork hb h.total
  rw [he]
  refine ⟨⟨hb.size_lt, hb.capacity_lt, hb.poped_le, hb.pushed_le, hb.pushed_lt⟩, h.total,
    h.pushed_le, ?_, h.boundary, h.received, ?_, ?_⟩
  · intro i h1 h2
    dsimp only at h1 h2 ⊢
    rw [hwritten.elsewhere, h.unread i h1 h2]
    -- the chunk lies after position `i`, and less than one lap after it
    intro n hn
    rw [hlen] at hn
    unfold Fits at hfits
    exact (mod_ne_mod (by omega) (by omega)).symm
  · refine ⟨hwork.congr rfl rfl rfl, hfits.mono rfl rfl (Nat.le_refl _), ?_⟩
    have hhere := hwritten.here
    rw [hlen] at hhere
    exact hhere
  · exact h.reader.of_writer_step rfl rfl rfl rfl rfl (Nat.le_refl _) rfl fun _ hm => hm

/-- After a chunk the writer goes on with the rest of its message. -/
theorem Working.next {j : Job T} (h : Working s j) (hb : Bounded s.wire) (hs : t.sent = s.sent)
    (hp : t.wire.pushed = s.wire.pushed + j.msg_length s.wire)
    (hc : t.wire.capacity = s.wire.capacity) (hpos : 0 < (j.rest s.wire).length) :
    Working t (j.rest s.wire) := by
  obtain ⟨hbytes, hlen⟩ := rest_bytes h hb
  obtain ⟨ms, m, i, h1, h2, h3, h4, h5⟩ := h
  have hmsg : j.msg_length s.wire = s.wire.capacity := by
    unfold Job.rest Job.msg_length at hpos
    unfold Job.msg_length
    dsimp only at hpos
    omega
  have hrest : (j.rest s.wire).bytes = m.bytes.drop ((i + 1) * s.wire.capacity) := by
    rw [hbytes, hmsg, h4, List.drop_drop, Nat.add_mul, Nat.one_mul]
  refine ⟨ms, m, i + 1, hs.trans h1, ?_, ?_, ?_, hlen⟩
  · rw [hp, hc, h2, hmsg, Nat.add_mul]
    omega
  · rw [hlen, hrest, List.length_drop] at hpos
    rw [hc]
    omega
  · rw [hc]
    exact hrest

theorem Inv.publish (h : Inv s) {j : Job T} (hw : s.writer = .publish j) {w : Writer T}
    (hnext : (0 < (j.rest s.wire).length ∧ w = .wait (j.rest s.wire)) ∨
      (¬ 0 < (j.rest s.wire).length ∧ w = .idle)) :
    Inv { s with
      wire := { s.wire with pushed := (s.wire.pushed + j.msg_length s.wire) % 2 ^ 64 }
      writer := w } := by
  have hwr := h.writer
  unfold WriterOk at hwr
  rw [hw] at hwr
  obtain ⟨hwork, hfits, hslice⟩ := hwr
  have hb := h.bounded
  have hadd := hwork.pushed_add
  have htotal := h.total
  have hmin : j.msg_length s.wire = min j.length s.wire.capacity := rfl
  have hple := hb.poped_le
  rw [Nat.mod_eq_of_lt (by omega)]
  refine ⟨⟨hb.size_lt, hb.capacity_lt, ?_, hfits, ?_⟩, htotal, ?_, ?_, hwork.boundary, h.received,
    ?_, ?_⟩
  · dsimp only
    omega
  · dsimp only
    omega
  · dsimp only
    omega
  · intro i h1 h2
    dsimp only at h1 h2 ⊢
    rcases Nat.lt_or_ge i s.wire.pushed with hi | hi
    · exact h.unread i h1 hi
    · have hn : i - s.wire.pushed < j.msg_length s.wire := by omega
      have hg := congrArg (fun l => l[i - s.wire.pushed]?) hslice
      rw [slice_getElem? _ _ _ _ _ hn, List.getElem?_take_of_lt hn, ← hwork.drop_pushed,
        List.getElem?_drop, Nat.add_sub_cancel' hi] at hg
      exact hg.symm
  · rcases hnext with ⟨hpos, rfl⟩ | ⟨hpos, rfl⟩
    · exact Or.inr (hwork.next hb rfl rfl rfl hpos)
    · refine Or.inr ?_
      have hz : j.length - j.msg_length s.wire = 0 := Nat.le_zero.mp (Nat.le_of_not_lt hpos)
      dsimp only
      omega
  · exact h.reader.of_writer_step rfl rfl rfl rfl rfl (Nat.le_add_right _ _) rfl fun _ hm => hm

theorem Inv.close (h : Inv s) : Inv { s with closed := true } := by
  refine ⟨h.bounded, h.total, h.pushed_le, h.unread, h.boundary, h.received, ?_, ?_⟩
  · have hwr := h.writer
    unfold WriterOk at hwr ⊢
    dsimp only
    cases hw : s.writer with
    | idle => exact Or.inl rfl
    | wait j => exact Or.inl rfl
    | check j => exact Or.inl rfl
    | store j =>
      rw [hw] at hwr
      exact hwr
    | publish j =>
      rw [hw] at hwr
      exact hwr
  · exact h.reader.of_writer_step rfl rfl rfl rfl rfl (Nat.le_refl _) rfl fun _ hm => hm

end Writer

/-! ## The steps of the reader -/

section Reader

variable {s t : Sys T}

/-- A step of the reader that moves nothing but its own place. -/
theorem Inv.reader_moves {r : Reader} (h : Inv s) (hr : ReaderOk { s with reader := r }) :
    Inv { s with reader := r } :=
  ⟨h.bounded, h.total, h.pushed_le, h.unread, h.boundary, h.received,
    h.writer.of_reader_step rfl rfl rfl rfl rfl rfl (Nat.le_refl _), hr⟩

theorem Inv.copy_header (h : Inv s) (hr : s.reader = .idle)
    (hst : WireHeader.size T ≤ s.wire.stored) :
    Inv { s with wire := s.wire.copy_header, reader := .header } := by
  have hb := h.bounded
  have hrd := h.reader
  have hsize := WireHeader.size_pos (T := T)
  unfold ReaderOk at hrd
  rw [hr] at hrd
  dsimp only at hrd
  rw [hb.stored] at hst
  obtain ⟨m, hm, hchunk⟩ := h.boundary.first_chunk
    (by rw [← hrd]; omega : offset s.sent s.received.length < s.wire.pushed) h.pushed_le
  have hhead : slice s.wire.buffer s.wire.capacity s.wire.poped (WireHeader.size T) =
      WireHeader.get_buffer m.header := by
    rw [h.slice_eq (Nat.le_refl _) (by omega), hrd, stream_drop_message hm, Message.bytes,
      List.append_assoc]
    exact List.take_left' (WireHeader.length_get_buffer m.header)
  rw [hb.copy_header, hhead, WireHeader.of_buffer_get_buffer]
  refine ⟨⟨hb.size_lt, hb.capacity_lt, hb.poped_le, hb.pushed_le, hb.pushed_lt⟩, h.total,
    h.pushed_le, h.unread, h.boundary, h.received,
    h.writer.of_reader_step rfl rfl rfl rfl rfl rfl (Nat.le_refl _), ?_⟩
  exact ⟨m, ⟨hm, rfl, List.nil_prefix⟩, hrd, by rw [← hrd] at hchunk; exact hchunk⟩

theorem Inv.read (h : Inv s) (hr : s.reader = .header) {length msg_length : Nat}
    (hl : length = (WireHeader.get_length s.wire.header_received).toNat)
    (hm : msg_length = min length s.wire.max_payload_length) :
    Inv { s with
      reader := .copied
        (s.wire.read_from_buffer (s.wire.read_address (WireHeader.size T)) msg_length)
        (length - msg_length) (WireHeader.size T + msg_length) } := by
  have hb := h.bounded
  have hsize := hb.size_lt
  have hplt := hb.pushed_lt
  have hrd := h.reader
  unfold ReaderOk at hrd
  rw [hr] at hrd
  obtain ⟨m, hread, hpop, hchunk⟩ := hrd
  rw [hread.header, ← m.length_payload] at hl
  rw [hb.max_payload_length] at hm
  rw [m.length_bytes] at hchunk
  -- the reader's first chunk is the writer's first chunk
  have hfirst : s.wire.poped + WireHeader.size T + msg_length ≤ s.wire.pushed := by omega
  have htop : s.wire.read_from_buffer (s.wire.read_address (WireHeader.size T)) msg_length =
      m.payload.take msg_length := by
    unfold SimpleWire.read_address
    have hd := stream_drop_payload hread.message (Nat.zero_le _)
    rw [Nat.add_zero, ← hpop, List.drop_zero] at hd
    rw [index_of_lt _ (by omega), read_from_buffer_eq _ hb.capacity_pos (by omega),
      h.slice_eq (by omega) hfirst, hd, List.take_append_of_le_length (by omega)]
  rw [htop]
  have hlen : (m.payload.take msg_length).length = msg_length := by
    rw [List.length_take]
    omega
  apply h.reader_moves
  refine ⟨m, ⟨hread.message, hread.header, List.take_prefix _ _⟩, ?_, ?_, ?_⟩
  · rw [hlen]
    omega
  · dsimp only
    rw [hlen, hpop]
    omega
  · dsimp only
    omega

theorem Inv.read_chunk (h : Inv s) {top : List UInt8} {length msg_length : Nat}
    (hr : s.reader = .loop top length) (hm : msg_length = min length s.wire.capacity)
    (hst : msg_length ≤ s.wire.stored) :
    Inv { s with
      reader := .copied (top ++ s.wire.read_from_buffer (s.wire.read_address 0) msg_length)
        (length - msg_length) msg_length } := by
  have hb := h.bounded
  have hple := hb.poped_le
  have hplt := hb.pushed_lt
  have hrd := h.reader
  unfold ReaderOk at hrd
  rw [hr] at hrd
  obtain ⟨m, hread, hlen, hpop⟩ := hrd
  rw [hb.stored] at hst
  have htop : top = m.payload.take top.length := List.prefix_iff_eq_take.mp hread.top
  have hchunk : s.wire.read_from_buffer (s.wire.read_address 0) msg_length =
      (m.payload.drop top.length).take msg_length := by
    unfold SimpleWire.read_address
    have hd := stream_drop_payload hread.message (n := top.length) (by omega)
    rw [← hpop] at hd
    rw [Nat.add_zero, index_of_lt _ (by omega), read_from_buffer_eq _ hb.capacity_pos (by omega),
      h.slice_eq (Nat.le_refl _) (by omega), hd, List.take_append_of_le_length]
    rw [List.length_drop]
    omega
  have hnew : top ++ (m.payload.drop top.length).take msg_length =
      m.payload.take (top.length + msg_length) := by
    rw [List.take_add, ← htop]
  rw [hchunk, hnew]
  have hnlen : (m.payload.take (top.length + msg_length)).length = top.length + msg_length := by
    rw [List.length_take]
    omega
  apply h.reader_moves
  refine ⟨m, ⟨hread.message, hread.header, List.take_prefix _ _⟩, ?_, ?_, ?_⟩
  · rw [hnlen]
    omega
  · dsimp only
    rw [hnlen, hpop]
    omega
  · dsimp only
    omega

theorem Inv.advance (h : Inv s) {top : List UInt8} {length advance : Nat}
    (hr : s.reader = .copied top length advance) {r : Reader} {received : List (T × List UInt8)}
    (hnext : (0 < length ∧ r = .loop top length ∧ received = s.received) ∨
      (¬ 0 < length ∧ r = .idle ∧
        received = s.received ++ [(s.wire.header_received, top)])) :
    Inv { s with
      wire := { s.wire with poped := (s.wire.poped + advance) % 2 ^ 64 }
      reader := r, received := received } := by
  have hb := h.bounded
  have hple := hb.pushed_le
  have hplt := hb.pushed_lt
  have hrd := h.reader
  unfold ReaderOk at hrd
  rw [hr] at hrd
  obtain ⟨m, hread, hlen, hpop, hle⟩ := hrd
  rw [Nat.mod_eq_of_lt (by omega)]
  have hbounded : Bounded { s.wire with poped := s.wire.poped + advance } :=
    ⟨hb.size_lt, hb.capacity_lt, hle, by dsimp only; omega, hplt⟩
  have hunread : ∀ i, s.wire.poped + advance ≤ i → i < s.wire.pushed →
      (stream s.sent)[i]? = some (s.wire.buffer (i % s.wire.capacity)) :=
    fun i h1 h2 => h.unread i (by omega) h2
  have hwriter := h.writer.of_reader_step (t := { s with
    wire := { s.wire with poped := s.wire.poped + advance }, reader := r, received := received })
    rfl rfl rfl rfl rfl rfl (Nat.le_add_right _ _)
  rcases hnext with ⟨-, rfl, rfl⟩ | ⟨hz, rfl, rfl⟩
  · refine ⟨hbounded, h.total, h.pushed_le, hunread, h.boundary, h.received, hwriter, ?_⟩
    exact ⟨m, ⟨hread.message, hread.header, hread.top⟩, hlen, hpop⟩
  · have hall : top = m.payload := hread.top.eq_of_length (by omega)
    have hk : (s.received ++ [(s.wire.header_received, top)]).length = s.received.length + 1 := by
      rw [List.length_append, List.length_singleton]
    refine ⟨hbounded, h.total, h.pushed_le, hunread, h.boundary, ?_, hwriter, ?_⟩
    · dsimp only
      rw [hk, List.take_add_one, hread.message, Option.toList_some, List.map_append, ← h.received,
        hall, hread.header]
      rfl
    · unfold ReaderOk
      dsimp only
      rw [hk, offset_succ hread.message, hpop, hall, m.length_bytes]
      omega

end Reader

/-! ## Over every run -/

theorem inv_init {capacity : Nat} (buffer : Nat → UInt8) (header : T)
    (hsize : WireHeader.size T < capacity) (hcap : capacity < 2 ^ 64) :
    Inv (Sys.init capacity buffer header) := by
  refine ⟨⟨hsize, hcap, Nat.le_refl _, Nat.zero_le _, ?_⟩, ?_, Nat.zero_le _, ?_, ?_, rfl,
    Or.inr rfl, rfl⟩
  · change 0 < 2 ^ 64
    omega
  · change 0 < 2 ^ 64
    omega
  · intro i _ hi
    exact absurd hi (Nat.not_lt_zero i)
  · exact ⟨0, 0, Nat.le_refl _, by simp [offset, stream, Sys.init], Or.inl rfl⟩

theorem inv_step {s t : Sys T} {a : Act T} (h : Inv s) (hs : step s a = some t)
    (htotal : (stream t.sent).length < 2 ^ 64) : Inv t := by
  cases a with
  | write m =>
    simp only [step] at hs
    split at hs
    · rename_i hw
      cases hs
      refine h.write hw rfl ?_ htotal
      rw [m.length_bytes, m.length_payload, Nat.add_comm]
    · cases hs
  | wait =>
    simp only [step] at hs
    split at hs
    · rename_i j hw
      split at hs
      · rename_i hc
        cases hs
        have hwr := h.writer
        unfold WriterOk at hwr
        rw [hw] at hwr
        apply h.writer_moves
        rcases hc with hroom | hcl
        · refine hwr.imp_right fun hk => ⟨hk, ?_⟩
          have hle := h.bounded.pushed_le
          rw [h.bounded.room] at hroom
          unfold Fits
          dsimp only
          omega
        · exact Or.inl hcl
      · cases hs
    · cases hs
  | check =>
    simp only [step] at hs
    split at hs
    · rename_i j hw
      have hwr := h.writer
      unfold WriterOk at hwr
      rw [hw] at hwr
      split at hs
      · rename_i hcl
        cases hs
        exact h.writer_moves (Or.inl hcl)
      · rename_i hcl
        cases hs
        exact h.writer_moves (hwr.resolve_left hcl)
    · cases hs
  | store =>
    simp only [step] at hs
    split at hs
    · rename_i j hw
      cases hs
      exact h.store hw
    · cases hs
  | publish =>
    simp only [step] at hs
    split at hs
    · rename_i j hw
      split at hs
      · rename_i hpos
        cases hs
        exact h.publish hw (Or.inl ⟨hpos, rfl⟩)
      · rename_i hpos
        cases hs
        exact h.publish hw (Or.inr ⟨hpos, rfl⟩)
    · cases hs
  | close =>
    cases hs
    exact h.close
  | copy_header =>
    simp only [step] at hs
    split at hs
    · rename_i hr
      split at hs
      · rename_i hst
        cases hs
        exact h.copy_header hr hst
      · cases hs
    · cases hs
  | read =>
    simp only [step] at hs
    split at hs
    · rename_i hr
      cases hs
      exact h.read hr rfl rfl
    · cases hs
  | read_chunk =>
    simp only [step] at hs
    split at hs
    · rename_i top length hr
      split at hs
      · rename_i hst
        cases hs
        exact h.read_chunk hr rfl hst
      · cases hs
    · cases hs
  | advance =>
    simp only [step] at hs
    split at hs
    · rename_i top length advance hr
      split at hs
      · rename_i hpos
        cases hs
        exact h.advance hr (Or.inl ⟨hpos, rfl, rfl⟩)
      · rename_i hpos
        cases hs
        exact h.advance hr (Or.inr ⟨hpos, rfl, rfl⟩)
    · cases hs

/-- Messages are only added. -/
theorem step_sent {s t : Sys T} {a : Act T} (hs : step s a = some t) :
    t.sent = s.sent ∨ ∃ m, a = .write m ∧ t.sent = s.sent ++ [m] := by
  cases a with
  | write m =>
    simp only [step] at hs
    split at hs
    · cases hs
      exact Or.inr ⟨m, rfl, rfl⟩
    · cases hs
  | close =>
    cases hs
    exact Or.inl rfl
  | store | read =>
    simp only [step] at hs
    split at hs
    · cases hs
      exact Or.inl rfl
    · cases hs
  | wait | copy_header | read_chunk =>
    simp only [step] at hs
    split at hs
    · split at hs
      · cases hs
        exact Or.inl rfl
      · cases hs
    · cases hs
  | check | publish | advance =>
    simp only [step] at hs
    split at hs
    · split at hs <;> cases hs <;> exact Or.inl rfl
    · cases hs

theorem step_total {s t : Sys T} {a : Act T} (hs : step s a = some t) :
    (stream s.sent).length ≤ (stream t.sent).length := by
  rcases step_sent hs with h | ⟨m, -, h⟩
  · rw [h]
  · rw [h, stream_snoc, List.length_append]
    exact Nat.le_add_right _ _

theorem run_inv {s t : Sys T} {acts : List (Act T)} (h : Inv s)
    (hr : RunOf step Free s acts t) (htotal : (stream t.sent).length < 2 ^ 64) : Inv t := by
  refine hr.inv (I := fun t => (stream t.sent).length < 2 ^ 64 → Inv t) (fun _ => h) ?_ htotal
  intro t a u ih _ hs hu
  exact inv_step (ih (Nat.lt_of_le_of_lt (step_total hs) hu)) hs hu

/-! ## A closed wire -/

/-- The writer has no chunk that is past its test of `closed`. -/
def Writer.halted : Writer T → Bool
  | .store _ | .publish _ => false
  | _ => true

/-- At most the chunk that was past its test when the wire was closed has been
published since. -/
def CutAfter (s t : Sys T) : Prop :=
  t.wire.pushed = s.wire.pushed ∨
    ∃ j, (s.writer = .store j ∨ s.writer = .publish j) ∧
      t.wire.pushed = s.wire.pushed + j.msg_length s.wire

/-- Where the writer can be, and what it has published, since the wire was closed. -/
structure Closing (s t : Sys T) : Prop where
  closed : t.closed = true
  capacity : t.wire.capacity = s.wire.capacity
  writer : (t.wire.pushed = s.wire.pushed ∧ (t.writer = s.writer ∨ t.writer.halted = true ∨
      ∃ j, s.writer = .store j ∧ t.writer = .publish j)) ∨
    ∃ j, (s.writer = .store j ∨ s.writer = .publish j) ∧ t.writer.halted = true ∧
      t.wire.pushed = (s.wire.pushed + j.msg_length s.wire) % 2 ^ 64

section Closing

variable {s t u : Sys T}

omit [WireHeader T] in
theorem write_in_buffer_keeps (w : SimpleWire T) (top : Nat) (src : List UInt8) :
    ∃ buffer, w.write_in_buffer top src = { w with buffer } := by
  unfold SimpleWire.write_in_buffer
  split <;> exact ⟨_, rfl⟩

theorem store_keeps (j : Job T) (w : SimpleWire T) : ∃ buffer, j.store w = { w with buffer } := by
  unfold Job.store
  cases j.head with
  | none => exact write_in_buffer_keeps w _ _
  | some header =>
    obtain ⟨b1, h1⟩ :=
      write_in_buffer_keeps w (w.index w.pushed) (WireHeader.get_buffer header)
    dsimp only
    rw [h1]
    split
    · obtain ⟨b2, h2⟩ := write_in_buffer_keeps { w with buffer := b1 } _ _
      exact ⟨b2, h2⟩
    · exact ⟨b1, rfl⟩

theorem copy_header_keeps (w : SimpleWire T) :
    w.copy_header.capacity = w.capacity ∧ w.copy_header.pushed = w.pushed := by
  unfold SimpleWire.copy_header
  split <;> exact ⟨rfl, rfl⟩

/-- A step after which the writer has no chunk in hand and `pushed_` is as before. -/
theorem Closing.halt (h : Closing s t) (hcl : u.closed = true)
    (hc : u.wire.capacity = t.wire.capacity) (hp : u.wire.pushed = t.wire.pushed)
    (hw : u.writer.halted = true) : Closing s u := by
  refine ⟨hcl, hc.trans h.capacity, ?_⟩
  rcases h.writer with ⟨h1, -⟩ | ⟨j, hj, -, h1⟩
  · exact Or.inl ⟨hp.trans h1, Or.inr (Or.inl hw)⟩
  · exact Or.inr ⟨j, hj, hw, hp.trans h1⟩

/-- A step that the writer has no part in. -/
theorem Closing.other (h : Closing s t) (hcl : u.closed = true)
    (hc : u.wire.capacity = t.wire.capacity) (hp : u.wire.pushed = t.wire.pushed)
    (hw : u.writer = t.writer) : Closing s u := by
  refine ⟨hcl, hc.trans h.capacity, ?_⟩
  rw [hp, hw]
  exact h.writer

/-- The chunk in hand is the one that was past its test when the wire was closed. -/
theorem Closing.in_hand (h : Closing s t) (hw : t.writer.halted = false) :
    t.wire.pushed = s.wire.pushed ∧ (t.writer = s.writer ∨
      ∃ j, s.writer = .store j ∧ t.writer = .publish j) := by
  rcases h.writer with ⟨hp, h1 | h1 | h1⟩ | ⟨j, -, h1, -⟩
  · exact ⟨hp, Or.inl h1⟩
  · rw [hw] at h1
    cases h1
  · exact ⟨hp, Or.inr h1⟩
  · rw [hw] at h1
    cases h1

theorem closing_step {a : Act T} (h : Closing s t) (hs : step t a = some u) : Closing s u := by
  cases a with
  | write m =>
    simp only [step] at hs
    split at hs
    · cases hs
      exact h.halt h.closed rfl rfl rfl
    · cases hs
  | wait =>
    simp only [step] at hs
    split at hs
    · split at hs
      · cases hs
        exact h.halt h.closed rfl rfl rfl
      · cases hs
    · cases hs
  | check =>
    simp only [step, h.closed] at hs
    split at hs
    · cases hs
      exact h.halt rfl rfl rfl rfl
    · cases hs
  | store =>
    simp only [step] at hs
    split at hs
    · rename_i j hw
      cases hs
      obtain ⟨hp, hin⟩ := h.in_hand (by rw [hw]; rfl)
      obtain ⟨buffer, hstore⟩ := store_keeps j t.wire
      rw [hstore]
      refine ⟨h.closed, h.capacity, Or.inl ⟨hp, Or.inr (Or.inr ?_)⟩⟩
      rcases hin with h1 | ⟨j', -, h2⟩
      · exact ⟨j, h1.symm.trans hw, rfl⟩
      · rw [hw] at h2
        cases h2
    · cases hs
  | publish =>
    simp only [step] at hs
    split at hs
    · rename_i j hw
      obtain ⟨hp, hin⟩ := h.in_hand (by rw [hw]; rfl)
      have hj : s.writer = .store j ∨ s.writer = .publish j := by
        rcases hin with h1 | ⟨j', h1, h2⟩
        · exact Or.inr (h1.symm.trans hw)
        · rw [hw] at h2
          cases h2
          exact Or.inl h1
      have hm : j.msg_length t.wire = j.msg_length s.wire := by
        unfold Job.msg_length
        rw [h.capacity]
      split at hs <;> cases hs <;>
        exact ⟨h.closed, h.capacity, Or.inr ⟨j, hj, rfl, by rw [← hp, ← hm]⟩⟩
    · cases hs
  | close =>
    cases hs
    exact h.other rfl rfl rfl rfl
  | copy_header =>
    simp only [step] at hs
    split at hs
    · split at hs
      · cases hs
        obtain ⟨hc', hp'⟩ := copy_header_keeps t.wire
        exact h.other h.closed hc' hp' rfl
      · cases hs
    · cases hs
  | read =>
    simp only [step] at hs
    split at hs
    · cases hs
      exact h.other h.closed rfl rfl rfl
    · cases hs
  | read_chunk =>
    simp only [step] at hs
    split at hs
    · split at hs
      · cases hs
        exact h.other h.closed rfl rfl rfl
      · cases hs
    · cases hs
  | advance =>
    simp only [step] at hs
    split at hs
    · split at hs <;> cases hs <;> exact h.other h.closed rfl rfl rfl
    · cases hs

theorem cutAfter_of_run (h : Inv s) (hcl : s.closed = true) {acts : List (Act T)}
    (hr : RunOf step Free s acts t) : CutAfter s t := by
  have hc : Closing s t := hr.inv ⟨hcl, rfl, Or.inl ⟨rfl, Or.inl rfl⟩⟩
    fun _ _ _ h _ hs => closing_step h hs
  have htotal := h.total
  rcases hc.writer with ⟨hp, -⟩ | ⟨j, hj, -, hp⟩
  · exact Or.inl hp
  · -- the chunk in hand is part of the stream, so the counter does not wrap
    have hwork : Working s j := by
      have hwr := h.writer
      unfold WriterOk at hwr
      rcases hj with hj | hj <;> rw [hj] at hwr <;> exact hwr.1
    have hadd := hwork.pushed_add
    have hmin : j.msg_length s.wire = min j.length s.wire.capacity := rfl
    rw [Nat.mod_eq_of_lt (by omega)] at hp
    exact Or.inr ⟨j, hj, hp⟩

end Closing

/-! ## The wire is a queue -/

/-- The bytes of the message that the reader is in the middle of. -/
def Sys.current (s : Sys T) : List UInt8 :=
  match s.reader with
  | .idle => []
  | .header => WireHeader.get_buffer s.wire.header_received
  | .copied top _ _ | .loop top _ => WireHeader.get_buffer s.wire.header_received ++ top

/-- All header and payload bytes that the reader has obtained. -/
def Sys.obtained (s : Sys T) : List UInt8 :=
  s.received.flatMap (fun p => WireHeader.get_buffer p.1 ++ p.2) ++ s.current

/-- What holds of the wire at every moment. -/
structure WireFifo (s : Sys T) : Prop where
  /-- The messages that are read are the first ones written, in order. -/
  messages : s.received = (s.sent.take s.received.length).map Message.parts
  header : s.reader ≠ .idle →
    ∃ m, s.sent[s.received.length]? = some m ∧ s.wire.header_received = m.header
  obtained : s.obtained <+: (stream s.sent).take s.wire.pushed
  poped_le : s.wire.poped ≤ s.wire.pushed
  pushed_le : s.wire.pushed ≤ s.wire.poped + s.wire.capacity
  /-- No byte that is not yet read is overwritten. -/
  unread : ∀ i, s.wire.poped ≤ i → i < s.wire.pushed →
    (stream s.sent)[i]? = some (s.wire.buffer (i % s.wire.capacity))
  /-- All of the first chunk is there when the reader copies it. -/
  first_chunk : s.reader = .header →
    s.wire.poped + WireHeader.size T + min (WireHeader.get_length s.wire.header_received).toNat
      s.wire.max_payload_length ≤ s.wire.pushed
  cut : Boundary s.wire.capacity s.sent s.wire.pushed

section Final

variable {s : Sys T}

/-- The reader has a part of the next message, and no byte that is not published. -/
theorem Inv.current (h : Inv s) :
    s.current <+: (stream s.sent).drop (offset s.sent s.received.length) ∧
      offset s.sent s.received.length + s.current.length ≤ s.wire.pushed := by
  have hrd := h.reader
  have hb := h.bounded
  have hple := hb.poped_le
  have hsize := hb.size_lt
  have hpart : ∀ m top, Reading s m top → WireHeader.get_buffer s.wire.header_received ++ top <+:
      (stream s.sent).drop (offset s.sent s.received.length) := by
    intro m top hm
    rw [stream_drop_message hm.message, hm.header, Message.bytes, List.append_assoc]
    exact (List.prefix_append_right_inj _).mpr (hm.top.trans (List.prefix_append _ _))
  have hlen := WireHeader.length_get_buffer s.wire.header_received
  unfold ReaderOk at hrd
  unfold Sys.current
  cases hr : s.reader with
  | idle =>
    rw [hr] at hrd
    dsimp only at hrd ⊢
    exact ⟨List.nil_prefix, by rw [← hrd]; simpa using hple⟩
  | header =>
    rw [hr] at hrd
    obtain ⟨m, h1, h2, h3⟩ := hrd
    have hp := hpart m [] h1
    rw [List.append_nil] at hp
    refine ⟨hp, ?_⟩
    have := m.length_bytes
    dsimp only
    rw [hlen]
    omega
  | copied top length advance =>
    rw [hr] at hrd
    obtain ⟨m, h1, -, h3, h4⟩ := hrd
    refine ⟨hpart m top h1, ?_⟩
    dsimp only
    rw [List.length_append, hlen]
    omega
  | loop top length =>
    rw [hr] at hrd
    obtain ⟨m, h1, -, h3⟩ := hrd
    refine ⟨hpart m top h1, ?_⟩
    dsimp only
    rw [List.length_append, hlen]
    omega

theorem Inv.obtained (h : Inv s) : s.obtained <+: (stream s.sent).take s.wire.pushed := by
  obtain ⟨hcur, hlen⟩ := h.current
  have hrec : s.received.flatMap (fun p => WireHeader.get_buffer p.1 ++ p.2) =
      stream (s.sent.take s.received.length) := by
    rw [h.received, List.flatMap_map, ← h.received]
    rfl
  have hsplit : stream s.sent = stream (s.sent.take s.received.length) ++
      (stream s.sent).drop (offset s.sent s.received.length) := by
    rw [stream_drop_offset, ← stream_append, List.take_append_drop]
  unfold Sys.obtained
  rw [hrec, List.prefix_take_iff, List.length_append]
  refine ⟨?_, hlen⟩
  rw [hsplit]
  exact (List.prefix_append_right_inj _).mpr hcur

theorem Inv.wireFifo (h : Inv s) : WireFifo s := by
  have hrd := h.reader
  have hb := h.bounded
  refine ⟨h.received, ?_, h.obtained, hb.poped_le, hb.pushed_le, h.unread, ?_, h.boundary⟩
  · intro hne
    unfold ReaderOk at hrd
    cases hr : s.reader with
    | idle => exact absurd hr hne
    | header | copied top length advance | loop top length =>
      rw [hr] at hrd
      obtain ⟨m, h1, -⟩ := hrd
      exact ⟨m, h1.message, h1.header⟩
  · intro hr
    unfold ReaderOk at hrd
    rw [hr] at hrd
    obtain ⟨m, h1, -, h3⟩ := hrd
    have hsize := hb.size_lt
    rw [hb.max_payload_length, h1.header, ← m.length_payload]
    have := m.length_bytes
    omega

end Final

/-- At every moment of every run that moves fewer than 2^64 bytes, the reader
has obtained a prefix of what was written, and a closed wire publishes at most
the chunk that was past its test. -/
theorem the_reader_obtains_what_was_written (capacity : Nat) (buffer : Nat → UInt8) (header : T)
    (hsize : WireHeader.size T < capacity) (hcap : capacity < 2 ^ 64) (acts : List (Act T))
    (s : Sys T) (hr : RunOf step Free (Sys.init capacity buffer header) acts s)
    (htotal : (stream s.sent).length < 2 ^ 64) :
    WireFifo s ∧ (s.closed = true → ∀ acts' t, RunOf step Free s acts' t → CutAfter s t) := by
  have h := run_inv (inv_init buffer header hsize hcap) hr htotal
  refine ⟨h.wireFifo, ?_⟩
  intro hcl acts' t hr'
  exact cutAfter_of_run h hcl hr'

/-- A request of nine bytes goes through a ring of seven in two chunks. -/
def nineByteRequest : Message MessageHeader := ⟨⟨5, 3⟩, [1, 2, 3], rfl⟩

/-- Two responses on a ring of nine bytes, the second of which crosses its end. -/
def responses : List (Message ResponseHeader) := [⟨⟨1, 2, 0⟩, [], rfl⟩, ⟨⟨3, 2, 1⟩, [7], rfl⟩]

theorem the_reader_obtains_what_was_written_on_small_rings :
    (∃ s : Sys MessageHeader, RunOf step Free (Sys.init 7 (fun _ => 0) ⟨0, 0⟩)
      [.write nineByteRequest, .wait, .check, .store, .publish, .copy_header, .read, .advance,
        .wait, .check, .store, .close, .publish, .read_chunk, .advance] s ∧
      s.received = [(⟨5, 3⟩, [1, 2, 3])] ∧ WireFifo s) ∧
    ∃ s : Sys ResponseHeader, RunOf step Free (Sys.init 9 (fun _ => 0) ⟨0, 0, 0⟩)
      (responses.flatMap fun m => [.write m, .wait, .check, .store, .publish, .copy_header, .read,
        .advance]) s ∧
      s.received = [(⟨1, 2, 0⟩, []), (⟨3, 2, 1⟩, [7])] ∧ WireFifo s := by
  refine ⟨?_, ?_⟩
  · obtain ⟨s, hr, hp⟩ := RunOf.exists_free (s := Sys.init 7 (fun _ => 0) (⟨0, 0⟩ : MessageHeader))
      (p := fun s => s.received = [(⟨5, 3⟩, [1, 2, 3])] ∧ (stream s.sent).length = 9)
      (by decide : (exec step _ [.write nineByteRequest, .wait, .check, .store, .publish,
        .copy_header, .read, .advance, .wait, .check, .store, .close, .publish, .read_chunk,
        .advance]).any _ = true)
    obtain ⟨hrec, htotal⟩ : s.received = [(⟨5, 3⟩, [1, 2, 3])] ∧ (stream s.sent).length = 9 := by
      simpa using hp
    exact ⟨s, hr, hrec, (the_reader_obtains_what_was_written 7 _ _ (by decide) (by decide) _ s hr
      (by omega)).1⟩
  · obtain ⟨s, hr, hp⟩ := RunOf.exists_free
      (s := Sys.init 9 (fun _ => 0) (⟨0, 0, 0⟩ : ResponseHeader))
      (p := fun s => s.received = [(⟨1, 2, 0⟩, []), (⟨3, 2, 1⟩, [7])] ∧
        (stream s.sent).length = 17)
      (by decide : (exec step _ (responses.flatMap fun m => [.write m, .wait, .check, .store,
        .publish, .copy_header, .read, .advance])).any _ = true)
    obtain ⟨hrec, htotal⟩ : s.received = [(⟨1, 2, 0⟩, []), (⟨3, 2, 1⟩, [7])] ∧
        (stream s.sent).length = 17 := by simpa using hp
    exact ⟨s, hr, hrec, (the_reader_obtains_what_was_written 9 _ _ (by decide) (by decide) _ s hr
      (by omega)).1⟩

end tateyama_bootstrap.simple_wire
