-- The ring of `simple_wire` as a stream of bytes. Writer and reader cut a
-- message into chunks by themselves, and the reader does not wait for its
-- first chunk. The invariant ties the ring, the counters and both parties to
-- the bytes of the messages, for every interleaving.
import TateyamaBootstrap.SimpleWire

open runs ring_memory

namespace tateyama_bootstrap.simple_wire

/-! ## The ring within its bounds -/

section

variable {T : Type}

theorem index_of_lt (w : SimpleWire T) {n : Nat} (h : n < 2 ^ 64) : w.index n = n % w.capacity := by
  unfold SimpleWire.index
  rw [Nat.mod_eq_of_lt h]

/-- `write_in_buffer` writes over the positions of the ring, wrapped or not. -/
theorem write_in_buffer_written (w : SimpleWire T) (pos : Nat) (src : List UInt8)
    (hcap : 0 < w.capacity) (hlen : src.length ≤ w.capacity) :
    ∃ buffer, w.write_in_buffer (pos % w.capacity) src = { w with buffer } ∧
      Written w.buffer buffer w.capacity pos src := by
  unfold SimpleWire.write_in_buffer
  split
  · rename_i hfits
    exact ⟨_, rfl, written_memcpy w.buffer _ _ _ hfits⟩
  · exact ⟨_, rfl, written_memcpy_wrap w.buffer _ _ _ hcap hlen (by omega)⟩

theorem read_from_buffer_eq (w : SimpleWire T) {pos length : Nat} (hcap : 0 < w.capacity)
    (hlen : length ≤ w.capacity) :
    w.read_from_buffer (pos % w.capacity) length = slice w.buffer w.capacity pos length := by
  unfold SimpleWire.read_from_buffer
  split
  · rename_i hfits
    rw [slice_eq_memread w.buffer hfits]
  · rw [slice_eq_memread_wrap w.buffer hcap hlen (by omega)]

end

variable {T : Type} [WireHeader T]

/-- The counters are in order, less than one lap apart, and do not wrap. -/
structure Bounded (w : SimpleWire T) : Prop where
  size_lt : WireHeader.size T < w.capacity
  capacity_lt : w.capacity < 2 ^ 64
  poped_le : w.poped ≤ w.pushed
  pushed_le : w.pushed ≤ w.poped + w.capacity
  pushed_lt : w.pushed < 2 ^ 64

namespace Bounded

variable {w : SimpleWire T}

theorem capacity_pos (h : Bounded w) : 0 < w.capacity := Nat.zero_lt_of_lt h.size_lt

theorem stored (h : Bounded w) : w.stored = w.pushed - w.poped := by
  have h1 := h.poped_le
  have h2 := h.pushed_lt
  unfold SimpleWire.stored
  omega

theorem room (h : Bounded w) : w.room = w.capacity - (w.pushed - w.poped) := by
  have h1 := h.pushed_le
  have h2 := h.capacity_lt
  unfold SimpleWire.room
  rw [h.stored]
  omega

theorem max_payload_length (h : Bounded w) :
    w.max_payload_length = w.capacity - WireHeader.size T := by
  have h1 := h.size_lt
  have h2 := h.capacity_lt
  unfold SimpleWire.max_payload_length
  omega

end Bounded

/-- The header is read from the ring also where it straddles the end of the buffer. -/
theorem copy_header_eq {w : SimpleWire T} (hsize : WireHeader.size T < w.capacity)
    (hp : w.poped < 2 ^ 64) :
    w.copy_header = { w with
      header_received :=
        WireHeader.of_buffer (slice w.buffer w.capacity w.poped (WireHeader.size T)) } := by
  have hidx : w.index w.poped = w.poped % w.capacity := index_of_lt w hp
  unfold SimpleWire.copy_header SimpleWire.read_address
  rw [Nat.add_zero, hidx]
  split
  · rename_i hfits
    rw [slice_eq_memread w.buffer hfits]
  · rw [slice_eq_memread_wrap w.buffer (by omega) (Nat.le_of_lt hsize) (by omega)]

theorem Bounded.copy_header {w : SimpleWire T} (h : Bounded w) :
    w.copy_header = { w with
      header_received :=
        WireHeader.of_buffer (slice w.buffer w.capacity w.poped (WireHeader.size T)) } := by
  have h1 := h.poped_le
  have h2 := h.pushed_lt
  exact copy_header_eq h.size_lt (by omega)

/-! ## The stream -/

def Message.bytes (m : Message T) : List UInt8 := WireHeader.get_buffer m.header ++ m.payload

theorem Message.length_bytes (m : Message T) :
    m.bytes.length = WireHeader.size T + m.payload.length := by
  rw [Message.bytes, List.length_append, WireHeader.length_get_buffer]

theorem Message.bytes_pos (m : Message T) : 0 < m.bytes.length := by
  have := WireHeader.size_pos (T := T)
  rw [m.length_bytes]
  omega

/-- The bytes of the messages, one after the other. -/
def stream (ms : List (Message T)) : List UInt8 := ms.flatMap Message.bytes

/-- The position in the stream at which message number `k` begins. -/
def offset (ms : List (Message T)) (k : Nat) : Nat := (stream (ms.take k)).length

theorem stream_append (ms ms' : List (Message T)) : stream (ms ++ ms') = stream ms ++ stream ms' :=
  List.flatMap_append

theorem stream_snoc (ms : List (Message T)) (m : Message T) :
    stream (ms ++ [m]) = stream ms ++ m.bytes := by
  rw [stream_append]
  simp [stream]

theorem stream_drop_offset (ms : List (Message T)) (k : Nat) :
    (stream ms).drop (offset ms k) = stream (ms.drop k) := by
  have h := stream_append (ms.take k) (ms.drop k)
  rw [List.take_append_drop] at h
  rw [h]
  exact List.drop_left

theorem offset_le_length (ms : List (Message T)) (k : Nat) : offset ms k ≤ (stream ms).length := by
  have h := stream_append (ms.take k) (ms.drop k)
  rw [List.take_append_drop] at h
  rw [h, List.length_append]
  exact Nat.le_add_right _ _

theorem offset_mono (ms : List (Message T)) {k k' : Nat} (h : k ≤ k') :
    offset ms k ≤ offset ms k' := by
  have ht : ms.take k = (ms.take k').take k := by rw [List.take_take, Nat.min_eq_left h]
  unfold offset
  rw [ht]
  exact offset_le_length (ms.take k') k

theorem offset_length (ms : List (Message T)) : offset ms ms.length = (stream ms).length := by
  unfold offset
  rw [List.take_length]

theorem offset_succ {ms : List (Message T)} {k : Nat} {m : Message T} (h : ms[k]? = some m) :
    offset ms (k + 1) = offset ms k + m.bytes.length := by
  unfold offset
  rw [List.take_add_one, h, Option.toList_some, stream_snoc, List.length_append]

theorem offset_append (ms : List (Message T)) (m : Message T) {k : Nat} (h : k ≤ ms.length) :
    offset (ms ++ [m]) k = offset ms k := by
  unfold offset
  rw [List.take_append_of_le_length h]

/-- From the start of message `k` on, the stream goes on with its bytes. -/
theorem stream_drop_message {ms : List (Message T)} {k : Nat} {m : Message T}
    (h : ms[k]? = some m) :
    (stream ms).drop (offset ms k) = m.bytes ++ stream (ms.drop (k + 1)) := by
  obtain ⟨hlt, he⟩ := List.getElem?_eq_some_iff.mp h
  rw [stream_drop_offset, List.drop_eq_getElem_cons hlt, he]
  rfl

/-- From inside the payload of message `k` on, it goes on with the rest of it. -/
theorem stream_drop_payload {ms : List (Message T)} {k n : Nat} {m : Message T}
    (h : ms[k]? = some m) (hn : n ≤ m.payload.length) :
    (stream ms).drop (offset ms k + WireHeader.size T + n) =
      m.payload.drop n ++ stream (ms.drop (k + 1)) := by
  rw [Nat.add_assoc, ← List.drop_drop, stream_drop_message h, Message.bytes, List.append_assoc,
    ← WireHeader.length_get_buffer m.header, ← List.drop_drop, List.drop_left,
    List.drop_append_of_le_length hn]

/-- The end of a chunk: a message starts anew at each multiple of the capacity. -/
def Boundary (cap : Nat) (ms : List (Message T)) (p : Nat) : Prop :=
  ∃ k i, k ≤ ms.length ∧ p = offset ms k + i * cap ∧
    (i = 0 ∨ ∃ m, ms[k]? = some m ∧ i * cap < m.bytes.length)

theorem Boundary.append {cap p : Nat} {ms : List (Message T)} (h : Boundary cap ms p)
    (m : Message T) : Boundary cap (ms ++ [m]) p := by
  obtain ⟨k, i, hk, hp, hi⟩ := h
  refine ⟨k, i, ?_, ?_, ?_⟩
  · rw [List.length_append]
    omega
  · rw [offset_append ms m hk]
    exact hp
  · refine hi.imp_right ?_
    rintro ⟨m', hm', hlt⟩
    refine ⟨m', ?_, hlt⟩
    rw [List.getElem?_append_left (List.getElem?_eq_some_iff.mp hm').1]
    exact hm'

/-- A boundary past the start of a message is past its first chunk. -/
theorem Boundary.first_chunk {cap p k : Nat} {ms : List (Message T)} (h : Boundary cap ms p)
    (hlt : offset ms k < p) (hle : p ≤ (stream ms).length) :
    ∃ m, ms[k]? = some m ∧ offset ms k + min m.bytes.length cap ≤ p := by
  have hk : k < ms.length := by
    by_contra hge
    have := offset_mono ms (Nat.le_of_not_lt hge)
    rw [offset_length] at this
    omega
  have hm : ms[k]? = some ms[k] := List.getElem?_eq_getElem hk
  refine ⟨ms[k], hm, ?_⟩
  have hsucc := offset_succ hm
  obtain ⟨k', i, hk', hp, hi⟩ := h
  rcases Nat.lt_trichotomy k' k with hlt' | heq | hgt
  · -- a boundary inside an earlier message is before the start of this one
    have hmono := offset_mono ms (Nat.succ_le_of_lt hlt')
    rcases hi with rfl | ⟨m', hm', hi⟩
    · have := offset_mono ms (Nat.le_of_lt hlt')
      omega
    · have := offset_succ hm'
      simp only [Nat.succ_eq_add_one] at hmono
      omega
  · subst heq
    have hpos : 1 ≤ i := by
      by_contra h0
      obtain rfl : i = 0 := by omega
      omega
    have hmul : 1 * cap ≤ i * cap := Nat.mul_le_mul_right cap hpos
    omega
  · have hmono := offset_mono ms (Nat.succ_le_of_lt hgt)
    simp only [Nat.succ_eq_add_one] at hmono
    omega

/-! ## A write in progress -/

/-- The bytes that the job has still to write. -/
def Job.bytes (j : Job T) : List UInt8 := (j.head.elim [] WireHeader.get_buffer) ++ j.src

/-- The writer has published `i` chunks of the last message, and the job holds
the rest of it. -/
def Working (s : Sys T) (j : Job T) : Prop :=
  ∃ ms m i, s.sent = ms ++ [m] ∧ s.wire.pushed = (stream ms).length + i * s.wire.capacity ∧
    i * s.wire.capacity < m.bytes.length ∧ j.bytes = m.bytes.drop (i * s.wire.capacity) ∧
    j.length = j.bytes.length

section Working

variable {s : Sys T} {j : Job T}

theorem Working.length_pos (h : Working s j) : 0 < j.length := by
  obtain ⟨ms, m, i, -, -, hi, hb, hl⟩ := h
  rw [hl, hb, List.length_drop]
  omega

/-- The job holds the part of the stream that is not published. -/
theorem Working.drop_pushed (h : Working s j) : (stream s.sent).drop s.wire.pushed = j.bytes := by
  obtain ⟨ms, m, i, hs, hp, -, hb, -⟩ := h
  rw [hs, stream_snoc, hp, hb, List.drop_append, List.drop_of_length_le (Nat.le_add_right _ _),
    Nat.add_sub_cancel_left, List.nil_append]

theorem Working.pushed_add (h : Working s j) :
    s.wire.pushed + j.length = (stream s.sent).length := by
  have hd := congrArg List.length h.drop_pushed
  have hpos := h.length_pos
  obtain ⟨-, -, -, -, -, -, -, hl⟩ := h
  rw [List.length_drop] at hd
  omega

/-- What the next chunk ends with is a chunk boundary. -/
theorem Working.boundary (h : Working s j) :
    Boundary s.wire.capacity s.sent (s.wire.pushed + j.msg_length s.wire) := by
  obtain ⟨ms, m, i, hs, hp, hi, hb, hl⟩ := h
  have hm : s.sent[ms.length]? = some m := by simp [hs]
  have hoff : offset s.sent ms.length = (stream ms).length := by
    rw [hs, offset_append ms m (Nat.le_refl _), offset_length]
  have hrest : j.length = m.bytes.length - i * s.wire.capacity := by
    rw [hl, hb, List.length_drop]
  unfold Job.msg_length
  rcases Nat.lt_or_ge s.wire.capacity j.length with hlt | hge
  · refine ⟨ms.length, i + 1, by simp [hs], ?_, Or.inr ⟨m, hm, ?_⟩⟩
    · rw [hoff, hp, Nat.min_eq_right (Nat.le_of_lt hlt), Nat.add_mul]
      omega
    · rw [Nat.add_mul]
      omega
  · refine ⟨ms.length + 1, 0, by simp [hs], ?_, Or.inl rfl⟩
    rw [offset_succ hm, hoff, hp, Nat.min_eq_left hge, hrest]
    omega

end Working

/-- The chunk that `store` writes is the next part of the stream. -/
theorem store_written {s : Sys T} {j : Job T} (h : Working s j) (hb : Bounded s.wire)
    (htotal : (stream s.sent).length < 2 ^ 64) :
    ∃ buffer, j.store s.wire = { s.wire with buffer } ∧
      Written s.wire.buffer buffer s.wire.capacity s.wire.pushed
        (j.bytes.take (j.msg_length s.wire)) := by
  have hcap := hb.capacity_pos
  have hsize := hb.size_lt
  have hadd := h.pushed_add
  have hidx : s.wire.index s.wire.pushed = s.wire.pushed % s.wire.capacity :=
    index_of_lt _ hb.pushed_lt
  obtain ⟨-, -, -, -, -, -, -, hl⟩ := h
  unfold Job.store Job.bytes at *
  cases hh : j.head with
  | none =>
    simp only [Option.elim_none, List.nil_append, hidx]
    refine write_in_buffer_written s.wire _ _ hcap ?_
    rw [List.length_take]
    exact Nat.le_trans (Nat.min_le_left _ _) (Nat.min_le_right _ _)
  | some header =>
    have hbuf := WireHeader.length_get_buffer header
    simp only [hh, Option.elim_some, List.length_append, hbuf] at hl
    simp only [Option.elim_some, hidx]
    obtain ⟨b1, he1, hw1⟩ := write_in_buffer_written s.wire s.wire.pushed
      (WireHeader.get_buffer header) hcap (by omega)
    rw [he1]
    have hmsg : j.msg_length { s.wire with buffer := b1 } = j.msg_length s.wire := rfl
    rw [hmsg]
    have hmin : j.msg_length s.wire = min j.length s.wire.capacity := rfl
    split
    · rename_i hlt
      have hidx2 : SimpleWire.index { s.wire with buffer := b1 }
          (s.wire.pushed + WireHeader.size T) =
          (s.wire.pushed + WireHeader.size T) % s.wire.capacity := index_of_lt _ (by omega)
      have htake : (j.src.take (j.msg_length s.wire - WireHeader.size T)).length =
          j.msg_length s.wire - WireHeader.size T := by
        rw [List.length_take]
        omega
      obtain ⟨b2, he2, hw2⟩ := write_in_buffer_written { s.wire with buffer := b1 }
        (s.wire.pushed + WireHeader.size T)
        (j.src.take (j.msg_length s.wire - WireHeader.size T)) hcap (by dsimp only; omega)
      refine ⟨b2, ?_, ?_⟩
      · simp only [hidx2]
        rw [he2]
      · rw [← hbuf] at hw2
        have hw := hw1.trans hw2 (by rw [hbuf, htake]; omega)
        rw [List.take_append, hbuf, List.take_of_length_le (by omega)]
        rwa [hbuf] at hw
    · rename_i hge
      refine ⟨b1, rfl, ?_⟩
      rw [List.take_append, hbuf, List.take_of_length_le (by omega),
        Nat.sub_eq_zero_of_le (by omega), List.take_zero, List.append_nil]
      exact hw1

/-- The job after a chunk holds the bytes after the chunk. -/
theorem rest_bytes {s : Sys T} {j : Job T} (h : Working s j) (hb : Bounded s.wire) :
    (j.rest s.wire).bytes = j.bytes.drop (j.msg_length s.wire) ∧
      (j.rest s.wire).length = (j.rest s.wire).bytes.length := by
  have hsize := hb.size_lt
  obtain ⟨-, -, -, -, -, -, -, hl⟩ := h
  have hmin : j.msg_length s.wire = min j.length s.wire.capacity := rfl
  have he : (j.rest s.wire).bytes = j.bytes.drop (j.msg_length s.wire) := by
    simp only [Job.bytes, Job.rest, Option.elim_none, List.nil_append]
    unfold Job.bytes at hl
    cases hh : j.head with
    | none => simp [Job.head_length, hh]
    | some header =>
      have hbuf := WireHeader.length_get_buffer header
      simp only [hh, Option.elim_some, List.length_append, hbuf] at hl
      simp only [Job.head_length, hh, Option.isSome_some, if_true, Option.elim_some]
      have hdrop : (WireHeader.get_buffer header).drop (j.msg_length s.wire) = [] :=
        List.drop_of_length_le (by omega)
      rw [List.drop_append, hbuf, hdrop, List.nil_append]
  refine ⟨he, ?_⟩
  rw [he, List.length_drop, ← hl]
  rfl

end tateyama_bootstrap.simple_wire
