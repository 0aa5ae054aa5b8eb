-- One result-set wire by itself: between the counters its ring holds the
-- flushed chunks that are not disposed of, each behind its header, and then the
-- chunk that is being written. Every step of its writer and of the client keeps
-- this, and the two views of `get_chunk` show the oldest chunk.
import TateyamaBootstrap.ResultSetSys
import TateyamaBootstrap.WireStream

open runs ring_memory

namespace tateyama_bootstrap.resultset_wires

open simple_wire

/-! ## The invariant of a wire -/

/-- A chunk as it stands in the ring, behind its header. -/
def frame (chunk : List UInt8) : List UInt8 := bytes.encode 4 chunk.length ++ chunk

@[simp] theorem length_frame (chunk : List UInt8) : (frame chunk).length = 4 + chunk.length := by
  simp [frame]

namespace Log

/-- The chunks that are flushed and not disposed of, oldest first. -/
def pending (l : Log) : List (List UInt8) := l.sent.drop l.disposed

end Log

namespace Cell

/-- No chunk is being written. -/
structure NoChunk (c : Cell) : Prop where
  continued : c.wire.continued = false
  pushed : c.wire.pushed = c.wire.pushed_valid
  opened : c.log.opened = []

/-- A chunk is being written: the room of its header, and then its bytes. -/
structure OpenChunk (c : Cell) : Prop where
  continued : c.wire.continued = true
  pushed : c.wire.pushed = c.wire.pushed_valid + 4 + c.log.opened.length
  bytes : slice c.buffer c.wire.capacity (c.wire.pushed_valid + 4) c.log.opened.length =
    c.log.opened

/-- Between two calls, a chunk that is being written has a byte. -/
def Settled (c : Cell) : Prop := NoChunk c ∨ OpenChunk c ∧ c.log.opened ≠ []

/-- `n` more bytes reach neither the unread bytes nor the end of the counter. -/
def Fits (c : Cell) (n : Nat) : Prop :=
  c.wire.pushed + n ≤ c.wire.poped + c.wire.capacity ∧ c.wire.pushed + n < 2 ^ 64

/-- The bytes that the header takes when the next write opens a chunk. -/
def header_room (c : Cell) : Nat := if c.wire.continued then 0 else 4

def WriterOk (c : Cell) : Prop :=
  match c.writer with
  | .idle => Settled c
  | .write src => Settled c ∧ Fits c (c.header_room + src.length)
  | .brand_new src | .reserve src => NoChunk c ∧ src ≠ [] ∧ Fits c (4 + src.length)
  | .room src | .store src => OpenChunk c ∧ src ≠ [] ∧ Fits c src.length
  | .push src => OpenChunk c ∧ src ≠ [] ∧ Fits c src.length ∧
      slice c.buffer c.wire.capacity c.wire.pushed src.length = src
  | .header => OpenChunk c ∧ c.log.opened ≠ [] ∧ c.log.opened.length < 2 ^ 32
  | .publish => OpenChunk c ∧ c.log.opened ≠ [] ∧ c.log.opened.length < 2 ^ 32 ∧
      slice c.buffer c.wire.capacity c.wire.pushed_valid 4 = bytes.encode 4 c.log.opened.length
  | .notify => c.wire.pushed = c.wire.pushed_valid ∧ c.log.opened = []
  | .crashed => False

/-- The ring of an attached wire holds the flushed chunks of its history. -/
structure Framed (c : Cell) : Prop where
  bounded : Bounded c.ring
  handle : c.wire.buffer_handle ≠ 0
  poped_le : c.wire.poped ≤ c.wire.pushed_valid
  valid_le : c.wire.pushed_valid ≤ c.wire.pushed
  chunks : slice c.buffer c.wire.capacity c.wire.poped (c.wire.pushed_valid - c.wire.poped) =
    c.log.pending.flatMap frame
  small : ∀ chunk ∈ c.log.pending, 0 < chunk.length ∧ chunk.length < 2 ^ 32
  disposed_le : c.log.disposed ≤ c.log.sent.length

/-- What ties the ring and the writer of an attached wire to its history. -/
structure Ok (c : Cell) : Prop where
  bounded : Bounded c.ring
  handle : c.wire.buffer_handle ≠ 0
  open_ : c.wire.closed = false
  poped_le : c.wire.poped ≤ c.wire.pushed_valid
  valid_le : c.wire.pushed_valid ≤ c.wire.pushed
  chunks : slice c.buffer c.wire.capacity c.wire.poped (c.wire.pushed_valid - c.wire.poped) =
    c.log.pending.flatMap frame
  small : ∀ chunk ∈ c.log.pending, 0 < chunk.length ∧ chunk.length < 2 ^ 32
  disposed_le : c.log.disposed ≤ c.log.sent.length
  writer : WriterOk c

/-- What a wire without a holder looks like: nothing is on it. -/
structure Drained (c : Cell) : Prop where
  poped : c.wire.poped = c.wire.pushed
  valid : c.wire.pushed_valid = c.wire.pushed
  pushed_lt : c.wire.pushed < 2 ^ 64
  continued : c.wire.continued = false
  open_ : c.wire.closed = false
  pending : c.log.pending = []
  disposed_le : c.log.disposed ≤ c.log.sent.length
  writer : c.writer = .idle

section Lemmas

variable {c c' : Cell} {src : List UInt8} {n : Nat}

theorem Ok.framed (h : Ok c) : Framed c :=
  ⟨h.bounded, h.handle, h.poped_le, h.valid_le, h.chunks, h.small, h.disposed_le⟩

theorem Framed.ok (h : Framed c) (ho : c.wire.closed = false) (hw : WriterOk c) : Ok c :=
  ⟨h.bounded, h.handle, ho, h.poped_le, h.valid_le, h.chunks, h.small, h.disposed_le, hw⟩

theorem Framed.size_lt (h : Framed c) : 4 < c.wire.capacity := h.bounded.size_lt

theorem Framed.pushed_le (h : Framed c) : c.wire.pushed ≤ c.wire.poped + c.wire.capacity :=
  h.bounded.pushed_le

theorem Framed.pushed_lt (h : Framed c) : c.wire.pushed < 2 ^ 64 := h.bounded.pushed_lt

theorem Framed.room (h : Framed c) :
    c.wire.room = c.wire.capacity - (c.wire.pushed - c.wire.poped) := h.bounded.room

theorem Ok.pushed_le (h : Ok c) : c.wire.pushed ≤ c.wire.poped + c.wire.capacity :=
  h.framed.pushed_le

theorem Ok.pushed_lt (h : Ok c) : c.wire.pushed < 2 ^ 64 := h.framed.pushed_lt

theorem Ok.room (h : Ok c) : c.wire.room = c.wire.capacity - (c.wire.pushed - c.wire.poped) :=
  h.framed.room

/-- A write through the base address, at positions that the ring has room for. -/
theorem Framed.write_in_buffer (h : Framed c) (src : List UInt8) (next : Writer) {pos : Nat}
    (hpos : pos < 2 ^ 64)
    (hlen : src.length ≤ c.wire.capacity) :
    ∃ buffer, c.write_in_buffer pos src next = { c with buffer, writer := next } ∧
      Written c.buffer buffer c.wire.capacity pos src := by
  obtain ⟨buffer, he, hw⟩ :=
    write_in_buffer_written c.ring pos src h.bounded.capacity_pos hlen
  refine ⟨buffer, ?_, hw⟩
  unfold Cell.write_in_buffer
  simp only [Wire.get_bip_address, h.handle, ne_eq, not_false_eq_true, if_true]
  rw [index_of_lt c.ring hpos, he]

/-- The guards of `write` say that the bytes fit. -/
theorem Ok.fits_of_check_room (h : Ok c) (hr : c.wire.check_room src.length = true)
    (hlt : c.wire.pushed + 4 + src.length < 2 ^ 64) : Fits c (c.header_room + src.length) := by
  have h1 := h.pushed_le
  have h2 := h.bounded.poped_le
  have h3 : c.wire.poped ≤ c.wire.pushed := Nat.le_trans h.poped_le h.valid_le
  unfold Wire.check_room at hr
  unfold Fits header_room
  rw [h.room] at hr
  split at hr
  · rename_i hc
    have hr := of_decide_eq_true hr
    rw [if_pos hc]
    exact ⟨by omega, by omega⟩
  · rename_i hc
    have hr := of_decide_eq_true hr
    rw [LengthHeader.size_eq, Nat.mod_eq_of_lt (by omega)] at hr
    rw [if_neg hc]
    exact ⟨by omega, by omega⟩

/-! ## The steps of the writer -/

/-- Only the writer has moved. -/
theorem Ok.with_writer (h : Ok c) {writer : Writer} (hw : WriterOk { c with writer }) :
    Ok { c with writer } :=
  ⟨h.bounded, h.handle, h.open_, h.poped_le, h.valid_le, h.chunks, h.small, h.disposed_le, hw⟩

/-- Only bytes from `pushed_valid_` on were written. -/
theorem Framed.with_buffer (h : Framed c) {buffer : Nat → UInt8} {writer : Writer} {pos : Nat}
    (hw : Written c.buffer buffer c.wire.capacity pos src) (hpos : c.wire.pushed_valid ≤ pos)
    (hend : pos + src.length ≤ c.wire.poped + c.wire.capacity) :
    Framed { c with buffer, writer } := by
  refine ⟨?_, h.handle, h.poped_le, h.valid_le, ?_, h.small, h.disposed_le⟩
  · exact ⟨h.bounded.size_lt, h.bounded.capacity_lt, h.bounded.poped_le, h.bounded.pushed_le,
      h.bounded.pushed_lt⟩
  · have hp := h.poped_le
    dsimp only
    rw [hw.slice_before (by omega) hend]
    exact h.chunks

/-- `brand_new` takes the room of the header. -/
theorem Framed.reserve (h : Framed c) (hch : NoChunk c) (hwr : c.writer = .reserve src)
    (hfit : Fits c 4) (hs : c.write_step = some c') :
    Framed c' ∧ OpenChunk c' ∧ c' = { c with
      wire := { c.wire with pushed := c.wire.pushed + 4, continued := true }
      writer := .room src } := by
  obtain ⟨hfit1, hfit2⟩ := hfit
  have hv := h.valid_le
  simp only [write_step, hwr, LengthHeader.size_eq, Option.some.injEq] at hs
  rw [Nat.mod_eq_of_lt hfit2] at hs
  subst hs
  refine ⟨⟨?_, h.handle, h.poped_le, ?_, h.chunks, h.small, h.disposed_le⟩, ⟨rfl, ?_, ?_⟩, rfl⟩
  · have hp := Nat.le_trans h.poped_le hv
    exact ⟨h.bounded.size_lt, h.bounded.capacity_lt, Nat.le_trans hp (Nat.le_add_right _ _),
      hfit1, hfit2⟩
  · exact Nat.le_trans hv (Nat.le_add_right _ _)
  · simp [hch.opened, hch.pushed]
  · simp [hch.opened]

/-- The data is stored behind what is already written of the chunk. -/
theorem Framed.store (h : Framed c) (hch : OpenChunk c) (hwr : c.writer = .store src)
    (hfit : Fits c src.length) (hs : c.write_step = some c') :
    Framed c' ∧ OpenChunk c' ∧ slice c'.buffer c'.wire.capacity c'.wire.pushed src.length = src ∧
      ∃ buffer, c' = { c with buffer, writer := .push src } := by
  obtain ⟨hfit1, hfit2⟩ := hfit
  have hp := h.poped_le
  have hv := h.valid_le
  have hpu := hch.pushed
  obtain ⟨buffer, he, hwb⟩ := h.write_in_buffer src (.push src) h.pushed_lt (by omega)
  simp only [write_step, hwr, Option.some.injEq] at hs
  rw [he] at hs
  subst hs
  refine ⟨h.with_buffer hwb hv hfit1, ⟨hch.continued, hch.pushed, ?_⟩, hwb.here, buffer, rfl⟩
  dsimp only
  rw [hwb.slice_before (by omega) (by omega)]
  exact hch.bytes

/-- `pushed_` moves over the data. -/
theorem Framed.push (h : Framed c) (hch : OpenChunk c) (hwr : c.writer = .push src)
    (hfit : Fits c src.length)
    (hbytes : slice c.buffer c.wire.capacity c.wire.pushed src.length = src)
    (hs : c.write_step = some c') :
    Framed c' ∧ OpenChunk c' ∧ c' = { c with
      wire := { c.wire with pushed := c.wire.pushed + src.length }
      log := { c.log with opened := c.log.opened ++ src }
      writer := .idle } := by
  obtain ⟨hfit1, hfit2⟩ := hfit
  have hp := h.poped_le
  have hv := h.valid_le
  have hpu := hch.pushed
  simp only [write_step, hwr, Option.some.injEq] at hs
  rw [Nat.mod_eq_of_lt hfit2] at hs
  subst hs
  refine ⟨⟨?_, h.handle, hp, ?_, h.chunks, h.small, h.disposed_le⟩, ⟨hch.continued, ?_, ?_⟩, rfl⟩
  · exact ⟨h.bounded.size_lt, h.bounded.capacity_lt, by simp only [ring, Wire.ring]; omega, hfit1,
      hfit2⟩
  · exact Nat.le_trans hv (Nat.le_add_right _ _)
  · simp only [List.length_append]
    omega
  · dsimp only
    rw [List.length_append, slice_add, hch.bytes, ← hpu, hbytes]

/-- `flush` writes the length of the chunk into the room of its header. -/
theorem Framed.header (h : Framed c) (hch : OpenChunk c) (hwr : c.writer = .header)
    (hlt : c.log.opened.length < 2 ^ 32) (hs : c.write_step = some c') :
    Framed c' ∧ OpenChunk c' ∧
      slice c'.buffer c'.wire.capacity c'.wire.pushed_valid 4 =
        bytes.encode 4 c'.log.opened.length ∧
      ∃ buffer, c' = { c with buffer, writer := .publish } := by
  have hp := h.poped_le
  have hv := h.valid_le
  have hpu := hch.pushed
  have hpl := h.pushed_lt
  have hple := h.pushed_le
  have hflush : c.flush_length = c.log.opened.length := by
    have hin : (c.wire.pushed_valid + 4) % 2 ^ 64 = c.wire.pushed_valid + 4 :=
      Nat.mod_eq_of_lt (by omega)
    unfold flush_length
    rw [LengthHeader.size_eq, hin]
    omega
  have hget : WireHeader.get_buffer (LengthHeader.of_size c.flush_length) =
      bytes.encode 4 c.log.opened.length := by
    have hmod : (UInt32.ofNat c.log.opened.length).toNat = c.log.opened.length :=
      UInt32.toNat_ofNat_of_lt' hlt
    rw [hflush]
    simp only [WireHeader.get_buffer, LengthHeader.get_buffer, LengthHeader.of_size, hmod]
  have hlen : (bytes.encode 4 c.log.opened.length).length = 4 := bytes.length_encode _ _
  obtain ⟨buffer, he, hwb⟩ := h.write_in_buffer (bytes.encode 4 c.log.opened.length) .publish
    (Nat.lt_of_le_of_lt hv hpl) (by rw [hlen]; exact Nat.le_of_lt h.size_lt)
  simp only [write_step, hwr, Option.some.injEq] at hs
  rw [hget, he] at hs
  subst hs
  refine ⟨h.with_buffer hwb (Nat.le_refl _) (by rw [hlen]; omega),
    ⟨hch.continued, hch.pushed, ?_⟩, ?_, buffer, rfl⟩
  · dsimp only
    rw [hwb.slice_after (by rw [hlen]) (by omega)]
    exact hch.bytes
  · have hhere := hwb.here
    rw [hlen] at hhere
    exact hhere

theorem Log.pending_snoc {l : Log} (h : l.disposed ≤ l.sent.length) (chunk : List UInt8) :
    Log.pending { l with opened := [], sent := l.sent ++ [chunk] } = l.pending ++ [chunk] := by
  simp only [Log.pending]
  rw [List.drop_append_of_le_length h]

/-- The open chunk becomes a flushed one. -/
theorem Framed.publish (h : Framed c) (hch : OpenChunk c) (hwr : c.writer = .publish)
    (hne : c.log.opened ≠ []) (hlt : c.log.opened.length < 2 ^ 32)
    (hhead : slice c.buffer c.wire.capacity c.wire.pushed_valid 4 =
      bytes.encode 4 c.log.opened.length) (hs : c.write_step = some c') :
    Framed c' ∧ c' = { c with
      wire := { c.wire with pushed_valid := c.wire.pushed }
      log := { c.log with opened := [], sent := c.log.sent ++ [c.log.opened] }
      writer := .notify } := by
  have hp := h.poped_le
  have hv := h.valid_le
  have hpu := hch.pushed
  have hd := h.disposed_le
  simp only [write_step, hwr, Option.some.injEq, published, if_neg hne] at hs
  subst hs
  refine ⟨⟨?_, h.handle, Nat.le_trans hp hv, Nat.le_refl _, ?_, ?_, ?_⟩, rfl⟩
  · exact ⟨h.bounded.size_lt, h.bounded.capacity_lt, h.bounded.poped_le, h.bounded.pushed_le,
      h.bounded.pushed_lt⟩
  · dsimp only
    rw [Log.pending_snoc hd, List.flatMap_append, List.flatMap_singleton, ← h.chunks]
    have hsum : c.wire.pushed - c.wire.poped =
        c.wire.pushed_valid - c.wire.poped + (4 + c.log.opened.length) := by omega
    rw [hsum, slice_add, slice_add, Nat.add_sub_cancel' hp, hhead, hch.bytes]
    rfl
  · intro chunk hm
    dsimp only at hm
    rw [Log.pending_snoc hd, List.mem_append, List.mem_singleton] at hm
    rcases hm with hm | rfl
    · exact h.small chunk hm
    · exact ⟨List.length_pos_iff.mpr hne, hlt⟩
  · simp only [List.length_append]
    omega

/-- What the steps of a writer leave alone. -/
structure Wrote (c c' : Cell) : Prop where
  handle : c'.wire.buffer_handle = c.wire.buffer_handle
  capacity : c'.wire.capacity = c.wire.capacity
  poped : c'.wire.poped = c.wire.poped
  header : c'.wire.header_received = c.wire.header_received
  disposed : c'.log.disposed = c.log.disposed
  obtained : c'.log.obtained = c.log.obtained
  sent : c.log.sent <+: c'.log.sent
  quiet : c.writer ≠ .publish → c'.log.sent = c.log.sent

theorem Ok.step_write (h : Ok c) (hwr : c.writer = .write src) (hs : c.write_step = some c') :
    Ok c' := by
  have hw := h.writer
  simp only [WriterOk, hwr] at hw
  obtain ⟨hset, hfit⟩ := hw
  simp only [write_step, hwr, h.open_, true_and] at hs
  split at hs
  · rename_i hpos
    have hne : src ≠ [] := by
      rintro rfl
      simp at hpos
    split at hs
    · rename_i hc
      cases hs
      have hch : OpenChunk c := by
        rcases hset with hn | ho
        · rw [hn.continued] at hc
          cases hc
        · exact ho.1
      rw [header_room, if_pos hc, Nat.zero_add] at hfit
      exact h.with_writer ⟨⟨hch.1, hch.2, hch.3⟩, hne, hfit⟩
    · rename_i hc
      cases hs
      have hch : NoChunk c := by
        rcases hset with hn | ho
        · exact hn
        · exact absurd ho.1.continued hc
      rw [header_room, if_neg hc] at hfit
      exact h.with_writer ⟨⟨hch.1, hch.2, hch.3⟩, hne, hfit⟩
  · cases hs
    apply h.with_writer
    exact hset.imp (fun hn => ⟨hn.1, hn.2, hn.3⟩) fun ho => ⟨⟨ho.1.1, ho.1.2, ho.1.3⟩, ho.2⟩

theorem Ok.step_reserve (h : Ok c) (hwr : c.writer = .reserve src)
    (hs : c.write_step = some c') : Ok c' := by
  have hw := h.writer
  simp only [WriterOk, hwr] at hw
  obtain ⟨hch, hne, hfit1, hfit2⟩ := hw
  obtain ⟨hf, hop, rfl⟩ := h.framed.reserve hch hwr ⟨by omega, by omega⟩ hs
  refine hf.ok h.open_ ⟨hop, hne, ?_, ?_⟩
  · dsimp only
    omega
  · dsimp only
    omega

theorem Ok.step_store (h : Ok c) (hwr : c.writer = .store src) (hs : c.write_step = some c') :
    Ok c' := by
  have hw := h.writer
  simp only [WriterOk, hwr] at hw
  obtain ⟨hch, hne, hfit⟩ := hw
  obtain ⟨hf, hop, hbytes, buffer, rfl⟩ := h.framed.store hch hwr hfit hs
  exact hf.ok h.open_ ⟨hop, hne, hfit, hbytes⟩

theorem Ok.step_push (h : Ok c) (hwr : c.writer = .push src) (hs : c.write_step = some c') :
    Ok c' := by
  have hw := h.writer
  simp only [WriterOk, hwr] at hw
  obtain ⟨hch, hne, hfit, hbytes⟩ := hw
  obtain ⟨hf, hop, rfl⟩ := h.framed.push hch hwr hfit hbytes hs
  exact hf.ok h.open_ (.inr ⟨hop, by simp [hne]⟩)

theorem Ok.step_header (h : Ok c) (hwr : c.writer = .header) (hs : c.write_step = some c') :
    Ok c' := by
  have hw := h.writer
  simp only [WriterOk, hwr] at hw
  obtain ⟨hch, hne, hlt⟩ := hw
  obtain ⟨hf, hop, hhead, buffer, rfl⟩ := h.framed.header hch hwr hlt hs
  exact hf.ok h.open_ ⟨hop, hne, hlt, hhead⟩

theorem Ok.step_publish (h : Ok c) (hwr : c.writer = .publish) (hs : c.write_step = some c') :
    Ok c' := by
  have hw := h.writer
  simp only [WriterOk, hwr] at hw
  obtain ⟨hch, hne, hlt, hhead⟩ := hw
  obtain ⟨hf, rfl⟩ := h.framed.publish hch hwr hne hlt hhead hs
  exact hf.ok h.open_ ⟨rfl, rfl⟩

theorem Ok.step_notify (h : Ok c) (hwr : c.writer = .notify) (hs : c.write_step = some c') :
    Ok c' := by
  have hw := h.writer
  simp only [WriterOk, hwr] at hw
  simp only [write_step, hwr, Option.some.injEq] at hs
  subst hs
  exact ⟨⟨h.bounded.size_lt, h.bounded.capacity_lt, h.bounded.poped_le, h.bounded.pushed_le,
      h.bounded.pushed_lt⟩, h.handle, h.open_, h.poped_le, h.valid_le, h.chunks, h.small,
    h.disposed_le, .inl ⟨rfl, hw.1, hw.2⟩⟩

/-- The writer keeps its wire in order. -/
theorem Ok.write_step (h : Ok c) (hs : c.write_step = some c') : Ok c' := by
  cases hwr : c.writer with
  | idle | crashed => simp [Cell.write_step, hwr] at hs
  | write src => exact h.step_write hwr hs
  | brand_new src | room src =>
    have hw := h.writer
    simp only [WriterOk, hwr] at hw
    simp only [Cell.write_step, hwr] at hs
    split at hs
    · cases hs
      obtain ⟨hch, hne, hfit⟩ := hw
      exact h.with_writer ⟨⟨hch.1, hch.2, hch.3⟩, hne, hfit⟩
    · cases hs
  | reserve src => exact h.step_reserve hwr hs
  | store src => exact h.step_store hwr hs
  | push src => exact h.step_push hwr hs
  | header => exact h.step_header hwr hs
  | publish => exact h.step_publish hwr hs
  | notify => exact h.step_notify hwr hs

theorem wrote_of_write_step (hs : c.write_step = some c') : Wrote c c' := by
  have hsame : ∀ {writer : Writer}, Wrote c { c with writer } := by
    intro writer
    exact ⟨rfl, rfl, rfl, rfl, rfl, rfl, List.prefix_rfl, fun _ => rfl⟩
  have hbuf : ∀ pos src next, Wrote c (c.write_in_buffer pos src next) := by
    intro pos src next
    unfold Cell.write_in_buffer
    split
    · exact hsame
    · exact ⟨rfl, rfl, rfl, rfl, rfl, rfl, List.prefix_rfl, fun _ => rfl⟩
  unfold Cell.write_step at hs
  split at hs
  · split at hs
    · split at hs <;> (cases hs; exact hsame)
    · cases hs
      exact hsame
  · split at hs <;> cases hs
    exact hsame
  · cases hs
    exact ⟨rfl, rfl, rfl, rfl, rfl, rfl, List.prefix_rfl, fun _ => rfl⟩
  · split at hs <;> cases hs
    exact hsame
  · cases hs
    exact hbuf _ _ _
  · cases hs
    exact ⟨rfl, rfl, rfl, rfl, rfl, rfl, List.prefix_rfl, fun _ => rfl⟩
  · cases hs
    exact hbuf _ _ _
  · rename_i hw
    cases hs
    refine ⟨rfl, rfl, rfl, rfl, ?_, ?_, ?_, fun h => absurd hw h⟩ <;> dsimp only [published] <;>
      split
    · rfl
    · rfl
    · rfl
    · rfl
    · exact List.prefix_rfl
    · exact List.prefix_append _ _
  · cases hs
    exact ⟨rfl, rfl, rfl, rfl, rfl, rfl, List.prefix_rfl, fun _ => rfl⟩
  · cases hs
  · cases hs

theorem Ok.guard (h : Ok c) (hs : c.guard src = some c')
    (hlt : c.wire.pushed + 4 + src.length < 2 ^ 64) :
    Ok c' ∧ c' = { c with writer := .write src } := by
  unfold Cell.guard at hs
  split at hs
  · rename_i hwr
    split at hs
    · rename_i hr
      cases hs
      have hw := h.writer
      simp only [WriterOk, hwr] at hw
      have hfit := h.fits_of_check_room hr hlt
      refine ⟨h.with_writer ⟨?_, hfit⟩, rfl⟩
      exact hw.imp (fun hn => ⟨hn.1, hn.2, hn.3⟩) fun ho => ⟨⟨ho.1.1, ho.1.2, ho.1.3⟩, ho.2⟩
    · cases hs
  · cases hs

theorem Ok.flush (h : Ok c) (hs : c.flush = some c')
    (hlt : c.wire.pushed - c.wire.pushed_valid - 4 < 2 ^ 32) :
    Ok c' ∧ ∃ writer, c' = { c with writer } := by
  unfold Cell.flush at hs
  split at hs
  · rename_i hwr
    cases hs
    split
    · rename_i hc
      have hw := h.writer
      simp only [WriterOk, hwr] at hw
      refine ⟨h.with_writer ?_, _, rfl⟩
      rcases hw with hn | ⟨ho, hne⟩
      · rw [hn.continued] at hc
        cases hc
      · have hpu := ho.pushed
        exact ⟨⟨ho.1, ho.2, ho.3⟩, hne, by dsimp only; omega⟩
    · exact ⟨h, c.writer, rfl⟩
  · cases hs

/-! ## The steps of the client -/

/-- The bytes and the counters of the writer are the same. -/
structure SameChunk (c c' : Cell) : Prop where
  buffer : c'.buffer = c.buffer
  opened : c'.log.opened = c.log.opened
  continued : c'.wire.continued = c.wire.continued
  capacity : c'.wire.capacity = c.wire.capacity
  pushed : c'.wire.pushed = c.wire.pushed
  valid : c'.wire.pushed_valid = c.wire.pushed_valid

theorem SameChunk.noChunk (hs : SameChunk c c') (h : NoChunk c) : NoChunk c' := by
  refine ⟨?_, ?_, ?_⟩
  · rw [hs.continued, h.continued]
  · rw [hs.pushed, hs.valid, h.pushed]
  · rw [hs.opened, h.opened]

theorem SameChunk.openChunk (hs : SameChunk c c') (h : OpenChunk c) : OpenChunk c' := by
  refine ⟨?_, ?_, ?_⟩
  · rw [hs.continued, h.continued]
  · rw [hs.pushed, hs.valid, hs.opened, h.pushed]
  · rw [hs.buffer, hs.capacity, hs.valid, hs.opened, h.bytes]

theorem SameChunk.settled (hs : SameChunk c c') (h : Settled c) : Settled c' := by
  rcases h with h | ⟨h, hne⟩
  · exact Or.inl (hs.noChunk h)
  · refine Or.inr ⟨hs.openChunk h, ?_⟩
    rw [hs.opened]
    exact hne

/-- The client moves neither the bytes nor the counters of the writer. -/
theorem WriterOk.of_client (h : WriterOk c) (hw : c'.writer = c.writer)
    (hb : c'.buffer = c.buffer) (ho : c'.log.opened = c.log.opened)
    (hco : c'.wire.continued = c.wire.continued) (hc : c'.wire.capacity = c.wire.capacity)
    (hp : c'.wire.pushed = c.wire.pushed) (hv : c'.wire.pushed_valid = c.wire.pushed_valid)
    (hq : c.wire.poped ≤ c'.wire.poped) : WriterOk c' := by
  have hsame : SameChunk c c' := ⟨hb, ho, hco, hc, hp, hv⟩
  have hno := hsame.noChunk
  have hop := hsame.openChunk
  have hset := hsame.settled
  have hfit : ∀ {n}, Fits c n → Fits c' n := by
    intro n hn
    unfold Fits at hn ⊢
    rw [hp, hc]
    omega
  have hroom : c'.header_room = c.header_room := by
    unfold header_room
    rw [hco]
  unfold WriterOk at h ⊢
  rw [hw]
  cases hwr : c.writer with
  | idle =>
    rw [hwr] at h
    exact hset h
  | write src =>
    rw [hwr] at h
    exact ⟨hset h.1, by rw [hroom]; exact hfit h.2⟩
  | brand_new src | reserve src =>
    rw [hwr] at h
    exact ⟨hno h.1, h.2.1, hfit h.2.2⟩
  | room src | store src =>
    rw [hwr] at h
    exact ⟨hop h.1, h.2.1, hfit h.2.2⟩
  | push src =>
    rw [hwr] at h
    exact ⟨hop h.1, h.2.1, hfit h.2.2.1, by rw [hb, hc, hp]; exact h.2.2.2⟩
  | header =>
    rw [hwr] at h
    exact ⟨hop h.1, by rw [ho]; exact h.2⟩
  | publish =>
    rw [hwr] at h
    exact ⟨hop h.1, by rw [hb, hc, hv, ho]; exact h.2⟩
  | notify =>
    rw [hwr] at h
    dsimp only at h ⊢
    rw [hp, hv, ho]
    exact h
  | crashed =>
    rw [hwr] at h
    exact h

/-- Where the oldest chunk stands, and what follows it. -/
structure Oldest (c : Cell) (chunk : List UInt8) (rest : List (List UInt8)) : Prop where
  valid : c.wire.poped + 4 + chunk.length ≤ c.wire.pushed_valid
  header : slice c.buffer c.wire.capacity c.wire.poped 4 = bytes.encode 4 chunk.length
  bytes : slice c.buffer c.wire.capacity (c.wire.poped + 4) chunk.length = chunk
  rest : slice c.buffer c.wire.capacity (c.wire.poped + 4 + chunk.length)
    (c.wire.pushed_valid - (c.wire.poped + 4 + chunk.length)) = rest.flatMap frame

variable {chunk : List UInt8} {rest : List (List UInt8)}

theorem Framed.oldest (h : Framed c) (hp : c.log.pending = chunk :: rest) :
    Oldest c chunk rest := by
  have hch := h.chunks
  rw [hp, List.flatMap_cons] at hch
  have hlen := congrArg List.length hch
  rw [length_slice, List.length_append, length_frame] at hlen
  have hsum : c.wire.pushed_valid - c.wire.poped =
      4 + (chunk.length + (c.wire.pushed_valid - (c.wire.poped + 4 + chunk.length))) := by omega
  rw [hsum, slice_add, slice_add, frame, List.append_assoc] at hch
  obtain ⟨h1, h2⟩ := List.append_inj hch (by simp)
  obtain ⟨h3, h4⟩ := List.append_inj h2 (by simp)
  exact ⟨by omega, h1, h3, h4⟩

theorem Ok.oldest (h : Ok c) (hp : c.log.pending = chunk :: rest) : Oldest c chunk rest :=
  h.framed.oldest hp

theorem Framed.copy_header (h : Framed c) (hp : c.log.pending = chunk :: rest) :
    Framed c.copy_header ∧ c.copy_header.length = chunk.length := by
  have hold := h.oldest hp
  have hsmall := h.small chunk (by simp [hp])
  refine ⟨?_, ?_⟩
  · exact ⟨⟨h.bounded.size_lt, h.bounded.capacity_lt, h.bounded.poped_le, h.bounded.pushed_le,
        h.bounded.pushed_lt⟩, h.handle, h.poped_le, h.valid_le, h.chunks, h.small, h.disposed_le⟩
  · unfold Cell.length Cell.copy_header
    rw [h.bounded.copy_header]
    have hslice : slice c.ring.buffer c.ring.capacity c.ring.poped (WireHeader.size LengthHeader) =
        bytes.encode 4 chunk.length := hold.header
    dsimp only
    rw [hslice]
    simp only [WireHeader.of_buffer, LengthHeader.of_buffer]
    rw [List.take_of_length_le (by simp), bytes.decode_encode, Nat.mod_eq_of_lt]
    · exact UInt32.toNat_ofNat_of_lt' hsmall.2
    · exact hsmall.2

theorem Ok.copy_header (h : Ok c) (hp : c.log.pending = chunk :: rest) :
    Ok c.copy_header ∧ c.copy_header.length = chunk.length := by
  obtain ⟨hf, hlen⟩ := h.framed.copy_header hp
  exact ⟨hf.ok h.open_ (h.writer.of_client rfl rfl rfl rfl rfl rfl rfl (Nat.le_refl _)), hlen⟩

/-- The two views of a chunk of `len` bytes: one piece, or a piece up to the end
of the ring and one from its start. -/
def Views (c : Cell) (len : Nat) (first wrap_around : Nat × Nat) : Prop :=
  let top := (c.wire.poped + 4) % c.wire.capacity
  top + len ≤ c.wire.capacity ∧ first = (top, len) ∧ wrap_around = (0, 0) ∨
    c.wire.capacity < top + len ∧ first = (top, c.wire.capacity - top) ∧
      wrap_around = (0, len - (c.wire.capacity - top))

/-- The first and the last byte are on one page when the chunk does not cross
the end of the ring. -/
theorem same_page {cap top len : Nat} (hcap : 0 < cap) (hlen : 0 < len) :
    top / cap = (top + len - 1) / cap ↔ top % cap + len ≤ cap := by
  have hdm := Nat.div_add_mod top cap
  have hlt := Nat.mod_lt top hcap
  have hsum : top + len - 1 = top % cap + len - 1 + cap * (top / cap) := by omega
  rw [hsum, Nat.add_mul_div_left _ _ hcap]
  constructor
  · intro he
    have h0 : (top % cap + len - 1) / cap = 0 := by omega
    have := (Nat.div_eq_zero_iff_lt hcap).mp h0
    omega
  · intro hle
    have h0 : (top % cap + len - 1) / cap = 0 := (Nat.div_eq_zero_iff_lt hcap).mpr (by omega)
    rw [h0, Nat.zero_add]

/-- Where a chunk crosses the end of the ring, `pushed_valid_` is on the page
after that end, however far the writer has come. -/
theorem page_end {cap top len valid : Nat} (hcap : 0 < cap) (hcross : cap < top % cap + len)
    (hlo : top + len ≤ valid) (hhi : valid < top + cap) :
    valid / cap * cap = top + (cap - top % cap) := by
  have hdm := Nat.div_add_mod top cap
  have hlt := Nat.mod_lt top hcap
  have hq : valid / cap = top / cap + 1 := by
    apply Nat.div_eq_of_lt_le
    · rw [Nat.add_mul, Nat.one_mul, Nat.mul_comm]
      omega
    · rw [Nat.add_mul, Nat.add_mul, Nat.one_mul, Nat.mul_comm (top / cap)]
      omega
  rw [hq, Nat.add_mul, Nat.one_mul, Nat.mul_comm]
  omega

/-- The views of a chunk that is published, for every place of `pushed_valid_` that the ring
allows. -/
theorem views_of_valid {len : Nat} (hlen : c.length = len) (hpos : 0 < len)
    (hcap : 4 < c.wire.capacity) (hlo : c.wire.poped + 4 + len ≤ c.wire.pushed_valid)
    (hhi : c.wire.pushed_valid ≤ c.wire.poped + c.wire.capacity)
    (hlt : c.wire.pushed_valid < 2 ^ 64) : Views c len c.views.1 c.views.2 := by
  have hcap' : 0 < c.wire.capacity := by omega
  have haddr : ∀ n, c.wire.poped + n < 2 ^ 64 →
      c.ring.read_address n = (c.wire.poped + n) % c.wire.capacity :=
    fun n hn => index_of_lt c.ring hn
  have htop : (c.wire.poped + 4) % 2 ^ 64 = c.wire.poped + 4 := Nat.mod_eq_of_lt (by omega)
  have hlast : (c.wire.poped + 4 + len + 2 ^ 64 - 1) % 2 ^ 64 = c.wire.poped + 4 + len - 1 := by
    omega
  unfold Cell.views
  simp only [LengthHeader.size_eq, hlen, htop, hlast]
  rw [haddr 4 (by omega)]
  split
  · rename_i hpage
    exact .inl ⟨(same_page hcap' hpos).mp hpage, rfl, rfl⟩
  · rename_i hpage
    have hcross : c.wire.capacity < (c.wire.poped + 4) % c.wire.capacity + len := by
      by_contra hle
      exact hpage ((same_page hcap' hpos).mpr (by omega))
    have hmod := Nat.mod_lt (c.wire.poped + 4) hcap'
    rw [page_end hcap' hcross hlo (by omega)]
    have hfirst : (c.wire.poped + 4 + (c.wire.capacity - (c.wire.poped + 4) % c.wire.capacity) +
        2 ^ 64 - (c.wire.poped + 4)) % 2 ^ 64 =
        c.wire.capacity - (c.wire.poped + 4) % c.wire.capacity := by
      omega
    rw [hfirst, haddr _ (by omega), ← Nat.add_assoc, wrap_mod hcap']
    refine .inr ⟨hcross, rfl, ?_⟩
    rw [Prod.mk.injEq]
    exact ⟨rfl, by omega⟩

theorem Ok.views (h : Ok c) (hp : c.log.pending = chunk :: rest)
    (hlen : c.length = chunk.length) : Views c chunk.length c.views.1 c.views.2 := by
  have hv := h.valid_le
  have hpl := h.pushed_lt
  have hple := h.pushed_le
  exact views_of_valid hlen (h.small chunk (by simp [hp])).1 h.bounded.size_lt (h.oldest hp).valid
    (by omega) (by omega)

/-- Whenever the client looks at the views, they show the oldest chunk. -/
theorem Ok.shown (h : Ok c) (hp : c.log.pending = chunk :: rest) {first wrap_around : Nat × Nat}
    (hv : Views c chunk.length first wrap_around) : c.shown first wrap_around = chunk := by
  have hold := h.oldest hp
  have hvalid := hold.valid
  have hle := h.valid_le
  have hple := h.pushed_le
  have hcap : 0 < c.wire.capacity := h.bounded.capacity_pos
  unfold Cell.shown
  rcases hv with ⟨hfits, rfl, rfl⟩ | ⟨hcross, rfl, rfl⟩
  · dsimp only
    rw [← slice_eq_memread c.buffer hfits, hold.bytes]
    exact List.append_nil chunk
  · dsimp only
    rw [← slice_eq_memread_wrap c.buffer hcap (by omega) hcross, hold.bytes]

theorem Framed.dispose (h : Framed c) (hp : c.log.pending = chunk :: rest)
    (hlen : c.length = chunk.length) :
    Framed c.dispose ∧ c.dispose.log.pending = rest ∧ c.wire.poped ≤ c.dispose.wire.poped := by
  have hold := h.oldest hp
  have hvalid := hold.valid
  have hle := h.valid_le
  have hple := h.pushed_le
  have hpl := h.pushed_lt
  have hpop : (c.wire.poped + (c.length + LengthHeader.size)) % 2 ^ 64 =
      c.wire.poped + 4 + chunk.length := by
    rw [hlen, LengthHeader.size_eq, Nat.mod_eq_of_lt (by omega)]
    omega
  have hrest : c.dispose.log.pending = rest := by
    have hd : c.dispose.log.pending = c.log.pending.tail := by
      simp [Cell.dispose, Log.pending, List.tail_drop]
    rw [hd, hp]
    rfl
  have hdis : c.log.disposed < c.log.sent.length := by
    have hl := congrArg List.length hp
    simp only [Log.pending, List.length_drop, List.length_cons] at hl
    omega
  refine ⟨⟨?_, h.handle, ?_, h.valid_le, ?_, ?_, hdis⟩, hrest, ?_⟩
  · refine ⟨h.bounded.size_lt, h.bounded.capacity_lt, ?_, ?_, h.bounded.pushed_lt⟩
    · simp only [ring, Wire.ring, Cell.dispose, hpop]
      omega
    · simp only [ring, Wire.ring, Cell.dispose, hpop]
      omega
  · simp only [Cell.dispose, hpop]
    exact hvalid
  · rw [hrest]
    simp only [Cell.dispose, hpop]
    exact hold.rest
  · rw [hrest]
    intro x hx
    exact h.small x (by simp [hp, hx])
  · simp only [Cell.dispose, hpop]
    omega

theorem Ok.dispose (h : Ok c) (hp : c.log.pending = chunk :: rest)
    (hlen : c.length = chunk.length) : Ok c.dispose ∧ c.dispose.log.pending = rest := by
  obtain ⟨hf, hrest, hle⟩ := h.framed.dispose hp hlen
  exact ⟨hf.ok h.open_ (h.writer.of_client rfl rfl rfl rfl rfl rfl rfl hle), hrest⟩

/-! ## A new holder -/

/-- A wire on which nothing is, with a buffer, whatever bytes that has. -/
theorem Drained.attach (h : Drained c) (buffer : Nat → UInt8) {size b : Nat} (hsize : 4 < size)
    (hfits : size < 2 ^ 64) (hb : b ≠ 0) :
    Ok ⟨c.wire.attach_buffer b size, buffer, new_holder c.log, c.writer⟩ := by
  have hp := h.poped
  have hv := h.valid
  have hpend : (new_holder c.log).pending = [] := h.pending
  refine ⟨⟨hsize, hfits, Nat.le_of_eq hp, ?_, h.pushed_lt⟩, hb, h.open_, ?_, Nat.le_of_eq hv, ?_,
    ?_, h.disposed_le, ?_⟩
  · simp only [ring, Wire.ring, Wire.attach_buffer]
    omega
  · simp only [Wire.attach_buffer]
    omega
  · simp only [Wire.attach_buffer, hpend]
    rw [hp, hv, Nat.sub_self]
    rfl
  · rw [hpend]
    intro chunk hm
    cases hm
  · simp only [WriterOk, h.writer]
    exact .inl ⟨h.continued, hv.symm, rfl⟩

/-- A wire that is released when all of it is read, and nothing is being
written, has nothing on it. -/
theorem Ok.drained (h : Ok c) (hidle : c.writer = .idle) (hp : c.wire.poped = c.wire.pushed)
    (hv : c.wire.pushed_valid = c.wire.pushed) (buffer : Nat → UInt8) :
    Drained { c with wire := c.wire.reset_handle, buffer } := by
  have hw := h.writer
  simp only [WriterOk, hidle] at hw
  have hcont : c.wire.continued = false := by
    rcases hw with hn | ⟨ho, -⟩
    · exact hn.continued
    · have := ho.pushed
      omega
  have hpend : c.log.pending = [] := by
    cases hpe : c.log.pending with
    | nil => rfl
    | cons chunk rest =>
      have := (h.oldest hpe).valid
      omega
  exact ⟨hp, hv, h.pushed_lt, hcont, h.open_, hpend, h.disposed_le, hidle⟩

end Lemmas

end Cell

end tateyama_bootstrap.resultset_wires
