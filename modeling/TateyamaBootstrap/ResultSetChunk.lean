-- Where `get_chunk` of a result-set wire splits a chunk (transport/wire.h). The end of the
-- first part is taken from the page of `pushed_valid_`, which the writer moves.
import TateyamaBootstrap.ResultSetCell

open ring_memory

namespace tateyama_bootstrap.resultset_wires

open simple_wire

namespace Cell

/-- `unidirectional_simple_wire::get_chunk`: the two parts as offsets with their lengths. The
second one is empty where the code leaves `wrap_around` alone. -/
def get_chunk (c : Cell) : (Nat × Nat) × (Nat × Nat) := c.copy_header.views

/-- The length in the header that stands at `poped_`, which may straddle the end. -/
def stored_length (c : Cell) : Nat :=
  bytes.decode (slice c.buffer c.wire.capacity c.wire.poped 4)

/-- The same wire with the writer at another place. -/
def with_valid (c : Cell) (valid : Nat) : Cell :=
  { c with wire := { c.wire with pushed_valid := valid } }

/-- The chunk at `poped_` is published, and the ring is not overrun. -/
structure Readable (c : Cell) : Prop where
  size_lt : 4 < c.wire.capacity
  length_pos : 1 ≤ c.stored_length
  published : c.wire.poped + 4 + c.stored_length ≤ c.wire.pushed_valid
  valid_le : c.wire.pushed_valid ≤ c.wire.poped + c.wire.capacity
  valid_lt : c.wire.pushed_valid < 2 ^ 64

variable {c : Cell}

theorem copy_header_length (h : Readable c) : c.copy_header.length = c.stored_length := by
  have hsize := h.size_lt
  have hpub := h.published
  have hlt := h.valid_lt
  have hslice := bytes.decode_lt (slice c.buffer c.wire.capacity c.wire.poped 4)
  rw [length_slice] at hslice
  have hring : c.ring.copy_header.header_received =
      LengthHeader.of_buffer (slice c.buffer c.wire.capacity c.wire.poped 4) := by
    rw [copy_header_eq (T := LengthHeader) hsize (by change c.wire.poped < 2 ^ 64; omega)]
    rfl
  unfold Cell.length Cell.copy_header
  simp only [hring, LengthHeader.of_buffer]
  rw [List.take_of_length_le (by simp)]
  exact UInt32.toNat_ofNat_of_lt' hslice

theorem get_chunk_views (h : Readable c) :
    Views c c.stored_length c.get_chunk.1 c.get_chunk.2 :=
  views_of_valid (c := c.copy_header) (copy_header_length h) h.length_pos h.size_lt h.published
    h.valid_le h.valid_lt

theorem get_chunk_fits (h : Readable c)
    (hfits : (c.wire.poped + 4) % c.wire.capacity + c.stored_length ≤ c.wire.capacity) :
    c.get_chunk = (((c.wire.poped + 4) % c.wire.capacity, c.stored_length), (0, 0)) := by
  rcases get_chunk_views h with ⟨-, h1, h2⟩ | ⟨h0, -, -⟩
  · exact Prod.ext h1 h2
  · omega

theorem get_chunk_crosses (h : Readable c)
    (hcross : c.wire.capacity < (c.wire.poped + 4) % c.wire.capacity + c.stored_length) :
    c.get_chunk =
      (((c.wire.poped + 4) % c.wire.capacity,
          c.wire.capacity - (c.wire.poped + 4) % c.wire.capacity),
        (0, c.stored_length - (c.wire.capacity - (c.wire.poped + 4) % c.wire.capacity))) := by
  rcases get_chunk_views h with ⟨h0, -, -⟩ | ⟨-, h1, h2⟩
  · omega
  · exact Prod.ext h1 h2

end Cell

open Cell

/-- A chunk is given in two parts exactly when it crosses the end of the buffer, and it is split
at that end, wherever `pushed_valid_` stands. -/
theorem get_chunk_splits_at_the_end_of_the_buffer (c : Cell) (h : Readable c) :
    let C := c.wire.capacity
    let L := c.stored_length
    let top := (c.wire.poped + 4) % C
    (c.get_chunk.2.2 = 0 ↔ top + L ≤ C) ∧
    (top + L ≤ C → c.get_chunk.1 = (top, L)) ∧
    (C < top + L → c.get_chunk = ((top, C - top), (0, L - (C - top)))) ∧
    (c.get_chunk.1.1 + c.get_chunk.1.2 ≤ C ∧ c.get_chunk.2.1 + c.get_chunk.2.2 ≤ C) ∧
    (∀ valid, c.wire.poped + 4 + L ≤ valid → valid ≤ c.wire.poped + C → valid < 2 ^ 64 →
      (c.with_valid valid).get_chunk = c.get_chunk) := by
  intro C L top
  have hsize := h.size_lt
  have hpub := h.published
  have hle := h.valid_le
  have hL : L ≤ C := by omega
  have htop : top < C := Nat.mod_lt _ (by omega)
  by_cases hfits : top + L ≤ C
  · have hone := get_chunk_fits h hfits
    refine ⟨?_, ?_, ?_, ?_, ?_⟩
    · simp [hone, hfits]
    · intro _
      rw [hone]
    · intro hcross
      omega
    · rw [hone]
      exact ⟨hfits, Nat.zero_le _⟩
    · intro valid hlo hhi hlt
      rw [hone]
      exact get_chunk_fits (c := c.with_valid valid) ⟨hsize, h.length_pos, hlo, hhi, hlt⟩ hfits
  · have hcross : C < top + L := Nat.lt_of_not_le hfits
    have htwo := get_chunk_crosses h hcross
    refine ⟨?_, ?_, ?_, ?_, ?_⟩
    · rw [htwo]
      change L - (C - top) = 0 ↔ top + L ≤ C
      omega
    · intro hfits'
      omega
    · intro _
      exact htwo
    · rw [htwo]
      change top + (C - top) ≤ C ∧ 0 + (L - (C - top)) ≤ C
      omega
    · intro valid hlo hhi hlt
      rw [htwo]
      exact get_chunk_crosses (c := c.with_valid valid) ⟨hsize, h.length_pos, hlo, hhi, hlt⟩ hcross

/-- A chunk of three bytes behind its header at 2, in a buffer of eight bytes. -/
def crossing : Cell where
  wire := { Wire.fresh with
    buffer_handle := 1, capacity := 8, pushed := 9, poped := 2, pushed_valid := 9 }
  buffer := fun i => if i = 2 then 3 else 0
  log := ⟨[], [], 0, []⟩
  writer := .idle

theorem a_chunk_of_three_bytes_is_split_after_two : crossing.get_chunk = ((6, 2), (0, 1)) := by
  have h := get_chunk_splits_at_the_end_of_the_buffer crossing
    ⟨by decide, by decide, by decide, by decide, by decide⟩
  exact h.2.2.1 (by decide)

end tateyama_bootstrap.resultset_wires
