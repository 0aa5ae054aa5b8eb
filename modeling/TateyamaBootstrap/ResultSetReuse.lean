-- Wires that are released and acquired again. `release` resets the handle and
-- `acquire` attaches a buffer; the counters and `continued_` stay as they are.
-- This is harmless when a wire is released with nothing on it.
import TateyamaBootstrap.ResultSetDelivery

open runs ring_memory

namespace tateyama_bootstrap.resultset_wires

open simple_wire

namespace Sys

/-- What server and client can rely on when wires change their holder. -/
structure Reuse (s : Sys) : Prop where
  delivery : Delivery s
  /-- A wire with an unread chunk still has its buffer. -/
  attached : ∀ i, s.pending i ≠ [] → i ∈ s.held ∧ (s.pool.wires i).buffer_handle ≠ 0
  /-- A holder that has nothing to flush has no chunk open on its wire. -/
  clean : ∀ i ∈ s.held, s.writers i = .idle → (s.logs i).opened = [] →
    (s.pool.wires i).continued = false ∧
      (s.pool.wires i).pushed = (s.pool.wires i).pushed_valid
  /-- What the next flush will publish is what this holder has written. -/
  own_bytes : ∀ i ∈ s.held, s.writers i = .idle → (s.logs i).opened ≠ [] →
    slice (s.cell i).buffer (s.pool.wires i).capacity ((s.pool.wires i).pushed_valid + 4)
      ((s.pool.wires i).pushed - ((s.pool.wires i).pushed_valid + 4)) = (s.logs i).opened

theorem Inv.reuse {s : Sys} (h : Inv s) : Reuse s := by
  have hset : ∀ i ∈ s.held, s.writers i = .idle → (s.cell i).Settled := by
    intro i hi hidle
    have hw := (h.held i hi).1.writer
    have hidle' : (s.cell i).writer = .idle := hidle
    rw [Cell.WriterOk, hidle'] at hw
    exact hw
  refine ⟨h.delivery, ?_, ?_, ?_⟩
  · intro i hp
    have hi := h.mem_held hp
    exact ⟨hi, h.pool.handle_ne i hi⟩
  · intro i hi hidle hnil
    rcases hset i hi hidle with hn | ⟨-, hne⟩
    · exact ⟨hn.continued, hn.pushed⟩
    · exact absurd hnil hne
  · intro i hi hidle hne
    rcases hset i hi hidle with hn | ⟨ho, -⟩
    · exact absurd hn.opened hne
    · have hp : (s.pool.wires i).pushed = (s.pool.wires i).pushed_valid + 4 +
        (s.logs i).opened.length := ho.pushed
      rw [hp, Nat.add_sub_cancel_left]
      exact ho.bytes

/-- In every run in which a wire is released only when all that was written on
it is flushed and read, nothing is lost and nothing is left over. -/
theorem a_released_wire_loses_nothing (count buffer_size buffer : Nat)
    (memory : Nat → Nat → UInt8) (hb : buffer ≠ 0) (hsize : 4 < buffer_size)
    (hfits : buffer_size < 2 ^ 64) (acts : List Act) (s : Sys)
    (hr : RunOf step (fun s a => Polite s a ∧ Short s a ∧ ReadOut s a)
      (init count buffer_size buffer memory) acts s) : Reuse s := by
  refine (hr.inv (inv_init memory hb hsize hfits) ?_ : Inv s).reuse
  intro t a u ht hc ha
  exact inv_step ht hc.1 hc.2.1 hc.2.2 ha

/-- A wire that is read out, released, and acquired again. -/
def readOutAndReused : List Act :=
  [Act.acquire none] ++ sendChunk 0 [1] ++ takeChunk ++ [Act.release 0, .acquire none] ++
    sendChunk 0 [2] ++ takeChunk

theorem a_released_wire_loses_nothing_when_it_is_read_out :
    ∃ s, RunOf step (fun s a => Polite s a ∧ Short s a ∧ ReadOut s a)
      (init 1 8 8 fun _ _ => 0) readOutAndReused s ∧
      (s.logs 0).obtained = [[1], [2]] ∧ Reuse s := by
  obtain ⟨s, hr, hp⟩ := RunOf.exists_of_exec
    (c := fun s a => decide (Polite s a ∧ Short s a ∧ ReadOut s a))
    (C := fun s a => Polite s a ∧ Short s a ∧ ReadOut s a) (s := init 1 8 8 fun _ _ => 0)
    (p := fun s => (s.logs 0).obtained = [[1], [2]])
    (fun s a => of_decide_eq_true)
    (by decide +kernel : (exec (guarded step _) _ readOutAndReused).any _ = true)
  exact ⟨s, hr, by simpa using hp, a_released_wire_loses_nothing 1 8 8 _ (by decide) (by decide)
    (by decide) _ s hr⟩

/-! ## Wires that are released too early -/

/-- A flushed chunk is not read when its wire is released. -/
def releasedUnread : List Act :=
  [Act.acquire none] ++ sendChunk 0 [7] ++ [Act.release 0, .get_chunk, .client, .client]

/-- A byte is not flushed when its wire is released and acquired again. -/
def releasedUnflushed : List Act :=
  [Act.acquire none, .write 0 [1]] ++ List.replicate 6 (Act.writer 0) ++
    [Act.release 0, .acquire none] ++ [Act.write 0 [2]] ++ List.replicate 4 (Act.writer 0) ++
    [Act.flush 0] ++ List.replicate 3 (Act.writer 0) ++ [Act.get_chunk, .client, .client, .client]

/-- A flushed chunk is not read, and its wire comes back with another buffer. -/
def releasedAndMoved : List Act :=
  [Act.acquire none, .acquire (some 16)] ++ sendChunk 0 [7] ++
    [Act.release 1, .release 0, .acquire none, .get_chunk, .client, .client, .client]

/-- The client follows a null pointer, gets a byte of the previous holder, or
gets an empty chunk in the place of the one that was flushed. -/
theorem a_wire_released_too_early_loses_chunks :
    (∃ s, RunOf step (fun s a => Polite s a ∧ Short s a) (init 1 8 8 fun _ _ => 0)
      releasedUnread s ∧ (s.logs 0).sent = [[7]] ∧ s.client = .crashed ∧ ¬ Reuse s) ∧
    (∃ s, RunOf step (fun s a => Polite s a ∧ Short s a) (init 1 8 8 fun _ _ => 0)
      releasedUnflushed s ∧ (s.logs 0).sent = [[2]] ∧ (s.logs 0).obtained = [[1, 2]] ∧
      ¬ Reuse s) ∧
    ∃ s, RunOf step (fun s a => Polite s a ∧ Short s a) (init 2 8 8 fun _ _ => 0)
      releasedAndMoved s ∧ (s.logs 0).sent = [[7]] ∧ (s.logs 0).obtained = [[]] ∧ ¬ Reuse s := by
  have hrun : ∀ (count : Nat) (acts : List Act) {p : Sys → Bool},
      (exec (guarded step fun s a => decide (Polite s a ∧ Short s a))
        (init count 8 8 fun _ _ => 0) acts).any p = true →
      ∃ s, RunOf step (fun s a => Polite s a ∧ Short s a) (init count 8 8 fun _ _ => 0) acts s ∧
        p s = true := fun _ _ _ h => RunOf.exists_of_exec (fun s a => of_decide_eq_true) h
  refine ⟨?_, ?_, ?_⟩
  · obtain ⟨s, hr, hp⟩ := hrun 1 releasedUnread
      (p := fun s => (s.logs 0).sent = [[7]] ∧ s.client = .crashed) (by decide +kernel)
    obtain ⟨h1, h2⟩ : (s.logs 0).sent = [[7]] ∧ s.client = .crashed := by simpa using hp
    exact ⟨s, hr, h1, h2, fun h => h.delivery.no_crash.1 h2⟩
  · obtain ⟨s, hr, hp⟩ := hrun 1 releasedUnflushed
      (p := fun s => (s.logs 0).sent = [[2]] ∧ (s.logs 0).obtained = [[1, 2]]) (by decide +kernel)
    obtain ⟨h1, h2⟩ : (s.logs 0).sent = [[2]] ∧ (s.logs 0).obtained = [[1, 2]] := by
      simpa using hp
    refine ⟨s, hr, h1, h2, ?_⟩
    intro h
    have hord := h.delivery.order 0
    rw [h1, h2] at hord
    have hmem : ([1, 2] : List UInt8) ∈ [[2]] :=
      List.mem_of_mem_take (hord ▸ List.mem_singleton_self _)
    simp at hmem
  · obtain ⟨s, hr, hp⟩ := hrun 2 releasedAndMoved
      (p := fun s => (s.logs 0).sent = [[7]] ∧ (s.logs 0).obtained = [[]]) (by decide +kernel)
    obtain ⟨h1, h2⟩ : (s.logs 0).sent = [[7]] ∧ (s.logs 0).obtained = [[]] := by simpa using hp
    refine ⟨s, hr, h1, h2, ?_⟩
    intro h
    have hord := h.delivery.order 0
    rw [h1, h2] at hord
    have hmem : ([] : List UInt8) ∈ [[7]] :=
      List.mem_of_mem_take (hord ▸ List.mem_singleton_self _)
    simp at hmem

end Sys

end tateyama_bootstrap.resultset_wires
