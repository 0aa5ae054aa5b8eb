-- What the client of a result set gets: from each wire the chunks that were
-- flushed on it, in their order and unaltered, and at the end of the records
-- all of them.
import TateyamaBootstrap.ResultSetCell

open runs ring_memory

namespace tateyama_bootstrap.resultset_wires

open simple_wire

/-! ## The invariant -/

namespace Sys

/-- Whether a flush has begun whose chunk is not published. -/
def Flushing (w : Writer) : Prop := w = .header ∨ w = .publish

instance (w : Writer) : Decidable (Flushing w) := inferInstanceAs (Decidable (_ ∨ _))

def pending (s : Sys) (i : Nat) : List (List UInt8) := (s.logs i).pending

/-- How many chunks of wire `i` the client has got and not disposed of. -/
def in_hand (s : Sys) (i : Nat) : Nat :=
  match s.client with
  | .holding j _ _ | .disposing j => if j = i then 1 else 0
  | _ => 0

def ClientOk (s : Sys) : Prop :=
  match s.client with
  | .chunk i => ∃ chunk rest, s.pending i = chunk :: rest
  | .split i | .disposing i =>
    ∃ chunk rest, s.pending i = chunk :: rest ∧ (s.cell i).length = chunk.length
  | .holding i first wrap_around =>
    ∃ chunk rest, s.pending i = chunk :: rest ∧ (s.cell i).Views chunk.length first wrap_around
  | .predicate_scan _ true k => s.pool.eor = true ∧ ∀ j < k, s.pending j = []
  | .recheck | .finished => s.pool.eor = true ∧ ∀ j < s.pool.count, s.pending j = []
  | .crashed => False
  | _ => True

structure Inv (s : Sys) : Prop where
  pool : PoolOk s.pool s.held
  size_lt : 4 < s.pool.buffer_size
  size_fits : s.pool.buffer_size < 2 ^ 64
  held : ∀ i ∈ s.held, (s.cell i).Ok ∧ (s.pool.wires i).capacity = s.pool.buffer_size
  unheld : ∀ i, i ∉ s.held → (s.cell i).Drained
  quiet : s.pool.eor = true → ∀ i, ¬ Flushing (s.writers i)
  client : ClientOk s
  obtained : ∀ i, (s.logs i).obtained = (s.logs i).sent.take ((s.logs i).disposed + s.in_hand i)

theorem inv_init {count buffer_size buffer : Nat} (memory : Nat → Nat → UInt8) (hb : buffer ≠ 0)
    (hsize : 4 < buffer_size) (hfits : buffer_size < 2 ^ 64) :
    Inv (init count buffer_size buffer memory) := by
  refine ⟨poolOk_construct hb, hsize, hfits, ?_, ?_, ?_, trivial, ?_⟩
  · intro i hi
    cases hi
  · intro i _
    exact ⟨rfl, rfl, Nat.two_pow_pos 64, rfl, rfl, rfl, Nat.le_refl 0, rfl⟩
  · intro h
    cases h
  · intro i
    rfl

section Lemmas

variable {s t : Sys} {i : Nat} {c : Cell}

theorem pending_getElem {chunk : List UInt8} {rest : List (List UInt8)}
    (h : s.pending i = chunk :: rest) : (s.logs i).sent[(s.logs i).disposed]? = some chunk := by
  have hd := congrArg List.head? h
  simpa [pending, Log.pending, List.head?_drop] using hd

/-- A wire with something to read is held. -/
theorem Inv.mem_held (h : Inv s) (hp : s.pending i ≠ []) : i ∈ s.held := by
  by_contra hn
  exact hp (h.unheld i hn).pending

theorem Inv.poped_le (h : Inv s) (i : Nat) :
    (s.pool.wires i).poped ≤ (s.pool.wires i).pushed_valid ∧
      (s.pool.wires i).pushed_valid ≤ (s.pool.wires i).pushed ∧
      (s.pool.wires i).pushed ≤ (s.pool.wires i).poped + (s.pool.wires i).capacity ∧
      (s.pool.wires i).pushed < 2 ^ 64 := by
  by_cases hi : i ∈ s.held
  · have hok := (h.held i hi).1
    exact ⟨hok.poped_le, hok.valid_le, hok.pushed_le, hok.pushed_lt⟩
  · have hd := h.unheld i hi
    have h1 : (s.pool.wires i).poped = (s.pool.wires i).pushed := hd.poped
    have h2 : (s.pool.wires i).pushed_valid = (s.pool.wires i).pushed := hd.valid
    exact ⟨by omega, by omega, by omega, hd.pushed_lt⟩

theorem Inv.disposed_le (h : Inv s) (i : Nat) : (s.logs i).disposed ≤ (s.logs i).sent.length := by
  by_cases hi : i ∈ s.held
  · exact (h.held i hi).1.disposed_le
  · exact (h.unheld i hi).disposed_le

/-- What the client has in hand is the oldest pending chunk of its wire. -/
theorem ClientOk.in_hand_le (h : ClientOk s) (i : Nat) : s.in_hand i ≤ (s.pending i).length := by
  have hone : ∀ {j : Nat}, s.pending j ≠ [] → (if j = i then 1 else 0) ≤ (s.pending i).length := by
    intro j hj
    split
    · rename_i hji
      rw [← hji]
      exact List.length_pos_iff.mpr hj
    · exact Nat.zero_le _
  unfold ClientOk at h
  unfold in_hand
  split
  · rename_i j first wrap_around hs
    rw [hs] at h
    obtain ⟨chunk, rest, hj, -⟩ := h
    exact hone (by simp [hj])
  · rename_i j hs
    rw [hs] at h
    obtain ⟨chunk, rest, hj, -⟩ := h
    exact hone (by simp [hj])
  · exact Nat.zero_le _

theorem Inv.in_hand_le (h : Inv s) (i : Nat) :
    (s.logs i).disposed + s.in_hand i ≤ (s.logs i).sent.length := by
  have h1 := h.client.in_hand_le i
  have h2 := h.disposed_le i
  simp only [pending, Log.pending, List.length_drop] at h1
  omega

/-- `has_record` says whether a flushed chunk is there. -/
theorem Inv.has_record (h : Inv s) (i : Nat) :
    (s.pool.wires i).has_record = true ↔ s.pending i ≠ [] := by
  obtain ⟨h1, h2, h3, h4⟩ := h.poped_le i
  have hst : (s.pool.wires i).stored_valid =
      (s.pool.wires i).pushed_valid - (s.pool.wires i).poped := by
    unfold Wire.stored_valid
    omega
  unfold Wire.has_record
  rw [decide_eq_true_iff, hst]
  constructor
  · intro hpos hnil
    by_cases hi : i ∈ s.held
    · have hch := congrArg List.length (h.held i hi).1.chunks
      have hnil' : (s.cell i).log.pending = [] := hnil
      rw [hnil', length_slice] at hch
      simp only [List.flatMap_nil, List.length_nil] at hch
      have : (s.pool.wires i).pushed_valid - (s.pool.wires i).poped = 0 := hch
      omega
    · have hd := h.unheld i hi
      have h5 : (s.pool.wires i).poped = (s.pool.wires i).pushed := hd.poped
      omega
  · intro hne
    obtain ⟨chunk, rest, hp⟩ := List.exists_cons_of_ne_nil hne
    have hv := ((h.held i (h.mem_held hne)).1.oldest hp).valid
    have hv' : (s.pool.wires i).poped + 4 + chunk.length ≤ (s.pool.wires i).pushed_valid := hv
    omega

/-! ## One wire changes -/

theorem cell_put_cell (hh : c.wire.buffer_handle = (s.pool.wires i).buffer_handle) :
    (s.put_cell i c).cell i = c := by
  unfold cell put_cell
  simp [hh]

theorem cell_put_cell_of_ne (h : Inv s) (hi : i ∈ s.held) {j : Nat} (hj : j ≠ i) :
    (s.put_cell i c).cell j = s.cell j := by
  have hne : (s.pool.wires j).buffer_handle ≠ (s.pool.wires i).buffer_handle := by
    by_cases hjh : j ∈ s.held
    · exact h.pool.other_handle hi hjh hj
    · rw [h.pool.free j hjh]
      exact (h.pool.handle_ne i hi).symm
  unfold cell put_cell
  simp [Function.update_of_ne hj, Function.update_of_ne hne]

theorem poolOk_put_cell (h : PoolOk s.pool s.held)
    (hh : c.wire.buffer_handle = (s.pool.wires i).buffer_handle) :
    PoolOk (s.put_cell i c).pool s.held := by
  have hsame : ∀ j, ((s.put_cell i c).pool.wires j).buffer_handle =
      (s.pool.wires j).buffer_handle := by
    intro j
    by_cases hj : j = i
    · subst hj
      simp [put_cell, hh]
    · simp [put_cell, Function.update_of_ne hj]
  refine ⟨⟨h.nodup, h.count_using, h.below, h.next_le, ?_, ?_, ?_⟩, ?_, h.live_nodup, ?_,
    h.reserved_some⟩
  · intro j hj
    rw [hsame]
    exact h.handle_ne j hj
  · intro j hj
    rw [hsame]
    exact h.free j hj
  · intro j hj k hk he
    rw [hsame, hsame] at he
    exact h.distinct j hj k hk he
  · intro b hb
    obtain ⟨h1, h2⟩ := h.reserved_ne b hb
    refine ⟨h1, ?_⟩
    intro j hj
    rw [hsame]
    exact h2 j hj
  · intro b
    simp only [hsame]
    exact h.live_iff b

/-- The rule for a step on one held wire. -/
theorem Inv.with_cell (h : Inv s) (hi : i ∈ s.held) (hok : c.Ok)
    (hh : c.wire.buffer_handle = (s.pool.wires i).buffer_handle)
    (hcap : c.wire.capacity = (s.pool.wires i).capacity)
    (hq : s.pool.eor = true → ¬ Flushing c.writer) (client : Client)
    (hcl : ClientOk { s.put_cell i c with client })
    (hob : ∀ j, ({ s.put_cell i c with client }.logs j).obtained =
      ({ s.put_cell i c with client }.logs j).sent.take
        (({ s.put_cell i c with client }.logs j).disposed +
          in_hand { s.put_cell i c with client } j)) :
    Inv { s.put_cell i c with client } := by
  refine ⟨poolOk_put_cell h.pool hh, h.size_lt, h.size_fits, ?_, ?_, ?_, hcl, hob⟩
  · intro j hj
    by_cases hji : j = i
    · subst hji
      refine ⟨?_, ?_⟩
      · rw [← cell_put_cell (s := s) hh] at hok
        exact hok
      · simp only [put_cell, Function.update_self, hcap]
        exact (h.held j hi).2
    · refine ⟨?_, ?_⟩
      · have hc := (h.held j hj).1
        rw [← cell_put_cell_of_ne (c := c) h hi hji] at hc
        exact hc
      · simp only [put_cell, Function.update_of_ne hji]
        exact (h.held j hj).2
  · intro j hj
    have hji : j ≠ i := by
      rintro rfl
      exact hj hi
    have hc := h.unheld j hj
    rw [← cell_put_cell_of_ne (c := c) h hi hji] at hc
    exact hc
  · intro he j
    by_cases hji : j = i
    · subst hji
      simp only [put_cell, Function.update_self]
      exact hq he
    · simp only [put_cell, Function.update_of_ne hji]
      exact h.quiet he j

/-- The client is where it was, and what it relies on is as it was. -/
theorem ClientOk.mono (h : ClientOk s) (hcl : t.client = s.client)
    (hcount : t.pool.count = s.pool.count)
    (heor : s.pool.eor = true → t.pool.eor = true ∧ ∀ j, t.pending j = s.pending j)
    (hp : ∀ j, s.pending j <+: t.pending j)
    (hcell : ∀ j, s.pending j ≠ [] → (t.cell j).length = (s.cell j).length ∧
      (t.pool.wires j).poped = (s.pool.wires j).poped ∧
      (t.pool.wires j).capacity = (s.pool.wires j).capacity) : ClientOk t := by
  have hgrow : ∀ {j chunk rest}, s.pending j = chunk :: rest →
      ∃ more, t.pending j = chunk :: (rest ++ more) := by
    intro j chunk rest hj
    obtain ⟨more, hm⟩ := hp j
    exact ⟨more, by rw [← hm, hj]; rfl⟩
  unfold ClientOk at h ⊢
  rw [hcl]
  cases hs : s.client with
  | idle | scan _ | predicate _ | blocked | timed_out | failed => trivial
  | crashed =>
    rw [hs] at h
    exact h
  | chunk j =>
    rw [hs] at h
    obtain ⟨chunk, rest, hj⟩ := h
    obtain ⟨more, hm⟩ := hgrow hj
    exact ⟨chunk, _, hm⟩
  | split j | disposing j =>
    rw [hs] at h
    obtain ⟨chunk, rest, hj, hl⟩ := h
    obtain ⟨more, hm⟩ := hgrow hj
    exact ⟨chunk, _, hm, by rw [(hcell j (by simp [hj])).1]; exact hl⟩
  | holding j first wrap_around =>
    rw [hs] at h
    obtain ⟨chunk, rest, hj, hv⟩ := h
    obtain ⟨more, hm⟩ := hgrow hj
    obtain ⟨-, h2, h3⟩ := hcell j (by simp [hj])
    refine ⟨chunk, _, hm, ?_⟩
    unfold Cell.Views at hv ⊢
    simp only [cell] at hv ⊢
    rw [h2, h3]
    exact hv
  | predicate_scan last eor k =>
    rw [hs] at h
    cases eor with
    | false => trivial
    | true =>
      obtain ⟨h1, h2⟩ := h
      obtain ⟨h3, h4⟩ := heor h1
      exact ⟨h3, fun j hj => by rw [h4, h2 j hj]⟩
  | recheck | finished =>
    rw [hs] at h
    obtain ⟨h1, h2⟩ := h
    obtain ⟨h3, h4⟩ := heor h1
    exact ⟨h3, fun j hj => by rw [h4]; exact h2 j (by rw [← hcount]; exact hj)⟩

/-! ## The server -/

/-- What a writer does on its wire the client may see while it waits or reads. -/
theorem Inv.wrote (h : Inv s) (hi : i ∈ s.held) (hok : c.Ok) (hw : (s.cell i).Wrote c)
    (hq : s.pool.eor = true → ¬ Flushing c.writer) : Inv (s.put_cell i c) := by
  have hlog : ∀ j, ((s.put_cell i c).logs j).disposed = (s.logs j).disposed ∧
      ((s.put_cell i c).logs j).obtained = (s.logs j).obtained ∧
      (s.logs j).sent <+: ((s.put_cell i c).logs j).sent := by
    intro j
    by_cases hji : j = i
    · subst hji
      simp only [put_cell, Function.update_self]
      exact ⟨hw.disposed, hw.obtained, hw.sent⟩
    · simp only [put_cell, Function.update_of_ne hji]
      exact ⟨trivial, trivial, List.prefix_rfl⟩
  refine h.with_cell hi hok hw.handle hw.capacity hq s.client ?_ ?_
  · refine h.client.mono rfl rfl ?_ ?_ ?_
    · intro he
      refine ⟨he, ?_⟩
      intro j
      by_cases hji : j = i
      · subst hji
        have hnp : (s.cell j).writer ≠ .publish := fun hp => h.quiet he j (.inr hp)
        simp only [pending, Log.pending, put_cell, Function.update_self]
        rw [hw.quiet hnp, hw.disposed]
        rfl
      · simp only [pending, put_cell, Function.update_of_ne hji]
    · intro j
      obtain ⟨h1, -, more, h3⟩ := hlog j
      refine ⟨more, ?_⟩
      simp only [pending, Log.pending]
      rw [h1, ← h3, List.drop_append_of_le_length (h.disposed_le j)]
    · intro j _
      by_cases hji : j = i
      · subst hji
        refine ⟨?_, ?_, ?_⟩
        · simp only [Cell.length, cell, put_cell, Function.update_self]
          rw [hw.header]
          rfl
        · simp only [put_cell, Function.update_self]
          exact hw.poped
        · simp only [put_cell, Function.update_self]
          exact hw.capacity
      · simp [Cell.length, cell, put_cell, Function.update_of_ne hji]
  · intro j
    obtain ⟨h1, h2, more, h3⟩ := hlog j
    have hob := h.obtained j
    dsimp only
    rw [h1, h2, ← h3]
    exact hob.trans (List.take_append_of_le_length (h.in_hand_le j)).symm

theorem Inv.acquire (h : Inv s) {fresh : Option Nat} (hlt : s.held.length < s.pool.count)
    (hf : Fresh s.pool fresh) {pool : Wires} (ha : s.pool.acquire fresh = .ok (i, pool)) :
    Inv { s with
      pool, held := i :: s.held, logs := Function.update s.logs i (Cell.new_holder (s.logs i)) } := by
  rcases h.pool.acquire hlt hf with ⟨-, he⟩ | ⟨i', b, w', he, hi, hat, hp⟩
  · rw [he] at ha
    cases ha
  · rw [he] at ha
    cases ha
    have hd := h.unheld i hi
    have hlog : ∀ j, (Function.update s.logs i (Cell.new_holder (s.logs i)) j).sent =
          (s.logs j).sent ∧
        (Function.update s.logs i (Cell.new_holder (s.logs i)) j).disposed = (s.logs j).disposed ∧
        (Function.update s.logs i (Cell.new_holder (s.logs i)) j).obtained =
          (s.logs j).obtained := by
      intro j
      by_cases hji : j = i
      · subst hji
        rw [Function.update_self]
        exact ⟨rfl, rfl, rfl⟩
      · rw [Function.update_of_ne hji]
        exact ⟨rfl, rfl, rfl⟩
    have hother : ∀ j, j ≠ i → cell { s with
        pool, held := i :: s.held
        logs := Function.update s.logs i (Cell.new_holder (s.logs i)) } j = s.cell j := by
      intro j hji
      simp only [cell, hat.other hji, hat.memory, Function.update_of_ne hji]
    refine ⟨hp, ?_, ?_, ?_, ?_, ?_, ?_, ?_⟩
    · rw [hat.buffer_size]
      exact h.size_lt
    · rw [hat.buffer_size]
      exact h.size_fits
    · intro j hj
      by_cases hji : j = i
      · subst hji
        have hb : b ≠ 0 := by
          rw [← hat.handle]
          exact hp.handle_ne j hj
        refine ⟨?_, ?_⟩
        · have hok := hd.attach (pool.memory (pool.wires j).buffer_handle) h.size_lt
            h.size_fits hb
          simp only [cell, hat.wires, Function.update_self] at hok ⊢
          exact hok
        · simp only [hat.wires, Function.update_self, Wire.attach_buffer, hat.buffer_size]
      · have hjh : j ∈ s.held := by simpa [hji] using hj
        rw [hother j hji, hat.other hji, hat.buffer_size]
        exact h.held j hjh
    · intro j hj
      rw [List.mem_cons, not_or] at hj
      rw [hother j hj.1]
      exact h.unheld j hj.2
    · intro he
      rw [hat.eor] at he
      exact h.quiet he
    · refine h.client.mono rfl hat.count ?_ ?_ ?_
      · intro he
        refine ⟨hat.eor.trans he, ?_⟩
        intro j
        simp only [Sys.pending, Log.pending, hlog j]
      · intro j
        simp only [Sys.pending, Log.pending, hlog j]
        exact List.prefix_rfl
      · intro j hj
        have hji : j ≠ i := by
          rintro rfl
          exact hj hd.pending
        rw [hother j hji, hat.other hji]
        exact ⟨rfl, rfl, rfl⟩
    · intro j
      obtain ⟨h1, h2, h3⟩ := hlog j
      dsimp only
      rw [h1, h2, h3]
      exact h.obtained j

theorem Inv.release (h : Inv s) (hi : i ∈ s.held) (hidle : s.writers i = .idle)
    (hp : (s.pool.wires i).poped = (s.pool.wires i).pushed)
    (hv : (s.pool.wires i).pushed_valid = (s.pool.wires i).pushed) {pool : Wires}
    (hr : s.pool.release i = .ok pool) : Inv { s with pool, held := s.held.erase i } := by
  obtain ⟨w', he, hde, hpool⟩ := h.pool.release hi
  rw [he] at hr
  cases hr
  have hdr := fun buffer => (h.held i hi).1.drained hidle hp hv buffer
  have hother : ∀ j, j ≠ i → cell { s with pool, held := s.held.erase i } j = s.cell j := by
    intro j hji
    simp only [cell, hde.other hji, hde.memory]
  refine ⟨hpool, ?_, ?_, ?_, ?_, ?_, ?_, h.obtained⟩
  · rw [hde.buffer_size]
    exact h.size_lt
  · rw [hde.buffer_size]
    exact h.size_fits
  · intro j hj
    obtain ⟨hji, hjh⟩ := h.pool.nodup.mem_erase_iff.mp hj
    rw [hother j hji, hde.other hji, hde.buffer_size]
    exact h.held j hjh
  · intro j hj
    by_cases hji : j = i
    · subst hji
      simp only [cell, hde.wires, Function.update_self]
      exact hdr _
    · rw [hother j hji]
      exact h.unheld j fun hm => hj (h.pool.nodup.mem_erase_iff.mpr ⟨hji, hm⟩)
  · intro he
    rw [hde.eor] at he
    exact h.quiet he
  · refine h.client.mono rfl hde.count (fun he => ⟨hde.eor.trans he, fun _ => rfl⟩)
      (fun _ => List.prefix_rfl) ?_
    intro j hj
    have hji : j ≠ i := by
      rintro rfl
      exact hj (hdr fun _ => 0).pending
    rw [hother j hji, hde.other hji]
    exact ⟨rfl, rfl, rfl⟩

/-! ## The client -/

/-- Only the client has moved. -/
theorem Inv.with_client (h : Inv s) {client : Client} (hcl : ClientOk { s with client })
    (hin : ∀ j, in_hand { s with client } j = s.in_hand j) : Inv { s with client } := by
  refine ⟨h.pool, h.size_lt, h.size_fits, h.held, h.unheld, h.quiet, hcl, ?_⟩
  intro j
  rw [hin]
  exact h.obtained j

/-- The client looks at a wire while it has nothing in hand. -/
theorem Inv.look (h : Inv s) {index : Nat} {next done : Client} (h0 : ∀ j, s.in_hand j = 0)
    (hnext : s.pending index = [] → ClientOk { s with client := next })
    (hdone : s.pool.count ≤ index → ClientOk { s with client := done })
    (hn0 : ∀ j, in_hand { s with client := next } j = 0)
    (hd0 : ∀ j, in_hand { s with client := done } j = 0) :
    Inv (look s index next done) := by
  unfold resultset_wires.look
  split
  · split
    · rename_i hrec
      apply h.with_client
      · exact List.exists_cons_of_ne_nil ((h.has_record index).mp hrec)
      · intro j
        rw [h0]
        rfl
    · rename_i hrec
      apply h.with_client
      · apply hnext
        by_contra hne
        exact hrec ((h.has_record index).mpr hne)
      · intro j
        rw [h0, hn0]
  · apply h.with_client
    · exact hdone (by omega)
    · intro j
      rw [h0, hd0]

/-- The client copies a header: the wire it reads has a buffer. -/
theorem Inv.client_header (h : Inv s) {chunk : List UInt8} {rest : List (List UInt8)}
    (hp : s.pending i = chunk :: rest) {next : Client}
    (hnext : next = .split i ∨ next = .disposing i)
    (hin : ∀ j, in_hand { s with client := next } j = s.in_hand j) :
    Inv (client_header s i next) := by
  have hi := h.mem_held (i := i) (by simp [hp])
  have hok := (h.held i hi).1
  obtain ⟨hok', hlen⟩ := hok.copy_header hp
  have hne : (s.pool.wires i).buffer_handle ≠ 0 := hok.handle
  have hcopied : (s.put_cell i (s.cell i).copy_header).pending i = chunk :: rest ∧
      ((s.put_cell i (s.cell i).copy_header).cell i).length = chunk.length := by
    rw [cell_put_cell rfl]
    simp only [pending, put_cell, Function.update_self]
    exact ⟨hp, hlen⟩
  have hcl : ClientOk { s.put_cell i (s.cell i).copy_header with client := next } := by
    rcases hnext with rfl | rfl
    · exact ⟨chunk, rest, hcopied⟩
    · exact ⟨chunk, rest, hcopied⟩
  unfold resultset_wires.client_header
  simp only [Wire.get_bip_address, hne, ne_eq, not_false_eq_true, if_true]
  refine h.with_cell hi hok' rfl rfl (fun he => h.quiet he i) _ hcl ?_
  intro j
  have hlog : (s.put_cell i (s.cell i).copy_header).logs j = s.logs j := by
    by_cases hji : j = i
    · subst hji
      simp only [put_cell, Function.update_self]
      rfl
    · simp only [put_cell, Function.update_of_ne hji]
  have hin' : in_hand { s.put_cell i (s.cell i).copy_header with client := next } j =
      s.in_hand j := hin j
  dsimp only
  rw [hin', hlog]
  exact h.obtained j

theorem client_step_split (hs : s.client = .split i) :
    client_step s = some { s.put_cell i ((s.cell i).obtain_chunk
        ((s.cell i).shown (s.cell i).views.1 (s.cell i).views.2)) with
      client := .holding i (s.cell i).views.1 (s.cell i).views.2 } := by
  rw [client_step, hs]

theorem Inv.split (h : Inv s) (hs : s.client = .split i) :
    Inv { s.put_cell i ((s.cell i).obtain_chunk
        ((s.cell i).shown (s.cell i).views.1 (s.cell i).views.2)) with
      client := .holding i (s.cell i).views.1 (s.cell i).views.2 } := by
  have hcl := h.client
  unfold ClientOk at hcl
  rw [hs] at hcl
  obtain ⟨chunk, rest, hp, hlen⟩ := hcl
  have hi := h.mem_held (i := i) (by simp [hp])
  have hok := (h.held i hi).1
  have hv := hok.views hp hlen
  have hshown := hok.shown hp hv
  have hok' : ((s.cell i).obtain_chunk chunk).Ok :=
    ⟨hok.bounded, hok.handle, hok.open_, hok.poped_le, hok.valid_le, hok.chunks, hok.small,
      hok.disposed_le, hok.writer.of_client rfl rfl rfl rfl rfl rfl rfl (Nat.le_refl _)⟩
  rw [hshown]
  refine h.with_cell hi hok' rfl rfl (fun he => h.quiet he i) _ ?_ ?_
  · refine ⟨chunk, rest, ?_, ?_⟩
    · simp only [pending, put_cell, Function.update_self]
      exact hp
    · simp only [cell, put_cell, Function.update_self]
      exact hv
  · intro j
    have hob := h.obtained j
    have h0 : s.in_hand j = 0 := by
      unfold in_hand
      rw [hs]
    rw [h0] at hob
    by_cases hji : j = i
    · subst hji
      have hsent := pending_getElem hp
      simp only [put_cell, Function.update_self, Cell.obtain_chunk, cell, in_hand, if_true]
      rw [List.take_add_one, hsent, hob]
      rfl
    · have hij : ¬ i = j := fun he => hji he.symm
      simp only [put_cell, Function.update_of_ne hji, in_hand, hij, if_false]
      exact hob

theorem Inv.disposing (h : Inv s) (hs : s.client = .disposing i) :
    Inv { s.put_cell i (s.cell i).dispose with client := .idle } := by
  have hcl := h.client
  unfold ClientOk at hcl
  rw [hs] at hcl
  obtain ⟨chunk, rest, hp, hlen⟩ := hcl
  have hi := h.mem_held (i := i) (by simp [hp])
  obtain ⟨hok', -⟩ := (h.held i hi).1.dispose hp hlen
  refine h.with_cell hi hok' rfl rfl (fun he => h.quiet he i) _ trivial ?_
  intro j
  have hob := h.obtained j
  unfold in_hand at hob
  rw [hs] at hob
  by_cases hji : j = i
  · subst hji
    simp only [put_cell, Function.update_self, Cell.dispose, cell, in_hand, Nat.add_zero]
    simpa using hob
  · have hij : ¬ i = j := fun he => hji he.symm
    simp only [put_cell, Function.update_of_ne hji, in_hand]
    simpa [hij] using hob

theorem Inv.client_step (h : Inv s) (hs : client_step s = some t) : Inv t := by
  have hcl := h.client
  unfold resultset_wires.client_step at hs
  split at hs
  · rename_i index hc
    cases hs
    have h0 : ∀ j, s.in_hand j = 0 := fun j => by simp [in_hand, hc]
    exact h.look h0 (fun _ => trivial) (fun _ => trivial) (fun _ => rfl) fun _ => rfl
  · rename_i last hc
    cases hs
    apply h.with_client
    · cases he : s.pool.eor with
      | false => trivial
      | true => exact ⟨he, fun j hj => absurd hj (Nat.not_lt_zero j)⟩
    · intro j
      simp [in_hand, hc]
  · rename_i last eor index hc
    cases hs
    have h0 : ∀ j, s.in_hand j = 0 := fun j => by simp [in_hand, hc]
    rw [ClientOk, hc] at hcl
    cases eor with
    | false =>
      refine h.look h0 (fun _ => trivial) (fun _ => ?_) (fun _ => rfl) (fun _ => ?_)
      · cases last <;> trivial
      · cases last <;> rfl
    | true =>
      obtain ⟨he, hprev⟩ := hcl
      refine h.look h0 (fun hnil => ⟨he, ?_⟩) (fun hle => ⟨he, ?_⟩) (fun _ => rfl) fun _ => rfl
      · intro j hj
        rcases Nat.lt_succ_iff_lt_or_eq.mp hj with hj | rfl
        · exact hprev j hj
        · exact hnil
      · intro j hj
        exact hprev j (Nat.lt_of_lt_of_le hj hle)
  · rename_i hc
    cases hs
    rw [ClientOk, hc] at hcl
    apply h.with_client
    · rw [hcl.1]
      exact hcl
    · intro j
      rw [hcl.1]
      simp [in_hand, hc]
  · rename_i index hc
    cases hs
    rw [ClientOk, hc] at hcl
    obtain ⟨chunk, rest, hp⟩ := hcl
    exact h.client_header hp (.inl rfl) fun j => by simp [in_hand, hc]
  · rename_i index hc
    cases hs
    exact h.split hc
  · rename_i index hc
    cases hs
    exact h.disposing hc
  · cases hs

theorem Inv.start_dispose (h : Inv s) {first wrap_around : Nat × Nat}
    (hc : s.client = .holding i first wrap_around) :
    Inv (resultset_wires.client_header s i (.disposing i)) := by
  have hcl := h.client
  rw [ClientOk, hc] at hcl
  obtain ⟨chunk, rest, hp, -⟩ := hcl
  exact h.client_header hp (.inr rfl) fun j => by simp [in_hand, hc]

/-! ## Runs -/

/-- The order of the calls: `set_eor` comes after the last flush, and nobody
calls `set_closed`. -/
def Polite (s : Sys) : Act → Prop
  | .set_closed => False
  | .set_eor => ∀ i ∈ s.held, ¬ Flushing (s.writers i)
  | .flush _ => s.pool.eor = false
  | _ => True

/-- A chunk is shorter than 2^32 bytes when it is flushed, and the bytes of a
wire stay below 2^64. -/
def Short (s : Sys) : Act → Prop
  | .write i src => (s.pool.wires i).pushed + 4 + src.length < 2 ^ 64
  | .flush i => (s.pool.wires i).pushed - (s.pool.wires i).pushed_valid - 4 < 2 ^ 32
  | _ => True

/-- A wire is released when all that was written on it is flushed and read. -/
def ReadOut (s : Sys) : Act → Prop
  | .release i => (s.pool.wires i).poped = (s.pool.wires i).pushed ∧
      (s.pool.wires i).pushed_valid = (s.pool.wires i).pushed
  | _ => True

instance (s : Sys) (a : Act) : Decidable (Polite s a) := by
  cases a <;> unfold Polite <;> infer_instance

instance (s : Sys) (a : Act) : Decidable (Short s a) := by
  cases a <;> unfold Short <;> infer_instance

instance (s : Sys) (a : Act) : Decidable (ReadOut s a) := by
  cases a <;> unfold ReadOut <;> infer_instance

/-- A step of a writer begins no flush. -/
theorem flushing_of_write_step {c c' : Cell} (hs : c.write_step = some c')
    (hf : Flushing c'.writer) : Flushing c.writer := by
  have hno : ∀ {pos : Nat} {src data : List UInt8},
      ¬ Flushing (c.write_in_buffer pos src (.push data)).writer := by
    intro pos src data hf
    unfold Cell.write_in_buffer at hf
    split at hf <;> simp [Flushing] at hf
  cases hw : c.writer with
  | header => exact .inl rfl
  | publish => exact .inr rfl
  | idle | crashed => simp [Cell.write_step, hw] at hs
  | write src =>
    simp only [Cell.write_step, hw] at hs
    split at hs
    · split at hs <;> (cases hs; simp [Flushing] at hf)
    · cases hs
      simp [Flushing] at hf
  | brand_new src | room src =>
    simp only [Cell.write_step, hw] at hs
    split at hs
    · cases hs
      simp [Flushing] at hf
    · cases hs
  | reserve src | push src | notify =>
    simp only [Cell.write_step, hw, Option.some.injEq] at hs
    subst hs
    simp [Flushing] at hf
  | store src =>
    simp only [Cell.write_step, hw, Option.some.injEq] at hs
    subst hs
    exact absurd hf hno

theorem Inv.writer_step (h : Inv s) (hs : (s.cell i).write_step = some c) :
    Inv (s.put_cell i c) := by
  have hi : i ∈ s.held := by
    by_contra hn
    have hw : (s.cell i).writer = .idle := (h.unheld i hn).writer
    simp [Cell.write_step, hw] at hs
  refine h.wrote hi ((h.held i hi).1.write_step hs) (Cell.wrote_of_write_step hs) ?_
  intro he hfl
  have hq := h.quiet he i
  have hw : s.writers i = (s.cell i).writer := rfl
  rw [hw] at hq
  exact hq (flushing_of_write_step hs hfl)

theorem inv_step {a : Act} (h : Inv s) (hpo : Polite s a) (hsh : Short s a) (hro : ReadOut s a)
    (ha : step s a = some t) : Inv t := by
  have hsame : ∀ {i : Nat} {writer : Writer}, (s.cell i).Wrote { s.cell i with writer } :=
    ⟨rfl, rfl, rfl, rfl, rfl, rfl, List.prefix_rfl, fun _ => rfl⟩
  cases a with
  | acquire fresh =>
    simp only [step] at ha
    split at ha
    · rename_i hc
      split at ha
      · rename_i i pool hacq
        cases ha
        exact h.acquire hc.1 hc.2 hacq
      · cases ha
    · cases ha
  | release i =>
    simp only [step] at ha
    split at ha
    · rename_i hc
      split at ha
      · rename_i pool hrel
        cases ha
        exact h.release hc.1 hc.2 hro.1 hro.2 hrel
      · cases ha
    · cases ha
  | write i src =>
    simp only [step] at ha
    split at ha
    · rename_i hi
      obtain ⟨c, hc, rfl⟩ := Option.map_eq_some_iff.mp ha
      obtain ⟨hok, rfl⟩ := (h.held i hi).1.guard hc hsh
      refine h.wrote hi hok hsame ?_
      intro _ hf
      simp [Flushing] at hf
    · cases ha
  | flush i =>
    simp only [step] at ha
    split at ha
    · rename_i hi
      obtain ⟨c, hc, rfl⟩ := Option.map_eq_some_iff.mp ha
      obtain ⟨hok, writer, rfl⟩ := (h.held i hi).1.flush hc hsh
      refine h.wrote hi hok hsame ?_
      intro he
      have hno : s.pool.eor = false := hpo
      rw [hno] at he
      cases he
    · cases ha
  | writer i =>
    simp only [step] at ha
    obtain ⟨c, hc, rfl⟩ := Option.map_eq_some_iff.mp ha
    exact h.writer_step hc
  | set_eor =>
    simp only [step, Option.some.injEq] at ha
    subst ha
    refine ⟨⟨⟨h.pool.nodup, h.pool.count_using, h.pool.below, h.pool.next_le, h.pool.handle_ne,
        h.pool.free, h.pool.distinct⟩, h.pool.reserved_ne, h.pool.live_nodup, h.pool.live_iff,
        h.pool.reserved_some⟩, h.size_lt, h.size_fits, h.held, h.unheld, ?_, ?_, h.obtained⟩
    · intro _ i
      by_cases hi : i ∈ s.held
      · exact hpo i hi
      · have hw : s.writers i = .idle := (h.unheld i hi).writer
        simp [Flushing, hw]
    · exact h.client.mono rfl rfl (fun _ => ⟨rfl, fun _ => rfl⟩) (fun _ => List.prefix_rfl)
        fun _ _ => ⟨rfl, rfl, rfl⟩
  | set_closed => exact absurd hpo id
  | get_chunk | wake | timeout =>
    simp only [step] at ha
    split at ha
    · rename_i hc
      cases ha
      exact h.with_client trivial fun j => by simp [in_hand, hc]
    · cases ha
  | client => exact h.client_step ha
  | is_alive alive =>
    simp only [step] at ha
    split at ha
    · rename_i hc
      cases ha
      refine h.with_client ?_ fun j => ?_
      · cases alive <;> trivial
      · cases alive <;> simp [in_hand, hc]
    · cases ha
  | dispose =>
    simp only [step] at ha
    split at ha
    · rename_i i first wrap_around hc
      cases ha
      exact h.start_dispose hc
    · cases ha

end Lemmas

/-! ## Delivery -/

/-- The server releases no wire while it sends. -/
def Orderly (s : Sys) (a : Act) : Prop := Polite s a ∧ a.releases = false

instance (s : Sys) (a : Act) : Decidable (Orderly s a) := inferInstanceAs (Decidable (_ ∧ _))

/-- What the client of a result set can rely on. -/
structure Delivery (s : Sys) : Prop where
  counters : ∀ i, (s.pool.wires i).poped ≤ (s.pool.wires i).pushed_valid ∧
    (s.pool.wires i).pushed_valid ≤ (s.pool.wires i).pushed ∧
    (s.pool.wires i).pushed ≤ (s.pool.wires i).poped + (s.pool.wires i).capacity
  /-- As long as the client holds a chunk, its views show the oldest one that is
  flushed and not disposed of. -/
  chunk : ∀ i first wrap_around, s.client = .holding i first wrap_around →
    (s.logs i).sent[(s.logs i).disposed]? = some ((s.cell i).shown first wrap_around)
  order : ∀ i, (s.logs i).obtained = (s.logs i).sent.take ((s.logs i).disposed + s.in_hand i)
  complete : s.client = .finished → ∀ i, (s.logs i).obtained = (s.logs i).sent
  no_crash : s.client ≠ .crashed ∧ ∀ i, s.writers i ≠ .crashed

theorem Inv.delivery {s : Sys} (h : Inv s) : Delivery s := by
  refine ⟨?_, ?_, h.obtained, ?_, ?_, ?_⟩
  · intro i
    obtain ⟨h1, h2, h3, -⟩ := h.poped_le i
    exact ⟨h1, h2, h3⟩
  · intro i first wrap_around hc
    have hcl := h.client
    rw [ClientOk, hc] at hcl
    obtain ⟨chunk, rest, hp, hv⟩ := hcl
    have hi := h.mem_held (i := i) (by simp [hp])
    rw [(h.held i hi).1.shown hp hv]
    exact pending_getElem hp
  · intro hc i
    have hcl := h.client
    rw [ClientOk, hc] at hcl
    have hpend : s.pending i = [] := by
      by_contra hne
      have hi := h.mem_held hne
      exact hne (hcl.2 i (Nat.lt_of_lt_of_le (h.pool.below i hi) h.pool.next_le))
    have h0 : s.in_hand i = 0 := by
      unfold in_hand
      rw [hc]
    rw [h.obtained i, h0, Nat.add_zero, List.take_of_length_le]
    exact List.drop_eq_nil_iff.mp hpend
  · intro hc
    have hcl := h.client
    rw [ClientOk, hc] at hcl
    exact hcl
  · intro i hw
    by_cases hi : i ∈ s.held
    · have hok := (h.held i hi).1.writer
      have hw' : (s.cell i).writer = .crashed := hw
      rw [Cell.WriterOk, hw'] at hok
      exact hok
    · have hidle : s.writers i = .idle := (h.unheld i hi).writer
      rw [hidle] at hw
      cases hw

/-- In every run in which the chunks stay below 2^32 bytes and a wire below
2^64, the client gets what was flushed, and at the end all of it. -/
theorem every_flushed_chunk_is_delivered (count buffer_size buffer : Nat)
    (memory : Nat → Nat → UInt8) (hb : buffer ≠ 0) (hsize : 4 < buffer_size)
    (hfits : buffer_size < 2 ^ 64) (acts : List Act) (s : Sys)
    (hr : RunOf step (fun s a => Orderly s a ∧ Short s a) (init count buffer_size buffer memory)
      acts s) : Delivery s := by
  refine (hr.inv (inv_init memory hb hsize hfits) ?_ : Inv s).delivery
  intro t a u ht hc ha
  refine inv_step ht hc.1.1 hc.2 ?_ ha
  cases a with
  | release i => cases hc.1.2
  | _ => trivial

/-- A chunk of one write, and how the client takes it from wire 0. -/
def sendChunk (i : Nat) (src : List UInt8) : List Act :=
  [Act.write i src] ++ List.replicate 6 (Act.writer i) ++ [Act.flush i] ++
    List.replicate 3 (Act.writer i)

def takeChunk : List Act := [.get_chunk, .client, .client, .client, .dispose, .client]

/-- Two wires over rings of eight bytes. The third chunk of the first wire
crosses the end of its ring. -/
def twoWires : List Act :=
  [Act.acquire none, .acquire (some 16)] ++ sendChunk 0 [1] ++ takeChunk ++ sendChunk 0 [2, 3] ++
    sendChunk 1 [9] ++ takeChunk ++ sendChunk 0 [4, 5] ++ [Act.set_eor] ++ takeChunk ++
    [Act.get_chunk, .client, .client, .client, .client, .dispose, .client, .get_chunk] ++
    List.replicate 8 Act.client

theorem every_flushed_chunk_is_delivered_from_two_wires :
    ∃ s, RunOf step (fun s a => Orderly s a ∧ Short s a) (init 2 8 8 fun _ _ => 0) twoWires s ∧
      s.client = .finished ∧ (s.logs 0).obtained = [[1], [2, 3], [4, 5]] ∧
      (s.logs 1).obtained = [[9]] ∧ Delivery s := by
  obtain ⟨s, hr, hp⟩ := RunOf.exists_of_exec
    (c := fun s a => decide (Orderly s a ∧ Short s a)) (C := fun s a => Orderly s a ∧ Short s a)
    (s := init 2 8 8 fun _ _ => 0)
    (p := fun s => s.client = .finished ∧ (s.logs 0).obtained = [[1], [2, 3], [4, 5]] ∧
      (s.logs 1).obtained = [[9]])
    (fun s a => of_decide_eq_true)
    (by decide +kernel : (exec (guarded step _) _ twoWires).any _ = true)
  obtain ⟨h1, h2, h3⟩ : s.client = .finished ∧ (s.logs 0).obtained = [[1], [2, 3], [4, 5]] ∧
      (s.logs 1).obtained = [[9]] := by simpa using hp
  exact ⟨s, hr, h1, h2, h3, every_flushed_chunk_is_delivered 2 8 8 _ (by decide) (by decide)
    (by decide) _ s hr⟩

/-! ## A chunk of 2^32 bytes -/

/-- A result set with one wire, which the server holds. -/
def solo (size : Nat) (c : Cell) (client : Client) : Sys where
  pool := { Wires.construct 1 size 8 (fun _ _ => 0) with
    wires := Function.update (fun _ => Wire.fresh) 0 c.wire
    memory := Function.update (fun _ _ => 0) 8 c.buffer
    reserved := none, count_using := 1, next_index := 1, only_one_buffer := true }
  held := [0]
  writers := Function.update (fun _ => .idle) 0 c.writer
  logs := Function.update (fun _ => ⟨[], [], 0, []⟩) 0 c.log
  client := client

section Solo

variable {size : Nat} {c d : Cell} {client : Client}

theorem solo_cell (hc : c.wire.buffer_handle = 8) : (solo size c client).cell 0 = c := by
  simp [cell, solo, hc]

theorem solo_put_cell (hc : c.wire.buffer_handle = 8) :
    (solo size c client).put_cell 0 d = solo size d client := by
  simp [put_cell, solo, hc, Function.update_idem]

/-- A run goes on by a step of the one writer. -/
theorem solo_writer {C : Sys → Act → Prop} {s : Sys} (hC : ∀ t, C t (.writer 0))
    (hr : ∃ acts, RunOf step C s acts (solo size c client)) (h8 : c.wire.buffer_handle = 8)
    (hs : c.write_step = some d) : ∃ acts, RunOf step C s acts (solo size d client) := by
  obtain ⟨acts, hr⟩ := hr
  refine ⟨acts ++ [.writer 0], .snoc hr (hC _) ?_⟩
  simp only [step]
  rw [solo_cell h8, hs, Option.map_some, solo_put_cell h8]

end Solo

/-- The wire of `solo` in a ring that a chunk of `length` bytes fills. -/
def fullCell (length : Nat) (buffer : Nat → UInt8) (pushed pushed_valid : Nat) (continued : Bool)
    (log : Log) (writer : Writer) : Cell where
  wire := { Wire.fresh with
    buffer_handle := 8, capacity := length + 4, pushed, pushed_valid, continued }
  buffer := buffer
  log := log
  writer := writer

section Full

variable {src : List UInt8}

theorem full_room {length pushed : Nat} {buffer : Nat → UInt8} {pushed_valid : Nat}
    {continued : Bool} {log : Log} {writer : Writer} (hlt : length + 4 < 2 ^ 64)
    (hp : pushed ≤ length + 4) :
    (fullCell length buffer pushed pushed_valid continued log writer).wire.room =
      length + 4 - pushed := by
  simp only [fullCell, Wire.room, Wire.ring, SimpleWire.room, SimpleWire.stored, Wire.fresh]
  omega

/-- A chunk of as many bytes as the ring has room for is written. -/
theorem full_chunk_is_written (hne : 0 < src.length) (hlt : src.length + 4 < 2 ^ 64) :
    ∃ acts buffer, RunOf step Orderly (init 1 (src.length + 4) 8 fun _ _ => 0) acts
      (solo (src.length + 4)
        (fullCell src.length buffer (4 + src.length) 0 true ⟨src, [], 0, []⟩ .idle) .idle) := by
  have hC : ∀ t, Orderly t (.writer 0) := fun t => ⟨trivial, rfl⟩
  have hroom0 : ∀ writer, (fullCell src.length (fun _ => 0) 0 0 false ⟨[], [], 0, []⟩
      writer).wire.room = src.length + 4 := fun writer => full_room hlt (Nat.zero_le _)
  have h0 : RunOf step Orderly (init 1 (src.length + 4) 8 fun _ _ => 0) [.acquire none]
      (solo (src.length + 4) (fullCell src.length (fun _ => 0) 0 0 false ⟨[], [], 0, []⟩ .idle)
        .idle) := by
    refine .single ⟨trivial, rfl⟩ ?_
    simp [step, init, solo, Wires.construct, Fresh, Wires.acquire, Wires.attach, Wires.wire_at,
      Bind.bind, Except.bind, Pure.pure, Except.pure, Wires.put, fullCell, Wire.attach_buffer,
      Wire.fresh, Cell.new_holder, Function.update_eq_self]
  have h1 : RunOf step Orderly (init 1 (src.length + 4) 8 fun _ _ => 0)
      [.acquire none, .write 0 src]
      (solo (src.length + 4)
        (fullCell src.length (fun _ => 0) 0 0 false ⟨[], [], 0, []⟩ (.write src)) .idle) := by
    refine RunOf.snoc h0 ⟨trivial, rfl⟩ ?_
    have hr : (fullCell src.length (fun _ => 0) 0 0 false ⟨[], [], 0, []⟩
        .idle).wire.check_room src.length = true := by
      unfold Wire.check_room
      rw [hroom0, if_neg (by simp [fullCell]), LengthHeader.size_eq, Nat.mod_eq_of_lt hlt]
      exact decide_eq_true (Nat.le_refl _)
    have hg : (fullCell src.length (fun _ => 0) 0 0 false ⟨[], [], 0, []⟩ .idle).guard src =
        some (fullCell src.length (fun _ => 0) 0 0 false ⟨[], [], 0, []⟩ (.write src)) := by
      unfold Cell.guard
      rw [hr]
      rfl
    simp only [step]
    rw [solo_cell rfl, hg, Option.map_some, solo_put_cell rfl]
    rfl
  have h2 := solo_writer hC ⟨_, h1⟩ rfl
    (d := fullCell src.length (fun _ => 0) 0 0 false ⟨[], [], 0, []⟩ (.brand_new src))
    (by simp [Cell.write_step, fullCell, Wire.fresh, hne])
  have h3 := solo_writer hC h2 rfl
    (d := fullCell src.length (fun _ => 0) 0 0 false ⟨[], [], 0, []⟩ (.reserve src))
    (by
      unfold Cell.write_step
      rw [hroom0]
      simp [fullCell])
  have h4 := solo_writer hC h3 rfl
    (d := fullCell src.length (fun _ => 0) 4 0 true ⟨[], [], 0, []⟩ (.room src))
    (by simp [Cell.write_step, fullCell, Wire.fresh])
  have h5 := solo_writer hC h4 rfl
    (d := fullCell src.length (fun _ => 0) 4 0 true ⟨[], [], 0, []⟩ (.store src))
    (by
      unfold Cell.write_step
      rw [full_room hlt (by omega)]
      simp [fullCell])
  have h6 := solo_writer hC h5 rfl
    (d := fullCell src.length (SimpleWire.write_in_buffer
      (fullCell src.length (fun _ => 0) 4 0 true ⟨[], [], 0, []⟩ (.store src)).ring
      (SimpleWire.index
        (fullCell src.length (fun _ => 0) 4 0 true ⟨[], [], 0, []⟩ (.store src)).ring 4)
      src).buffer 4 0 true ⟨[], [], 0, []⟩ (.push src))
    (by
      simp [Cell.write_step, Cell.write_in_buffer, Wire.get_bip_address, fullCell])
  generalize (SimpleWire.write_in_buffer _ _ src).buffer = buffer at h6
  have h7 := solo_writer hC h6 rfl
    (d := fullCell src.length buffer (4 + src.length) 0 true ⟨src, [], 0, []⟩ .idle)
    (by
      simp only [Cell.write_step, fullCell]
      rw [Nat.mod_eq_of_lt (by omega)]
      simp)
  obtain ⟨acts, hr⟩ := h7
  exact ⟨acts, _, hr⟩

/-- The header that `flush` writes loses the bits of the length above the 32nd. -/
theorem full_header (hlt : src.length + 4 < 2 ^ 64) (hmul : src.length % 2 ^ 32 = 0)
    {buffer : Nat → UInt8} {log : Log} :
    (fullCell src.length buffer (4 + src.length) 0 true log .header).write_step =
      some (fullCell src.length (memcpy buffer 0 [0, 0, 0, 0]) (4 + src.length) 0 true log
        .publish) := by
  have hlen : (fullCell src.length buffer (4 + src.length) 0 true log .header).flush_length =
      src.length := by
    simp only [fullCell, Cell.flush_length, LengthHeader.size_eq, Wire.fresh]
    omega
  have hof : LengthHeader.of_size src.length = ⟨0⟩ := by
    have h0 : UInt32.ofNat src.length = 0 := by
      apply UInt32.toNat.inj
      rw [UInt32.toNat_ofNat']
      exact hmul
    rw [LengthHeader.of_size, h0]
  have hbuf : WireHeader.get_buffer (⟨0⟩ : LengthHeader) = [0, 0, 0, 0] := rfl
  simp only [Cell.write_step, fullCell] at hlen ⊢
  rw [hlen, hof, hbuf]
  simp [Cell.write_in_buffer, Wire.get_bip_address, Cell.ring, Wire.ring, SimpleWire.index,
    SimpleWire.write_in_buffer, Wire.fresh]

theorem full_chunk_is_flushed (hne : 0 < src.length) (hlt : src.length + 4 < 2 ^ 64)
    (hmul : src.length % 2 ^ 32 = 0) {s : Sys} {buffer : Nat → UInt8}
    (hr : ∃ acts, RunOf step Orderly s acts (solo (src.length + 4)
      (fullCell src.length buffer (4 + src.length) 0 true ⟨src, [], 0, []⟩ .idle) .idle)) :
    ∃ acts, RunOf step Orderly s acts (solo (src.length + 4)
      (fullCell src.length (memcpy buffer 0 [0, 0, 0, 0]) (4 + src.length) (4 + src.length) true
        ⟨[], [src], 0, []⟩ .notify) .idle) := by
  have hC : ∀ t, Orderly t (.writer 0) := fun t => ⟨trivial, rfl⟩
  have hnil : src ≠ [] := List.length_pos_iff.mp hne
  obtain ⟨acts, hr⟩ := hr
  have h0 : ∃ acts, RunOf step Orderly s acts (solo (src.length + 4)
      (fullCell src.length buffer (4 + src.length) 0 true ⟨src, [], 0, []⟩ .header) .idle) := by
    have hpo : Orderly (solo (src.length + 4)
        (fullCell src.length buffer (4 + src.length) 0 true ⟨src, [], 0, []⟩ .idle) .idle)
        (.flush 0) := ⟨rfl, rfl⟩
    refine ⟨acts ++ [.flush 0], .snoc hr hpo ?_⟩
    simp only [step]
    rw [solo_cell rfl, if_pos (by simp [solo])]
    simp only [Cell.flush, fullCell, if_true, Option.map_some]
    rw [solo_put_cell rfl]
  have h1 := solo_writer hC h0 rfl (full_header hlt hmul)
  exact solo_writer hC h1 rfl (by simp [Cell.write_step, fullCell, Cell.published, hnil])

/-- The length in the header is 0, and so is what the client gets. -/
theorem full_chunk_is_lost (hne : 0 < src.length) (hlt : src.length + 4 < 2 ^ 64)
    (hmul : src.length % 2 ^ 32 = 0) :
    ∃ acts s, RunOf step Orderly (init 1 (src.length + 4) 8 fun _ _ => 0) acts s ∧
      (s.logs 0).sent = [src] ∧ (s.logs 0).obtained = [[]] := by
  obtain ⟨acts, buffer, hr⟩ := full_chunk_is_written hne hlt
  obtain ⟨acts, hr⟩ := full_chunk_is_flushed hne hlt hmul ⟨acts, hr⟩
  have hcopy : (fullCell src.length (memcpy buffer 0 [0, 0, 0, 0]) (4 + src.length)
      (4 + src.length) true ⟨[], [src], 0, []⟩ .notify).copy_header =
      fullCell src.length (memcpy buffer 0 [0, 0, 0, 0]) (4 + src.length) (4 + src.length) true
        ⟨[], [src], 0, []⟩ .notify := by
    have hread : memread (memcpy buffer 0 [0, 0, 0, 0]) 0 4 = [0, 0, 0, 0] := rfl
    simp [Cell.copy_header, fullCell, Cell.ring, Wire.ring, SimpleWire.copy_header,
      SimpleWire.read_address, SimpleWire.index, Wire.fresh, WireHeader.size, hread]
    rfl
  have hshown : ∀ c : Cell, c = fullCell src.length (memcpy buffer 0 [0, 0, 0, 0])
      (4 + src.length) (4 + src.length) true ⟨[], [src], 0, []⟩ .notify →
      c.shown c.views.1 c.views.2 = [] := by
    rintro c rfl
    have hlast : 3 / (src.length + 4) = 0 := Nat.div_eq_of_lt (by omega)
    have htop : 4 / (src.length + 4) = 0 := Nat.div_eq_of_lt (by omega)
    simp [Cell.views, Cell.length, fullCell, Wire.fresh, hlast, htop, Cell.shown, memread]
  generalize hc : fullCell src.length (memcpy buffer 0 [0, 0, 0, 0]) (4 + src.length)
    (4 + src.length) true ⟨[], [src], 0, []⟩ .notify = c at hr hcopy hshown
  have h8 : c.wire.buffer_handle = 8 := by
    rw [← hc]
    rfl
  have hrec : c.wire.has_record = true := by
    simp only [← hc, fullCell, Wire.has_record, Wire.stored_valid, Wire.fresh]
    exact decide_eq_true (by omega)
  have hwire : ∀ client, (solo (src.length + 4) c client).pool.wires 0 = c.wire := fun _ => rfl
  have hgo : ∀ t, Orderly t .get_chunk ∧ Orderly t .client := by
    intro t
    exact ⟨⟨trivial, rfl⟩, trivial, rfl⟩
  have hscan : step (solo (src.length + 4) c (.scan 0)) .client =
      some (solo (src.length + 4) c (.chunk 0)) := by
    show some (look (solo (src.length + 4) c (.scan 0)) 0 (.scan 1) (.predicate false)) = _
    unfold look
    rw [hwire, hrec]
    rfl
  have hhead : step (solo (src.length + 4) c (.chunk 0)) .client =
      some (solo (src.length + 4) c (.split 0)) := by
    have hb : ((solo (src.length + 4) c (.chunk 0)).pool.wires 0).get_bip_address = some 8 := by
      simp [solo, Wire.get_bip_address, h8]
    show some (client_header (solo (src.length + 4) c (.chunk 0)) 0 (.split 0)) = _
    unfold client_header
    rw [hb]
    dsimp only
    rw [solo_cell h8, hcopy, solo_put_cell h8]
    rfl
  have hsplit : step (solo (src.length + 4) c (.split 0)) .client =
      some (solo (src.length + 4) (c.obtain_chunk []) (.holding 0 c.views.1 c.views.2)) := by
    have hcell := @solo_cell (src.length + 4) c (.split 0) h8
    rw [step, client_step_split (i := 0) rfl, hcell, hshown c rfl, solo_put_cell h8]
    rfl
  have hlog : c.log = ⟨[], [src], 0, []⟩ := by
    rw [← hc]
    rfl
  have hr1 := RunOf.snoc hr (hgo _).1 (rfl : step _ .get_chunk =
    some (solo (src.length + 4) c (.scan 0)))
  have hr2 := RunOf.snoc (RunOf.snoc hr1 (hgo _).2 hscan) (hgo _).2 hhead
  refine ⟨_, _, RunOf.snoc hr2 (hgo _).2 hsplit, ?_, ?_⟩
  · simp [solo, Cell.obtain_chunk, hlog]
  · simp [solo, Cell.obtain_chunk, hlog]

end Full

/-- A chunk of 2^32 bytes in a ring that has room for it. -/
def hugeChunk : List UInt8 := List.replicate (2 ^ 32) 0

/-- The client gets an empty chunk in its place. -/
theorem a_chunk_of_four_gibibytes_is_lost :
    ∃ acts s, RunOf step Orderly (init 1 (2 ^ 32 + 4) 8 fun _ _ => 0) acts s ∧
      (s.logs 0).sent = [hugeChunk] ∧ (s.logs 0).obtained = [[]] ∧ ¬ Delivery s := by
  have hlen : hugeChunk.length = 2 ^ 32 := List.length_replicate
  obtain ⟨acts, s, hr, hsent, hob⟩ := @full_chunk_is_lost hugeChunk
    (by rw [hlen]; decide) (by rw [hlen]; decide) (by rw [hlen]; decide)
  rw [hlen] at hr
  refine ⟨acts, s, hr, hsent, hob, ?_⟩
  intro h
  have hord := h.order 0
  rw [hsent, hob] at hord
  have hmem : ([] : List UInt8) ∈ [hugeChunk] :=
    List.mem_of_mem_take (hord ▸ List.mem_singleton_self _)
  have hnil : hugeChunk = [] := (List.mem_singleton.mp hmem).symm
  rw [hnil] at hlen
  cases hlen

end Sys

end tateyama_bootstrap.resultset_wires
