-- Whether a wire gets on. The reader cuts a message at the same places as the
-- writer does, so that an open wire never has both of them waiting, and every
-- step brings one of them nearer to the end of what was sent.
import TateyamaBootstrap.WireFifo

open runs ring_memory

namespace tateyama_bootstrap.simple_wire

variable {T : Type} [WireHeader T]

/-! ## Whose step it was -/

section Parties

variable {s t : Sys T} {a : Act T}

theorem write_cases {m : Message T} (hs : step s (.write m) = some t) :
    s.writer = .idle ∧ ∃ j, t = { s with writer := .wait j, sent := s.sent ++ [m] } := by
  simp only [step] at hs
  split at hs
  · rename_i hw
    cases hs
    exact ⟨hw, _, rfl⟩
  · cases hs

theorem step_writes (ha : a.writes = true) (hs : step s a = some t) : t.sent = s.sent := by
  rcases step_sent hs with h | ⟨m, rfl, -⟩
  · exact h
  · cases ha

theorem step_reads (ha : a.reads = true) (hs : step s a = some t) :
    t.sent = s.sent ∧ t.writer = s.writer := by
  cases a with
  | copy_header | read_chunk =>
    simp only [step] at hs
    split at hs
    · split at hs
      · cases hs
        exact ⟨rfl, rfl⟩
      · cases hs
    · cases hs
  | read =>
    simp only [step] at hs
    split at hs
    · cases hs
      exact ⟨rfl, rfl⟩
    · cases hs
  | advance =>
    simp only [step] at hs
    split at hs
    · split at hs <;> cases hs <;> exact ⟨rfl, rfl⟩
    · cases hs
  | _ => cases ha

end Parties

/-! ## The reader keeps to the chunks of the writer -/

/-- A boundary past chunk number `i` of a message is past the chunk after it, or
past the message. -/
theorem Boundary.next_chunk {cap p k i : Nat} {ms : List (Message T)} {m : Message T}
    (h : Boundary cap ms p) (hm : ms[k]? = some m) (hlt : offset ms k + i * cap < p) :
    offset ms k + min m.bytes.length ((i + 1) * cap) ≤ p := by
  have hsucc := offset_succ hm
  obtain ⟨k', i', -, hp, hi'⟩ := h
  rcases Nat.lt_trichotomy k' k with hlt' | heq | hgt
  · have hmono := offset_mono ms (Nat.succ_le_of_lt hlt')
    simp only [Nat.succ_eq_add_one] at hmono
    rcases hi' with rfl | ⟨m', hm', hi'⟩
    · have := offset_mono ms (Nat.le_of_lt hlt')
      omega
    · have := offset_succ hm'
      omega
  · subst heq
    have hii : i < i' := by
      by_contra hge
      have := Nat.mul_le_mul_right cap (Nat.le_of_not_lt hge)
      omega
    have := Nat.mul_le_mul_right cap (Nat.succ_le_of_lt hii)
    simp only [Nat.succ_eq_add_one] at this
    omega
  · have hmono := offset_mono ms (Nat.succ_le_of_lt hgt)
    simp only [Nat.succ_eq_add_one] at hmono
    omega

/-- The reader stops inside a message only where the writer has cut it. -/
def Paced (s : Sys T) : Prop :=
  match s.reader with
  | .idle | .header => True
  | .copied top length advance =>
    0 < advance ∧ (0 < length → s.wire.capacity ∣ WireHeader.size T + top.length)
  | .loop top length => 0 < length ∧ s.wire.capacity ∣ WireHeader.size T + top.length

theorem paced_init (capacity : Nat) (buffer : Nat → UInt8) (header : T) :
    Paced (Sys.init capacity buffer header) := trivial

section Steps

variable {s t : Sys T} {a : Act T}

theorem Paced.congr (h : Paced s) (hr : t.reader = s.reader)
    (hc : t.wire.capacity = s.wire.capacity) : Paced t := by
  unfold Paced at h ⊢
  rw [hr, hc]
  exact h

theorem Paced.read (h : Inv s) (hr : s.reader = .header) (hs : step s .read = some t)
    (ht : Inv t) : Paced t := by
  have hsize := WireHeader.size_pos (T := T)
  have hlt := h.bounded.size_lt
  have hrd := h.reader
  have hrd' := ht.reader
  have hmax := h.bounded.max_payload_length
  simp only [step, hr] at hs
  cases hs
  unfold ReaderOk at hrd hrd'
  rw [hr] at hrd
  obtain ⟨m, -, hpop, -⟩ := hrd
  obtain ⟨m', -, -, hpop', -⟩ := hrd'
  dsimp only at hpop'
  refine ⟨by omega, fun hpos => ⟨1, ?_⟩⟩
  dsimp only
  omega

theorem Paced.read_chunk (hp : Paced s) (h : Inv s) {top : List UInt8} {length : Nat}
    (hr : s.reader = .loop top length) (hs : step s .read_chunk = some t) (ht : Inv t) :
    Paced t := by
  have hcap := h.bounded.capacity_pos
  have hrd := h.reader
  have hrd' := ht.reader
  unfold Paced at hp
  unfold ReaderOk at hrd
  rw [hr] at hp hrd
  obtain ⟨hpos, c, hc⟩ := hp
  obtain ⟨m, -, -, hpop⟩ := hrd
  simp only [step, hr] at hs
  split at hs
  · cases hs
    unfold ReaderOk at hrd'
    obtain ⟨m', -, -, hpop', -⟩ := hrd'
    dsimp only at hpop'
    refine ⟨by omega, fun hpos' => ⟨c + 1, ?_⟩⟩
    rw [Nat.mul_add, Nat.mul_one]
    dsimp only
    omega
  · cases hs

theorem paced_step (hp : Paced s) (h : Inv s) (hs : step s a = some t) (ht : Inv t) :
    Paced t := by
  cases a with
  | write m =>
    simp only [step] at hs
    split at hs
    · cases hs
      exact hp.congr rfl rfl
    · cases hs
  | close =>
    cases hs
    exact hp.congr rfl rfl
  | wait =>
    simp only [step] at hs
    split at hs
    · split at hs
      · cases hs
        exact hp.congr rfl rfl
      · cases hs
    · cases hs
  | check | publish =>
    simp only [step] at hs
    split at hs
    · split at hs <;> cases hs <;> exact hp.congr rfl rfl
    · cases hs
  | store =>
    simp only [step] at hs
    split at hs
    · rename_i j hw
      cases hs
      obtain ⟨buffer, hstore⟩ := store_keeps j s.wire
      exact hp.congr rfl (by rw [hstore])
    · cases hs
  | copy_header =>
    simp only [step] at hs
    split at hs
    · split at hs
      · cases hs
        trivial
      · cases hs
    · cases hs
  | read =>
    cases hr : s.reader with
    | header => exact .read h hr hs ht
    | _ => simp [step, hr] at hs
  | read_chunk =>
    cases hr : s.reader with
    | loop top length => exact hp.read_chunk h hr hs ht
    | _ => simp [step, hr] at hs
  | advance =>
    simp only [step] at hs
    split at hs
    · rename_i top length advance hr
      unfold Paced at hp
      rw [hr] at hp
      split at hs
      · rename_i hpos
        cases hs
        exact ⟨hpos, hp.2 hpos⟩
      · cases hs
        trivial
    · cases hs

end Steps

/-! ## No deadlock -/

section Quiet

variable {s : Sys T}

/-- A reader that cannot go on has popped all that is published. -/
theorem Inv.drained (h : Inv s) (hp : Paced s)
    (hstuck : ∀ a : Act T, a.reads = true → step s a = none) : s.wire.poped = s.wire.pushed := by
  have hb := h.bounded
  have hple := hb.poped_le
  have hrd := h.reader
  by_contra hne
  have hlt : s.wire.poped < s.wire.pushed := by omega
  unfold ReaderOk at hrd
  unfold Paced at hp
  cases hr : s.reader with
  | idle =>
    rw [hr] at hrd
    dsimp only at hrd
    rw [hrd] at hlt
    obtain ⟨m, -, hchunk⟩ := h.boundary.first_chunk hlt h.pushed_le
    have hst : WireHeader.size T ≤ s.wire.stored := by
      have := hb.size_lt
      rw [hb.stored, hrd]
      rw [m.length_bytes] at hchunk
      omega
    have := hstuck .copy_header rfl
    simp [step, hr, hst] at this
  | header =>
    have := hstuck .read rfl
    simp [step, hr] at this
  | copied top length advance =>
    have := hstuck .advance rfl
    simp only [step, hr] at this
    split at this <;> cases this
  | loop top length =>
    rw [hr] at hrd hp
    obtain ⟨m, hread, hlen, hpop⟩ := hrd
    obtain ⟨hpos, c, hc⟩ := hp
    have hbytes := m.length_bytes
    have hcomm := Nat.mul_comm s.wire.capacity c
    have hchunk := h.boundary.next_chunk hread.message (i := c) (by omega)
    rw [Nat.add_mul, Nat.one_mul] at hchunk
    have hst : min length s.wire.capacity ≤ s.wire.stored := by
      rw [hb.stored]
      omega
    have := hstuck .read_chunk rfl
    simp only [step, hr, if_pos hst] at this
    cases this

/-- A writer that cannot go on although all is read has nothing to write. -/
theorem Inv.writer_idle (h : Inv s) (hq : s.wire.poped = s.wire.pushed)
    (hstuck : ∀ a : Act T, a.writes = true → step s a = none) : s.writer = .idle := by
  cases hw : s.writer with
  | idle => rfl
  | wait j =>
    have hroom : j.msg_length s.wire ≤ s.wire.room := by
      rw [h.bounded.room, hq, Nat.sub_self, Nat.sub_zero]
      exact Nat.min_le_right _ _
    have := hstuck .wait rfl
    simp [step, hw, hroom] at this
  | check j =>
    have := hstuck .check rfl
    simp only [step, hw] at this
    split at this <;> cases this
  | store j =>
    have := hstuck .store rfl
    simp [step, hw] at this
  | publish j =>
    have := hstuck .publish rfl
    simp only [step, hw] at this
    split at this <;> cases this

/-- When neither writer nor reader of an open wire can go on, all that was sent
has arrived. -/
theorem Inv.quiet (h : Inv s) (hp : Paced s) (hopen : s.closed = false)
    (hw : ∀ a : Act T, a.writes = true → step s a = none)
    (hr : ∀ a : Act T, a.reads = true → step s a = none) :
    s.writer = .idle ∧ s.received = s.sent.map Message.parts := by
  have hq := h.drained hp hr
  have hidle := h.writer_idle hq hw
  refine ⟨hidle, ?_⟩
  have hwr := h.writer
  unfold WriterOk at hwr
  rw [hidle] at hwr
  dsimp only at hwr
  rw [hopen] at hwr
  have hall : s.wire.poped = (stream s.sent).length := by
    rw [hq]
    simpa using hwr
  have hle := h.received_le
  -- a reader at the end of the stream is between two messages, and has the last one
  have hend : s.received.length = s.sent.length := by
    by_contra hne
    have hk : s.received.length < s.sent.length := by omega
    have hm : s.sent[s.received.length]? = some s.sent[s.received.length] :=
      List.getElem?_eq_getElem hk
    have hsucc := offset_succ hm
    have hpos := s.sent[s.received.length].bytes_pos
    have hmax := offset_le_length s.sent (s.received.length + 1)
    have hrd := h.reader
    unfold ReaderOk at hrd
    unfold Paced at hp
    cases hrs : s.reader with
    | idle =>
      rw [hrs] at hrd
      dsimp only at hrd
      omega
    | header =>
      have := hr .read rfl
      simp [step, hrs] at this
    | copied top length advance =>
      have := hr .advance rfl
      simp only [step, hrs] at this
      split at this <;> cases this
    | loop top length =>
      rw [hrs] at hrd hp
      obtain ⟨m, hread, hlen, hpop⟩ := hrd
      obtain ⟨hpos, -⟩ := hp
      have hbytes := m.length_bytes
      have := offset_succ hread.message
      omega
  rw [h.received, hend, List.take_length]

end Quiet

/-! ## No endless run -/

def Writer.clock : Writer T → Nat
  | .idle | .wait _ => 0
  | .check _ => 1
  | .store _ => 2
  | .publish _ => 3

def Reader.clock : Reader → Nat
  | .idle | .loop .. => 0
  | .header => 1
  | .copied .. => 2

/-- How far writer and reader have come: four for each byte that one of them has
moved its counter by, and the steps taken since then. -/
def Sys.clock (s : Sys T) : Nat :=
  4 * s.wire.pushed + s.writer.clock + (4 * s.wire.poped + s.reader.clock)

section Clock

variable {s t : Sys T} {a : Act T}

theorem Inv.clock_le (h : Inv s) : s.clock ≤ 8 * (stream s.sent).length + 5 := by
  have h1 := h.pushed_le
  have h2 := h.bounded.poped_le
  have h3 : s.writer.clock ≤ 3 := by cases s.writer <;> simp [Writer.clock]
  have h4 : s.reader.clock ≤ 2 := by cases s.reader <;> simp [Reader.clock]
  unfold Sys.clock
  omega

theorem Inv.clock_writes (h : Inv s) (hopen : s.closed = false) (ha : a.writes = true)
    (hs : step s a = some t) : s.clock < t.clock ∧ t.closed = false := by
  cases a with
  | wait =>
    simp only [step] at hs
    split at hs
    · rename_i j hw
      split at hs
      · cases hs
        simp [Sys.clock, hw, Writer.clock, hopen]
      · cases hs
    · cases hs
  | check =>
    simp only [step, hopen] at hs
    split at hs
    · rename_i j hw
      cases hs
      simp [Sys.clock, hw, Writer.clock]
    · cases hs
  | store =>
    simp only [step] at hs
    split at hs
    · rename_i j hw
      cases hs
      obtain ⟨buffer, hstore⟩ := store_keeps j s.wire
      simp [Sys.clock, hw, Writer.clock, hstore, hopen]
    · cases hs
  | publish =>
    have hwr := h.writer
    have hcap := h.bounded.capacity_pos
    have htotal := h.total
    unfold WriterOk at hwr
    simp only [step] at hs
    split at hs
    · rename_i j hw
      rw [hw] at hwr
      have hadd := hwr.1.pushed_add
      have hpos := hwr.1.length_pos
      have hmsg : j.msg_length s.wire = min j.length s.wire.capacity := rfl
      rw [Nat.mod_eq_of_lt (by omega)] at hs
      split at hs
      all_goals
        cases hs
        refine ⟨?_, hopen⟩
        simp only [Sys.clock, hw, Writer.clock]
        omega
    · cases hs
  | _ => cases ha

theorem Inv.clock_reads (h : Inv s) (hp : Paced s) (hopen : s.closed = false)
    (ha : a.reads = true) (hs : step s a = some t) : s.clock < t.clock ∧ t.closed = false := by
  cases a with
  | copy_header =>
    simp only [step] at hs
    split at hs
    · rename_i hr
      split at hs
      · cases hs
        have hpop : s.wire.copy_header.poped = s.wire.poped := by
          rw [h.bounded.copy_header]
        simp [Sys.clock, hr, Reader.clock, hpop, copy_header_keeps, hopen]
      · cases hs
    · cases hs
  | read =>
    simp only [step] at hs
    split at hs
    · rename_i hr
      cases hs
      simp [Sys.clock, hr, Reader.clock, hopen]
    · cases hs
  | read_chunk =>
    simp only [step] at hs
    split at hs
    · rename_i top length hr
      split at hs
      · cases hs
        simp [Sys.clock, hr, Reader.clock, hopen]
      · cases hs
    · cases hs
  | advance =>
    have hrd := h.reader
    have hlt := h.bounded.pushed_lt
    unfold ReaderOk at hrd
    unfold Paced at hp
    simp only [step] at hs
    split at hs
    · rename_i top length advance hr
      rw [hr] at hrd hp
      obtain ⟨m, -, -, -, hle⟩ := hrd
      have hpos := hp.1
      rw [Nat.mod_eq_of_lt (by omega)] at hs
      split at hs
      all_goals
        cases hs
        refine ⟨?_, hopen⟩
        simp only [Sys.clock, hr, Reader.clock]
        omega
    · cases hs
  | _ => cases ha

end Clock

end tateyama_bootstrap.simple_wire
