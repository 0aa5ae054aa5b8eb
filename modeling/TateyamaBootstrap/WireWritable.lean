-- `is_writable` of the response wire against `write`. `is_writable` compares the room with
-- the length of the payload, and `write` tests the room for each of its chunks, the first of
-- which carries the header.
import TateyamaBootstrap.WireFifo

open runs ring_memory

namespace tateyama_bootstrap.simple_wire

/-- `unidirectional_response_wire::is_writable`. -/
def is_writable (w : SimpleWire ResponseHeader) (header : ResponseHeader) : Bool :=
  (WireHeader.get_length header).toNat ≤ w.room

variable {T : Type}

/-! ## Room, with counters of 64 bits -/

/-- The counters are 64 bits wide. -/
structure Counters (w : SimpleWire T) : Prop where
  capacity_pos : 0 < w.capacity
  capacity_lt : w.capacity < 2 ^ 64
  pushed_lt : w.pushed < 2 ^ 64
  poped_lt : w.poped < 2 ^ 64

/-- A chunk takes its length from the room, also when the counters wrap. -/
theorem Counters.room_sub {w : SimpleWire T} (h : Counters w) {n : Nat} (hn : n ≤ w.room)
    (hcap : n ≤ w.capacity) (buffer : Nat → UInt8) :
    SimpleWire.room { w with buffer, pushed := (w.pushed + n) % 2 ^ 64 } = w.room - n := by
  have h1 := h.capacity_lt
  have h2 := h.pushed_lt
  have h3 := h.poped_lt
  unfold SimpleWire.room SimpleWire.stored at *
  dsimp only at *
  omega

theorem Counters.publish {w : SimpleWire T} (h : Counters w) (n : Nat) (buffer : Nat → UInt8) :
    Counters { w with buffer, pushed := (w.pushed + n) % 2 ^ 64 } :=
  ⟨h.capacity_pos, h.capacity_lt, Nat.mod_lt _ (by decide), h.poped_lt⟩

variable [WireHeader T]

theorem counters_step {s t : Sys T} {a : Act T} (h : Counters s.wire)
    (hs : step s a = some t) : Counters t.wire := by
  cases a with
  | close =>
    cases hs
    exact h
  | write | read =>
    simp only [step] at hs
    split at hs
    · cases hs
      exact h
    · cases hs
  | check =>
    simp only [step] at hs
    split at hs
    · split at hs <;> cases hs <;> exact h
    · cases hs
  | wait | read_chunk =>
    simp only [step] at hs
    split at hs
    · split at hs
      · cases hs
        exact h
      · cases hs
    · cases hs
  | store =>
    simp only [step] at hs
    split at hs
    · rename_i j _
      cases hs
      obtain ⟨buffer, hbuffer⟩ := store_keeps j s.wire
      rw [hbuffer]
      exact ⟨h.capacity_pos, h.capacity_lt, h.pushed_lt, h.poped_lt⟩
    · cases hs
  | publish =>
    simp only [step] at hs
    split at hs
    · split at hs <;> cases hs <;> exact h.publish _ _
    · cases hs
  | copy_header =>
    simp only [step] at hs
    split at hs
    · split at hs
      · cases hs
        unfold SimpleWire.copy_header
        split <;> exact ⟨h.capacity_pos, h.capacity_lt, h.pushed_lt, h.poped_lt⟩
      · cases hs
    · cases hs
  | advance =>
    simp only [step] at hs
    split at hs
    · split at hs <;> cases hs <;>
        exact ⟨h.capacity_pos, h.capacity_lt, h.pushed_lt, Nat.mod_lt _ (by decide)⟩
    · cases hs

theorem counters_run {capacity : Nat} {buffer : Nat → UInt8} {header : T} {acts : List (Act T)}
    {s : Sys T} (hpos : 0 < capacity) (hcap : capacity < 2 ^ 64)
    (hr : RunOf step Free (Sys.init capacity buffer header) acts s) : Counters s.wire := by
  refine hr.inv (I := fun s => Counters s.wire) ?_ fun _ _ _ h _ hs => counters_step h hs
  exact ⟨hpos, hcap, Nat.two_pow_pos 64, Nat.two_pow_pos 64⟩

/-! ## A write by itself -/

/-- A step of the call itself. -/
def Own (_ : Sys T) (a : Act T) : Prop := a.writes = true

def OwnOrReader (_ : Sys T) (a : Act T) : Prop := a.writes = true ∨ a.reads = true

/-- The call of `write` returns by its own steps: in no chunk does it wait for a reader. -/
def WritesAlone (s : Sys T) (m : Message T) : Prop :=
  ∃ begun acts t, step s (.write m) = some begun ∧
    RunOf step Own begun acts t ∧ t.writer = .idle

/-- Whatever the reader does while `write` is under way, each chunk finds its room. -/
def NeverWaits (s : Sys T) (m : Message T) : Prop :=
  ∀ begun acts t j, step s (.write m) = some begun →
    RunOf step OwnOrReader begun acts t →
    t.writer = .wait j → j.msg_length t.wire ≤ t.wire.room

/-- The state after one chunk of the job. -/
def Sys.after_chunk (s : Sys T) (j : Job T) : Sys T :=
  { s with
    wire := { j.store s.wire with pushed := (s.wire.pushed + j.msg_length s.wire) % 2 ^ 64 }
    writer := if 0 < (j.rest s.wire).length then .wait (j.rest s.wire) else .idle }

section

variable {s t : Sys T} {j : Job T}

theorem run_chunk (hw : s.writer = .wait j) (hopen : s.closed = false)
    (hroom : j.msg_length s.wire ≤ s.wire.room) :
    RunOf step Own s [.wait, .check, .store, .publish]
      (s.after_chunk j) := by
  obtain ⟨buffer, hbuffer⟩ := store_keeps j s.wire
  have hwait : step s .wait = some { s with writer := .check j } := by
    simp [step, hw, hroom]
  have hcheck : step { s with writer := .check j } .check = some { s with writer := .store j } := by
    simp [step, hopen]
  have hstore : step { s with writer := .store j } .store =
      some { s with wire := j.store s.wire, writer := .publish j } := rfl
  have hpublish : step { s with wire := j.store s.wire, writer := .publish j } .publish =
      some (s.after_chunk j) := by
    unfold Sys.after_chunk
    rw [hbuffer]
    simp only [step]
    change (if 0 < (j.rest s.wire).length then _ else _) = _
    split <;> rfl
  have h2 : RunOf step Own s ([.wait] ++ [.check]) { s with writer := .store j } :=
    .snoc (.single rfl hwait) rfl hcheck
  have h3 : RunOf step Own s ([.wait, .check] ++ [.store])
      { s with wire := j.store s.wire, writer := .publish j } := .snoc h2 rfl hstore
  exact .snoc h3 rfl hpublish

theorem after_chunk_room (h : Counters s.wire) (hroom : j.msg_length s.wire ≤ s.wire.room) :
    Counters (s.after_chunk j).wire ∧
      (s.after_chunk j).wire.room = s.wire.room - j.msg_length s.wire := by
  obtain ⟨buffer, hbuffer⟩ := store_keeps j s.wire
  unfold Sys.after_chunk
  rw [hbuffer]
  exact ⟨h.publish _ _, h.room_sub hroom (Nat.min_le_right _ _) buffer⟩

/-- By itself the writer gets to the end of the job, or to a chunk that finds too little
room, and the room in all decides which. -/
theorem alone_from (n : Nat) : ∀ (s : Sys T) (j : Job T), j.length ≤ n → 0 < j.length →
    s.writer = .wait j → s.closed = false → Counters s.wire →
    ∃ acts t, RunOf step Own s acts t ∧
      ((j.length ≤ s.wire.room ∧ t.writer = .idle) ∨
        (s.wire.room < j.length ∧
          ∃ k, t.writer = .wait k ∧ t.wire.room < k.msg_length t.wire)) := by
  induction n with
  | zero =>
    intro s j hn hpos
    omega
  | succ n ih =>
    intro s j hn hpos hw hopen hc
    have hcap := hc.capacity_pos
    rcases Nat.lt_or_ge s.wire.room (j.msg_length s.wire) with hlt | hge
    · refine ⟨[], s, .nil, Or.inr ⟨?_, j, hw, hlt⟩⟩
      exact Nat.lt_of_lt_of_le hlt (Nat.min_le_left _ _)
    · obtain ⟨hc', hroom'⟩ := after_chunk_room hc hge
      have hrun := run_chunk hw hopen hge
      have hmsg : j.msg_length s.wire = min j.length s.wire.capacity := rfl
      have hrest : (j.rest s.wire).length = j.length - j.msg_length s.wire := rfl
      by_cases hmore : 0 < (j.rest s.wire).length
      · obtain ⟨acts, t, hr, hend⟩ := ih (s.after_chunk j) (j.rest s.wire) (by omega) hmore
          (if_pos hmore) hopen hc'
        rw [hroom'] at hend
        refine ⟨_, t, hrun.trans hr, ?_⟩
        rcases hend with ⟨hle, hidle⟩ | ⟨hgt, hstuck⟩
        · exact Or.inl ⟨by omega, hidle⟩
        · exact Or.inr ⟨by omega, hstuck⟩
      · exact ⟨_, _, hrun, Or.inl ⟨by omega, if_neg hmore⟩⟩

/-! ## Every run of the call -/

/-- The room does not last for the job, and each chunk has found its own. -/
def Short (s : Sys T) : Prop :=
  match s.writer with
  | .idle => False
  | .wait j => s.wire.room < j.length
  | .check j | .store j | .publish j => s.wire.room < j.length ∧ j.msg_length s.wire ≤ s.wire.room

theorem short_step {a : Act T} (h : Short s) (hc : Counters s.wire) (hopen : s.closed = false)
    (ha : a.writes = true) (hs : step s a = some t) : Short t ∧ t.closed = false := by
  unfold Short at h
  cases a with
  | wait =>
    simp only [step] at hs
    split at hs
    · rename_i j hw
      rw [hw] at h
      split at hs
      · rename_i hroom
        cases hs
        have hroom := hroom.resolve_right (by simp [hopen])
        exact ⟨⟨h, hroom⟩, hopen⟩
      · cases hs
    · cases hs
  | check =>
    simp only [step] at hs
    split at hs
    · rename_i j hw
      rw [hw] at h
      rw [if_neg (by simp [hopen])] at hs
      cases hs
      exact ⟨h, hopen⟩
    · cases hs
  | store =>
    simp only [step] at hs
    split at hs
    · rename_i j hw
      rw [hw] at h
      cases hs
      obtain ⟨buffer, hbuffer⟩ := store_keeps j s.wire
      rw [hbuffer]
      exact ⟨h, hopen⟩
    · cases hs
  | publish =>
    simp only [step] at hs
    split at hs
    · rename_i j hw
      rw [hw] at h
      obtain ⟨hshort, hmsg⟩ := h
      have hroom := hc.room_sub hmsg (Nat.min_le_right _ _) s.wire.buffer
      have hrest : (j.rest s.wire).length = j.length - j.msg_length s.wire := rfl
      split at hs
      · cases hs
        refine ⟨?_, hopen⟩
        change SimpleWire.room _ < (j.rest s.wire).length
        rw [hroom]
        omega
      · omega
    · cases hs
  | _ => cases ha

/-- Without room for all of the message the call does not return by its own steps. -/
theorem short_run {acts : List (Act T)} (h : Short s) (hc : Counters s.wire)
    (hopen : s.closed = false) (hr : RunOf step Own s acts t) : t.writer ≠ .idle := by
  have hinv : Short t ∧ Counters t.wire ∧ t.closed = false := by
    refine hr.inv (I := fun t => Short t ∧ Counters t.wire ∧ t.closed = false) ⟨h, hc, hopen⟩ ?_
    rintro t a u ⟨ht, hct, hopen⟩ ha hs
    obtain ⟨hu, hopen⟩ := short_step ht hct hopen ha hs
    exact ⟨hu, counters_step hct hs, hopen⟩
  intro hidle
  have hshort := hinv.1
  unfold Short at hshort
  rw [hidle] at hshort
  exact hshort

/-- The job that `write` has in hand. -/
def Writer.job : Writer T → Option (Job T)
  | .idle => none
  | .wait j | .check j | .store j | .publish j => some j

/-- The room lasts for all that is left of the job. -/
def Lasts (s : Sys T) : Prop := ∀ j, s.writer.job = some j → j.length ≤ s.wire.room

theorem Lasts.congr (h : Lasts s) (hw : t.writer.job = s.writer.job ∨ t.writer = .idle)
    (hroom : s.wire.room ≤ t.wire.room) : Lasts t := by
  intro j hj
  rcases hw with hw | hw
  · exact Nat.le_trans (h j (hw.symm.trans hj)) hroom
  · rw [hw] at hj
    cases hj

/-- The reader makes room and takes none. -/
theorem lasts_read {a : Act T} (h : Lasts s) (hi : Inv s) (ha : a.reads = true)
    (hs : step s a = some t) : Lasts t := by
  cases a with
  | copy_header =>
    simp only [step] at hs
    split at hs
    · split at hs
      · cases hs
        refine h.congr (Or.inl rfl) ?_
        unfold SimpleWire.copy_header
        dsimp only
        split <;> exact Nat.le_refl _
      · cases hs
    · cases hs
  | read =>
    simp only [step] at hs
    split at hs
    · cases hs
      exact h.congr (Or.inl rfl) (Nat.le_refl _)
    · cases hs
  | read_chunk =>
    simp only [step] at hs
    split at hs
    · split at hs
      · cases hs
        exact h.congr (Or.inl rfl) (Nat.le_refl _)
      · cases hs
    · cases hs
  | advance =>
    simp only [step] at hs
    split at hs
    · rename_i top length advance hr
      have hrd := hi.reader
      unfold ReaderOk at hrd
      rw [hr] at hrd
      obtain ⟨m, -, -, -, hle⟩ := hrd
      have hb := hi.bounded
      have hpushed := hb.pushed_lt
      have hb' : Bounded { s.wire with poped := (s.wire.poped + advance) % 2 ^ 64 } := by
        have hlap := hb.pushed_le
        rw [Nat.mod_eq_of_lt (by omega)]
        exact ⟨hb.size_lt, hb.capacity_lt, hle, by dsimp only; omega, hpushed⟩
      have hroom : s.wire.room ≤
          SimpleWire.room { s.wire with poped := (s.wire.poped + advance) % 2 ^ 64 } := by
        rw [hb.room, hb'.room]
        dsimp only
        rw [Nat.mod_eq_of_lt (by omega)]
        omega
      split at hs <;> cases hs <;> exact h.congr (Or.inl rfl) hroom
    · cases hs
  | _ => cases ha

theorem lasts_write {a : Act T} (h : Lasts s) (hc : Counters s.wire) (ha : a.writes = true)
    (hs : step s a = some t) : Lasts t := by
  cases a with
  | wait =>
    simp only [step] at hs
    split at hs
    · rename_i j hw
      split at hs
      · cases hs
        exact h.congr (Or.inl (by rw [hw]; rfl)) (Nat.le_refl _)
      · cases hs
    · cases hs
  | check =>
    simp only [step] at hs
    split at hs
    · rename_i j hw
      split at hs <;> cases hs
      · exact h.congr (Or.inr rfl) (Nat.le_refl _)
      · exact h.congr (Or.inl (by rw [hw]; rfl)) (Nat.le_refl _)
    · cases hs
  | store =>
    simp only [step] at hs
    split at hs
    · rename_i j hw
      cases hs
      obtain ⟨buffer, hbuffer⟩ := store_keeps j s.wire
      rw [hbuffer]
      exact h.congr (Or.inl (by rw [hw]; rfl)) (Nat.le_refl _)
    · cases hs
  | publish =>
    simp only [step] at hs
    split at hs
    · rename_i j hw
      have hlast : j.length ≤ s.wire.room := h j (by rw [hw]; rfl)
      have hmsg : j.msg_length s.wire ≤ j.length := Nat.min_le_left _ _
      have hroom := hc.room_sub (Nat.le_trans hmsg hlast) (Nat.min_le_right _ _) s.wire.buffer
      have hrest : (j.rest s.wire).length = j.length - j.msg_length s.wire := rfl
      split at hs <;> cases hs
      · intro k hk
        cases hk
        rw [hroom]
        omega
      · intro k hk
        cases hk
    · cases hs
  | _ => cases ha

/-- The job of a call that has begun. -/
def Message.job (m : Message T) : Job T where
  head := some m.header
  src := m.payload
  length := (WireHeader.get_length m.header).toNat + WireHeader.size T

theorem write_begins (hidle : s.writer = .idle) (m : Message T) :
    step s (.write m) = some { s with writer := .wait m.job, sent := s.sent ++ [m] } := by
  simp only [step, hidle]
  rfl

theorem Message.job_pos (m : Message T) : 0 < m.job.length :=
  Nat.add_pos_right _ WireHeader.size_pos

/-- `write` returns by its own steps exactly when the room lasts for the whole message. -/
theorem writesAlone_iff (hc : Counters s.wire) (hopen : s.closed = false)
    (hidle : s.writer = .idle) (m : Message T) :
    WritesAlone s m ↔ m.job.length ≤ s.wire.room := by
  constructor
  · rintro ⟨begun, acts, t, hbegun, hr, ht⟩
    rw [write_begins hidle] at hbegun
    cases hbegun
    by_contra hroom
    have hshort : Short { s with writer := .wait m.job, sent := s.sent ++ [m] } :=
      Nat.lt_of_not_le hroom
    exact short_run hshort hc hopen hr ht
  · intro hroom
    obtain ⟨acts, t, hr, hend⟩ := alone_from _
      { s with writer := .wait m.job, sent := s.sent ++ [m] }
      m.job (Nat.le_refl _) m.job_pos rfl hopen hc
    rcases hend with ⟨-, ht⟩ | ⟨hlt, -⟩
    · exact ⟨_, acts, t, write_begins hidle m, hr, ht⟩
    · exact absurd hroom (Nat.not_le_of_lt hlt)

/-- The same with a reader at work. -/
theorem neverWaits_iff (h : Inv s) (hc : Counters s.wire) (hopen : s.closed = false)
    (hidle : s.writer = .idle) {m : Message T}
    (htotal : (stream (s.sent ++ [m])).length < 2 ^ 64) :
    NeverWaits s m ↔ m.job.length ≤ s.wire.room := by
  constructor
  · intro hnever
    obtain ⟨acts, t, hr, hend⟩ := alone_from _
      { s with writer := .wait m.job, sent := s.sent ++ [m] }
      m.job (Nat.le_refl _) m.job_pos rfl hopen hc
    rcases hend with ⟨hroom, -⟩ | ⟨-, k, hk, hlt⟩
    · exact hroom
    · have hle := hnever _ acts t k (write_begins hidle m) (hr.mono fun _ _ => Or.inl) hk
      omega
  · intro hroom begun acts t j hbegun hr hj
    have hinv : Inv begun := inv_step h hbegun (by
      rw [write_begins hidle] at hbegun
      cases hbegun
      exact htotal)
    rw [write_begins hidle] at hbegun
    cases hbegun
    have hend : Inv t ∧ Counters t.wire ∧ Lasts t := by
      refine hr.inv (I := fun t => Inv t ∧ Counters t.wire ∧ Lasts t) ⟨hinv, hc, ?_⟩ ?_
      · intro k hk
        cases hk
        exact hroom
      · rintro t a u ⟨hi, hct, hl⟩ ha hs
        have hsent : u.sent = t.sent := by
          rcases step_sent hs with hsent | ⟨m, rfl, -⟩
          · exact hsent
          · rcases ha with ha | ha <;> cases ha
        refine ⟨inv_step hi hs (by rw [hsent]; exact hi.total), counters_step hct hs, ?_⟩
        exact ha.elim (lasts_write hl hct · hs) (lasts_read hl hi · hs)
    have hlast := hend.2.2 j (by rw [hj]; rfl)
    exact Nat.le_trans (Nat.min_le_left _ _) hlast

end

/-! ## Agreement -/

/-- The room is too small for the message, and not too small for its payload. -/
def InTheBand (w : SimpleWire ResponseHeader) (header : ResponseHeader) : Prop :=
  header.length.toNat ≤ w.room ∧ w.room < header.length.toNat + WireHeader.size ResponseHeader

/-- On an open response wire `is_writable` says whether `write` goes through without waiting,
exactly when the room is not in the band of eight bytes above the length of the payload. It
is the same for a `write` by itself and for one beside which a reader is at work. -/
theorem is_writable_agrees_with_write (capacity : Nat) (buffer : Nat → UInt8)
    (header : ResponseHeader) (hsize : WireHeader.size ResponseHeader < capacity)
    (hcap : capacity < 2 ^ 64) (acts : List (Act ResponseHeader)) (s : Sys ResponseHeader)
    (hr : RunOf step Free (Sys.init capacity buffer header) acts s) (hopen : s.closed = false)
    (hidle : s.writer = .idle) (m : Message ResponseHeader) :
    ((is_writable s.wire m.header = true ↔ WritesAlone s m) ↔ ¬ InTheBand s.wire m.header) ∧
    ((stream (s.sent ++ [m])).length < 2 ^ 64 →
      ((is_writable s.wire m.header = true ↔ NeverWaits s m) ↔ ¬ InTheBand s.wire m.header)) := by
  have hc : Counters s.wire := counters_run (Nat.zero_lt_of_lt hsize) hcap hr
  have hband : ∀ {p : Prop}, (p ↔ m.job.length ≤ s.wire.room) →
      ((is_writable s.wire m.header = true ↔ p) ↔ ¬ InTheBand s.wire m.header) := by
    intro p hp
    have hjob : m.job.length = m.header.length.toNat + WireHeader.size ResponseHeader := rfl
    have hwritable : is_writable s.wire m.header = true ↔
        m.header.length.toNat ≤ s.wire.room := decide_eq_true_iff
    rw [hp, hwritable, hjob]
    unfold InTheBand
    omega
  refine ⟨hband (writesAlone_iff hc hopen hidle m), ?_⟩
  intro htotal
  have htotal' : (stream s.sent).length < 2 ^ 64 := by
    rw [stream_snoc, List.length_append] at htotal
    omega
  have h := run_inv (inv_init buffer header hsize hcap) hr htotal'
  exact hband (neverWaits_iff h hc hopen hidle htotal)

def freshWire (capacity : Nat) : Sys ResponseHeader := Sys.init capacity (fun _ => 0) ⟨0, 0, 0⟩

theorem length_three_bytes : ([7, 8, 9] : List UInt8).length = 3 := rfl

def threeByteResponse : Message ResponseHeader := ⟨⟨1, 2, 3⟩, [7, 8, 9], length_three_bytes⟩

/-- The response is eleven bytes long, which fit into a fresh wire of twelve. -/
theorem is_writable_agrees_with_write_on_a_fresh_wire :
    is_writable (freshWire 12).wire threeByteResponse.header = true ↔
      WritesAlone (freshWire 12) threeByteResponse := by
  refine (is_writable_agrees_with_write 12 (fun _ => 0) ⟨0, 0, 0⟩ (by decide) (by decide) []
    (freshWire 12) .nil rfl rfl threeByteResponse).1.mpr ?_
  unfold InTheBand
  decide

/-- Into a fresh wire of ten the payload fits, and not the response: the second chunk waits
for a reader. -/
theorem a_writable_response_waits :
    is_writable (freshWire 10).wire threeByteResponse.header = true ∧
      ¬ WritesAlone (freshWire 10) threeByteResponse := by
  refine ⟨by decide, ?_⟩
  have hr : RunOf step Free (freshWire 10) [] (freshWire 10) := .nil
  have hc : Counters (freshWire 10).wire := counters_run (by decide) (by decide) hr
  rw [writesAlone_iff hc rfl rfl]
  decide

end tateyama_bootstrap.simple_wire
