-- `payload` and `dispose` of `simple_wire`. `payload` gives the server a view of the
-- message that `peep` has found, in the buffer or in a private copy, and `dispose` pops it.
-- Both are to agree with `read`, for every interleaving with the writer's chunks.
import TateyamaBootstrap.WireFifo

open runs ring_memory

namespace tateyama_bootstrap.simple_wire

variable {T : Type}

/-! ## The view -/

/-- The `std::string_view` that `payload` returns. -/
inductive View
  /-- The bytes of the buffer from the offset `top` on. -/
  | in_buffer (top length : Nat)
  /-- `copy_of_payload_`. -/
  | copied (bytes : List UInt8)
deriving DecidableEq

namespace View

def bytes (buffer : Nat → UInt8) : View → List UInt8
  | .in_buffer top length => memread buffer top length
  | .copied bytes => bytes

/-- Every byte of the view is in the buffer, or in the copy. -/
def Inside (capacity : Nat) : View → Prop
  | .in_buffer top length => ∀ i < length, top + i < capacity
  | .copied _ => True

end View

variable [WireHeader T]

/-- The length that the header in hand gives. -/
def SimpleWire.length (w : SimpleWire T) : Nat := (WireHeader.get_length w.header_received).toNat

/-- The test of `payload`: it compares where the payload begins in the buffer with where the
next message begins. -/
def SimpleWire.in_place (w : SimpleWire T) : Bool :=
  w.index (w.poped + WireHeader.size T) < w.index (w.poped + WireHeader.size T + w.length)

/-! ## The server -/

/-- The wire with what `payload` keeps in it. -/
structure Served (T : Type) [WireHeader T] where
  base : Sys T
  need_dispose : Nat
  /-- `payload` has called `read`, which has not returned. -/
  copying : Bool
  /-- What the last `payload` has returned, until `dispose`. -/
  view : Option View

namespace Served

def init (capacity : Nat) (buffer : Nat → UInt8) (header : T) : Served T where
  base := Sys.init capacity buffer header
  need_dispose := 0
  copying := false
  view := none

def payload (s : Served T) : Option (Served T) :=
  let length := s.base.wire.length
  if s.base.wire.in_place then
    some { s with
      need_dispose := WireHeader.size T + length
      view := some (.in_buffer (s.base.wire.read_address (WireHeader.size T)) length) }
  else (step s.base .read).map fun base => { s with base, copying := true }

/-- The message of a view in the buffer counts as received when it is popped. -/
def dispose (s : Served T) : Served T :=
  if 0 < s.need_dispose then
    { base := { s.base with
        wire := { s.base.wire with poped := (s.base.wire.poped + s.need_dispose) % 2 ^ 64 }
        reader := .idle
        received := s.base.received ++
          s.view.toList.map fun v => (s.base.wire.header_received, v.bytes s.base.wire.buffer) }
      need_dispose := 0
      copying := s.copying
      view := none }
  else { s with view := none }

/-- The server is inside `payload`, or has not called `dispose` after it. -/
def busy (s : Served T) : Bool := s.copying || s.view.isSome

/-- A step of the wire. When `read` is through and `payload` has called it, `payload` returns
the copy. -/
def moves (s : Served T) (a : Act T) (base : Sys T) : Served T :=
  match a, s.base.reader with
  | .advance, .copied top 0 _ =>
    if s.copying then { s with base, copying := false, view := some (.copied top) }
    else { s with base }
  | _, _ => { s with base }

end Served

/-- The steps with which a server begins on the next message. -/
def Act.begins : Act T → Bool
  | .copy_header | .read => true
  | _ => false

inductive ServeAct (T : Type) [WireHeader T]
  | wire (a : Act T)
  | payload
  | dispose

/-- One step of the writer, or of a server that calls `peep`, then `read` or else `payload`
and `dispose`. -/
def serve (s : Served T) : ServeAct T → Option (Served T)
  | .wire a =>
    if a.begins ∧ s.busy then none else (step s.base a).map (s.moves a)
  | .payload =>
    match s.base.reader with
    | .header => if s.busy then none else s.payload
    | _ => none
  | .dispose => if s.copying then none else some s.dispose

/-! ## Agreement with read -/

/-- What the server has in its hands is what was written, and `dispose` leaves the wire as
`read` would. Message `k` is the one that the view shows. -/
structure Agrees (s : Served T) : Prop where
  poped_le : s.base.wire.poped ≤ s.base.wire.pushed
  received : s.base.received = (s.base.sent.take s.base.received.length).map Message.parts
  peeped : s.base.reader = .header →
    s.base.wire.poped = offset s.base.sent s.base.received.length
  view : ∀ v, s.view = some v → ∃ k m, s.base.sent[k]? = some m ∧
    v.Inside s.base.wire.capacity ∧ v.bytes s.base.wire.buffer = m.payload ∧
    s.dispose.base.received.length = k + 1 ∧
    s.dispose.base.wire.poped = offset s.base.sent k + (WireHeader.size T + m.payload.length) ∧
    s.dispose.base.wire.poped ≤ s.dispose.base.wire.pushed
  as_read : ∀ top length, s.view = some (.in_buffer top length) →
    exec step s.base [.read, .advance] = some s.dispose.base

/-- Where `payload` gives a view of the buffer, the message fits into the buffer. -/
def InPlaceFits (s : Served T) : ServeAct T → Prop
  | .payload => s.base.wire.in_place = true →
      WireHeader.size T + s.base.wire.length ≤ s.base.wire.capacity
  | _ => True

/-! ## The invariant -/

/-- What a server holds. -/
def Holding (s : Served T) : Prop :=
  match s.view with
  | none => s.need_dispose = 0
  | some (.in_buffer top length) => s.copying = false ∧ s.base.reader = .header ∧
      top = s.base.wire.read_address (WireHeader.size T) ∧ length = s.base.wire.length ∧
      s.need_dispose = WireHeader.size T + length ∧ s.base.wire.in_place = true ∧
      WireHeader.size T + length ≤ s.base.wire.capacity
  | some (.copied bytes) => s.copying = false ∧ s.need_dispose = 0 ∧ s.base.reader = .idle ∧
      ∃ k m, s.base.received.length = k + 1 ∧ s.base.sent[k]? = some m ∧ bytes = m.payload

structure ServedInv (s : Served T) : Prop where
  base : Inv s.base
  holding : Holding s

section

variable {s t : Served T}

/-- Where the test of `payload` is true of a message that fits, no byte of it crosses the
end of the buffer. -/
theorem in_place_fits {w : SimpleWire T} (hlt : w.poped + (WireHeader.size T + w.length) < 2 ^ 64)
    (hcap : 0 < w.capacity) (hin : w.in_place = true)
    (hfits : WireHeader.size T + w.length ≤ w.capacity) :
    w.read_address (WireHeader.size T) + w.length ≤ w.capacity := by
  have hsize := WireHeader.size_pos (T := T)
  unfold SimpleWire.in_place at hin
  rw [decide_eq_true_iff, index_of_lt w (by omega), index_of_lt w (by omega)] at hin
  unfold SimpleWire.read_address
  rw [index_of_lt w (by omega)]
  have hmod := Nat.mod_lt (w.poped + WireHeader.size T) hcap
  by_contra hover
  have hwrap : (w.poped + WireHeader.size T + w.length) % w.capacity =
      (w.poped + WireHeader.size T) % w.capacity + w.length - w.capacity := by
    rw [← Nat.mod_add_mod, Nat.mod_eq_sub_mod (by omega), Nat.mod_eq_of_lt (by omega)]
  omega

/-- The message in hand, and where it ends. -/
theorem Inv.peeped {s : Sys T} (h : Inv s) (hr : s.reader = .header) :
    ∃ m, s.sent[s.received.length]? = some m ∧ s.wire.header_received = m.header ∧
      s.wire.length = m.payload.length ∧
      s.wire.poped = offset s.sent s.received.length ∧
      s.wire.poped + (WireHeader.size T + m.payload.length) < 2 ^ 64 ∧
      s.wire.poped + min m.bytes.length s.wire.capacity ≤ s.wire.pushed := by
  have hrd := h.reader
  unfold ReaderOk at hrd
  rw [hr] at hrd
  obtain ⟨m, hread, hpop, hchunk⟩ := hrd
  have htotal := h.total
  have hsucc := offset_succ hread.message
  have hle := offset_le_length s.sent (s.received.length + 1)
  rw [m.length_bytes] at hsucc
  refine ⟨m, hread.message, hread.header, ?_, hpop, by omega, hchunk⟩
  unfold SimpleWire.length
  rw [hread.header, m.length_payload]

/-- A view in the buffer shows the payload of the message at the head of the wire. -/
theorem view_in_place {s : Sys T} (h : Inv s) (hr : s.reader = .header)
    (hin : s.wire.in_place = true)
    (hfits : WireHeader.size T + s.wire.length ≤ s.wire.capacity) :
    ∃ m, s.sent[s.received.length]? = some m ∧
      memread s.wire.buffer (s.wire.read_address (WireHeader.size T)) s.wire.length =
        m.payload ∧
      s.wire.poped = offset s.sent s.received.length ∧ s.wire.length = m.payload.length ∧
      s.wire.poped + (WireHeader.size T + s.wire.length) < 2 ^ 64 ∧
      s.wire.poped + (WireHeader.size T + s.wire.length) ≤ s.wire.pushed := by
  obtain ⟨m, hm, -, hlen, hpop, hlt, hchunk⟩ := h.peeped hr
  rw [m.length_bytes] at hchunk
  rw [← hlen] at hlt hchunk
  have hend : s.wire.poped + (WireHeader.size T + s.wire.length) ≤ s.wire.pushed := by omega
  refine ⟨m, hm, ?_, hpop, hlen, hlt, hend⟩
  have hplace := in_place_fits hlt h.bounded.capacity_pos hin hfits
  unfold SimpleWire.read_address at hplace ⊢
  rw [index_of_lt _ (by omega)] at hplace ⊢
  have hd := stream_drop_payload hm (Nat.zero_le _)
  rw [Nat.add_zero, ← hpop, List.drop_zero] at hd
  rw [← slice_eq_memread _ hplace, h.slice_eq (by omega) (by omega), hd, hlen]
  exact List.take_left' rfl

/-- `dispose` of a view in the buffer is what `read` does. -/
theorem read_in_place {s : Served T} (h : Inv s.base) {length : Nat}
    (hr : s.base.reader = .header) (hl : length = s.base.wire.length)
    (hv : s.view = some (.in_buffer (s.base.wire.read_address (WireHeader.size T)) length))
    (hneed : s.need_dispose = WireHeader.size T + length) (hin : s.base.wire.in_place = true)
    (hfits : WireHeader.size T + length ≤ s.base.wire.capacity) :
    exec step s.base [.read, .advance] = some s.dispose.base := by
  obtain ⟨m, -, -, -, -, hlt, -⟩ := view_in_place h hr hin (hl ▸ hfits)
  have hplace := in_place_fits hlt h.bounded.capacity_pos hin (hl ▸ hfits)
  have hsize := WireHeader.size_pos (T := T)
  subst hl
  have hmin : min s.base.wire.length s.base.wire.max_payload_length = s.base.wire.length := by
    rw [h.bounded.max_payload_length]
    omega
  have hread : step s.base .read = some { s.base with
      reader := .copied
        (memread s.base.wire.buffer (s.base.wire.read_address (WireHeader.size T))
          s.base.wire.length) 0 (WireHeader.size T + s.base.wire.length) } := by
    have hmin' := hmin
    unfold SimpleWire.length at hmin' hplace ⊢
    simp only [step, hr, hmin', SimpleWire.read_from_buffer, if_pos hplace, Nat.sub_self]
  rw [exec_cons hread]
  simp only [exec, step, Nat.lt_irrefl, if_false, Option.bind_some, Served.dispose, hneed, hv,
    if_pos (Nat.add_pos_left hsize _), Option.toList_some, List.map_cons, List.map_nil,
    View.bytes]

theorem ServedInv.agrees (h : ServedInv s) : Agrees s := by
  have hb := h.base.bounded
  have hold := h.holding
  unfold Holding at hold
  refine ⟨hb.poped_le, h.base.received, ?_, ?_, ?_⟩
  · intro hr
    obtain ⟨m, -, -, -, hpop, -⟩ := h.base.peeped hr
    exact hpop
  · intro v hv
    rw [hv] at hold
    cases v with
    | in_buffer top length =>
      obtain ⟨-, hr, rfl, rfl, hneed, hin, hfits⟩ := hold
      obtain ⟨m, hm, hbytes, hpop, hlen, hlt, hend⟩ := view_in_place h.base hr hin hfits
      have hplace := in_place_fits hlt hb.capacity_pos hin hfits
      have hpos : 0 < s.need_dispose := by
        have := WireHeader.size_pos (T := T)
        omega
      have hmod : (s.base.wire.poped + s.need_dispose) % 2 ^ 64 =
          s.base.wire.poped + s.need_dispose := Nat.mod_eq_of_lt (by omega)
      refine ⟨_, m, hm, ?_, hbytes, ?_, ?_, ?_⟩
      · intro i hi
        omega
      · simp [Served.dispose, hpos, hv]
      · simp only [Served.dispose, if_pos hpos, hmod]
        omega
      · simp only [Served.dispose, if_pos hpos, hmod]
        omega
    | copied bytes =>
      obtain ⟨-, hneed, hr, k, m, hk, hm, rfl⟩ := hold
      have hdispose : s.dispose = { s with view := none } := by
        simp [Served.dispose, hneed]
      have hpop := h.base.reader
      unfold ReaderOk at hpop
      rw [hr] at hpop
      dsimp only at hpop
      rw [hk, offset_succ hm, m.length_bytes] at hpop
      rw [hdispose]
      exact ⟨k, m, hm, trivial, rfl, hk, hpop, hb.poped_le⟩
  · intro top length hv
    rw [hv] at hold
    obtain ⟨-, hr, rfl, hlen, hneed, hin, hfits⟩ := hold
    exact read_in_place h.base hr hlen hv hneed hin hfits

/-! ## The steps -/

/-- What the reader has in hand is not touched by the writer. -/
structure SameReader (s t : Sys T) : Prop where
  reader : t.reader = s.reader
  received : t.received = s.received
  header_received : t.wire.header_received = s.wire.header_received
  poped : t.wire.poped = s.wire.poped
  capacity : t.wire.capacity = s.wire.capacity
  sent : s.sent <+: t.sent

theorem sameReader_of_step {s t : Sys T} {a : Act T} (ha : a.reads = false)
    (hs : step s a = some t) : SameReader s t := by
  cases a with
  | write m =>
    simp only [step] at hs
    split at hs
    · cases hs
      exact ⟨rfl, rfl, rfl, rfl, rfl, List.prefix_append ..⟩
    · cases hs
  | wait =>
    simp only [step] at hs
    split at hs
    · split at hs
      · cases hs
        exact ⟨rfl, rfl, rfl, rfl, rfl, List.prefix_refl _⟩
      · cases hs
    · cases hs
  | check | publish =>
    simp only [step] at hs
    split at hs
    · split at hs <;> cases hs <;> exact ⟨rfl, rfl, rfl, rfl, rfl, List.prefix_refl _⟩
    · cases hs
  | store =>
    simp only [step] at hs
    split at hs
    · rename_i j hw
      cases hs
      obtain ⟨buffer, hbuf⟩ := store_keeps j s.wire
      rw [hbuf]
      exact ⟨rfl, rfl, rfl, rfl, rfl, List.prefix_refl _⟩
    · cases hs
  | close =>
    cases hs
    exact ⟨rfl, rfl, rfl, rfl, rfl, List.prefix_refl _⟩
  | copy_header | read | read_chunk | advance => cases ha

/-- A step of the wire that the server may take with a view in its hands is the writer's. -/
theorem writer_steps {a : Act T} {base : Sys T} (hold : Holding s) (hv : s.view.isSome = true)
    (hbegin : ¬ (a.begins = true ∧ s.busy = true)) (hs : step s.base a = some base) :
    a.reads = false := by
  have hbusy : s.busy = true := by simp [Served.busy, hv]
  have hreader : s.base.reader = .header ∨ s.base.reader = .idle := by
    obtain ⟨v, hv⟩ := Option.isSome_iff_exists.mp hv
    unfold Holding at hold
    rw [hv] at hold
    cases v with
    | in_buffer top length => exact Or.inl hold.2.1
    | copied bytes => exact Or.inr hold.2.2.1
  cases a with
  | copy_header | read => exact absurd ⟨rfl, hbusy⟩ hbegin
  | read_chunk | advance => rcases hreader with hr | hr <;> simp [step, hr] at hs
  | _ => rfl

theorem Holding.writer {base : Sys T} (hold : Holding s) (h : SameReader s.base base) :
    Holding { s with base } := by
  unfold Holding at hold ⊢
  dsimp only
  cases hv : s.view with
  | none =>
    rw [hv] at hold
    exact hold
  | some v =>
    rw [hv] at hold
    have hlen : base.wire.length = s.base.wire.length := by
      unfold SimpleWire.length
      rw [h.header_received]
    cases v with
    | in_buffer top length =>
      obtain ⟨hc, hr, htop, hl, hneed, hin, hfits⟩ := hold
      refine ⟨hc, h.reader.trans hr, ?_, hl.trans hlen.symm, hneed, ?_, ?_⟩
      · rw [htop]
        unfold SimpleWire.read_address SimpleWire.index
        rw [h.poped, h.capacity]
      · unfold SimpleWire.in_place SimpleWire.index at hin ⊢
        rw [h.poped, h.capacity, hlen]
        exact hin
      · rw [h.capacity]
        exact hfits
    | copied bytes =>
      obtain ⟨hc, hneed, hr, k, m, hk, hm, hbytes⟩ := hold
      refine ⟨hc, hneed, h.reader.trans hr, k, m, ?_, ?_, hbytes⟩
      · rw [h.received]
        exact hk
      · obtain ⟨rest, hrest⟩ := h.sent
        rw [← hrest, List.getElem?_append_left (List.getElem?_eq_some_iff.mp hm).1]
        exact hm

@[simp] theorem Served.moves_base (s : Served T) (a : Act T) (base : Sys T) :
    (s.moves a base).base = base := by
  unfold Served.moves
  split
  · split <;> rfl
  · rfl

/-- A step of the wire gives the server nothing, or the whole message that `read` has copied. -/
theorem Holding.wire {a : Act T} {base : Sys T} (h : ServedInv s)
    (hbegin : ¬ (a.begins = true ∧ s.busy = true)) (hs : step s.base a = some base) :
    Holding (s.moves a base) := by
  have hold := h.holding
  cases hv : s.view with
  | some v =>
    have ha := writer_steps hold (by rw [hv]; rfl) hbegin hs
    have hmoves : s.moves a base = { s with base } := by
      unfold Served.moves
      split
      · cases ha
      · rfl
    rw [hmoves]
    exact hold.writer (sameReader_of_step ha hs)
  | none =>
    unfold Holding at hold
    rw [hv] at hold
    unfold Served.moves
    split
    · rename_i top advance hr
      split
      · have hrd := h.base.reader
        unfold ReaderOk at hrd
        rw [hr] at hrd
        obtain ⟨m, hread, hlen, -, -⟩ := hrd
        simp only [step, hr, Nat.lt_irrefl, if_false, Option.some.injEq] at hs
        subst hs
        have hall : top = m.payload := hread.top.eq_of_length (by omega)
        refine ⟨rfl, hold, rfl, s.base.received.length, m, ?_, hread.message, hall⟩
        rw [List.length_append, List.length_singleton]
      · unfold Holding
        rw [hv]
        exact hold
    · unfold Holding
      rw [hv]
      exact hold

theorem ServedInv.dispose (h : ServedInv s) : ServedInv s.dispose := by
  have hold := h.holding
  unfold Holding at hold
  have hidle : s.need_dispose = 0 → ServedInv s.dispose := by
    intro hneed
    have hdispose : s.dispose = { s with view := none } := by
      simp [Served.dispose, hneed]
    rw [hdispose]
    exact ⟨h.base, hneed⟩
  cases hv : s.view with
  | none =>
    rw [hv] at hold
    exact hidle hold
  | some v =>
    rw [hv] at hold
    cases v with
    | copied bytes => exact hidle hold.2.1
    | in_buffer top length =>
      have hpos : 0 < s.need_dispose := by
        have := WireHeader.size_pos (T := T)
        obtain ⟨-, -, -, -, hneed, -⟩ := hold
        omega
      have hread := h.agrees.as_read top length hv
      refine ⟨run_inv h.base (RunOf.of_exec hread) ?_, ?_⟩
      · have hsent : s.dispose.base.sent = s.base.sent := by
          simp [Served.dispose, hpos]
        rw [hsent]
        exact h.base.total
      · simp [Holding, Served.dispose, hpos]

theorem servedInv_init {capacity : Nat} (buffer : Nat → UInt8) (header : T)
    (hsize : WireHeader.size T < capacity) (hcap : capacity < 2 ^ 64) :
    ServedInv (Served.init capacity buffer header) :=
  ⟨inv_init buffer header hsize hcap, rfl⟩

theorem servedInv_step {a : ServeAct T} (h : ServedInv s) (hs : serve s a = some t)
    (htotal : (stream t.base.sent).length < 2 ^ 64) (hc : InPlaceFits s a) : ServedInv t := by
  cases a with
  | wire a =>
    simp only [serve] at hs
    split at hs
    · cases hs
    · rename_i hbegin
      obtain ⟨base, hbase, rfl⟩ := Option.map_eq_some_iff.mp hs
      refine ⟨?_, Holding.wire h hbegin hbase⟩
      rw [s.moves_base] at htotal ⊢
      exact inv_step h.base hbase htotal
  | payload =>
    simp only [serve] at hs
    split at hs
    · rename_i hr
      split at hs
      · cases hs
      · rename_i hbusy
        have hidle : s.copying = false ∧ s.view = none := by
          simpa [Served.busy] using hbusy
        unfold Served.payload at hs
        dsimp only at hs
        split at hs
        · rename_i hin
          cases hs
          exact ⟨h.base, hidle.1, hr, rfl, rfl, rfl, hin, hc hin⟩
        · obtain ⟨base, hbase, rfl⟩ := Option.map_eq_some_iff.mp hs
          have hold := h.holding
          unfold Holding at hold
          rw [hidle.2] at hold
          refine ⟨inv_step h.base hbase htotal, ?_⟩
          unfold Holding
          dsimp only
          rw [hidle.2]
          exact hold
    · cases hs
  | dispose =>
    simp only [serve] at hs
    split at hs
    · cases hs
    · cases hs
      exact h.dispose

/-- A view of a message that is longer than the buffer has bytes that are not published, and
`dispose` pops them. -/
theorem inPlaceFits_of_agrees {a : ServeAct T} (h : ServedInv s) (hs : serve s a = some t)
    (ht : Agrees t) : InPlaceFits s a := by
  cases a with
  | wire a => trivial
  | dispose => trivial
  | payload =>
    intro hin
    simp only [serve] at hs
    split at hs
    · rename_i hr
      split at hs
      · cases hs
      · unfold Served.payload at hs
        dsimp only at hs
        rw [if_pos hin] at hs
        cases hs
        obtain ⟨m, -, -, hlen, -, hlt, -⟩ := h.base.peeped hr
        obtain ⟨k, m', -, -, -, -, -, hle⟩ := ht.view _ rfl
        have hsize := WireHeader.size_pos (T := T)
        have hpushed := h.base.bounded.pushed_le
        simp only [Served.dispose, if_pos (Nat.add_pos_left hsize _)] at hle
        rw [Nat.mod_eq_of_lt (by omega)] at hle
        omega
    · cases hs

theorem serve_total {a : ServeAct T} (hs : serve s a = some t) :
    (stream s.base.sent).length ≤ (stream t.base.sent).length := by
  cases a with
  | wire a =>
    simp only [serve] at hs
    split at hs
    · cases hs
    · obtain ⟨base, hbase, rfl⟩ := Option.map_eq_some_iff.mp hs
      rw [s.moves_base]
      exact step_total hbase
  | payload =>
    simp only [serve] at hs
    split at hs
    · split at hs
      · cases hs
      · unfold Served.payload at hs
        dsimp only at hs
        split at hs
        · cases hs
          exact Nat.le_refl _
        · obtain ⟨base, hbase, rfl⟩ := Option.map_eq_some_iff.mp hs
          exact step_total hbase
    · cases hs
  | dispose =>
    simp only [serve] at hs
    split at hs
    · cases hs
    · cases hs
      unfold Served.dispose
      split <;> exact Nat.le_refl _

end

/-- In a run that moves fewer than 2^64 bytes, `payload` and `dispose` agree with `read` in
every state exactly when the test of each `payload` that gives a view of the buffer was made
for a message that fits into the buffer. -/
theorem payload_agrees_with_read (capacity : Nat) (buffer : Nat → UInt8) (header : T)
    (hsize : WireHeader.size T < capacity) (hcap : capacity < 2 ^ 64) (acts : List (ServeAct T))
    (s : Served T) (hr : RunOf serve Free (Served.init capacity buffer header) acts s)
    (htotal : (stream s.base.sent).length < 2 ^ 64) :
    (∀ begun t, begun <+: acts →
      RunOf serve Free (Served.init capacity buffer header) begun t → Agrees t) ↔
      RunOf serve InPlaceFits (Served.init capacity buffer header) acts s := by
  refine hr.always_iff_within (B := fun t => (stream t.base.sent).length < 2 ^ 64)
    (J := ServedInv) htotal ?_ (servedInv_init buffer header hsize hcap)
    (fun _ h => h.agrees) ?_ ?_
  · intro t a u hs hu
    exact Nat.lt_of_le_of_lt (serve_total hs) hu
  · intro t a u h hu hs hc
    exact servedInv_step h hs hu hc
  · intro t a u h _ hs hu
    exact inPlaceFits_of_agrees h hs hu

/-- A request of three bytes, and one of six that goes through a ring of ten in two chunks. -/
def threeBytes : Message MessageHeader := ⟨⟨1, 3⟩, [7, 8, 9], rfl⟩

def sixBytes : Message MessageHeader := ⟨⟨2, 6⟩, [1, 2, 3, 4, 5, 6], rfl⟩

def chunk : List (ServeAct MessageHeader) :=
  [.wire .wait, .wire .check, .wire .store, .wire .publish]

/-- The server gets the first request in the buffer and the second one as a copy. -/
def twoRequests : List (ServeAct MessageHeader) :=
  ServeAct.wire (.write threeBytes) :: chunk ++ [ServeAct.wire .copy_header, .payload, .dispose,
    .wire (.write sixBytes)] ++ chunk ++ [ServeAct.wire .copy_header, .payload, .wire .advance] ++
    chunk ++ [ServeAct.wire .read_chunk, .wire .advance, .dispose]

/-- The test for `InPlaceFits`. -/
def inPlaceFits (s : Served T) : ServeAct T → Bool
  | .payload => !s.base.wire.in_place ||
      WireHeader.size T + s.base.wire.length ≤ s.base.wire.capacity
  | _ => true

theorem payload_agrees_with_read_on_two_requests :
    ∃ s : Served MessageHeader,
      RunOf serve Free (Served.init 10 (fun _ => 0) ⟨0, 0⟩) twoRequests s ∧
      s.base.received = [(⟨1, 3⟩, [7, 8, 9]), (⟨2, 6⟩, [1, 2, 3, 4, 5, 6])] ∧
      ∀ begun t, begun <+: twoRequests →
        RunOf serve Free (Served.init 10 (fun _ => 0) ⟨0, 0⟩) begun t → Agrees t := by
  obtain ⟨s, hr, hp⟩ := RunOf.exists_of_exec
    (s := Served.init 10 (fun _ => 0) (⟨0, 0⟩ : MessageHeader)) (C := InPlaceFits)
    (c := inPlaceFits)
    (p := fun s => s.base.received = [(⟨1, 3⟩, [7, 8, 9]), (⟨2, 6⟩, [1, 2, 3, 4, 5, 6])] ∧
      (stream s.base.sent).length = 21)
    (by
      intro s a h
      cases a with
      | payload =>
        intro hin
        simpa [inPlaceFits, hin] using h
      | _ => trivial)
    (by decide : (exec (guarded serve inPlaceFits) _ twoRequests).any _ = true)
  obtain ⟨hrec, htotal⟩ : s.base.received =
      [(⟨1, 3⟩, [7, 8, 9]), (⟨2, 6⟩, [1, 2, 3, 4, 5, 6])] ∧ (stream s.base.sent).length = 21 := by
    simpa using hp
  have hfree : RunOf serve Free (Served.init 10 (fun _ => 0) ⟨0, 0⟩) twoRequests s :=
    hr.mono fun _ _ _ => trivial
  exact ⟨s, hfree, hrec, (payload_agrees_with_read 10 _ _ (by decide) (by decide) _ s hfree
    (by omega)).mpr hr⟩

/-- A request of eleven bytes. -/
def elevenBytes : Message MessageHeader := ⟨⟨3, 11⟩, [1, 2, 3, 4, 5, 6, 7, 8, 9, 10, 11], rfl⟩

/-- The first chunk of a request of eleven bytes fills a ring of ten. `payload` gives a view
that ends seven bytes behind the buffer, and `dispose` pops seven bytes that nobody has
written. -/
theorem a_view_ends_behind_the_buffer : ∃ s t : Served MessageHeader,
    RunOf serve Free (Served.init 10 (fun _ => 0) ⟨0, 0⟩)
      (.wire (.write elevenBytes) :: chunk ++ [.wire .copy_header, .payload]) s ∧
    s.view = some (.in_buffer 6 11) ∧ s.base.wire.capacity = 10 ∧ ¬ Agrees s ∧
    serve s .dispose = some t ∧ t.base.wire.poped = 17 ∧ t.base.wire.pushed = 10 := by
  obtain ⟨s, hr, hp⟩ := RunOf.exists_free
    (s := Served.init 10 (fun _ => 0) (⟨0, 0⟩ : MessageHeader))
    (p := fun s => s.view = some (.in_buffer 6 11) ∧ s.base.wire.capacity = 10 ∧
      s.copying = false ∧ s.dispose.base.wire.poped = 17 ∧ s.dispose.base.wire.pushed = 10)
    (by decide : (exec serve _ (.wire (.write elevenBytes) :: chunk ++
      [.wire .copy_header, .payload])).any _ = true)
  obtain ⟨hview, hcap, hcopying, hpoped, hpushed⟩ : s.view = some (.in_buffer 6 11) ∧
      s.base.wire.capacity = 10 ∧ s.copying = false ∧ s.dispose.base.wire.poped = 17 ∧
      s.dispose.base.wire.pushed = 10 := by simpa using hp
  refine ⟨s, s.dispose, hr, hview, hcap, ?_, by simp [serve, hcopying], hpoped, hpushed⟩
  intro h
  obtain ⟨k, m, -, -, -, -, -, hle⟩ := h.view _ hview
  omega

end tateyama_bootstrap.simple_wire
