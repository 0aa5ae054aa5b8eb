-- The waits of a result set (unidirectional_simple_wires of transport/wire.h):
-- the writer of each wire waits for room on the `c_full_` of the wire, and the
-- client waits for a record on `c_record_`.
import TateyamaBootstrap.ResultSetWires
import TateyamaBootstrap.WireWaits

open runs ring_memory

namespace tateyama_bootstrap.resultset_waits

open monitor simple_wire resultset_wires

/-! ## The parties -/

/-- Each wire has its writer. The client reads all the wires, and any number of
threads may close the result set or mark its end. -/
inductive Party
  | writer (i : Nat)
  | client
  | controller (n : Nat)
deriving DecidableEq, Repr

/-- Where the writer of a wire stands. -/
inductive Writer
  | idle
  | write (src : List UInt8)
  /-- In `brand_new`, before the room is tested. -/
  | brand_new (src : List UInt8)
  | reserve (src : List UInt8)
  /-- In `write` with the base address, before the room is tested. -/
  | room (src : List UInt8)
  /-- In `wait_to_resultset_write`; it goes on with `next`. -/
  | wait (length : Nat) (next : Writer)
  | store (src : List UInt8)
  | push (src : List UInt8)
  /-- In `flush` with the base address, before the header is written. -/
  | header
  | publish
  /-- In `notify_record_arrival`. -/
  | notify
  /-- Before `continued_` is cleared. -/
  | flushed
  | crashed

/-- Where the client stands in `active_wire` or in `dispose`. -/
inductive Client
  | idle
  /-- The loop of `active_wire` looks at wire `index`. -/
  | scan (index : Nat)
  /-- In the wait of `active_wire`; the last evaluation of the condition has found
  the wire `active`. -/
  | wait (active : Option Nat)
  /-- The wait ended without a wire, and `is_eor` is asked again. -/
  | recheck
  /-- `dispose` has copied the header of wire `i`. -/
  | dispose (i : Nat)
  /-- The writer of wire `i` is signalled. -/
  | disposed (i : Nat)

/-- Where a controller stands in `set_closed` or `set_eor`. -/
inductive Controller
  | idle
  /-- The loop of `set_closed` is about to close wire `i`. -/
  | close (i : Nat)
  /-- The writer of wire `i` is signalled. -/
  | closed (i : Nat)
  /-- The end is marked, and the client is signalled. -/
  | eor

/-- The result set: its wires with the bytes behind each handle, the mutex of each
wire and that of the result set, and the parties. -/
structure Sys where
  count : Nat
  wires : Nat → Wire
  memory : Nat → Nat → UInt8
  eor : Bool
  closed : Bool
  full : Nat → Monitor Party Unit
  record : Monitor Party Unit
  writers : Nat → Writer
  client : Client
  controllers : Nat → Controller

inductive Act
  /-- The pool gives wire `i` a buffer, or takes it back, while nobody writes. -/
  | attach (i handle capacity : Nat)
  | write (i : Nat) (src : List UInt8)
  | wait_room (i length : Nat)
  | flush (i : Nat)
  | active_wire
  | get_chunk (i : Nat)
  | dispose (i : Nat)
  | set_closed (n : Nat)
  | set_eor (n : Nat)
  /-- The next step of a party in the call that it is in. -/
  | go (p : Party)
  /-- The writer of wire `i` wakes without a notify. -/
  | wake_writer (i : Nat)
  /-- The client wakes without a notify, by its timeout when `last`. -/
  | wake_client (last : Bool)

def Act.party : Act → Party
  | .attach i _ _ | .write i _ | .wait_room i _ | .flush i | .wake_writer i => .writer i
  | .active_wire | .get_chunk _ | .dispose _ | .wake_client _ => .client
  | .set_closed n | .set_eor n => .controller n
  | .go p => p

def writer_of (i : Nat) (_ : Unit) : Party := .writer i

def the_client (_ : Unit) : Party := .client

namespace Sys

def init (count : Nat) (memory : Nat → Nat → UInt8) : Sys where
  count := count
  wires := fun _ => Wire.fresh
  memory := memory
  eor := false
  closed := false
  full := fun _ => Monitor.init
  record := Monitor.init
  writers := fun _ => .idle
  client := .idle
  controllers := fun _ => .idle

/-- The condition of the wait that the writer of wire `i` is in. -/
def room_ready (s : Sys) (i : Nat) : Bool :=
  match s.writers i with
  | .wait length _ => decide (length ≤ (s.wires i).room) || (s.wires i).closed
  | _ => false

/-- The first wire that has a record. -/
def active (s : Sys) : Option Nat := (List.range s.count).find? fun i => (s.wires i).has_record

/-- The wait condition of `active_wire`. -/
def record_ready (s : Sys) : Bool := s.active.isSome || s.eor

def put_wire (s : Sys) (i : Nat) (w : Wire) : Sys :=
  { s with wires := Function.update s.wires i w }

def put_writer (s : Sys) (i : Nat) (x : Writer) : Sys :=
  { s with writers := Function.update s.writers i x }

def put_controller (s : Sys) (n : Nat) (x : Controller) : Sys :=
  { s with controllers := Function.update s.controllers n x }

/-- A party begins to wait or to signal at the mutex of wire `i`. -/
def enter_full (s : Sys) (i : Nat) (p : Party) (x : Pc Unit) : Sys :=
  { s with full := Function.update s.full i ((s.full i).move p x) }

def enter_record (s : Sys) (p : Party) (x : Pc Unit) : Sys :=
  { s with record := s.record.move p x }

/-- A party goes on at the mutex of wire `i`, and with `next` once it is out. -/
def engage_full (s : Sys) (i : Nat) (p : Party) (next : Sys) : Option Sys :=
  match (s.full i).pc p with
  | .out _ => some next
  | _ =>
    ((s.full i).step (writer_of i) p (s.room_ready i)).map fun m =>
      { s with full := Function.update s.full i m }

def engage_record (s : Sys) (p : Party) (next : Bool → Sys) : Option Sys :=
  match s.record.pc p with
  | .out ok => some (next ok)
  | _ =>
    (s.record.step the_client p s.record_ready).map fun m => { s with record := m }

/-- Writes through the base address, or crashes where that is `nullptr`. -/
def write_in_buffer (s : Sys) (i pos : Nat) (src : List UInt8) (next : Writer) : Sys :=
  match (s.wires i).get_bip_address with
  | none => s.put_writer i .crashed
  | some b =>
    let ring := (s.wires i).ring (s.memory b)
    { s with
      memory := Function.update s.memory b (ring.write_in_buffer (ring.index pos) src).buffer
      writers := Function.update s.writers i next }

/-- Waits for room when it is short. -/
def need_room (s : Sys) (i length : Nat) (next : Writer) : Sys :=
  if (s.wires i).room < length then
    (s.put_writer i (.wait length next)).enter_full i (.writer i) (.wait () .lock)
  else s.put_writer i next

/-- `copy_header` of the client. A wire without a buffer would crash it. -/
def copy_header (s : Sys) (i : Nat) : Option Sys :=
  (s.wires i).get_bip_address.map fun b =>
    s.put_wire i { s.wires i with
      header_received := ((s.wires i).ring (s.memory b)).copy_header.header_received }

def writer_step (s : Sys) (i : Nat) : Option Sys :=
  let w := s.wires i
  match s.writers i with
  | .idle | .crashed => none
  | .write src =>
    if w.closed = false ∧ 0 < src.length then
      if w.continued then some (s.put_writer i (.room src))
      else some (s.put_writer i (.brand_new src))
    else some (s.put_writer i .idle)
  | .brand_new src => some (s.need_room i LengthHeader.size (.reserve src))
  | .reserve src =>
    let w := { w with pushed := (w.pushed + LengthHeader.size) % 2 ^ 64, continued := true }
    some ((s.put_wire i w).put_writer i (.room src))
  | .room src => some (s.need_room i src.length (.store src))
  | .wait _ next => s.engage_full i (.writer i) (s.put_writer i next)
  | .store src => some (s.write_in_buffer i w.pushed src (.push src))
  | .push src =>
    let w := { w with pushed := (w.pushed + src.length) % 2 ^ 64 }
    some ((s.put_wire i w).put_writer i .idle)
  | .header =>
    let length := (w.pushed + 2 ^ 64 - (w.pushed_valid + LengthHeader.size) % 2 ^ 64) % 2 ^ 64
    let header := LengthHeader.of_size length
    some (s.write_in_buffer i w.pushed_valid (WireHeader.get_buffer header) .publish)
  | .publish =>
    let w := { w with pushed_valid := w.pushed }
    some (((s.put_wire i w).put_writer i .notify).enter_record (.writer i) (.signal () .lock []))
  | .notify => s.engage_record (.writer i) fun _ => s.put_writer i .flushed
  | .flushed => some ((s.put_wire i { w with continued := false }).put_writer i .idle)

/-- The client is about to evaluate its wait condition. -/
def looks (s : Sys) : Bool :=
  match s.record.pc .client with
  | .wait _ (.test _) => true
  | _ => false

def client_step (s : Sys) : Option Sys :=
  match s.client with
  | .idle => none
  | .scan index =>
    if index < s.count then
      some { s with client := if (s.wires index).has_record then .idle else .scan (index + 1) }
    else some ({ s with client := .wait none }.enter_record .client (.wait () .lock))
  | .wait active =>
    -- the evaluation remembers the wire that it found
    { s with client := .wait (if s.looks then s.active else active) }.engage_record .client
      fun ok => { s with client := if ok && active.isNone then .recheck else .idle }
  | .recheck => some { s with client := if s.eor then .idle else .scan 0 }
  | .dispose i =>
    let w := s.wires i
    let n := w.header_received.length.toNat + LengthHeader.size
    some (({ s with client := .disposed i }.put_wire i
      { w with poped := (w.poped + n) % 2 ^ 64 }).enter_full i .client (.signal () .test []))
  | .disposed i => s.engage_full i .client { s with client := .idle }

def controller_step (s : Sys) (n : Nat) : Option Sys :=
  match s.controllers n with
  | .idle => none
  | .close i =>
    if i < s.count then
      some (((s.put_wire i { s.wires i with closed := true }).put_controller n
        (.closed i)).enter_full i (.controller n) (.signal () .test []))
    else some ({ s with closed := true }.put_controller n .idle)
  | .closed i => s.engage_full i (.controller n) (s.put_controller n (.close (i + 1)))
  | .eor => s.engage_record (.controller n) fun _ => s.put_controller n .idle

end Sys

/-- One step of one party. -/
def step (s : Sys) : Act → Option Sys
  | .attach i handle capacity =>
    match s.writers i with
    | .idle => some (s.put_wire i { s.wires i with buffer_handle := handle, capacity })
    | _ => none
  | .write i src =>
    match s.writers i with
    | .idle => some (s.put_writer i (.write src))
    | _ => none
  | .wait_room i length =>
    match s.writers i with
    | .idle =>
      let length := if (s.wires i).continued then length else (length + LengthHeader.size) % 2 ^ 64
      some ((s.put_writer i (.wait length .idle)).enter_full i (.writer i) (.wait () .lock))
    | _ => none
  | .flush i =>
    match s.writers i with
    | .idle => some (if (s.wires i).continued then s.put_writer i .header else s)
    | _ => none
  | .active_wire =>
    match s.client with
    | .idle => some { s with client := .scan 0 }
    | _ => none
  | .get_chunk i =>
    match s.client with
    | .idle => s.copy_header i
    | _ => none
  | .dispose i =>
    match s.client with
    | .idle => (s.copy_header i).map fun s => { s with client := .dispose i }
    | _ => none
  | .set_closed n =>
    match s.controllers n with
    | .idle => some (s.put_controller n (.close 0))
    | _ => none
  | .set_eor n =>
    match s.controllers n with
    | .idle =>
      some (({ s with eor := true }.put_controller n .eor).enter_record (.controller n)
        (.signal () .lock []))
    | _ => none
  | .go (.writer i) => s.writer_step i
  | .go .client => s.client_step
  | .go (.controller n) => s.controller_step n
  | .wake_writer i =>
    ((s.full i).wake (.writer i) false).map fun m =>
      { s with full := Function.update s.full i m }
  | .wake_client last => (s.record.wake .client last).map fun m => { s with record := m }

/-! ## The invariant -/

/-- The two kinds of mutex. -/
inductive Region
  | full (i : Nat)
  | record
deriving DecidableEq

/-- The mutex at which a party is in a call of the monitor. -/
def Sys.region (s : Sys) : Party → Option Region
  | .writer i =>
    match s.writers i with
    | .wait _ _ => some (.full i)
    | .notify => some .record
    | _ => none
  | .client =>
    match s.client with
    | .wait _ => some .record
    | .disposed i => some (.full i)
    | _ => none
  | .controller n =>
    match s.controllers n with
    | .closed i => some (.full i)
    | .eor => some .record
    | _ => none

structure Inv (s : Sys) : Prop where
  full : ∀ i, Ok (writer_of i) (fun _ => s.room_ready i) (s.full i)
  record : Ok the_client (fun _ => s.record_ready) s.record
  out_full : ∀ p i, s.region p ≠ some (.full i) → ∃ ok, (s.full i).pc p = .out ok
  out_record : ∀ p, s.region p ≠ some .record → ∃ ok, s.record.pc p = .out ok

theorem inv_init (count : Nat) (memory : Nat → Nat → UInt8) : Inv (Sys.init count memory) :=
  ⟨fun _ => .init, .init, fun _ _ _ => ⟨true, rfl⟩, fun _ _ => ⟨true, rfl⟩⟩

/-- What the monitors see of a step of party `p`. -/
structure Seen (p : Party) (s t : Sys) : Prop where
  full : ∀ i, Evolves (writer_of i) p (s.full i) (t.full i)
  record : Evolves the_client p s.record t.record

section

variable {s t : Sys} {p : Party} {i : Nat}

/-- The party has nothing to do with any mutex. -/
def Outside (s : Sys) (p : Party) : Prop :=
  (∀ i, ∃ ok, (s.full i).pc p = .out ok) ∧ ∃ ok, s.record.pc p = .out ok

theorem Inv.outside (h : Inv s) (hp : s.region p = none) : Outside s p :=
  ⟨fun i => h.out_full p i (by rw [hp]; simp), h.out_record p (by rw [hp]; simp)⟩

theorem Inv.outside_full (h : Inv s) (hp : s.region p = some (.full i)) {ok : Bool}
    (hi : (s.full i).pc p = .out ok) : Outside s p := by
  refine ⟨?_, h.out_record p (by rw [hp]; simp)⟩
  intro j
  by_cases hji : j = i
  · subst hji
    exact ⟨ok, hi⟩
  · refine h.out_full p j ?_
    rw [hp]
    simp [Ne.symm hji]

theorem Inv.outside_record (h : Inv s) (hp : s.region p = some .record) {ok : Bool}
    (hi : s.record.pc p = .out ok) : Outside s p :=
  ⟨fun j => h.out_full p j (by rw [hp]; simp), ok, hi⟩

theorem evolves_same {w : Unit → Party} {m : Monitor Party Unit} (h : ∃ ok, m.pc p = .out ok) :
    Evolves w p m m := by
  obtain ⟨ok, hp⟩ := h
  refine .same ?_
  rw [hp]
  rfl

theorem evolves_move {w : Unit → Party} {m : Monitor Party Unit} (h : ∃ ok, m.pc p = .out ok)
    (x : Pc Unit) : Evolves w p m (m.move p x) := by
  obtain ⟨ok, hp⟩ := h
  refine .move ?_ x
  rw [hp]
  rfl

/-- The parties that do not act stay where they are. -/
theorem Inv.of_seen (hs : Inv s) (he : Seen p s t)
    (hfull : ∀ i, Ok (writer_of i) (fun _ => t.room_ready i) (t.full i))
    (hrecord : Ok the_client (fun _ => t.record_ready) t.record)
    (hother : ∀ q, q ≠ p → t.region q = s.region q)
    (hf : ∀ i, t.region p ≠ some (.full i) → ∃ ok, (t.full i).pc p = .out ok)
    (hr : t.region p ≠ some .record → ∃ ok, t.record.pc p = .out ok) : Inv t ∧ Seen p s t := by
  refine ⟨⟨hfull, hrecord, ?_, ?_⟩, he⟩
  · intro q i hq
    by_cases hqp : q = p
    · subst hqp
      exact hf i hq
    · rw [hother q hqp] at hq
      obtain ⟨ok, hok⟩ := hs.out_full q i hq
      exact ⟨ok, (he.full i).out hok hqp⟩
  · intro q hq
    by_cases hqp : q = p
    · subst hqp
      exact hr hq
    · rw [hother q hqp] at hq
      obtain ⟨ok, hok⟩ := hs.out_record q hq
      exact ⟨ok, he.record.out hok hqp⟩

/-- The condition of the client may only become true by a step of its own. -/
theorem Inv.record_calm (h : Inv s) (ho : Outside s p) (hm : t.record = s.record)
    (hr : p ≠ .client → t.record_ready = true → s.record_ready = true) :
    Ok the_client (fun _ => t.record_ready) t.record := by
  obtain ⟨-, ok, hp⟩ := ho
  rw [hm]
  refine h.record.congr ?_
  intro q c pc hq _ hrq
  apply hr _ hrq
  rintro rfl
  rw [← h.record.waits q c pc hq, the_client, hp] at hq
  cases hq

/-- The condition of a writer may only become true by a step of its own. -/
theorem Inv.full_calm (h : Inv s) (ho : Outside s p) (hm : t.full i = s.full i)
    (hr : p ≠ .writer i → t.room_ready i = true → s.room_ready i = true) :
    Ok (writer_of i) (fun _ => t.room_ready i) (t.full i) := by
  obtain ⟨ok, hp⟩ := ho.1 i
  rw [hm]
  refine (h.full i).congr ?_
  intro q c pc hq _ hrq
  apply hr _ hrq
  rintro rfl
  rw [← (h.full i).waits q c pc hq, writer_of, hp] at hq
  cases hq

/-- The rule for a step outside the monitors. -/
theorem Inv.calm (h : Inv s) (ho : Outside s p) (hf : t.full = s.full)
    (hm : t.record = s.record)
    (hroom : ∀ i, p ≠ .writer i → t.room_ready i = true → s.room_ready i = true)
    (hrec : p ≠ .client → t.record_ready = true → s.record_ready = true)
    (hother : ∀ q, q ≠ p → t.region q = s.region q) : Inv t ∧ Seen p s t := by
  refine h.of_seen ⟨?_, ?_⟩ ?_ (h.record_calm ho hm hrec) hother ?_ ?_
  · intro i
    rw [hf]
    exact evolves_same (ho.1 i)
  · rw [hm]
    exact evolves_same ho.2
  · intro i
    exact h.full_calm ho (by rw [hf]) (hroom i)
  · intro i _
    rw [hf]
    exact ho.1 i
  · intro _
    rw [hm]
    exact ho.2

/-- The rule for a step by which a party goes to the mutex of wire `i`. -/
theorem Inv.enters_full (h : Inv s) (ho : Outside s p) {x : Pc Unit}
    (hf : t.full = Function.update s.full i ((s.full i).move p x)) (hm : t.record = s.record)
    (hx : x.holds = false) (hwait : ∀ c pc, x = .wait c pc → p = .writer i ∧ pc = .lock)
    (hroom : ∀ j, p ≠ .writer j → t.room_ready j = true →
      s.room_ready j = true ∨ j = i ∧ x.Pending ())
    (hrec : p ≠ .client → t.record_ready = true → s.record_ready = true)
    (hother : ∀ q, q ≠ p → t.region q = s.region q) (hp : t.region p = some (.full i)) :
    Inv t ∧ Seen p s t := by
  have hne : ∀ j, j ≠ i → t.full j = s.full j := by
    intro j hj
    rw [hf, Function.update_of_ne hj]
  have hi : t.full i = (s.full i).move p x := by
    rw [hf, Function.update_self]
  refine h.of_seen ⟨?_, ?_⟩ ?_ (h.record_calm ho hm hrec) hother ?_ ?_
  · intro j
    by_cases hj : j = i
    · subst hj
      rw [hi]
      exact evolves_move (ho.1 j) x
    · rw [hne j hj]
      exact evolves_same (ho.1 j)
  · rw [hm]
    exact evolves_same ho.2
  · intro j
    by_cases hj : j = i
    · subst hj
      obtain ⟨ok, hok⟩ := ho.1 j
      rw [hi]
      refine (h.full j).enter hok hx ?_ ?_
      · intro c pc he
        obtain ⟨hp, hpc⟩ := hwait c pc he
        exact ⟨hp.symm, hpc⟩
      · intro c hc hr
        exact (hroom j (fun hp => hc hp.symm) hr).imp_right fun hx => hx.2
    · refine h.full_calm ho (hne j hj) fun hpj hr => ?_
      rcases hroom j hpj hr with hr | ⟨hr, -⟩
      · exact hr
      · exact absurd hr hj
  · intro j hj
    have hji : j ≠ i := by
      rintro rfl
      exact hj hp
    rw [hne j hji]
    exact ho.1 j
  · intro _
    rw [hm]
    exact ho.2

/-- The rule for a step by which a party goes to the mutex of the result set. -/
theorem Inv.enters_record (h : Inv s) (ho : Outside s p) {x : Pc Unit}
    (hf : t.full = s.full) (hm : t.record = s.record.move p x) (hx : x.holds = false)
    (hwait : ∀ c pc, x = .wait c pc → p = .client ∧ pc = .lock)
    (hroom : ∀ j, p ≠ .writer j → t.room_ready j = true → s.room_ready j = true)
    (hrec : p ≠ .client → t.record_ready = true → s.record_ready = true ∨ x.Pending ())
    (hother : ∀ q, q ≠ p → t.region q = s.region q) (hp : t.region p = some .record) :
    Inv t ∧ Seen p s t := by
  refine h.of_seen ⟨?_, ?_⟩ ?_ ?_ hother ?_ ?_
  · intro j
    rw [hf]
    exact evolves_same (ho.1 j)
  · rw [hm]
    exact evolves_move ho.2 x
  · intro j
    exact h.full_calm ho (by rw [hf]) (hroom j)
  · obtain ⟨ok, hok⟩ := ho.2
    rw [hm]
    refine h.record.enter hok hx ?_ ?_
    · intro c pc he
      obtain ⟨hp, hpc⟩ := hwait c pc he
      exact ⟨hp.symm, hpc⟩
    · intro c hc hr
      exact hrec (fun hp => hc hp.symm) hr
  · intro j _
    rw [hf]
    exact ho.1 j
  · intro hn
    exact absurd hp hn

/-- The rule for a step at the mutex of wire `i`. -/
theorem Inv.inside_full (h : Inv s) (hp : s.region p = some (.full i))
    {m : Monitor Party Unit} (hok : Ok (writer_of i) (fun _ => s.room_ready i) m)
    (hev : Evolves (writer_of i) p (s.full i) m) :
    Inv { s with full := Function.update s.full i m } ∧
      Seen p s { s with full := Function.update s.full i m } := by
  have hne : ∀ j, j ≠ i → Function.update s.full i m j = s.full j := fun j hj =>
    Function.update_of_ne hj ..
  have hout : ∀ j, j ≠ i → ∃ ok, (s.full j).pc p = .out ok := by
    intro j hj
    refine h.out_full p j ?_
    rw [hp]
    simp [Ne.symm hj]
  have hrec := h.out_record p (by rw [hp]; simp)
  refine h.of_seen ⟨?_, evolves_same hrec⟩ ?_ h.record (fun _ _ => rfl) ?_ (fun _ => hrec)
  · intro j
    by_cases hj : j = i
    · subst hj
      simpa only [Function.update_self] using hev
    · simpa only [hne j hj] using evolves_same (hout j hj)
  · intro j
    show Ok _ (fun _ => s.room_ready j) (Function.update s.full i m j)
    by_cases hj : j = i
    · subst hj
      rw [Function.update_self]
      exact hok
    · rw [hne j hj]
      exact h.full j
  · intro j hj
    have hji : j ≠ i := by
      rintro rfl
      exact hj hp
    simpa only [hne j hji] using hout j hji

/-- What the wait condition of a writer reads. -/
theorem room_ready_congr {j : Nat} (hx : t.writers j = s.writers j)
    (hr : (t.wires j).room = (s.wires j).room) (hc : (t.wires j).closed = (s.wires j).closed) :
    t.room_ready j = s.room_ready j := by
  unfold Sys.room_ready
  rw [hx, hr, hc]

/-- The rule for a step at the mutex of the result set. -/
theorem Inv.inside_record (h : Inv s) (hp : s.region p = some .record)
    (hf : t.full = s.full) (hw : t.wires = s.wires) (hx : t.writers = s.writers)
    (hn : t.count = s.count) (he : t.eor = s.eor) (hreg : t.region = s.region)
    (hok : Ok the_client (fun _ => s.record_ready) t.record)
    (hev : Evolves the_client p s.record t.record) : Inv t ∧ Seen p s t := by
  have hout : ∀ j, ∃ ok, (s.full j).pc p = .out ok := fun j => h.out_full p j (by rw [hp]; simp)
  refine h.of_seen ⟨?_, hev⟩ ?_ ?_ (fun q _ => by rw [hreg]) ?_ ?_
  · intro j
    rw [hf]
    exact evolves_same (hout j)
  · intro j
    have hroom : t.room_ready j = s.room_ready j :=
      room_ready_congr (by rw [hx]) (by rw [hw]) (by rw [hw])
    rw [hf, hroom]
    exact h.full j
  · have hrec : t.record_ready = s.record_ready := by
      simp only [Sys.record_ready, Sys.active, hn, he, hw]
    rw [hrec]
    exact hok
  · intro j _
    rw [hf]
    exact hout j
  · intro hn
    rw [hreg] at hn
    exact absurd hp hn

/-- A party goes on at the mutex of wire `i`, or leaves it. -/
theorem Inv.engages_full (h : Inv s) {next : Sys} (hp : s.region p = some (.full i))
    (hs : s.engage_full i p next = some t)
    (hnext : Outside s p → Inv next ∧ Seen p s next) : Inv t ∧ Seen p s t := by
  unfold Sys.engage_full at hs
  split at hs
  · rename_i ok hok
    cases hs
    exact hnext (h.outside_full hp hok)
  · obtain ⟨m, hm, rfl⟩ := Option.map_eq_some_iff.mp hs
    exact h.inside_full hp ((h.full i).step hm) (.step hm)

theorem Inv.engages_record (h : Inv s) {next : Bool → Sys} (hp : s.region p = some .record)
    (hs : s.engage_record p next = some t)
    (hnext : ∀ ok, Outside s p → Inv (next ok) ∧ Seen p s (next ok)) : Inv t ∧ Seen p s t := by
  unfold Sys.engage_record at hs
  split at hs
  · rename_i ok hok
    cases hs
    exact hnext ok (h.outside_record hp hok)
  · obtain ⟨m, hm, rfl⟩ := Option.map_eq_some_iff.mp hs
    exact h.inside_record hp rfl rfl rfl rfl rfl rfl (h.record.step hm) (.step hm)

/-! ## The steps of a writer -/

/-- The other parties are where they were when one writer moves. -/
theorem region_writer {x : Writer} (hw : t.writers = Function.update s.writers i x)
    (hc : t.client = s.client) (hk : t.controllers = s.controllers) (q : Party)
    (hq : q ≠ .writer i) : t.region q = s.region q := by
  cases q with
  | writer j =>
    have hj : j ≠ i := by
      rintro rfl
      exact hq rfl
    simp only [Sys.region, hw, Function.update_of_ne hj]
  | client => simp only [Sys.region, hc]
  | controller n => simp only [Sys.region, hk]

/-- A writer sees nothing of what happens at another wire. -/
theorem room_ready_other {w : Wire} {x : Writer} {j : Nat}
    (hw : t.wires = Function.update s.wires i w) (hx : t.writers = Function.update s.writers i x)
    (hj : j ≠ i) : t.room_ready j = s.room_ready j := by
  simp only [Sys.room_ready, hw, hx, Function.update_of_ne hj]

/-- The client sees of a wire whether it has a record. -/
theorem record_ready_eq {w : Wire} (hn : t.count = s.count) (he : t.eor = s.eor)
    (hw : t.wires = Function.update s.wires i w)
    (hr : w.has_record = (s.wires i).has_record) : t.record_ready = s.record_ready := by
  have hsame : (fun j => (t.wires j).has_record) = fun j => (s.wires j).has_record := by
    funext j
    by_cases hj : j = i
    · subst hj
      rw [hw, Function.update_self, hr]
    · rw [hw, Function.update_of_ne hj]
  simp only [Sys.record_ready, Sys.active, hn, he, hsame]

/-- A step of the writer of wire `i` that moves nothing but the wire and the
writer, as far as a wait condition can see. -/
structure AtWire (i : Nat) (w : Wire) (x : Writer) (s t : Sys) : Prop where
  wires : t.wires = Function.update s.wires i w
  writers : t.writers = Function.update s.writers i x
  full : t.full = s.full
  record : t.record = s.record
  client : t.client = s.client
  controllers : t.controllers = s.controllers
  count : t.count = s.count
  eor : t.eor = s.eor

/-- A step of a writer outside the monitors. -/
theorem Inv.writer_calm (h : Inv s) (ho : Outside s (.writer i)) {w : Wire} {x : Writer}
    (ht : AtWire i w x s t) (hw : w.has_record = (s.wires i).has_record) :
    Inv t ∧ Seen (.writer i) s t := by
  refine h.calm ho ht.full ht.record ?_ ?_ (region_writer ht.writers ht.client ht.controllers)
  · intro j hj hr
    have hji : j ≠ i := by
      rintro rfl
      exact hj rfl
    exact (room_ready_other ht.wires ht.writers hji).symm.trans hr
  · intro _ hr
    exact (record_ready_eq ht.count ht.eor ht.wires hw).symm.trans hr

/-- A step of a writer that leaves its wire alone. -/
theorem Inv.writer_moves (h : Inv s) (ho : Outside s (.writer i)) (x : Writer)
    (memory : Nat → Nat → UInt8) :
    Inv { s.put_writer i x with memory } ∧ Seen (.writer i) s { s.put_writer i x with memory } :=
  h.writer_calm ho ⟨(Function.update_eq_self i s.wires).symm, rfl, rfl, rfl, rfl, rfl, rfl, rfl⟩ rfl

/-- The writer begins to wait for room. -/
theorem Inv.writer_waits (h : Inv s) (ho : Outside s (.writer i)) (length : Nat)
    (next : Writer) :
    Inv ((s.put_writer i (.wait length next)).enter_full i (.writer i) (.wait () .lock)) ∧
      Seen (.writer i) s
        ((s.put_writer i (.wait length next)).enter_full i (.writer i) (.wait () .lock)) := by
  refine h.enters_full ho (x := .wait () .lock) rfl rfl rfl ?_ ?_ (fun _ hr => hr)
    (region_writer (x := .wait length next) rfl rfl rfl) ?_
  · intro c pc he
    cases he
    exact ⟨rfl, rfl⟩
  · intro j hj hr
    have hji : j ≠ i := by
      rintro rfl
      exact hj rfl
    simp only [Sys.room_ready, Sys.enter_full, Sys.put_writer, Function.update_of_ne hji] at hr
    exact .inl hr
  · simp [Sys.region, Sys.enter_full, Sys.put_writer]

theorem Inv.needs_room (h : Inv s) (ho : Outside s (.writer i)) (length : Nat) (next : Writer) :
    Inv (s.need_room i length next) ∧ Seen (.writer i) s (s.need_room i length next) := by
  unfold Sys.need_room
  split
  · exact h.writer_waits ho length next
  · exact h.writer_moves ho next s.memory

theorem Inv.writes_in_buffer (h : Inv s) (ho : Outside s (.writer i)) (pos : Nat)
    (src : List UInt8) (next : Writer) :
    Inv (s.write_in_buffer i pos src next) ∧
      Seen (.writer i) s (s.write_in_buffer i pos src next) := by
  unfold Sys.write_in_buffer
  split
  · exact h.writer_moves ho .crashed s.memory
  · exact h.writer_moves ho next _

theorem Inv.writer_step (h : Inv s) (hs : s.writer_step i = some t) :
    Inv t ∧ Seen (.writer i) s t := by
  unfold Sys.writer_step at hs
  cases hw : s.writers i with
  | idle | crashed =>
    rw [hw] at hs
    cases hs
  | write src =>
    have ho := h.outside (p := .writer i) (by simp only [Sys.region, hw])
    rw [hw] at hs
    dsimp only at hs
    split at hs
    · split at hs
      · cases hs
        exact h.writer_moves ho _ s.memory
      · cases hs
        exact h.writer_moves ho _ s.memory
    · cases hs
      exact h.writer_moves ho _ s.memory
  | brand_new src =>
    have ho := h.outside (p := .writer i) (by simp only [Sys.region, hw])
    rw [hw] at hs
    cases hs
    exact h.needs_room ho _ _
  | reserve src =>
    have ho := h.outside (p := .writer i) (by simp only [Sys.region, hw])
    rw [hw] at hs
    cases hs
    exact h.writer_calm ho ⟨rfl, rfl, rfl, rfl, rfl, rfl, rfl, rfl⟩ rfl
  | room src =>
    have ho := h.outside (p := .writer i) (by simp only [Sys.region, hw])
    rw [hw] at hs
    cases hs
    exact h.needs_room ho _ _
  | wait length next =>
    rw [hw] at hs
    exact h.engages_full (by simp only [Sys.region, hw]) hs fun ho =>
      h.writer_moves ho next s.memory
  | store src =>
    have ho := h.outside (p := .writer i) (by simp only [Sys.region, hw])
    rw [hw] at hs
    cases hs
    exact h.writes_in_buffer ho _ _ _
  | push src =>
    have ho := h.outside (p := .writer i) (by simp only [Sys.region, hw])
    rw [hw] at hs
    cases hs
    exact h.writer_calm ho ⟨rfl, rfl, rfl, rfl, rfl, rfl, rfl, rfl⟩ rfl
  | header =>
    have ho := h.outside (p := .writer i) (by simp only [Sys.region, hw])
    rw [hw] at hs
    cases hs
    exact h.writes_in_buffer ho _ _ _
  | publish =>
    have ho := h.outside (p := .writer i) (by simp only [Sys.region, hw])
    rw [hw] at hs
    cases hs
    refine h.enters_record ho (x := .signal () .lock []) rfl rfl rfl ?_ ?_ ?_
      (region_writer (x := .notify) rfl rfl rfl) ?_
    · intro c pc he
      cases he
    · intro j hj hr
      have hji : j ≠ i := by
        rintro rfl
        exact hj rfl
      exact (room_ready_other rfl rfl hji).symm.trans hr
    · intro _ _
      exact .inr (.inl ⟨rfl, by simp⟩)
    · simp [Sys.region, Sys.enter_record, Sys.put_writer]
  | notify =>
    rw [hw] at hs
    exact h.engages_record (by simp only [Sys.region, hw]) hs fun _ ho =>
      h.writer_moves ho _ s.memory
  | flushed =>
    have ho := h.outside (p := .writer i) (by simp only [Sys.region, hw])
    rw [hw] at hs
    cases hs
    exact h.writer_calm ho ⟨rfl, rfl, rfl, rfl, rfl, rfl, rfl, rfl⟩ rfl

/-! ## The steps of the client -/

theorem region_client (hw : t.writers = s.writers) (hk : t.controllers = s.controllers)
    (q : Party) (hq : q ≠ .client) : t.region q = s.region q := by
  cases q with
  | writer j => simp only [Sys.region, hw]
  | client => exact absurd rfl hq
  | controller n => simp only [Sys.region, hk]

/-- A step of the client outside the monitors that no writer can see. -/
theorem Inv.client_calm (h : Inv s) (ho : Outside s .client) (hf : t.full = s.full)
    (hm : t.record = s.record) (hw : t.writers = s.writers) (hk : t.controllers = s.controllers)
    (hwires : ∀ j, (t.wires j).room = (s.wires j).room ∧ (t.wires j).closed = (s.wires j).closed) :
    Inv t ∧ Seen .client s t := by
  refine h.calm ho hf hm ?_ ?_ (region_client hw hk)
  · intro j _ hr
    exact (room_ready_congr (by rw [hw]) (hwires j).1 (hwires j).2).symm.trans hr
  · intro hn
    exact absurd rfl hn

/-- The header that the client copies is in no wait condition. -/
theorem copy_header_some (hs : s.copy_header i = some t) :
    t.full = s.full ∧ t.record = s.record ∧ t.writers = s.writers ∧ t.client = s.client ∧
      t.controllers = s.controllers ∧
      ∀ j, (t.wires j).room = (s.wires j).room ∧ (t.wires j).closed = (s.wires j).closed := by
  obtain ⟨b, -, rfl⟩ := Option.map_eq_some_iff.mp hs
  refine ⟨rfl, rfl, rfl, rfl, rfl, ?_⟩
  intro j
  by_cases hj : j = i
  · subst hj
    simp only [Sys.put_wire, Function.update_self, Wire.room, Wire.ring, SimpleWire.room,
      SimpleWire.stored]
    exact ⟨trivial, trivial⟩
  · simp only [Sys.put_wire, Function.update_of_ne hj]
    exact ⟨trivial, trivial⟩

/-- The client begins to wait for a record. -/
theorem Inv.client_waits (h : Inv s) (ho : Outside s .client) (active : Option Nat) :
    Inv ({ s with client := .wait active }.enter_record .client (.wait () .lock)) ∧
      Seen .client s ({ s with client := .wait active }.enter_record .client (.wait () .lock)) := by
  refine h.enters_record ho (x := .wait () .lock) rfl rfl rfl ?_ ?_ ?_ (region_client rfl rfl) rfl
  · intro c pc he
    cases he
    exact ⟨rfl, rfl⟩
  · intro j _ hr
    exact (room_ready_congr rfl rfl rfl).symm.trans hr
  · intro hn
    exact absurd rfl hn

theorem Inv.client_step (h : Inv s) (hs : s.client_step = some t) : Inv t ∧ Seen .client s t := by
  unfold Sys.client_step at hs
  cases hc : s.client with
  | idle =>
    rw [hc] at hs
    cases hs
  | scan index =>
    have ho := h.outside (p := .client) (by simp only [Sys.region, hc])
    rw [hc] at hs
    dsimp only at hs
    split at hs
    · cases hs
      exact h.client_calm ho rfl rfl rfl rfl fun _ => ⟨rfl, rfl⟩
    · cases hs
      exact h.client_waits ho none
  | wait active =>
    have hr : s.region .client = some .record := by simp only [Sys.region, hc]
    rw [hc] at hs
    dsimp only at hs
    unfold Sys.engage_record at hs
    split at hs
    · rename_i ok hok
      cases hs
      exact h.client_calm (h.outside_record hr hok) rfl rfl rfl rfl fun _ => ⟨rfl, rfl⟩
    · obtain ⟨m, hm, rfl⟩ := Option.map_eq_some_iff.mp hs
      have hreg : Sys.region { s with
          client := .wait (if s.looks then s.active else active), record := m } = s.region := by
        funext q
        cases q with
        | client =>
          rw [hr]
          rfl
        | _ => rfl
      exact h.inside_record hr rfl rfl rfl rfl rfl hreg (h.record.step hm) (.step hm)
  | recheck =>
    have ho := h.outside (p := .client) (by simp only [Sys.region, hc])
    rw [hc] at hs
    cases hs
    exact h.client_calm ho rfl rfl rfl rfl fun _ => ⟨rfl, rfl⟩
  | dispose i =>
    have ho := h.outside (p := .client) (by simp only [Sys.region, hc])
    rw [hc] at hs
    cases hs
    refine h.enters_full ho (i := i) (x := .signal () .test []) rfl rfl rfl ?_ ?_ ?_
      (region_client rfl rfl) rfl
    · intro c pc he
      cases he
    · intro j _ hr
      by_cases hj : j = i
      · exact .inr ⟨hj, .inl ⟨rfl, by simp⟩⟩
      · simp only [Sys.room_ready, Sys.enter_full, Sys.put_wire, Function.update_of_ne hj] at hr
        exact .inl hr
    · intro hn
      exact absurd rfl hn
  | disposed i =>
    rw [hc] at hs
    exact h.engages_full (by simp only [Sys.region, hc]) hs fun ho =>
      h.client_calm ho rfl rfl rfl rfl fun _ => ⟨rfl, rfl⟩

/-! ## The steps of a controller -/

theorem region_controller {n : Nat} {x : Controller} (hw : t.writers = s.writers)
    (hc : t.client = s.client) (hk : t.controllers = Function.update s.controllers n x)
    (q : Party) (hq : q ≠ .controller n) : t.region q = s.region q := by
  cases q with
  | writer j => simp only [Sys.region, hw]
  | client => simp only [Sys.region, hc]
  | controller j =>
    have hj : j ≠ n := by
      rintro rfl
      exact hq rfl
    simp only [Sys.region, hk, Function.update_of_ne hj]

theorem Inv.controller_moves (h : Inv s) {n : Nat} (ho : Outside s (.controller n))
    (x : Controller) (closed : Bool) :
    Inv { s.put_controller n x with closed } ∧
      Seen (.controller n) s { s.put_controller n x with closed } :=
  h.calm ho rfl rfl (fun _ _ hr => hr) (fun _ hr => hr)
    (region_controller (x := x) rfl rfl rfl)

theorem Inv.controller_step (h : Inv s) {n : Nat} (hs : s.controller_step n = some t) :
    Inv t ∧ Seen (.controller n) s t := by
  unfold Sys.controller_step at hs
  cases hk : s.controllers n with
  | idle =>
    rw [hk] at hs
    cases hs
  | close i =>
    have ho := h.outside (p := .controller n) (by simp only [Sys.region, hk])
    rw [hk] at hs
    dsimp only at hs
    split at hs
    · cases hs
      refine h.enters_full ho (i := i) (x := .signal () .test []) rfl rfl rfl ?_ ?_ ?_
        (region_controller (x := .closed i) rfl rfl rfl) ?_
      · intro c pc he
        cases he
      · intro j _ hr
        by_cases hj : j = i
        · exact .inr ⟨hj, .inl ⟨rfl, by simp⟩⟩
        · simp only [Sys.room_ready, Sys.enter_full, Sys.put_controller, Sys.put_wire,
            Function.update_of_ne hj] at hr
          exact .inl hr
      · intro _ hr
        refine Eq.trans (Eq.symm ?_) hr
        exact record_ready_eq (i := i) rfl rfl rfl rfl
      · simp [Sys.region, Sys.enter_full, Sys.put_controller]
    · cases hs
      exact h.controller_moves ho .idle true
  | closed i =>
    rw [hk] at hs
    exact h.engages_full (by simp only [Sys.region, hk]) hs fun ho =>
      h.controller_moves ho _ s.closed
  | eor =>
    rw [hk] at hs
    exact h.engages_record (by simp only [Sys.region, hk]) hs fun _ ho =>
      h.controller_moves ho _ s.closed

/-! ## All steps -/

/-- Who is blocked at a mutex is in a call there. -/
theorem Inv.region_full (h : Inv s) (hp : ∀ ok, (s.full i).pc p ≠ .out ok) :
    s.region p = some (.full i) := by
  by_contra hn
  obtain ⟨ok, hok⟩ := h.out_full p i hn
  exact hp ok hok

theorem Inv.region_record (h : Inv s) (hp : ∀ ok, s.record.pc p ≠ .out ok) :
    s.region p = some .record := by
  by_contra hn
  obtain ⟨ok, hok⟩ := h.out_record p hn
  exact hp ok hok

/-- What a wake without a notify can do. -/
theorem wake_some {w : Unit → Party} {m m' : Monitor Party Unit} {last : Bool}
    (hs : m.wake p last = some m') :
    (∀ ok, m.pc p ≠ .out ok) ∧ Evolves w p m m' := by
  unfold Monitor.wake at hs
  split at hs
  · rename_i c hp
    cases hs
    refine ⟨fun ok hok => ?_, .move ?_ _⟩
    · rw [hp] at hok
      cases hok
    · rw [hp]
      rfl
  · cases hs

theorem inv_step (h : Inv s) {a : Act} (hs : step s a = some t) : Inv t ∧ Seen a.party s t := by
  cases a with
  | attach i handle capacity =>
    simp only [step] at hs
    split at hs
    · rename_i hw
      cases hs
      exact h.writer_calm (x := s.writers i) (h.outside (by simp only [Sys.region, hw]))
        ⟨rfl, (Function.update_eq_self i s.writers).symm, rfl, rfl, rfl, rfl, rfl, rfl⟩ rfl
    · cases hs
  | write i src =>
    simp only [step] at hs
    split at hs
    · rename_i hw
      cases hs
      exact h.writer_moves (h.outside (by simp only [Sys.region, hw])) _ s.memory
    · cases hs
  | wait_room i length =>
    simp only [step] at hs
    split at hs
    · rename_i hw
      cases hs
      exact h.writer_waits (h.outside (by simp only [Sys.region, hw])) _ _
    · cases hs
  | flush i =>
    simp only [step] at hs
    split at hs
    · rename_i hw
      have ho := h.outside (p := .writer i) (by simp only [Sys.region, hw])
      cases hs
      split
      · exact h.writer_moves ho _ s.memory
      · exact h.calm ho rfl rfl (fun _ _ hr => hr) (fun _ hr => hr) fun _ _ => rfl
    · cases hs
  | active_wire =>
    simp only [step] at hs
    split at hs
    · rename_i hc
      cases hs
      exact h.client_calm (h.outside (by simp only [Sys.region, hc])) rfl rfl rfl rfl
        fun _ => ⟨rfl, rfl⟩
    · cases hs
  | get_chunk i =>
    simp only [step] at hs
    split at hs
    · rename_i hc
      obtain ⟨h1, h2, h3, -, h5, h6⟩ := copy_header_some hs
      exact h.client_calm (h.outside (by simp only [Sys.region, hc])) h1 h2 h3 h5 h6
    · cases hs
  | dispose i =>
    simp only [step] at hs
    split at hs
    · rename_i hc
      obtain ⟨u, hu, rfl⟩ := Option.map_eq_some_iff.mp hs
      obtain ⟨h1, h2, h3, -, h5, h6⟩ := copy_header_some hu
      exact h.client_calm (h.outside (by simp only [Sys.region, hc])) h1 h2 h3 h5 h6
    · cases hs
  | set_closed n =>
    simp only [step] at hs
    split at hs
    · rename_i hk
      cases hs
      exact h.controller_moves (h.outside (by simp only [Sys.region, hk])) _ s.closed
    · cases hs
  | set_eor n =>
    simp only [step] at hs
    split at hs
    · rename_i hk
      cases hs
      have ho := h.outside (p := .controller n) (by simp only [Sys.region, hk])
      refine h.enters_record (p := .controller n) ho (x := .signal () .lock []) rfl rfl rfl ?_
        (fun _ _ hr => hr) ?_ (region_controller (x := .eor) rfl rfl rfl) ?_
      · intro c pc he
        cases he
      · intro _ _
        exact .inr (.inl ⟨rfl, by simp⟩)
      · simp [Sys.region, Sys.enter_record, Sys.put_controller]
    · cases hs
  | go p =>
    cases p with
    | writer i => exact h.writer_step hs
    | client => exact h.client_step hs
    | controller n => exact h.controller_step hs
  | wake_writer i =>
    obtain ⟨m, hm, rfl⟩ := Option.map_eq_some_iff.mp hs
    obtain ⟨hp, hev⟩ := wake_some hm
    exact h.inside_full (h.region_full hp) ((h.full i).wake hm) hev
  | wake_client last =>
    obtain ⟨m, hm, rfl⟩ := Option.map_eq_some_iff.mp hs
    obtain ⟨hp, hev⟩ := wake_some hm
    exact h.inside_record (h.region_record hp) rfl rfl rfl rfl rfl rfl (h.record.wake hm) hev

/-! ## Nobody is left asleep -/

theorem steps_inside {w : Unit → Party} {m : Monitor Party Unit} (hp : Steps w m p) (ok : Bool) :
    m.pc p ≠ .out ok := by
  intro hok
  have hs := hp false
  simp [Monitor.step, hok] at hs

theorem engage_full_steps {next : Sys} (hp : Steps (writer_of i) (s.full i) p) :
    (s.engage_full i p next).isSome = true := by
  unfold Sys.engage_full
  split
  · rfl
  · rw [Option.isSome_map]
    exact hp _

theorem engage_record_steps {next : Bool → Sys} (hp : Steps the_client s.record p) :
    (s.engage_record p next).isSome = true := by
  unfold Sys.engage_record
  split
  · rfl
  · rw [Option.isSome_map]
    exact hp _

/-- A party that has a step to take at the mutex of a wire takes it. -/
theorem Inv.goes_full (h : Inv s) (hp : Steps (writer_of i) (s.full i) p) :
    (step s (.go p)).isSome = true := by
  have hr := h.region_full (steps_inside hp)
  cases p with
  | writer j =>
    simp only [step, Sys.writer_step]
    simp only [Sys.region] at hr
    split at hr
    · rename_i hw
      cases hr
      rw [hw]
      exact engage_full_steps hp
    · cases hr
    · cases hr
  | client =>
    simp only [step, Sys.client_step]
    simp only [Sys.region] at hr
    split at hr
    · cases hr
    · rename_i hc
      cases hr
      rw [hc]
      exact engage_full_steps hp
    · cases hr
  | controller n =>
    simp only [step, Sys.controller_step]
    simp only [Sys.region] at hr
    split at hr
    · rename_i hk
      cases hr
      rw [hk]
      exact engage_full_steps hp
    · cases hr
    · cases hr

/-- The same at the mutex of the result set. -/
theorem Inv.goes_record (h : Inv s) (hp : Steps the_client s.record p) :
    (step s (.go p)).isSome = true := by
  have hr := h.region_record (steps_inside hp)
  cases p with
  | writer j =>
    simp only [step, Sys.writer_step]
    simp only [Sys.region] at hr
    split at hr
    · cases hr
    · rename_i hw
      rw [hw]
      exact engage_record_steps hp
    · cases hr
  | client =>
    simp only [step, Sys.client_step]
    simp only [Sys.region] at hr
    split at hr
    · rename_i hc
      rw [hc]
      exact engage_record_steps (s := { s with client := _ }) hp
    · cases hr
    · cases hr
  | controller n =>
    simp only [step, Sys.controller_step]
    simp only [Sys.region] at hr
    split at hr
    · cases hr
    · rename_i hk
      rw [hk]
      exact engage_record_steps hp
    · cases hr

/-- The result set, seen at the mutex of wire `i`. -/
def wire_mutex (i : Nat) : Around Sys Act Party Unit where
  step := step
  party := Act.party
  go := .go
  view := fun s => s.full i
  waiter := writer_of i

theorem wire_mutex_sound (i : Nat) : (wire_mutex i).Sound Inv where
  party_go _ := rfl
  keeps _ _ _ h hs := (inv_step h hs).1
  ok _ h := ⟨_, h.full i⟩
  evolves _ _ _ h hs := (inv_step h hs).2.full i
  goes _ _ h hp := h.goes_full hp

/-- The result set, seen at the mutex behind `c_record_`. -/
def record_mutex : Around Sys Act Party Unit where
  step := step
  party := Act.party
  go := .go
  view := Sys.record
  waiter := the_client

theorem record_mutex_sound : record_mutex.Sound Inv where
  party_go _ := rfl
  keeps _ _ _ h hs := (inv_step h hs).1
  ok _ h := ⟨_, h.record⟩
  evolves _ _ _ h hs := (inv_step h hs).2.record
  goes _ _ h hp := h.goes_record hp

/-- Whoever is blocked while its wait condition is true will be notified by
another party. -/
structure Awake (s : Sys) : Prop where
  full : ∀ i, (s.full i).pc (.writer i) = .wait () .blocked → s.room_ready i = true →
    ∃ q, (wire_mutex i).WillNotify () s q
  record : s.record.pc .client = .wait () .blocked → s.record_ready = true →
    ∃ q, record_mutex.WillNotify () s q

theorem Inv.awake (h : Inv s) : Awake s := by
  refine ⟨?_, ?_⟩
  · intro i hw hr
    obtain ⟨q, hq⟩ := (h.full i).awake _ () _ hw rfl hr
    exact ⟨q, (wire_mutex_sound i).will_notify h hw hq⟩
  · intro hw hr
    obtain ⟨q, hq⟩ := h.record.awake _ () _ hw rfl hr
    exact ⟨q, record_mutex_sound.will_notify h hw hq⟩

theorem inv_of_run {count : Nat} {memory : Nat → Nat → UInt8} {acts : List Act}
    (hr : RunOf step Free (Sys.init count memory) acts s) : Inv s :=
  hr.inv (inv_init count memory) fun _ _ _ h _ hs => (inv_step h hs).1

end

/-- No wake-up is lost, on a request wire, on a response wire and in a result set. -/
theorem no_wake_up_is_lost :
    (∀ {T : Type} [WireHeader T] (k : Wait T) (capacity : Nat) (buffer : Nat → UInt8) (header : T)
      (acts : List (wire_waits.Act T)) (s : wire_waits.Sys T),
      RunOf (wire_waits.step k) Free (wire_waits.Sys.init capacity buffer header) acts s →
        wire_waits.Awake k s) ∧
    ∀ (count : Nat) (memory : Nat → Nat → UInt8) (acts : List Act) (s : Sys),
      RunOf step Free (Sys.init count memory) acts s → Awake s := by
  refine ⟨?_, ?_⟩
  · intro T _ k capacity buffer header acts s hr
    exact (wire_waits.inv_of_run hr).awake
  · intro count memory acts s hr
    exact (inv_of_run hr).awake

/-- A request fills the wire, the writer blocks with the next one, and the reader
has read the first. -/
def fullRequestWire : List (wire_waits.Act MessageHeader) :=
  [wire_waits.Act.write ⟨⟨0, 2⟩, [1, 2], rfl⟩] ++ List.replicate 6 (wire_waits.Act.go .writer) ++
    [wire_waits.Act.write ⟨⟨0, 0⟩, [], List.length_nil⟩] ++
    List.replicate 6 (wire_waits.Act.go .writer) ++ [wire_waits.Act.poll] ++
    List.replicate 3 (wire_waits.Act.go .reader) ++ [wire_waits.Act.read, .go .reader]

/-- The reader waits for a response, and the wire is closed. -/
def closedResponseWire : List (wire_waits.Act ResponseHeader) :=
  [wire_waits.Act.poll] ++ List.replicate 7 (wire_waits.Act.go .reader) ++
    [wire_waits.Act.control 0 .close]

/-- The client waits for a record, and the end of the result set is marked. -/
def endedResultSet : List Act :=
  [Act.active_wire] ++ List.replicate 6 (Act.go .client) ++ [Act.set_eor 0]

/-- A chunk fills the wire, the writer blocks with the next one, and the client has
disposed of the first. -/
def fullResultSetWire : List Act :=
  [Act.attach 0 8 8, .write 0 [1, 2, 3, 4]] ++ List.replicate 6 (Act.go (.writer 0)) ++
    [Act.flush 0] ++ List.replicate 7 (Act.go (.writer 0)) ++ [Act.write 0 [5]] ++
    List.replicate 6 (Act.go (.writer 0)) ++ [Act.dispose 0, .go .client]

/-- In each of these runs somebody is blocked with a true wait condition. -/
theorem no_wake_up_is_lost_in_four_waits :
    (∃ s, RunOf (wire_waits.step .peep) Free
        (wire_waits.Sys.init 8 (fun _ => 0) (⟨0, 0⟩ : MessageHeader)) fullRequestWire s ∧
      (s.monitor.pc .writer = .wait .full .blocked ∧ s.ready .peep .writer = true) ∧
      wire_waits.Awake .peep s) ∧
    (∃ s, RunOf (wire_waits.step (.await ⟨0, 0, 0⟩)) Free
        (wire_waits.Sys.init 8 (fun _ => 0) (⟨0, 0, 0⟩ : ResponseHeader)) closedResponseWire s ∧
      (s.monitor.pc .reader = .wait .empty .blocked ∧
        s.ready (.await ⟨0, 0, 0⟩) .reader = true) ∧
      wire_waits.Awake (.await ⟨0, 0, 0⟩) s) ∧
    (∃ s, RunOf step Free (Sys.init 1 fun _ _ => 0) endedResultSet s ∧
      (s.record.pc .client = .wait () .blocked ∧ s.record_ready = true) ∧ Awake s) ∧
    ∃ s, RunOf step Free (Sys.init 1 fun _ _ => 0) fullResultSetWire s ∧
      ((s.full 0).pc (.writer 0) = .wait () .blocked ∧ s.room_ready 0 = true) ∧ Awake s := by
  refine ⟨?_, ?_, ?_, ?_⟩
  · obtain ⟨s, hr, hp⟩ := RunOf.exists_free
      (s := wire_waits.Sys.init 8 (fun _ => 0) (⟨0, 0⟩ : MessageHeader))
      (p := fun s => s.monitor.pc .writer = .wait .full .blocked ∧ s.ready .peep .writer = true)
      (by decide +kernel : (exec (wire_waits.step .peep) _ fullRequestWire).any _ = true)
    exact ⟨s, hr, of_decide_eq_true hp, no_wake_up_is_lost.1 _ _ _ _ _ s hr⟩
  · obtain ⟨s, hr, hp⟩ := RunOf.exists_free
      (s := wire_waits.Sys.init 8 (fun _ => 0) (⟨0, 0, 0⟩ : ResponseHeader))
      (p := fun s => s.monitor.pc .reader = .wait .empty .blocked ∧
        s.ready (.await ⟨0, 0, 0⟩) .reader = true)
      (by decide +kernel :
        (exec (wire_waits.step (.await ⟨0, 0, 0⟩)) _ closedResponseWire).any _ = true)
    exact ⟨s, hr, of_decide_eq_true hp, no_wake_up_is_lost.1 _ _ _ _ _ s hr⟩
  · obtain ⟨s, hr, hp⟩ := RunOf.exists_free (s := Sys.init 1 fun _ _ => 0)
      (p := fun s => s.record.pc .client = .wait () .blocked ∧ s.record_ready = true)
      (by decide +kernel : (exec step _ endedResultSet).any _ = true)
    exact ⟨s, hr, of_decide_eq_true hp, no_wake_up_is_lost.2 _ _ _ s hr⟩
  · obtain ⟨s, hr, hp⟩ := RunOf.exists_free (s := Sys.init 1 fun _ _ => 0)
      (p := fun s => (s.full 0).pc (.writer 0) = .wait () .blocked ∧ s.room_ready 0 = true)
      (by decide +kernel : (exec step _ fullResultSetWire).any _ = true)
    exact ⟨s, hr, of_decide_eq_true hp, no_wake_up_is_lost.2 _ _ _ s hr⟩

end tateyama_bootstrap.resultset_waits
