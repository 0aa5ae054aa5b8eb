-- The waits of the request and of the response wire (simple_wire,
-- unidirectional_message_wire and unidirectional_response_wire of
-- transport/wire.h): `wait_to_write` on `c_full_`, and `peep`, `await` and `read`
-- on `c_empty_`, with the flags `wait_for_write_` and `wait_for_read_` by which a
-- party that has nobody to wake leaves the mutex alone.
import TateyamaBootstrap.Monitor
import TateyamaBootstrap.WireFlags

open runs ring_memory

namespace tateyama_bootstrap.wire_waits

open monitor simple_wire

/-! ## The parties -/

/-- `c_full_` and `c_empty_`. Their flags are `wait_for_write_` and `wait_for_read_`. -/
inductive Cond
  | full
  | empty
deriving DecidableEq, Repr

/-- Any number of threads may ask the reader or the writer to stop. -/
inductive Party
  | writer
  | reader
  | controller (n : Nat)
deriving DecidableEq, Repr

def waiter : Cond → Party
  | .full => .writer
  | .empty => .reader

/-- Where the writer stands in `write`. -/
inductive Writer (T : Type)
  | idle
  /-- It compares the chunk with the room. -/
  | room (j : Job T)
  /-- The room was short, and `closed` is loaded. -/
  | short (j : Job T)
  /-- In `wait_to_write`. -/
  | wait (j : Job T)
  /-- It loads `closed` before the chunk. -/
  | check (j : Job T)
  | store (j : Job T)
  | publish (j : Job T)
  /-- The chunk is published and the reader is signalled; `j` is the rest. -/
  | signal (j : Job T)

/-- Where the reader stands in `peep` or `await`, in `read`, or in `dispose`. -/
inductive Reader
  | idle
  /-- At the head of the loop of `peep` or `await`. -/
  | head
  /-- The first flag is loaded. -/
  | first (raised : Bool)
  /-- All flags are loaded, and the wire is not looked at yet. -/
  | loaded (raised notified : Bool)
  /-- `peep` clears `termination_requested_` before it returns. -/
  | reset
  /-- In the wait of `peep` or `await`. -/
  | poll
  /-- A chunk is copied, `poped_` is about to move, and `length` bytes are left. -/
  | copied (length advance : Nat)
  /-- The writer is signalled after the chunk. -/
  | signal (length : Nat)
  /-- In the wait of `read`. -/
  | read (length : Nat)
  /-- `dispose` is about to move `poped_`. -/
  | dispose
  | disposed

/-- The wire with its flags, its mutex, its writer and its reader. `closed_` is in
both kinds of wire, `termination_requested_` and `onetime_notification_` in the
request wire and `shutdown_` in the response wire. -/
structure Sys (T : Type) where
  wire : SimpleWire T
  closed : Bool
  termination_requested : Bool
  onetime_notification : Bool
  shutdown : Bool
  need_dispose : Nat
  monitor : Monitor Party Cond
  writer : Writer T
  reader : Reader

/-- The calls of a controller. -/
inductive Control
  | terminate
  | notify
  | close
  | notify_shutdown
deriving DecidableEq, Repr

inductive Act (T : Type) [WireHeader T]
  | write (m : Message T)
  /-- A call of `peep` or `await`. -/
  | poll
  | read
  | payload
  | dispose
  | control (n : Nat) (x : Control)
  /-- The next step of a party in the call that it is in. -/
  | go (p : Party)
  /-- A blocked party wakes without a notify, by its timeout when `last`. -/
  | wake (p : Party) (last : Bool)

section

variable {T : Type} [WireHeader T]

def Act.party : Act T → Party
  | .write _ => .writer
  | .poll | .read | .payload | .dispose => .reader
  | .control n _ => .controller n
  | .go p | .wake p _ => p

namespace Sys

def init (capacity : Nat) (buffer : Nat → UInt8) (header : T) : Sys T where
  wire := { capacity, buffer, pushed := 0, poped := 0, header_received := header }
  closed := false
  termination_requested := false
  onetime_notification := false
  shutdown := false
  need_dispose := 0
  monitor := Monitor.init
  writer := .idle
  reader := .idle

/-- The wait condition of `peep` or of `await`. -/
def poll_ready (k : Wait T) (s : Sys T) : Bool :=
  decide (WireHeader.size T ≤ s.wire.stored) ||
    match k with
    | .peep => s.termination_requested || s.onetime_notification
    | .await _ => s.closed || s.shutdown

/-- The condition of the wait that a party is in. -/
def ready (k : Wait T) (s : Sys T) : Party → Bool
  | .writer =>
    match s.writer with
    | .wait j => decide (j.msg_length s.wire ≤ s.wire.room) || s.closed
    | _ => false
  | .reader =>
    match s.reader with
    | .poll => s.poll_ready k
    | .read length => decide (min length s.wire.capacity ≤ s.wire.stored)
    | _ => false
  | .controller _ => false

/-- A party goes on in the monitor, and with `next` once it is out again. -/
def engage (k : Wait T) (s : Sys T) (p : Party) (next : Bool → Sys T) : Option (Sys T) :=
  match s.monitor.pc p with
  | .out ok => some (next ok)
  | _ => (s.monitor.step waiter p (s.ready k p)).map fun m => { s with monitor := m }

/-- The flag that is loaded first. -/
def first_flag (k : Wait T) (s : Sys T) : Bool :=
  match k with
  | .peep => s.termination_requested
  | .await _ => s.closed

/-- The step after the first flag. `await` loads `shutdown_` only when `closed_`
is not set. -/
def second_flag (k : Wait T) (s : Sys T) (raised : Bool) : Reader :=
  match k with
  | .peep => .loaded raised s.onetime_notification
  | .await _ => .loaded (raised || s.shutdown) false

/-- What the loop of `peep` or `await` does when no message is there. -/
def no_message (k : Wait T) (s : Sys T) (raised notified : Bool) : Sys T :=
  if raised then
    match k with
    | .peep => { s with reader := .reset }
    | .await empty => { s with wire := { s.wire with header_received := empty }, reader := .idle }
  else if notified then { s with reader := .idle }
  else { s with monitor := s.monitor.move .reader (.wait .empty .lock), reader := .poll }

/-- The first chunk of `read`. -/
def read_header (s : Sys T) : Reader :=
  let length := (WireHeader.get_length s.wire.header_received).toNat
  let msg_length := min length s.wire.max_payload_length
  .copied (length - msg_length) (WireHeader.size T + msg_length)

/-- `payload` gives a view of a message that lies in one piece, and reads any other. -/
def payload (s : Sys T) : Sys T :=
  let length := (WireHeader.get_length s.wire.header_received).toNat
  if s.wire.index (s.wire.poped + WireHeader.size T) <
      s.wire.index (s.wire.poped + WireHeader.size T + length) then
    { s with need_dispose := WireHeader.size T + length }
  else { s with reader := s.read_header }

/-- `poped_` moves, and the writer is signalled. -/
def pop (s : Sys T) (n : Nat) (next : Reader) : Sys T :=
  { s with
    wire := { s.wire with poped := (s.wire.poped + n) % 2 ^ 64 }
    monitor := s.monitor.move .reader (.signal .full .test [])
    reader := next }

def writer_step (k : Wait T) (s : Sys T) : Option (Sys T) :=
  match s.writer with
  | .idle => none
  | .room j =>
    if s.wire.room < j.msg_length s.wire then some { s with writer := .short j }
    else some { s with writer := .check j }
  | .short j =>
    if s.closed then some { s with writer := .check j }
    else
      some { s with monitor := s.monitor.move .writer (.wait .full .lock), writer := .wait j }
  | .wait j => s.engage k .writer fun _ => { s with writer := .check j }
  | .check j =>
    if s.closed then some { s with writer := .idle } else some { s with writer := .store j }
  | .store j => some { s with wire := j.store s.wire, writer := .publish j }
  | .publish j =>
    some { s with
      wire := { s.wire with pushed := (s.wire.pushed + j.msg_length s.wire) % 2 ^ 64 }
      monitor := s.monitor.move .writer (.signal .empty .test [])
      writer := .signal (j.rest s.wire) }
  | .signal j =>
    s.engage k .writer fun _ => { s with writer := if 0 < j.length then .room j else .idle }

def reader_step (k : Wait T) (s : Sys T) : Option (Sys T) :=
  match s.reader with
  | .idle => none
  | .head => some { s with reader := .first (s.first_flag k) }
  | .first raised => some { s with reader := s.second_flag k raised }
  | .loaded raised notified =>
    if WireHeader.size T ≤ s.wire.stored then
      some { s with wire := s.wire.copy_header, reader := .idle }
    else some (s.no_message k raised notified)
  | .reset => some { s with termination_requested := false, reader := .idle }
  -- a wait that has timed out throws, any other goes around the loop
  | .poll => s.engage k .reader fun ok => { s with reader := if ok then .head else .idle }
  | .copied length advance => some (s.pop advance (.signal length))
  | .signal length =>
    s.engage k .reader fun _ =>
      if 0 < length then
        { s with monitor := s.monitor.move .reader (.wait .empty .lock), reader := .read length }
      else { s with reader := .idle }
  | .read length =>
    s.engage k .reader fun _ =>
      let msg_length := min length s.wire.capacity
      { s with reader := .copied (length - msg_length) msg_length }
  | .dispose => some (s.pop s.need_dispose .disposed)
  | .disposed => s.engage k .reader fun _ => { s with need_dispose := 0, reader := .idle }

/-- The store of a flag, with the condition variables that are signalled after
it. `force_close` is not among them: it signals `c_full_` alone. -/
def control (k : Wait T) (s : Sys T) : Control → Option (Sys T × Pc Cond)
  | .terminate =>
    match k with
    | .peep => some ({ s with termination_requested := true }, .signal .empty .test [])
    | .await _ => none
  | .notify =>
    match k with
    | .peep => some ({ s with onetime_notification := true }, .signal .empty .test [])
    | .await _ => none
  | .close =>
    match k with
    | .peep => some ({ s with closed := true }, .signal .full .test [])
    | .await _ => some ({ s with closed := true }, .signal .full .test [.empty])
  | .notify_shutdown =>
    match k with
    | .peep => none
    | .await _ => some ({ s with shutdown := true }, .signal .empty .test [])

end Sys

/-- One step of one party. -/
def step (k : Wait T) (s : Sys T) : Act T → Option (Sys T)
  | .write m =>
    match s.writer with
    | .idle =>
      some { s with
        writer := .room
          { head := some m.header, src := m.payload
            length := (WireHeader.get_length m.header).toNat + WireHeader.size T } }
    | _ => none
  | .poll =>
    match s.reader with
    | .idle => some { s with reader := .head }
    | _ => none
  | .read =>
    match s.reader with
    | .idle => some { s with reader := s.read_header }
    | _ => none
  | .payload =>
    match s.reader with
    | .idle => some s.payload
    | _ => none
  | .dispose =>
    match s.reader with
    | .idle => some (if 0 < s.need_dispose then { s with reader := .dispose } else s)
    | _ => none
  | .control n x =>
    match s.monitor.pc (.controller n) with
    | .out _ => (s.control k x).map fun (t, pc) =>
        { t with monitor := s.monitor.move (.controller n) pc }
    | _ => none
  | .go .writer => s.writer_step k
  | .go .reader => s.reader_step k
  | .go (.controller n) =>
    (s.monitor.step waiter (.controller n) false).map fun m => { s with monitor := m }
  | .wake p last =>
    match p, s.reader, last with
    | .reader, .poll, true | _, _, false =>
      (s.monitor.wake p last).map fun m => { s with monitor := m }
    | _, _, true => none

/-! ## The invariant -/

/-- The writer is in no call of the monitor. -/
def Writer.outside : Writer T → Bool
  | .wait _ | .signal _ => false
  | _ => true

def Reader.outside : Reader → Bool
  | .poll | .signal _ | .read _ | .disposed => false
  | _ => true

structure Inv (k : Wait T) (s : Sys T) : Prop where
  ok : Ok waiter (s.ready k) s.monitor
  writer : s.writer.outside = true → ∃ ok, s.monitor.pc .writer = .out ok
  reader : s.reader.outside = true → ∃ ok, s.monitor.pc .reader = .out ok

variable {k : Wait T} {s t : Sys T} {p : Party}

theorem inv_init (capacity : Nat) (buffer : Nat → UInt8) (header : T) :
    Inv k (Sys.init capacity buffer header) :=
  ⟨.init, fun _ => ⟨true, rfl⟩, fun _ => ⟨true, rfl⟩⟩

/-- What a step of party `p` does to the waits. -/
structure Good (k : Wait T) (s t : Sys T) (p : Party) : Prop where
  ok : Ok waiter (t.ready k) t.monitor
  evolves : Evolves waiter p s.monitor t.monitor

/-- The monitor sees nothing, and no other party gets a true condition. -/
theorem Inv.same (h : Inv k s) (hp : ∃ ok, s.monitor.pc p = .out ok)
    (hm : t.monitor = s.monitor)
    (hr : ∀ q, q ≠ p → t.ready k q = true → s.ready k q = true) : Good k s t p := by
  obtain ⟨ok, hp⟩ := hp
  refine ⟨?_, ?_⟩
  · rw [hm]
    refine h.ok.congr ?_
    intro q c pc hq _ hrq
    apply hr q _ hrq
    rintro rfl
    rw [hp] at hq
    cases hq
  · rw [hm]
    refine .same ?_
    rw [hp]
    rfl

/-- The party begins to wait or to signal. -/
theorem Inv.enter (h : Inv k s) (hp : ∃ ok, s.monitor.pc p = .out ok) {x : Pc Cond}
    (hm : t.monitor = s.monitor.move p x) (hx : x.holds = false)
    (hwait : ∀ c pc, x = .wait c pc → waiter c = p ∧ pc = .lock)
    (hr : ∀ c, waiter c ≠ p → t.ready k (waiter c) = true →
      s.ready k (waiter c) = true ∨ x.Pending c) : Good k s t p := by
  obtain ⟨ok, hp⟩ := hp
  refine ⟨?_, ?_⟩
  · rw [hm]
    exact h.ok.enter hp hx hwait hr
  · rw [hm]
    refine .move ?_ x
    rw [hp]
    rfl

/-- The party goes on in the monitor. -/
theorem Inv.inside (h : Inv k s) {m : Monitor Party Cond} {r : Bool} (hr : r = s.ready k p)
    (hs : s.monitor.step waiter p r = some m) : Good k s { s with monitor := m } p :=
  ⟨h.ok.step (by rw [← hr]; exact hs), .step hs⟩

/-- A call of `engage` is one of the two. -/
theorem engage_cases {next : Bool → Sys T} (hs : s.engage k p next = some t) :
    (∃ ok, s.monitor.pc p = .out ok ∧ t = next ok) ∨
      ∃ m, s.monitor.step waiter p (s.ready k p) = some m ∧ t = { s with monitor := m } := by
  unfold Sys.engage at hs
  split at hs
  · rename_i ok hp
    exact .inl ⟨ok, hp, (Option.some.inj hs).symm⟩
  · obtain ⟨m, hm, rfl⟩ := Option.map_eq_some_iff.mp hs
    exact .inr ⟨m, hm, rfl⟩

theorem Good.writer (h : Inv k s) (hg : Good k s t .writer) (hr : t.reader = s.reader)
    (hw : t.writer.outside = true → ∃ ok, t.monitor.pc .writer = .out ok) : Inv k t := by
  refine ⟨hg.ok, hw, ?_⟩
  rw [hr]
  intro ho
  obtain ⟨ok, hok⟩ := h.reader ho
  exact ⟨ok, hg.evolves.out hok (by simp)⟩

theorem Good.reader (h : Inv k s) (hg : Good k s t .reader) (hw : t.writer = s.writer)
    (hr : t.reader.outside = true → ∃ ok, t.monitor.pc .reader = .out ok) : Inv k t := by
  refine ⟨hg.ok, ?_, hr⟩
  rw [hw]
  intro ho
  obtain ⟨ok, hok⟩ := h.writer ho
  exact ⟨ok, hg.evolves.out hok (by simp)⟩

/-! ## The steps of the writer -/

/-- A step of the writer outside the monitor that no wait condition can see. -/
theorem Inv.writer_moves (h : Inv k s) (ho : ∃ ok, s.monitor.pc .writer = .out ok)
    (hm : t.monitor = s.monitor) (hr : t.reader = s.reader)
    (hready : t.ready k .reader = s.ready k .reader) :
    Inv k t ∧ Evolves waiter .writer s.monitor t.monitor := by
  have hg : Good k s t .writer := by
    refine h.same ho hm ?_
    intro q hq hrq
    cases q with
    | writer => exact absurd rfl hq
    | reader =>
      rw [← hready]
      exact hrq
    | controller n => cases hrq
  refine ⟨hg.writer h hr fun _ => ?_, hg.evolves⟩
  rw [hm]
  exact ho

/-- The writer goes on in the monitor, or leaves it. -/
theorem Inv.writer_engages (h : Inv k s) {w : Writer T} (ho : s.writer.outside = false)
    (hs : (s.engage k .writer fun _ => { s with writer := w }) = some t) :
    Inv k t ∧ Evolves waiter .writer s.monitor t.monitor := by
  rcases engage_cases hs with ⟨ok, hp, rfl⟩ | ⟨m, hm, rfl⟩
  · exact h.writer_moves ⟨ok, hp⟩ rfl rfl rfl
  · have hg := h.inside rfl hm
    refine ⟨hg.writer h rfl fun hw => ?_, hg.evolves⟩
    rw [ho] at hw
    cases hw

theorem store_stored (j : Job T) (w : SimpleWire T) :
    (j.store w).stored = w.stored ∧ (j.store w).capacity = w.capacity := by
  obtain ⟨buffer, hb⟩ := store_keeps j w
  rw [hb]
  exact ⟨rfl, rfl⟩

theorem Inv.writer_step (h : Inv k s) (hs : s.writer_step k = some t) :
    Inv k t ∧ Evolves waiter .writer s.monitor t.monitor := by
  unfold Sys.writer_step at hs
  cases hw : s.writer with
  | idle =>
    rw [hw] at hs
    cases hs
  | room j =>
    rw [hw] at hs
    dsimp only at hs
    split at hs
    · cases hs
      exact h.writer_moves (h.writer (by rw [hw]; rfl)) rfl rfl rfl
    · cases hs
      exact h.writer_moves (h.writer (by rw [hw]; rfl)) rfl rfl rfl
  | short j =>
    rw [hw] at hs
    dsimp only at hs
    split at hs
    · cases hs
      exact h.writer_moves (h.writer (by rw [hw]; rfl)) rfl rfl rfl
    · cases hs
      have hg : Good k s { s with
          monitor := s.monitor.move .writer (.wait .full .lock), writer := .wait j } .writer := by
        refine h.enter (h.writer (by rw [hw]; rfl)) rfl rfl ?_ ?_
        · intro c pc he
          cases he
          exact ⟨rfl, rfl⟩
        · intro c hc hr
          cases c with
          | full => exact absurd rfl hc
          | empty => exact .inl hr
      exact ⟨hg.writer h rfl fun ho => (by cases ho), hg.evolves⟩
  | wait j =>
    rw [hw] at hs
    exact h.writer_engages (by rw [hw]; rfl) hs
  | check j =>
    rw [hw] at hs
    dsimp only at hs
    split at hs
    · cases hs
      exact h.writer_moves (h.writer (by rw [hw]; rfl)) rfl rfl rfl
    · cases hs
      exact h.writer_moves (h.writer (by rw [hw]; rfl)) rfl rfl rfl
  | store j =>
    rw [hw] at hs
    cases hs
    obtain ⟨h1, h2⟩ := store_stored j s.wire
    refine h.writer_moves (h.writer (by rw [hw]; rfl)) rfl rfl ?_
    simp only [Sys.ready, Sys.poll_ready, h1, h2]
  | publish j =>
    rw [hw] at hs
    cases hs
    have hg : Good k s { s with
        wire := { s.wire with pushed := (s.wire.pushed + j.msg_length s.wire) % 2 ^ 64 }
        monitor := s.monitor.move .writer (.signal .empty .test [])
        writer := .signal (j.rest s.wire) } .writer := by
      refine h.enter (h.writer (by rw [hw]; rfl)) rfl rfl ?_ ?_
      · intro c pc he
        cases he
      · intro c hc _
        cases c with
        | full => exact absurd rfl hc
        -- the reader may have got its bytes, and the writer is about to look for it
        | empty => exact .inr (.inl ⟨rfl, by simp⟩)
    exact ⟨hg.writer h rfl fun ho => (by cases ho), hg.evolves⟩
  | signal j =>
    rw [hw] at hs
    exact h.writer_engages (by rw [hw]; rfl) hs

/-! ## The steps of the reader -/

/-- A step of the reader outside the monitor that no wait condition can see. -/
theorem Inv.reader_moves (h : Inv k s) (ho : ∃ ok, s.monitor.pc .reader = .out ok)
    (hm : t.monitor = s.monitor) (hw : t.writer = s.writer)
    (hready : t.ready k .writer = s.ready k .writer) :
    Inv k t ∧ Evolves waiter .reader s.monitor t.monitor := by
  have hg : Good k s t .reader := by
    refine h.same ho hm ?_
    intro q hq hrq
    cases q with
    | writer =>
      rw [← hready]
      exact hrq
    | reader => exact absurd rfl hq
    | controller n => cases hrq
  refine ⟨hg.reader h hw fun _ => ?_, hg.evolves⟩
  rw [hm]
  exact ho

/-- The reader begins to wait. -/
theorem Inv.reader_waits (h : Inv k s) (ho : ∃ ok, s.monitor.pc .reader = .out ok) {r : Reader}
    (hr : r.outside = false) :
    Inv k { s with monitor := s.monitor.move .reader (.wait .empty .lock), reader := r } ∧
      Evolves waiter .reader s.monitor (s.monitor.move .reader (.wait .empty .lock)) := by
  have hg : Good k s { s with
      monitor := s.monitor.move .reader (.wait .empty .lock), reader := r } .reader := by
    refine h.enter ho rfl rfl ?_ ?_
    · intro c pc he
      cases he
      exact ⟨rfl, rfl⟩
    · intro c hc hrc
      cases c with
      | full => exact .inl hrc
      | empty => exact absurd rfl hc
  refine ⟨hg.reader h rfl fun hro => ?_, hg.evolves⟩
  rw [hr] at hro
  cases hro

/-- `poped_` moves, and the reader is about to look for the writer. -/
theorem Inv.pop (h : Inv k s) (ho : s.reader.outside = true) (n : Nat) {r : Reader}
    (hr : r.outside = false) :
    Inv k (s.pop n r) ∧ Evolves waiter .reader s.monitor (s.pop n r).monitor := by
  have hg : Good k s (s.pop n r) .reader := by
    refine h.enter (h.reader ho) rfl rfl ?_ ?_
    · intro c pc he
      cases he
    · intro c hc _
      cases c with
      | full => exact .inr (.inl ⟨rfl, by simp⟩)
      | empty => exact absurd rfl hc
  refine ⟨hg.reader h rfl fun hro => ?_, hg.evolves⟩
  rw [show (s.pop n r).reader = r from rfl, hr] at hro
  cases hro

/-- The reader goes on in the monitor, or leaves it. -/
theorem Inv.reader_engages (h : Inv k s) {next : Bool → Sys T} (ho : s.reader.outside = false)
    (hs : s.engage k .reader next = some t)
    (hnext : ∀ ok, s.monitor.pc .reader = .out ok →
      Inv k (next ok) ∧ Evolves waiter .reader s.monitor (next ok).monitor) :
    Inv k t ∧ Evolves waiter .reader s.monitor t.monitor := by
  rcases engage_cases hs with ⟨ok, hp, rfl⟩ | ⟨m, hm, rfl⟩
  · exact hnext ok hp
  · have hg := h.inside rfl hm
    refine ⟨hg.reader h rfl fun hr => ?_, hg.evolves⟩
    rw [ho] at hr
    cases hr

theorem copy_header_room (w : SimpleWire T) :
    w.copy_header.room = w.room ∧ w.copy_header.capacity = w.capacity := by
  unfold SimpleWire.copy_header
  split <;> exact ⟨rfl, rfl⟩

theorem Inv.reader_step (h : Inv k s) (hs : s.reader_step k = some t) :
    Inv k t ∧ Evolves waiter .reader s.monitor t.monitor := by
  unfold Sys.reader_step at hs
  cases hr : s.reader with
  | idle =>
    rw [hr] at hs
    cases hs
  | head =>
    rw [hr] at hs
    cases hs
    exact h.reader_moves (h.reader (by rw [hr]; rfl)) rfl rfl rfl
  | first raised =>
    rw [hr] at hs
    cases hs
    exact h.reader_moves (h.reader (by rw [hr]; rfl)) rfl rfl rfl
  | loaded raised notified =>
    have ho := h.reader (by rw [hr]; rfl)
    rw [hr] at hs
    dsimp only at hs
    split at hs
    · cases hs
      obtain ⟨h1, h2⟩ := copy_header_room s.wire
      refine h.reader_moves ho rfl rfl ?_
      unfold Sys.ready Job.msg_length
      dsimp only
      rw [h1, h2]
    · cases hs
      unfold Sys.no_message
      split
      · split
        · exact h.reader_moves ho rfl rfl rfl
        · exact h.reader_moves ho rfl rfl rfl
      · split
        · exact h.reader_moves ho rfl rfl rfl
        · exact h.reader_waits ho rfl
  | reset =>
    rw [hr] at hs
    cases hs
    exact h.reader_moves (h.reader (by rw [hr]; rfl)) rfl rfl rfl
  | poll =>
    rw [hr] at hs
    exact h.reader_engages (by rw [hr]; rfl) hs fun ok hp => h.reader_moves ⟨ok, hp⟩ rfl rfl rfl
  | copied length advance =>
    rw [hr] at hs
    cases hs
    exact h.pop (by rw [hr]; rfl) advance rfl
  | signal length =>
    rw [hr] at hs
    refine h.reader_engages (by rw [hr]; rfl) hs fun ok hp => ?_
    split
    · exact h.reader_waits ⟨ok, hp⟩ rfl
    · exact h.reader_moves ⟨ok, hp⟩ rfl rfl rfl
  | read length =>
    rw [hr] at hs
    exact h.reader_engages (by rw [hr]; rfl) hs fun ok hp => h.reader_moves ⟨ok, hp⟩ rfl rfl rfl
  | dispose =>
    rw [hr] at hs
    cases hs
    exact h.pop (by rw [hr]; rfl) s.need_dispose rfl
  | disposed =>
    rw [hr] at hs
    exact h.reader_engages (by rw [hr]; rfl) hs fun ok hp => h.reader_moves ⟨ok, hp⟩ rfl rfl rfl

/-! ## The steps of the controllers -/

theorem Good.controller {n : Nat} (h : Inv k s) (hg : Good k s t (.controller n))
    (hw : t.writer = s.writer) (hr : t.reader = s.reader) : Inv k t := by
  refine ⟨hg.ok, ?_, ?_⟩
  · rw [hw]
    intro ho
    obtain ⟨ok, hok⟩ := h.writer ho
    exact ⟨ok, hg.evolves.out hok (by simp)⟩
  · rw [hr]
    intro ho
    obtain ⟨ok, hok⟩ := h.reader ho
    exact ⟨ok, hg.evolves.out hok (by simp)⟩

/-- A control flag is seen only by the waits whose condition variable is
signalled after it. -/
theorem control_cases {x : Control} {pc : Pc Cond} (hs : s.control k x = some (t, pc)) :
    t.monitor = s.monitor ∧ t.writer = s.writer ∧ t.reader = s.reader ∧
      (∃ c rest, pc = .signal c .test rest) ∧
      ∀ c, t.ready k (waiter c) = true → s.ready k (waiter c) = true ∨ pc.Pending c := by
  have hfull : (Pc.signal Cond.full .test []).Pending .full := .inl ⟨rfl, by simp⟩
  have hempty : (Pc.signal Cond.empty .test []).Pending .empty := .inl ⟨rfl, by simp⟩
  cases x <;> cases k <;> cases hs
  all_goals
    refine ⟨rfl, rfl, rfl, ⟨_, _, rfl⟩, ?_⟩
    intro c hr
    cases c
  case close.await.refl.full => exact .inr (.inl ⟨rfl, by simp⟩)
  case close.await.refl.empty => exact .inr (.inr (by simp))
  all_goals first
    | exact .inr hfull
    | exact .inr hempty
    | exact .inl hr

/-! ## All steps -/

theorem Inv.controls (h : Inv k s) {n : Nat} {x : Control}
    (hs : step k s (.control n x) = some t) :
    Inv k t ∧ Evolves waiter (.controller n) s.monitor t.monitor := by
  simp only [step] at hs
  split at hs
  · rename_i ok hp
    obtain ⟨⟨u, pc⟩, hu, rfl⟩ := Option.map_eq_some_iff.mp hs
    obtain ⟨-, hw, hr, ⟨c, rest, rfl⟩, hready⟩ := control_cases hu
    have hg : Good k s { u with monitor := s.monitor.move (.controller n) (.signal c .test rest) }
        (.controller n) :=
      h.enter ⟨ok, hp⟩ rfl rfl (fun d pc he => by cases he) fun d _ hrd => hready d hrd
    exact ⟨hg.controller h hw hr, hg.evolves⟩
  · cases hs

/-- A party that wakes without a notify looks again. -/
theorem Inv.wakes (h : Inv k s) {last : Bool} {m : Monitor Party Cond}
    (hm : s.monitor.wake p last = some m) :
    Inv k { s with monitor := m } ∧ Evolves waiter p s.monitor m := by
  have hev : Evolves waiter p s.monitor m := by
    unfold Monitor.wake at hm
    split at hm
    · rename_i c hp
      cases hm
      refine .move ?_ _
      rw [hp]
      rfl
    · cases hm
  have hp : ∀ ok, s.monitor.pc p ≠ .out ok := by
    intro ok hok
    rw [Monitor.wake, hok] at hm
    cases hm
  refine ⟨⟨h.ok.wake hm, ?_, ?_⟩, hev⟩
  · intro ho
    obtain ⟨ok, hok⟩ := h.writer ho
    refine ⟨ok, hev.out hok ?_⟩
    rintro rfl
    exact hp ok hok
  · intro ho
    obtain ⟨ok, hok⟩ := h.reader ho
    refine ⟨ok, hev.out hok ?_⟩
    rintro rfl
    exact hp ok hok

/-- A call of the idle reader. -/
theorem Inv.reader_calls (h : Inv k s) (hr : s.reader = .idle) {r : Reader} {n : Nat} :
    Inv k { s with reader := r, need_dispose := n } ∧
      Evolves waiter .reader s.monitor s.monitor :=
  h.reader_moves (h.reader (by rw [hr]; rfl)) rfl rfl rfl

theorem inv_step (h : Inv k s) {a : Act T} (hs : step k s a = some t) :
    Inv k t ∧ Evolves waiter a.party s.monitor t.monitor := by
  cases a with
  | write m =>
    simp only [step] at hs
    split at hs
    · rename_i hw
      cases hs
      exact h.writer_moves (h.writer (by rw [hw]; rfl)) rfl rfl rfl
    · cases hs
  | poll =>
    simp only [step] at hs
    split at hs
    · rename_i hr
      cases hs
      exact h.reader_calls hr
    · cases hs
  | read =>
    simp only [step] at hs
    split at hs
    · rename_i hr
      cases hs
      exact h.reader_calls hr
    · cases hs
  | payload =>
    simp only [step] at hs
    split at hs
    · rename_i hr
      cases hs
      unfold Sys.payload
      dsimp only
      split
      · exact h.reader_calls hr
      · exact h.reader_calls hr
    · cases hs
  | dispose =>
    simp only [step] at hs
    split at hs
    · rename_i hr
      cases hs
      split
      · exact h.reader_calls hr
      · exact h.reader_calls hr
    · cases hs
  | control n x => exact h.controls hs
  | go p =>
    cases p with
    | writer => exact h.writer_step hs
    | reader => exact h.reader_step hs
    | controller n =>
      obtain ⟨m, hm, rfl⟩ := Option.map_eq_some_iff.mp hs
      have hg : Good k s { s with monitor := m } (.controller n) := h.inside rfl hm
      exact ⟨hg.controller h rfl rfl, hg.evolves⟩
  | wake p last =>
    simp only [step] at hs
    split at hs
    · obtain ⟨m, hm, rfl⟩ := Option.map_eq_some_iff.mp hs
      exact h.wakes hm
    · obtain ⟨m, hm, rfl⟩ := Option.map_eq_some_iff.mp hs
      exact h.wakes hm
    · cases hs

/-! ## Nobody is left asleep -/

theorem engage_steps {next : Bool → Sys T} (hp : Steps waiter s.monitor p) :
    (s.engage k p next).isSome = true := by
  unfold Sys.engage
  split
  · rfl
  · rw [Option.isSome_map]
    exact hp _

/-- A party that has a step to take in the monitor takes it. -/
theorem Inv.goes (h : Inv k s) (hp : Steps waiter s.monitor p) :
    (step k s (.go p)).isSome = true := by
  have hin : ¬ ∃ ok, s.monitor.pc p = .out ok := by
    rintro ⟨ok, hok⟩
    have hs := hp false
    simp [Monitor.step, hok] at hs
  cases p with
  | writer =>
    simp only [step, Sys.writer_step]
    cases hw : s.writer with
    | wait j | signal j => exact engage_steps hp
    | _ => exact absurd (h.writer (by rw [hw]; rfl)) hin
  | reader =>
    simp only [step, Sys.reader_step]
    cases hr : s.reader with
    | poll | signal length | read length | disposed => exact engage_steps hp
    | _ => exact absurd (h.reader (by rw [hr]; rfl)) hin
  | controller n =>
    simp only [step, Option.isSome_map]
    exact hp false

/-- The wire, seen at its mutex. -/
def mutex (k : Wait T) : Around (Sys T) (Act T) Party Cond where
  step := step k
  party := Act.party
  go := .go
  view := Sys.monitor
  waiter := waiter

theorem mutex_sound : (mutex k).Sound (Inv k) where
  party_go _ := rfl
  keeps _ _ _ h hs := (inv_step h hs).1
  ok _ h := ⟨_, h.ok⟩
  evolves _ _ _ h hs := (inv_step h hs).2
  goes _ _ h hp := h.goes hp

/-- Whoever is blocked while its wait condition is true will be notified by
another party. -/
def Awake (k : Wait T) (s : Sys T) : Prop :=
  ∀ c, s.monitor.pc (waiter c) = .wait c .blocked → s.ready k (waiter c) = true →
    ∃ q, (mutex k).WillNotify c s q

theorem Inv.awake (h : Inv k s) : Awake k s := by
  intro c hw hr
  obtain ⟨q, hq⟩ := h.ok.awake _ c _ hw rfl hr
  exact ⟨q, mutex_sound.will_notify h hw hq⟩

theorem inv_of_run {capacity : Nat} {buffer : Nat → UInt8} {header : T} {acts : List (Act T)}
    (hr : RunOf (step k) Free (Sys.init capacity buffer header) acts s) : Inv k s :=
  hr.inv (inv_init capacity buffer header) fun _ _ _ h _ hs => (inv_step h hs).1

end

end tateyama_bootstrap.wire_waits
