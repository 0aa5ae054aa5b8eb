-- The server's writers, the client and the pool of one result set, step by
-- step: every test, copy and counter update of `write`, `flush`, `active_wire`,
-- `get_chunk` and `dispose` is one step, and they interleave in any order.
import TateyamaBootstrap.ResultSetPool

open runs ring_memory

namespace tateyama_bootstrap.resultset_wires

open simple_wire

/-! ## A wire with its buffer, its writer and its history -/

/-- Where the writer of a wire stands. `src` is what `from` and `length` give. -/
inductive Writer
  | idle
  /-- `check_room` or `wait_room` let the call of `write` go. -/
  | write (src : List UInt8)
  /-- In `brand_new`, before the room is tested. -/
  | brand_new (src : List UInt8)
  /-- In `brand_new`, before `pushed_` moves over the header. -/
  | reserve (src : List UInt8)
  /-- In `write` with the base address, before the room is tested. -/
  | room (src : List UInt8)
  | store (src : List UInt8)
  | push (src : List UInt8)
  /-- In `flush` with the base address, before the header is written. -/
  | header
  | publish
  /-- The chunk is published, and `continued_` is still set. -/
  | notify
  | crashed
deriving DecidableEq, Repr

/-- What happened on a wire. None of it is in the source: the bytes that the
present holder has written and not flushed, the chunks that were flushed, how
many of them were disposed of, and the chunks that the client got. -/
structure Log where
  opened : List UInt8
  sent : List (List UInt8)
  disposed : Nat
  obtained : List (List UInt8)
deriving DecidableEq, Repr

structure Cell where
  wire : Wire
  buffer : Nat → UInt8
  log : Log
  writer : Writer

namespace Cell

def ring (c : Cell) : SimpleWire LengthHeader := c.wire.ring c.buffer

/-- Writes through the base address, or crashes where that is `nullptr`. -/
def write_in_buffer (c : Cell) (pos : Nat) (src : List UInt8) (next : Writer) : Cell :=
  match c.wire.get_bip_address with
  | none => { c with writer := .crashed }
  | some _ =>
    { c with buffer := (c.ring.write_in_buffer (c.ring.index pos) src).buffer, writer := next }

/-- A call of `write` that its guard lets go. -/
def guard (c : Cell) (src : List UInt8) : Option Cell :=
  match c.writer with
  | .idle => if c.wire.check_room src.length then some { c with writer := .write src } else none
  | _ => none

/-- A call of `flush`, which has nothing to do when no chunk is open. -/
def flush (c : Cell) : Option Cell :=
  match c.writer with
  | .idle => some (if c.wire.continued then { c with writer := .header } else c)
  | _ => none

/-- The length that `flush` gives to the header. -/
def flush_length (c : Cell) : Nat :=
  (c.wire.pushed + 2 ^ 64 - (c.wire.pushed_valid + LengthHeader.size) % 2 ^ 64) % 2 ^ 64

/-- The history after the open chunk is published. -/
def published (log : Log) : Log :=
  if log.opened = [] then log else { log with opened := [], sent := log.sent ++ [log.opened] }

/-- The next step of `write` or of `flush`. -/
def write_step (c : Cell) : Option Cell :=
  match c.writer with
  | .write src =>
    if c.wire.closed = false ∧ 0 < src.length then
      if c.wire.continued then some { c with writer := .room src }
      else some { c with writer := .brand_new src }
    else some { c with writer := .idle }
  | .brand_new src =>
    if LengthHeader.size ≤ c.wire.room ∨ c.wire.closed then some { c with writer := .reserve src }
    else none
  | .reserve src =>
    let wire := { c.wire with
      pushed := (c.wire.pushed + LengthHeader.size) % 2 ^ 64, continued := true }
    some { c with wire, writer := .room src }
  | .room src =>
    if src.length ≤ c.wire.room ∨ c.wire.closed then some { c with writer := .store src } else none
  | .store src => some (c.write_in_buffer c.wire.pushed src (.push src))
  | .push src =>
    let wire := { c.wire with pushed := (c.wire.pushed + src.length) % 2 ^ 64 }
    let log := { c.log with opened := c.log.opened ++ src }
    some { c with wire, log, writer := .idle }
  | .header =>
    let header := LengthHeader.of_size c.flush_length
    some (c.write_in_buffer c.wire.pushed_valid (WireHeader.get_buffer header) .publish)
  | .publish =>
    let wire := { c.wire with pushed_valid := c.wire.pushed }
    some { c with wire, log := published c.log, writer := .notify }
  | .notify => some { c with wire := { c.wire with continued := false }, writer := .idle }
  | .idle | .crashed => none

/-- `copy_header` of the client. -/
def copy_header (c : Cell) : Cell :=
  { c with wire := { c.wire with header_received := c.ring.copy_header.header_received } }

def length (c : Cell) : Nat := c.wire.header_received.length.toNat

/-- The two views that `get_chunk` gives, as offsets from the base address with
their lengths: the chunk, or its part up to the end of the ring, and the part
that is wrapped around. -/
def views (c : Cell) : (Nat × Nat) × (Nat × Nat) :=
  let top := (c.wire.poped + LengthHeader.size) % 2 ^ 64
  let last := (c.wire.poped + LengthHeader.size + c.length + 2 ^ 64 - 1) % 2 ^ 64
  if top / c.wire.capacity = last / c.wire.capacity then
    ((c.ring.read_address LengthHeader.size, c.length), (0, 0))
  else
    let buffer_end := c.wire.pushed_valid / c.wire.capacity * c.wire.capacity
    let first_length := (buffer_end + 2 ^ 64 - top) % 2 ^ 64
    ((c.ring.read_address LengthHeader.size, first_length),
      (c.ring.read_address (LengthHeader.size + first_length),
        (c.length + 2 ^ 64 - first_length) % 2 ^ 64))

/-- The bytes that two views show. -/
def shown (c : Cell) (first wrap_around : Nat × Nat) : List UInt8 :=
  memread c.buffer first.1 first.2 ++ memread c.buffer wrap_around.1 wrap_around.2

/-- The client got a chunk. -/
def obtain_chunk (c : Cell) (chunk : List UInt8) : Cell :=
  { c with log := { c.log with obtained := c.log.obtained ++ [chunk] } }

/-- The second half of `dispose`. -/
def dispose (c : Cell) : Cell :=
  { c with
    wire := { c.wire with poped := (c.wire.poped + (c.length + LengthHeader.size)) % 2 ^ 64 }
    log := { c.log with disposed := c.log.disposed + 1 } }

/-- The history as a new holder finds it: it has written nothing yet. -/
def new_holder (log : Log) : Log := { log with opened := [] }

end Cell

/-! ## The system -/

/-- Where the client stands in `get_chunk` and `dispose`. -/
inductive Client
  | idle
  /-- The loop of `active_wire` looks at wire `index`. -/
  | scan (index : Nat)
  /-- The wait condition begins; `last` when the wait has timed out. -/
  | predicate (last : Bool)
  /-- The wait condition has loaded `eor` and looks at wire `index`. -/
  | predicate_scan (last eor : Bool) (index : Nat)
  | blocked
  /-- `active_wire` has thrown, and `get_chunk` asks whether the server lives. -/
  | timed_out
  /-- The wait ended without a wire, and `is_eor` is asked again. -/
  | recheck
  /-- `current_wire_` is `index`, and its header is not copied yet. -/
  | chunk (index : Nat)
  | split (index : Nat)
  | holding (index : Nat) (first wrap_around : Nat × Nat)
  /-- `dispose` has copied the header. -/
  | disposing (index : Nat)
  /-- `active_wire` has returned `nullptr`. -/
  | finished
  /-- `get_chunk` has thrown. -/
  | failed
  | crashed
deriving DecidableEq, Repr

/-- The result set, the wires that the server holds, their writers, and the one
client. -/
structure Sys where
  pool : Wires
  held : List Nat
  writers : Nat → Writer
  logs : Nat → Log
  client : Client

namespace Sys

def init (count buffer_size buffer : Nat) (memory : Nat → Nat → UInt8) : Sys where
  pool := Wires.construct count buffer_size buffer memory
  held := []
  writers := fun _ => .idle
  logs := fun _ => ⟨[], [], 0, []⟩
  client := .idle

def cell (s : Sys) (i : Nat) : Cell where
  wire := s.pool.wires i
  buffer := s.pool.memory (s.pool.wires i).buffer_handle
  log := s.logs i
  writer := s.writers i

def put_cell (s : Sys) (i : Nat) (c : Cell) : Sys :=
  { s with
    pool := { s.pool with
      wires := Function.update s.pool.wires i c.wire
      memory := Function.update s.pool.memory (s.pool.wires i).buffer_handle c.buffer }
    writers := Function.update s.writers i c.writer
    logs := Function.update s.logs i c.log }

end Sys

inductive Act
  /-- The answer of `allocate_aligned`, should the call ask for a buffer. -/
  | acquire (fresh : Option Nat)
  | release (i : Nat)
  | write (i : Nat) (src : List UInt8)
  | flush (i : Nat)
  /-- The writer of wire `i` goes on. -/
  | writer (i : Nat)
  | set_eor
  | set_closed
  | get_chunk
  /-- The client goes on in `get_chunk` or in `dispose`. -/
  | client
  /-- The client is woken, or wakes by itself. -/
  | wake
  | timeout
  /-- What `is_alive` says after a timeout. -/
  | is_alive (alive : Bool)
  | dispose

def Act.releases : Act → Bool
  | .release _ => true
  | _ => false

/-- The client looks at one wire, and takes it when it has a record. -/
def look (s : Sys) (index : Nat) (next done : Client) : Sys :=
  if index < s.pool.count then
    { s with client := if (s.pool.wires index).has_record then .chunk index else next }
  else { s with client := done }

/-- The client copies the header of its wire, unless that has no buffer. -/
def client_header (s : Sys) (index : Nat) (next : Client) : Sys :=
  match (s.pool.wires index).get_bip_address with
  | none => { s with client := .crashed }
  | some _ => { s.put_cell index (s.cell index).copy_header with client := next }

/-- The next step of the client in `get_chunk` or in `dispose`. -/
def client_step (s : Sys) : Option Sys :=
  match s.client with
  | .scan index => some (look s index (.scan (index + 1)) (.predicate false))
  | .predicate last => some { s with client := .predicate_scan last s.pool.eor 0 }
  | .predicate_scan last eor index =>
    some (look s index (.predicate_scan last eor (index + 1))
      (if eor then .recheck else if last then .timed_out else .blocked))
  | .recheck => some { s with client := if s.pool.eor then .finished else .scan 0 }
  | .chunk index => some (client_header s index (.split index))
  | .split index =>
    let c := s.cell index
    let (first, wrap_around) := c.views
    some { s.put_cell index (c.obtain_chunk (c.shown first wrap_around)) with
      client := .holding index first wrap_around }
  | .disposing index => some { s.put_cell index (s.cell index).dispose with client := .idle }
  | _ => none

/-- One step of the server, of the writer of a wire, or of the client. The
server uses a wire only while it holds it. -/
def step (s : Sys) : Act → Option Sys
  | .acquire fresh =>
    if s.held.length < s.pool.count ∧ Fresh s.pool fresh then
      match s.pool.acquire fresh with
      | .ok (i, pool) =>
        some { s with
          pool, held := i :: s.held
          logs := Function.update s.logs i (Cell.new_holder (s.logs i)) }
      | .error _ => none
    else none
  | .release i =>
    if i ∈ s.held ∧ s.writers i = .idle then
      match s.pool.release i with
      | .ok pool => some { s with pool, held := s.held.erase i }
      | .error _ => none
    else none
  | .write i src => if i ∈ s.held then ((s.cell i).guard src).map (s.put_cell i) else none
  | .flush i => if i ∈ s.held then (s.cell i).flush.map (s.put_cell i) else none
  | .writer i => (s.cell i).write_step.map (s.put_cell i)
  | .set_eor => some { s with pool := { s.pool with eor := true } }
  | .set_closed =>
    some { s with
      pool := { s.pool with
        closed := true, wires := fun i => { s.pool.wires i with closed := true } } }
  | .get_chunk => if s.client = .idle then some { s with client := .scan 0 } else none
  | .client => client_step s
  | .wake => if s.client = .blocked then some { s with client := .predicate false } else none
  | .timeout => if s.client = .blocked then some { s with client := .predicate true } else none
  | .is_alive alive =>
    if s.client = .timed_out then
      some { s with client := if alive then .scan 0 else .failed }
    else none
  | .dispose =>
    match s.client with
    | .holding index _ _ => some (client_header s index (.disposing index))
    | _ => none

end tateyama_bootstrap.resultset_wires
