-- The ring buffer between one writer and one reader (simple_wire of
-- transport/wire.h), with the headers that travel on it. A message longer than
-- the buffer goes through in chunks. Each test, copy and counter update of
-- `write`, of the header copy and of `read` is one step of `step` here.
import TateyamaBootstrap.Bytes
import TateyamaBootstrap.RingMemory
import TateyamaBootstrap.Runs

open runs ring_memory

namespace tateyama_bootstrap.simple_wire

/-! ## Headers -/

/-- What `simple_wire` needs of its header type `T`. The constructor from a
buffer gives back the header that `get_buffer` has laid out. -/
class WireHeader (T : Type) where
  size : Nat
  get_length : T → UInt32
  get_buffer : T → List UInt8
  of_buffer : List UInt8 → T
  size_pos : 0 < size
  length_get_buffer : ∀ h, (get_buffer h).length = size
  of_buffer_get_buffer : ∀ h, of_buffer (get_buffer h) = h

/-- `message_header`, the header of a request. -/
structure MessageHeader where
  idx : UInt16
  length : UInt32
deriving DecidableEq, Repr

/-- `response_header`. -/
structure ResponseHeader where
  idx : UInt16
  type : UInt16
  length : UInt32
deriving DecidableEq, Repr

theorem decode_uint16 (v : UInt16) : UInt16.ofNat (bytes.decode (bytes.encode 2 v.toNat)) = v := by
  have hlt : v.toNat < 256 ^ 2 := v.toNat_lt
  rw [bytes.decode_encode, Nat.mod_eq_of_lt hlt]
  exact UInt16.ofNat_toNat

theorem decode_uint32 (v : UInt32) : UInt32.ofNat (bytes.decode (bytes.encode 4 v.toNat)) = v := by
  have hlt : v.toNat < 256 ^ 4 := v.toNat_lt
  rw [bytes.decode_encode, Nat.mod_eq_of_lt hlt]
  exact UInt32.ofNat_toNat

namespace MessageHeader

def get_buffer (h : MessageHeader) : List UInt8 :=
  bytes.encode 2 h.idx.toNat ++ bytes.encode 4 h.length.toNat

def of_buffer (buffer : List UInt8) : MessageHeader where
  idx := UInt16.ofNat (bytes.decode (buffer.take 2))
  length := UInt32.ofNat (bytes.decode ((buffer.drop 2).take 4))

instance : WireHeader MessageHeader where
  size := 6
  get_length := MessageHeader.length
  get_buffer := get_buffer
  of_buffer := of_buffer
  size_pos := by decide
  length_get_buffer := by
    intro h
    simp [get_buffer]
  of_buffer_get_buffer := by
    intro h
    have h1 := decode_uint16 h.idx
    have h2 := decode_uint32 h.length
    simp only [of_buffer, get_buffer]
    rw [List.take_left' (by simp), List.drop_left' (by simp), List.take_of_length_le (by simp), h1,
      h2]

end MessageHeader

namespace ResponseHeader

def get_buffer (h : ResponseHeader) : List UInt8 :=
  bytes.encode 2 h.idx.toNat ++ (bytes.encode 2 h.type.toNat ++ bytes.encode 4 h.length.toNat)

def of_buffer (buffer : List UInt8) : ResponseHeader where
  idx := UInt16.ofNat (bytes.decode (buffer.take 2))
  type := UInt16.ofNat (bytes.decode ((buffer.drop 2).take 2))
  length := UInt32.ofNat (bytes.decode (((buffer.drop 2).drop 2).take 4))

instance : WireHeader ResponseHeader where
  size := 8
  get_length := ResponseHeader.length
  get_buffer := get_buffer
  of_buffer := of_buffer
  size_pos := by decide
  length_get_buffer := by
    intro h
    simp [get_buffer]
  of_buffer_get_buffer := by
    intro h
    have h1 := decode_uint16 h.idx
    have h2 := decode_uint16 h.type
    have h3 := decode_uint32 h.length
    simp only [of_buffer, get_buffer]
    rw [List.take_left' (by simp), List.drop_left' (by simp), List.take_left' (by simp),
      List.drop_left' (by simp), List.take_of_length_le (by simp), h1, h2, h3]

end ResponseHeader

/-! ## The ring -/

/-- `simple_wire`. The counters `pushed_` and `poped_` are 64 bits wide. A wait
may end at any time at which its condition is true, so the mutex, the condition
variables and the wait flags restrict nothing that is stated here. -/
structure SimpleWire (T : Type) where
  capacity : Nat
  buffer : Nat → UInt8
  pushed : Nat
  poped : Nat
  header_received : T

section

variable {T : Type}

namespace SimpleWire

def stored (w : SimpleWire T) : Nat := (w.pushed + 2 ^ 64 - w.poped) % 2 ^ 64

def room (w : SimpleWire T) : Nat := (w.capacity + 2 ^ 64 - w.stored) % 2 ^ 64

/-- The argument is a `std::size_t`, so the sum that a caller passes wraps at 64 bits. -/
def index (w : SimpleWire T) (n : Nat) : Nat := n % 2 ^ 64 % w.capacity

/-- The offset of `read_address(base, offset)` from `base`. -/
def read_address (w : SimpleWire T) (offset : Nat) : Nat := w.index (w.poped + offset)

/-- `top` is the offset from `base`. -/
def write_in_buffer (w : SimpleWire T) (top : Nat) (src : List UInt8) : SimpleWire T :=
  if top + src.length ≤ w.capacity then { w with buffer := memcpy w.buffer top src }
  else
    let first_part := w.capacity - top
    { w with
      buffer := memcpy (memcpy w.buffer top (src.take first_part)) 0 (src.drop first_part) }

/-- `top` is the offset of the source from `base`. -/
def read_from_buffer (w : SimpleWire T) (top length : Nat) : List UInt8 :=
  if top + length ≤ w.capacity then memread w.buffer top length
  else
    let first_part := w.capacity - top
    memread w.buffer top first_part ++ memread w.buffer 0 (length - first_part)

variable [WireHeader T]

def max_payload_length (w : SimpleWire T) : Nat :=
  (w.capacity + 2 ^ 64 - WireHeader.size T) % 2 ^ 64

def copy_header (w : SimpleWire T) : SimpleWire T :=
  if w.read_address 0 + WireHeader.size T ≤ w.capacity then
    { w with
      header_received :=
        WireHeader.of_buffer (memread w.buffer (w.read_address 0) (WireHeader.size T)) }
  else
    let first_part := w.capacity - w.index w.poped
    let buf := memread w.buffer (w.read_address 0) first_part ++
      memread w.buffer 0 (WireHeader.size T - first_part)
    { w with header_received := WireHeader.of_buffer buf }

end SimpleWire

/-! ## The writer and the reader -/

/-- A message: its payload has the length that its header gives. -/
structure Message (T : Type) [WireHeader T] where
  header : T
  payload : List UInt8
  length_payload : payload.length = (WireHeader.get_length header).toNat

/-- The variables of a `write` in progress: the header until it is written, what
`from` points at, and `length`. -/
structure Job (T : Type) where
  head : Option T
  src : List UInt8
  length : Nat

/-- Where the writer stands in `write`. -/
inductive Writer (T : Type)
  | idle
  /-- It tests the room, or is in `wait_to_write`. -/
  | wait (j : Job T)
  /-- It tests `closed` before the chunk. -/
  | check (j : Job T)
  | store (j : Job T)
  /-- The chunk is in the buffer, and `pushed_` has not moved yet. -/
  | publish (j : Job T)

/-- Where the reader stands. `top` is what it has copied so far and `length`
what is still to be copied. -/
inductive Reader
  | idle
  /-- The header is copied, and `read` has not copied yet. -/
  | header
  /-- A chunk is copied, and `poped_` has not moved yet. -/
  | copied (top : List UInt8) (length advance : Nat)
  /-- It is in the loop of `read`. -/
  | loop (top : List UInt8) (length : Nat)

/-- The wire, its writer and its reader. The two lists are not in the source:
they record what was given to `write`, and what `read` has completed. -/
structure Sys (T : Type) [WireHeader T] where
  wire : SimpleWire T
  closed : Bool
  writer : Writer T
  reader : Reader
  sent : List (Message T)
  received : List (T × List UInt8)

variable [WireHeader T]

def Sys.init (capacity : Nat) (buffer : Nat → UInt8) (header : T) : Sys T where
  wire := { capacity, buffer, pushed := 0, poped := 0, header_received := header }
  closed := false
  writer := .idle
  reader := .idle
  sent := []
  received := []

namespace Job

def msg_length (j : Job T) (w : SimpleWire T) : Nat := min j.length w.capacity

/-- The bytes of the header that the next chunk begins with. -/
def head_length (j : Job T) : Nat := if j.head.isSome then WireHeader.size T else 0

/-- The two `write_in_buffer` of the first chunk, or the one of a later chunk. -/
def store (j : Job T) (w : SimpleWire T) : SimpleWire T :=
  match j.head with
  | some header =>
    let w := w.write_in_buffer (w.index w.pushed) (WireHeader.get_buffer header)
    if WireHeader.size T < j.msg_length w then
      w.write_in_buffer (w.index (w.pushed + WireHeader.size T))
        (j.src.take (j.msg_length w - WireHeader.size T))
    else w
  | none => w.write_in_buffer (w.index w.pushed) (j.src.take (j.msg_length w))

/-- `length` and `from` after the chunk. -/
def rest (j : Job T) (w : SimpleWire T) : Job T where
  head := none
  src := j.src.drop (j.msg_length w - j.head_length)
  length := j.length - j.msg_length w

end Job

inductive Act (T : Type) [WireHeader T]
  | write (m : Message T)
  | wait
  | check
  | store
  | publish
  | close
  | copy_header
  | read
  | read_chunk
  | advance

namespace Act

/-- The steps inside `write`. -/
def writes : Act T → Bool
  | .wait | .check | .store | .publish => true
  | _ => false

/-- The steps of the reader. -/
def reads : Act T → Bool
  | .copy_header | .read | .read_chunk | .advance => true
  | _ => false

end Act

/-- One step of the writer, of the reader, or of whoever closes the wire. -/
def step (s : Sys T) : Act T → Option (Sys T)
  | .write m =>
    match s.writer with
    | .idle =>
      some { s with
        writer := .wait
          { head := some m.header, src := m.payload
            length := (WireHeader.get_length m.header).toNat + WireHeader.size T }
        sent := s.sent ++ [m] }
    | _ => none
  | .wait =>
    match s.writer with
    | .wait j =>
      if j.msg_length s.wire ≤ s.wire.room ∨ s.closed then some { s with writer := .check j }
      else none
    | _ => none
  | .check =>
    match s.writer with
    | .check j => if s.closed then some { s with writer := .idle } else some { s with writer := .store j }
    | _ => none
  | .store =>
    match s.writer with
    | .store j => some { s with wire := j.store s.wire, writer := .publish j }
    | _ => none
  | .publish =>
    match s.writer with
    | .publish j =>
      let wire := { s.wire with pushed := (s.wire.pushed + j.msg_length s.wire) % 2 ^ 64 }
      if 0 < (j.rest s.wire).length then some { s with wire, writer := .wait (j.rest s.wire) }
      else some { s with wire, writer := .idle }
    | _ => none
  | .close => some { s with closed := true }
  | .copy_header =>
    match s.reader with
    | .idle =>
      if WireHeader.size T ≤ s.wire.stored then
        some { s with wire := s.wire.copy_header, reader := .header }
      else none
    | _ => none
  | .read =>
    match s.reader with
    | .header =>
      let length := (WireHeader.get_length s.wire.header_received).toNat
      let msg_length := min length s.wire.max_payload_length
      some { s with
        reader := .copied
          (s.wire.read_from_buffer (s.wire.read_address (WireHeader.size T)) msg_length)
          (length - msg_length) (WireHeader.size T + msg_length) }
    | _ => none
  | .read_chunk =>
    match s.reader with
    | .loop top length =>
      let msg_length := min length s.wire.capacity
      if msg_length ≤ s.wire.stored then
        some { s with
          reader := .copied (top ++ s.wire.read_from_buffer (s.wire.read_address 0) msg_length)
            (length - msg_length) msg_length }
      else none
    | _ => none
  | .advance =>
    match s.reader with
    | .copied top length advance =>
      let wire := { s.wire with poped := (s.wire.poped + advance) % 2 ^ 64 }
      if 0 < length then some { s with wire, reader := .loop top length }
      else
        some { s with
          wire, reader := .idle, received := s.received ++ [(s.wire.header_received, top)] }
    | _ => none

end

end tateyama_bootstrap.simple_wire
