-- The wires of one result set (unidirectional_simple_wires of transport/wire.h):
-- the state of each wire, the pool that hands wires and buffers to the server,
-- and the destructor. The buffers stand in a managed shared memory, where a
-- wire finds its own by the handle.
import Mathlib.Logic.Function.Basic
import TateyamaBootstrap.Errors
import TateyamaBootstrap.SimpleWire

open ring_memory

namespace tateyama_bootstrap.resultset_wires

open simple_wire

/-! ## The header of a chunk -/

/-- `length_header`. -/
structure LengthHeader where
  length : UInt32
deriving DecidableEq, Repr

namespace LengthHeader

/-- The constructor from a `std::size_t`, which keeps the low 32 bits. -/
def of_size (length : Nat) : LengthHeader := ⟨UInt32.ofNat length⟩

def get_buffer (h : LengthHeader) : List UInt8 := bytes.encode 4 h.length.toNat

def of_buffer (buffer : List UInt8) : LengthHeader where
  length := UInt32.ofNat (bytes.decode (buffer.take 4))

instance : WireHeader LengthHeader where
  size := 4
  get_length := LengthHeader.length
  get_buffer := get_buffer
  of_buffer := of_buffer
  size_pos := by decide
  length_get_buffer := by
    intro h
    simp [get_buffer]
  of_buffer_get_buffer := by
    intro h
    have h1 := decode_uint32 h.length
    simp only [of_buffer, get_buffer]
    rw [List.take_of_length_le (by simp), h1]

/-- `length_header::size`. -/
def size : Nat := WireHeader.size LengthHeader

@[simp] theorem size_eq : size = 4 := rfl

end LengthHeader

/-! ## One wire -/

/-- `unidirectional_simple_wire`. A handle of 0 stands for no buffer. -/
structure Wire where
  buffer_handle : Nat
  capacity : Nat
  pushed : Nat
  poped : Nat
  header_received : LengthHeader
  pushed_valid : Nat
  closed : Bool
  continued : Bool
deriving DecidableEq, Repr

namespace Wire

/-- A wire as its default constructor leaves it. -/
def fresh : Wire where
  buffer_handle := 0
  capacity := 0
  pushed := 0
  poped := 0
  header_received := ⟨0⟩
  pushed_valid := 0
  closed := false
  continued := false

/-- The handle whose address is the base of the buffer, none for `nullptr`. -/
def get_bip_address (w : Wire) : Option Nat :=
  if w.buffer_handle ≠ 0 then some w.buffer_handle else none

def attach_buffer (w : Wire) (handle capacity : Nat) : Wire :=
  { w with buffer_handle := handle, capacity }

def detach_buffer (w : Wire) : Wire := { w with buffer_handle := 0, capacity := 0 }

def equal (w : Wire) (handle : Nat) : Bool := handle == w.buffer_handle

def reset_handle (w : Wire) : Wire := { w with buffer_handle := 0 }

def get_handle (w : Wire) : Nat := w.buffer_handle

def stored_valid (w : Wire) : Nat := (w.pushed_valid + 2 ^ 64 - w.poped) % 2 ^ 64

def has_record (w : Wire) : Bool := decide (0 < w.stored_valid)

/-- The wire as the ring it is derived from, over the bytes of a buffer. -/
def ring (w : Wire) (buffer : Nat → UInt8) : SimpleWire LengthHeader where
  capacity := w.capacity
  buffer := buffer
  pushed := w.pushed
  poped := w.poped
  header_received := w.header_received

/-- The room of the ring, which does not depend on the bytes. -/
def room (w : Wire) : Nat := (w.ring fun _ => 0).room

def check_room (w : Wire) (length : Nat) : Bool :=
  if w.continued then decide (length ≤ w.room)
  else decide ((length + LengthHeader.size) % 2 ^ 64 ≤ w.room)

end Wire

/-! ## The pool -/

/-- What ends a call other than by a return. -/
inductive Fault
  | throws (e : Error)
  /-- `std::abort()`. -/
  | abort
  /-- `deallocate` of what is not allocated. -/
  | bad_free
  /-- `nullptr` where the code expects a buffer. -/
  | null_pointer
deriving DecidableEq, Repr

/-- `unidirectional_simple_wires`. Of the managed shared memory, `live` lists
the handles of the buffers that are allocated, and `memory` has their bytes. -/
structure Wires where
  count : Nat
  wires : Nat → Wire
  buffer_size : Nat
  reserved : Option Nat
  count_using : Nat
  next_index : Nat
  only_one_buffer : Bool
  eor : Bool
  closed : Bool
  live : List Nat
  memory : Nat → Nat → UInt8

namespace Wires

/-- The constructor, for the first buffer that the shared memory gives. -/
def construct (count buffer_size buffer : Nat) (memory : Nat → Nat → UInt8) : Wires where
  count := count
  wires := fun _ => Wire.fresh
  buffer_size := buffer_size
  reserved := some buffer
  count_using := 0
  next_index := 0
  only_one_buffer := false
  eor := false
  closed := false
  live := [buffer]
  memory := memory

/-- `unidirectional_simple_wires_.at(index)`. -/
def wire_at (w : Wires) (index : Nat) : Except Fault Wire :=
  if index < w.count then .ok (w.wires index) else .error (.throws .out_of_range)

def put (w : Wires) (index : Nat) (wire : Wire) : Wires :=
  { w with wires := Function.update w.wires index wire }

def deallocate (w : Wires) (buffer : Option Nat) : Except Fault Wires :=
  match buffer with
  | none => .error .null_pointer
  | some b => if b ∈ w.live then .ok { w with live := w.live.erase b } else .error .bad_free

/-- The loop of the two searches: the first wire with the handle. -/
def search (w : Wires) (handle : Nat) : List Nat → Except Fault Nat
  | [] => .error .abort
  | index :: rest => do
    let wire ← w.wire_at index
    if wire.equal handle then pure index else w.search handle rest

def search_free_wire (w : Wires) : Except Fault (Nat × Wires) :=
  if w.count_using = w.next_index then
    .ok (w.next_index, { w with count_using := w.count_using + 1, next_index := w.next_index + 1 })
  else do
    let index ← w.search 0 (List.range w.next_index)
    pure (index, { w with count_using := w.count_using + 1 })

def search_wire (w : Wires) (wire : Nat) : Except Fault Nat :=
  w.search (w.wires wire).get_handle (List.range w.next_index)

/-- Attaches the buffer to `at(index)`. -/
def attach (w : Wires) (index : Nat) (buffer : Option Nat) : Except Fault Wires := do
  let wire ← w.wire_at index
  match buffer with
  | none => .error .null_pointer
  | some handle => pure (w.put index (wire.attach_buffer handle w.buffer_size))

/-- The buffer for one more wire: the reserved one, or else `fresh`, the answer
of `allocate_aligned`. -/
def take_buffer (w : Wires) (fresh : Option Nat) : Except Fault (Nat × Wires) :=
  match w.reserved, fresh with
  | some buffer, _ => .ok (buffer, { w with reserved := none })
  | none, some buffer => .ok (buffer, { w with live := buffer :: w.live })
  | none, none =>
    .error (.throws (.runtime_error .internal "cannot allocate shared memory"))

def acquire (w : Wires) (fresh : Option Nat) : Except Fault (Nat × Wires) :=
  if w.count_using = 0 then do
    let w ← { w with count_using := 1, next_index := 1 }.attach 0 w.reserved
    pure (0, { w with reserved := none, only_one_buffer := true })
  else do
    let (buffer, w) ← w.take_buffer fresh
    let (index, w) ← w.search_free_wire
    let w ← w.attach index (some buffer)
    pure (index, { w with only_one_buffer := false })

def release (w : Wires) (wire : Nat) : Except Fault Wires := do
  let buffer := (w.wires wire).get_bip_address
  let index ← w.search_wire wire
  let found ← w.wire_at index
  let w := w.put index found.reset_handle
  match w.reserved with
  | none => pure { w with reserved := buffer, count_using := w.count_using - 1 }
  | some _ => do
    let w ← w.deallocate buffer
    pure { w with count_using := w.count_using - 1 }

/-- One round of the destructor's loop. -/
def destroy_wire (w : Wires) (index : Nat) : Except Fault Wires :=
  if (w.wires index).equal 0 then .ok w
  else do
    let w ← w.deallocate (w.wires index).get_bip_address
    pure (w.put index (w.wires index).detach_buffer)

/-- The destructor. -/
def destroy (w : Wires) : Except Fault Wires := do
  let w ← if w.reserved.isSome then w.deallocate w.reserved else .ok w
  (List.range w.count).foldlM destroy_wire w

end Wires

end tateyama_bootstrap.resultset_wires
