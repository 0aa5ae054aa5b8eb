-- The client side of a session (session_wire_container of
-- transport/client_wire.h): sixteen slots, one response wire, and any number of
-- threads that send a request and receive its responses. The thread that wins
-- `using_wire_` reads the wire for all. Each atomic operation, each test, each
-- copy and each notification is one step of `step` here.
import TateyamaBootstrap.SimpleWire

open runs

namespace tateyama_bootstrap.session_wire

open simple_wire

def slot_size : Nat := 16

def RESPONSE_BODYHEAD : UInt16 := 2

/-! ## Slots -/

/-- `slot`. Its counters are touched by its own thread and by the thread that
reads the wire only, so each of its methods is one step. -/
structure Slot where
  in_use : Bool
  received : Nat
  consumed : Nat
  expected : Nat
  body_message : List UInt8
  body_head_message : List UInt8
deriving DecidableEq, Repr

namespace Slot

def new : Slot := ⟨false, 0, 0, 0, [], []⟩

def valid (r : Slot) : Bool := r.consumed < r.received

/-- The first lines of `pre_receive` and of `receive_and_consume`. -/
def expect (r : Slot) (msg_type : UInt16) : Slot :=
  if r.expected = 0 then
    { r with expected := if msg_type = RESPONSE_BODYHEAD then 2 else 1 }
  else r

/-- It answers whether the message goes to `body_head_message_`. -/
def pre_receive (r : Slot) (msg_type : UInt16) : Bool × Slot :=
  let r := r.expect msg_type
  (r.expected = 2 ∧ r.received = 0, r)

def post_receive (r : Slot) : Slot := { r with received := r.received + 1 }

/-- It ends with `in_use_.clear()`. -/
def finish_receive (_ : Slot) : Slot := new

def receive_and_consume (r : Slot) (msg_type : UInt16) : Slot :=
  let r := r.expect msg_type
  if r.expected = 2 ∧ r.received = 0 then
    { r with received := r.received + 1, consumed := r.consumed + 1 }
  else r.finish_receive

def consume (r : Slot) : List UInt8 × Slot :=
  if r.expected = 2 ∧ r.consumed = 0 then
    (r.body_head_message, { r with consumed := r.consumed + 1 })
  else (r.body_message, r.finish_receive)

/-- The message that `pre_receive` gave a reference to. -/
def target (r : Slot) (head : Bool) : List UInt8 :=
  if head then r.body_head_message else r.body_message

def set_target (r : Slot) (head : Bool) (data : List UInt8) : Slot :=
  if head then { r with body_head_message := data } else { r with body_message := data }

/-- `std::string::resize` of that message. -/
def resize (r : Slot) (head : Bool) (length : Nat) : Slot :=
  r.set_target head
    ((r.target head).take length ++ List.replicate (length - (r.target head).length) 0)

end Slot

/-! ## Threads -/

/-- Where a thread stands: in `search_slot`, before `send`, or in `receive`. -/
inductive Pc
  | search (i : Nat)
  /-- `search_slot` has thrown. -/
  | no_slot
  | send
  /-- The request is sent, and the thread is not in `receive`. -/
  | ready
  /-- At the top of the loop of `receive`, or woken: it takes `mtx_receive_` next. -/
  | enter
  | evaluate
  /-- The predicate was false, and the thread does not block yet. -/
  | window
  | blocked
  /-- The wait is over, and `valid()` comes next. -/
  | passed
  | consume
  | notify
  /-- Before `compare_exchange_weak`. -/
  | exchange
  /-- At the top of the loop of `await`. -/
  | await
  /-- `await` has loaded `closed_ || shutdown_`. -/
  | loaded (closed_shutdown : Bool)
  /-- It is blocked inside `await`. -/
  | waiting
  /-- `await` has thrown, and the container asks whether the server is alive. -/
  | timed_out
  /-- The container has rethrown, and `receive` asks again. -/
  | caught
  | header
  /-- It reads into `res_message`. -/
  | own
  /-- Before `receive_and_consume`. -/
  | own_count (res_message : List UInt8)
  | own_release
  | own_notify
  /-- It reads into a message of slot `j`. -/
  | other (j : Nat) (head : Bool)
  /-- Before `post_receive`. -/
  | other_count (j : Nat) (head : Bool)
  | other_release
  | other_notify
  | fail_release
  | fail_notify
  | threw
  /-- `std::out_of_range` has left `receive`. -/
  | escaped
deriving DecidableEq, Repr

/-- The session. The last four fields are not in the source: they record what
each receive gave, what the server wrote for each request, what was stored into
the slots, and how many messages of the wire were given to their slot. -/
structure Sys where
  wire : simple_wire.Sys ResponseHeader
  shutdown : Bool
  slots : Nat → Slot
  using_wire : Bool
  mtx_receive : Bool
  pc : Nat → Pc
  slot_index : Nat → Nat
  results : Nat → List (List UInt8)
  answers : Nat → List (Message ResponseHeader)
  stores : List (Nat × List UInt8)
  counted : Nat

def Sys.init (capacity : Nat) (buffer : Nat → UInt8) : Sys where
  wire := simple_wire.Sys.init capacity buffer ⟨0, 0, 0⟩
  shutdown := false
  slots := fun _ => .new
  using_wire := false
  mtx_receive := false
  pc := fun _ => .search 0
  slot_index := fun _ => 0
  results := fun _ => []
  answers := fun _ => []
  stores := []
  counted := 0

namespace Sys

def set_pc (s : Sys) (t : Nat) (p : Pc) : Sys := { s with pc := Function.update s.pc t p }

def set_slot (s : Sys) (i : Nat) (r : Slot) : Sys := { s with slots := Function.update s.slots i r }

def my_slot (s : Sys) (t : Nat) : Slot := s.slots (s.slot_index t)

/-- The predicate of `cnd_receive_.wait`. -/
def predicate (s : Sys) (t : Nat) : Bool := (s.my_slot t).valid || !s.using_wire

def header_received (s : Sys) : ResponseHeader := s.wire.wire.header_received

/-- The predicate of the wait inside `await`. -/
def awaited (s : Sys) : Bool :=
  WireHeader.size ResponseHeader ≤ s.wire.wire.stored || s.wire.closed || s.shutdown

/-- What `read` has copied, once it has returned. -/
def last_read (s : Sys) : List UInt8 := (s.wire.received.getLast?.map Prod.snd).getD []

/-- `await` on a closed or shut-down wire that is empty. -/
def await_closed (s : Sys) : Sys :=
  { s with
    wire := { s.wire with
      wire := { s.wire.wire with header_received := ⟨0, 0, 0⟩ }
      reader := .header } }

/-- `notify_all`: who is blocked has to take the mutex again. -/
def notify_all (s : Sys) : Sys :=
  { s with pc := fun u => if s.pc u = .blocked then .enter else s.pc u }

end Sys

/-- The steps of a `write` of the server that has begun. -/
inductive ServerAct
  | wait
  | check
  | store
  | publish
deriving DecidableEq, Repr

def ServerAct.act : ServerAct → simple_wire.Act ResponseHeader
  | .wait => .wait
  | .check => .check
  | .store => .store
  | .publish => .publish

inductive Act
  | search (t : Nat)
  | send (t : Nat)
  /-- The thread calls `receive`. -/
  | call (t : Nat)
  | lock (t : Nat)
  | evaluate (t : Nat)
  | block (t : Nat)
  | spurious (t : Nat)
  | test (t : Nat)
  | consume (t : Nat)
  | exchange (t : Nat) (succeeds : Bool)
  | load (t : Nat)
  | examine (t : Nat)
  | wake (t : Nat)
  | time_out (t : Nat)
  | probe (t : Nat) (alive : Bool)
  | probe_again (t : Nat) (alive : Bool)
  | dispatch (t : Nat)
  | read (t : Nat)
  | read_chunk (t : Nat)
  | advance (t : Nat)
  | count (t : Nat)
  | release (t : Nat)
  | notify (t : Nat)
  /-- The server begins a `write` of any message. -/
  | write (m : Message ResponseHeader)
  /-- The server begins a `write` that answers the request of thread `t`. -/
  | answer (t : Nat) (m : Message ResponseHeader)
  | server (a : ServerAct)
  | close
  | notify_shutdown

/-- One step of the reading of the message at the head of the wire. -/
def read_step (s : Sys) (t : Nat) (a : simple_wire.Act ResponseHeader) : Option Sys :=
  match s.pc t with
  | .own | .other _ _ => (simple_wire.step s.wire a).map fun wire => { s with wire }
  | _ => none

/-- One step of a thread, of the server, or of whoever closes the wire. -/
def step (s : Sys) : Act → Option Sys
  | .search t =>
    match s.pc t with
    | .search i =>
      if i < slot_size then
        if (s.slots i).in_use then some (s.set_pc t (.search (i + 1)))
        else
          some { (s.set_slot i { s.slots i with in_use := true }).set_pc t .send with
            slot_index := Function.update s.slot_index t i }
      else some (s.set_pc t .no_slot)
    | _ => none
  | .send t =>
    match s.pc t with
    | .send => some (s.set_pc t .ready)
    | _ => none
  | .call t =>
    match s.pc t with
    | .ready => some (s.set_pc t .enter)
    | _ => none
  | .lock t =>
    match s.pc t with
    | .enter => if s.mtx_receive then none else some { s.set_pc t .evaluate with mtx_receive := true }
    | _ => none
  | .evaluate t =>
    match s.pc t with
    | .evaluate =>
      if s.predicate t then some { s.set_pc t .passed with mtx_receive := false }
      else some (s.set_pc t .window)
    | _ => none
  | .block t =>
    match s.pc t with
    | .window => some { s.set_pc t .blocked with mtx_receive := false }
    | _ => none
  | .spurious t =>
    match s.pc t with
    | .blocked => some (s.set_pc t .enter)
    | _ => none
  | .test t =>
    match s.pc t with
    | .passed =>
      if (s.my_slot t).valid then some (s.set_pc t .consume) else some (s.set_pc t .exchange)
    | _ => none
  | .consume t =>
    match s.pc t with
    | .consume =>
      some { (s.set_slot (s.slot_index t) (s.my_slot t).consume.2).set_pc t .notify with
        results := Function.update s.results t (s.results t ++ [(s.my_slot t).consume.1]) }
    | _ => none
  | .exchange t succeeds =>
    match s.pc t with
    | .exchange =>
      if succeeds then
        if s.using_wire then none else some { s.set_pc t .await with using_wire := true }
      -- `compare_exchange_weak` may fail at any time
      else some (s.set_pc t .enter)
    | _ => none
  | .load t =>
    match s.pc t with
    | .await => some (s.set_pc t (.loaded (s.wire.closed || s.shutdown)))
    | _ => none
  | .examine t =>
    match s.pc t with
    | .loaded closed_shutdown =>
      if WireHeader.size ResponseHeader ≤ s.wire.wire.stored then
        (simple_wire.step s.wire .copy_header).map fun wire => { s.set_pc t .header with wire }
      else if closed_shutdown then some (s.await_closed.set_pc t .header)
      else some (s.set_pc t .waiting)
    | _ => none
  | .wake t =>
    match s.pc t with
    | .waiting => if s.awaited then some (s.set_pc t .await) else none
    | _ => none
  | .time_out t =>
    match s.pc t with
    | .waiting => if s.awaited then none else some (s.set_pc t .timed_out)
    | _ => none
  | .probe t alive =>
    match s.pc t with
    | .timed_out => some (s.set_pc t (if alive then .await else .caught))
    | _ => none
  | .probe_again t alive =>
    match s.pc t with
    -- `continue` leaves `using_wire_` as it is
    | .caught => some (s.set_pc t (if alive then .enter else .fail_release))
    | _ => none
  | .dispatch t =>
    match s.pc t with
    | .header =>
      let j := s.header_received.idx.toNat
      if j = s.slot_index t then some (s.set_pc t .own)
      else if j < slot_size then
        let p := (s.slots j).pre_receive s.header_received.type
        some ((s.set_slot j (p.2.resize p.1 s.header_received.length.toNat)).set_pc t
          (.other j p.1))
      -- `slot_status_.at` throws
      else some (s.set_pc t .escaped)
    | _ => none
  | .read t => read_step s t .read
  | .read_chunk t => read_step s t .read_chunk
  | .advance t =>
    match read_step s t .advance with
    | none => none
    | some u =>
      match u.wire.reader, s.pc t with
      | .idle, .own => some (u.set_pc t (.own_count u.last_read))
      | .idle, .other j head =>
        some ((u.set_slot j ((u.slots j).set_target head u.last_read)).set_pc t
          (.other_count j head))
      | _, _ => some u
  | .count t =>
    match s.pc t with
    | .own_count res_message =>
      some { (s.set_slot (s.slot_index t)
          ((s.my_slot t).receive_and_consume s.header_received.type)).set_pc t .own_release with
        results := Function.update s.results t (s.results t ++ [res_message])
        counted := s.counted + 1 }
    | .other_count j head =>
      some { (s.set_slot j (s.slots j).post_receive).set_pc t .other_release with
        stores := s.stores ++ [(j, (s.slots j).target head)]
        counted := s.counted + 1 }
    | _ => none
  | .release t =>
    match s.pc t with
    | .own_release => some { s.set_pc t .own_notify with using_wire := false }
    | .other_release => some { s.set_pc t .other_notify with using_wire := false }
    | .fail_release => some { s.set_pc t .fail_notify with using_wire := false }
    | _ => none
  | .notify t =>
    match s.pc t with
    | .notify | .own_notify => some (s.notify_all.set_pc t .ready)
    | .other_notify => some (s.notify_all.set_pc t .enter)
    | .fail_notify => some (s.notify_all.set_pc t .threw)
    | _ => none
  | .write m => (simple_wire.step s.wire (.write m)).map fun wire => { s with wire }
  | .answer t m =>
    (simple_wire.step s.wire (.write m)).map fun wire =>
      { s with wire, answers := Function.update s.answers t (s.answers t ++ [m]) }
  | .server a => (simple_wire.step s.wire a.act).map fun wire => { s with wire }
  | .close => (simple_wire.step s.wire .close).map fun wire => { s with wire }
  | .notify_shutdown => some { s with shutdown := true }

end tateyama_bootstrap.session_wire
