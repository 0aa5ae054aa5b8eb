-- The connection queue of the shared memory (transport/wire.h): two index
-- queues, one mailbox for each slot, and the clients and the server that use
-- them. Every critical section of the source is one step of `step` here.
import TateyamaBootstrap.Errors
import TateyamaBootstrap.Runs
import Mathlib.Algebra.Group.Nat.Defs

namespace tateyama_bootstrap.connection_queue

/-! ## Slots and the admin bit -/

/-- `session_id_indicating_error`, the largest `std::size_t`. -/
def session_id_indicating_error : Nat := 2 ^ 64 - 1

def admin_bit : Nat := 2 ^ 63

def set_admin (slot : Nat) : Nat := slot ||| admin_bit

/-- `slot & ~admin_bit`: the complement in 64 bits is `2 ^ 63 - 1`. -/
def reset_admin (slot : Nat) : Nat := slot &&& (2 ^ 63 - 1)

def is_admin (slot : Nat) : Bool := slot &&& admin_bit != 0

/-! ## The index queue -/

/-- `index_queue`. The counters `pushed_` and `poped_` are 64 bits wide, the
capacity 32 bits and the count of admin slots in use 8 bits. -/
structure IndexQueue where
  queue : List Nat
  capacity : Nat
  admin_slots_in_use : Nat
  pushed : Nat
  poped : Nat
deriving DecidableEq, Repr

namespace IndexQueue

/-- The constructor. The size is a `std::size_t`, the capacity only 32 bits. -/
def new (size : Nat) : IndexQueue where
  queue := List.replicate (size % 2 ^ 32) 0
  capacity := size % 2 ^ 32
  admin_slots_in_use := 0
  pushed := 0
  poped := 0

/-- `capacity_ - admin_slots` is computed in 32 bits. -/
def fill (q : IndexQueue) (admin_slots : Nat) : IndexQueue :=
  { q with
    queue := List.range q.capacity
    pushed := (q.capacity + 2 ^ 32 - admin_slots) % 2 ^ 32 }

/-- The argument is a `std::size_t`, so the sum that a caller passes wraps at 64 bits. -/
def index (q : IndexQueue) (n : Nat) : Nat := n % 2 ^ 64 % q.capacity

def push (q : IndexQueue) (sid : Nat) (admin_slots : Nat) : Except Error Unit × IndexQueue :=
  let i := q.index (q.pushed + admin_slots)
  if i < q.queue.length then
    if 0 < admin_slots ∧ is_admin sid then
      (.ok (), { q with
        queue := q.queue.set i (reset_admin sid)
        -- fetch_sub(1) on 8 bits
        admin_slots_in_use := (q.admin_slots_in_use + 255) % 256
        pushed := (q.pushed + 1) % 2 ^ 64 })
    else
      (.ok (), { q with
        queue := q.queue.set i sid
        pushed := (q.pushed + 1) % 2 ^ 64 })
  else (.error .out_of_range, q)

/-- `queue_.at(index(current))` once the compare and exchange has advanced
`poped_`. The caller holds the mutex, so the exchange does not fail. -/
def take (q : IndexQueue) : Except Error Nat × IndexQueue :=
  let q' := { q with poped := (q.poped + 1) % 2 ^ 64 }
  match q.queue[q.index q.poped]? with
  | some v => (.ok v, q')
  | none => (.error .out_of_range, q')

/-- `try_pop()`, the pop of a normal request. -/
def try_pop (q : IndexQueue) : Except Error Nat × IndexQueue :=
  if (q.pushed + q.admin_slots_in_use) % 2 ^ 64 ≤ q.poped then
    (.error (.runtime_error .internal "no request slot is available for normal request"), q)
  else q.take

/-- `try_pop(admin_slots)`. The difference of the two 8-bit values is an `int`,
which the addition converts to 64 bits unsigned. -/
def try_pop_admin (q : IndexQueue) (admin_slots : Nat) : Except Error Nat × IndexQueue :=
  if (q.pushed + (admin_slots + 2 ^ 64 - q.admin_slots_in_use)) % 2 ^ 64 ≤ q.poped then
    (.error (.runtime_error .internal "no request slot is available for admin request"), q)
  else
    let (r, q') := q.take
    -- the slot is counted before `queue_.at` looks at its index
    (r.map set_admin, { q' with admin_slots_in_use := (q'.admin_slots_in_use + 1) % 256 })

/-- The condition that `wait` evaluates and returns. -/
def has_request (q : IndexQueue) : Bool := q.poped < q.pushed

def pop (q : IndexQueue) : IndexQueue := { q with poped := (q.poped + 1) % 2 ^ 64 }

def front (q : IndexQueue) : Option Nat := q.queue[q.index q.poped]?

end IndexQueue

/-! ## The connection queue -/

/-- `connection_queue`. Of an `element` only its `session_id_` is kept, in
`v_requested`: a wait may wake up at any time, so its mutex and its condition
variable restrict nothing that is stated here. -/
structure ConnectionQueue where
  q_free : IndexQueue
  q_requested : IndexQueue
  v_requested : List Nat
  terminate : Bool
  admin_slots : Nat
  session_id : Nat
deriving DecidableEq, Repr

namespace ConnectionQueue

def new (n as_n : Nat) : ConnectionQueue where
  q_free := (IndexQueue.new ((n + as_n) % 2 ^ 64)).fill as_n
  q_requested := IndexQueue.new ((n + as_n) % 2 ^ 64)
  v_requested := List.replicate ((n + as_n) % 2 ^ 64) 0
  terminate := false
  admin_slots := as_n
  session_id := 0

/-- The first half of `request` and `request_admin`: the pop from `q_free_`. -/
def pop_free (c : ConnectionQueue) (admin : Bool) : Except Error Nat × ConnectionQueue :=
  let r := if admin then c.q_free.try_pop_admin c.admin_slots else c.q_free.try_pop
  (r.1, { c with q_free := r.2 })

/-- The second half: the push to `q_requested_`. -/
def push_requested (c : ConnectionQueue) (sid : Nat) : Except Error Unit × ConnectionQueue :=
  let r := c.q_requested.push sid 0
  (r.1, { c with q_requested := r.2 })

/-- Both halves in a row, as one caller runs them. -/
def request_as (c : ConnectionQueue) (admin : Bool) : Except Error Nat × ConnectionQueue :=
  match c.pop_free admin with
  | (.ok sid, c') =>
    match c'.push_requested sid with
    | (.ok _, c'') => (.ok sid, c'')
    | (.error e, c'') => (.error e, c'')
  | (.error e, c') => (.error e, c')

def request (c : ConnectionQueue) : Except Error Nat × ConnectionQueue := c.request_as false

def request_admin (c : ConnectionQueue) : Except Error Nat × ConnectionQueue := c.request_as true

/-- `session_id_` of the mailbox of a slot. -/
def mailbox (c : ConnectionQueue) (sid : Nat) : Nat :=
  (c.v_requested[reset_admin sid]?).getD 0

def set_mailbox (c : ConnectionQueue) (sid v : Nat) : ConnectionQueue :=
  { c with v_requested := c.v_requested.set (reset_admin sid) v }

/-- The push to `q_free_` that ends `reject` and is all of `disconnect`. -/
def push_free (c : ConnectionQueue) (sid : Nat) : ConnectionQueue :=
  { c with q_free := (c.q_free.push sid c.admin_slots).2 }

def slot (c : ConnectionQueue) : Option Nat := c.q_requested.front

end ConnectionQueue

/-! ## The clients and the server -/

/-- Where a client stands in `request` (or `request_admin`) and the `wait` after it. -/
inductive Client
  | idle
  /-- The pop from `q_free_` threw. -/
  | refused
  /-- It has a sid that is not yet in `q_requested_`. -/
  | popped (sid : Nat)
  | requested (sid : Nat)
  /-- It is inside `entry.wait`. -/
  | waiting (sid : Nat)
  /-- Its wait saw a mailbox that is not 0. -/
  | ready (sid : Nat)
  /-- It has read `session_id_` and has not yet called `reuse`. -/
  | read (sid v : Nat)
  | returned (sid v : Nat)
  /-- Its wait timed out, and it has not yet called `reuse`. -/
  | timed_out (sid : Nat)
  | threw (sid : Nat)
deriving DecidableEq, Repr

/-- Where the listener thread stands in `accept` or `reject`. -/
inductive Listener
  | idle
  /-- `accept` has popped `q_requested_`. -/
  | accepting (sid id : Nat)
  /-- `reject` has popped `q_requested_`. -/
  | rejecting (sid : Nat)
  /-- `reject` has written the mailbox. -/
  | freeing (sid : Nat)
deriving DecidableEq, Repr

/-- The queue, its clients and its server. The lists are not in the source:
they record who holds what and in which order things were decided. -/
structure Sys where
  cq : ConnectionQueue
  client : Nat → Client
  listener : Listener
  /-- The sids granted and not yet given back to `q_free_`. -/
  granted : List Nat
  /-- Those of them that the server has not begun to give back. -/
  held : List Nat
  /-- Those of them that the server has accepted. -/
  accepted : List Nat
  /-- The clients that got a sid, newest first. -/
  started : List Nat
  /-- The clients in the order of their pushes to `q_requested_`. -/
  requests : List Nat
  /-- What the server answered, in the order of its pops from `q_requested_`. -/
  decisions : List Nat

def Sys.init (n as_n : Nat) : Sys where
  cq := .new n as_n
  client := fun _ => .idle
  listener := .idle
  granted := []
  held := []
  accepted := []
  started := []
  requests := []
  decisions := []

inductive Act
  | pop_free (c : Nat) (admin : Bool)
  | push_requested (c : Nat)
  | enter_wait (c : Nat)
  | wake (c : Nat)
  | time_out (c : Nat)
  | read (c : Nat)
  | reuse (c : Nat)
  | listen
  | accept (sid id : Nat)
  | accept_write
  | reject (sid : Nat)
  | reject_write
  | reject_push
  | disconnect (sid : Nat)
  | terminate
deriving DecidableEq, Repr

def Sys.set_client (s : Sys) (c : Nat) (x : Client) : Sys :=
  { s with client := Function.update s.client c x }

/-- One atomic step of a client, of the listener thread (`listen`, `accept` and
`reject`), of a session that ends (`disconnect`) or of the shutdown. The server
gives back only sids that were granted, each of them once. -/
def step (s : Sys) : Act → Option Sys
  | .pop_free c admin =>
    match s.client c with
    | .idle =>
      match s.cq.pop_free admin with
      | (.ok sid, cq) =>
        some { s.set_client c (.popped sid) with
          cq, granted := sid :: s.granted, held := sid :: s.held, started := c :: s.started }
      | (.error _, cq) => some { s.set_client c .refused with cq }
    | _ => none
  | .push_requested c =>
    match s.client c with
    | .popped sid =>
      match s.cq.push_requested sid with
      | (.ok _, cq) =>
        some { s.set_client c (.requested sid) with cq, requests := s.requests ++ [c] }
      | (.error _, cq) => some { s.set_client c (.threw sid) with cq }
    | _ => none
  | .enter_wait c =>
    match s.client c with
    | .requested sid =>
      -- `v_requested_.at` throws for a slot that has no mailbox
      if s.cq.terminate ∨ s.cq.v_requested.length ≤ reset_admin sid then
        some (s.set_client c (.threw sid))
      else some (s.set_client c (.waiting sid))
    | _ => none
  | .wake c =>
    match s.client c with
    | .waiting sid => if s.cq.mailbox sid ≠ 0 then some (s.set_client c (.ready sid)) else none
    | _ => none
  | .time_out c =>
    match s.client c with
    | .waiting sid => if s.cq.mailbox sid = 0 then some (s.set_client c (.timed_out sid)) else none
    | _ => none
  | .read c =>
    match s.client c with
    | .ready sid => some (s.set_client c (.read sid (s.cq.mailbox sid)))
    | _ => none
  | .reuse c =>
    match s.client c with
    | .read sid v => some { s.set_client c (.returned sid v) with cq := s.cq.set_mailbox sid 0 }
    | .timed_out sid => some { s.set_client c (.threw sid) with cq := s.cq.set_mailbox sid 0 }
    | _ => none
  | .listen =>
    if s.cq.q_requested.has_request then
      some { s with cq := { s.cq with session_id := (s.cq.session_id + 1) % 2 ^ 64 } }
    else none
  | .accept sid id =>
    if s.listener = .idle ∧ sid ∈ s.held then
      some { s with
        cq := { s.cq with q_requested := s.cq.q_requested.pop }
        listener := .accepting sid id
        decisions := s.decisions ++ [id] }
    else none
  | .accept_write =>
    match s.listener with
    | .accepting sid id =>
      some { s with
        cq := s.cq.set_mailbox sid id, listener := .idle, accepted := sid :: s.accepted }
    | _ => none
  | .reject sid =>
    if s.listener = .idle ∧ sid ∈ s.held then
      some { s with
        cq := { s.cq with q_requested := s.cq.q_requested.pop }
        listener := .rejecting sid
        held := s.held.erase sid
        decisions := s.decisions ++ [session_id_indicating_error] }
    else none
  | .reject_write =>
    match s.listener with
    | .rejecting sid =>
      some { s with
        cq := s.cq.set_mailbox sid session_id_indicating_error, listener := .freeing sid }
    | _ => none
  | .reject_push =>
    match s.listener with
    | .freeing sid =>
      some { s with
        cq := s.cq.push_free sid, listener := .idle, granted := s.granted.erase sid }
    | _ => none
  | .disconnect sid =>
    if sid ∈ s.held then
      some { s with
        cq := s.cq.push_free sid
        granted := s.granted.erase sid
        held := s.held.erase sid
        accepted := s.accepted.erase sid }
    else none
  | .terminate => some { s with cq := { s.cq with terminate := true } }

end tateyama_bootstrap.connection_queue
