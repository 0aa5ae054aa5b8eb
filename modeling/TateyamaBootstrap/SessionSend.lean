-- `send` of session_wire_container (transport/client_wire.h). The threads of a
-- client share one request wire and take turns on it by `mtx_send_`, while the
-- server reads the other end and may close it.
import Mathlib.Data.List.Flatten
import Mathlib.Data.List.Perm.Subperm
import TateyamaBootstrap.WireProgress

open runs

namespace tateyama_bootstrap.session_send

open simple_wire

/-! ## The threads of a session -/

/-- The arguments of a `send`. -/
structure Request where
  req_message : List UInt8
  slot_index : UInt16
deriving DecidableEq, Repr

theorem length_take_mod (data : List UInt8) :
    (data.take (data.length % 2 ^ 32)).length = (UInt32.ofNat data.length).toNat := by
  have hle := Nat.mod_le data.length (2 ^ 32)
  rw [List.length_take, Nat.min_eq_left hle, UInt32.toNat_ofNat']

/-- What `request_wire_container::write` gives to the wire. The length of the
header has 32 bits, and the wire takes as many bytes as the header says. -/
def Request.message (r : Request) : Message MessageHeader where
  header := { idx := r.slot_index, length := UInt32.ofNat r.req_message.length }
  payload := r.req_message.take (r.req_message.length % 2 ^ 32)
  length_payload := length_take_mod r.req_message

/-- A `send` and the thread that calls it. -/
structure Call where
  thread : Nat
  request : Request
deriving DecidableEq, Repr

def messages (calls : List Call) : List (Message MessageHeader) := calls.map (·.request.message)

/-- The calls of one thread. -/
def calls_of (u : Nat) (calls : List Call) : List Call := calls.filter (·.thread == u)

/-- Where a thread stands in `send`. -/
inductive Thread
  | out
  /-- It waits for `mtx_send_`. -/
  | locking (r : Request)
  /-- It has `mtx_send_` and is in `write`, or about to return from it. -/
  | writing
deriving DecidableEq, Repr

/-- The call that has not reached `write` yet. -/
def Thread.pending (u : Nat) : Thread → List Call
  | .locking r => [⟨u, r⟩]
  | _ => []

/-- The request wire, `mtx_send_` with its owner, and the threads. The rest is not
in the source: the calls in their order, the calls in the order in which they
reached `write`, and how many have returned. -/
structure Sys where
  wire : simple_wire.Sys MessageHeader
  mtx_send : Option Nat
  threads : Nat → Thread
  calls : List Call
  entered : List Call
  returned : Nat

def init (capacity : Nat) (buffer : Nat → UInt8) (header : MessageHeader) : Sys where
  wire := Sys.init capacity buffer header
  mtx_send := none
  threads := fun _ => .out
  calls := []
  entered := []
  returned := 0

inductive Act
  | call (u : Nat) (r : Request)
  | lock (u : Nat)
  /-- A step of `simple_wire::write`. -/
  | write (u : Nat) (a : simple_wire.Act MessageHeader)
  | unlock (u : Nat)
  /-- A step of the server's reader. -/
  | read (a : simple_wire.Act MessageHeader)
  /-- The server closes the wire. -/
  | close

/-- Who has the mutex enters `write` by the same step, since up to its first test
`write` reads nothing that is shared. -/
def step (s : Sys) : Act → Option Sys
  | .call u r =>
    match s.threads u with
    | .out =>
      some { s with
        threads := Function.update s.threads u (.locking r), calls := s.calls ++ [⟨u, r⟩] }
    | _ => none
  | .lock u =>
    match s.threads u, s.mtx_send with
    | .locking r, none =>
      (simple_wire.step s.wire (.write r.message)).map fun wire =>
        { s with
          wire, mtx_send := some u, threads := Function.update s.threads u .writing
          entered := s.entered ++ [⟨u, r⟩] }
    | _, _ => none
  | .write u a =>
    match s.threads u with
    | .writing =>
      if a.writes then (simple_wire.step s.wire a).map fun wire => { s with wire } else none
    | _ => none
  | .unlock u =>
    match s.threads u, s.wire.writer with
    | .writing, .idle =>
      some { s with
        mtx_send := none, threads := Function.update s.threads u .out, returned := s.returned + 1 }
    | _, _ => none
  | .read a =>
    if a.reads then (simple_wire.step s.wire a).map fun wire => { s with wire } else none
  | .close => (simple_wire.step s.wire .close).map fun wire => { s with wire }

/-- A step that goes on with the calls there are. -/
def Act.delivers : Act → Bool
  | .call .. | .close => false
  | _ => true

/-! ## What one step can do -/

section Cases

variable {s t : Sys}

theorem call_cases {u : Nat} {r : Request} (hs : step s (.call u r) = some t) :
    s.threads u = .out ∧ t = { s with
      threads := Function.update s.threads u (.locking r), calls := s.calls ++ [⟨u, r⟩] } := by
  simp only [step] at hs
  split at hs
  · rename_i hu
    cases hs
    exact ⟨hu, rfl⟩
  · cases hs

theorem lock_cases {u : Nat} (hs : step s (.lock u) = some t) :
    ∃ r wire, s.threads u = .locking r ∧ s.mtx_send = none ∧
      simple_wire.step s.wire (.write r.message) = some wire ∧ t = { s with
        wire, mtx_send := some u, threads := Function.update s.threads u .writing
        entered := s.entered ++ [⟨u, r⟩] } := by
  simp only [step] at hs
  split at hs
  · rename_i r hu hm
    obtain ⟨wire, hw, ht⟩ := Option.map_eq_some_iff.mp hs
    exact ⟨r, wire, hu, hm, hw, ht.symm⟩
  · cases hs

theorem unlock_cases {u : Nat} (hs : step s (.unlock u) = some t) :
    s.threads u = .writing ∧ s.wire.writer = .idle ∧ t = { s with
      mtx_send := none, threads := Function.update s.threads u .out
      returned := s.returned + 1 } := by
  simp only [step] at hs
  split at hs
  · rename_i hu hw
    cases hs
    exact ⟨hu, hw, rfl⟩
  · cases hs

theorem write_cases {u : Nat} {a : simple_wire.Act MessageHeader}
    (hs : step s (.write u a) = some t) :
    ∃ wire, s.threads u = .writing ∧ a.writes = true ∧
      simple_wire.step s.wire a = some wire ∧ t = { s with wire } := by
  simp only [step] at hs
  split at hs
  · rename_i hu
    split at hs
    · rename_i ha
      obtain ⟨wire, hw, ht⟩ := Option.map_eq_some_iff.mp hs
      exact ⟨wire, hu, ha, hw, ht.symm⟩
    · cases hs
  · cases hs

theorem read_cases {a : simple_wire.Act MessageHeader} (hs : step s (.read a) = some t) :
    ∃ wire, a.reads = true ∧ simple_wire.step s.wire a = some wire ∧ t = { s with wire } := by
  simp only [step] at hs
  split at hs
  · rename_i ha
    obtain ⟨wire, hw, ht⟩ := Option.map_eq_some_iff.mp hs
    exact ⟨wire, ha, hw, ht.symm⟩
  · cases hs

end Cases

/-! ## The order of the calls -/

/-- The calls of a thread reach `write` in their order, the thread in `write` owns
the mutex, and the writer is idle while nobody owns it. -/
structure Turns (s : Sys) : Prop where
  sent : s.wire.sent = messages s.entered
  order : ∀ u, calls_of u s.calls = calls_of u s.entered ++ (s.threads u).pending u
  owner : ∀ u, s.mtx_send = some u ↔ s.threads u = .writing
  idle : s.mtx_send = none → s.wire.writer = .idle
  returned : s.entered.length = s.returned + s.mtx_send.toList.length

theorem turns_init (capacity : Nat) (buffer : Nat → UInt8) (header : MessageHeader) :
    Turns (init capacity buffer header) := by
  refine ⟨rfl, fun _ => rfl, fun u => ?_, fun _ => rfl, rfl⟩
  constructor
  · intro h
    cases h
  · intro h
    cases h

section Turns

variable {s t : Sys}

theorem calls_of_snoc (u v : Nat) (r : Request) (calls : List Call) :
    calls_of u (calls ++ [⟨v, r⟩]) = calls_of u calls ++ if v = u then [⟨v, r⟩] else [] := by
  unfold calls_of
  rw [List.filter_append]
  by_cases h : v = u
  · simp [h]
  · simp [h]

/-- Every call that has reached `write` is one of the calls. -/
theorem Turns.subperm (h : Turns s) : s.entered.Subperm s.calls := by
  rw [List.subperm_iff_count]
  intro c
  have hc : (c.thread == c.thread) = true := beq_self_eq_true c.thread
  have h1 : (calls_of c.thread s.calls).count c = s.calls.count c :=
    List.count_filter (p := fun d : Call => d.thread == c.thread) hc
  have h2 : (calls_of c.thread s.entered).count c = s.entered.count c :=
    List.count_filter (p := fun d : Call => d.thread == c.thread) hc
  rw [← h1, ← h2, h.order c.thread, List.count_append]
  exact Nat.le_add_right _ _

theorem stream_messages (calls : List Call) :
    stream (messages calls) = calls.flatMap (·.request.message.bytes) := by
  unfold stream messages
  rw [List.flatMap_map]

/-- The bytes that were given to the wire are bytes of the calls. -/
theorem Turns.sent_le (h : Turns s) :
    (stream s.wire.sent).length ≤ (stream (messages s.calls)).length := by
  obtain ⟨calls, hperm, hsub⟩ := h.subperm
  rw [h.sent, stream_messages, stream_messages,
    ← (hperm.flatMap_right fun c : Call => c.request.message.bytes).length_eq]
  exact (hsub.flatMap fun c : Call => c.request.message.bytes).length_le

/-- A step of the wire by the owner of the mutex, by the reader or by `close`. -/
theorem Turns.wire_step (h : Turns s) {wire : simple_wire.Sys MessageHeader}
    (hsent : wire.sent = s.wire.sent)
    (hidle : s.mtx_send = none → wire.writer = s.wire.writer) : Turns { s with wire } := by
  refine ⟨hsent.trans h.sent, h.order, h.owner, ?_, h.returned⟩
  intro hm
  exact (hidle hm).trans (h.idle hm)

theorem turns_step (h : Turns s) {a : Act} (hs : step s a = some t) : Turns t := by
  have hwriting : ∀ u, s.threads u = .writing → s.mtx_send ≠ none := by
    intro u hu hm
    rw [(h.owner u).mpr hu] at hm
    cases hm
  cases a with
  | call u r =>
    obtain ⟨hu, rfl⟩ := call_cases hs
    refine ⟨h.sent, fun v => ?_, fun v => ?_, h.idle, h.returned⟩
    · dsimp only
      rw [calls_of_snoc, h.order v]
      by_cases huv : u = v
      · subst huv
        simp [hu, Thread.pending]
      · simp [huv, Function.update_of_ne (Ne.symm huv)]
    · by_cases huv : v = u
      · subst huv
        simp [h.owner v, hu]
      · simp [h.owner v, Function.update_of_ne huv]
  | lock u =>
    obtain ⟨r, wire, hu, hm, hw, rfl⟩ := lock_cases hs
    obtain ⟨-, j, rfl⟩ := simple_wire.write_cases hw
    refine ⟨?_, fun v => ?_, fun v => ?_, fun hn => (by cases hn), ?_⟩
    · simp [h.sent, messages]
    · dsimp only
      rw [calls_of_snoc, h.order v]
      by_cases huv : u = v
      · subst huv
        simp [hu, Thread.pending]
      · simp [huv, Function.update_of_ne (Ne.symm huv)]
    · by_cases huv : v = u
      · subst huv
        simp
      · have hne := h.owner v
        rw [hm] at hne
        simp [Function.update_of_ne huv, Ne.symm huv, ← hne]
    · have hret := h.returned
      rw [hm] at hret
      simp [hret]
  | write u a =>
    obtain ⟨wire, hu, ha, hw, rfl⟩ := write_cases hs
    exact h.wire_step (step_writes ha hw) fun hm => absurd hm (hwriting u hu)
  | unlock u =>
    obtain ⟨hu, hw, rfl⟩ := unlock_cases hs
    refine ⟨h.sent, fun v => ?_, fun v => ?_, fun _ => hw, ?_⟩
    · dsimp only
      rw [h.order v]
      by_cases huv : v = u
      · subst huv
        simp [hu, Thread.pending]
      · simp [Function.update_of_ne huv]
    · by_cases huv : v = u
      · subst huv
        simp
      · have hne : s.threads v ≠ .writing := by
          intro hv
          have hv' := (h.owner v).mpr hv
          rw [(h.owner u).mpr hu] at hv'
          exact huv (Option.some.inj hv').symm
        simp [Function.update_of_ne huv, hne]
    · have hret := h.returned
      rw [(h.owner u).mpr hu] at hret
      simpa using hret
  | read a =>
    obtain ⟨wire, ha, hw, rfl⟩ := read_cases hs
    exact h.wire_step (step_reads ha hw).1 fun _ => (step_reads ha hw).2
  | close =>
    cases hs
    exact h.wire_step rfl fun _ => rfl

end Turns

/-! ## Over every run -/

structure Inv (s : Sys) : Prop where
  turns : Turns s
  wire : simple_wire.Inv s.wire
  paced : Paced s.wire

section Runs

variable {s t : Sys} {a : Act}

theorem inv_init {capacity : Nat} (buffer : Nat → UInt8) (header : MessageHeader)
    (hsize : WireHeader.size MessageHeader < capacity) (hcap : capacity < 2 ^ 64) :
    Inv (init capacity buffer header) :=
  ⟨turns_init capacity buffer header, simple_wire.inv_init buffer header hsize hcap,
    paced_init capacity buffer header⟩

/-- The wire moves by steps of its own, and the calls only grow. -/
theorem step_wire (hs : step s a = some t) :
    (t.wire = s.wire ∨ ∃ b, simple_wire.step s.wire b = some t.wire) ∧ s.calls <+: t.calls := by
  cases a with
  | call u r =>
    obtain ⟨-, rfl⟩ := call_cases hs
    exact ⟨.inl rfl, List.prefix_append ..⟩
  | lock u =>
    obtain ⟨r, wire, -, -, hw, rfl⟩ := lock_cases hs
    exact ⟨.inr ⟨_, hw⟩, List.prefix_refl _⟩
  | write u a =>
    obtain ⟨wire, -, -, hw, rfl⟩ := write_cases hs
    exact ⟨.inr ⟨_, hw⟩, List.prefix_refl _⟩
  | unlock u =>
    obtain ⟨-, -, rfl⟩ := unlock_cases hs
    exact ⟨.inl rfl, List.prefix_refl _⟩
  | read a =>
    obtain ⟨wire, -, hw, rfl⟩ := read_cases hs
    exact ⟨.inr ⟨_, hw⟩, List.prefix_refl _⟩
  | close =>
    cases hs
    exact ⟨.inr ⟨.close, rfl⟩, List.prefix_refl _⟩

theorem stream_mono {calls calls' : List Call} (h : calls <+: calls') :
    (stream (messages calls)).length ≤ (stream (messages calls')).length := by
  rw [stream_messages, stream_messages]
  exact (h.sublist.flatMap fun c : Call => c.request.message.bytes).length_le

theorem inv_step (h : Inv s) (hs : step s a = some t)
    (htotal : (stream (messages t.calls)).length < 2 ^ 64) : Inv t := by
  have ht := turns_step h.turns hs
  rcases (step_wire hs).1 with hw | ⟨b, hw⟩
  · exact ⟨ht, hw ▸ h.wire, hw ▸ h.paced⟩
  · have hi := simple_wire.inv_step h.wire hw (Nat.lt_of_le_of_lt ht.sent_le htotal)
    exact ⟨ht, hi, paced_step h.paced h.wire hw hi⟩

theorem run_inv {acts : List Act} (h : Inv s) (hr : RunOf step Free s acts t)
    (htotal : (stream (messages t.calls)).length < 2 ^ 64) : Inv t := by
  refine hr.inv (I := fun t => (stream (messages t.calls)).length < 2 ^ 64 → Inv t)
    (fun _ => h) ?_ htotal
  intro t a u ih _ hs hu
  exact inv_step (ih (Nat.lt_of_le_of_lt (stream_mono (step_wire hs).2) hu)) hs hu

end Runs

/-! ## The sends take turns -/

/-- One thread at a time is in `write`, who gets the mutex finds the wire ready for
it, the calls of a thread reach the wire in their order and all of them when the
thread is back, and the server gets whole requests, in the order of the mutex. -/
structure InTurn (s : Sys) : Prop where
  exclusive : ∀ u v, s.threads u = .writing → s.threads v = .writing → u = v
  proceeds : ∀ u r, s.threads u = .locking r → s.mtx_send = none → (step s (.lock u)).isSome
  order : ∀ u, calls_of u s.entered <+: calls_of u s.calls
  complete : ∀ u, s.threads u = .out → calls_of u s.entered = calls_of u s.calls
  received : s.wire.received <+: (messages s.entered).map Message.parts

theorem Turns.locks {s : Sys} (h : Turns s) {u : Nat} {r : Request}
    (hu : s.threads u = .locking r) (hm : s.mtx_send = none) : (step s (.lock u)).isSome := by
  simp [step, hu, hm, simple_wire.step, h.idle hm]

theorem Inv.inTurn {s : Sys} (h : Inv s) : InTurn s := by
  refine ⟨?_, fun u r => h.turns.locks, ?_, ?_, ?_⟩
  · intro u v hu hv
    have hu' := (h.turns.owner u).mpr hu
    rw [(h.turns.owner v).mpr hv] at hu'
    exact (Option.some.inj hu').symm
  · intro u
    rw [h.turns.order u]
    exact List.prefix_append ..
  · intro u hu
    simp [h.turns.order u, hu, Thread.pending]
  · rw [h.wire.received, h.turns.sent]
    exact (List.take_prefix _ _).map _

theorem the_sends_of_a_session_take_turns (capacity : Nat) (buffer : Nat → UInt8)
    (header : MessageHeader) (acts : List Act) (s : Sys)
    (hsize : WireHeader.size MessageHeader < capacity) (hcap : capacity < 2 ^ 64)
    (hr : RunOf step Free (init capacity buffer header) acts s)
    (htotal : (stream (messages s.calls)).length < 2 ^ 64) : InTurn s :=
  (run_inv (inv_init buffer header hsize hcap) hr htotal).inTurn

/-- Thread 0 calls first and thread 1 overtakes it at the mutex. The request of
thread 1 goes through a ring of seven bytes in two chunks. -/
def overtake : List Act :=
  [.call 0 ⟨[9], 4⟩, .call 1 ⟨[1, 2, 3], 5⟩, .lock 1, .write 1 .wait, .write 1 .check,
    .write 1 .store, .write 1 .publish, .read .copy_header, .read .read, .read .advance,
    .write 1 .wait, .write 1 .check, .write 1 .store, .write 1 .publish, .unlock 1, .lock 0,
    .read .read_chunk, .read .advance]

/-- What `overtake` has brought about. -/
def overtaken (s : Sys) : Bool :=
  s.threads 0 = .writing ∧ s.threads 1 = .out ∧ s.wire.received = [(⟨5, 3⟩, [1, 2, 3])] ∧
    s.wire.closed = false ∧ s.calls = [⟨0, [9], 4⟩, ⟨1, [1, 2, 3], 5⟩]

theorem the_sends_of_a_session_take_turns_at_the_mutex :
    ∃ s, RunOf step Free (init 7 (fun _ => 0) ⟨0, 0⟩) overtake s ∧ overtaken s = true ∧
      InTurn s := by
  obtain ⟨s, hr, hp⟩ := RunOf.exists_free (s := init 7 (fun _ => 0) ⟨0, 0⟩) (p := overtaken)
    (by decide : (exec step _ overtake).any _ = true)
  have hcalls : s.calls = [⟨0, [9], 4⟩, ⟨1, [1, 2, 3], 5⟩] := by
    simp only [overtaken, decide_eq_true_eq] at hp
    exact hp.2.2.2.2
  refine ⟨s, hr, hp, ?_⟩
  exact the_sends_of_a_session_take_turns 7 _ _ _ s (by decide) (by decide) hr
    (by rw [hcalls]; decide)

/-! ## The sends of an open session arrive -/

/-- How far the calls have come. -/
def Sys.progress (s : Sys) : Nat := s.entered.length + s.returned + s.wire.clock

/-- The most that the calls can still ask for. -/
def bound (calls : List Call) : Nat :=
  8 * (stream (messages calls)).length + 2 * calls.length + 5

section Progress

variable {s t : Sys} {a : Act}

theorem Inv.progress_le (h : Inv s) : s.progress ≤ bound s.calls := by
  have h1 := h.wire.clock_le
  have h2 := h.turns.sent_le
  have h3 := h.turns.subperm.length_le
  have h4 := h.turns.returned
  unfold Sys.progress bound
  omega

/-- Every step that goes on with the calls counts. -/
theorem Inv.progress_step (h : Inv s) (hopen : s.wire.closed = false) (ha : a.delivers = true)
    (hs : step s a = some t) :
    s.progress < t.progress ∧ t.wire.closed = false ∧ t.calls = s.calls := by
  cases a with
  | call u r => cases ha
  | close => cases ha
  | lock u =>
    obtain ⟨r, wire, -, -, hw, rfl⟩ := lock_cases hs
    obtain ⟨hi, j, rfl⟩ := simple_wire.write_cases hw
    refine ⟨?_, hopen, rfl⟩
    simp [Sys.progress, simple_wire.Sys.clock, hi, Writer.clock]
  | write u a =>
    obtain ⟨wire, -, hb, hw, rfl⟩ := write_cases hs
    obtain ⟨hc, ho⟩ := h.wire.clock_writes hopen hb hw
    exact ⟨Nat.add_lt_add_left hc _, ho, rfl⟩
  | unlock u =>
    obtain ⟨-, -, rfl⟩ := unlock_cases hs
    refine ⟨?_, hopen, rfl⟩
    simp [Sys.progress]
  | read a =>
    obtain ⟨wire, hb, hw, rfl⟩ := read_cases hs
    obtain ⟨hc, ho⟩ := h.wire.clock_reads h.paced hopen hb hw
    exact ⟨Nat.add_lt_add_left hc _, ho, rfl⟩

theorem Inv.progress_run (h : Inv s) (hopen : s.wire.closed = false)
    (htotal : (stream (messages s.calls)).length < 2 ^ 64) {acts : List Act}
    (hr : RunOf step (fun _ a => a.delivers = true) s acts t) :
    Inv t ∧ t.wire.closed = false ∧ t.calls = s.calls ∧
      s.progress + acts.length ≤ t.progress := by
  refine hr.inv_length (I := fun n t => Inv t ∧ t.wire.closed = false ∧ t.calls = s.calls ∧
    s.progress + n ≤ t.progress) ⟨h, hopen, rfl, Nat.le_refl _⟩ ?_
  rintro n t a u ⟨hi, ho, hc, hp⟩ ha hs
  obtain ⟨hlt, ho', hc'⟩ := hi.progress_step ho ha hs
  refine ⟨inv_step hi hs ?_, ho', hc'.trans hc, by omega⟩
  rw [hc', hc]
  exact htotal

/-- When nobody can go on, every call has returned and every request has arrived. -/
theorem Inv.stuck (h : Inv s) (hopen : s.wire.closed = false)
    (hstuck : ∀ a : Act, a.delivers = true → step s a = none) :
    (∀ u, s.threads u = .out) ∧
      s.wire.received = (messages s.entered).map Message.parts := by
  have hread : ∀ b : simple_wire.Act MessageHeader, b.reads = true →
      simple_wire.step s.wire b = none := by
    intro b hb
    have := hstuck (.read b) rfl
    simpa [step, hb] using this
  have hwrite : ∀ b : simple_wire.Act MessageHeader, b.writes = true →
      simple_wire.step s.wire b = none := by
    intro b hb
    cases hm : s.mtx_send with
    | none =>
      have hi := h.turns.idle hm
      cases b with
      | wait | check | store | publish => simp [simple_wire.step, hi]
      | _ => cases hb
    | some u =>
      have := hstuck (.write u b) rfl
      simpa [step, (h.turns.owner u).mp hm, hb] using this
  obtain ⟨hidle, hrec⟩ := h.wire.quiet h.paced hopen hwrite hread
  rw [h.turns.sent] at hrec
  have hfree : s.mtx_send = none := by
    cases hm : s.mtx_send with
    | none => rfl
    | some u =>
      have := hstuck (.unlock u) rfl
      simp [step, (h.turns.owner u).mp hm, hidle] at this
  refine ⟨?_, hrec⟩
  intro u
  cases hu : s.threads u with
  | out => rfl
  | locking r =>
    have := hstuck (.lock u) rfl
    have hl := h.turns.locks hu hfree
    rw [this] at hl
    cases hl
  | writing =>
    have := (h.turns.owner u).mpr hu
    rw [hfree] at this
    cases this

end Progress

/-- While the server reads and does not close the wire, the calls there are come to
an end after a bounded number of steps of any order, and then each of them has
returned and its whole request has arrived. -/
theorem the_sends_of_an_open_session_arrive (capacity : Nat) (buffer : Nat → UInt8)
    (header : MessageHeader) (acts more : List Act) (s t : Sys)
    (hsize : WireHeader.size MessageHeader < capacity) (hcap : capacity < 2 ^ 64)
    (hr : RunOf step Free (init capacity buffer header) acts s)
    (htotal : (stream (messages s.calls)).length < 2 ^ 64) (hopen : s.wire.closed = false)
    (hmore : RunOf step (fun _ a => a.delivers = true) s more t) :
    more.length ≤ bound s.calls ∧
      ((∀ a : Act, a.delivers = true → step t a = none) →
        (∀ u, t.threads u = .out) ∧ (∀ u, calls_of u t.entered = calls_of u s.calls) ∧
          t.wire.received = (messages t.entered).map Message.parts) := by
  have h := run_inv (inv_init buffer header hsize hcap) hr htotal
  obtain ⟨hi, ho, hc, hp⟩ := h.progress_run hopen htotal hmore
  constructor
  · have := hi.progress_le
    rw [hc] at this
    omega
  · intro hstuck
    obtain ⟨hout, hrec⟩ := hi.stuck ho hstuck
    refine ⟨hout, fun u => ?_, hrec⟩
    rw [← hc]
    exact hi.inTurn.complete u (hout u)

/-- The rest of the calls of `overtake`. -/
def arrive : List Act :=
  [.write 0 .wait, .write 0 .check, .write 0 .store, .write 0 .publish, .unlock 0,
    .read .copy_header, .read .read, .read .advance]

def arrived (s : Sys) : Bool :=
  s.threads 0 = .out ∧ s.threads 1 = .out ∧
    s.wire.received = [(⟨5, 3⟩, [1, 2, 3]), (⟨4, 1⟩, [9])]

theorem the_sends_of_an_open_session_arrive_after_an_overtake :
    ∃ s t, RunOf step Free (init 7 (fun _ => 0) ⟨0, 0⟩) overtake s ∧
      RunOf step (fun _ a => a.delivers = true) s arrive t ∧ arrived t = true ∧
      arrive.length ≤ bound s.calls := by
  obtain ⟨s, hr, hp⟩ := RunOf.exists_free (s := init 7 (fun _ => 0) ⟨0, 0⟩)
    (p := fun s => overtaken s && (exec (guarded step fun _ a => a.delivers) s arrive).any arrived)
    (by decide : (exec step _ overtake).any _ = true)
  obtain ⟨ho, ha⟩ := Bool.and_eq_true_iff.mp hp
  simp only [overtaken, decide_eq_true_eq] at ho
  obtain ⟨t, ht, hat⟩ := RunOf.exists_of_exec (C := fun _ (a : Act) => a.delivers = true)
    (fun _ _ h => h) ha
  refine ⟨s, t, hr, ht, hat, ?_⟩
  exact (the_sends_of_an_open_session_arrive 7 _ _ _ _ s t (by decide) (by decide) hr
    (by rw [ho.2.2.2.2]; decide) ho.2.2.2.1 ht).1

end tateyama_bootstrap.session_send
