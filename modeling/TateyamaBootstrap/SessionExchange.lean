-- A session as `transport::send` uses it (transport/transport.h): a thread finds a
-- slot, sends its request with the index of the slot, and receives one response. The
-- server reads the requests from one wire, and writes the responses to the other in an
-- order of its own (worker of test_utils/endpoint.h). Here nothing is asked of the
-- answers: what each of them answers is what the server has read.
import Mathlib.Data.List.Nodup
import TateyamaBootstrap.SessionDemux
import TateyamaBootstrap.SessionSend
import TateyamaBootstrap.WireFlags

open runs

namespace tateyama_bootstrap.session_wire

open simple_wire

/-! ## Responses that are bodies -/

/-- No request is answered with a head. -/
def bodies (_ : Nat) : Bool := false

/-- The response wire, its slots and its threads, while every response is a body. -/
structure Bodies (s : Sys) : Prop where
  exclusive : Exclusive s
  wire : simple_wire.Inv s.wire
  stays_open : Open s
  demux : Demux bodies s.core

theorem bodies_init (capacity : Nat) (buffer : Nat → UInt8)
    (hsize : WireHeader.size ResponseHeader < capacity) (hcap : capacity < 2 ^ 64) :
    Bodies (Sys.init capacity buffer) :=
  ⟨exclusive_init capacity buffer, inv_init buffer _ hsize hcap,
    ⟨rfl, rfl, fun t => by simp [Sys.init]⟩, demux_init bodies capacity buffer⟩

section Bodies

variable {s t : Sys} {a : Act} {u : Nat}

theorem dispatch_cases (hs : step s (.dispatch u) = some t) : s.pc u = .header := by
  simp only [step] at hs
  split at hs
  · assumption
  · cases hs

/-- A thread that finds its message on the wire has nothing in its slot, since there
is one message for each slot. -/
theorem Bodies.inTurn (h : Bodies s) (hs : step s a = some t) : InTurn s.core a := by
  cases a with
  | dispatch u =>
    intro hidx
    have hview : s.core.view u = .header := view_of_pc (dispatch_cases hs)
    obtain ⟨hholds, hreader⟩ : Holds bodies s.core u ∧ s.core.wire.reader ≠ .idle := by
      have hcarries := h.demux.carries u
      rwa [hview] at hcarries
    obtain ⟨-, m, hm, hheader⟩ := h.demux.current h.wire
      (h.exclusive.one_busy.alone (by rw [hview]; rfl)) (by rw [hview]; rfl) hreader
    obtain ⟨v, hv, hslot, hplace⟩ := h.demux.next hm
    obtain rfl : v = u := by
      apply h.demux.apart v u hv hholds
      rw [hslot, ← hheader, hidx]
    have hlen := (h.demux.answers v).length_le
    have hlt := (List.getElem?_eq_some_iff.mp hplace).1
    have hone : expects (bodies v) = 1 := rfl
    rw [Slot.valid, decide_eq_false_iff_not]
    omega
  | _ => trivial

theorem Bodies.core (h : Bodies s) (hs : step s a = some t) : CoreStep s.core a t.core := by
  refine step_core h.exclusive ?_ hs
  cases a with
  | examine u => exact fun hp => absurd hp (h.stays_open.loaded u)
  | _ => trivial

theorem bodies_step (h : Bodies s) (hp : Polite bodies s.core a) (hs : step s a = some t)
    (htotal : (stream t.wire.sent).length < 2 ^ 64) : Bodies t := by
  have hcore := h.core hs
  have hi : simple_wire.Inv t.wire := core_inv hcore h.wire htotal
  refine ⟨exclusive_step h.exclusive hs, hi, open_step h.stays_open ?_ ?_ hs, ?_⟩
  · rintro rfl
    exact hp
  · rintro rfl
    exact hp
  · exact demux_step h.demux h.wire hi h.exclusive.one_busy hp (h.inTurn hs) hcore

end Bodies

/-! ## What a step leaves alone -/

section Frame

variable {c d : Core} {a : Act} {t : Nat}

theorem view_update_ne {view : Nat → View} {u : Nat} {v : View} (ht : view t ≠ .no_slot)
    (hv : v ≠ .no_slot) : Function.update view u v t ≠ .no_slot := by
  by_cases htu : t = u
  · subst htu
    rwa [Function.update_self]
  · rwa [Function.update_of_ne htu]

/-- A thread keeps the slot that it has found. -/
theorem core_keeps_slot (h : CoreStep c a d) (ht : c.view t ≠ .no_slot) :
    d.view t ≠ .no_slot ∧ d.slot_index t = c.slot_index t := by
  cases h with
  | still | wire | write | answer => exact ⟨ht, rfl⟩
  | @take u i hu =>
    have htu : t ≠ u := by
      rintro rfl
      exact ht hu
    exact ⟨view_update_ne ht (by simp), Function.update_of_ne htu _ _⟩
  | _ => exact ⟨view_update_ne ht (by simp), rfl⟩

theorem core_keeps_answers (h : CoreStep c a d) (ha : ∀ u m, a ≠ .answer u m) :
    d.answers = c.answers := by
  cases h with
  | answer => exact absurd rfl (ha _ _)
  | _ => rfl

end Frame

end tateyama_bootstrap.session_wire

namespace tateyama_bootstrap.session_exchange

open simple_wire session_wire

/-! ## The session -/

def RESPONSE_BODY : UInt16 := 1

/-- What the server writes as the response to the request with that index. -/
def response (idx : UInt16) (reply_message : List UInt8) : Message ResponseHeader where
  header := { idx, type := RESPONSE_BODY, length := UInt32.ofNat reply_message.length }
  payload := reply_message.take (reply_message.length % 2 ^ 32)
  length_payload := session_send.length_take_mod reply_message

/-- Both wires with the threads of the client. A thread that calls `transport::send`
again counts as another thread. `replies` is not in the source: it records what the
server has written for each request that it has read, by the place of the request. -/
structure Sys where
  requests : session_send.Sys
  responses : session_wire.Sys
  replies : Nat → Option (List UInt8)

def init (request_capacity : Nat) (request_buffer : Nat → UInt8) (header : MessageHeader)
    (response_capacity : Nat) (response_buffer : Nat → UInt8) : Sys where
  requests := session_send.init request_capacity request_buffer header
  responses := session_wire.Sys.init response_capacity response_buffer
  replies := fun _ => none

/-- The thread whose request is the k-th on the request wire. -/
def Sys.asker (s : Sys) (k : Nat) : Nat := (s.requests.entered[k]?.map (·.thread)).getD 0

inductive Act
  /-- The thread has its slot and calls `send`. -/
  | send (t : Nat) (req_message : List UInt8)
  /-- `send` returns. -/
  | sent (t : Nat)
  /-- The thread calls `receive`. -/
  | receive (t : Nat)
  /-- The server begins to write its response to the k-th request that it has read. -/
  | reply (k : Nat) (reply_message : List UInt8)
  /-- A step inside `send`, or of the server that reads a request. -/
  | request (a : session_send.Act)
  /-- A step inside `search_slot` or `receive`, or of the server that writes a response. -/
  | response (a : session_wire.Act)

def on_requests : session_send.Act → Bool
  | .lock _ | .write _ _ | .read _ => true
  | _ => false

def on_responses : session_wire.Act → Bool
  | .send _ | .call _ | .write _ | .answer _ _ | .close | .notify_shutdown => false
  | _ => true

def step (s : Sys) : Act → Option Sys
  | .send t req_message =>
    match s.responses.pc t, session_send.calls_of t s.requests.calls with
    | .send, [] =>
      (session_send.step s.requests
        (.call t ⟨req_message, UInt16.ofNat (s.responses.slot_index t)⟩)).map
          fun requests => { s with requests }
    | _, _ => none
  | .sent t =>
    match session_send.step s.requests (.unlock t), session_wire.step s.responses (.send t) with
    | some requests, some responses => some { s with requests, responses }
    | _, _ => none
  | .receive t =>
    match s.responses.results t with
    | [] => (session_wire.step s.responses (.call t)).map fun responses => { s with responses }
    | _ => none
  | .reply k reply_message =>
    match s.requests.wire.received[k]?, s.replies k with
    | some (header, _), none =>
      (session_wire.step s.responses
        (.answer (s.asker k) (response header.idx reply_message))).map
          fun responses =>
            { s with responses, replies := Function.update s.replies k (some reply_message) }
    | _, _ => none
  | .request a =>
    if on_requests a then
      (session_send.step s.requests a).map fun requests => { s with requests }
    else none
  | .response a =>
    if on_responses a then
      (session_wire.step s.responses a).map fun responses => { s with responses }
    else none

/-! ## What one step can do -/

section Cases

variable {s t : Sys}

theorem send_cases {u : Nat} {req_message : List UInt8}
    (hs : step s (.send u req_message) = some t) :
    ∃ requests, s.responses.pc u = .send ∧ session_send.calls_of u s.requests.calls = [] ∧
      session_send.step s.requests
        (.call u ⟨req_message, UInt16.ofNat (s.responses.slot_index u)⟩) = some requests ∧
      t = { s with requests } := by
  simp only [step] at hs
  split at hs
  · rename_i hpc hcalls
    obtain ⟨requests, hr, ht⟩ := Option.map_eq_some_iff.mp hs
    exact ⟨requests, hpc, hcalls, hr, ht.symm⟩
  · cases hs

theorem sent_cases {u : Nat} (hs : step s (.sent u) = some t) :
    ∃ requests responses, session_send.step s.requests (.unlock u) = some requests ∧
      session_wire.step s.responses (.send u) = some responses ∧
      t = { s with requests, responses } := by
  simp only [step] at hs
  split at hs
  · rename_i requests responses hq hr
    cases hs
    exact ⟨requests, responses, hq, hr, rfl⟩
  · cases hs

theorem receive_cases {u : Nat} (hs : step s (.receive u) = some t) :
    ∃ responses, s.responses.results u = [] ∧
      session_wire.step s.responses (.call u) = some responses ∧ t = { s with responses } := by
  simp only [step] at hs
  split at hs
  · rename_i hres
    obtain ⟨responses, hr, ht⟩ := Option.map_eq_some_iff.mp hs
    exact ⟨responses, hres, hr, ht.symm⟩
  · cases hs

theorem reply_cases {k : Nat} {reply_message : List UInt8}
    (hs : step s (.reply k reply_message) = some t) :
    ∃ header payload responses, s.requests.wire.received[k]? = some (header, payload) ∧
      s.replies k = none ∧
      session_wire.step s.responses
        (.answer (s.asker k) (response header.idx reply_message)) = some responses ∧
      t = { s with responses, replies := Function.update s.replies k (some reply_message) } := by
  simp only [step] at hs
  split at hs
  · rename_i header payload hrec hnone
    obtain ⟨responses, hr, ht⟩ := Option.map_eq_some_iff.mp hs
    exact ⟨header, payload, responses, hrec, hnone, hr, ht.symm⟩
  · cases hs

theorem request_cases {a : session_send.Act} (hs : step s (.request a) = some t) :
    ∃ requests, on_requests a = true ∧ session_send.step s.requests a = some requests ∧
      t = { s with requests } := by
  simp only [step] at hs
  split at hs
  · rename_i ha
    obtain ⟨requests, hr, ht⟩ := Option.map_eq_some_iff.mp hs
    exact ⟨requests, ha, hr, ht.symm⟩
  · cases hs

theorem response_cases {a : session_wire.Act} (hs : step s (.response a) = some t) :
    ∃ responses, on_responses a = true ∧ session_wire.step s.responses a = some responses ∧
      t = { s with responses } := by
  simp only [step] at hs
  split at hs
  · rename_i ha
    obtain ⟨responses, hr, ht⟩ := Option.map_eq_some_iff.mp hs
    exact ⟨responses, ha, hr, ht.symm⟩
  · cases hs

end Cases

/-! ## The two halves together -/

section Requests

variable {q r : session_send.Sys}

theorem entered_nodup (h : session_send.Turns q) (ho : (q.calls.map (·.thread)).Nodup) :
    (q.entered.map (·.thread)).Nodup := by
  obtain ⟨calls, hperm, hsub⟩ := h.subperm
  have hsub' := hsub.map (·.thread)
  exact (hperm.map (·.thread)).nodup_iff.mp (ho.sublist hsub')

theorem received_le (h : session_send.Inv q) : q.wire.received.length ≤ q.entered.length := by
  have hle := h.wire.received_le
  rwa [h.turns.sent, session_send.messages, List.length_map] at hle

theorem received_mono {a : session_send.Act} (h : session_send.Inv q)
    (hs : session_send.step q a = some r) : q.wire.received.length ≤ r.wire.received.length := by
  rcases (session_send.step_wire hs).1 with hw | ⟨b, hw⟩
  · rw [hw]
  · exact (moves_of_step h.wire hw).received

/-- Inside of `send` a call may reach the wire. -/
theorem entered_cases {a : session_send.Act} (ha : on_requests a = true)
    (hs : session_send.step q a = some r) :
    r.calls = q.calls ∧ (r.entered = q.entered ∨ ∃ c, r.entered = q.entered ++ [c]) := by
  cases a with
  | call | unlock | close => cases ha
  | lock u =>
    obtain ⟨req, wire, -, -, -, rfl⟩ := session_send.lock_cases hs
    exact ⟨rfl, .inr ⟨_, rfl⟩⟩
  | write u b =>
    obtain ⟨wire, -, -, -, rfl⟩ := session_send.write_cases hs
    exact ⟨rfl, .inl rfl⟩
  | read b =>
    obtain ⟨wire, -, -, rfl⟩ := session_send.read_cases hs
    exact ⟨rfl, .inl rfl⟩

theorem not_called {calls : List session_send.Call} {u : Nat} {c : session_send.Call}
    (hnone : session_send.calls_of u calls = []) (hc : c ∈ calls) : c.thread ≠ u := by
  intro hcu
  have hmem : c ∈ session_send.calls_of u calls := List.mem_filter.mpr ⟨hc, beq_iff_eq.mpr hcu⟩
  rw [hnone] at hmem
  cases hmem

/-- What the server has read is the request of the call in the same place. -/
theorem received_get (h : session_send.Inv q) {k : Nat} {parts : MessageHeader × List UInt8}
    (hk : q.wire.received[k]? = some parts) :
    ∃ c, q.entered[k]? = some c ∧ parts = c.request.message.parts := by
  obtain ⟨rest, hrest⟩ := h.inTurn.received
  have hget : ((session_send.messages q.entered).map Message.parts)[k]? = some parts := by
    rw [← hrest, List.getElem?_append_left (List.getElem?_eq_some_iff.mp hk).1]
    exact hk
  rw [session_send.messages, List.map_map, List.getElem?_map] at hget
  obtain ⟨c, hc, hparts⟩ := Option.map_eq_some_iff.mp hget
  exact ⟨c, hc, hparts.symm⟩

end Requests

/-- The index of a request is the slot of its thread, no thread sends twice, and what
answers a thread are the replies to its request. -/
structure Linked (s : Sys) : Prop where
  slot : ∀ c ∈ s.requests.calls,
    c.request.slot_index.toNat = s.responses.slot_index c.thread ∧
      s.responses.core.view c.thread ≠ .no_slot
  once : (s.requests.calls.map (·.thread)).Nodup
  answered : ∀ (k : Nat) c, s.requests.entered[k]? = some c →
    s.responses.answers c.thread =
      (s.replies k).toList.map (response c.request.slot_index)
  unanswered : ∀ t, (∀ c ∈ s.requests.entered, c.thread ≠ t) → s.responses.answers t = []
  replied : ∀ (k : Nat) p, s.replies k = some p → k < s.requests.wire.received.length

section Linked

variable {s : Sys}

theorem linked_init (request_capacity : Nat) (request_buffer : Nat → UInt8)
    (header : MessageHeader) (response_capacity : Nat) (response_buffer : Nat → UInt8) :
    Linked (init request_capacity request_buffer header response_capacity response_buffer) := by
  refine ⟨?_, List.nodup_nil, ?_, fun _ _ => rfl, ?_⟩
  · intro c hc
    cases hc
  · intro k c hc
    cases hc
  · intro k p hp
    cases hp

/-- A thread that keeps its slot keeps it for its call. -/
theorem Linked.slot_kept (h : Linked s) {responses : session_wire.Sys}
    (hslot : ∀ t, s.responses.core.view t ≠ .no_slot →
      responses.core.view t ≠ .no_slot ∧ responses.slot_index t = s.responses.slot_index t)
    {c : session_send.Call} (hc : c ∈ s.requests.calls) :
    c.request.slot_index.toNat = responses.slot_index c.thread ∧
      responses.core.view c.thread ≠ .no_slot := by
  obtain ⟨hidx, hview⟩ := h.slot c hc
  obtain ⟨hview', hidx'⟩ := hslot c.thread hview
  exact ⟨hidx.trans hidx'.symm, hview'⟩

/-- The call that reaches the wire now had no reply before. -/
theorem Linked.set_requests (h : Linked s) {requests : session_send.Sys}
    (hturns : session_send.Turns requests) (hcalls : requests.calls = s.requests.calls)
    (hentered : requests.entered = s.requests.entered ∨
      ∃ c, requests.entered = s.requests.entered ++ [c])
    (hle : s.requests.wire.received.length ≤ s.requests.entered.length)
    (hmono : s.requests.wire.received.length ≤ requests.wire.received.length) :
    Linked { s with requests } := by
  have honce : (requests.calls.map (·.thread)).Nodup := hcalls ▸ h.once
  refine ⟨?_, honce, ?_, ?_, ?_⟩
  · rw [show ({ s with requests } : Sys).requests.calls = s.requests.calls from hcalls]
    exact h.slot
  · intro k c hc
    rcases hentered with he | ⟨c', he⟩
    · exact h.answered k c (by rwa [← he])
    · have hnodup := entered_nodup hturns honce
      replace hc : (s.requests.entered ++ [c'])[k]? = some c := by rwa [← he]
      rcases Nat.lt_or_ge k s.requests.entered.length with hk | hk
      · rw [List.getElem?_append_left hk] at hc
        exact h.answered k c hc
      · obtain ⟨hlen, hget⟩ := List.getElem?_eq_some_iff.mp hc
        have hk' : k = s.requests.entered.length := by
          simp only [List.length_append, List.length_singleton] at hlen
          omega
        obtain rfl : c' = c := by
          subst hk'
          simpa using hget
        have hnone : s.replies k = none := by
          cases hp : s.replies k with
          | none => rfl
          | some p =>
            have hlt := h.replied k p hp
            omega
        have hfresh : s.responses.answers c'.thread = [] := by
          apply h.unanswered
          intro d hd heq
          rw [he, List.map_append, List.nodup_append] at hnodup
          exact hnodup.2.2 _ (List.mem_map_of_mem hd) _ (by simp) heq
        show s.responses.answers c'.thread = _
        rw [hfresh, hnone]
        rfl
  · intro t ht
    apply h.unanswered
    intro c hc
    apply ht c
    rcases hentered with he | ⟨c', he⟩
    · rwa [show ({ s with requests } : Sys).requests.entered = s.requests.entered from he]
    · rw [show ({ s with requests } : Sys).requests.entered = s.requests.entered ++ [c'] from he]
      exact List.mem_append_left _ hc
  · intro k p hp
    exact Nat.lt_of_lt_of_le (h.replied k p hp) hmono

/-- A thread with a slot sends its only request. -/
theorem Linked.call (h : Linked s) {u : Nat} {r : session_send.Request}
    {threads : Nat → session_send.Thread}
    (hnone : session_send.calls_of u s.requests.calls = [])
    (hslot : r.slot_index.toNat = s.responses.slot_index u)
    (hview : s.responses.core.view u ≠ .no_slot) :
    Linked { s with
      requests := { s.requests with threads, calls := s.requests.calls ++ [⟨u, r⟩] } } := by
  refine ⟨?_, ?_, h.answered, h.unanswered, h.replied⟩
  · intro c hc
    rcases List.mem_append.mp hc with hc | hc
    · exact h.slot c hc
    · obtain rfl := List.mem_singleton.mp hc
      exact ⟨hslot, hview⟩
  · dsimp only
    rw [List.map_append, List.nodup_append]
    refine ⟨h.once, List.nodup_singleton _, ?_⟩
    intro t ht t' ht' heq
    obtain ⟨c, hc, rfl⟩ := List.mem_map.mp ht
    rw [List.map_singleton, List.mem_singleton] at ht'
    exact not_called hnone hc (heq.trans ht')

theorem Linked.set_responses (h : Linked s) {responses : session_wire.Sys}
    (hslot : ∀ t, s.responses.core.view t ≠ .no_slot →
      responses.core.view t ≠ .no_slot ∧ responses.slot_index t = s.responses.slot_index t)
    (hanswers : responses.answers = s.responses.answers) : Linked { s with responses } := by
  refine ⟨fun c hc => h.slot_kept hslot hc, h.once, ?_, ?_, h.replied⟩
  · rw [show ({ s with responses } : Sys).responses.answers = s.responses.answers from hanswers]
    exact h.answered
  · rw [show ({ s with responses } : Sys).responses.answers = s.responses.answers from hanswers]
    exact h.unanswered

/-- Two calls of one thread are the same call. -/
theorem Linked.same_place (h : Linked s) (hq : session_send.Turns s.requests) {k k' : Nat}
    {c c' : session_send.Call} (hc : s.requests.entered[k]? = some c)
    (hc' : s.requests.entered[k']? = some c') (ht : c.thread = c'.thread) : k = k' := by
  have hnodup := entered_nodup hq h.once
  have hget : (s.requests.entered.map (·.thread))[k]? = some c.thread := by
    rw [List.getElem?_map, hc]
    rfl
  have hget' : (s.requests.entered.map (·.thread))[k']? = some c.thread := by
    rw [List.getElem?_map, hc', ht]
    rfl
  obtain ⟨hlt, hk⟩ := List.getElem?_eq_some_iff.mp hget
  obtain ⟨hlt', hk'⟩ := List.getElem?_eq_some_iff.mp hget'
  exact (hnodup.getElem_inj_iff).mp (hk.trans hk'.symm)

/-- The server replies to the k-th request. -/
theorem Linked.reply (h : Linked s) (hq : session_send.Turns s.requests) {k : Nat}
    {c : session_send.Call} {reply_message : List UInt8} {responses : session_wire.Sys}
    (hc : s.requests.entered[k]? = some c) (hlt : k < s.requests.wire.received.length)
    (hnone : s.replies k = none)
    (hslot : ∀ t, s.responses.core.view t ≠ .no_slot →
      responses.core.view t ≠ .no_slot ∧ responses.slot_index t = s.responses.slot_index t)
    (hanswers : responses.answers = Function.update s.responses.answers c.thread
      (s.responses.answers c.thread ++ [response c.request.slot_index reply_message])) :
    Linked { s with
      responses, replies := Function.update s.replies k (some reply_message) } := by
  refine ⟨fun d hd => h.slot_kept hslot hd, h.once, ?_, ?_, ?_⟩
  · intro k' d hd
    dsimp only at hd ⊢
    rw [hanswers]
    by_cases ht : d.thread = c.thread
    · obtain rfl := h.same_place hq hd hc ht
      rw [hc] at hd
      cases hd
      rw [Function.update_self, Function.update_self, h.answered k' c hc, hnone]
      rfl
    · have hk : k' ≠ k := by
        rintro rfl
        rw [hc] at hd
        cases hd
        exact ht rfl
      rw [Function.update_of_ne ht, Function.update_of_ne hk]
      exact h.answered k' d hd
  · intro t ht
    have htc : t ≠ c.thread := fun heq => ht c (List.mem_of_getElem? hc) heq.symm
    dsimp only
    rw [hanswers, Function.update_of_ne htc]
    exact h.unanswered t ht
  · intro k' p hp
    by_cases hk : k' = k
    · subst hk
      exact hlt
    · dsimp only at hp
      rw [Function.update_of_ne hk] at hp
      exact h.replied k' p hp

end Linked

/-! ## Over every run -/

structure Inv (s : Sys) : Prop where
  requests : session_send.Inv s.requests
  responses : Bodies s.responses
  linked : Linked s

/-- The bytes of each wire are counted in 64 bits. -/
structure Counted (s : Sys) : Prop where
  requests : (stream (session_send.messages s.requests.calls)).length < 2 ^ 64
  responses : (stream s.responses.wire.sent).length < 2 ^ 64

section Runs

variable {s t : Sys} {a : Act}

theorem inv_init {request_capacity response_capacity : Nat} (request_buffer : Nat → UInt8)
    (header : MessageHeader) (response_buffer : Nat → UInt8)
    (hreq : WireHeader.size MessageHeader < request_capacity) (hreq' : request_capacity < 2 ^ 64)
    (hres : WireHeader.size ResponseHeader < response_capacity)
    (hres' : response_capacity < 2 ^ 64) :
    Inv (init request_capacity request_buffer header response_capacity response_buffer) :=
  ⟨session_send.inv_init request_buffer header hreq hreq',
    bodies_init response_capacity response_buffer hres hres', linked_init ..⟩

theorem polite_of_on_responses {a : session_wire.Act} {c : Core} (ha : on_responses a = true) :
    Polite bodies c a := by
  cases a with
  | send | call | write | answer | close | notify_shutdown => cases ha
  | _ => trivial

/-- A step of the response wire that answers nobody. -/
theorem Inv.responses_step (h : Inv s) {b : session_wire.Act} {responses : session_wire.Sys}
    (hp : Polite bodies s.responses.core b) (hb : ∀ u m, b ≠ .answer u m)
    (hs : session_wire.step s.responses b = some responses)
    (htotal : (stream responses.wire.sent).length < 2 ^ 64) : Inv { s with responses } := by
  have hcore := h.responses.core hs
  exact ⟨h.requests, bodies_step h.responses hp hs htotal,
    h.linked.set_responses (fun t ht => core_keeps_slot hcore ht) (core_keeps_answers hcore hb)⟩

theorem Inv.requests_step (h : Inv s) {b : session_send.Act} {requests : session_send.Sys}
    (hs : session_send.step s.requests b = some requests)
    (hcalls : requests.calls = s.requests.calls)
    (hentered : requests.entered = s.requests.entered ∨
      ∃ c, requests.entered = s.requests.entered ++ [c])
    (htotal : (stream (session_send.messages requests.calls)).length < 2 ^ 64) :
    Inv { s with requests } := by
  have hq := session_send.inv_step h.requests hs htotal
  exact ⟨hq, h.responses, h.linked.set_requests hq.turns hcalls hentered
    (received_le h.requests) (received_mono h.requests hs)⟩

/-- Nothing answers a thread that has not sent, and its slot is one of the sixteen. -/
theorem Inv.fresh (h : Inv s) {u : Nat} (hpc : s.responses.pc u = .send)
    (hnone : session_send.calls_of u s.requests.calls = []) :
    (UInt16.ofNat (s.responses.slot_index u)).toNat = s.responses.slot_index u := by
  have hanswers : s.responses.answers u = [] := by
    apply h.linked.unanswered
    intro c hc
    exact not_called hnone (h.requests.turns.subperm.subset hc)
  have hresults : s.responses.core.results u = [] := by
    have hp := h.responses.demux.results u
    rw [Core.payloads, show s.responses.core.answers u = [] from hanswers] at hp
    exact List.prefix_nil.mp hp
  have hholds : Holds bodies s.responses.core u := by
    refine ⟨?_, ?_⟩
    · rw [view_of_pc hpc]
      simp [Pc.view]
    · rw [hresults]
      exact expects_pos _
  have hlt : s.responses.slot_index u < slot_size := (h.responses.demux.request u hholds).index_lt
  rw [UInt16.toNat_ofNat']
  apply Nat.mod_eq_of_lt
  unfold slot_size at hlt
  omega

/-- The server answers the thread that has asked, in the slot that it waits for. -/
theorem Inv.reply_step (h : Inv s) {k : Nat} {header : MessageHeader}
    {payload reply_message : List UInt8} {responses : session_wire.Sys}
    (hrec : s.requests.wire.received[k]? = some (header, payload)) (hnone : s.replies k = none)
    (hs : session_wire.step s.responses
      (.answer (s.asker k) (response header.idx reply_message)) = some responses)
    (htotal : (stream responses.wire.sent).length < 2 ^ 64) :
    Inv { s with responses, replies := Function.update s.replies k (some reply_message) } := by
  obtain ⟨c, hc, hparts⟩ := received_get h.requests hrec
  have hidx : header.idx = c.request.slot_index := congrArg (fun p => p.1.idx) hparts
  have hasker : s.asker k = c.thread := by
    rw [Sys.asker, hc]
    rfl
  rw [hidx, hasker] at hs
  obtain ⟨hslot, hview⟩ := h.linked.slot c
    (h.requests.turns.subperm.subset (List.mem_of_getElem? hc))
  have hempty : s.responses.answers c.thread = [] := by
    rw [h.linked.answered k c hc, hnone]
    rfl
  have hpolite : Polite bodies s.responses.core
      (.answer c.thread (response c.request.slot_index reply_message)) := by
    refine ⟨hview, hslot, ?_, ?_⟩
    · rw [show s.responses.core.answers c.thread = [] from hempty]
      exact expects_pos _
    · simp [response, RESPONSE_BODY, RESPONSE_BODYHEAD, bodies]
  have hcore := h.responses.core hs
  refine ⟨h.requests, bodies_step h.responses hpolite hs htotal, ?_⟩
  apply h.linked.reply h.requests.turns hc (List.getElem?_eq_some_iff.mp hrec).1 hnone
  · exact fun t ht => core_keeps_slot hcore ht
  · obtain ⟨wire, -, rfl⟩ := Option.map_eq_some_iff.mp hs
    rfl

theorem inv_step (h : Inv s) (hs : step s a = some t) (hw : Counted t) : Inv t := by
  cases a with
  | send u req_message =>
    obtain ⟨requests, hpc, hnone, hq, rfl⟩ := send_cases hs
    have hinv := session_send.inv_step h.requests hq hw.requests
    obtain ⟨-, rfl⟩ := session_send.call_cases hq
    refine ⟨hinv, h.responses, h.linked.call hnone (h.fresh hpc hnone) ?_⟩
    rw [view_of_pc hpc]
    simp [Pc.view]
  | sent u =>
    obtain ⟨requests, responses, hq, hr, rfl⟩ := sent_cases hs
    have hkeeps : requests.calls = s.requests.calls ∧ requests.entered = s.requests.entered := by
      obtain ⟨-, -, rfl⟩ := session_send.unlock_cases hq
      exact ⟨rfl, rfl⟩
    have hinv := h.requests_step hq hkeeps.1 (.inl hkeeps.2) hw.requests
    exact hinv.responses_step (b := .send u) trivial (by simp) hr hw.responses
  | receive u =>
    obtain ⟨responses, hres, hr, rfl⟩ := receive_cases hs
    refine h.responses_step (b := .call u) ?_ (by simp) hr hw.responses
    show (s.responses.results u).length < expects (bodies u)
    rw [hres]
    exact expects_pos _
  | reply k reply_message =>
    obtain ⟨header, payload, responses, hrec, hnone, hr, rfl⟩ := reply_cases hs
    exact h.reply_step hrec hnone hr hw.responses
  | request b =>
    obtain ⟨requests, hb, hq, rfl⟩ := request_cases hs
    obtain ⟨hcalls, hentered⟩ := entered_cases hb hq
    exact h.requests_step hq hcalls hentered hw.requests
  | response b =>
    obtain ⟨responses, hb, hr, rfl⟩ := response_cases hs
    refine h.responses_step (polite_of_on_responses hb) ?_ hr hw.responses
    rintro u m rfl
    cases hb

/-- Each half moves by a step of its own, or stays. -/
theorem step_halves (hs : step s a = some t) :
    (t.requests = s.requests ∨ ∃ b, session_send.step s.requests b = some t.requests) ∧
      (t.responses = s.responses ∨
        ∃ b, session_wire.step s.responses b = some t.responses) := by
  cases a with
  | send u req_message =>
    obtain ⟨requests, -, -, hq, rfl⟩ := send_cases hs
    exact ⟨.inr ⟨_, hq⟩, .inl rfl⟩
  | sent u =>
    obtain ⟨requests, responses, hq, hr, rfl⟩ := sent_cases hs
    exact ⟨.inr ⟨_, hq⟩, .inr ⟨_, hr⟩⟩
  | receive u =>
    obtain ⟨responses, -, hr, rfl⟩ := receive_cases hs
    exact ⟨.inl rfl, .inr ⟨_, hr⟩⟩
  | reply k reply_message =>
    obtain ⟨header, payload, responses, -, -, hr, rfl⟩ := reply_cases hs
    exact ⟨.inl rfl, .inr ⟨_, hr⟩⟩
  | request b =>
    obtain ⟨requests, -, hq, rfl⟩ := request_cases hs
    exact ⟨.inr ⟨_, hq⟩, .inl rfl⟩
  | response b =>
    obtain ⟨responses, -, hr, rfl⟩ := response_cases hs
    exact ⟨.inl rfl, .inr ⟨_, hr⟩⟩

/-- The messages of both wires only grow. -/
theorem counted_before (he : Exclusive s.responses) (hs : step s a = some t) (hw : Counted t) :
    Counted s := by
  obtain ⟨hq, hr⟩ := step_halves hs
  constructor
  · rcases hq with hq | ⟨b, hq⟩
    · rw [← hq]
      exact hw.requests
    · have hmono := session_send.stream_mono (session_send.step_wire hq).2
      exact Nat.lt_of_le_of_lt hmono hw.requests
  · rcases hr with hr | ⟨b, hr⟩
    · rw [← hr]
      exact hw.responses
    · exact Nat.lt_of_le_of_lt (session_total he hr) hw.responses

/-- The rule for a run: a fact that the steps keep holds after it, and each step may rely
on the invariant. -/
theorem run_inv {C : Sys → Act → Prop} {I : Sys → Prop} {acts : List Act} (h : Inv s)
    (hr : RunOf step C s acts t) (hw : Counted t) (h0 : I s)
    (hs : ∀ t a u, Inv t → I t → C t a → step t a = some u → I u) : Inv t ∧ I t := by
  have hrun : Exclusive t.responses ∧ (Counted t → Inv t ∧ I t) := by
    refine hr.inv (I := fun t => Exclusive t.responses ∧ (Counted t → Inv t ∧ I t))
      ⟨h.responses.exclusive, fun _ => ⟨h, h0⟩⟩ ?_
    intro t a u ⟨he, ih⟩ hc hst
    refine ⟨?_, fun hu => ?_⟩
    · rcases (step_halves hst).2 with hr | ⟨b, hr⟩
      · rw [hr]
        exact he
      · exact exclusive_step he hr
    · obtain ⟨hi, hI⟩ := ih (counted_before he hst hu)
      exact ⟨inv_step hi hst hu, hs t a u hi hI hc hst⟩
  exact hrun.2 hw

end Runs

/-! ## Each exchange gets its own response -/

/-- What a thread has received is the one reply to its own request, which the server has
read whole, and a reply that is not received yet is in the slot of the thread or on the
wire. -/
structure Exchanged (s : Sys) : Prop where
  own : ∀ t, s.responses.results t ≠ [] → ∃ (k : Nat) (c : session_send.Call) (p : List UInt8),
    s.requests.entered[k]? = some c ∧ c.thread = t ∧
      s.requests.wire.received[k]? = some c.request.message.parts ∧ s.replies k = some p ∧
      s.responses.results t = [(response c.request.slot_index p).payload]
  kept : ∀ (k : Nat) (c : session_send.Call) (p : List UInt8),
    s.requests.entered[k]? = some c → s.replies k = some p →
      s.responses.results c.thread = [(response c.request.slot_index p).payload] ∨
      s.responses.results c.thread = [] ∧
        (s.responses.my_slot c.thread).stash ++
            (s.responses.core.pending (s.responses.slot_index c.thread)).map (·.payload) =
          [(response c.request.slot_index p).payload]
  once : ∀ (k k' : Nat) (c c' : session_send.Call), s.requests.entered[k]? = some c →
    s.requests.entered[k']? = some c' → c.thread = c'.thread → k = k'

theorem Inv.exchanged {s : Sys} (h : Inv s) : Exchanged s := by
  have hpayloads : ∀ (k : Nat) (c : session_send.Call), s.requests.entered[k]? = some c →
      s.responses.core.payloads c.thread =
        (s.replies k).toList.map fun p => (response c.request.slot_index p).payload := by
    intro k c hc
    rw [Core.payloads, show s.responses.core.answers c.thread = _ from h.linked.answered k c hc,
      List.map_map]
    rfl
  have hdemux := h.responses.demux.demultiplexed
  refine ⟨?_, ?_, ?_⟩
  · intro t ht
    obtain ⟨c, hmem, rfl⟩ : ∃ c ∈ s.requests.entered, c.thread = t := by
      by_contra hno
      have hnone : s.responses.core.answers t = [] := by
        apply h.linked.unanswered
        intro c hc hct
        exact hno ⟨c, hc, hct⟩
      have hp := hdemux.next t
      rw [Core.payloads, hnone] at hp
      exact ht (List.prefix_nil.mp hp)
    obtain ⟨k, hc⟩ := List.mem_iff_getElem?.mp hmem
    have hp := hdemux.next c.thread
    rw [hpayloads k c hc] at hp
    cases hr : s.replies k with
    | none =>
      rw [hr] at hp
      exact absurd (List.prefix_nil.mp hp) ht
    | some p =>
      rw [hr] at hp
      have hlt := h.linked.replied k p hr
      obtain ⟨c', hc', hparts⟩ := received_get h.requests (List.getElem?_eq_getElem hlt)
      obtain rfl : c' = c := Option.some.inj (hc'.symm.trans hc)
      refine ⟨k, c', p, hc, rfl, ?_, hr, ?_⟩
      · rw [List.getElem?_eq_getElem hlt, hparts]
      · exact hp.eq_of_length_le (List.length_pos_of_ne_nil ht)
  · intro k c p hc hp
    have hpay := hpayloads k c hc
    rw [hp] at hpay
    by_cases hres : s.responses.results c.thread = []
    · right
      obtain ⟨-, hview⟩ := h.linked.slot c
        (h.requests.turns.subperm.subset (List.mem_of_getElem? hc))
      have hholds : Holds bodies s.responses.core c.thread := by
        refine ⟨hview, ?_⟩
        rw [show s.responses.core.results c.thread = [] from hres]
        exact expects_pos _
      have hkept := hdemux.kept c.thread hholds
      rw [hpay, hres, List.nil_append] at hkept
      exact ⟨hres, hkept.symm⟩
    · left
      have hpre := hdemux.next c.thread
      rw [hpay] at hpre
      exact hpre.eq_of_length_le (List.length_pos_of_ne_nil hres)
  · intro k k' c c'
    exact h.linked.same_place h.requests.turns

/-- In every run of the threads of a session, which each find a slot, send a request and
receive a response, with a server that replies to the requests it has read, in any order
and as far as it likes, each thread gets the reply to its own request. -/
theorem every_exchange_gets_its_own_response (request_capacity response_capacity : Nat)
    (request_buffer response_buffer : Nat → UInt8) (header : MessageHeader) (acts : List Act)
    (s : Sys) (hreq : WireHeader.size MessageHeader < request_capacity)
    (hreq' : request_capacity < 2 ^ 64) (hres : WireHeader.size ResponseHeader < response_capacity)
    (hres' : response_capacity < 2 ^ 64)
    (hr : RunOf step Free
      (init request_capacity request_buffer header response_capacity response_buffer) acts s)
    (hw : Counted s) : Exchanged s :=
  (run_inv (I := fun _ => True)
    (inv_init request_buffer header response_buffer hreq hreq' hres hres') hr hw trivial
    fun _ _ _ _ _ _ _ => trivial).1.exchanged

/-- A thread sends a request that fits the buffer. -/
def sendOut (t : Nat) (req_message : List UInt8) : List Act :=
  [.send t req_message, .request (.lock t), .request (.write t .wait), .request (.write t .check),
    .request (.write t .store), .request (.write t .publish), .sent t]

def readRequest : List Act :=
  [.request (.read .copy_header), .request (.read .read), .request (.read .advance)]

def replyOut (k : Nat) (reply_message : List UInt8) : List Act :=
  [.reply k reply_message, .response (.server .wait), .response (.server .check),
    .response (.server .store), .response (.server .publish)]

/-- The server answers thread 1 first. Thread 0 reads that response for it, and then its
own. -/
def crossed (req_message0 req_message1 reply_message0 reply_message1 : List UInt8) : List Act :=
  [.response (.search 0), .response (.search 1), .response (.search 1)] ++
    sendOut 0 req_message0 ++ sendOut 1 req_message1 ++ readRequest ++ readRequest ++
    replyOut 1 reply_message1 ++ [.receive 0] ++
    ([session_wire.Act.lock 0, .evaluate 0, .test 0, .exchange 0 true] ++ readHead 0).map
      .response ++
    [.receive 1] ++
    [session_wire.Act.lock 1, .evaluate 1, .test 1, .consume 1, .notify 1].map .response ++
    replyOut 0 reply_message0 ++
    ([session_wire.Act.lock 0, .evaluate 0, .test 0, .exchange 0 true] ++ readHead 0).map
      .response

theorem every_exchange_gets_its_own_response_when_they_cross :
    ∃ s, RunOf step Free (init 64 (fun _ => 0) ⟨0, 0⟩ 64 fun _ => 0)
        (crossed [9] [1, 2] [8, 8] [7]) s ∧
      s.responses.results 0 = [[8, 8]] ∧ s.responses.results 1 = [[7]] ∧ Exchanged s := by
  obtain ⟨s, hr, hp⟩ := RunOf.exists_free (s := init 64 (fun _ => 0) ⟨0, 0⟩ 64 fun _ => 0)
    (p := fun s => s.responses.results 0 = [[8, 8]] ∧ s.responses.results 1 = [[7]] ∧
      (stream (session_send.messages s.requests.calls)).length = 15 ∧
      (stream s.responses.wire.sent).length = 19)
    (by decide +kernel : (exec step _ (crossed [9] [1, 2] [8, 8] [7])).any _ = true)
  obtain ⟨h0, h1, hq, hw⟩ : s.responses.results 0 = [[8, 8]] ∧ s.responses.results 1 = [[7]] ∧
      (stream (session_send.messages s.requests.calls)).length = 15 ∧
      (stream s.responses.wire.sent).length = 19 := by simpa using hp
  refine ⟨s, hr, h0, h1, ?_⟩
  exact every_exchange_gets_its_own_response 64 64 _ _ _ _ s (by decide) (by decide) (by decide)
    (by decide) hr ⟨by omega, by omega⟩

/-! ## A server that replies by a rule -/

section Served

variable (Serves : Nat → List UInt8 → List UInt8 → Prop)

/-- The reply to the k-th request follows from its bytes. -/
def ServedBy (s : Sys) : Act → Prop
  | .reply k reply_message => ∀ header payload,
      s.requests.wire.received[k]? = some (header, payload) → Serves k payload reply_message
  | _ => True

def Served (s : Sys) : Prop :=
  ∀ (k : Nat) (p : List UInt8), s.replies k = some p →
    ∃ c, s.requests.entered[k]? = some c ∧ Serves k c.request.message.payload p

variable {Serves} {s t : Sys} {a : Act}

theorem Served.keep (h : Served Serves s) (hreplies : t.replies = s.replies)
    (hentered : s.requests.entered <+: t.requests.entered) : Served Serves t := by
  intro k p hp
  rw [hreplies] at hp
  obtain ⟨c, hc, hserves⟩ := h k p hp
  obtain ⟨rest, hrest⟩ := hentered
  refine ⟨c, ?_, hserves⟩
  rw [← hrest, List.getElem?_append_left (List.getElem?_eq_some_iff.mp hc).1, hc]

theorem served_step (hi : Inv s) (h : Served Serves s) (hc : ServedBy Serves s a)
    (hs : step s a = some t) : Served Serves t := by
  cases a with
  | send u req_message =>
    obtain ⟨requests, -, -, hq, rfl⟩ := send_cases hs
    obtain ⟨-, rfl⟩ := session_send.call_cases hq
    exact h.keep rfl (List.prefix_refl _)
  | sent u =>
    obtain ⟨requests, responses, hq, -, rfl⟩ := sent_cases hs
    obtain ⟨-, -, rfl⟩ := session_send.unlock_cases hq
    exact h.keep rfl (List.prefix_refl _)
  | receive u =>
    obtain ⟨responses, -, -, rfl⟩ := receive_cases hs
    exact h.keep rfl (List.prefix_refl _)
  | response b =>
    obtain ⟨responses, -, -, rfl⟩ := response_cases hs
    exact h.keep rfl (List.prefix_refl _)
  | request b =>
    obtain ⟨requests, hb, hq, rfl⟩ := request_cases hs
    refine h.keep rfl ?_
    rcases (entered_cases hb hq).2 with he | ⟨c, he⟩
    · exact ⟨[], by rw [List.append_nil]; exact he.symm⟩
    · exact ⟨[c], he.symm⟩
  | reply k reply_message =>
    obtain ⟨header, payload, responses, hrec, -, -, rfl⟩ := reply_cases hs
    intro k' p hp
    by_cases hk : k' = k
    · subst hk
      obtain ⟨c, hcall, hparts⟩ := received_get hi.requests hrec
      obtain rfl : payload = c.request.message.payload := congrArg Prod.snd hparts
      dsimp only at hp
      rw [Function.update_self] at hp
      cases hp
      exact ⟨c, hcall, hc header _ hrec⟩
    · dsimp only at hp
      rw [Function.update_of_ne hk] at hp
      exact h k' p hp

/-- What a call gets follows from the bytes of its own request. -/
theorem a_response_follows_from_its_request (request_capacity response_capacity : Nat)
    (request_buffer response_buffer : Nat → UInt8) (header : MessageHeader) (acts : List Act)
    (s : Sys) (hreq : WireHeader.size MessageHeader < request_capacity)
    (hreq' : request_capacity < 2 ^ 64) (hres : WireHeader.size ResponseHeader < response_capacity)
    (hres' : response_capacity < 2 ^ 64)
    (hr : RunOf step (ServedBy Serves)
      (init request_capacity request_buffer header response_capacity response_buffer) acts s)
    (hw : Counted s) (c : session_send.Call) (hc : c ∈ s.requests.calls)
    (hresult : s.responses.results c.thread ≠ []) :
    ∃ (k : Nat) (p : List UInt8), s.requests.entered[k]? = some c ∧
      Serves k c.request.message.payload p ∧
      s.responses.results c.thread = [(response c.request.slot_index p).payload] := by
  obtain ⟨hi, hserved⟩ := run_inv (I := Served Serves)
    (inv_init request_buffer header response_buffer hreq hreq' hres hres') hr hw
    (fun k p hp => by cases hp) fun t a u hi h hc hst => served_step hi h hc hst
  obtain ⟨k, c', p, hk, hthread, -, hp, hres⟩ := hi.exchanged.own c.thread hresult
  obtain rfl : c' = c := by
    have hmem : c' ∈ s.requests.calls :=
      hi.requests.turns.subperm.subset (List.mem_of_getElem? hk)
    exact List.inj_on_of_nodup_map hi.linked.once hmem hc hthread
  obtain ⟨d, hd, hserves⟩ := hserved k p hp
  obtain rfl : d = c' := Option.some.inj (hd.symm.trans hk)
  exact ⟨k, p, hk, hserves, hres⟩

end Served

end tateyama_bootstrap.session_exchange
