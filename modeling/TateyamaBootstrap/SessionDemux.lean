-- Whose message a receive returns. Whoever reads the wire puts the messages of
-- the others into their slots. A thread may find its slot empty, and win the wire
-- after its head was stored there: then it takes the body for the head. In every
-- other run each receive returns the next message of its request.
import TateyamaBootstrap.SessionRequests

open runs

namespace tateyama_bootstrap.session_wire

open simple_wire

/-! ## The messages in a slot -/

/-- The messages that a slot holds for its thread. -/
def Slot.stash (r : Slot) : List (List UInt8) :=
  ((if r.expected = 2 then [r.body_head_message, r.body_message] else [r.body_message]).take
    r.received).drop r.consumed

/-- The answers that were given to a slot and not yet consumed are in their places. -/
theorem Slot.Serves.places {headed : Bool} {answers : List (List UInt8)} {k : Nat}
    {F : Bool → Prop} {r : Slot} (h : r.Serves headed answers k F)
    (hlen : answers.length ≤ expects headed) {i : Nat} (hk : k ≤ i) (hi : i < r.received) :
    (if r.expected = 2 then [r.body_head_message, r.body_message] else [r.body_message])[i]? =
      answers[i]? := by
  have hle := h.received_le
  have he : r.expected = expects headed := by
    rcases h.expected with he | he
    · exact he
    · omega
  rw [he]
  cases headed with
  | false =>
    simp only [expects, Bool.false_eq_true, if_false] at hlen ⊢
    obtain rfl : i = 0 := by omega
    have hr : r.received = 1 := by omega
    have hbody := h.body hr
    rw [hr] at hbody
    simpa using hbody.symm
  | true =>
    simp only [expects, if_true] at hlen ⊢
    by_cases h0 : i = 0
    · subst h0
      have hhead := h.head rfl (Nat.le_zero.mp hk) hi
      simpa using hhead.symm
    · obtain rfl : i = 1 := by omega
      have hr : r.received = 2 := by omega
      have hbody := h.body hr
      rw [hr] at hbody
      simpa using hbody.symm

theorem Slot.Serves.stash_eq {headed : Bool} {answers : List (List UInt8)} {k : Nat}
    {F : Bool → Prop} {r : Slot} (h : r.Serves headed answers k F)
    (hlen : answers.length ≤ expects headed) : r.stash = (answers.take r.received).drop k := by
  unfold Slot.stash
  rw [h.consumed]
  apply List.ext_getElem?
  intro i
  rw [List.getElem?_drop, List.getElem?_drop]
  by_cases hi : k + i < r.received
  · rw [List.getElem?_take_of_lt hi, List.getElem?_take_of_lt hi]
    exact h.places hlen (Nat.le_add_right k i) hi
  · have hnone : ∀ xs : List (List UInt8), (xs.take r.received)[k + i]? = none := by
      intro xs
      rw [List.getElem?_eq_none]
      rw [List.length_take]
      omega
    rw [hnone, hnone]

/-! ## A wire that stays open -/

/-- Nobody has closed the wire or shut it down, and nobody has seen it so. -/
structure Open (s : Sys) : Prop where
  closed : s.wire.closed = false
  shutdown : s.shutdown = false
  loaded : ∀ t, s.pc t ≠ .loaded true

section Open

variable {s t : Sys} {u : Nat} {p : Pc}

theorem step_closed {w w' : simple_wire.Sys ResponseHeader} {b : simple_wire.Act ResponseHeader}
    (h : simple_wire.step w b = some w') (hb : b ≠ .close) : w'.closed = w.closed := by
  cases b with
  | close => exact absurd rfl hb
  | write m | store | read =>
    simp only [simple_wire.step] at h
    split at h <;> cases h
    rfl
  | wait | copy_header | read_chunk =>
    simp only [simple_wire.step] at h
    split at h
    · split at h <;> cases h
      rfl
    · cases h
  | check | publish | advance =>
    simp only [simple_wire.step] at h
    split at h
    · split at h <;> cases h <;> rfl
    · cases h

theorem Open.moves (h : Open s) (hclosed : t.wire.closed = s.wire.closed)
    (hshutdown : t.shutdown = s.shutdown) (hpc : t.pc = Function.update s.pc u p)
    (hp : p ≠ .loaded true) : Open t := by
  refine ⟨hclosed.trans h.closed, hshutdown.trans h.shutdown, ?_⟩
  intro v
  rw [hpc]
  by_cases hv : v = u
  · subst hv
    rw [Function.update_self]
    exact hp
  · rw [Function.update_of_ne hv]
    exact h.loaded v

theorem Open.set_wire (h : Open s) {w : simple_wire.Sys ResponseHeader}
    (hw : w.closed = s.wire.closed) : Open { s with wire := w } :=
  ⟨hw.trans h.closed, h.shutdown, h.loaded⟩

theorem Open.notify (h : Open s) (hp : p ≠ .loaded true) : Open (s.notify_all.set_pc u p) := by
  have hn : Open s.notify_all := by
    refine ⟨h.closed, h.shutdown, ?_⟩
    intro v
    simp only [Sys.notify_all]
    split
    · simp
    · exact h.loaded v
  exact hn.moves rfl rfl rfl hp

theorem open_step {a : Act} (h : Open s) (hclose : a ≠ .close) (hshut : a ≠ .notify_shutdown)
    (hs : step s a = some t) : Open t := by
  cases a with
  | close => exact absurd rfl hclose
  | notify_shutdown => exact absurd rfl hshut
  | search u =>
    simp only [step] at hs
    split at hs
    · split at hs
      · split at hs <;> cases hs
        · exact h.moves rfl rfl rfl (by simp)
        · exact h.moves (p := .send) rfl rfl rfl (by simp)
      · cases hs
        exact h.moves rfl rfl rfl (by simp)
    · cases hs
  | send u | call u | spurious u =>
    simp only [step] at hs
    split at hs <;> cases hs
    exact h.moves rfl rfl rfl (by simp)
  | block u =>
    simp only [step] at hs
    split at hs <;> cases hs
    exact h.moves (p := .blocked) rfl rfl rfl (by simp)
  | lock u =>
    simp only [step] at hs
    split at hs
    · split at hs <;> cases hs
      exact h.moves (p := .evaluate) rfl rfl rfl (by simp)
    · cases hs
  | evaluate u =>
    simp only [step] at hs
    split at hs
    · split at hs <;> cases hs
      · exact h.moves (p := .passed) rfl rfl rfl (by simp)
      · exact h.moves rfl rfl rfl (by simp)
    · cases hs
  | wake u | time_out u =>
    simp only [step] at hs
    split at hs
    · split at hs <;> cases hs
      exact h.moves rfl rfl rfl (by simp)
    · cases hs
  | test u =>
    simp only [step] at hs
    split at hs
    · split at hs <;> cases hs <;> exact h.moves rfl rfl rfl (by simp)
    · cases hs
  | consume u =>
    simp only [step] at hs
    split at hs <;> cases hs
    exact h.moves (p := .notify) rfl rfl rfl (by simp)
  | exchange u succeeds =>
    simp only [step] at hs
    split at hs
    · split at hs
      · split at hs <;> cases hs
        exact h.moves (p := .await) rfl rfl rfl (by simp)
      · cases hs
        exact h.moves rfl rfl rfl (by simp)
    · cases hs
  | load u =>
    simp only [step] at hs
    split at hs <;> cases hs
    refine h.moves rfl rfl rfl ?_
    simp [h.closed, h.shutdown]
  | examine u =>
    simp only [step] at hs
    split at hs
    · split at hs
      · obtain ⟨w, hw, rfl⟩ := Option.map_eq_some_iff.mp hs
        exact h.moves (p := .header) (step_closed hw (by simp)) rfl rfl (by simp)
      · split at hs <;> cases hs
        · exact h.moves (p := .header) rfl rfl rfl (by simp)
        · exact h.moves rfl rfl rfl (by simp)
    · cases hs
  | probe u alive | probe_again u alive =>
    simp only [step] at hs
    split at hs <;> cases hs
    exact h.moves rfl rfl rfl (by cases alive <;> simp)
  | dispatch u =>
    simp only [step] at hs
    split at hs
    · split at hs
      · cases hs
        exact h.moves rfl rfl rfl (by simp)
      · split at hs <;> cases hs
        · exact h.moves (p := .other _ _) rfl rfl rfl (by simp)
        · exact h.moves rfl rfl rfl (by simp)
    · cases hs
  | read u | read_chunk u =>
    obtain ⟨w, hw, rfl, -⟩ := read_step_keeps hs
    exact h.set_wire (step_closed hw (by simp))
  | advance u =>
    simp only [step] at hs
    split at hs
    · cases hs
    · rename_i t' hread
      obtain ⟨w, hw, rfl, -⟩ := read_step_keeps hread
      have hw' := h.set_wire (step_closed hw (by simp))
      split at hs <;> cases hs
      · exact hw'.moves rfl rfl rfl (by simp)
      · exact hw'.moves (p := .other_count _ _) rfl rfl rfl (by simp)
      · exact hw'
  | count u =>
    simp only [step] at hs
    split at hs <;> cases hs
    · exact h.moves (p := .own_release) rfl rfl rfl (by simp)
    · exact h.moves (p := .other_release) rfl rfl rfl (by simp)
  | release u =>
    simp only [step] at hs
    split at hs <;> cases hs
    · exact h.moves (p := .own_notify) rfl rfl rfl (by simp)
    · exact h.moves (p := .other_notify) rfl rfl rfl (by simp)
    · exact h.moves (p := .fail_notify) rfl rfl rfl (by simp)
  | notify u =>
    simp only [step] at hs
    split at hs <;> cases hs <;> exact h.notify (by simp)
  | write m =>
    obtain ⟨w, hw, rfl⟩ := Option.map_eq_some_iff.mp hs
    exact h.set_wire (step_closed hw (by simp))
  | server b =>
    obtain ⟨w, hw, rfl⟩ := Option.map_eq_some_iff.mp hs
    exact h.set_wire (step_closed hw (by cases b <;> simp [ServerAct.act]))
  | answer u m =>
    obtain ⟨w, hw, rfl⟩ := Option.map_eq_some_iff.mp hs
    exact ⟨(step_closed hw (by simp)).trans h.closed, h.shutdown, h.loaded⟩

end Open

/-! ## Over every run -/

/-- What a session does with the answers to its requests. -/
structure Demultiplexed (headed : Nat → Bool) (s : Sys) : Prop where
  /-- Each receive has returned the next message of its request. -/
  next : ∀ t, s.results t <+: s.core.payloads t
  complete : ∀ t, (s.results t).length = expects (headed t) → s.results t = s.core.payloads t
  /-- No message is lost: it is received, in the slot, or on the wire. -/
  kept : ∀ t, Holds headed s.core t → s.core.payloads t =
    s.results t ++ (s.my_slot t).stash ++ (s.core.pending (s.slot_index t)).map (·.payload)
  /-- `search_slot` passes over the slot until its last message is received. -/
  in_use : ∀ t, Holds headed s.core t → (s.my_slot t).in_use = true
  apart : ∀ t u, Holds headed s.core t → Holds headed s.core u →
    s.slot_index t = s.slot_index u → t = u

/-- The session is used as it is meant to be, and no thread takes a message of its
own from the wire over an earlier one in its slot. -/
def InOrder (headed : Nat → Bool) (s : Sys) (a : Act) : Prop :=
  Polite headed s.core a ∧ InTurn s.core a

theorem demux_init (headed : Nat → Bool) (capacity : Nat) (buffer : Nat → UInt8) :
    Demux headed (Sys.init capacity buffer).core := by
  have hno : ∀ t, ¬ Holds headed (Sys.init capacity buffer).core t := by
    intro t ht
    exact ht.1 rfl
  refine ⟨fun _ => ⟨rfl, rfl⟩, fun _ => List.prefix_rfl, ?_, ?_, ?_, fun _ _ => rfl, ?_,
    fun _ => rfl⟩
  · intro t
    refine ⟨Nat.zero_le _, ?_⟩
    intro i m hm
    cases hm
  · intro t ht
    exact absurd ht (hno t)
  · intro t u ht
    exact absurd ht (hno t)
  · intro m hm
    cases hm

theorem split_at_prefix {α : Type} {xs ys : List α} {n : Nat} (h : xs <+: ys)
    (hn : xs.length ≤ n) : ys = xs ++ (ys.take n).drop xs.length ++ ys.drop n := by
  obtain ⟨zs, rfl⟩ := h
  rw [List.take_append, List.take_of_length_le hn, List.drop_left, List.drop_append,
    List.drop_eq_nil_of_le hn, List.nil_append, List.append_assoc, List.take_append_drop]

theorem Demux.demultiplexed {headed : Nat → Bool} {s : Sys} (h : Demux headed s.core) :
    Demultiplexed headed s := by
  have hlen : ∀ t, (s.core.payloads t).length ≤ expects (headed t) := by
    intro t
    rw [Core.payloads, List.length_map]
    exact (h.answers t).length_le
  refine ⟨h.results, ?_, ?_, fun t ht => (h.request t ht).slot.in_use, h.apart⟩
  · intro t ht
    exact (h.results t).eq_of_length_le (Nat.le_trans (hlen t) (Nat.le_of_eq ht.symm))
  · intro t ht
    have hreq := h.request t ht
    have hstash := hreq.slot.stash_eq (hlen t)
    have hrest : (s.core.pending (s.slot_index t)).map (·.payload) =
        (s.core.payloads t).drop (s.core.my_slot t).received := by
      rw [Core.payloads, ← List.map_drop]
      exact congrArg _ hreq.pending
    rw [hrest, show (s.my_slot t).stash = _ from hstash]
    exact split_at_prefix (h.results t) hreq.slot.le_received

/-- In every run of a session that is used as it is meant to be, each receive
returns the next message of its request, as long as no thread takes a message of
its own from the wire over an earlier one in its slot. -/
theorem every_receive_returns_the_next_message (headed : Nat → Bool) (capacity : Nat)
    (buffer : Nat → UInt8) (hsize : WireHeader.size ResponseHeader < capacity)
    (hcap : capacity < 2 ^ 64) (acts : List Act) (s : Sys)
    (hr : RunOf step (InOrder headed) (Sys.init capacity buffer) acts s)
    (htotal : (stream s.wire.sent).length < 2 ^ 64) : Demultiplexed headed s := by
  have h : Inv s.wire ∧ Open s ∧ Demux headed s.core := by
    refine run_core (I := fun s => Open s ∧ Demux headed s.core) hsize hcap hr htotal
      ⟨⟨rfl, rfl, fun t => by simp [Sys.init]⟩, demux_init headed capacity buffer⟩ ?_ ?_
    · intro s a ⟨hopen, _⟩ _
      cases a with
      | examine t => exact fun hp => absurd hp (hopen.loaded t)
      | _ => trivial
    · intro s a t ⟨hopen, h⟩ ⟨hp, ha⟩ hst hcore ho hi hi'
      refine ⟨open_step hopen ?_ ?_ hst, demux_step h hi hi' ho hp ha hcore⟩
      · rintro rfl
        exact hp
      · rintro rfl
        exact hp
  exact h.2.2.demultiplexed

/-- A test for `Polite`. -/
def polite (headed : Nat → Bool) (s : Sys) : Act → Bool
  | .call t => decide ((s.results t).length < expects (headed t))
  | .answer t m => decide ((s.pc t).view ≠ .no_slot) && m.header.idx.toNat == s.slot_index t &&
      decide ((s.answers t).length < expects (headed t)) &&
      (m.header.type == RESPONSE_BODYHEAD) == (headed t && (s.answers t).isEmpty)
  | .write _ | .close | .notify_shutdown => false
  | _ => true

theorem polite_of_test {headed : Nat → Bool} (s : Sys) (a : Act) (h : polite headed s a = true) :
    Polite headed s.core a := by
  cases a with
  | call t =>
    have hlt : (s.results t).length < expects (headed t) := of_decide_eq_true h
    exact hlt
  | answer t m =>
    simp only [polite, Bool.and_eq_true, decide_eq_true_eq, beq_iff_eq] at h
    obtain ⟨⟨⟨h1, h2⟩, h3⟩, h4⟩ := h
    have h5 : m.header.type = RESPONSE_BODYHEAD ↔ headed t = true ∧ s.answers t = [] := by
      rw [Bool.eq_iff_iff] at h4
      simpa using h4
    exact ⟨h1, h2, h3, h5⟩
  | write m | close | notify_shutdown => cases h
  | _ => trivial

/-- A test for `InTurn`. -/
def inTurn (s : Sys) : Act → Bool
  | .dispatch t => s.header_received.idx.toNat != s.slot_index t || !(s.my_slot t).valid
  | _ => true

theorem inOrder_of_test {headed : Nat → Bool} (s : Sys) (a : Act)
    (h : (polite headed s a && inTurn s a) = true) : InOrder headed s a := by
  rw [Bool.and_eq_true] at h
  refine ⟨polite_of_test s a h.1, ?_⟩
  cases a with
  | dispatch t =>
    intro hidx
    have hsame : s.header_received.idx.toNat = s.slot_index t := hidx
    have hvalid : (s.my_slot t).valid = false := by simpa [inTurn, hsame] using h.2
    exact hvalid
  | _ => trivial

/-- The server writes an answer that fits the buffer. -/
def answerOut (t : Nat) (m : Message ResponseHeader) : List Act :=
  [.answer t m, .server .wait, .server .check, .server .store, .server .publish]

/-- The answer to thread 1 has a head. -/
def headAndBody : Nat → Bool
  | 1 => true
  | _ => false

theorem length_head1 : ([7] : List UInt8).length = 1 := rfl

def head1 : Message ResponseHeader := ⟨⟨1, 2, 1⟩, [7], length_head1⟩

def body1 : Message ResponseHeader := ⟨⟨1, 1, 1⟩, [9], length_one_byte⟩

/-- Thread 0 stores the head of thread 1, which takes it from its slot, and then
its body from the wire. -/
def headThenBody : List Act :=
  winTheWire 0 ++ [Act.search 1, .search 1, .send 1, .call 1] ++ answerOut 1 head1 ++ readHead 0 ++
    [Act.lock 1, .evaluate 1, .test 1, .consume 1, .notify 1] ++ answerOut 1 body1 ++
    [Act.call 1, .lock 1, .evaluate 1, .test 1, .exchange 1 true] ++ readHead 1

theorem every_receive_returns_the_next_message_of_two :
    ∃ s, RunOf step (InOrder headAndBody) (Sys.init 64 fun _ => 0) headThenBody s ∧
      s.results 1 = [[7], [9]] ∧ Demultiplexed headAndBody s := by
  obtain ⟨s, hr, hp⟩ := RunOf.exists_of_exec (s := Sys.init 64 fun _ => 0)
    (c := fun s a => polite headAndBody s a && inTurn s a) inOrder_of_test
    (p := fun s => s.results 1 = [[7], [9]] ∧ (stream s.wire.sent).length = 18)
    (by decide +kernel : (exec (guarded step _) _ headThenBody).any _ = true)
  obtain ⟨h1, htotal⟩ : s.results 1 = [[7], [9]] ∧ (stream s.wire.sent).length = 18 := by
    simpa using hp
  exact ⟨s, hr, h1, every_receive_returns_the_next_message headAndBody 64 _ (by decide) (by decide)
    _ s hr (by omega)⟩

/-- Thread 1 finds its slot empty, thread 0 stores its head there, and then thread
1 wins the wire and takes its body for the head. -/
def bodyBeforeHead : List Act :=
  [Act.search 0, .send 0, .call 0, .lock 0, .evaluate 0, .test 0,
    .search 1, .search 1, .send 1, .call 1, .lock 1, .evaluate 1, .test 1, .exchange 0 true] ++
    answerOut 1 head1 ++ answerOut 1 body1 ++ readHead 0 ++ [Act.exchange 1 true] ++ readHead 1

/-- The head is lost, and the slot is free while the request has a message to receive. -/
theorem a_receive_returns_the_body_for_the_head :
    ∃ s, RunOf step (fun s => Polite headAndBody s.core) (Sys.init 64 fun _ => 0)
      bodyBeforeHead s ∧ s.core.payloads 1 = [[7], [9]] ∧ s.results 1 = [[9]] ∧
      (s.my_slot 1).in_use = false ∧ ¬ Demultiplexed headAndBody s := by
  obtain ⟨s, hr, hp⟩ := RunOf.exists_of_exec (s := Sys.init 64 fun _ => 0)
    (c := polite headAndBody) polite_of_test
    (p := fun s => s.core.payloads 1 = [[7], [9]] ∧ s.results 1 = [[9]] ∧
      (s.my_slot 1).in_use = false)
    (by decide +kernel : (exec (guarded step (polite headAndBody)) _ bodyBeforeHead).any _ = true)
  obtain ⟨h1, h2, h3⟩ : s.core.payloads 1 = [[7], [9]] ∧ s.results 1 = [[9]] ∧
      (s.my_slot 1).in_use = false := by simpa using hp
  refine ⟨s, hr, h1, h2, h3, ?_⟩
  intro h
  have hnext := h.next 1
  rw [h1, h2] at hnext
  simp at hnext

end tateyama_bootstrap.session_wire
