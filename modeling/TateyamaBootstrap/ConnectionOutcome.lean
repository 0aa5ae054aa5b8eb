-- The outcome of a connection request. A client that waits for its answer
-- shares a mailbox with every earlier and later client of its slot. It gets
-- its own answer in every run in which a slot is granted only after the
-- client before it, and its answer, are done with the mailbox.
import TateyamaBootstrap.ConnectionAdmission

open runs ring_memory

namespace tateyama_bootstrap.connection_queue

/-! ## Who still uses a mailbox -/

def Client.sid : Client → Option Nat
  | .idle | .refused => none
  | .popped sid | .requested sid | .waiting sid | .ready sid | .timed_out sid | .threw sid => some sid
  | .read sid _ | .returned sid _ => some sid

/-- The client is still inside `request` or `wait`. -/
def Client.in_flight : Client → Bool
  | .popped _ | .requested _ | .waiting _ | .ready _ | .read _ _ | .timed_out _ => true
  | _ => false

/-- The mailbox write that `accept` or `reject` has still to do. -/
def Listener.write : Listener → Option (Nat × Nat)
  | .accepting sid id => some (sid, id)
  | .rejecting sid => some (sid, session_id_indicating_error)
  | _ => none

/-- The number of decisions whose mailbox write is done. -/
def Sys.written (s : Sys) : Nat :=
  s.decisions.length - if s.listener.write.isSome then 1 else 0

/-- The requests that are not decided, or whose decision is not yet written. -/
def Sys.undecided (s : Sys) : List Nat := s.requests.drop s.written

/-- Nobody uses the mailbox of the slot: it is clear, no client of the slot is
inside `request` or `wait`, and every request for the slot has been answered. -/
def Quiet (s : Sys) (slot : Nat) : Prop :=
  s.cq.mailbox slot = 0 ∧ ∀ x ∈ s.started, (s.client x).sid.map reset_admin = some slot →
    (s.client x).in_flight = false ∧ x ∉ s.undecided

/-- The server as it is meant to act: after `listen` it answers the sid that
`slot` gives, and it disconnects accepted sids only. -/
def Served (s : Sys) : Act → Prop
  | .accept sid _ | .reject sid => s.cq.q_requested.has_request ∧ s.cq.slot = some sid
  | .disconnect sid => sid ∈ s.accepted
  | _ => True

/-- A slot is granted only when its mailbox is quiet. -/
def QuietGrant (s : Sys) : Act → Prop
  | .pop_free _ admin => ∀ sid, (s.cq.pop_free admin).1 = .ok sid → Quiet s (reset_admin sid)
  | _ => True

/-- A run of clients and a server that takes a slot only when it is quiet. -/
def Orderly (s : Sys) (x : Act) : Prop := Served s x ∧ QuietGrant s x

/-! ## The invariant -/

/-- The server's answer to the request of client `x` is in the mailbox. -/
def Answered (s : Sys) (x v : Nat) : Prop :=
  ∃ j < s.written, s.requests[j]? = some x ∧ s.decisions[j]? = some v

/-- The client, or the answer to it, may still touch its mailbox. -/
def Live (s : Sys) (x : Nat) : Prop := (s.client x).in_flight = true ∨ x ∈ s.undecided

/-- `q_requested_` holds the undecided requests in their order. -/
structure Fifo (c k : Nat) (s : Sys) : Prop where
  capacity : s.cq.q_requested.capacity = c
  length : s.cq.q_requested.queue.length = c
  pushed : s.cq.q_requested.pushed = s.requests.length
  poped : s.cq.q_requested.poped = s.decisions.length
  order : s.decisions.length ≤ s.requests.length
  bound : s.requests.length ≤ k
  nodup : s.requests.Nodup
  cells : ∀ j x, s.decisions.length ≤ j → s.requests[j]? = some x →
    ∃ sid, (s.client x).sid = some sid ∧ s.cq.q_requested.queue[j % c]? = some sid
  write : ∀ sid v, s.listener.write = some (sid, v) → s.decisions.length = s.written + 1 ∧
    s.decisions[s.written]? = some v ∧
    ∃ x, s.requests[s.written]? = some x ∧ (s.client x).sid = some sid

/-- Every slot that is free, owed or used by a client has a mailbox. -/
structure Boxed (c : Nat) (s : Sys) : Prop where
  boxes : c ≤ s.cq.v_requested.length
  entries : ∀ v ∈ s.cq.q_free.queue, reset_admin v < c
  owed : ∀ sid ∈ s.owed, reset_admin sid < c
  sids : ∀ x sid, (s.client x).sid = some sid → x ∈ s.started ∧ reset_admin sid < c

/-- Each mailbox serves one client, and holds its answer once it is written. -/
structure Matched (s : Sys) : Prop where
  queued : ∀ x ∈ s.requests, ∃ sid, (s.client x).sid = some sid ∧ s.client x ≠ .popped sid
  alone : ∀ x y sid sid', Live s x → Live s y → (s.client x).sid = some sid →
    (s.client y).sid = some sid' → reset_admin sid = reset_admin sid' → x = y
  answer : ∀ x sid v, (s.client x).in_flight = true → (s.client x).sid = some sid →
    Answered s x v → s.cq.mailbox sid = v
  clear : ∀ x sid, (s.client x).in_flight = true → (s.client x).sid = some sid →
    (∀ v, ¬ Answered s x v) → s.cq.mailbox sid = 0
  ready : ∀ x sid, s.client x = .ready sid → ∃ v, Answered s x v
  read : ∀ x sid v, s.client x = .read sid v → Answered s x v
  returned : ∀ x sid v, s.client x = .returned sid v → Answered s x v

/-! ## What a step does to the mailboxes -/

/-- The parts of the state that the answers go through. -/
structure SameAnswers (s t : Sys) : Prop where
  q_requested : t.cq.q_requested = s.cq.q_requested
  v_requested : t.cq.v_requested = s.cq.v_requested
  write : t.listener.write = s.listener.write
  requests : t.requests = s.requests
  decisions : t.decisions = s.decisions

/-- A client goes on without touching a mailbox: it keeps its sid, it does not
come back into flight, and what it learns it reads from its mailbox. -/
structure Moves (s : Sys) (old new : Client) : Prop where
  sid : new.sid = old.sid
  in_flight : new.in_flight = true → old.in_flight = true
  popped : ∀ sid, new ≠ .popped sid
  ready : ∀ sid, new = .ready sid → s.cq.mailbox sid ≠ 0
  read : ∀ sid v, new = .read sid v → old = .ready sid ∧ v = s.cq.mailbox sid
  returned : ∀ sid v, new ≠ .returned sid v

/-- All that one step can do to the clients, the requests and the mailboxes. -/
inductive OutcomeMove (s t : Sys) : Act → Prop
  | still {x : Act} : t.client = s.client → t.started = s.started → SameAnswers s t →
      OutcomeMove s t x
  | move {x : Act} {c : Nat} {p : Client} : t.client = Function.update s.client c p →
      t.started = s.started → SameAnswers s t → Moves s (s.client c) p → OutcomeMove s t x
  | grant {c sid : Nat} {admin : Bool} : s.client c = .idle →
      (s.cq.pop_free admin).1 = .ok sid →
      t.client = Function.update s.client c (.popped sid) → t.started = c :: s.started →
      SameAnswers s t → OutcomeMove s t (.pop_free c admin)
  | enqueue {x : Act} {c sid : Nat} : s.client c = .popped sid →
      t.client = Function.update s.client c (.requested sid) → t.started = s.started →
      t.cq.q_requested = (s.cq.q_requested.push sid 0).2 →
      t.cq.v_requested = s.cq.v_requested → t.listener = s.listener →
      t.requests = s.requests ++ [c] → t.decisions = s.decisions → OutcomeMove s t x
  | decide {x : Act} {sid v : Nat} : (∃ id, x = .accept sid id) ∨ x = .reject sid →
      s.listener.write = none → t.listener.write = some (sid, v) → t.client = s.client →
      t.started = s.started → t.cq.q_requested = s.cq.q_requested.pop →
      t.cq.v_requested = s.cq.v_requested → t.requests = s.requests →
      t.decisions = s.decisions ++ [v] → OutcomeMove s t x
  | write {x : Act} {sid v : Nat} : s.listener.write = some (sid, v) → t.listener.write = none →
      t.client = s.client → t.started = s.started → t.cq.q_requested = s.cq.q_requested →
      t.cq.v_requested = s.cq.v_requested.set (reset_admin sid) v →
      t.requests = s.requests → t.decisions = s.decisions → OutcomeMove s t x
  | reuse {x : Act} {c sid : Nat} {p : Client} : (s.client c).in_flight = true →
      (s.client c).sid = some sid → p.sid = some sid → p.in_flight = false →
      (∀ sid v, p = .returned sid v → s.client c = .read sid v) →
      t.client = Function.update s.client c p → t.started = s.started →
      t.cq.q_requested = s.cq.q_requested →
      t.cq.v_requested = s.cq.v_requested.set (reset_admin sid) 0 →
      t.listener = s.listener → t.requests = s.requests → t.decisions = s.decisions →
      OutcomeMove s t x

theorem step_outcome {s t : Sys} {x : Act} (h : step s x = some t) : OutcomeMove s t x := by
  cases x with
  | pop_free c admin =>
    have h1 : (s.cq.pop_free admin).2.q_requested = s.cq.q_requested := rfl
    have h2 : (s.cq.pop_free admin).2.v_requested = s.cq.v_requested := rfl
    simp only [step] at h
    split at h
    · rename_i hidle
      split at h
      · rename_i sid cq heq
        cases h
        rw [heq] at h1 h2
        exact .grant hidle (by rw [heq]) rfl rfl ⟨h1, h2, rfl, rfl, rfl⟩
      · rename_i e cq heq
        cases h
        rw [heq] at h1 h2
        refine .move rfl rfl ⟨h1, h2, rfl, rfl, rfl⟩ ?_
        constructor <;> simp [hidle, Client.sid, Client.in_flight]
    · cases h
  | push_requested c =>
    simp only [step] at h
    split at h
    · rename_i sid hpop
      split at h
      · rename_i u cq heq
        cases h
        have he := (Prod.mk.inj heq).2
        refine .enqueue hpop rfl rfl ?_ ?_ rfl rfl rfl
        · exact (congrArg ConnectionQueue.q_requested he).symm
        · exact (congrArg ConnectionQueue.v_requested he).symm
      · rename_i e cq heq
        cases h
        have hq : (s.cq.q_requested.push sid 0).2 = s.cq.q_requested := by
          have h1 : (s.cq.q_requested.push sid 0).1 = .error e := (Prod.mk.inj heq).1
          unfold IndexQueue.push at h1 ⊢
          dsimp only at h1 ⊢
          split at h1
          · split at h1 <;> simp at h1
          · rename_i hlt
            rw [if_neg hlt]
        have he := (Prod.mk.inj heq).2
        refine .move rfl rfl ⟨?_, ?_, rfl, rfl, rfl⟩ ?_
        · exact (congrArg ConnectionQueue.q_requested he).symm.trans hq
        · exact (congrArg ConnectionQueue.v_requested he).symm
        · constructor <;> simp [hpop, Client.sid, Client.in_flight]
    · cases h
  | enter_wait c =>
    simp only [step] at h
    split at h
    · rename_i sid hc
      split at h <;> cases h <;> refine .move rfl rfl ⟨rfl, rfl, rfl, rfl, rfl⟩ ?_ <;>
        constructor <;> simp [hc, Client.sid, Client.in_flight]
    · cases h
  | wake c =>
    simp only [step] at h
    split at h
    · rename_i sid hc
      split at h
      · rename_i hbox
        cases h
        refine .move rfl rfl ⟨rfl, rfl, rfl, rfl, rfl⟩ ?_
        constructor <;> simp [hc, Client.sid, Client.in_flight, hbox]
      · cases h
    · cases h
  | time_out c =>
    simp only [step] at h
    split at h
    · rename_i sid hc
      split at h
      · cases h
        refine .move rfl rfl ⟨rfl, rfl, rfl, rfl, rfl⟩ ?_
        constructor <;> simp [hc, Client.sid, Client.in_flight]
      · cases h
    · cases h
  | read c =>
    simp only [step] at h
    split at h
    · rename_i sid hc
      cases h
      refine .move rfl rfl ⟨rfl, rfl, rfl, rfl, rfl⟩ ?_
      constructor <;> simp [hc, Client.sid, Client.in_flight]
    · cases h
  | reuse c =>
    simp only [step] at h
    split at h
    · rename_i sid v hc
      cases h
      refine .reuse (by simp [hc, Client.in_flight]) (by rw [hc]; rfl) rfl rfl ?_ rfl rfl rfl rfl
        rfl rfl rfl
      intro sid' v' hp
      cases hp
      exact hc
    · rename_i sid hc
      cases h
      refine .reuse (by simp [hc, Client.in_flight]) (by rw [hc]; rfl) rfl rfl ?_ rfl rfl rfl rfl
        rfl rfl rfl
      intro sid' v' hp
      cases hp
    · cases h
  | listen =>
    simp only [step] at h
    split at h
    · cases h
      exact .still rfl rfl ⟨rfl, rfl, rfl, rfl, rfl⟩
    · cases h
  | accept sid id =>
    simp only [step] at h
    split at h
    · rename_i hc
      cases h
      exact .decide (Or.inl ⟨id, rfl⟩) (by rw [hc.1]; rfl) rfl rfl rfl rfl rfl rfl rfl
    · cases h
  | reject sid =>
    simp only [step] at h
    split at h
    · rename_i hc
      cases h
      exact .decide (Or.inr rfl) (by rw [hc.1]; rfl) rfl rfl rfl rfl rfl rfl rfl
    · cases h
  | accept_write | reject_write =>
    simp only [step] at h
    split at h
    · rename_i hl
      cases h
      exact .write (by rw [hl]; rfl) rfl rfl rfl rfl rfl rfl rfl
    · cases h
  | reject_push =>
    simp only [step] at h
    split at h
    · rename_i sid hl
      cases h
      exact .still rfl rfl ⟨rfl, rfl, by rw [hl]; rfl, rfl, rfl⟩
    · cases h
  | disconnect sid =>
    simp only [step] at h
    split at h
    · cases h
      exact .still rfl rfl ⟨rfl, rfl, rfl, rfl, rfl⟩
    · cases h
  | terminate =>
    cases h
    exact .still rfl rfl ⟨rfl, rfl, rfl, rfl, rfl⟩

/-! ## Every slot has a mailbox -/

theorem reset_admin_idem (x : Nat) : reset_admin (reset_admin x) = reset_admin x := by
  rw [reset_admin_eq, reset_admin_eq, Nat.mod_mod]

theorem reset_admin_of_set_admin (x : Nat) : reset_admin (set_admin x) = reset_admin x := by
  apply Nat.eq_of_testBit_eq
  intro i
  rw [reset_admin_eq, reset_admin_eq, Nat.testBit_mod_two_pow, Nat.testBit_mod_two_pow]
  unfold set_admin admin_bit
  rw [Nat.testBit_or, Nat.testBit_two_pow]
  by_cases hi : i < 63
  · have hne : ¬ 63 = i := by omega
    simp [hne]
  · simp [hi]

theorem take_entry (q : IndexQueue) :
    q.take.2.queue = q.queue ∧ ∀ v, q.take.1 = .ok v → v ∈ q.queue := by
  unfold IndexQueue.take
  split
  · rename_i v hv
    refine ⟨rfl, ?_⟩
    intro v' hv'
    cases hv'
    exact List.mem_of_getElem? hv
  · exact ⟨rfl, by simp⟩

theorem try_pop_entry (q : IndexQueue) :
    q.try_pop.2.queue = q.queue ∧ ∀ v, q.try_pop.1 = .ok v → v ∈ q.queue := by
  have htake := take_entry q
  unfold IndexQueue.try_pop
  generalize q.take = r at htake ⊢
  split
  · exact ⟨rfl, by simp⟩
  · exact htake

theorem try_pop_admin_entry (q : IndexQueue) (a : Nat) :
    (q.try_pop_admin a).2.queue = q.queue ∧
      ∀ v, (q.try_pop_admin a).1 = .ok v → ∃ u ∈ q.queue, v = set_admin u := by
  have htake := take_entry q
  unfold IndexQueue.try_pop_admin
  generalize q.take = r at htake ⊢
  obtain ⟨r, q'⟩ := r
  split
  · exact ⟨rfl, by simp⟩
  · cases r with
    | error e => exact ⟨htake.1, fun v hv => by cases hv⟩
    | ok u =>
      refine ⟨htake.1, ?_⟩
      intro v hv
      cases hv
      exact ⟨u, htake.2 u rfl, rfl⟩

theorem pop_free_q_free (c : ConnectionQueue) (admin : Bool) :
    (c.pop_free admin).2.q_free =
      (if admin then c.q_free.try_pop_admin c.admin_slots else c.q_free.try_pop).2 := rfl

theorem pop_free_result (c : ConnectionQueue) (admin : Bool) :
    (c.pop_free admin).1 =
      (if admin then c.q_free.try_pop_admin c.admin_slots else c.q_free.try_pop).1 := rfl

/-- A pop leaves the cells alone and hands out the slot of one of them. -/
theorem pop_free_entry (c : ConnectionQueue) (admin : Bool) :
    (c.pop_free admin).2.q_free.queue = c.q_free.queue ∧
      ∀ sid, (c.pop_free admin).1 = .ok sid →
        ∃ v ∈ c.q_free.queue, reset_admin sid = reset_admin v := by
  rw [pop_free_q_free, pop_free_result]
  cases admin with
  | false =>
    have hpop := try_pop_entry c.q_free
    rw [if_neg Bool.false_ne_true]
    exact ⟨hpop.1, fun sid hsid => ⟨sid, hpop.2 sid hsid, rfl⟩⟩
  | true =>
    have hpop := try_pop_admin_entry c.q_free c.admin_slots
    rw [if_pos rfl]
    refine ⟨hpop.1, ?_⟩
    intro sid hsid
    obtain ⟨v, hv, rfl⟩ := hpop.2 sid hsid
    exact ⟨v, hv, reset_admin_of_set_admin v⟩

/-- A push stores the sid, with or without its admin bit. -/
theorem push_entries {q : IndexQueue} {sid a v : Nat} (h : v ∈ (q.push sid a).2.queue) :
    v ∈ q.queue ∨ reset_admin v = reset_admin sid := by
  unfold IndexQueue.push at h
  dsimp only at h
  split at h
  · split at h
    · rcases List.mem_or_eq_of_mem_set h with h | h
      · exact Or.inl h
      · rw [h, reset_admin_idem]
        exact Or.inr rfl
    · rcases List.mem_or_eq_of_mem_set h with h | h
      · exact Or.inl h
      · exact Or.inr (by rw [h])
  · exact Or.inl h

theorem step_boxes {s t : Sys} {x : Act} (h : step s x = some t) :
    t.cq.v_requested.length = s.cq.v_requested.length := by
  cases step_outcome h with
  | still _ _ hs => rw [hs.v_requested]
  | move _ _ hs _ => rw [hs.v_requested]
  | grant _ _ _ _ hs => rw [hs.v_requested]
  | enqueue _ _ _ _ hv => rw [hv]
  | decide _ _ _ _ _ _ hv => rw [hv]
  | write _ _ _ _ _ hv => rw [hv, List.length_set]
  | reuse _ _ _ _ _ _ _ _ hv => rw [hv, List.length_set]

theorem boxed_step {c : Nat} {s t : Sys} {x : Act} (h : Boxed c s) (hs : step s x = some t) :
    Boxed c t := by
  have hlen := step_boxes hs
  have hfree : (∀ v ∈ t.cq.q_free.queue, reset_admin v < c) ∧
      ∀ sid ∈ t.owed, reset_admin sid < c := by
    obtain ⟨-, hmove⟩ := step_slots hs
    cases hmove with
    | still hq _ ho =>
      rw [hq]
      exact ⟨h.entries, fun sid hm => h.owed sid (ho.mem_iff.mp hm)⟩
    | @grant _ _ admin hpop _ ho =>
      obtain ⟨hq, hsid⟩ := pop_free_entry s.cq admin
      rw [hpop] at hq hsid
      refine ⟨by rw [hq]; exact h.entries, ?_⟩
      rw [ho]
      intro sid hm
      rcases List.mem_cons.mp hm with hm | hm
      · obtain ⟨v, hv, he⟩ := hsid _ rfl
        rw [hm, he]
        exact h.entries v hv
      · exact h.owed sid hm
    | @refuse _ admin _ hpop _ ho =>
      have hq := (pop_free_entry s.cq admin).1
      rw [hpop] at hq
      rw [hq, ho]
      exact ⟨h.entries, h.owed⟩
    | give_back hm hq _ ho =>
      rw [hq]
      refine ⟨?_, fun sid hm' => h.owed sid (List.mem_of_mem_erase (ho.mem_iff.mp hm'))⟩
      intro v hv
      rcases push_entries hv with hv | hv
      · exact h.entries v hv
      · rw [hv]
        exact h.owed _ hm
  refine ⟨by rw [hlen]; exact h.boxes, hfree.1, hfree.2, ?_⟩
  intro y sid hy
  cases step_outcome hs with
  | still hc hst _ =>
    rw [hc] at hy
    rw [hst]
    exact h.sids y sid hy
  | decide _ _ _ hc hst =>
    rw [hc] at hy
    rw [hst]
    exact h.sids y sid hy
  | write _ _ hc hst =>
    rw [hc] at hy
    rw [hst]
    exact h.sids y sid hy
  | @move _ d p hc hst _ hm =>
    rw [hc] at hy
    rw [hst]
    by_cases hyd : y = d
    · subst hyd
      rw [Function.update_self, hm.sid] at hy
      exact h.sids y sid hy
    · rw [Function.update_of_ne hyd] at hy
      exact h.sids y sid hy
  | @grant d sid' admin hidle hpop hc hst _ =>
    rw [hc] at hy
    rw [hst]
    by_cases hyd : y = d
    · subst hyd
      rw [Function.update_self] at hy
      cases hy
      obtain ⟨v, hv, he⟩ := (pop_free_entry s.cq admin).2 _ hpop
      exact ⟨List.mem_cons_self, by rw [he]; exact h.entries v hv⟩
    · rw [Function.update_of_ne hyd] at hy
      obtain ⟨h1, h2⟩ := h.sids y sid hy
      exact ⟨List.mem_cons_of_mem _ h1, h2⟩
  | @enqueue _ d sid' hpop hc hst =>
    rw [hc] at hy
    rw [hst]
    by_cases hyd : y = d
    · subst hyd
      rw [Function.update_self] at hy
      exact h.sids y sid (by rw [hpop]; exact hy)
    · rw [Function.update_of_ne hyd] at hy
      exact h.sids y sid hy
  | @reuse _ d sid' p _ hsid hp _ _ hc hst =>
    rw [hc] at hy
    rw [hst]
    by_cases hyd : y = d
    · subst hyd
      rw [Function.update_self, hp] at hy
      exact h.sids y sid (by rw [hsid]; exact hy)
    · rw [Function.update_of_ne hyd] at hy
      exact h.sids y sid hy

/-! ## The queue of requests -/

section Same

variable {s t : Sys}

theorem SameAnswers.written (h : SameAnswers s t) : t.written = s.written := by
  unfold Sys.written
  rw [h.decisions, h.write]

theorem SameAnswers.undecided (h : SameAnswers s t) : t.undecided = s.undecided := by
  unfold Sys.undecided
  rw [h.requests, h.written]

theorem SameAnswers.answered (h : SameAnswers s t) {x v : Nat} :
    Answered t x v ↔ Answered s x v := by
  unfold Answered
  rw [h.requests, h.decisions, h.written]

theorem SameAnswers.mailbox (h : SameAnswers s t) (sid : Nat) :
    t.cq.mailbox sid = s.cq.mailbox sid := by
  unfold ConnectionQueue.mailbox
  rw [h.v_requested]

end Same

theorem written_le (s : Sys) : s.written ≤ s.decisions.length := Nat.sub_le _ _

section Queue

variable {c k : Nat} {s t : Sys}

theorem Fifo.written_le_requests (h : Fifo c k s) : s.written ≤ s.requests.length :=
  Nat.le_trans (written_le s) h.order

theorem Fifo.shaped (h : Fifo c k s) (hc : 0 < c) (hk : k < 2 ^ 63) :
    Shaped s.cq.q_requested c := by
  have h1 := h.bound
  have h2 := h.order
  refine ⟨h.capacity, h.length, hc, ?_, ?_⟩
  · rw [h.pushed]
    omega
  · rw [h.poped]
    omega

/-- A step that leaves the queue and the listener alone, and changes no sid of
a client that has one. -/
theorem Fifo.same (h : Fifo c k s) (hq : t.cq.q_requested = s.cq.q_requested)
    (hl : t.listener.write = s.listener.write) (hr : t.requests = s.requests)
    (hd : t.decisions = s.decisions)
    (hsid : ∀ x sid, (s.client x).sid = some sid → (t.client x).sid = some sid) :
    Fifo c (k + 1) t := by
  have hw : t.written = s.written := by
    unfold Sys.written
    rw [hd, hl]
  refine ⟨?_, ?_, ?_, ?_, ?_, ?_, ?_, ?_, ?_⟩
  · rw [hq]; exact h.capacity
  · rw [hq]; exact h.length
  · rw [hq, hr]; exact h.pushed
  · rw [hq, hd]; exact h.poped
  · rw [hr, hd]; exact h.order
  · rw [hr]; exact Nat.le_succ_of_le h.bound
  · rw [hr]; exact h.nodup
  · rw [hr, hd, hq]
    intro j x hj hx
    obtain ⟨sid, h1, h2⟩ := h.cells j x hj hx
    exact ⟨sid, hsid x sid h1, h2⟩
  · rw [hl, hw, hd, hr]
    intro sid v hwr
    obtain ⟨h1, h2, x, h3, h4⟩ := h.write sid v hwr
    exact ⟨h1, h2, x, h3, hsid x sid h4⟩

theorem Matched.not_queued (hm : Matched s) {d sid : Nat} (hp : s.client d = .popped sid) :
    d ∉ s.requests := by
  intro hmem
  obtain ⟨sid', h1, h2⟩ := hm.queued d hmem
  rw [hp] at h1 h2
  cases h1
  exact h2 rfl

/-- The client that pushes and the undecided ones hold different slots, so the
queue has a free cell. -/
theorem room_to_push (h : Fifo c k s) (hb : Boxed c s) (hm : Matched s) {d sid : Nat}
    (hp : s.client d = .popped sid) : s.requests.length < s.decisions.length + c := by
  let slot : Nat → Nat := fun x => ((s.client x).sid.map reset_admin).getD 0
  have hd := hm.not_queued hp
  have hlive : ∀ x ∈ d :: s.requests.drop s.decisions.length,
      Live s x ∧ ∃ sid, (s.client x).sid = some sid := by
    intro x hx
    rcases List.mem_cons.mp hx with rfl | hx
    · exact ⟨Or.inl (by rw [hp]; rfl), sid, by rw [hp]; rfl⟩
    · have hmem := List.mem_of_mem_drop hx
      obtain ⟨sid', h1, -⟩ := hm.queued x hmem
      exact ⟨Or.inr (List.drop_subset_drop_left _ (written_le s) hx), sid', h1⟩
  have hnodup : ((d :: s.requests.drop s.decisions.length).map slot).Nodup := by
    refine List.Nodup.map_on ?_ ?_
    · intro x hx y hy hxy
      obtain ⟨hlx, sx, hsx⟩ := hlive x hx
      obtain ⟨hly, sy, hsy⟩ := hlive y hy
      simp only [slot, hsx, hsy, Option.map_some, Option.getD_some] at hxy
      exact hm.alone x y sx sy hlx hly hsx hsy hxy
    · refine List.nodup_cons.mpr ⟨fun hmem => hd (List.mem_of_mem_drop hmem), ?_⟩
      exact h.nodup.sublist (List.drop_sublist _ _)
  have hsub : (d :: s.requests.drop s.decisions.length).map slot ⊆ List.range c := by
    intro i hi
    obtain ⟨x, hx, rfl⟩ := List.mem_map.mp hi
    obtain ⟨-, sx, hsx⟩ := hlive x hx
    have hlt := (hb.sids x sx hsx).2
    simpa [slot, hsx] using hlt
  have hlen := (List.subperm_of_subset hnodup hsub).length_le
  have hord := h.order
  simp only [List.length_map, List.length_cons, List.length_drop, List.length_range] at hlen
  omega

theorem Fifo.enqueue (h : Fifo c k s) (hb : Boxed c s) (hm : Matched s) (hk : k < 2 ^ 63)
    {d sid : Nat} (hp : s.client d = .popped sid)
    (hc : t.client = Function.update s.client d (.requested sid))
    (hq : t.cq.q_requested = (s.cq.q_requested.push sid 0).2) (hl : t.listener = s.listener)
    (hr : t.requests = s.requests ++ [d]) (hd : t.decisions = s.decisions) : Fifo c (k + 1) t := by
  have hroom := room_to_push h hb hm hp
  have hcpos : 0 < c := Nat.zero_lt_of_lt (hb.sids d sid (by rw [hp]; rfl)).2
  have hsid : ∀ x sid', (s.client x).sid = some sid' → (t.client x).sid = some sid' := by
    intro x sid' hx
    rw [hc]
    by_cases hxd : x = d
    · subst hxd
      rw [hp] at hx
      rw [Function.update_self]
      exact hx
    · rw [Function.update_of_ne hxd]
      exact hx
  have hdm := hm.not_queued hp
  have hpush : t.cq.q_requested = { s.cq.q_requested with
      queue := s.cq.q_requested.queue.set (s.requests.length % c) sid
      pushed := s.requests.length + 1 } := by
    rw [hq, (h.shaped hcpos hk).push sid 0 (by omega), h.pushed]
    simp
  have hw : t.written = s.written := by
    unfold Sys.written
    rw [hd, hl]
  have hlt := h.order
  refine ⟨?_, ?_, ?_, ?_, ?_, ?_, ?_, ?_, ?_⟩
  · rw [hpush]; exact h.capacity
  · rw [hpush, ← h.length]
    exact List.length_set
  · rw [hpush, hr]
    simp
  · rw [hpush, hd]; exact h.poped
  · rw [hr, hd]
    simp only [List.length_append, List.length_singleton]
    omega
  · rw [hr]
    have := h.bound
    simp only [List.length_append, List.length_singleton]
    omega
  · rw [hr]
    exact List.nodup_append.mpr ⟨h.nodup, List.nodup_singleton d, by
      intro x hx y hy
      rw [List.mem_singleton] at hy
      rintro rfl
      exact hdm (hy ▸ hx)⟩
  · rw [hd, hr, hpush]
    intro j x hj hx
    dsimp only
    rcases Nat.lt_or_ge j s.requests.length with hjl | hjl
    · rw [List.getElem?_append_left hjl] at hx
      obtain ⟨sid', h1, h2⟩ := h.cells j x hj hx
      have hne : s.requests.length % c ≠ j % c := (mod_ne_mod hjl (by omega)).symm
      exact ⟨sid', hsid x sid' h1, by rw [List.getElem?_set_ne hne]; exact h2⟩
    · rw [List.getElem?_append_right hjl] at hx
      obtain ⟨hj0, hxd⟩ : j - s.requests.length = 0 ∧ d = x := by
        simpa [List.getElem?_singleton] using hx
      have hje : j = s.requests.length := by omega
      subst hje hxd
      refine ⟨sid, hsid d sid (by rw [hp]; rfl), ?_⟩
      rw [List.getElem?_set_self]
      rw [h.length]
      exact Nat.mod_lt _ hcpos
  · rw [hl, hw, hd, hr]
    intro sid' v hwr
    obtain ⟨h1, h2, x, h3, h4⟩ := h.write sid' v hwr
    refine ⟨h1, h2, x, ?_, hsid x sid' h4⟩
    rw [List.getElem?_append_left]
    · exact h3
    · exact (List.getElem?_eq_some_iff.mp h3).1

/-- The server answers the sid at the front of the queue, which belongs to the
first client that is not decided. -/
theorem Fifo.front (h : Fifo c k s) (hcpos : 0 < c) (hk : k < 2 ^ 63)
    (hreq : s.cq.q_requested.has_request = true) {sid : Nat} (hslot : s.cq.slot = some sid) :
    ∃ x, s.requests[s.decisions.length]? = some x ∧ (s.client x).sid = some sid := by
  have hsh := h.shaped hcpos hk
  have hplt := hsh.poped_lt
  have hlt : s.decisions.length < s.requests.length := by
    rw [← h.poped, ← h.pushed]
    simpa [IndexQueue.has_request] using hreq
  have hx : s.requests[s.decisions.length]? = some s.requests[s.decisions.length] :=
    List.getElem?_eq_getElem hlt
  refine ⟨_, hx, ?_⟩
  obtain ⟨sid', h1, h2⟩ := h.cells _ _ (Nat.le_refl _) hx
  unfold ConnectionQueue.slot IndexQueue.front at hslot
  rw [hsh.index (by omega), h.poped, h2] at hslot
  cases hslot
  exact h1

theorem Fifo.decide (h : Fifo c k s) (hb : Boxed c s) (hk : k < 2 ^ 63) {sid v : Nat}
    (hreq : s.cq.q_requested.has_request = true) (hslot : s.cq.slot = some sid)
    (hl : t.listener.write = some (sid, v)) (hc : t.client = s.client)
    (hq : t.cq.q_requested = s.cq.q_requested.pop)
    (hr : t.requests = s.requests) (hd : t.decisions = s.decisions ++ [v]) :
    Fifo c (k + 1) t := by
  have hlt : s.decisions.length < s.requests.length := by
    rw [← h.poped, ← h.pushed]
    simpa [IndexQueue.has_request] using hreq
  have hcpos : 0 < c := by
    obtain ⟨sid', h1, -⟩ := h.cells _ _ (Nat.le_refl _) (List.getElem?_eq_getElem hlt)
    exact Nat.zero_lt_of_lt (hb.sids _ _ h1).2
  obtain ⟨x, hx, hsid⟩ := h.front hcpos hk hreq hslot
  have hbound := h.bound
  have hw : t.written = s.decisions.length := by
    unfold Sys.written
    rw [hd, hl]
    simp
  have hpop : t.cq.q_requested = { s.cq.q_requested with poped := s.decisions.length + 1 } := by
    rw [hq]
    unfold IndexQueue.pop
    rw [h.poped, Nat.mod_eq_of_lt (by omega)]
  refine ⟨?_, ?_, ?_, ?_, ?_, ?_, ?_, ?_, ?_⟩
  · rw [hpop]; exact h.capacity
  · rw [hpop]; exact h.length
  · rw [hpop, hr]; exact h.pushed
  · rw [hpop, hd]
    simp
  · rw [hd, hr]
    simp only [List.length_append, List.length_singleton]
    omega
  · rw [hr]; omega
  · rw [hr]; exact h.nodup
  · rw [hd, hr, hc, hpop]
    intro j y hj hy
    simp only [List.length_append, List.length_singleton] at hj
    exact h.cells j y (by omega) hy
  · rw [hl, hw, hd, hr, hc]
    intro sid' v' hwr
    cases hwr
    exact ⟨by simp, by simp, x, hx, hsid⟩

theorem Fifo.wrote (h : Fifo c k s) (hl : t.listener.write = none) (hc : t.client = s.client)
    (hq : t.cq.q_requested = s.cq.q_requested) (hr : t.requests = s.requests)
    (hd : t.decisions = s.decisions) : Fifo c (k + 1) t := by
  refine ⟨?_, ?_, ?_, ?_, ?_, ?_, ?_, ?_, ?_⟩
  · rw [hq]; exact h.capacity
  · rw [hq]; exact h.length
  · rw [hq, hr]; exact h.pushed
  · rw [hq, hd]; exact h.poped
  · rw [hr, hd]; exact h.order
  · rw [hr]; exact Nat.le_succ_of_le h.bound
  · rw [hr]; exact h.nodup
  · rw [hr, hd, hq, hc]; exact h.cells
  · rw [hl]
    intro sid v hwr
    cases hwr

end Queue

theorem fifo_step {c k : Nat} {s t : Sys} {x : Act} (hk : k < 2 ^ 63) (h : Fifo c k s)
    (hb : Boxed c s) (hm : Matched s) (hx : Served s x) (hs : step s x = some t) :
    Fifo c (k + 1) t := by
  cases step_outcome hs with
  | still hc _ hsame =>
    exact h.same hsame.q_requested hsame.write hsame.requests hsame.decisions
      (by rw [hc]; exact fun _ _ hx => hx)
  | @move _ d p hc _ hsame hmv =>
    refine h.same hsame.q_requested hsame.write hsame.requests hsame.decisions ?_
    intro y sid hy
    rw [hc]
    by_cases hyd : y = d
    · subst hyd
      rw [Function.update_self, hmv.sid]
      exact hy
    · rw [Function.update_of_ne hyd]
      exact hy
  | @grant d sid' admin hidle _ hc _ hsame =>
    refine h.same hsame.q_requested hsame.write hsame.requests hsame.decisions ?_
    intro y sid hy
    have hyd : y ≠ d := by
      rintro rfl
      rw [hidle] at hy
      cases hy
    rw [hc, Function.update_of_ne hyd]
    exact hy
  | enqueue hp hc _ hq _ hl hr hd => exact h.enqueue hb hm hk hp hc hq hl hr hd
  | @decide _ sid _ hact _ hl hc _ hq _ hr hd =>
    have hserved : s.cq.q_requested.has_request = true ∧ s.cq.slot = some sid := by
      rcases hact with ⟨id, rfl⟩ | rfl <;> exact hx
    exact h.decide hb hk hserved.1 hserved.2 hl hc hq hr hd
  | write _ hl hc _ hq _ hr hd => exact h.wrote hl hc hq hr hd
  | @reuse _ d sid' p _ hsid hp _ _ hc _ hq _ hl hr hd =>
    refine h.same hq (by rw [hl]) hr hd ?_
    intro y sid hy
    rw [hc]
    by_cases hyd : y = d
    · subst hyd
      rw [Function.update_self, hp, ← hsid]
      exact hy
    · rw [Function.update_of_ne hyd]
      exact hy

/-! ## Each answer reaches its client -/

theorem mailbox_of_set {c d : ConnectionQueue} {sid v : Nat} (sid' : Nat)
    (h : d.v_requested = c.v_requested.set (reset_admin sid) v) :
    (reset_admin sid' = reset_admin sid → reset_admin sid < c.v_requested.length →
      d.mailbox sid' = v) ∧
    (reset_admin sid' ≠ reset_admin sid → d.mailbox sid' = c.mailbox sid') := by
  unfold ConnectionQueue.mailbox
  rw [h]
  constructor
  · intro he hlt
    rw [he, List.getElem?_set_self hlt]
    rfl
  · intro hne
    rw [List.getElem?_set_ne (Ne.symm hne)]

section Answers

variable {c k : Nat} {s t : Sys}

/-- A step that touches neither the mailboxes nor the answers. -/
theorem Matched.keep (h : Matched s) (hbox : t.cq.v_requested = s.cq.v_requested)
    (hans : ∀ x v, Answered t x v ↔ Answered s x v) (hlive : ∀ x, Live t x → Live s x)
    (hreq : ∀ x ∈ t.requests, x ∈ s.requests ∨
      ∃ sid, (t.client x).sid = some sid ∧ t.client x ≠ .popped sid)
    (hcl : ∀ x, t.client x = s.client x ∨ Moves s (s.client x) (t.client x)) : Matched t := by
  have hmb : ∀ sid, t.cq.mailbox sid = s.cq.mailbox sid := by
    intro sid
    unfold ConnectionQueue.mailbox
    rw [hbox]
  have hsid : ∀ x, (t.client x).sid = (s.client x).sid := by
    intro x
    rcases hcl x with he | hm
    · rw [he]
    · exact hm.sid
  have hfl : ∀ x, (t.client x).in_flight = true → (s.client x).in_flight = true := by
    intro x hx
    rcases hcl x with he | hm
    · rwa [← he]
    · exact hm.in_flight hx
  refine ⟨?_, ?_, ?_, ?_, ?_, ?_, ?_⟩
  · intro x hx
    rcases hreq x hx with hx | hx
    · obtain ⟨sid, h1, h2⟩ := h.queued x hx
      refine ⟨sid, by rw [hsid]; exact h1, ?_⟩
      rcases hcl x with he | hm
      · rw [he]; exact h2
      · exact hm.popped sid
    · exact hx
  · intro x y sid sid' hx hy hxs hys he
    rw [hsid] at hxs hys
    exact h.alone x y sid sid' (hlive x hx) (hlive y hy) hxs hys he
  · intro x sid v hf hxs ha
    rw [hmb]
    exact h.answer x sid v (hfl x hf) (by rw [← hsid]; exact hxs) ((hans x v).mp ha)
  · intro x sid hf hxs hna
    rw [hmb]
    exact h.clear x sid (hfl x hf) (by rw [← hsid]; exact hxs)
      (fun v ha => hna v ((hans x v).mpr ha))
  · intro x sid hx
    rcases hcl x with he | hm
    · obtain ⟨v, hv⟩ := h.ready x sid (by rw [← he]; exact hx)
      exact ⟨v, (hans x v).mpr hv⟩
    · -- the mailbox is not clear, so the client has an answer
      by_contra hna
      refine hm.ready sid hx (h.clear x sid (hm.in_flight (by rw [hx]; rfl)) ?_ ?_)
      · rw [← hsid, hx]
        rfl
      · exact fun v hv => hna ⟨v, (hans x v).mpr hv⟩
  · intro x sid v hx
    rw [hans]
    rcases hcl x with he | hm
    · exact h.read x sid v (by rw [← he]; exact hx)
    · obtain ⟨hold, rfl⟩ := hm.read sid v hx
      obtain ⟨v, hv⟩ := h.ready x sid hold
      rw [h.answer x sid v (by rw [hold]; rfl) (by rw [hold]; rfl) hv]
      exact hv
  · intro x sid v hx
    rw [hans]
    rcases hcl x with he | hm
    · exact h.returned x sid v (by rw [← he]; exact hx)
    · exact absurd hx (hm.returned sid v)

theorem update_cases {client client' : Nat → Client} {d : Nat} {p : Client}
    {P : Client → Client → Prop}
    (hc : client' = Function.update client d p) (hp : P (client d) p) (x : Nat) :
    client' x = client x ∨ P (client x) (client' x) := by
  rw [hc]
  by_cases hxd : x = d
  · subst hxd
    rw [Function.update_self]
    exact Or.inr hp
  · rw [Function.update_of_ne hxd]
    exact Or.inl rfl

/-- A slot that is granted has a clear mailbox that nobody uses. -/
theorem Matched.grant (h : Matched s) (hb : Boxed c s) {d sid : Nat}
    (hidle : s.client d = .idle) (hquiet : Quiet s (reset_admin sid))
    (hc : t.client = Function.update s.client d (.popped sid)) (hs : SameAnswers s t) :
    Matched t := by
  have hd : d ∉ s.requests := by
    intro hmem
    obtain ⟨sid', h1, -⟩ := h.queued d hmem
    rw [hidle] at h1
    cases h1
  have hna : ∀ v, ¬ Answered s d v := by
    rintro v ⟨j, -, hj, -⟩
    exact hd (List.mem_of_getElem? hj)
  have hother : ∀ x, x ≠ d → t.client x = s.client x := by
    intro x hx
    rw [hc, Function.update_of_ne hx]
  have hself : t.client d = .popped sid := by rw [hc, Function.update_self]
  have hlive : ∀ x, x ≠ d → Live t x → Live s x := by
    intro x hx hl
    unfold Live at hl ⊢
    rwa [hother x hx, hs.undecided] at hl
  -- no live client has the slot of the new one
  have hfree : ∀ y sid', y ≠ d → Live t y → (t.client y).sid = some sid' →
      reset_admin sid' ≠ reset_admin sid := by
    intro y sid' hy hl hys he
    rw [hother y hy] at hys
    obtain ⟨h1, h2⟩ := hquiet.2 y (hb.sids y sid' hys).1 (by rw [hys]; simp [he])
    rcases hlive y hy hl with hl | hl
    · rw [h1] at hl
      cases hl
    · exact h2 hl
  refine ⟨?_, ?_, ?_, ?_, ?_, ?_, ?_⟩
  · rw [hs.requests]
    intro x hx
    have hxd : x ≠ d := fun he => hd (he ▸ hx)
    rw [hother x hxd]
    exact h.queued x hx
  · intro x y sx sy hx hy hxs hys he
    by_cases hxd : x = d
    · by_cases hyd : y = d
      · rw [hxd, hyd]
      · rw [hxd, hself] at hxs
        cases hxs
        exact absurd he.symm (hfree y sy hyd hy hys)
    · by_cases hyd : y = d
      · rw [hyd, hself] at hys
        cases hys
        exact absurd he (hfree x sx hxd hx hxs)
      · rw [hother x hxd] at hxs
        rw [hother y hyd] at hys
        exact h.alone x y sx sy (hlive x hxd hx) (hlive y hyd hy) hxs hys he
  · intro x sx v hf hxs ha
    rw [hs.answered] at ha
    rw [hs.mailbox]
    by_cases hxd : x = d
    · exact absurd ha (hxd ▸ hna v)
    · rw [hother x hxd] at hf hxs
      exact h.answer x sx v hf hxs ha
  · intro x sx hf hxs hn
    rw [hs.mailbox]
    by_cases hxd : x = d
    · rw [hxd, hself] at hxs
      cases hxs
      have hclear := hquiet.1
      unfold ConnectionQueue.mailbox at hclear ⊢
      rwa [reset_admin_idem] at hclear
    · rw [hother x hxd] at hf hxs
      exact h.clear x sx hf hxs (fun v hv => hn v (hs.answered.mpr hv))
  · intro x sx hx
    by_cases hxd : x = d
    · rw [hxd, hself] at hx
      cases hx
    · rw [hother x hxd] at hx
      obtain ⟨v, hv⟩ := h.ready x sx hx
      exact ⟨v, hs.answered.mpr hv⟩
  · intro x sx v hx
    by_cases hxd : x = d
    · rw [hxd, hself] at hx
      cases hx
    · rw [hother x hxd] at hx
      exact hs.answered.mpr (h.read x sx v hx)
  · intro x sx v hx
    by_cases hxd : x = d
    · rw [hxd, hself] at hx
      cases hx
    · rw [hother x hxd] at hx
      exact hs.answered.mpr (h.returned x sx v hx)

/-- The write puts the answer of the first client that waits for one into a
mailbox that no other client uses. -/
theorem Matched.wrote (h : Matched s) (hf : Fifo c k s) (hb : Boxed c s) {sid v : Nat}
    (hl : s.listener.write = some (sid, v)) (hl' : t.listener.write = none)
    (hc : t.client = s.client)
    (hv : t.cq.v_requested = s.cq.v_requested.set (reset_admin sid) v)
    (hr : t.requests = s.requests) (hd : t.decisions = s.decisions) : Matched t := by
  obtain ⟨hlen, hdec, x0, hx0, hsid0⟩ := hf.write sid v hl
  have hw : t.written = s.written + 1 := by
    unfold Sys.written at hlen ⊢
    rw [hd, hl']
    simpa using hlen
  have hans : ∀ x u, Answered s x u → Answered t x u := by
    rintro x u ⟨j, hj, h1, h2⟩
    exact ⟨j, by omega, by rw [hr]; exact h1, by rw [hd]; exact h2⟩
  have hans0 : Answered t x0 v :=
    ⟨s.written, by omega, by rw [hr]; exact hx0, by rw [hd]; exact hdec⟩
  have hlive : ∀ x, Live t x → Live s x := by
    intro x hx
    unfold Live Sys.undecided at hx ⊢
    rw [hc, hr, hw] at hx
    exact hx.imp_right fun hm => List.drop_subset_drop_left _ (Nat.le_succ _) hm
  have hlive0 : Live s x0 := by
    refine Or.inr (List.mem_iff_getElem?.mpr ⟨0, ?_⟩)
    unfold Sys.undecided
    rwa [List.getElem?_drop]
  have hother : ∀ x sx, (s.client x).in_flight = true → (s.client x).sid = some sx → x ≠ x0 →
      t.cq.mailbox sx = s.cq.mailbox sx := by
    intro x sx hfl hxs hne
    refine (mailbox_of_set sx hv).2 fun he => hne ?_
    exact h.alone x x0 sx sid (Or.inl hfl) hlive0 hxs hsid0 he
  refine ⟨?_, ?_, ?_, ?_, ?_, ?_, ?_⟩
  · rw [hr, hc]; exact h.queued
  · rw [hc]
    intro x y sx sy hx hy
    exact h.alone x y sx sy (hlive x hx) (hlive y hy)
  · rw [hc]
    rintro x sx u hfl hxs ⟨j, hj, h1, h2⟩
    rw [hr] at h1
    rw [hd] at h2
    rcases Nat.lt_or_ge j s.written with hjw | hjw
    · have hne : x ≠ x0 := by
        rintro rfl
        have hje := (List.getElem?_inj (List.getElem?_eq_some_iff.mp h1).1 hf.nodup).mp
          (h1.trans hx0.symm)
        omega
      rw [hother x sx hfl hxs hne]
      exact h.answer x sx u hfl hxs ⟨j, hjw, h1, h2⟩
    · have hje : j = s.written := by omega
      subst hje
      rw [hx0] at h1
      rw [hdec] at h2
      cases h1
      cases h2
      rw [hsid0] at hxs
      cases hxs
      exact (mailbox_of_set sid hv).1 rfl (Nat.lt_of_lt_of_le (hb.sids x0 sid hsid0).2 hb.boxes)
  · rw [hc]
    intro x sx hfl hxs hn
    have hne : x ≠ x0 := by
      rintro rfl
      exact hn v hans0
    rw [hother x sx hfl hxs hne]
    exact h.clear x sx hfl hxs fun u hu => hn u (hans x u hu)
  · rw [hc]
    intro x sx hx
    obtain ⟨u, hu⟩ := h.ready x sx hx
    exact ⟨u, hans x u hu⟩
  · rw [hc]
    exact fun x sx u hx => hans x u (h.read x sx u hx)
  · rw [hc]
    exact fun x sx u hx => hans x u (h.returned x sx u hx)

/-- A client clears its own mailbox when it leaves, and no other client of the
slot is there to lose an answer. -/
theorem Matched.reuse (h : Matched s) {d sid : Nat} {p : Client}
    (hfl : (s.client d).in_flight = true) (hsid : (s.client d).sid = some sid)
    (hp : p.sid = some sid) (hpf : p.in_flight = false)
    (hret : ∀ sid v, p = .returned sid v → s.client d = .read sid v)
    (hc : t.client = Function.update s.client d p)
    (hv : t.cq.v_requested = s.cq.v_requested.set (reset_admin sid) 0)
    (hl : t.listener = s.listener) (hr : t.requests = s.requests)
    (hd : t.decisions = s.decisions) : Matched t := by
  have hw : t.written = s.written := by
    unfold Sys.written
    rw [hd, hl]
  have hans : ∀ x u, Answered t x u ↔ Answered s x u := by
    intro x u
    unfold Answered
    rw [hr, hd, hw]
  have hother : ∀ x, x ≠ d → t.client x = s.client x := by
    intro x hx
    rw [hc, Function.update_of_ne hx]
  have hself : t.client d = p := by rw [hc, Function.update_self]
  have hlive : ∀ x, Live t x → Live s x := by
    intro x hx
    by_cases hxd : x = d
    · exact Or.inl (hxd ▸ hfl)
    · unfold Live Sys.undecided at hx ⊢
      rwa [hother x hxd, hr, hw] at hx
  have hsids : ∀ x, (t.client x).sid = (s.client x).sid := by
    intro x
    by_cases hxd : x = d
    · rw [hxd, hself, hp, hsid]
    · rw [hother x hxd]
  have hne : ∀ x, (t.client x).in_flight = true → x ≠ d := by
    rintro x hx rfl
    rw [hself, hpf] at hx
    cases hx
  have hbox : ∀ x sx, x ≠ d → (s.client x).in_flight = true → (s.client x).sid = some sx →
      t.cq.mailbox sx = s.cq.mailbox sx := by
    intro x sx hxd hxf hxs
    refine (mailbox_of_set sx hv).2 fun he => hxd ?_
    exact h.alone x d sx sid (Or.inl hxf) (Or.inl hfl) hxs hsid he
  refine ⟨?_, ?_, ?_, ?_, ?_, ?_, ?_⟩
  · rw [hr]
    intro x hx
    obtain ⟨sx, h1, h2⟩ := h.queued x hx
    refine ⟨sx, by rw [hsids]; exact h1, ?_⟩
    by_cases hxd : x = d
    · rw [hxd, hself]
      rintro rfl
      cases hpf
    · rw [hother x hxd]
      exact h2
  · intro x y sx sy hx hy hxs hys
    rw [hsids] at hxs hys
    exact h.alone x y sx sy (hlive x hx) (hlive y hy) hxs hys
  · intro x sx u hf hxs ha
    have hxd := hne x hf
    rw [hother x hxd] at hf hxs
    rw [hbox x sx hxd hf hxs]
    exact h.answer x sx u hf hxs ((hans x u).mp ha)
  · intro x sx hf hxs hn
    have hxd := hne x hf
    rw [hother x hxd] at hf hxs
    rw [hbox x sx hxd hf hxs]
    exact h.clear x sx hf hxs fun u hu => hn u ((hans x u).mpr hu)
  · intro x sx hx
    have hxd := hne x (by rw [hx]; rfl)
    rw [hother x hxd] at hx
    obtain ⟨u, hu⟩ := h.ready x sx hx
    exact ⟨u, (hans x u).mpr hu⟩
  · intro x sx u hx
    have hxd := hne x (by rw [hx]; rfl)
    rw [hother x hxd] at hx
    exact (hans x u).mpr (h.read x sx u hx)
  · intro x sx u hx
    rw [hans]
    by_cases hxd : x = d
    · subst hxd
      rw [hself] at hx
      exact h.read x sx u (hret sx u hx)
    · rw [hother x hxd] at hx
      exact h.returned x sx u hx

end Answers

theorem matched_step {c k : Nat} {s t : Sys} {x : Act} (h : Matched s) (hf : Fifo c k s)
    (hb : Boxed c s) (hx : QuietGrant s x) (hs : step s x = some t) : Matched t := by
  cases step_outcome hs with
  | still hc _ hsame =>
    refine h.keep hsame.v_requested (fun _ _ => hsame.answered) ?_ ?_ ?_
    · intro y
      unfold Live
      rw [hc, hsame.undecided]
      exact id
    · rw [hsame.requests]
      exact fun _ hy => Or.inl hy
    · rw [hc]
      exact fun _ => Or.inl rfl
  | @move _ d p hc _ hsame hmv =>
    refine h.keep hsame.v_requested (fun _ _ => hsame.answered) ?_ ?_ (update_cases hc hmv)
    · intro y hy
      unfold Live at hy ⊢
      rw [hsame.undecided] at hy
      refine hy.imp_left fun hyf => ?_
      rcases update_cases hc hmv y with he | hm
      · rwa [← he]
      · exact hm.in_flight hyf
    · rw [hsame.requests]
      exact fun _ hy => Or.inl hy
  | grant hidle hpop hc _ hsame => exact h.grant hb hidle (hx _ hpop) hc hsame
  | @enqueue _ d sid hp hc _ _ hv hl hr hd =>
    have hw : t.written = s.written := by
      unfold Sys.written
      rw [hd, hl]
    have hmv : Moves s (s.client d) (.requested sid) := by
      constructor <;> simp [hp, Client.sid, Client.in_flight]
    have hlt := hf.written_le_requests
    refine h.keep hv ?_ ?_ ?_ (update_cases hc hmv)
    · intro y v
      unfold Answered
      rw [hr, hd, hw]
      constructor
      · rintro ⟨j, hj, h1, h2⟩
        rw [List.getElem?_append_left (by omega)] at h1
        exact ⟨j, hj, h1, h2⟩
      · rintro ⟨j, hj, h1, h2⟩
        exact ⟨j, hj, by rw [List.getElem?_append_left (by omega)]; exact h1, h2⟩
    · intro y hy
      by_cases hyd : y = d
      · exact Or.inl (by rw [hyd, hp]; rfl)
      · unfold Live Sys.undecided at hy ⊢
        rw [hc, Function.update_of_ne hyd, hr, hw, List.drop_append_of_le_length hlt,
          List.mem_append, List.mem_singleton] at hy
        tauto
    · intro y hy
      rw [hr, List.mem_append, List.mem_singleton] at hy
      rcases hy with hy | rfl
      · exact Or.inl hy
      · refine Or.inr ⟨sid, ?_, ?_⟩ <;> rw [hc, Function.update_self]
        · rfl
        · simp
  | @decide _ sid v _ hl hl' hc _ _ hv hr hd =>
    have hw : s.written = s.decisions.length := by
      unfold Sys.written
      rw [hl]
      rfl
    have hw' : t.written = s.written := by
      rw [hw]
      unfold Sys.written
      rw [hd, hl']
      simp
    refine h.keep hv ?_ ?_ ?_ ?_
    · intro y u
      unfold Answered
      rw [hr, hd, hw', hw]
      constructor
      · rintro ⟨j, hj, h1, h2⟩
        rw [List.getElem?_append_left hj] at h2
        exact ⟨j, hj, h1, h2⟩
      · rintro ⟨j, hj, h1, h2⟩
        exact ⟨j, hj, h1, by rw [List.getElem?_append_left hj]; exact h2⟩
    · intro y
      unfold Live Sys.undecided
      rw [hc, hr, hw']
      exact id
    · rw [hr]
      exact fun _ hy => Or.inl hy
    · rw [hc]
      exact fun _ => Or.inl rfl
  | write hl hl' hc _ _ hv hr hd => exact h.wrote hf hb hl hl' hc hv hr hd
  | reuse hfl hsid hp hpf hret hc _ _ hv hl hr hd =>
    exact h.reuse hfl hsid hp hpf hret hc hv hl hr hd

/-! ## Over every run -/

/-- All that is kept by the steps of an orderly run of `k` steps so far. -/
structure OrderlyState (c k : Nat) (s : Sys) : Prop where
  fifo : Fifo c k s
  boxed : Boxed c s
  matched : Matched s

theorem orderlyState_init (n a : Nat) :
    OrderlyState ((n + a) % 2 ^ 64 % 2 ^ 32) 0 (Sys.init n a) := by
  have hno : ∀ x, ((Sys.init n a).client x).sid = none := fun _ => rfl
  refine ⟨⟨rfl, List.length_replicate, rfl, rfl, Nat.le_refl _, Nat.le_refl _, List.nodup_nil, ?_,
    ?_⟩, ⟨?_, ?_, ?_, ?_⟩, ⟨?_, ?_, ?_, ?_, ?_, ?_, ?_⟩⟩
  · intro j x _ hx
    cases hx
  · intro sid v hw
    cases hw
  · change _ ≤ (List.replicate ((n + a) % 2 ^ 64) 0).length
    rw [List.length_replicate]
    exact Nat.mod_le _ _
  · intro v hv
    have hlt : v < (n + a) % 2 ^ 64 % 2 ^ 32 := List.mem_range.mp hv
    rw [reset_admin_eq]
    exact Nat.lt_of_le_of_lt (Nat.mod_le _ _) hlt
  · intro sid hm
    cases hm
  · intro x sid hx
    rw [hno] at hx
    cases hx
  · intro x hx
    cases hx
  · intro x y sid sid' _ _ hx
    rw [hno] at hx
    cases hx
  · intro x sid v _ hx
    rw [hno] at hx
    cases hx
  · intro x sid _ hx
    rw [hno] at hx
    cases hx
  · intro x sid hx
    cases hx
  · intro x sid v hx
    cases hx
  · intro x sid v hx
    cases hx

theorem run_orderlyState {n a : Nat} {acts : List Act} {s : Sys} (hlen : acts.length < 2 ^ 63)
    (hr : RunOf step Orderly (Sys.init n a) acts s) :
    OrderlyState ((n + a) % 2 ^ 64 % 2 ^ 32) acts.length s := by
  have h := hr.inv_length
    (I := fun k s => k < 2 ^ 63 → OrderlyState ((n + a) % 2 ^ 64 % 2 ^ 32) k s)
    (fun _ => orderlyState_init n a) ?_
  · exact h hlen
  · intro k t x u ih hx hs hk
    obtain ⟨hf, hb, hm⟩ := ih (by omega)
    exact ⟨fifo_step (by omega) hf hb hm hx.1 hs, boxed_step hb hs, matched_step hm hf hb hx.2 hs⟩

/-- What the server decided for the request of client `x`. -/
def DecidedFor (s : Sys) (x v : Nat) : Prop :=
  ∃ j : Nat, s.requests[j]? = some x ∧ s.decisions[j]? = some v

/-- Each client makes one request and gets the outcome of that request. -/
structure OutcomesMatch (s : Sys) : Prop where
  one_request : s.requests.Nodup
  returned : ∀ x sid v, s.client x = .returned sid v → DecidedFor s x v
  /-- No other client takes the outcome away before its client has read it. -/
  kept : ∀ x sid v, (s.client x).in_flight = true → (s.client x).sid = some sid →
    Answered s x v → s.cq.mailbox sid = v

/-- Every wait that returns gives its client the outcome of its own request, in
every run in which each slot is granted with a quiet mailbox. -/
theorem a_wait_returns_its_own_outcome (n a : Nat) (acts : List Act) (s : Sys)
    (hlen : acts.length < 2 ^ 63) (hr : RunOf step Orderly (Sys.init n a) acts s) :
    OutcomesMatch s := by
  obtain ⟨hf, -, hm⟩ := run_orderlyState hlen hr
  refine ⟨hf.nodup, ?_, hm.answer⟩
  intro x sid v hx
  obtain ⟨j, -, h1, h2⟩ := hm.returned x sid v hx
  exact ⟨j, h1, h2⟩

instance (s : Sys) (slot : Nat) : Decidable (Quiet s slot) := by
  unfold Quiet
  infer_instance

/-- The test for `Served`. -/
def served (s : Sys) : Act → Bool
  | .accept sid _ | .reject sid => s.cq.q_requested.has_request && s.cq.slot == some sid
  | .disconnect sid => decide (sid ∈ s.accepted)
  | _ => true

/-- The test for `Orderly`. -/
def orderly (s : Sys) : Act → Bool
  | .pop_free _ admin =>
    match (s.cq.pop_free admin).1 with
    | .ok sid => decide (Quiet s (reset_admin sid))
    | .error _ => true
  | x => served s x

theorem served_of_test (s : Sys) (x : Act) (h : served s x = true) : Served s x := by
  cases x with
  | accept sid id => simpa [served, Served] using h
  | reject sid => simpa [served, Served] using h
  | disconnect sid => simpa [served, Served] using h
  | _ => trivial

theorem orderly_of_test (s : Sys) (x : Act) (h : orderly s x = true) : Orderly s x := by
  cases x with
  | pop_free c admin =>
    refine ⟨trivial, ?_⟩
    intro sid hsid
    simp only [orderly, hsid, decide_eq_true_eq] at h
    exact h
  | _ => exact ⟨served_of_test s _ h, trivial⟩

/-- A client is accepted on the only slot, its session ends, and the next
client of that slot is rejected. -/
def oneSlotTwoClients : List Act :=
  [.pop_free 0 false, .push_requested 0, .enter_wait 0, .listen, .accept 0 7, .accept_write,
    .wake 0, .read 0, .reuse 0, .disconnect 0,
    .pop_free 1 false, .push_requested 1, .enter_wait 1, .listen, .reject 0, .reject_write,
    .reject_push, .wake 1, .read 1, .reuse 1]

theorem a_wait_returns_its_own_outcome_on_one_slot :
    ∃ s, RunOf step Orderly (Sys.init 1 0) oneSlotTwoClients s ∧ s.client 0 = .returned 0 7 ∧
      s.client 1 = .returned 0 session_id_indicating_error ∧ OutcomesMatch s := by
  obtain ⟨s, hr, hp⟩ := RunOf.exists_of_exec (s := Sys.init 1 0) orderly_of_test
    (p := fun s => s.client 0 = .returned 0 7 ∧
      s.client 1 = .returned 0 session_id_indicating_error)
    (by decide : (exec (guarded step orderly) _ oneSlotTwoClients).any _ = true)
  have hp' : s.client 0 = .returned 0 7 ∧
      s.client 1 = .returned 0 session_id_indicating_error := by simpa using hp
  exact ⟨s, hr, hp'.1, hp'.2, a_wait_returns_its_own_outcome 1 0 _ s (by decide) hr⟩

/-- A rejected client leaves the rejection in the mailbox of its slot, and the
next client of the slot returns it before the server has decided anything. -/
theorem a_client_returns_an_earlier_rejection : ∃ s, RunOf step Served (Sys.init 1 0)
    [.pop_free 0 false, .push_requested 0, .listen, .reject 0, .reject_write, .reject_push,
      .pop_free 1 false, .push_requested 1, .enter_wait 1, .wake 1, .read 1, .reuse 1] s ∧
    s.client 1 = .returned 0 session_id_indicating_error ∧
    s.requests = [0, 1] ∧ s.decisions = [session_id_indicating_error] ∧ ¬ OutcomesMatch s := by
  obtain ⟨s, hr, hp⟩ := RunOf.exists_of_exec (s := Sys.init 1 0) served_of_test
    (p := fun s => s.client 1 = .returned 0 session_id_indicating_error ∧
      s.requests = [0, 1] ∧ s.decisions = [session_id_indicating_error])
    (by decide : (exec (guarded step served) _ [.pop_free 0 false, .push_requested 0, .listen,
      .reject 0, .reject_write, .reject_push, .pop_free 1 false, .push_requested 1, .enter_wait 1,
      .wake 1, .read 1, .reuse 1]).any _ = true)
  obtain ⟨hc, hq, hd⟩ : s.client 1 = .returned 0 session_id_indicating_error ∧
      s.requests = [0, 1] ∧ s.decisions = [session_id_indicating_error] := by simpa using hp
  refine ⟨s, hr, hc, hq, hd, ?_⟩
  intro h
  obtain ⟨j, h1, h2⟩ := h.returned 1 0 _ hc
  rw [hd] at h2
  have hj : j = 0 := by
    have := (List.getElem?_eq_some_iff.mp h2).1
    simpa using this
  rw [hq, hj] at h1
  cases h1

end tateyama_bootstrap.connection_queue
