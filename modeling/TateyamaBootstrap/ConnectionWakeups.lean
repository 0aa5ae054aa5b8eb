-- The mutexes and condition variables of the connection queue (transport/wire.h): the one
-- that the listener waits on for requests, and one for each slot that a client waits on for
-- its answer. The steps of the queue are those of `step`, taken apart into the steps of the
-- threads that do them.
import TateyamaBootstrap.Conditions
import TateyamaBootstrap.ConnectionOutcome

open runs conditions

namespace tateyama_bootstrap.connection_queue

/-! ## The threads -/

inductive Party
  | listener
  | client (c : Nat)
deriving DecidableEq, Repr

/-- The condition variables. -/
inductive Cond
  /-- `condition_` of `q_requested_`, with `mutex_`. -/
  | condition
  /-- `c_accepted_` of the element of a slot, with `m_accepted_`. -/
  | c_accepted (slot : Nat)
deriving DecidableEq, Repr

structure Threads where
  queue : Sys
  sync : Conditions Cond Party

def Threads.init (n as_n : Nat) : Threads where
  queue := .init n as_n
  sync := .init

inductive Move
  /-- A step outside the sections. -/
  | plain (a : Act)
  /-- A client calls `q_requested_.push`. -/
  | push (c : Nat)
  /-- The listener calls `q_requested_.wait`. -/
  | listen
  /-- A client calls `wait` of its element. -/
  | wait (c : Nat)
  /-- `accept` or `reject` of an element writes the answer and goes on to `notify`. -/
  | answer
  /-- `request_terminate` calls `notify`, without the mutex. -/
  | notify_terminate (w : Party)
  /-- The next step of a thread in a section; a notify wakes `w`. -/
  | sync (p w : Party)
  /-- A blocked thread wakes by itself, by its timeout when `last`. -/
  | wake (p : Party) (last : Bool)
deriving DecidableEq, Repr

/-- Who does a step; the sessions that end and the shutdown are other threads. -/
def Act.party : Act → Option Party
  | .pop_free c _ | .push_requested c | .enter_wait c | .wake c | .time_out c | .read c
  | .reuse c => some (.client c)
  | .listen | .accept _ _ | .accept_write | .reject _ | .reject_write | .reject_push =>
    some .listener
  | .disconnect _ | .terminate => none

/-- The step is done outside the sections. -/
def Act.plain : Act → Bool
  | .pop_free _ _ | .read _ | .reuse _ | .accept _ _ | .reject _ | .reject_push | .disconnect _
  | .terminate => true
  | _ => false

namespace Threads

/-- What the wait condition of a thread says. -/
def condition (s : Threads) : Party → Bool
  | .listener => s.queue.cq.q_requested.has_request || s.queue.cq.terminate
  | .client c =>
    match s.queue.client c with
    | .waiting sid => s.queue.cq.mailbox sid ≠ 0
    | _ => false

/-- What the next step of a thread in a section does to the queue. -/
def act_in_section (s : Threads) (p : Party) : Option Act :=
  match p, s.sync.pc p with
  | .client c, .signal .condition .act => some (.push_requested c)
  | .client c, .wait (.c_accepted _) (.test last) =>
    if s.condition p then some (.wake c) else if last then some (.time_out c) else none
  | .listener, .wait .condition (.unlock _) =>
    if s.queue.cq.q_requested.has_request then some .listen else none
  | _, _ => none

/-- `queue_.at` throws in a push, which leaves the section without a notify. -/
def push_throws (s : Threads) (p : Party) : Bool :=
  match p, s.sync.pc p with
  | .client c, .signal .condition .act =>
    match s.queue.client c with
    | .popped sid => !(s.queue.cq.push_requested sid).1.isOk
    | _ => false
  | _, _ => false

/-- What a move does to the queue. -/
def act (s : Threads) : Move → Option Act
  | .plain a => some a
  | .wait c => some (.enter_wait c)
  | .answer =>
    match s.queue.listener with
    | .accepting _ _ => some .accept_write
    | .rejecting _ => some .reject_write
    | _ => none
  | .sync p _ => s.act_in_section p
  | _ => none

def go (s : Threads) : Move → Option Threads
  | .plain a =>
    if a.plain ∧ a.party.all (fun p => s.sync.pc p = .out) then
      (step s.queue a).map fun queue => { s with queue }
    else none
  | .push c =>
    match s.queue.client c with
    | .popped _ =>
      if s.sync.pc (.client c) = .out then
        some { s with sync := s.sync.move (.client c) (.signal .condition .lock) }
      else none
    | _ => none
  | .listen =>
    if s.sync.pc .listener = .out ∧ s.queue.listener = .idle then
      some { s with sync := s.sync.move .listener (.wait .condition .lock) }
    else none
  | .wait c =>
    if s.sync.pc (.client c) = .out then
      (step s.queue (.enter_wait c)).map fun queue =>
        match queue.client c with
        | .waiting sid =>
          { queue, sync := s.sync.move (.client c) (.wait (.c_accepted (reset_admin sid)) .lock) }
        | _ => { s with queue }
    else none
  | .answer =>
    if s.sync.pc .listener = .out then
      match s.queue.listener with
      | .accepting sid _ => (step s.queue .accept_write).map fun queue =>
          { queue, sync := s.sync.move .listener (.signal (.c_accepted (reset_admin sid)) .lock) }
      | .rejecting sid => (step s.queue .reject_write).map fun queue =>
          { queue, sync := s.sync.move .listener (.signal (.c_accepted (reset_admin sid)) .lock) }
      | _ => none
    else none
  | .notify_terminate w =>
    if s.queue.cq.terminate then some { s with sync := s.sync.notify .condition w } else none
  | .sync p w =>
    (s.sync.step p (s.condition p) w).bind fun sync =>
      match s.act_in_section p with
      | none => some { s with sync }
      | some a => (step s.queue a).map fun queue =>
          { queue
            sync := if s.push_throws p then s.sync.move p (.signal .condition .unlock) else sync }
  | .wake p last => (s.sync.wake p last).map fun sync => { s with sync }

end Threads

/-- A run of clients and a server that take a slot only when it is quiet, in which a
`notify_one` wakes a thread if one is blocked. -/
structure Fair (s : Threads) (m : Move) : Prop where
  orderly : ∀ a, s.act m = some a → Orderly s.queue a
  notifies : ∀ p w o q, m = .sync p w → s.sync.pc p = .signal o .notify →
    s.sync.pc q = .wait o .blocked → s.sync.pc w = .wait o .blocked

/-! ## What a step leaves alone -/

section

variable {s t : Sys} {a : Act}

theorem step_client_of_ne (h : step s a = some t) {c : Nat} (hc : a.party ≠ some (.client c)) :
    t.client c = s.client c := by
  have hupdate : ∀ d x, d ≠ c → Function.update s.client d x c = s.client c := fun d x hd =>
    Function.update_of_ne (Ne.symm hd) ..
  cases a
  case pop_free d _ | push_requested d | enter_wait d | wake d | time_out d | read d | reuse d =>
    have hd : d ≠ c := by
      rintro rfl
      exact hc rfl
    simp only [step] at h
    repeat' split at h
    all_goals cases h
    all_goals exact hupdate d _ hd
  all_goals
    simp only [step] at h
    repeat' split at h
    all_goals cases h
    all_goals rfl

theorem step_write (h : step s a = some t) (haccept : a ≠ .accept_write)
    (hreject : a ≠ .reject_write) {x : Nat × Nat} (hx : s.listener.write = some x) :
    t.listener.write = some x := by
  cases a
  case accept_write => exact absurd rfl haccept
  case reject_write => exact absurd rfl hreject
  case accept | reject =>
    simp only [step] at h
    split at h
    · rename_i hidle
      rw [hidle.1] at hx
      cases hx
    · cases h
  case reject_push =>
    simp only [step] at h
    split at h
    · rename_i hfreeing
      rw [hfreeing] at hx
      cases hx
    · cases h
  all_goals
    simp only [step] at h
    repeat' split at h
    all_goals cases h
    all_goals exact hx

/-- Nobody but the listener makes a mailbox full. -/
theorem step_mailbox (h : step s a = some t) (haccept : a ≠ .accept_write)
    (hreject : a ≠ .reject_write) {sid : Nat} (hfull : t.cq.mailbox sid ≠ 0) :
    s.cq.mailbox sid ≠ 0 := by
  have hsame : t.cq.v_requested = s.cq.v_requested → s.cq.mailbox sid ≠ 0 := by
    intro hv
    unfold ConnectionQueue.mailbox at hfull ⊢
    rwa [hv] at hfull
  cases step_outcome h with
  | still _ _ hsa | move _ _ hsa _ | grant _ _ _ _ hsa => exact hsame hsa.v_requested
  | enqueue _ _ _ _ hv _ _ _ => exact hsame hv
  | decide _ _ _ _ _ _ hv _ _ => exact hsame hv
  | write hw hnone _ _ _ _ _ _ =>
    rw [step_write h haccept hreject hw] at hnone
    cases hnone
  | @reuse _ c sid' _ _ _ _ _ _ _ _ _ hv _ _ _ =>
    by_cases he : reset_admin sid' = reset_admin sid
    · refine absurd ?_ hfull
      unfold ConnectionQueue.mailbox
      rw [hv, he, List.getElem?_set, if_pos rfl]
      split <;> rfl
    · rwa [(mailbox_of_set sid hv).2 (Ne.symm he)] at hfull

theorem step_q_requested (h : step s a = some t) (hpush : ∀ c, a ≠ .push_requested c)
    (haccept : ∀ sid id, a ≠ .accept sid id) (hreject : ∀ sid, a ≠ .reject sid) :
    t.cq.q_requested = s.cq.q_requested := by
  cases a
  case push_requested c => exact absurd rfl (hpush c)
  case accept sid id => exact absurd rfl (haccept sid id)
  case reject sid => exact absurd rfl (hreject sid)
  case pop_free c admin =>
    have hpop : (s.cq.pop_free admin).2.q_requested = s.cq.q_requested := rfl
    simp only [step] at h
    repeat' split at h
    · rename_i heq
      cases h
      rwa [heq] at hpop
    · rename_i heq
      cases h
      rwa [heq] at hpop
    · cases h
  all_goals
    simp only [step] at h
    repeat' split at h
    all_goals cases h
    all_goals rfl

end

/-! ## Where the threads stand -/

/-- The condition of the listener without the shutdown, which notifies without the mutex. -/
def Threads.awaited (s : Threads) : Party → Bool
  | .listener => s.queue.cq.q_requested.has_request
  | p => s.condition p

/-- The listener waits for requests and signals answers, a client signals its request and waits
for its answer. -/
def At (q : Sys) : Party → Pc Cond → Prop
  | _, .out => True
  | .listener, .wait o _ => o = .condition
  | .listener, .signal o _ => ∃ slot, o = .c_accepted slot
  | .client c, .wait o y => ∃ sid, o = .c_accepted (reset_admin sid) ∧
      (q.client c).sid = some sid ∧ (q.client c).in_flight = true ∧
      ((∀ ok, y ≠ .unlock ok) → q.client c = .waiting sid)
  | .client c, .signal o k => o = .condition ∧
      (k = .lock ∨ k = .act → ∃ sid, q.client c = .popped sid)

theorem At.congr {q q' : Sys} {p : Party} {x : Pc Cond} (h : At q p x)
    (hc : ∀ c, p = .client c → x ≠ .out → q'.client c = q.client c) : At q' p x := by
  cases x with
  | out => cases p <;> trivial
  | wait o y =>
    cases p with
    | listener => exact h
    | client c =>
      simp only [At, hc c rfl (by simp)] at h ⊢
      exact h
  | signal o k =>
    cases p with
    | listener => exact h
    | client c =>
      simp only [At, hc c rfl (by simp)] at h ⊢
      exact h

/-- The threads, and the queue as a run of its own steps. -/
structure Awake (n a k : Nat) (s : Threads) : Prop where
  queue : ∃ acts, acts.length ≤ k ∧ RunOf step Orderly (Sys.init n a) acts s.queue
  placed : ∀ p, At s.queue p (s.sync.pc p)
  ok : Ok s.awaited s.sync

theorem awake_init (n a : Nat) : Awake n a 0 (Threads.init n a) where
  queue := ⟨[], Nat.le_refl _, .nil⟩
  placed := fun p => by cases p <;> trivial
  ok := Ok.init

section

variable {n a k : Nat} {s t : Threads} {x : Act} {p : Party}

theorem awaited_eq (hq : t.queue = s.queue) : t.awaited = s.awaited := by
  funext p
  cases p <;> simp [Threads.awaited, Threads.condition, hq]

/-- The steps that leave the queue alone. -/
theorem Awake.same_queue (h : Awake n a k s) (hq : t.queue = s.queue)
    (hp : ∀ p, At s.queue p (t.sync.pc p)) (hok : Ok s.awaited t.sync) : Awake n a (k + 1) t := by
  obtain ⟨acts, hlen, hr⟩ := h.queue
  refine ⟨⟨acts, by omega, hq ▸ hr⟩, hq ▸ hp, ?_⟩
  rw [awaited_eq hq]
  exact hok

theorem Awake.step_queue (h : Awake n a k s) (hx : Orderly s.queue x)
    (hs : step s.queue x = some t.queue) (hp : ∀ p, At t.queue p (t.sync.pc p))
    (hok : Ok t.awaited t.sync) : Awake n a (k + 1) t := by
  obtain ⟨acts, hlen, hr⟩ := h.queue
  exact ⟨⟨acts ++ [x], by simpa using hlen, hr.trans (.single hx hs)⟩, hp, hok⟩

theorem awaited_client {c : Nat} (hs : step s.queue x = some t.queue) (haccept : x ≠ .accept_write)
    (hreject : x ≠ .reject_write) (hp : x.party ≠ some (.client c))
    (hr : t.awaited (.client c) = true) : s.awaited (.client c) = true := by
  have hc := step_client_of_ne hs hp
  simp only [Threads.awaited, Threads.condition] at hr ⊢
  rw [hc] at hr
  cases hclient : s.queue.client c with
  | waiting sid =>
    rw [hclient] at hr
    simpa using step_mailbox hs haccept hreject (by simpa using hr)
  | _ =>
    rw [hclient] at hr
    cases hr

theorem awaited_listener (hs : step s.queue x = some t.queue)
    (hpush : ∀ c, x ≠ .push_requested c) (haccept : ∀ sid id, x ≠ .accept sid id)
    (hreject : ∀ sid, x ≠ .reject sid) (hr : t.awaited .listener = true) :
    s.awaited .listener = true := by
  change t.queue.cq.q_requested.has_request = true at hr
  rwa [step_q_requested hs hpush haccept hreject] at hr

/-! ## The steps -/

theorem awake_plain (h : Awake n a k s) (hplain : x.plain = true)
    (hout : x.party.all (fun p => s.sync.pc p = .out) = true) (hx : Orderly s.queue x)
    (hs : step s.queue x = some t.queue) (hsync : t.sync = s.sync) : Awake n a (k + 1) t := by
  have hparty : ∀ p, s.sync.pc p ≠ .out → x.party ≠ some p := by
    intro p hp he
    rw [he] at hout
    simp only [Option.all_some, decide_eq_true_eq] at hout
    exact hp hout
  refine h.step_queue hx hs ?_ ?_
  · intro p
    rw [hsync]
    refine (h.placed p).congr fun c hc hne => step_client_of_ne hs ?_
    subst hc
    exact hparty _ hne
  · rw [hsync]
    refine h.ok.congr ?_
    intro p o y hp hy hr
    have hp' := hparty p (by rw [hp]; simp)
    cases p with
    | listener =>
      refine awaited_listener hs ?_ ?_ ?_ hr
      · rintro c rfl
        cases hplain
      · rintro sid id rfl
        exact hp' rfl
      · rintro sid rfl
        exact hp' rfl
    | client c =>
      refine awaited_client hs ?_ ?_ hp' hr
      · rintro rfl
        cases hplain
      · rintro rfl
        cases hplain

theorem placed_move (h : ∀ r, r ≠ p → At t.queue r (s.sync.pc r)) {y : Pc Cond}
    (hy : At t.queue p y) : ∀ r, At t.queue r ((s.sync.move p y).pc r) := by
  intro r
  by_cases hr : r = p
  · subst hr
    simpa [Conditions.move] using hy
  · simpa [Conditions.move, hr] using h r hr

/-- A client that has not left its wait may stand anywhere in it. -/
theorem At.rewait {q : Sys} {o : Cond} {y : WaitPc} (h : At q p (.wait o y))
    (hy : ∀ ok, y ≠ .unlock ok) (y' : WaitPc) : At q p (.wait o y') := by
  cases p with
  | listener => exact h
  | client c =>
    obtain ⟨sid, ho, hsid, hflight, hwaiting⟩ := h
    exact ⟨sid, ho, hsid, hflight, fun _ => hwaiting hy⟩

/-- No other thread's place depends on what a party does to the queue. -/
theorem Awake.others (h : Awake n a k s) (hs : step s.queue x = some t.queue)
    (hp : x.party = some p) : ∀ r, r ≠ p → At t.queue r (s.sync.pc r) := by
  intro r hr
  refine (h.placed r).congr fun c hc _ => step_client_of_ne hs ?_
  rw [hp]
  subst hc
  exact fun he => hr (Option.some.inj he).symm

theorem awake_push (h : Awake n a k s) {c sid : Nat} (hc : s.queue.client c = .popped sid)
    (hout : s.sync.pc (.client c) = .out) (hq : t.queue = s.queue)
    (hsync : t.sync = s.sync.move (.client c) (.signal .condition .lock)) :
    Awake n a (k + 1) t := by
  refine h.same_queue hq ?_ ?_
  · rw [hsync]
    exact placed_move (t := s) (fun r _ => h.placed r) ⟨rfl, fun _ => ⟨sid, hc⟩⟩
  · rw [hsync]
    exact h.ok.enter hout (.inr ⟨_, rfl⟩) fun q o y _ _ _ hr => .inl hr

theorem awake_listen (h : Awake n a k s) (hout : s.sync.pc .listener = .out)
    (hq : t.queue = s.queue) (hsync : t.sync = s.sync.move .listener (.wait .condition .lock)) :
    Awake n a (k + 1) t := by
  refine h.same_queue hq ?_ ?_
  · rw [hsync]
    exact placed_move (t := s) (fun r _ => h.placed r) rfl
  · rw [hsync]
    refine h.ok.enter hout (.inl ⟨_, rfl, ?_⟩) fun q o y _ _ _ hr => .inl hr
    intro q z hq
    have hat := h.placed q
    rw [hq] at hat
    cases q with
    | listener =>
      rw [hout] at hq
      cases hq
    | client c =>
      obtain ⟨sid, ho, -⟩ := hat
      cases ho

/-- Nobody else waits on the element of a client in flight. -/
theorem Awake.element_free (h : Awake n a k s) (hk : k < 2 ^ 63) {c sid : Nat}
    (hsid : (s.queue.client c).sid = some sid) (hflight : (s.queue.client c).in_flight = true)
    (hout : s.sync.pc (.client c) = .out) (q : Party) (z : WaitPc) :
    s.sync.pc q ≠ .wait (.c_accepted (reset_admin sid)) z := by
  intro hq
  have hat := h.placed q
  rw [hq] at hat
  cases q with
  | listener => cases hat
  | client c' =>
    obtain ⟨sid', ho, hsid', hflight', -⟩ := hat
    obtain ⟨acts, hlen, hr⟩ := h.queue
    have hm := (run_orderlyState (by omega) hr).matched
    have he := hm.alone c' c sid' sid (.inl hflight') (.inl hflight) hsid' hsid
      (Cond.c_accepted.inj ho).symm
    subst he
    rw [hout] at hq
    cases hq

theorem enter_wait_cases {c : Nat} {q q' : Sys} (hs : step q (.enter_wait c) = some q') :
    ∃ sid, q.client c = .requested sid ∧
      (q'.client c = .threw sid ∨ q'.client c = .waiting sid) := by
  simp only [step] at hs
  split at hs
  · rename_i sid hc
    refine ⟨sid, hc, ?_⟩
    split at hs
    · cases hs
      exact .inl (Function.update_self ..)
    · cases hs
      exact .inr (Function.update_self ..)
  · cases hs

theorem awake_wait (h : Awake n a k s) (hk : k < 2 ^ 63) {c : Nat}
    (hx : Orderly s.queue (.enter_wait c)) (hout : s.sync.pc (.client c) = .out)
    (hs : step s.queue (.enter_wait c) = some t.queue)
    (hsync : t.sync = match t.queue.client c with
      | .waiting sid => s.sync.move (.client c) (.wait (.c_accepted (reset_admin sid)) .lock)
      | _ => s.sync) : Awake n a (k + 1) t := by
  have hawaited : ∀ q o y, q ≠ .client c → s.sync.pc q = .wait o y → y.asleep = true →
      t.awaited q = true → s.awaited q = true := by
    intro q o y hq _ _ hr
    cases q with
    | listener => exact awaited_listener hs (by simp) (by simp) (by simp) hr
    | client c' =>
      refine awaited_client hs (by simp) (by simp) ?_ hr
      exact fun he => hq (Option.some.inj he).symm
  have hothers := h.others hs rfl
  obtain ⟨sid, hrequested, hthrew | hwaiting⟩ := enter_wait_cases hs
  · rw [hthrew] at hsync
    refine h.step_queue hx hs ?_ ?_
    · intro p
      rw [hsync]
      by_cases hp : p = .client c
      · subst hp
        rw [hout]
        trivial
      · exact hothers p hp
    · rw [hsync]
      refine h.ok.congr fun p o y hp hy hr => ?_
      refine hawaited p o y ?_ hp hy hr
      rintro rfl
      rw [hout] at hp
      cases hp
  · rw [hwaiting] at hsync
    have hsid : (s.queue.client c).sid = some sid := by rw [hrequested]; rfl
    have hflight : (s.queue.client c).in_flight = true := by rw [hrequested]; rfl
    refine h.step_queue hx hs ?_ ?_
    · rw [hsync]
      refine placed_move hothers ⟨sid, rfl, ?_, ?_, fun _ => hwaiting⟩
      · rw [hwaiting]
        rfl
      · rw [hwaiting]
        rfl
    · rw [hsync]
      refine h.ok.enter hout (.inl ⟨_, rfl, h.element_free hk hsid hflight hout⟩) ?_
      exact fun q o y hq hp hy hr => .inl (hawaited q o y hq hp hy hr)

/-- The two ways to answer. -/
theorem answer_cases {q q' : Sys} (hx : x = .accept_write ∨ x = .reject_write)
    (hs : step q x = some q') :
    ∃ sid v, q.listener.write = some (sid, v) ∧ q'.client = q.client ∧
      q'.cq.q_requested = q.cq.q_requested ∧
      q'.cq.v_requested = q.cq.v_requested.set (reset_admin sid) v := by
  rcases hx with rfl | rfl
  · simp only [step] at hs
    split at hs
    · rename_i sid id hl
      cases hs
      exact ⟨sid, id, by rw [hl]; rfl, rfl, rfl, rfl⟩
    · cases hs
  · simp only [step] at hs
    split at hs
    · rename_i sid hl
      cases hs
      exact ⟨sid, _, by rw [hl]; rfl, rfl, rfl, rfl⟩
    · cases hs

theorem awake_answer (h : Awake n a k s) {sid v : Nat} (hx : Orderly s.queue x)
    (hanswer : x = .accept_write ∨ x = .reject_write) (hout : s.sync.pc .listener = .out)
    (hwrite : s.queue.listener.write = some (sid, v)) (hs : step s.queue x = some t.queue)
    (hsync : t.sync = s.sync.move .listener (.signal (.c_accepted (reset_admin sid)) .lock)) :
    Awake n a (k + 1) t := by
  obtain ⟨sid', v', hwrite', hclient, -, hv⟩ := answer_cases hanswer hs
  obtain ⟨rfl, rfl⟩ := Prod.mk.inj (Option.some.inj (hwrite.symm.trans hwrite'))
  have hparty : x.party = some .listener := by rcases hanswer with rfl | rfl <;> rfl
  refine h.step_queue hx hs ?_ ?_
  · rw [hsync]
    exact placed_move (h.others hs hparty) ⟨_, rfl⟩
  · rw [hsync]
    refine h.ok.enter hout (.inr ⟨_, rfl⟩) ?_
    intro q o y hq hp hy hr
    have hat := h.placed q
    rw [hp] at hat
    cases q with
    | listener => exact absurd rfl hq
    | client c =>
      obtain ⟨w, rfl, -, -, hwaiting⟩ := hat
      have hc : s.queue.client c = .waiting w := by
        apply hwaiting
        rintro ok rfl
        cases hy
      by_cases he : reset_admin w = reset_admin sid
      · exact .inr ⟨by rw [he], by simp⟩
      · left
        have hc' : t.queue.client c = .waiting w := by rw [hclient, hc]
        simp only [Threads.awaited, Threads.condition, hc, hc'] at hr ⊢
        rwa [(mailbox_of_set w hv).2 he] at hr

theorem awake_woken (h : Awake n a k s) (hq : t.queue = s.queue) {m : Conditions Cond Party}
    (hsync : t.sync = m) (hok : Ok s.awaited m)
    (hpc : ∀ p, m.pc p = s.sync.pc p ∨
      ∃ o last, s.sync.pc p = .wait o .blocked ∧ m.pc p = .wait o (.woken last)) :
    Awake n a (k + 1) t := by
  refine h.same_queue hq ?_ (hsync ▸ hok)
  intro p
  rw [hsync]
  have hat := h.placed p
  rcases hpc p with he | ⟨o, last, hblocked, he⟩
  · rw [he]
    exact hat
  · rw [hblocked] at hat
    rw [he]
    exact hat.rewait (by simp) _

/-- What a thread does to the queue in a section. -/
inductive InSection (s : Threads) : Party → Act → Prop
  | push {c : Nat} (hpc : s.sync.pc (.client c) = .signal .condition .act) :
      InSection s (.client c) (.push_requested c)
  | wake {c slot : Nat} {last : Bool}
      (hpc : s.sync.pc (.client c) = .wait (.c_accepted slot) (.test last))
      (hready : s.condition (.client c) = true) : InSection s (.client c) (.wake c)
  | time_out {c slot : Nat}
      (hpc : s.sync.pc (.client c) = .wait (.c_accepted slot) (.test true))
      (hready : s.condition (.client c) = false) : InSection s (.client c) (.time_out c)
  | listen {ok : Bool} (hpc : s.sync.pc .listener = .wait .condition (.unlock ok)) :
      InSection s .listener .listen

theorem inSection_of (h : s.act_in_section p = some x) : InSection s p x := by
  unfold Threads.act_in_section at h
  split at h
  · rename_i c hpc
    cases h
    exact .push hpc
  · rename_i c slot last hpc
    split at h
    · rename_i hready
      cases h
      exact .wake hpc hready
    · rename_i hready
      split at h
      · rename_i hlast
        cases h
        subst hlast
        exact .time_out hpc (by simpa using hready)
      · cases h
  · rename_i ok hpc
    split at h
    · cases h
      exact .listen hpc
    · cases h
  · cases h

theorem InSection.party (h : InSection s p x) : x.party = some p := by
  cases h <;> rfl

/-- A client in the section has the push before it, and its push finds a cell. -/
theorem Awake.push_throws (h : Awake n a k s) (hk : k < 2 ^ 63) : s.push_throws p = false := by
  unfold Threads.push_throws
  split
  · rename_i c hpc
    split
    · rename_i sid hc
      obtain ⟨acts, hlen, hr⟩ := h.queue
      obtain ⟨hf, hb, -⟩ := run_orderlyState (by omega) hr
      have hlt := (hb.sids c sid (by rw [hc]; rfl)).2
      have hok : (s.queue.cq.push_requested sid).1 = .ok () :=
        push_ok (Nat.lt_of_le_of_lt (Nat.zero_le _) hlt) hf.capacity hf.length
      rw [hok]
      rfl
    · rfl
  · rfl

theorem client_after_wake {c : Nat} {q q' : Sys}
    (hs : step q (.wake c) = some q' ∨ step q (.time_out c) = some q') :
    ∃ sid, q.client c = .waiting sid ∧
      (q'.client c = .ready sid ∨ q'.client c = .timed_out sid) := by
  rcases hs with hs | hs
  · simp only [step] at hs
    split at hs
    · rename_i sid hc
      split at hs
      · cases hs
        exact ⟨sid, hc, .inl (Function.update_self ..)⟩
      · cases hs
    · cases hs
  · simp only [step] at hs
    split at hs
    · rename_i sid hc
      split at hs
      · cases hs
        exact ⟨sid, hc, .inr (Function.update_self ..)⟩
      · cases hs
    · cases hs

/-- The queue after the step of a thread in a section. -/
def Follows (s t : Threads) (p : Party) : Prop :=
  s.act_in_section p = none ∧ t.queue = s.queue ∨
    ∃ x, s.act_in_section p = some x ∧ step s.queue x = some t.queue

theorem Follows.same (h : Follows s t p) (hno : ∀ x, ¬ InSection s p x) : t.queue = s.queue := by
  rcases h with ⟨-, hq⟩ | ⟨x, hx, -⟩
  · exact hq
  · exact absurd (inSection_of hx) (hno x)

theorem At.client_next {c : Nat} (h : At s.queue (.client c) (s.sync.pc (.client c)))
    (hq : Follows s t (.client c)) :
    At t.queue (.client c) ((s.sync.pc (.client c)).next (s.condition (.client c))) := by
  rcases hpc : s.sync.pc (.client c) with _ | ⟨o, y⟩ | ⟨o, k⟩
  · trivial
  · rw [hpc] at h
    cases y with
    | test last =>
      rcases hq with ⟨-, hsame⟩ | ⟨x, hx, hs⟩
      · rw [hsame]
        exact h.rewait (by simp) _
      · -- the client leaves its wait, and is still in flight
        have hleave : (step s.queue (.wake c) = some t.queue ∨
            step s.queue (.time_out c) = some t.queue) ∧
            ∃ ok, (if s.condition (.client c) then WaitPc.unlock true
              else if last then .unlock false else .refused) = .unlock ok := by
          cases inSection_of hx with
          | push hpc' =>
            rw [hpc] at hpc'
            cases hpc'
          | wake _ hready => exact ⟨.inl hs, true, if_pos hready⟩
          | time_out hpc' hready =>
            rw [hpc] at hpc'
            cases hpc'
            exact ⟨.inr hs, false, by simp [hready]⟩
        obtain ⟨hwake, ok, hunlock⟩ := hleave
        obtain ⟨sid, hwaiting, hclient⟩ := client_after_wake hwake
        obtain ⟨sid', ho, hsid, -⟩ := h
        rw [hwaiting] at hsid
        cases hsid
        simp only [Pc.next, hunlock]
        refine ⟨sid, ho, ?_, ?_, fun hno => absurd rfl (hno ok)⟩
        · rcases hclient with he | he <;> rw [he] <;> rfl
        · rcases hclient with he | he <;> rw [he] <;> rfl
    | unlock ok => trivial
    | _ =>
      have hsame := hq.same fun x hx => by cases hx <;> simp_all
      rw [hsame]
      exact h.rewait (by simp) _
  · rw [hpc] at h
    obtain ⟨rfl, hpopped⟩ := h
    cases k with
    | lock =>
      have hsame := hq.same fun x hx => by cases hx <;> simp_all
      rw [hsame]
      exact ⟨rfl, fun _ => hpopped (.inl rfl)⟩
    | act => exact ⟨rfl, by simp⟩
    | notify => exact ⟨rfl, by simp⟩
    | unlock => trivial

theorem At.listener_next {q : Sys} {y : Pc Cond} (h : At s.queue .listener y) (b : Bool) :
    At q .listener (y.next b) := by
  cases y with
  | out => trivial
  | wait o y => cases y <;> first | exact h | trivial
  | signal o k => cases k <;> first | exact h | trivial

/-- The condition of a thread becomes true by the step of another one that will notify it. -/
theorem Awake.awaited_sync (h : Awake n a k s) (hq : Follows s t p) {q : Party} {o : Cond}
    {y : WaitPc} (hpc : s.sync.pc q = .wait o y) (hr : t.awaited q = true) :
    s.awaited q = true ∨ s.sync.pc p = .signal o .act := by
  rcases hq with ⟨-, hsame⟩ | ⟨x, hx, hs⟩
  · rw [awaited_eq hsame] at hr
    exact .inl hr
  have hin := inSection_of hx
  cases q with
  | listener =>
    cases hin with
    | push hpush =>
      have hat := h.placed .listener
      rw [hpc] at hat
      obtain rfl : o = .condition := hat
      exact .inr hpush
    | _ => exact .inl (awaited_listener hs (by simp) (by simp) (by simp) hr)
  | client c =>
    left
    by_cases hne : p = .client c
    · -- a client that leaves its wait awaits nothing any more
      subst hne
      have hwake : step s.queue (.wake c) = some t.queue ∨
          step s.queue (.time_out c) = some t.queue := by
        cases hin with
        | push hpush =>
          rw [hpc] at hpush
          cases hpush
        | wake => exact .inl hs
        | time_out => exact .inr hs
      obtain ⟨sid, -, hclient | hclient⟩ := client_after_wake hwake
      · simp [Threads.awaited, Threads.condition, hclient] at hr
      · simp [Threads.awaited, Threads.condition, hclient] at hr
    · refine awaited_client hs ?_ ?_ ?_ hr
      · cases hin <;> simp
      · cases hin <;> simp
      · rw [hin.party]
        exact fun he => hne (Option.some.inj he)

theorem awake_sync (h : Awake n a k s) (hk : k < 2 ^ 63) {w : Party}
    (hfair : Fair s (.sync p w)) (hs : s.go (.sync p w) = some t) : Awake n a (k + 1) t := by
  have hfollows : Follows s t p ∧ s.sync.step p (s.condition p) w = some t.sync := by
    simp only [Threads.go] at hs
    obtain ⟨sync, hsync, hs⟩ := Option.bind_eq_some_iff.mp hs
    rw [h.push_throws hk] at hs
    rcases hact : s.act_in_section p with _ | x
    · rw [hact] at hs
      cases hs
      exact ⟨.inl ⟨hact, rfl⟩, hsync⟩
    · rw [hact] at hs
      obtain ⟨queue, hqueue, rfl⟩ := Option.map_eq_some_iff.mp hs
      exact ⟨.inr ⟨x, hact, hqueue⟩, hsync⟩
  obtain ⟨hq, hsync⟩ := hfollows
  have hcondition : s.awaited p = true → s.condition p = true := by
    cases p with
    | listener =>
      intro hr
      simp only [Threads.condition, Bool.or_eq_true]
      exact .inl hr
    | client c => exact id
  have hok : Ok t.awaited t.sync := by
    refine h.ok.step hsync hcondition ?_ fun q o y hpc _ hr => h.awaited_sync hq hpc hr
    exact fun o q => hfair.notifies p w o q rfl
  have hplaced : ∀ r, At t.queue r (t.sync.pc r) := by
    intro r
    by_cases hr : r = p
    · subst hr
      rw [step_self hsync]
      cases r with
      | listener => exact (h.placed _).listener_next _
      | client c => exact (h.placed _).client_next hq
    · have hat : At t.queue r (s.sync.pc r) := by
        rcases hq with ⟨-, hsame⟩ | ⟨x, hx, hqueue⟩
        · rw [hsame]
          exact h.placed r
        · exact h.others hqueue (inSection_of hx).party r hr
      rcases step_other hsync hr with he | ⟨o, hblocked, he⟩
      · rw [he]
        exact hat
      · rw [hblocked] at hat
        rw [he]
        exact hat.rewait (by simp) _
  rcases hq with ⟨-, hsame⟩ | ⟨x, hx, hqueue⟩
  · exact h.same_queue hsame (hsame ▸ hplaced) (awaited_eq hsame ▸ hok)
  · exact h.step_queue (hfair.orderly x hx) hqueue hplaced hok

theorem awake_step (h : Awake n a k s) (hk : k < 2 ^ 63) {m : Move} (hfair : Fair s m)
    (hs : s.go m = some t) : Awake n a (k + 1) t := by
  cases m with
  | plain x =>
    simp only [Threads.go] at hs
    split at hs
    · rename_i hcond
      obtain ⟨queue, hqueue, rfl⟩ := Option.map_eq_some_iff.mp hs
      exact awake_plain h hcond.1 hcond.2 (hfair.orderly x rfl) hqueue rfl
    · cases hs
  | push c =>
    simp only [Threads.go] at hs
    split at hs
    · rename_i sid hc
      split at hs
      · rename_i hout
        cases hs
        exact awake_push h hc hout rfl rfl
      · cases hs
    · cases hs
  | listen =>
    simp only [Threads.go] at hs
    split at hs
    · rename_i hcond
      cases hs
      exact awake_listen h hcond.1 rfl rfl
    · cases hs
  | wait c =>
    simp only [Threads.go] at hs
    split at hs
    · rename_i hout
      obtain ⟨queue, hqueue, rfl⟩ := Option.map_eq_some_iff.mp hs
      refine awake_wait h hk (hfair.orderly _ rfl) hout (c := c) ?_ ?_
      · split <;> exact hqueue
      · split <;> simp_all
    · cases hs
  | answer =>
    simp only [Threads.go] at hs
    split at hs
    · rename_i hout
      split at hs
      · rename_i sid id hl
        obtain ⟨queue, hqueue, rfl⟩ := Option.map_eq_some_iff.mp hs
        exact awake_answer h (hfair.orderly _ (by simp [Threads.act, hl])) (.inl rfl) hout
          (by rw [hl]; rfl) hqueue rfl
      · rename_i sid hl
        obtain ⟨queue, hqueue, rfl⟩ := Option.map_eq_some_iff.mp hs
        exact awake_answer h (hfair.orderly _ (by simp [Threads.act, hl])) (.inr rfl) hout
          (by rw [hl]; rfl) hqueue rfl
      · cases hs
    · cases hs
  | notify_terminate w =>
    simp only [Threads.go] at hs
    split at hs
    · cases hs
      refine awake_woken h rfl rfl (h.ok.notify _ _) fun p => ?_
      exact (notify_pc s.sync .condition w p).imp_right fun he => ⟨_, _, he.2⟩
    · cases hs
  | sync p w => exact awake_sync h hk hfair hs
  | wake p last =>
    simp only [Threads.go] at hs
    obtain ⟨sync, hwake, rfl⟩ := Option.map_eq_some_iff.mp hs
    refine awake_woken h rfl rfl (h.ok.wake hwake) fun q => ?_
    unfold Conditions.wake at hwake
    split at hwake
    · rename_i o hblocked
      cases hwake
      by_cases hq : q = p
      · subst hq
        exact .inr ⟨o, last, hblocked, by simp [Conditions.move]⟩
      · exact .inl (by simp [Conditions.move, hq])
    · cases hwake

/-! ## No notification is lost -/

/-- What a thread does to the queue in a section is possible. -/
theorem Awake.act_enabled (h : Awake n a k s) (hx : s.act_in_section p = some x) :
    (step s.queue x).isSome = true := by
  cases inSection_of hx with
  | @push c hpc =>
    have hat := h.placed (.client c)
    rw [hpc] at hat
    obtain ⟨sid, hc⟩ := hat.2 (.inr rfl)
    simp only [step, hc]
    split <;> rfl
  | @wake c slot last hpc hready =>
    simp only [Threads.condition] at hready
    split at hready
    · rename_i sid hc
      simp only [step, hc]
      rw [if_pos (by simpa using hready)]
      rfl
    · cases hready
  | @time_out c slot hpc hready =>
    have hat := h.placed (.client c)
    rw [hpc] at hat
    obtain ⟨sid, -, -, -, hwaiting⟩ := hat
    have hc := hwaiting (by simp)
    simp only [Threads.condition, hc] at hready
    simp only [step, hc]
    rw [if_pos (by simpa using hready)]
    rfl
  | @listen ok hpc =>
    simp only [Threads.act_in_section, hpc] at hx
    split at hx
    · rename_i hreq
      simp [step, hreq]
    · cases hx

theorem Awake.sync_enabled (h : Awake n a k s) {w : Party}
    (hs : (s.sync.step p (s.condition p) w).isSome = true) :
    (s.go (.sync p w)).isSome = true := by
  obtain ⟨sync, hsync⟩ := Option.isSome_iff_exists.mp hs
  simp only [Threads.go, hsync, Option.bind_some]
  rcases hx : s.act_in_section p with _ | x
  · rfl
  · obtain ⟨queue, hqueue⟩ := Option.isSome_iff_exists.mp (h.act_enabled hx)
    simp [hqueue]

end

/-- A listener that is blocked while there is a request, and a client that is blocked while its
answer is there, are about to be notified, and some thread can go on. -/
structure NoLostNotify (s : Threads) : Prop where
  request : s.sync.pc .listener = .wait .condition .blocked →
    s.queue.cq.q_requested.has_request = true →
    ∃ c, (s.sync.pc (.client c)).Pending .condition
  answer : ∀ c sid, s.queue.client c = .waiting sid →
    s.sync.pc (.client c) = .wait (.c_accepted (reset_admin sid)) .blocked →
    s.queue.cq.mailbox sid ≠ 0 → (s.sync.pc .listener).Pending (.c_accepted (reset_admin sid))
  goes_on : ∀ p o, (s.sync.pc p).Pending o →
    ∃ r, ∀ w, (s.go (.sync r w)).isSome = true

theorem no_notification_of_a_connection_is_lost (n as_n : Nat) (moves : List Move) (s : Threads)
    (hlen : moves.length < 2 ^ 63)
    (hr : RunOf Threads.go Fair (Threads.init n as_n) moves s) : NoLostNotify s := by
  have hawake : Awake n as_n moves.length s := by
    refine hr.inv_length (I := fun k s => k < 2 ^ 63 → Awake n as_n k s)
      (fun _ => awake_init n as_n) ?_ hlen
    intro k t m u ih hfair hs hk
    exact awake_step (ih (by omega)) (by omega) hfair hs
  have hplaced := hawake.placed
  refine ⟨?_, ?_, ?_⟩
  · intro hpc hreq
    obtain ⟨q, hq⟩ := hawake.ok.awake _ _ _ hpc rfl hreq
    cases q with
    | listener =>
      rw [hpc] at hq
      cases hq
    | client c => exact ⟨c, hq⟩
  · intro c sid hc hpc hfull
    have hawaited : s.awaited (.client c) = true := by
      simpa [Threads.awaited, Threads.condition, hc] using hfull
    obtain ⟨q, hq⟩ := hawake.ok.awake _ _ _ hpc rfl hawaited
    cases q with
    | listener => exact hq
    | client c' =>
      have hat := hplaced (.client c')
      rcases hpc' : s.sync.pc (.client c') with _ | _ | ⟨o, k⟩
      · rw [hpc'] at hq
        cases hq
      · rw [hpc'] at hq
        cases hq
      · rw [hpc'] at hq hat
        obtain rfl := hq.1
        cases hat.1
  · intro p o hp
    obtain ⟨r, hstep⟩ := hawake.ok.not_stuck hp
    exact ⟨r, fun w => hawake.sync_enabled (hstep _ w)⟩

/-- A test for `Fair`, for runs in which each notify finds its waiter. -/
def fair (s : Threads) (m : Move) : Bool :=
  (s.act m).all (orderly s.queue) &&
    match m with
    | .sync p w =>
      match s.sync.pc p with
      | .signal o .notify => s.sync.pc w = .wait o .blocked
      | _ => true
    | _ => true

theorem fair_of_test (s : Threads) (m : Move) (h : fair s m = true) : Fair s m := by
  simp only [fair, Bool.and_eq_true] at h
  obtain ⟨horderly, hnotify⟩ := h
  refine ⟨?_, ?_⟩
  · intro a ha
    rw [ha] at horderly
    exact orderly_of_test _ _ horderly
  · rintro p w o q rfl hp -
    dsimp only at hnotify
    rw [hp] at hnotify
    simpa using hnotify

/-- The listener and a client block, each before the other has something for it. At the end the
answer is in the mailbox and the client is still blocked. -/
def blockedByTurns : List Move :=
  [.listen, .sync .listener .listener, .sync .listener .listener, .sync .listener .listener,
    .plain (.pop_free 0 false), .push 0, .sync (.client 0) .listener, .sync (.client 0) .listener,
    .sync (.client 0) .listener, .sync (.client 0) .listener,
    .wait 0, .sync (.client 0) .listener, .sync (.client 0) .listener,
    .sync (.client 0) .listener,
    .sync .listener .listener, .sync .listener .listener, .sync .listener .listener,
    .plain (.accept 0 1), .answer]

theorem no_notification_of_a_connection_is_lost_when_both_block :
    ∃ s, RunOf Threads.go Fair (Threads.init 1 0) blockedByTurns s ∧
      s.sync.pc (.client 0) = .wait (.c_accepted 0) .blocked ∧ s.queue.cq.mailbox 0 = 1 ∧
      NoLostNotify s := by
  obtain ⟨s, hr, hp⟩ := RunOf.exists_of_exec (s := Threads.init 1 0) (C := Fair) (c := fair)
    fair_of_test
    (p := fun s => s.sync.pc (.client 0) = .wait (.c_accepted 0) .blocked ∧
      s.queue.cq.mailbox 0 = 1)
    (by decide : (exec (guarded Threads.go fair) _ blockedByTurns).any _ = true)
  have hp' : s.sync.pc (.client 0) = .wait (.c_accepted 0) .blocked ∧
      s.queue.cq.mailbox 0 = 1 := by simpa using hp
  exact ⟨s, hr, hp'.1, hp'.2, no_notification_of_a_connection_is_lost 1 0 _ s (by decide) hr⟩

end tateyama_bootstrap.connection_queue
