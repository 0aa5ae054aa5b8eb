-- The names of sessions. `listen` numbers the sessions of a server, `accept` passes
-- the number through a mailbox of the queue, and `connect` of
-- connection_container (transport/client_wire.h) makes the name of the shared
-- memory from it.
import TateyamaBootstrap.ConnectionOutcome
import TateyamaBootstrap.JsonTexts

open runs

namespace tateyama_bootstrap.connection_queue

open json

/-! ## The name of a session -/

def session_name (db_name : Text) (session_id : Nat) : Text :=
  db_name ++ 0x2d :: nat_text session_id

/-- The end of `connect`, with what `wait` has returned. -/
def connect (db_name : Text) (session_id : Nat) : Except Error Text :=
  if session_id ≠ session_id_indicating_error then .ok (session_name db_name session_id)
  else .error (.runtime_error .connection_failure "IPC connection establishment failure")

/-- The last hyphen of a name stands before the number. -/
theorem append_hyphen_inj {a a' d d' : Text} (hd : (0x2d : UInt8) ∉ d) (hd' : (0x2d : UInt8) ∉ d')
    (h : a ++ 0x2d :: d = a' ++ 0x2d :: d') : a = a' ∧ d = d' := by
  rcases List.append_eq_append_iff.mp h with ⟨e, he, hr⟩ | ⟨e, he, hr⟩
  all_goals
    cases e with
    | nil =>
      simp only [List.nil_append, List.cons.injEq, true_and] at hr
      simp_all
    | cons b e =>
      simp only [List.cons_append, List.cons.injEq] at hr
      simp_all

theorem hyphen_notMem_nat_text (n : Nat) : (0x2d : UInt8) ∉ nat_text n := by
  intro h
  have := digit_of_mem_nat_text h
  revert this
  decide

theorem nat_text_inj {m n : Nat} (h : nat_text m = nat_text n) : m = n := by
  rw [← digits_value_nat_text m, h, digits_value_nat_text]

theorem session_name_inj {db db' : Text} {v w : Nat} (h : session_name db v = session_name db' w) :
    db = db' ∧ v = w := by
  obtain ⟨h1, h2⟩ :=
    append_hyphen_inj (hyphen_notMem_nat_text v) (hyphen_notMem_nat_text w) h
  exact ⟨h1, nat_text_inj h2⟩

theorem connect_ok {db name : Text} {v : Nat} (h : connect db v = .ok name) :
    v ≠ session_id_indicating_error ∧ name = session_name db v := by
  unfold connect at h
  split at h
  · rename_i hv
    cases h
    exact ⟨hv, rfl⟩
  · cases h

/-! ## The listener thread -/

/-- The queue, and the number that `listen` gave the listener thread for the
request that it has not answered yet. -/
structure Server where
  queue : Sys
  listened : Option Nat

def Server.init (n as_n : Nat) : Server where
  queue := .init n as_n
  listened := none

/-- The steps of the queue, where the listener thread answers each number of
`listen` at most once, with `accept` or with `reject`. -/
def serve (s : Server) : Act → Option Server
  | .listen =>
    (step s.queue .listen).map fun queue => { queue, listened := some queue.cq.session_id }
  | .accept sid id =>
    if s.listened = some id then
      (step s.queue (.accept sid id)).map fun queue => { queue, listened := none }
    else none
  | .reject sid =>
    if s.listened.isSome then
      (step s.queue (.reject sid)).map fun queue => { queue, listened := none }
    else none
  | a => (step s.queue a).map fun queue => { s with queue }

section Steps

variable {s t : Server} {a : Act}

theorem serve_step (hs : serve s a = some t) : step s.queue a = some t.queue := by
  cases a with
  | accept sid id =>
    simp only [serve] at hs
    split at hs
    · obtain ⟨queue, hq, rfl⟩ := Option.map_eq_some_iff.mp hs
      exact hq
    · cases hs
  | reject sid =>
    simp only [serve] at hs
    split at hs
    · obtain ⟨queue, hq, rfl⟩ := Option.map_eq_some_iff.mp hs
      exact hq
    · cases hs
  | _ =>
    simp only [serve, Option.map_eq_some_iff] at hs
    obtain ⟨queue, hq, rfl⟩ := hs
    exact hq

/-- Only `listen` moves the counter of the sessions. -/
theorem step_session_id {s t : Sys} (hs : step s a = some t) (ha : a ≠ .listen) :
    t.cq.session_id = s.cq.session_id := by
  cases a with
  | listen => exact absurd rfl ha
  | pop_free c admin =>
    have hid : (s.cq.pop_free admin).2.session_id = s.cq.session_id := rfl
    simp only [step] at hs
    split at hs
    · split at hs
      all_goals
        rename_i heq
        cases hs
        rw [heq] at hid
        exact hid
    · cases hs
  | push_requested c =>
    simp only [step] at hs
    split at hs
    · rename_i sid _
      have hid : (s.cq.push_requested sid).2.session_id = s.cq.session_id := rfl
      split at hs
      all_goals
        rename_i heq
        cases hs
        rw [heq] at hid
        exact hid
    · cases hs
  | enter_wait c | wake c | time_out c =>
    simp only [step] at hs
    split at hs
    · split at hs <;> cases hs <;> rfl
    · cases hs
  | reuse c =>
    simp only [step] at hs
    split at hs <;> cases hs <;> rfl
  | read c | accept_write | reject_write | reject_push =>
    simp only [step] at hs
    split at hs
    · cases hs
      rfl
    · cases hs
  | accept sid id | reject sid | disconnect sid =>
    simp only [step] at hs
    split at hs
    · cases hs
      rfl
    · cases hs
  | terminate =>
    cases hs
    rfl

/-- Only the answers of the listener thread are decisions. -/
theorem step_decisions {s t : Sys} (hs : step s a = some t) :
    t.decisions = s.decisions ∨ (∃ sid id, a = .accept sid id) ∨ ∃ sid, a = .reject sid := by
  cases step_outcome hs with
  | still _ _ h => exact .inl h.decisions
  | move _ _ h _ => exact .inl h.decisions
  | grant _ _ _ _ h => exact .inl h.decisions
  | enqueue _ _ _ _ _ _ _ h => exact .inl h
  | decide h _ _ _ _ _ _ _ _ =>
    rcases h with ⟨id, rfl⟩ | rfl
    · exact .inr (.inl ⟨_, _, rfl⟩)
    · exact .inr (.inr ⟨_, rfl⟩)
  | write _ _ _ _ _ _ _ h => exact .inl h
  | reuse _ _ _ _ _ _ _ _ _ _ _ h => exact .inl h

end Steps

/-! ## The numbers -/

/-- The sessions are numbered in the order of their requests: what the server has
answered with is no larger than the counter, the number that is not answered yet
is new, and no number is given twice. -/
structure Numbered (k : Nat) (s : Server) : Prop where
  bound : s.queue.cq.session_id ≤ k
  listened : ∀ id, s.listened = some id → id = s.queue.cq.session_id ∧ 0 < id ∧
    ∀ d ∈ s.queue.decisions, d = session_id_indicating_error ∨ d < id
  given : ∀ d ∈ s.queue.decisions,
    d = session_id_indicating_error ∨ 0 < d ∧ d ≤ s.queue.cq.session_id
  once : ∀ i j d : Nat, s.queue.decisions[i]? = some d → s.queue.decisions[j]? = some d →
    d = session_id_indicating_error ∨ i = j

theorem numbered_init (n as_n : Nat) : Numbered 0 (Server.init n as_n) := by
  refine ⟨Nat.le_refl _, ?_, ?_, ?_⟩
  · intro id h
    cases h
  · intro d h
    cases h
  · intro i j d h
    cases h

section Numbered

variable {s t : Server} {a : Act} {k : Nat}

theorem Numbered.same (h : Numbered k s) (hid : t.queue.cq.session_id = s.queue.cq.session_id)
    (hdec : t.queue.decisions = s.queue.decisions) (hl : t.listened = s.listened) :
    Numbered (k + 1) t := by
  refine ⟨?_, ?_, ?_, ?_⟩
  · rw [hid]
    exact Nat.le_succ_of_le h.bound
  · rw [hid, hdec, hl]
    exact h.listened
  · rw [hid, hdec]
    exact h.given
  · rw [hdec]
    exact h.once

/-- A new answer is an error, or a number that no earlier answer has. -/
theorem Numbered.answer (h : Numbered k s) {d : Nat}
    (hid : t.queue.cq.session_id = s.queue.cq.session_id)
    (hdec : t.queue.decisions = s.queue.decisions ++ [d]) (hl : t.listened = none)
    (hd : d = session_id_indicating_error ∨ 0 < d ∧ d ≤ s.queue.cq.session_id ∧
      ∀ e ∈ s.queue.decisions, e = session_id_indicating_error ∨ e < d) :
    Numbered (k + 1) t := by
  refine ⟨?_, ?_, ?_, ?_⟩
  · rw [hid]
    exact Nat.le_succ_of_le h.bound
  · intro id h
    rw [hl] at h
    cases h
  · rw [hid, hdec]
    intro e he
    rcases List.mem_append.mp he with he | he
    · exact h.given e he
    · obtain rfl := List.mem_singleton.mp he
      exact hd.imp_right fun h => ⟨h.1, h.2.1⟩
  · -- the last answer meets an equal one only at its own place
    have hlast : ∀ i : Nat, s.queue.decisions[i]? = some d → d = session_id_indicating_error := by
      intro i hi
      rcases hd with hd | ⟨-, -, hd⟩
      · exact hd
      · rcases hd d (List.mem_of_getElem? hi) with he | he
        · exact he
        · exact absurd he (Nat.lt_irrefl d)
    have hsplit : ∀ (i e : Nat), (s.queue.decisions ++ [d])[i]? = some e →
        s.queue.decisions[i]? = some e ∨ e = d ∧ i = s.queue.decisions.length := by
      intro i e hi
      rcases Nat.lt_or_ge i s.queue.decisions.length with hlt | hge
      · exact .inl (by rwa [List.getElem?_append_left hlt] at hi)
      · rw [List.getElem?_append_right hge] at hi
        obtain ⟨hz, he⟩ := List.getElem?_eq_some_iff.mp hi
        simp only [List.length_singleton] at hz
        exact .inr ⟨by simpa using he.symm, by omega⟩
    rw [hdec]
    intro i j e hi hj
    rcases hsplit i e hi with hi' | ⟨rfl, hi'⟩
    · rcases hsplit j e hj with hj' | ⟨rfl, hj'⟩
      · exact h.once i j e hi' hj'
      · exact .inl (hlast i hi')
    · rcases hsplit j e hj with hj' | ⟨-, hj'⟩
      · exact .inl (hlast j hj')
      · exact .inr (hi'.trans hj'.symm)

theorem numbered_step (h : Numbered k s) (hk : k < 2 ^ 63) (hs : serve s a = some t) :
    Numbered (k + 1) t := by
  have hq := serve_step hs
  have hb := h.bound
  cases a with
  | listen =>
    simp only [serve, Option.map_eq_some_iff] at hs
    obtain ⟨queue, hq', rfl⟩ := hs
    simp only [step] at hq'
    split at hq'
    · cases hq'
      have hnew : (s.queue.cq.session_id + 1) % 2 ^ 64 = s.queue.cq.session_id + 1 :=
        Nat.mod_eq_of_lt (by omega)
      refine ⟨?_, ?_, ?_, h.once⟩
      · dsimp only
        omega
      · intro id hid
        cases hid
        dsimp only
        rw [hnew]
        refine ⟨rfl, by omega, fun d hd => ?_⟩
        exact (h.given d hd).imp_right fun hg => by omega
      · intro d hd
        refine (h.given d hd).imp_right fun hg => ⟨hg.1, ?_⟩
        dsimp only
        omega
    · cases hq'
  | accept sid id =>
    have hid : t.queue.cq.session_id = s.queue.cq.session_id :=
      step_session_id hq (by intro he; cases he)
    simp only [serve] at hs
    split at hs
    · rename_i hl
      obtain ⟨queue, hq', rfl⟩ := Option.map_eq_some_iff.mp hs
      obtain ⟨rfl, hpos, hnew⟩ := h.listened id hl
      refine h.answer hid ?_ rfl (.inr ⟨hpos, Nat.le_refl _, hnew⟩)
      simp only [step] at hq'
      split at hq'
      · cases hq'
        rfl
      · cases hq'
    · cases hs
  | reject sid =>
    have hid : t.queue.cq.session_id = s.queue.cq.session_id :=
      step_session_id hq (by intro he; cases he)
    simp only [serve] at hs
    split at hs
    · obtain ⟨queue, hq', rfl⟩ := Option.map_eq_some_iff.mp hs
      refine h.answer hid ?_ rfl (.inl rfl)
      simp only [step] at hq'
      split at hq'
      · cases hq'
        rfl
      · cases hq'
    · cases hs
  | _ =>
    have hid := step_session_id hq (by intro he; cases he)
    have hdec : t.queue.decisions = s.queue.decisions := by
      rcases step_decisions hq with hd | ⟨_, _, he⟩ | ⟨_, he⟩
      · exact hd
      · cases he
      · cases he
    simp only [serve, Option.map_eq_some_iff] at hs
    obtain ⟨queue, -, rfl⟩ := hs
    exact h.same hid hdec rfl

theorem run_numbered {n as_n : Nat} {acts : List Act} {C : Server → Act → Prop}
    (hlen : acts.length < 2 ^ 63) (hr : RunOf serve C (Server.init n as_n) acts s) :
    Numbered acts.length s := by
  have h := hr.inv_length (I := fun k s => k < 2 ^ 63 → Numbered k s)
    (fun _ => numbered_init n as_n) ?_
  · exact h hlen
  · intro k t a u ih _ hs hk
    exact numbered_step (ih (by omega)) (by omega) hs

end Numbered

/-! ## A session of its own for each client -/

/-- Who connects gets the name that the server has made for its own request. No
other client gets it, neither from this server nor from one of another name. -/
structure OwnSessions (db : Text) (s : Sys) : Prop where
  own : ∀ x sid v name, s.client x = .returned sid v → connect db v = .ok name →
    name = session_name db v ∧ DecidedFor s x v ∧ 0 < v ∧ v ≤ s.cq.session_id
  apart : ∀ x y sid sid' v w name, s.client x = .returned sid v → s.client y = .returned sid' w →
    connect db v = .ok name → connect db w = .ok name → x = y
  across : ∀ db' v w name, connect db v = .ok name → connect db' w = .ok name → db' = db

theorem every_client_gets_a_session_of_its_own (db : Text) (n as_n : Nat) (acts : List Act)
    (s : Server) (hlen : acts.length < 2 ^ 63)
    (hr : RunOf serve (fun s a => Orderly s.queue a) (Server.init n as_n) acts s) :
    OwnSessions db s.queue := by
  have hq : RunOf step Orderly (Sys.init n as_n) acts s.queue :=
    hr.map (f := Server.queue) fun t a u hc hs => ⟨hc, serve_step hs⟩
  obtain ⟨-, -, hm⟩ := run_orderlyState hlen hq
  have hn := run_numbered hlen hr
  have hdec : ∀ x sid v, s.queue.client x = .returned sid v → DecidedFor s.queue x v := by
    intro x sid v hx
    obtain ⟨j, -, h1, h2⟩ := hm.returned x sid v hx
    exact ⟨j, h1, h2⟩
  refine ⟨?_, ?_, ?_⟩
  · intro x sid v name hx hname
    obtain ⟨hv, rfl⟩ := connect_ok hname
    have hd := hdec x sid v hx
    obtain ⟨j, -, hj⟩ := hd
    rcases hn.given v (List.mem_of_getElem? hj) with he | hg
    · exact absurd he hv
    · exact ⟨rfl, hdec x sid v hx, hg⟩
  · intro x y sid sid' v w name hx hy hv hw
    obtain ⟨hve, rfl⟩ := connect_ok hv
    obtain ⟨-, heq⟩ := connect_ok hw
    obtain ⟨-, rfl⟩ := session_name_inj heq
    obtain ⟨i, hi, hid⟩ := hdec x sid v hx
    obtain ⟨j, hj, hjd⟩ := hdec y sid' v hy
    rcases hn.once i j v hid hjd with he | rfl
    · exact absurd he hve
    · exact Option.some.inj (hi.symm.trans hj)
  · intro db' v w name hv hw
    obtain ⟨-, rfl⟩ := connect_ok hv
    obtain ⟨-, heq⟩ := connect_ok hw
    exact (session_name_inj heq).1.symm

/-- The test for a run of the server. -/
def orderlyServer (s : Server) (a : Act) : Bool := orderly s.queue a

/-- Two clients connect through the only slot, one after the other, and both get a
session. -/
def twoSessions : List Act :=
  [.pop_free 0 true, .push_requested 0, .enter_wait 0, .listen, .accept (set_admin 0) 1,
    .accept_write, .wake 0, .read 0, .reuse 0, .disconnect (set_admin 0),
    .pop_free 1 true, .push_requested 1, .enter_wait 1, .listen, .accept (set_admin 0) 2,
    .accept_write, .wake 1, .read 1, .reuse 1]

theorem every_client_gets_a_session_of_its_own_on_one_slot :
    ∃ s, RunOf serve (fun s a => Orderly s.queue a) (Server.init 0 1) twoSessions s ∧
      s.queue.client 0 = .returned (set_admin 0) 1 ∧
      s.queue.client 1 = .returned (set_admin 0) 2 ∧ OwnSessions [0x64, 0x62] s.queue := by
  obtain ⟨s, hr, hp⟩ := RunOf.exists_of_exec (s := Server.init 0 1)
    (C := fun s a => Orderly s.queue a) (c := orderlyServer)
    (fun s a h => orderly_of_test s.queue a h)
    (p := fun s => s.queue.client 0 = .returned (set_admin 0) 1 ∧
      s.queue.client 1 = .returned (set_admin 0) 2)
    (by decide : (exec (guarded serve orderlyServer) _ twoSessions).any _ = true)
  have hp' : s.queue.client 0 = .returned (set_admin 0) 1 ∧
      s.queue.client 1 = .returned (set_admin 0) 2 := by simpa using hp
  exact ⟨s, hr, hp'.1, hp'.2, every_client_gets_a_session_of_its_own _ 0 1 _ s (by decide) hr⟩

end tateyama_bootstrap.connection_queue
