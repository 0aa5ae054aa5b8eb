-- Which requests the connection queue admits. The normal test adds the admin
-- slots in use to `pushed_` and the admin test takes them off, so what they
-- promise holds for one admin slot and few enough slots for the 8-bit count.
import TateyamaBootstrap.ConnectionSlots

open runs ring_memory

namespace tateyama_bootstrap.connection_queue

/-! ## The queue of requests keeps its cells -/

theorem push_cells (q : IndexQueue) (sid a : Nat) :
    (q.push sid a).2.capacity = q.capacity ∧
      (q.push sid a).2.queue.length = q.queue.length := by
  unfold IndexQueue.push
  dsimp only
  split
  · split <;> simp
  · simp

theorem step_requested {s t : Sys} {x : Act} (h : step s x = some t) :
    t.cq.q_requested.capacity = s.cq.q_requested.capacity ∧
      t.cq.q_requested.queue.length = s.cq.q_requested.queue.length := by
  cases x with
  | pop_free c admin =>
    have hq : (s.cq.pop_free admin).2.q_requested = s.cq.q_requested := rfl
    simp only [step] at h
    split at h
    · split at h <;> rename_i heq <;> cases h <;> rw [heq] at hq <;>
        exact ⟨congrArg _ hq, congrArg (fun q => q.queue.length) hq⟩
    · cases h
  | push_requested c =>
    simp only [step] at h
    split at h
    · rename_i sid _
      have hq := push_cells s.cq.q_requested sid 0
      split at h <;> rename_i heq <;> cases h <;>
        (have he := congrArg (fun r => r.2.q_requested) heq
         dsimp only [ConnectionQueue.push_requested] at he
         rw [he] at hq
         exact hq)
    · cases h
  | enter_wait c =>
    simp only [step] at h
    split at h
    · split at h <;> cases h <;> exact ⟨rfl, rfl⟩
    · cases h
  | wake c | time_out c =>
    simp only [step] at h
    split at h
    · split at h
      · cases h
        exact ⟨rfl, rfl⟩
      · cases h
    · cases h
  | read c =>
    simp only [step] at h
    split at h
    · cases h
      exact ⟨rfl, rfl⟩
    · cases h
  | reuse c =>
    simp only [step] at h
    split at h
    · cases h
      exact ⟨rfl, rfl⟩
    · cases h
      exact ⟨rfl, rfl⟩
    · cases h
  | listen | accept sid id | reject sid | disconnect sid =>
    simp only [step] at h
    split at h
    · cases h
      exact ⟨rfl, rfl⟩
    · cases h
  | accept_write | reject_write | reject_push =>
    simp only [step] at h
    split at h
    · cases h
      exact ⟨rfl, rfl⟩
    · cases h
  | terminate =>
    cases h
    exact ⟨rfl, rfl⟩

theorem run_requested {n a : Nat} {C : Sys → Act → Prop} {acts : List Act} {s : Sys}
    (hr : RunOf step C (Sys.init n a) acts s) :
    s.cq.q_requested.capacity = (n + a) % 2 ^ 32 ∧
      s.cq.q_requested.queue.length = (n + a) % 2 ^ 32 := by
  have hcap : (n + a) % 2 ^ 64 % 2 ^ 32 = (n + a) % 2 ^ 32 := by omega
  refine hr.inv (I := fun s => s.cq.q_requested.capacity = (n + a) % 2 ^ 32 ∧
    s.cq.q_requested.queue.length = (n + a) % 2 ^ 32) ?_ ?_
  · simp only [Sys.init, ConnectionQueue.new, IndexQueue.new, List.length_replicate]
    exact ⟨hcap, hcap⟩
  · intro s x t ih _ hs
    obtain ⟨h1, h2⟩ := step_requested hs
    rw [h1, h2]
    exact ih

/-- The push to a queue with cells does not throw. -/
theorem push_ok {q : IndexQueue} {c sid : Nat} (hpos : 0 < c) (hcap : q.capacity = c)
    (hlen : q.queue.length = c) : (q.push sid 0).1 = .ok () := by
  have hlt : q.index (q.pushed + 0) < q.queue.length := by
    unfold IndexQueue.index
    rw [hcap, hlen]
    exact Nat.mod_lt _ hpos
  unfold IndexQueue.push
  simp only [hlt, if_true]
  split <;> rfl

/-- A request succeeds exactly when its pop from `q_free_` does, and one whose
pop throws does no more than the pop. -/
theorem request_as_of_pop {c : ConnectionQueue} {m : Nat} (admin : Bool) (hpos : 0 < m)
    (hcap : c.q_requested.capacity = m) (hlen : c.q_requested.queue.length = m) :
    ((c.request_as admin).1.isOk = (c.pop_free admin).1.isOk) ∧
      ((c.pop_free admin).1.isOk = false → (c.request_as admin).2 = (c.pop_free admin).2) := by
  have hq : (c.pop_free admin).2.q_requested = c.q_requested := rfl
  unfold ConnectionQueue.request_as
  rcases heq : c.pop_free admin with ⟨r, c'⟩
  rw [heq] at hq
  cases r with
  | error e => exact ⟨rfl, fun _ => rfl⟩
  | ok sid =>
    have hok : (c'.push_requested sid).1 = .ok () := by
      unfold ConnectionQueue.push_requested
      rw [hq]
      exact push_ok hpos hcap hlen
    rcases heq' : c'.push_requested sid with ⟨r', c''⟩
    rw [heq'] at hok
    cases r' with
    | error e => simp at hok
    | ok u =>
      exact ⟨by simp [heq', Except.isOk, Except.toBool], by simp [Except.isOk, Except.toBool]⟩

/-! ## What the two tests say -/

theorem Counted.pop_normal_isOk {n a k : Nat} {s : Sys} (h : Counted n a k s)
    (hcap : 0 < (n + a) % 2 ^ 32) (hk : k < 2 ^ 63) :
    (s.cq.pop_free false).1.isOk = true ↔
      s.cq.q_free.poped < s.cq.q_free.pushed + s.cq.q_free.admin_slots_in_use := by
  rw [h.pop_normal hcap hk]
  split <;> simp [Except.isOk, Except.toBool, *]

theorem Counted.pop_admin_isOk {n a k : Nat} {s : Sys} (h : Counted n a k s) (ha : a ≤ 255)
    (hcap : 0 < (n + a) % 2 ^ 32) (hk : k < 2 ^ 63) :
    (s.cq.pop_free true).1.isOk = true ↔
      s.cq.q_free.poped + s.cq.q_free.admin_slots_in_use < s.cq.q_free.pushed + a := by
  rw [h.pop_admin ha hcap hk]
  split <;> simp [Except.isOk, Except.toBool, *]

/-- A pop that throws changes nothing. -/
theorem Counted.pop_thrown {n a k : Nat} {s : Sys} (h : Counted n a k s) (ha : a ≤ 255)
    (hcap : 0 < (n + a) % 2 ^ 32) (hk : k < 2 ^ 63) {admin : Bool}
    (hno : (s.cq.pop_free admin).1.isOk = false) : (s.cq.pop_free admin).2 = s.cq := by
  rcases hp : s.cq.pop_free admin with ⟨r, c⟩
  rw [hp] at hno
  cases r with
  | ok sid => simp [Except.isOk, Except.toBool] at hno
  | error e => exact h.refuse ha hcap hk (t := { s with cq := c }) hp

/-! ## Admission control -/

/-- What the queue promises in one state: a normal request succeeds exactly while
fewer than `n` normal sids are granted, an admin request succeeds while fewer
than `a` admin sids are granted, and a request that throws changes nothing. -/
structure Admits (n a : Nat) (s : Sys) : Prop where
  normal : s.cq.request.1.isOk = true ↔ s.normals < n
  admin : s.admins < a → s.cq.request_admin.1.isOk = true
  normal_thrown : s.cq.request.1.isOk = false → s.cq.request.2 = s.cq
  admin_thrown : s.cq.request_admin.1.isOk = false → s.cq.request_admin.2 = s.cq

/-- The promise in every state of every run. -/
def AdmissionControl (n a : Nat) : Prop :=
  ∀ acts s, acts.length < 2 ^ 63 → RunOf step Free (Sys.init n a) acts s → Admits n a s

/-- With one admin slot the admin sids fit their 8-bit count and the normal sids
stay within `n`, however many slots are overrun. -/
theorem bounds_step {n k : Nat} {s t : Sys} {x : Act} (hn : 1 ≤ n) (hn509 : n ≤ 509)
    (hk : k < 2 ^ 63) (h : Counted n 1 k s) (hadm : s.admins ≤ 255) (hnor : s.normals ≤ n)
    (hs : step s x = some t) : t.admins ≤ 255 ∧ t.normals ≤ n := by
  have hcap : 0 < (n + 1) % 2 ^ 32 := by omega
  have hcount := h.count
  have hin := h.in_use
  have hsplit := admins_add_normals s
  have hsplit' := admins_add_normals t
  obtain ⟨-, hmove⟩ := step_slots hs
  cases hmove with
  | still hq hg ho | refuse hpop hg ho =>
    unfold Sys.admins Sys.normals
    rw [hg]
    exact ⟨hadm, hnor⟩
  | grant hpop hg ho =>
    have hadmins := h.grant_admins (by omega) hcap hk hpop hg
    have hlen : t.granted.length = s.granted.length + 1 := by rw [hg]; rfl
    rcases h.pop_cases (by omega) hcap hk hpop with ⟨rfl, hroom, -⟩ | ⟨rfl, hroom, -⟩
    · simp only [Bool.false_eq_true, if_false] at hadmins
      omega
    · simp only [if_true] at hadmins
      omega
  | @give_back _ sid hm hq hg ho =>
    have hsub : t.granted.Sublist s.granted := by rw [hg]; exact List.erase_sublist
    exact ⟨Nat.le_trans hsub.countP_le hadm, Nat.le_trans hsub.countP_le hnor⟩

theorem admissionControl_of_one {n : Nat} (hn : 1 ≤ n) (hn509 : n ≤ 509) :
    AdmissionControl n 1 := by
  intro acts s hlen hr
  have hcap : 0 < (n + 1) % 2 ^ 32 := by omega
  obtain ⟨hcnt, hadm, hnor⟩ : Counted n 1 acts.length s ∧ s.admins ≤ 255 ∧ s.normals ≤ n := by
    refine hr.inv_length (I := fun k s => k < 2 ^ 63 →
      Counted n 1 k s ∧ s.admins ≤ 255 ∧ s.normals ≤ n) ?_ ?_ hlen
    · intro _
      exact ⟨counted_init (by omega), by simp [Sys.admins, Sys.init],
        by simp [Sys.normals, Sys.init]⟩
    · intro k s x t ih _ hs hk
      obtain ⟨hcnt, hadm, hnor⟩ := ih (by omega)
      exact ⟨counted_step (by omega) hcap (by omega) (fun _ _ => by omega) hcnt hs,
        bounds_step hn hn509 (by omega) hcnt hadm hnor hs⟩
  obtain ⟨hrc, hrl⟩ := run_requested hr
  have hnormal := request_as_of_pop false hcap hrc hrl
  have hadmin := request_as_of_pop true hcap hrc hrl
  have hcount := hcnt.count
  have hin := hcnt.in_use
  have hsplit := admins_add_normals s
  refine ⟨?_, ?_, ?_, ?_⟩
  · unfold ConnectionQueue.request
    rw [hnormal.1, hcnt.pop_normal_isOk hcap hlen]
    omega
  · intro hlt
    unfold ConnectionQueue.request_admin
    rw [hadmin.1, hcnt.pop_admin_isOk (by omega) hcap hlen]
    omega
  · intro hno
    unfold ConnectionQueue.request at hno ⊢
    rw [hnormal.1] at hno
    rw [hnormal.2 hno]
    exact hcnt.pop_thrown (by omega) hcap hlen hno
  · intro hno
    unfold ConnectionQueue.request_admin at hno ⊢
    rw [hadmin.1] at hno
    rw [hadmin.2 hno]
    exact hcnt.pop_thrown (by omega) hcap hlen hno

theorem take_of_nil {q : IndexQueue} (h : q.queue = []) : q.take.1 = .error .out_of_range := by
  unfold IndexQueue.take
  simp [h]

/-- A queue of no cells throws at every request. -/
theorem request_of_nil {c : ConnectionQueue} (h : c.q_free.queue = []) :
    c.request.1.isOk = false := by
  have hpop : (c.pop_free false).1.isOk = false := by
    simp only [ConnectionQueue.pop_free, Bool.false_eq_true, if_false, IndexQueue.try_pop]
    split
    · rfl
    · rw [take_of_nil h]
      rfl
  unfold ConnectionQueue.request ConnectionQueue.request_as
  rcases heq : c.pop_free false with ⟨r, c'⟩
  rw [heq] at hpop
  cases r with
  | error e => rfl
  | ok sid => simp [Except.isOk, Except.toBool] at hpop

theorem init_queue_of_truncated {n a : Nat} (h : (n + a) % 2 ^ 32 = 0) :
    (Sys.init n a).cq.q_free.queue = [] := by
  have hcap : (n + a) % 2 ^ 64 % 2 ^ 32 = 0 := by omega
  simp only [Sys.init, ConnectionQueue.new, IndexQueue.fill, IndexQueue.new]
  rw [hcap]
  rfl

/-- After `u` admin requests and then normal ones, `j` in all, the queue still
keeps its promise. -/
theorem admits_afterPops {n a u j : Nat} (ha1 : 1 ≤ a) (ha : a ≤ 255)
    (hcap : 0 < (n + a) % 2 ^ 32) (hj : j < 2 ^ 63) (hadm : ∀ i < j, Admitted n a u i)
    (h : AdmissionControl n a) :
    (j < n % 2 ^ 32 + min u j % 256 ↔ j - u < n) ∧
      (min u j < a → j + min u j % 256 < n % 2 ^ 32 + a) := by
  obtain ⟨s, hr, hs⟩ := run_pops ha hcap hj hadm
  have hlen : (popActs u j).length < 2 ^ 63 := by rw [length_popActs]; exact hj
  have hcnt := run_counted ha1 ha hcap hlen hr
  obtain ⟨hrc, hrl⟩ := run_requested hr
  obtain ⟨hadmins, hnormals⟩ := hs.counts hcap
  have hok := h _ s hlen hr
  have hnormal := hok.normal
  have hadmin := hok.admin
  unfold ConnectionQueue.request at hnormal
  unfold ConnectionQueue.request_admin at hadmin
  rw [(request_as_of_pop false hcap hrc hrl).1, hcnt.pop_normal_isOk hcap hlen, hs.free,
    hnormals] at hnormal
  rw [(request_as_of_pop true hcap hrc hrl).1, hcnt.pop_admin_isOk ha hcap hlen, hs.free,
    hadmins] at hadmin
  exact ⟨hnormal, hadmin⟩

theorem one_of_admissionControl {n a : Nat} (hn : 1 ≤ n) (ha1 : 1 ≤ a) (ha : a ≤ 255)
    (h : AdmissionControl n a) : a = 1 ∧ n ≤ 509 := by
  by_cases hcap : (n + a) % 2 ^ 32 = 0
  · -- no cell: the first request throws
    have hok := (h [] _ (by simp) .nil).normal
    rw [request_of_nil (init_queue_of_truncated hcap)] at hok
    have : (Sys.init n a).normals < n := by
      simp only [Sys.normals, Sys.init, List.countP_nil]
      omega
    exact absurd (hok.mpr this) (by simp)
  by_cases hbig : n < 2 ^ 32
  · have h32 : n % 2 ^ 32 = n := Nat.mod_eq_of_lt hbig
    by_cases hone : a = 1
    · refine ⟨hone, ?_⟩
      by_contra hc
      -- 256 admin sids count as none in 8 bits
      have hpop := admits_afterPops (u := 256) (j := n) ha1 ha (by omega) (by omega)
        (fun i hi => by unfold Admitted; rw [h32]; split <;> omega) h
      omega
    · -- `n` normal sids and half of the admin sids
      have hpop := admits_afterPops (u := (a + 1) / 2) (j := n + (a + 1) / 2) ha1 ha (by omega)
        (by omega) (fun i hi => by unfold Admitted; rw [h32]; split <;> omega) h
      omega
  · -- the capacity is cut to 32 bits
    have hpop := admits_afterPops (u := 0) (j := n % 2 ^ 32) ha1 ha (by omega) (by omega)
      (fun i hi => by unfold Admitted; split <;> omega) h
    omega

/-- The queue keeps its promise in every run exactly when it has one admin slot
and at most 509 normal slots. -/
theorem admission_control_needs_one_admin_slot (n a : Nat) (hn : 1 ≤ n) (ha1 : 1 ≤ a)
    (ha : a ≤ 255) : AdmissionControl n a ↔ a = 1 ∧ n ≤ 509 := by
  refine ⟨one_of_admissionControl hn ha1 ha, ?_⟩
  rintro ⟨rfl, hn509⟩
  exact admissionControl_of_one hn hn509

/-- The default size keeps the promise. -/
theorem admission_control_at_the_default_size : AdmissionControl 104 1 :=
  (admission_control_needs_one_admin_slot 104 1 (by decide) (by decide) (by decide)).mpr
    ⟨rfl, by decide⟩

/-- Two admin slots and one normal slot: with the normal session and one admin
session connected, the second admin request is refused. -/
theorem the_second_admin_is_refused : ∃ s, RunOf step Free (Sys.init 1 2)
    [.pop_free 0 false, .push_requested 0, .pop_free 1 true, .push_requested 1] s ∧
    s.normals = 1 ∧ s.admins = 1 ∧ s.cq.request_admin.1.isOk = false ∧
    ¬ AdmissionControl 1 2 := by
  obtain ⟨s, hr, hp⟩ := RunOf.exists_free (s := Sys.init 1 2)
    (p := fun s => s.normals = 1 ∧ s.admins = 1 ∧ s.cq.request_admin.1.isOk = false)
    (by decide : (exec step _ [.pop_free 0 false, .push_requested 0, .pop_free 1 true,
      .push_requested 1]).any _ = true)
  have hp' : s.normals = 1 ∧ s.admins = 1 ∧ s.cq.request_admin.1.isOk = false := by
    simpa using hp
  refine ⟨s, hr, hp'.1, hp'.2.1, hp'.2.2, ?_⟩
  intro h
  have hok := (h _ s (by decide) hr).admin (by rw [hp'.2.1]; decide)
  rw [hp'.2.2] at hok
  cases hok

end tateyama_bootstrap.connection_queue
