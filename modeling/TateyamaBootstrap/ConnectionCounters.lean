-- The counters of the free queue over every run. `q_free_` keeps its free
-- slots by `pushed_`, `poped_` and an 8-bit count of the admin slots in use.
-- `Counted` ties these to the sids that are granted, for every interleaving.
import TateyamaBootstrap.ConnectionQueue
import TateyamaBootstrap.RingMemory
import Mathlib.Data.List.Perm.Basic
import Mathlib.Data.Nat.Bitwise

open runs ring_memory

namespace tateyama_bootstrap.connection_queue

/-! ## The admin bit -/

theorem reset_admin_eq (x : Nat) : reset_admin x = x % 2 ^ 63 :=
  Nat.and_two_pow_sub_one_eq_mod x 63

theorem set_admin_eq {x : Nat} (h : x < 2 ^ 63) : set_admin x = 2 ^ 63 + x := by
  have ho := Nat.two_pow_add_eq_or_of_lt h 1
  rw [Nat.mul_one] at ho
  rw [ho, Nat.lor_comm]
  rfl

theorem is_admin_eq_testBit (x : Nat) : is_admin x = x.testBit 63 := by
  unfold is_admin admin_bit
  rw [Nat.and_two_pow]
  cases x.testBit 63 <;> simp

theorem reset_admin_of_lt {x : Nat} (h : x < 2 ^ 63) : reset_admin x = x := by
  rw [reset_admin_eq, Nat.mod_eq_of_lt h]

theorem is_admin_of_lt {x : Nat} (h : x < 2 ^ 63) : is_admin x = false := by
  rw [is_admin_eq_testBit, Nat.testBit_lt_two_pow h]

theorem reset_admin_set_admin {x : Nat} (h : x < 2 ^ 63) : reset_admin (set_admin x) = x := by
  rw [reset_admin_eq, set_admin_eq h, Nat.add_mod_left, Nat.mod_eq_of_lt h]

theorem is_admin_set_admin {x : Nat} (h : x < 2 ^ 63) : is_admin (set_admin x) = true := by
  rw [is_admin_eq_testBit, set_admin_eq h, Nat.testBit_two_pow_add_eq, Nat.testBit_lt_two_pow h]
  rfl

/-! ## The index queue as a ring -/

/-- The cell of `queue_` at an index. -/
def IndexQueue.cell (q : IndexQueue) (i : Nat) : Nat := (q.queue[i]?).getD 0

/-- The free region `[poped_, pushed_ + admin_slots)` of `q_free_`. -/
def IndexQueue.free_region (q : IndexQueue) (admin_slots : Nat) : List Nat :=
  slice q.cell q.capacity q.poped (q.pushed + admin_slots - q.poped)

/-- A queue of `c` cells whose counters are far from their last value. -/
structure Shaped (q : IndexQueue) (c : Nat) : Prop where
  capacity : q.capacity = c
  length : q.queue.length = c
  pos : 0 < c
  pushed_lt : q.pushed + 2 ^ 32 < 2 ^ 64
  poped_lt : q.poped + 2 ^ 32 < 2 ^ 64

theorem Shaped.index {q : IndexQueue} {c i : Nat} (h : Shaped q c) (hi : i < 2 ^ 64) :
    q.index i = i % c := by
  unfold IndexQueue.index
  rw [Nat.mod_eq_of_lt hi, h.capacity]

theorem Shaped.take {q : IndexQueue} {c : Nat} (h : Shaped q c) :
    q.take = (.ok (q.cell (q.poped % c)), { q with poped := q.poped + 1 }) := by
  have hp := h.poped_lt
  have hlt : q.poped % c < q.queue.length := by
    rw [h.length]
    exact Nat.mod_lt _ h.pos
  unfold IndexQueue.take IndexQueue.cell
  rw [h.index (by omega), List.getElem?_eq_getElem hlt, Nat.mod_eq_of_lt (by omega)]
  rfl

theorem Shaped.push {q : IndexQueue} {c : Nat} (h : Shaped q c) (sid a : Nat) (ha : a ≤ 255) :
    q.push sid a = (.ok (), { q with
      queue := q.queue.set ((q.pushed + a) % c)
        (if 0 < a ∧ is_admin sid then reset_admin sid else sid)
      admin_slots_in_use :=
        if 0 < a ∧ is_admin sid then (q.admin_slots_in_use + 255) % 256 else q.admin_slots_in_use
      pushed := q.pushed + 1 }) := by
  have hp := h.pushed_lt
  have hlt : (q.pushed + a) % c < q.queue.length := by
    rw [h.length]
    exact Nat.mod_lt _ h.pos
  unfold IndexQueue.push
  rw [h.index (by omega), Nat.mod_eq_of_lt (a := q.pushed + 1) (by omega)]
  simp only [hlt, if_true]
  split <;> rfl

theorem Shaped.try_pop {q : IndexQueue} {c : Nat} (h : Shaped q c)
    (hu : q.admin_slots_in_use < 256) (hg : q.poped < q.pushed + q.admin_slots_in_use) :
    q.try_pop = (.ok (q.cell (q.poped % c)), { q with poped := q.poped + 1 }) := by
  have hp := h.pushed_lt
  unfold IndexQueue.try_pop
  rw [Nat.mod_eq_of_lt (by omega), if_neg (by omega), h.take]

theorem Shaped.try_pop_refused {q : IndexQueue} {c : Nat} (h : Shaped q c)
    (hu : q.admin_slots_in_use < 256) (hg : q.pushed + q.admin_slots_in_use ≤ q.poped) :
    q.try_pop =
      (.error (.runtime_error .internal "no request slot is available for normal request"), q) := by
  have hp := h.pushed_lt
  unfold IndexQueue.try_pop
  rw [Nat.mod_eq_of_lt (by omega), if_pos hg]

/-- The `int` difference wraps to the true sum when the sum is not negative. -/
theorem admin_sum {q : IndexQueue} {c a : Nat} (h : Shaped q c) (ha : a ≤ 255)
    (hu : q.admin_slots_in_use < 256) (hw : q.admin_slots_in_use ≤ q.pushed + a) :
    (q.pushed + (a + 2 ^ 64 - q.admin_slots_in_use)) % 2 ^ 64 =
      q.pushed + a - q.admin_slots_in_use := by
  have hp := h.pushed_lt
  have he : q.pushed + (a + 2 ^ 64 - q.admin_slots_in_use) =
      q.pushed + a - q.admin_slots_in_use + 2 ^ 64 := by omega
  rw [he, Nat.add_mod_right, Nat.mod_eq_of_lt (by omega)]

theorem Shaped.try_pop_admin {q : IndexQueue} {c a : Nat} (h : Shaped q c) (ha : a ≤ 255)
    (hu : q.admin_slots_in_use < 256) (hw : q.admin_slots_in_use ≤ q.pushed + a)
    (hg : q.poped + q.admin_slots_in_use < q.pushed + a) :
    q.try_pop_admin a = (.ok (set_admin (q.cell (q.poped % c))), { q with
      poped := q.poped + 1, admin_slots_in_use := (q.admin_slots_in_use + 1) % 256 }) := by
  unfold IndexQueue.try_pop_admin
  rw [admin_sum h ha hu hw, if_neg (by omega), h.take]
  rfl

theorem Shaped.try_pop_admin_refused {q : IndexQueue} {c a : Nat} (h : Shaped q c) (ha : a ≤ 255)
    (hu : q.admin_slots_in_use < 256) (hw : q.admin_slots_in_use ≤ q.pushed + a)
    (hg : q.pushed + a ≤ q.poped + q.admin_slots_in_use) :
    q.try_pop_admin a =
      (.error (.runtime_error .internal "no request slot is available for admin request"), q) := by
  unfold IndexQueue.try_pop_admin
  rw [admin_sum h ha hu hw, if_pos (by omega)]

/-! ## What a step does to the slots -/

/-- The sid that a `reject` in progress has still to give back. -/
def Listener.pending : Listener → List Nat
  | .rejecting sid => [sid]
  | .freeing sid => [sid]
  | _ => []

/-- Every granted sid: those that nobody gives back yet, and the one of the listener. -/
def Sys.owed (s : Sys) : List Nat := s.held ++ s.listener.pending

/-- All that one step can do to `q_free_` and to the sids granted. -/
inductive SlotMove (s t : Sys) : Act → Prop
  | still {x : Act} : t.cq.q_free = s.cq.q_free → t.granted = s.granted →
      t.owed.Perm s.owed → SlotMove s t x
  | grant {c sid : Nat} {admin : Bool} : s.cq.pop_free admin = (.ok sid, t.cq) →
      t.granted = sid :: s.granted → t.owed = sid :: s.owed → SlotMove s t (.pop_free c admin)
  | refuse {c : Nat} {admin : Bool} {e : Error} : s.cq.pop_free admin = (.error e, t.cq) →
      t.granted = s.granted → t.owed = s.owed → SlotMove s t (.pop_free c admin)
  | give_back {x : Act} {sid : Nat} : sid ∈ s.owed →
      t.cq.q_free = (s.cq.q_free.push sid s.cq.admin_slots).2 →
      t.granted = s.granted.erase sid → t.owed.Perm (s.owed.erase sid) → SlotMove s t x

/-- Each step keeps the number of admin slots and is one of the moves. -/
theorem step_slots {s t : Sys} {x : Act} (h : step s x = some t) :
    t.cq.admin_slots = s.cq.admin_slots ∧ SlotMove s t x := by
  cases x with
  | pop_free c admin =>
    simp only [step] at h
    split at h
    · have hadm : (s.cq.pop_free admin).2.admin_slots = s.cq.admin_slots := rfl
      split at h
      · rename_i sid cq heq
        cases h
        rw [heq] at hadm
        exact ⟨hadm, .grant heq rfl rfl⟩
      · rename_i e cq heq
        cases h
        rw [heq] at hadm
        exact ⟨hadm, .refuse heq rfl rfl⟩
    · cases h
  | push_requested c =>
    simp only [step] at h
    split at h
    · rename_i sid _
      have hq : (s.cq.push_requested sid).2.q_free = s.cq.q_free := rfl
      have hadm : (s.cq.push_requested sid).2.admin_slots = s.cq.admin_slots := rfl
      split at h <;> rename_i heq <;> cases h <;> rw [heq] at hq hadm <;>
        exact ⟨hadm, .still hq rfl (.refl _)⟩
    · cases h
  | enter_wait c =>
    simp only [step] at h
    split at h
    · split at h <;> cases h <;> exact ⟨rfl, .still rfl rfl (.refl _)⟩
    · cases h
  | wake c | time_out c =>
    simp only [step] at h
    split at h
    · split at h
      · cases h
        exact ⟨rfl, .still rfl rfl (.refl _)⟩
      · cases h
    · cases h
  | read c =>
    simp only [step] at h
    split at h
    · cases h
      exact ⟨rfl, .still rfl rfl (.refl _)⟩
    · cases h
  | reuse c =>
    simp only [step] at h
    split at h
    · cases h
      exact ⟨rfl, .still rfl rfl (.refl _)⟩
    · cases h
      exact ⟨rfl, .still rfl rfl (.refl _)⟩
    · cases h
  | listen =>
    simp only [step] at h
    split at h
    · cases h
      exact ⟨rfl, .still rfl rfl (.refl _)⟩
    · cases h
  | accept sid id =>
    simp only [step] at h
    split at h
    · rename_i hc
      cases h
      exact ⟨rfl, .still rfl rfl (by simp [Sys.owed, hc.1, Listener.pending])⟩
    · cases h
  | accept_write =>
    simp only [step] at h
    split at h
    · rename_i hl
      cases h
      exact ⟨rfl, .still rfl rfl (by simp [Sys.owed, hl, Listener.pending])⟩
    · cases h
  | reject sid =>
    simp only [step] at h
    split at h
    · rename_i hc
      cases h
      refine ⟨rfl, .still rfl rfl ?_⟩
      simp only [Sys.owed, hc.1, Listener.pending, List.append_nil]
      exact (List.perm_append_singleton _ _).trans (List.perm_cons_erase hc.2).symm
    · cases h
  | reject_write =>
    simp only [step] at h
    split at h
    · rename_i hl
      cases h
      exact ⟨rfl, .still rfl rfl (by simp [Sys.owed, hl, Listener.pending])⟩
    · cases h
  | reject_push =>
    simp only [step] at h
    split at h
    · rename_i sid hl
      cases h
      refine ⟨rfl, .give_back (by simp [Sys.owed, hl, Listener.pending] : sid ∈ s.owed) rfl rfl ?_⟩
      simp only [Sys.owed, hl, Listener.pending, List.append_nil]
      have hp := ((List.perm_append_singleton sid s.held).erase sid).symm
      rwa [List.erase_cons_head] at hp
    · cases h
  | disconnect sid =>
    simp only [step] at h
    split at h
    · rename_i hm
      cases h
      refine ⟨rfl, .give_back (by simp [Sys.owed, hm] : sid ∈ s.owed) rfl rfl ?_⟩
      simp only [Sys.owed]
      rw [List.erase_append_left _ hm]
    · cases h
  | terminate =>
    cases h
    exact ⟨rfl, .still rfl rfl (.refl _)⟩

/-! ## The counters over every run -/

/-- The admin sids granted and not yet given back. -/
def Sys.admins (s : Sys) : Nat := s.granted.countP is_admin

/-- The normal sids granted and not yet given back. -/
def Sys.normals (s : Sys) : Nat := s.granted.countP fun sid => !is_admin sid

theorem admins_add_normals (s : Sys) : s.admins + s.normals = s.granted.length := by
  unfold Sys.admins Sys.normals
  rw [List.length_eq_countP_add_countP is_admin]
  simp

/-- What ties the counters of `q_free_` to the sids granted, after `k` steps. It
says nothing about the free region, which can be overrun. -/
structure Counted (n a k : Nat) (s : Sys) : Prop where
  admin_slots : s.cq.admin_slots = a
  capacity : s.cq.q_free.capacity = (n + a) % 2 ^ 32
  length : s.cq.q_free.queue.length = (n + a) % 2 ^ 32
  entries : ∀ v ∈ s.cq.q_free.queue, v < (n + a) % 2 ^ 32
  sids : ∀ sid ∈ s.granted, ∃ v < (n + a) % 2 ^ 32, sid = v ∨ (0 < a ∧ sid = set_admin v)
  owed : s.granted.Perm s.owed
  count : s.cq.q_free.pushed + s.granted.length = s.cq.q_free.poped + n % 2 ^ 32
  in_use : s.cq.q_free.admin_slots_in_use = s.admins % 256
  no_wrap : min s.admins 256 ≤ s.cq.q_free.pushed + a
  pushed_le : s.cq.q_free.pushed ≤ n % 2 ^ 32 + k
  poped_le : s.cq.q_free.poped ≤ k

theorem counted_init {n a : Nat} (ha : a ≤ 255) : Counted n a 0 (Sys.init n a) := by
  have hcap : (n + a) % 2 ^ 64 % 2 ^ 32 = (n + a) % 2 ^ 32 := by omega
  have hpush : ((n + a) % 2 ^ 64 % 2 ^ 32 + 2 ^ 32 - a) % 2 ^ 32 = n % 2 ^ 32 := by omega
  refine ⟨rfl, hcap, ?_, ?_, by simp [Sys.init], by simp [Sys.init, Sys.owed, Listener.pending],
    ?_, rfl, by simp [Sys.admins, Sys.init], ?_, Nat.le_refl _⟩
  · simp only [Sys.init, ConnectionQueue.new, IndexQueue.fill, IndexQueue.new, List.length_range]
    exact hcap
  · intro v hv
    simp only [Sys.init, ConnectionQueue.new, IndexQueue.fill, IndexQueue.new,
      List.mem_range] at hv
    omega
  · simp only [Sys.init, ConnectionQueue.new, IndexQueue.fill, IndexQueue.new,
      List.length_nil]
    omega
  · simp only [Sys.init, ConnectionQueue.new, IndexQueue.fill, IndexQueue.new]
    omega

theorem Counted.shaped {n a k : Nat} {s : Sys} (h : Counted n a k s)
    (hcap : 0 < (n + a) % 2 ^ 32) (hk : k < 2 ^ 63) :
    Shaped s.cq.q_free ((n + a) % 2 ^ 32) := by
  have h1 := h.pushed_le
  have h2 := h.poped_le
  exact ⟨h.capacity, h.length, hcap, by omega, by omega⟩

theorem Counted.in_use_lt {n a k : Nat} {s : Sys} (h : Counted n a k s) :
    s.cq.q_free.admin_slots_in_use < 256 := by
  rw [h.in_use]
  omega

theorem Counted.in_use_le {n a k : Nat} {s : Sys} (h : Counted n a k s) :
    s.cq.q_free.admin_slots_in_use ≤ s.cq.q_free.pushed + a := by
  have h1 := h.in_use
  have h2 := h.no_wrap
  omega

/-- The next cell of `q_free_` holds a slot. -/
theorem Counted.cell_lt {n a k : Nat} {s : Sys} (h : Counted n a k s)
    (hcap : 0 < (n + a) % 2 ^ 32) (i : Nat) :
    s.cq.q_free.cell (i % ((n + a) % 2 ^ 32)) < (n + a) % 2 ^ 32 := by
  have hlt : i % ((n + a) % 2 ^ 32) < s.cq.q_free.queue.length := by
    rw [h.length]
    exact Nat.mod_lt _ hcap
  unfold IndexQueue.cell
  rw [List.getElem?_eq_getElem hlt]
  exact h.entries _ (List.getElem_mem hlt)

/-- A normal request gets a slot exactly when `pushed_` and the count of admin
slots in use are together past `poped_`. -/
theorem Counted.pop_normal {n a k : Nat} {s : Sys} (h : Counted n a k s)
    (hcap : 0 < (n + a) % 2 ^ 32) (hk : k < 2 ^ 63) :
    s.cq.pop_free false =
      if s.cq.q_free.poped < s.cq.q_free.pushed + s.cq.q_free.admin_slots_in_use then
        (.ok (s.cq.q_free.cell (s.cq.q_free.poped % ((n + a) % 2 ^ 32))),
          { s.cq with q_free := { s.cq.q_free with poped := s.cq.q_free.poped + 1 } })
      else (.error (.runtime_error .internal "no request slot is available for normal request"),
        s.cq) := by
  have hs := h.shaped hcap hk
  unfold ConnectionQueue.pop_free
  by_cases hg : s.cq.q_free.poped < s.cq.q_free.pushed + s.cq.q_free.admin_slots_in_use
  · rw [if_pos hg, if_neg (by simp), hs.try_pop h.in_use_lt hg]
  · rw [if_neg hg, if_neg (by simp), hs.try_pop_refused h.in_use_lt (by omega)]

/-- An admin request gets a slot exactly when `pushed_` and the admin slots are
together past `poped_` and the count of admin slots in use. -/
theorem Counted.pop_admin {n a k : Nat} {s : Sys} (h : Counted n a k s) (ha : a ≤ 255)
    (hcap : 0 < (n + a) % 2 ^ 32) (hk : k < 2 ^ 63) :
    s.cq.pop_free true =
      if s.cq.q_free.poped + s.cq.q_free.admin_slots_in_use < s.cq.q_free.pushed + a then
        (.ok (set_admin (s.cq.q_free.cell (s.cq.q_free.poped % ((n + a) % 2 ^ 32)))),
          { s.cq with q_free := { s.cq.q_free with
            poped := s.cq.q_free.poped + 1
            admin_slots_in_use := (s.cq.q_free.admin_slots_in_use + 1) % 256 } })
      else (.error (.runtime_error .internal "no request slot is available for admin request"),
        s.cq) := by
  have hs := h.shaped hcap hk
  have he : s.cq.q_free.try_pop_admin s.cq.admin_slots = s.cq.q_free.try_pop_admin a := by
    rw [h.admin_slots]
  unfold ConnectionQueue.pop_free
  by_cases hg : s.cq.q_free.poped + s.cq.q_free.admin_slots_in_use < s.cq.q_free.pushed + a
  · rw [if_pos hg, if_pos rfl, he, hs.try_pop_admin ha h.in_use_lt h.in_use_le hg]
  · rw [if_neg hg, if_pos rfl, he,
      hs.try_pop_admin_refused ha h.in_use_lt h.in_use_le (by omega)]

/-! ## Each move keeps the count -/

section Moves

variable {n a k : Nat} {s t : Sys}

theorem Counted.still (h : Counted n a k s) (hadm : t.cq.admin_slots = s.cq.admin_slots)
    (hq : t.cq.q_free = s.cq.q_free) (hg : t.granted = s.granted) (ho : t.owed.Perm s.owed) :
    Counted n a (k + 1) t := by
  have hadmins : t.admins = s.admins := by unfold Sys.admins; rw [hg]
  obtain ⟨h1, h2, h3, h4, h5, h6, h7, h8, h9, h10, h11⟩ := h
  refine ⟨by rw [hadm, h1], by rw [hq, h2], by rw [hq, h3], by rw [hq]; exact h4,
    by rw [hg]; exact h5, by rw [hg]; exact h6.trans ho.symm, by rw [hq, hg, h7],
    by rw [hq, h8, hadmins], by rw [hq, hadmins]; exact h9, ?_, ?_⟩
  · rw [hq]; omega
  · rw [hq]; omega

/-- The parts of a grant that a normal and an admin pop share. -/
theorem Counted.popped (h : Counted n a k s) (hadm : t.cq.admin_slots = s.cq.admin_slots)
    {sid v : Nat} {q : IndexQueue} {u : Nat} (hq : t.cq.q_free = q)
    (hqe : q = { s.cq.q_free with poped := s.cq.q_free.poped + 1, admin_slots_in_use := u })
    (hg : t.granted = sid :: s.granted) (ho : t.owed = sid :: s.owed)
    (hv : v < (n + a) % 2 ^ 32) (hsid : sid = v ∨ (0 < a ∧ sid = set_admin v))
    (hu : u = t.admins % 256) (hw : min t.admins 256 ≤ s.cq.q_free.pushed + a) :
    Counted n a (k + 1) t := by
  have hlen : t.granted.length = s.granted.length + 1 := by rw [hg]; rfl
  have howed : t.granted.Perm t.owed := by rw [hg, ho]; exact h.owed.cons sid
  have h7 := h.count
  have h10 := h.pushed_le
  have h11 := h.poped_le
  subst hqe
  refine ⟨hadm.trans h.admin_slots, ?_, ?_, ?_, ?_, howed, ?_, ?_, ?_, ?_, ?_⟩
  · rw [hq]; exact h.capacity
  · rw [hq]; exact h.length
  · rw [hq]; exact h.entries
  · rw [hg]
    intro x hx
    rcases List.mem_cons.mp hx with hx | hx
    · subst hx
      exact ⟨v, hv, hsid⟩
    · exact h.sids x hx
  · rw [hq, hlen]
    dsimp only
    omega
  · rw [hq]; exact hu
  · rw [hq]; exact hw
  · rw [hq]
    dsimp only
    omega
  · rw [hq]
    dsimp only
    omega

/-- The first slot of `q_free_`, the one that the next pop hands out. -/
def Sys.next_slot (s : Sys) : Nat := s.cq.q_free.cell (s.cq.q_free.poped % s.cq.q_free.capacity)

theorem Counted.next_slot_lt (h : Counted n a k s) (hcap : 0 < (n + a) % 2 ^ 32) :
    s.next_slot < (n + a) % 2 ^ 32 := by
  unfold Sys.next_slot
  rw [h.capacity]
  exact h.cell_lt hcap _

/-- A pop that succeeds passed its own test and hands out the first slot. -/
theorem Counted.pop_cases (h : Counted n a k s) (ha : a ≤ 255) (hcap : 0 < (n + a) % 2 ^ 32)
    (hk : k < 2 ^ 63) {admin : Bool} {sid : Nat} {cq : ConnectionQueue}
    (hpop : s.cq.pop_free admin = (.ok sid, cq)) :
    (admin = false ∧ s.cq.q_free.poped < s.cq.q_free.pushed + s.cq.q_free.admin_slots_in_use ∧
      sid = s.next_slot ∧
      cq.q_free = { s.cq.q_free with poped := s.cq.q_free.poped + 1 }) ∨
    (admin = true ∧ s.cq.q_free.poped + s.cq.q_free.admin_slots_in_use < s.cq.q_free.pushed + a ∧
      sid = set_admin s.next_slot ∧
      cq.q_free = { s.cq.q_free with
        poped := s.cq.q_free.poped + 1
        admin_slots_in_use := (s.cq.q_free.admin_slots_in_use + 1) % 256 }) := by
  unfold Sys.next_slot
  rw [h.capacity]
  cases admin with
  | false =>
    rw [h.pop_normal hcap hk] at hpop
    split at hpop
    · rename_i hroom
      simp only [Prod.mk.injEq, Except.ok.injEq] at hpop
      obtain ⟨hsid, hcq⟩ := hpop
      exact Or.inl ⟨rfl, hroom, hsid.symm, by rw [← hcq]⟩
    · simp at hpop
  | true =>
    rw [h.pop_admin ha hcap hk] at hpop
    split at hpop
    · rename_i hroom
      simp only [Prod.mk.injEq, Except.ok.injEq] at hpop
      obtain ⟨hsid, hcq⟩ := hpop
      exact Or.inr ⟨rfl, hroom, hsid.symm, by rw [← hcq]⟩
    · simp at hpop

/-- A grant counts as an admin grant exactly when it came from `request_admin`. -/
theorem Counted.grant_admins (h : Counted n a k s) (ha : a ≤ 255) (hcap : 0 < (n + a) % 2 ^ 32)
    (hk : k < 2 ^ 63) {admin : Bool} {sid : Nat} {cq : ConnectionQueue}
    (hpop : s.cq.pop_free admin = (.ok sid, cq)) (hg : t.granted = sid :: s.granted) :
    t.admins = s.admins + if admin then 1 else 0 := by
  have hlt := h.next_slot_lt hcap
  unfold Sys.admins
  rw [hg, List.countP_cons]
  rcases h.pop_cases ha hcap hk hpop with ⟨rfl, -, hsid, -⟩ | ⟨rfl, -, hsid, -⟩
  · rw [hsid, is_admin_of_lt (by omega)]
  · rw [hsid, is_admin_set_admin (by omega)]

theorem Counted.grant (h : Counted n a k s) (ha : a ≤ 255) (hcap : 0 < (n + a) % 2 ^ 32)
    (hk : k < 2 ^ 63) (hadm : t.cq.admin_slots = s.cq.admin_slots) {admin : Bool} {sid : Nat}
    (hpos : admin = true → 0 < a) (hpop : s.cq.pop_free admin = (.ok sid, t.cq))
    (hg : t.granted = sid :: s.granted) (ho : t.owed = sid :: s.owed) :
    Counted n a (k + 1) t := by
  have hlt := h.next_slot_lt hcap
  have hadmins := h.grant_admins ha hcap hk hpop hg
  have h8 := h.in_use
  have h9 := h.no_wrap
  rcases h.pop_cases ha hcap hk hpop with ⟨rfl, -, hsid, hq⟩ | ⟨rfl, hroom, hsid, hq⟩
  · simp only [Bool.false_eq_true, if_false, Nat.add_zero] at hadmins
    refine h.popped hadm hq rfl hg ho hlt (Or.inl hsid) ?_ ?_
    · rw [hadmins]; exact h8
    · rw [hadmins]; exact h9
  · simp only [if_true] at hadmins
    refine h.popped hadm hq rfl hg ho hlt (Or.inr ⟨hpos rfl, hsid⟩) ?_ ?_
    · rw [hadmins, h8]; omega
    · rw [hadmins]; omega

theorem Counted.refuse (h : Counted n a k s) (ha : a ≤ 255) (hcap : 0 < (n + a) % 2 ^ 32)
    (hk : k < 2 ^ 63) {admin : Bool} {e : Error}
    (hpop : s.cq.pop_free admin = (.error e, t.cq)) : t.cq = s.cq := by
  cases admin with
  | false =>
    rw [h.pop_normal hcap hk] at hpop
    split at hpop
    · simp at hpop
    · exact (Prod.mk.inj hpop).2.symm
  | true =>
    rw [h.pop_admin ha hcap hk] at hpop
    split at hpop
    · simp at hpop
    · exact (Prod.mk.inj hpop).2.symm

/-- The push of a granted sid stores its slot, without the admin bit. -/
theorem Counted.push_eq (h : Counted n a k s) (ha : a ≤ 255) (hcap : 0 < (n + a) % 2 ^ 32)
    (hk : k < 2 ^ 63) {sid : Nat} (hm : sid ∈ s.granted) :
    reset_admin sid < (n + a) % 2 ^ 32 ∧
    (s.cq.q_free.push sid s.cq.admin_slots).2 = { s.cq.q_free with
      queue := s.cq.q_free.queue.set ((s.cq.q_free.pushed + a) % ((n + a) % 2 ^ 32))
        (reset_admin sid)
      admin_slots_in_use :=
        if is_admin sid then (s.cq.q_free.admin_slots_in_use + 255) % 256
        else s.cq.q_free.admin_slots_in_use
      pushed := s.cq.q_free.pushed + 1 } := by
  obtain ⟨v, hv, hsid⟩ := h.sids sid hm
  have hlt : v < 2 ^ 63 := by omega
  rw [h.admin_slots, (h.shaped hcap hk).push sid a ha]
  rcases hsid with hsid | ⟨hpos, hsid⟩
  · subst hsid
    rw [is_admin_of_lt hlt, reset_admin_of_lt hlt]
    exact ⟨hv, by simp⟩
  · subst hsid
    rw [is_admin_set_admin hlt, reset_admin_set_admin hlt]
    exact ⟨hv, by simp [hpos]⟩

theorem Counted.give_back (h : Counted n a k s) (ha : a ≤ 255) (hcap : 0 < (n + a) % 2 ^ 32)
    (hk : k < 2 ^ 63) (hadm : t.cq.admin_slots = s.cq.admin_slots) {sid : Nat}
    (hm : sid ∈ s.owed) (hq : t.cq.q_free = (s.cq.q_free.push sid s.cq.admin_slots).2)
    (hg : t.granted = s.granted.erase sid) (ho : t.owed.Perm (s.owed.erase sid)) :
    Counted n a (k + 1) t := by
  have hmem : sid ∈ s.granted := h.owed.mem_iff.mpr hm
  obtain ⟨hslot, hpush⟩ := h.push_eq ha hcap hk hmem
  rw [hpush] at hq
  have hlen : t.granted.length + 1 = s.granted.length := by
    rw [hg, List.length_erase_of_mem hmem]
    have := List.length_pos_of_mem hmem
    omega
  have hadmins : t.admins + (if is_admin sid then 1 else 0) = s.admins := by
    unfold Sys.admins
    rw [hg, (List.perm_cons_erase hmem).countP_eq is_admin, List.countP_cons]
  have h7 := h.count
  have h8 := h.in_use
  have h9 := h.no_wrap
  have h10 := h.pushed_le
  have h11 := h.poped_le
  refine ⟨hadm.trans h.admin_slots, ?_, ?_, ?_, ?_, ?_, ?_, ?_, ?_, ?_, ?_⟩
  · rw [hq]; exact h.capacity
  · rw [hq]
    simpa using h.length
  · rw [hq]
    intro v hv
    rcases List.mem_or_eq_of_mem_set hv with hv | hv
    · exact h.entries v hv
    · exact hv ▸ hslot
  · rw [hg]
    intro x hx
    exact h.sids x (List.mem_of_mem_erase hx)
  · rw [hg]
    exact (h.owed.erase sid).trans ho.symm
  · rw [hq]
    dsimp only
    omega
  · rw [hq]
    dsimp only
    split at hadmins
    · rename_i hc
      rw [if_pos hc, h8]
      omega
    · rename_i hc
      rw [if_neg hc, h8]
      omega
  · rw [hq]
    dsimp only
    split at hadmins <;> omega
  · rw [hq]
    dsimp only
    omega
  · rw [hq]
    dsimp only
    omega

end Moves

/-- One step keeps the count, as long as no admin request is made where no
admin slot exists. -/
theorem counted_step {n a k : Nat} {s t : Sys} {x : Act} (ha : a ≤ 255)
    (hcap : 0 < (n + a) % 2 ^ 32) (hk : k < 2 ^ 63) (hx : ∀ c, x = .pop_free c true → 0 < a)
    (h : Counted n a k s) (hs : step s x = some t) : Counted n a (k + 1) t := by
  obtain ⟨hadm, hmove⟩ := step_slots hs
  cases hmove with
  | still hq hg ho => exact h.still hadm hq hg ho
  | grant hpop hg ho =>
    exact h.grant ha hcap hk hadm (fun he => hx _ (by rw [he])) hpop hg ho
  | refuse hpop hg ho =>
    have hcq := h.refuse ha hcap hk hpop
    exact h.still hadm (by rw [hcq]) hg (by rw [ho])
  | give_back hm hq hg ho => exact h.give_back ha hcap hk hadm hm hq hg ho

end tateyama_bootstrap.connection_queue
