-- Runs of requests alone: `u` admin requests and then normal ones, with no
-- slot given back. Their state is known exactly, so they show where the tests
-- of the two pops part from the number of free slots.
import TateyamaBootstrap.ConnectionCounters

open runs ring_memory

namespace tateyama_bootstrap.connection_queue

/-- The sid of the pop number `i` when the first `u` pops are admin pops. -/
def sidAt (u cap i : Nat) : Nat := if i < u then set_admin (i % cap) else i % cap

/-- The first `j` of these requests, client `i` making request number `i`. -/
def popActs (u j : Nat) : List Act := (List.range j).map fun i => .pop_free i (decide (i < u))

/-- Request number `i` passes its test. -/
def Admitted (n a u i : Nat) : Prop :=
  if i < u then i + i % 256 < n % 2 ^ 32 + a else i < n % 2 ^ 32 + u % 256

/-- The state after the first `j` requests. -/
structure AfterPops (n a u j : Nat) (s : Sys) : Prop where
  admin_slots : s.cq.admin_slots = a
  free : s.cq.q_free =
    { queue := List.range ((n + a) % 2 ^ 32), capacity := (n + a) % 2 ^ 32
      admin_slots_in_use := min u j % 256, pushed := n % 2 ^ 32, poped := j }
  granted : s.granted = ((List.range j).map (sidAt u ((n + a) % 2 ^ 32))).reverse
  held : s.held = s.granted
  listener : s.listener = .idle
  idle : ∀ c, j ≤ c → s.client c = .idle

variable {n a u j : Nat} {s : Sys}

theorem afterPops_init (ha : a ≤ 255) : AfterPops n a u 0 (Sys.init n a) := by
  have hcap : (n + a) % 2 ^ 64 % 2 ^ 32 = (n + a) % 2 ^ 32 := by omega
  have hpush : ((n + a) % 2 ^ 32 + 2 ^ 32 - a) % 2 ^ 32 = n % 2 ^ 32 := by omega
  refine ⟨rfl, ?_, rfl, rfl, rfl, fun _ _ => rfl⟩
  simp only [Sys.init, ConnectionQueue.new, IndexQueue.fill, IndexQueue.new, hcap, hpush,
    Nat.min_zero, Nat.zero_mod]

theorem AfterPops.shaped (h : AfterPops n a u j s) (hcap : 0 < (n + a) % 2 ^ 32)
    (hj : j < 2 ^ 63) : Shaped s.cq.q_free ((n + a) % 2 ^ 32) := by
  rw [h.free]
  exact ⟨rfl, List.length_range, hcap, by dsimp only; omega, by dsimp only; omega⟩

/-- Cell `i` of the queue still holds slot `i`. -/
theorem AfterPops.cell (h : AfterPops n a u j s) (hcap : 0 < (n + a) % 2 ^ 32) (i : Nat) :
    s.cq.q_free.cell (i % ((n + a) % 2 ^ 32)) = i % ((n + a) % 2 ^ 32) := by
  have hlt : i % ((n + a) % 2 ^ 32) < (n + a) % 2 ^ 32 := Nat.mod_lt _ hcap
  unfold IndexQueue.cell
  rw [h.free, List.getElem?_range hlt]
  rfl

/-- One more request that passes its test. -/
theorem AfterPops.next (h : AfterPops n a u j s) (ha : a ≤ 255) (hcap : 0 < (n + a) % 2 ^ 32)
    (hj : j < 2 ^ 63) (hadm : Admitted n a u j) :
    ∃ t, step s (.pop_free j (decide (j < u))) = some t ∧ AfterPops n a u (j + 1) t := by
  have hs := h.shaped hcap hj
  have hcell := h.cell hcap j
  have hfree := h.free
  have hpoped : s.cq.q_free.poped = j := by rw [hfree]
  have hpushed : s.cq.q_free.pushed = n % 2 ^ 32 := by rw [hfree]
  have hin : s.cq.q_free.admin_slots_in_use = min u j % 256 := by rw [hfree]
  have hpop : (s.cq.pop_free (decide (j < u))).1 = .ok (sidAt u ((n + a) % 2 ^ 32) j) ∧
      (s.cq.pop_free (decide (j < u))).2.q_free = { s.cq.q_free with
        poped := j + 1, admin_slots_in_use := min u (j + 1) % 256 } := by
    unfold Admitted at hadm
    unfold ConnectionQueue.pop_free sidAt
    by_cases hu : j < u
    · rw [if_pos hu] at hadm
      have hmin : min u j = j := by omega
      have hmin' : (j % 256 + 1) % 256 = min u (j + 1) % 256 := by omega
      rw [hmin] at hin
      have he : s.cq.q_free.try_pop_admin s.cq.admin_slots = s.cq.q_free.try_pop_admin a := by
        rw [h.admin_slots]
      have hp := hs.try_pop_admin ha (by omega) (by omega) (by omega)
      rw [hpoped, hcell, hin, hmin'] at hp
      simp only [hu, decide_true, if_true, he, hp, and_self]
    · rw [if_neg hu] at hadm
      have hmin : min u j = u := by omega
      have hmin' : min u (j + 1) = u := by omega
      rw [hmin] at hin
      have hp := hs.try_pop (by omega) (by omega)
      rw [hpoped, hcell] at hp
      rw [hmin', ← hin]
      simp only [hu, decide_false, Bool.false_eq_true, if_false, hp, and_self]
  obtain ⟨hsid, hcq⟩ := hpop
  have hpair : s.cq.pop_free (decide (j < u)) =
      (.ok (sidAt u ((n + a) % 2 ^ 32) j), (s.cq.pop_free (decide (j < u))).2) :=
    Prod.ext hsid rfl
  refine ⟨_, by simp only [step, h.idle j (Nat.le_refl j)]; rw [hpair], ?_⟩
  refine ⟨h.admin_slots, ?_, ?_, ?_, h.listener, ?_⟩
  · dsimp only
    rw [hcq, hfree]
  · dsimp only
    rw [h.granted, List.range_succ, List.map_append, List.reverse_append]
    rfl
  · dsimp only
    rw [h.held]
  · intro c hc
    have hne : c ≠ j := by omega
    simp only [Sys.set_client, Function.update_of_ne hne]
    exact h.idle c (by omega)

/-- All `j` requests pass when each of them passes its test. -/
theorem run_pops (ha : a ≤ 255) (hcap : 0 < (n + a) % 2 ^ 32) (hj : j < 2 ^ 63)
    (hadm : ∀ i < j, Admitted n a u i) :
    ∃ t, RunOf step Free (Sys.init n a) (popActs u j) t ∧ AfterPops n a u j t := by
  induction j with
  | zero => exact ⟨_, .nil, afterPops_init ha⟩
  | succ j ih =>
    obtain ⟨t, hr, ht⟩ := ih (by omega) (fun i hi => hadm i (by omega))
    obtain ⟨t', hs, ht'⟩ := ht.next ha hcap (by omega) (hadm j (by omega))
    refine ⟨t', ?_, ht'⟩
    unfold popActs
    rw [List.range_succ, List.map_append]
    exact .snoc hr trivial hs

@[simp] theorem length_popActs (u j : Nat) : (popActs u j).length = j := by simp [popActs]

theorem is_admin_sidAt {cap i : Nat} (hcap : 0 < cap) (hlt : cap < 2 ^ 63) :
    is_admin (sidAt u cap i) = decide (i < u) := by
  have hi : i % cap < 2 ^ 63 := Nat.lt_trans (Nat.mod_lt _ hcap) hlt
  unfold sidAt
  by_cases hu : i < u
  · simp [hu, is_admin_set_admin hi]
  · simp [hu, is_admin_of_lt hi]

theorem reset_admin_sidAt {cap i : Nat} (hcap : 0 < cap) (hlt : cap < 2 ^ 63) :
    reset_admin (sidAt u cap i) = i % cap := by
  have hi : i % cap < 2 ^ 63 := Nat.lt_trans (Nat.mod_lt _ hcap) hlt
  unfold sidAt
  split
  · exact reset_admin_set_admin hi
  · exact reset_admin_of_lt hi

theorem countP_lt_range (u j : Nat) :
    (List.range j).countP (fun i => decide (i < u)) = min u j := by
  induction j with
  | zero => simp
  | succ j ih =>
    rw [List.range_succ, List.countP_append, ih, List.countP_singleton]
    by_cases hu : j < u
    · simp only [hu, decide_true, if_true]
      omega
    · simp only [hu, decide_false, Bool.false_eq_true, if_false]
      omega

/-- The first `u` sids count as admin sids, and the others as normal sids. -/
theorem AfterPops.counts (h : AfterPops n a u j s) (hcap : 0 < (n + a) % 2 ^ 32) :
    s.admins = min u j ∧ s.normals = j - u := by
  have hadm : s.admins = min u j := by
    unfold Sys.admins
    rw [h.granted, List.countP_reverse, List.countP_map, ← countP_lt_range]
    apply List.countP_congr
    intro i _
    simp only [Function.comp_apply, is_admin_sidAt hcap (by omega : (n + a) % 2 ^ 32 < 2 ^ 63)]
  have hsplit := admins_add_normals s
  have hlen : s.granted.length = j := by
    rw [h.granted]
    simp
  omega

end tateyama_bootstrap.connection_queue
