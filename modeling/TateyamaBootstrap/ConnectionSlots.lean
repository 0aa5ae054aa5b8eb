-- Who owns which slot of the connection queue. A slot that is granted is not
-- granted again before it comes back, and a queue whose slots are all back is
-- as good as new, exactly for the configurations in which the count of admin
-- slots in use cannot pass the number of admin slots.
import TateyamaBootstrap.ConnectionRequests
import Mathlib.Data.List.Nodup

open runs ring_memory

namespace tateyama_bootstrap.connection_queue

/-! ## The free region -/

theorem free_region_pop {q q' : IndexQueue} {a : Nat} (hqueue : q'.queue = q.queue)
    (hcap : q'.capacity = q.capacity) (hpushed : q'.pushed = q.pushed)
    (hpoped : q'.poped = q.poped + 1) (hroom : q.poped < q.pushed + a) :
    q.free_region a = q.cell (q.poped % q.capacity) :: q'.free_region a := by
  have hcell : q'.cell = q.cell := by
    unfold IndexQueue.cell
    rw [hqueue]
  have hlen : q.pushed + a - q.poped = (q.pushed + a - (q.poped + 1)) + 1 := by omega
  unfold IndexQueue.free_region
  rw [hlen, slice_cons, hcell, hcap, hpushed, hpoped]

theorem free_region_push {q q' : IndexQueue} {a v : Nat}
    (hlen : q.queue.length = q.capacity) (hpos : 0 < q.capacity)
    (hqueue : q'.queue = q.queue.set ((q.pushed + a) % q.capacity) v)
    (hcap : q'.capacity = q.capacity) (hpushed : q'.pushed = q.pushed + 1)
    (hpoped : q'.poped = q.poped) (hle : q.poped ≤ q.pushed + a)
    (hroom : q.pushed + a < q.poped + q.capacity) :
    q'.free_region a = q.free_region a ++ [v] := by
  have hlt : (q.pushed + a) % q.capacity < q.queue.length := by
    rw [hlen]
    exact Nat.mod_lt _ hpos
  have hcell : q'.cell = Function.update q.cell ((q.pushed + a) % q.capacity) v := by
    funext i
    unfold IndexQueue.cell
    rw [hqueue, List.getElem?_set]
    by_cases hi : (q.pushed + a) % q.capacity = i
    · subst hi
      simp [hlt]
    · rw [Function.update_of_ne (fun h => hi h.symm)]
      simp [hi]
  have hw := Written.update q.cell q.capacity (q.pushed + a) v
  have he : q.poped + (q.pushed + a - q.poped) = q.pushed + a := by omega
  rw [← hcell, ← he] at hw
  have happ := hw.slice_append (by simp only [List.length_singleton]; omega)
  unfold IndexQueue.free_region
  rw [← happ, hcap, hpushed, hpoped, List.length_singleton]
  congr 1
  omega

/-! ## The slots are shared out -/

/-- The slots that are granted and not yet given back. -/
def Sys.slots (s : Sys) : List Nat := s.granted.map reset_admin

/-- The free region is not overrun, and it and the granted slots are together
every slot once. -/
def Partitioned (n a : Nat) (s : Sys) : Prop :=
  s.cq.q_free.poped ≤ s.cq.q_free.pushed + a ∧
    (s.cq.q_free.free_region a ++ s.slots).Perm (List.range (n + a))

section Steps

variable {n a k : Nat} {s t : Sys}

theorem partitioned_init (h : n + a < 2 ^ 32) : Partitioned n a (Sys.init n a) := by
  have h64 : (n + a) % 2 ^ 64 = n + a := Nat.mod_eq_of_lt (by omega)
  have h32 : (n + a) % 2 ^ 32 = n + a := Nat.mod_eq_of_lt h
  have hpush : (n + a + 2 ^ 32 - a) % 2 ^ 32 = n := by omega
  have hq : (Sys.init n a).cq.q_free =
      { queue := List.range (n + a), capacity := n + a, admin_slots_in_use := 0
        pushed := n, poped := 0 } := by
    simp only [Sys.init, ConnectionQueue.new, IndexQueue.fill, IndexQueue.new]
    rw [h64, h32, hpush]
  refine ⟨by rw [hq]; exact Nat.zero_le _, ?_⟩
  have hreg : (Sys.init n a).cq.q_free.free_region a = List.range (n + a) := by
    rw [hq]
    unfold IndexQueue.free_region slice
    simp only [Nat.sub_zero, Nat.zero_add]
    apply List.ext_getElem (by simp)
    intro i h1 h2
    simp only [List.length_map, List.length_range] at h1
    simp [IndexQueue.cell, Nat.mod_eq_of_lt h1, h1]
  rw [hreg]
  simp [Sys.slots, Sys.init]

/-- A granted slot leaves the free region at its front. -/
theorem partitioned_grant (h : Counted n a k s) (ha : a ≤ 255)
    (hcap : 0 < (n + a) % 2 ^ 32) (hk : k < 2 ^ 63)
    (hfit : s.cq.q_free.admin_slots_in_use ≤ a) {admin : Bool} {sid : Nat}
    (hpop : s.cq.pop_free admin = (.ok sid, t.cq)) (hg : t.granted = sid :: s.granted)
    (hp : Partitioned n a s) : Partitioned n a t := by
  have hlt := h.next_slot_lt hcap
  -- both pops advance `poped_` inside the free region and hand out its first slot
  obtain ⟨hroom, hq1, hq2, hq3, hq4, hslot⟩ :
      s.cq.q_free.poped < s.cq.q_free.pushed + a ∧
      t.cq.q_free.queue = s.cq.q_free.queue ∧
      t.cq.q_free.capacity = s.cq.q_free.capacity ∧
      t.cq.q_free.pushed = s.cq.q_free.pushed ∧
      t.cq.q_free.poped = s.cq.q_free.poped + 1 ∧
      reset_admin sid = s.next_slot := by
    rcases h.pop_cases ha hcap hk hpop with ⟨-, hroom, hsid, hq⟩ | ⟨-, hroom, hsid, hq⟩
    · rw [hq, hsid]
      exact ⟨by omega, rfl, rfl, rfl, rfl, reset_admin_of_lt (by omega)⟩
    · rw [hq, hsid]
      exact ⟨by omega, rfl, rfl, rfl, rfl, reset_admin_set_admin (by omega)⟩
  have hreg := free_region_pop hq1 hq2 hq3 hq4 hroom
  refine ⟨by rw [hq3, hq4]; omega, ?_⟩
  have hslots : t.slots = reset_admin sid :: s.slots := by
    unfold Sys.slots
    rw [hg]
    rfl
  have hperm := hp.2
  rw [hreg] at hperm
  rw [Sys.next_slot] at hslot
  rw [← hslot] at hperm
  rw [hslots]
  exact List.perm_middle.trans hperm

/-- A slot that comes back joins the free region at its end. -/
theorem partitioned_give_back (hsum : n + a < 2 ^ 32) (h : Counted n a k s) (ha : a ≤ 255)
    (hcap : 0 < (n + a) % 2 ^ 32) (hk : k < 2 ^ 63) {sid : Nat} (hm : sid ∈ s.granted)
    (hq : t.cq.q_free = (s.cq.q_free.push sid s.cq.admin_slots).2)
    (hle : s.cq.q_free.poped ≤ s.cq.q_free.pushed + a) :
    t.cq.q_free.poped ≤ t.cq.q_free.pushed + a ∧
      t.cq.q_free.free_region a = s.cq.q_free.free_region a ++ [reset_admin sid] := by
  have h32 : (n + a) % 2 ^ 32 = n + a := Nat.mod_eq_of_lt hsum
  obtain ⟨-, hpush⟩ := h.push_eq ha hcap hk hm
  have hcount := h.count
  have hlen := List.length_pos_of_mem hm
  have hcapacity := h.capacity
  rw [hpush] at hq
  rw [hq]
  refine ⟨by dsimp only; omega, ?_⟩
  apply free_region_push
  · rw [h.length, h.capacity]
  · omega
  · rw [hcapacity]
  · rfl
  · rfl
  · rfl
  · exact hle
  · omega

/-- One step keeps the slots shared out while the count of admin slots in use
does not pass the number of admin slots. -/
theorem partitioned_step {x : Act} (hsum : n + a < 2 ^ 32) (ha : a ≤ 255) (hcap : 0 < n + a)
    (hk : k < 2 ^ 63) (h : Counted n a k s) (hfit : s.cq.q_free.admin_slots_in_use ≤ a)
    (hs : step s x = some t) (hp : Partitioned n a s) : Partitioned n a t := by
  have hcap' : 0 < (n + a) % 2 ^ 32 := by omega
  obtain ⟨-, hmove⟩ := step_slots hs
  cases hmove with
  | still hq hg ho =>
    unfold Partitioned Sys.slots
    rw [hq, hg]
    exact hp
  | grant hpop hg ho => exact partitioned_grant h ha hcap' hk hfit hpop hg hp
  | refuse hpop hg ho =>
    have hcq := h.refuse ha hcap' hk hpop
    unfold Partitioned Sys.slots
    rw [hcq, hg]
    exact hp
  | @give_back _ sid hm hq hg ho =>
    have hmem : sid ∈ s.granted := h.owed.mem_iff.mpr hm
    obtain ⟨hle, hreg⟩ := partitioned_give_back hsum h ha hcap' hk hmem hq hp.1
    refine ⟨hle, ?_⟩
    have hslots : s.slots.Perm (reset_admin sid :: t.slots) := by
      unfold Sys.slots
      rw [hg]
      exact (List.perm_cons_erase hmem).map reset_admin
    rw [hreg, List.append_assoc]
    exact (List.Perm.append_left _ hslots.symm).trans hp.2

/-- The test of `request_admin` passes. -/
def AdminTest (a : Nat) (s : Sys) : Prop :=
  s.cq.q_free.poped + s.cq.q_free.admin_slots_in_use < s.cq.q_free.pushed + a

theorem admins_step {x : Act} (ha : a ≤ 255) (hcap : 0 < (n + a) % 2 ^ 32) (hk : k < 2 ^ 63)
    (h : Counted n a k s) (hx : ∀ c, x = .pop_free c true → AdminTest a s → s.admins < a)
    (hs : step s x = some t) (hle : s.admins ≤ a) : t.admins ≤ a := by
  obtain ⟨-, hmove⟩ := step_slots hs
  cases hmove with
  | still hq hg ho =>
    unfold Sys.admins
    rw [hg]
    exact hle
  | grant hpop hg ho =>
    have hadmins := h.grant_admins ha hcap hk hpop hg
    rcases h.pop_cases ha hcap hk hpop with ⟨rfl, -⟩ | ⟨rfl, hroom, -⟩
    · simp only [Bool.false_eq_true, if_false] at hadmins
      omega
    · have := hx _ rfl hroom
      simp only [if_true] at hadmins
      omega
  | refuse hpop hg ho =>
    unfold Sys.admins
    rw [hg]
    exact hle
  | @give_back _ sid hm hq hg ho =>
    have hsub : t.admins ≤ s.admins := by
      unfold Sys.admins
      rw [hg]
      exact List.Sublist.countP_le List.erase_sublist
    omega

end Steps

/-! ## Runs in which the admin sids fit -/

/-- Every run keeps the slots shared out when each admin request that passes its
test finds an admin slot, or when the 8-bit count cannot pass the admin slots. -/
theorem run_partitioned {n a : Nat} {C : Sys → Act → Prop} {acts : List Act} {s : Sys}
    (hsum : n + a < 2 ^ 32) (ha : a ≤ 255) (hpos : 0 < n + a)
    (hC : ∀ k s x c, Counted n a k s → C s x → x = .pop_free c true →
      0 < a ∧ (a = 255 ∨ (AdminTest a s → s.admins ≤ a → s.admins < a)))
    (hlen : acts.length < 2 ^ 63) (hr : RunOf step C (Sys.init n a) acts s) :
    Counted n a acts.length s ∧ Partitioned n a s := by
  have hcap : 0 < (n + a) % 2 ^ 32 := by omega
  suffices h : acts.length < 2 ^ 63 → Counted n a acts.length s ∧ Partitioned n a s ∧
      (a = 255 ∨ s.admins ≤ a) from ⟨(h hlen).1, (h hlen).2.1⟩
  refine hr.inv_length (I := fun k s => k < 2 ^ 63 → Counted n a k s ∧ Partitioned n a s ∧
      (a = 255 ∨ s.admins ≤ a)) ?_ ?_
  · intro _
    exact ⟨counted_init ha, partitioned_init hsum, Or.inr (by simp [Sys.admins, Sys.init])⟩
  · intro k s x t ih hc hs hk
    have hk' : k < 2 ^ 63 := by omega
    obtain ⟨hcnt, hpart, hadm⟩ := ih hk'
    have hfit : s.cq.q_free.admin_slots_in_use ≤ a := by
      have := hcnt.in_use
      omega
    refine ⟨counted_step ha hcap hk' (fun c hx => (hC k s x c hcnt hc hx).1) hcnt hs,
      partitioned_step hsum ha hpos hk' hcnt hfit hs hpart, ?_⟩
    by_cases h255 : a = 255
    · exact Or.inl h255
    · have hle : s.admins ≤ a := hadm.resolve_left h255
      refine Or.inr (admins_step ha hcap hk' hcnt ?_ hs hle)
      intro c hx htest
      exact ((hC k s x c hcnt hc hx).2.resolve_left h255) htest hle

/-- An admin request is made only while fewer admin sids are granted than there
are admin slots. -/
def AdminRoom (s : Sys) (x : Act) : Prop :=
  ∀ c, x = .pop_free c true → s.admins < s.cq.admin_slots

theorem run_partitioned_of_adminRoom {n a : Nat} {acts : List Act} {s : Sys}
    (hsum : n + a < 2 ^ 32) (ha : a ≤ 255) (hn : 1 ≤ n) (hlen : acts.length < 2 ^ 63)
    (hr : RunOf step AdminRoom (Sys.init n a) acts s) :
    Counted n a acts.length s ∧ Partitioned n a s := by
  refine run_partitioned hsum ha (by omega) ?_ hlen hr
  intro k s x c hcnt hc hx
  have hroom := hc c hx
  rw [hcnt.admin_slots] at hroom
  exact ⟨by omega, Or.inr fun _ _ => hroom⟩

/-- The configurations in which no run overruns the free region. -/
def AdminsFit (n a : Nat) : Prop := n + a < 2 ^ 32 ∧ 1 ≤ a ∧ (n ≤ a ∨ a = 255)

theorem run_partitioned_of_adminsFit {n a : Nat} {acts : List Act} {s : Sys}
    (hfit : AdminsFit n a) (ha : a ≤ 255) (hlen : acts.length < 2 ^ 63)
    (hr : RunOf step Free (Sys.init n a) acts s) :
    Counted n a acts.length s ∧ Partitioned n a s := by
  obtain ⟨hsum, ha1, hna⟩ := hfit
  refine run_partitioned hsum ha (by omega) ?_ hlen hr
  intro k s x c hcnt _ _
  refine ⟨ha1, ?_⟩
  rcases hna with hna | h255
  · right
    intro htest hle
    -- the test says that twice the admin sids and the normal sids are below `n + a`
    have hcount := hcnt.count
    have hin := hcnt.in_use
    have hsplit := admins_add_normals s
    unfold AdminTest at htest
    omega
  · exact Or.inl h255

/-! ## The free region overrun -/

/-- A capacity of more than 32 bits leaves slots that no queue holds. -/
theorem not_partitioned_of_truncated {n a : Nat} (h : 2 ^ 32 ≤ n + a) :
    ¬ (((Sys.init n a).cq.q_free.free_region a).Perm (List.range (n + a))) := by
  intro hp
  have hm : n + a - 1 ∈ (Sys.init n a).cq.q_free.free_region a :=
    hp.mem_iff.mpr (List.mem_range.mpr (by omega))
  unfold IndexQueue.free_region slice at hm
  obtain ⟨i, -, hi⟩ := List.mem_map.mp hm
  -- every cell holds a value below the capacity, or reads as 0
  simp only [IndexQueue.cell, Sys.init, ConnectionQueue.new, IndexQueue.fill, IndexQueue.new]
    at hi
  rcases hv : (List.range ((n + a) % 2 ^ 64 % 2 ^ 32))[(0 + i) % ((n + a) % 2 ^ 64 % 2 ^ 32)]?
    with _ | v
  · rw [hv] at hi
    simp only [Option.getD_none] at hi
    omega
  · have hlt := List.mem_range.mp (List.mem_of_getElem? hv)
    rw [hv] at hi
    simp only [Option.getD_some] at hi
    omega

/-- Outside the configurations that fit, `a + 1` admin requests and then `n`
normal ones all pass their tests: one more than there are slots. -/
theorem overrun_of_not_adminsFit {n a : Nat} (hn : 1 ≤ n) (ha : a ≤ 255) (hsum : n + a < 2 ^ 32)
    (h : ¬ AdminsFit n a) : ∀ i < n + a + 1, Admitted n a (a + 1) i := by
  have h32 : n % 2 ^ 32 = n := Nat.mod_eq_of_lt (by omega)
  have hcase : a = 0 ∨ (a < n ∧ a < 255) := by
    unfold AdminsFit at h
    omega
  intro i hi
  unfold Admitted
  rw [h32]
  split <;> omega

/-! ## Exclusive ownership -/

/-- The slots granted are distinct slots of the queue, and with the free region
they are every slot once. -/
def SlotsExclusive (n a : Nat) (s : Sys) : Prop :=
  s.slots.Nodup ∧ (∀ slot ∈ s.slots, slot < n + a) ∧ Partitioned n a s

/-- Exclusive ownership in every run. The bound on the steps keeps the 64-bit
counters from starting again at 0. -/
def ExclusiveOwnership (n a : Nat) : Prop :=
  ∀ acts s, acts.length < 2 ^ 63 → RunOf step Free (Sys.init n a) acts s → SlotsExclusive n a s

theorem Partitioned.exclusive {n a : Nat} {s : Sys} (h : Partitioned n a s) :
    SlotsExclusive n a s := by
  have hnd : (s.cq.q_free.free_region a ++ s.slots).Nodup := h.2.nodup_iff.mpr List.nodup_range
  refine ⟨(List.nodup_append.mp hnd).2.1, ?_, h⟩
  intro slot hslot
  exact List.mem_range.mp (h.2.mem_iff.mp (List.mem_append_right _ hslot))

theorem not_exclusiveOwnership {n a : Nat} (hn : 1 ≤ n) (ha : a ≤ 255) (h : ¬ AdminsFit n a) :
    ¬ ExclusiveOwnership n a := by
  intro hex
  by_cases hsum : n + a < 2 ^ 32
  · have hadm := overrun_of_not_adminsFit hn ha hsum h
    obtain ⟨t, hr, ht⟩ := run_pops (j := n + a + 1) ha (by omega) (by omega) hadm
    have hle := (hex _ t (by rw [length_popActs]; omega) hr).2.2.1
    rw [ht.free] at hle
    dsimp only at hle
    omega
  · have hperm := (hex [] _ (by simp) .nil).2.2.2
    simp only [Sys.slots, Sys.init, List.map_nil, List.append_nil] at hperm
    exact not_partitioned_of_truncated (by omega) hperm

/-- No slot has two owners in any run exactly when the configuration keeps the
admin sids in use within the admin slots, and in every configuration of at most
32 bits no slot has two owners in a run whose admin requests find an admin slot. -/
theorem a_slot_has_one_owner (n a : Nat) (hn : 1 ≤ n) (ha : a ≤ 255) :
    (ExclusiveOwnership n a ↔ AdminsFit n a) ∧
    (n + a < 2 ^ 32 → ∀ acts s, acts.length < 2 ^ 63 →
      RunOf step AdminRoom (Sys.init n a) acts s → SlotsExclusive n a s) := by
  refine ⟨⟨?_, ?_⟩, ?_⟩
  · intro h
    by_contra hc
    exact not_exclusiveOwnership hn ha hc h
  · intro hfit acts s hlen hr
    exact (run_partitioned_of_adminsFit hfit ha hlen hr).2.exclusive
  · intro hsum acts s hlen hr
    exact (run_partitioned_of_adminRoom hsum ha hn hlen hr).2.exclusive

/-- `AdminRoom` as a test. -/
def adminRoom (s : Sys) : Act → Bool
  | .pop_free _ true => s.admins < s.cq.admin_slots
  | _ => true

theorem adminRoom_of_test (s : Sys) (x : Act) (h : adminRoom s x = true) : AdminRoom s x := by
  intro c hx
  subst hx
  simpa [adminRoom] using h

/-- One normal slot and one admin slot, and a run of the default size. -/
theorem a_slot_has_one_owner_at_two_sizes :
    ExclusiveOwnership 1 1 ∧ ∃ s, RunOf step AdminRoom (Sys.init 104 1)
      [.pop_free 0 true, .pop_free 1 false] s ∧ s.slots = [1, 0] ∧ SlotsExclusive 104 1 s := by
  have hfit : AdminsFit 1 1 := ⟨by decide, by decide, by decide⟩
  obtain ⟨s, hr, hp⟩ := RunOf.exists_of_exec (s := Sys.init 104 1) adminRoom_of_test
    (p := fun s => s.slots = [1, 0])
    (by decide :
      (exec (guarded step adminRoom) _ [.pop_free 0 true, .pop_free 1 false]).any _ = true)
  exact ⟨(a_slot_has_one_owner 1 1 (by decide) (by decide)).1.mpr hfit, s, hr, by simpa using hp,
    (a_slot_has_one_owner 104 1 (by decide) (by decide)).2 (by decide) _ s (by decide) hr⟩

/-- Two admins on one admin slot, and then two normal clients on two normal
slots: all four requests are granted, and two of them own slot 0. -/
theorem two_admins_make_two_owners : ∃ s, RunOf step Free (Sys.init 2 1)
    [.pop_free 0 true, .push_requested 0, .pop_free 1 true, .push_requested 1,
      .pop_free 2 false, .push_requested 2, .pop_free 3 false, .push_requested 3] s ∧
    s.slots = [0, 2, 1, 0] ∧ ¬ s.slots.Nodup ∧ ¬ ExclusiveOwnership 2 1 := by
  obtain ⟨s, hr, hp⟩ := RunOf.exists_free (s := Sys.init 2 1) (p := fun s => s.slots = [0, 2, 1, 0])
    (by decide : (exec step _ [.pop_free 0 true, .push_requested 0, .pop_free 1 true,
      .push_requested 1, .pop_free 2 false, .push_requested 2, .pop_free 3 false,
      .push_requested 3]).any _ = true)
  have hslots : s.slots = [0, 2, 1, 0] := by simpa using hp
  have hnd : ¬ s.slots.Nodup := by
    rw [hslots]
    decide
  exact ⟨s, hr, hslots, hnd, fun h => hnd (h _ s (by decide) hr).1⟩

/-! ## No leak -/

/-- Every sid is back: the queue counts no admin slot as in use, and its free
region is every slot once. -/
def AsGoodAsNew (n a : Nat) (s : Sys) : Prop :=
  s.cq.q_free.admin_slots_in_use = 0 ∧ s.cq.q_free.pushed + a = s.cq.q_free.poped + (n + a) ∧
    (s.cq.q_free.free_region a).Perm (List.range (n + a))

/-- In every run, the queue is as good as new once every granted sid is back. -/
def NoLeak (n a : Nat) : Prop :=
  ∀ acts s, acts.length < 2 ^ 63 → RunOf step Free (Sys.init n a) acts s → s.granted = [] →
    AsGoodAsNew n a s

theorem asGoodAsNew_of_partitioned {n a k : Nat} {s : Sys} (hsum : n + a < 2 ^ 32)
    (h : Counted n a k s) (hp : Partitioned n a s) (hg : s.granted = []) : AsGoodAsNew n a s := by
  have hcount := h.count
  have hin := h.in_use
  have hperm := hp.2
  simp only [Sys.slots, hg, List.map_nil, List.append_nil] at hperm
  simp only [Sys.admins, hg, List.countP_nil, Nat.zero_mod] at hin
  rw [hg, List.length_nil] at hcount
  exact ⟨hin, by omega, hperm⟩

/-- With admin slots, every run keeps the count. -/
theorem run_counted {n a : Nat} {acts : List Act} {s : Sys} (ha1 : 1 ≤ a) (ha : a ≤ 255)
    (hcap : 0 < (n + a) % 2 ^ 32) (hlen : acts.length < 2 ^ 63)
    (hr : RunOf step Free (Sys.init n a) acts s) : Counted n a acts.length s := by
  refine hr.inv_length (I := fun k s => k < 2 ^ 63 → Counted n a k s) (fun _ => counted_init ha)
    ?_ hlen
  intro k s x t ih _ hs hk
  exact counted_step ha hcap (by omega) (fun _ _ => ha1) (ih (by omega)) hs

/-- A held sid is given back. -/
theorem disconnect_step {n a k : Nat} {s : Sys} {sid : Nat} (hsum : n + a < 2 ^ 32) (ha : a ≤ 255)
    (hpos : 0 < n + a) (hk : k < 2 ^ 63) (h : Counted n a k s) (hm : sid ∈ s.held) :
    ∃ t, step s (.disconnect sid) = some t ∧ Counted n a (k + 1) t ∧ t.listener = s.listener ∧
      t.held = s.held.erase sid ∧ t.granted = s.granted.erase sid ∧
      t.cq.q_free.poped = s.cq.q_free.poped ∧ t.cq.q_free.pushed = s.cq.q_free.pushed + 1 ∧
      (s.cq.q_free.poped ≤ s.cq.q_free.pushed + a →
        t.cq.q_free.free_region a = s.cq.q_free.free_region a ++ [reset_admin sid]) := by
  have hcap : 0 < (n + a) % 2 ^ 32 := by omega
  have hmem : sid ∈ s.granted := by
    rw [h.owed.mem_iff, Sys.owed]
    exact List.mem_append_left _ hm
  have hs : step s (.disconnect sid) = some { s with
      cq := s.cq.push_free sid
      granted := s.granted.erase sid
      held := s.held.erase sid
      accepted := s.accepted.erase sid } := by
    simp only [step, hm, if_true]
  have hpush := (h.push_eq ha hcap hk hmem).2
  refine ⟨_, hs, ?_, rfl, rfl, rfl, ?_, ?_, ?_⟩
  · refine h.give_back ha hcap hk rfl (h.owed.mem_iff.mp hmem) rfl rfl ?_
    simp only [Sys.owed]
    rw [List.erase_append_left _ hm]
  · change (s.cq.q_free.push sid s.cq.admin_slots).2.poped = _
    rw [hpush]
  · change (s.cq.q_free.push sid s.cq.admin_slots).2.pushed = _
    rw [hpush]
  · intro hle
    exact (partitioned_give_back hsum h ha hcap hk hmem rfl hle).2

/-- Giving back every held sid, from the newest on, appends their slots to a
free region that is not overrun. -/
theorem drain {n a k : Nat} {s : Sys} (hsum : n + a < 2 ^ 32) (ha : a ≤ 255) (hpos : 0 < n + a)
    (h : Counted n a k s) (hheld : s.held = s.granted)
    (hle : s.cq.q_free.poped ≤ s.cq.q_free.pushed + a) (hk : k + s.granted.length < 2 ^ 63) :
    ∃ t, RunOf step Free s (s.granted.map Act.disconnect) t ∧ t.granted = [] ∧
      t.cq.q_free.free_region a = s.cq.q_free.free_region a ++ s.slots := by
  obtain ⟨L, hL⟩ : ∃ L, s.granted = L := ⟨_, rfl⟩
  induction L generalizing s k with
  | nil => exact ⟨s, by rw [hL]; exact .nil, hL, by simp [Sys.slots, hL]⟩
  | cons sid L ih =>
    rw [hL, List.length_cons] at hk
    have hm : sid ∈ s.held := by rw [hheld, hL]; exact List.mem_cons_self
    obtain ⟨t, hs, ht, -, hth, htg, hpop, hpush, hreg⟩ :=
      disconnect_step hsum ha hpos (by omega) h hm
    have htL : t.granted = L := by rw [htg, hL, List.erase_cons_head]
    obtain ⟨t', hr, hg', hreg'⟩ := ih ht (by rw [hth, htg, hheld]) (by rw [hpop, hpush]; omega)
      (by rw [htL]; omega) htL
    refine ⟨t', ?_, hg', ?_⟩
    · rw [hL, List.map_cons, ← htL]
      exact RunOf.trans (.single trivial hs) hr
    · rw [hreg', hreg hle]
      simp [Sys.slots, hL, htL]

/-- A run that overruns the free region by one slot and gives everything back,
the second sid first, leaves slot 0 twice in the queue. -/
theorem not_noLeak_of_overrun {n a : Nat} (hn : 1 ≤ n) (ha1 : 1 ≤ a) (ha : a ≤ 255)
    (hsum : n + a < 2 ^ 32) (h : ¬ AdminsFit n a) : ¬ NoLeak n a := by
  intro hno
  have hcap : 0 < (n + a) % 2 ^ 32 := by omega
  have h32 : (n + a) % 2 ^ 32 = n + a := Nat.mod_eq_of_lt hsum
  obtain ⟨s, hr, hs⟩ := run_pops (j := n + a + 1) ha hcap (by omega)
    (overrun_of_not_adminsFit hn ha hsum h)
  have hcnt := run_counted ha1 ha hcap (by rw [length_popActs]; omega) hr
  rw [length_popActs] at hcnt
  have hgr := hs.granted
  rw [h32] at hgr
  have hlen : s.granted.length = n + a + 1 := by rw [hgr]; simp
  -- the second admin sid is of slot 1, the first of slot 0, and the last normal one too
  have hone : set_admin 1 ∈ s.granted := by
    rw [hgr, List.mem_reverse, List.mem_map]
    exact ⟨1, List.mem_range.mpr (by omega), by simp [sidAt, show 1 < a + 1 by omega,
      Nat.mod_eq_of_lt (show 1 < n + a by omega)]⟩
  have hcount : 2 ≤ s.slots.count 0 := by
    have hslots : s.slots = ((List.range (n + a + 1)).map (· % (n + a))).reverse := by
      unfold Sys.slots
      rw [hgr, List.map_reverse, List.map_map]
      congr 2
      funext i
      exact reset_admin_sidAt (by omega) (by omega)
    have hmem : 0 ∈ (List.range (n + a)).map (· % (n + a)) :=
      List.mem_map.mpr ⟨0, List.mem_range.mpr (by omega), Nat.zero_mod _⟩
    have hpos := List.count_pos_iff.mpr hmem
    rw [hslots, List.count_reverse, List.range_succ, List.map_append, List.count_append]
    simp only [List.map_cons, List.map_nil, Nat.mod_self, List.count_singleton_self]
    omega
  obtain ⟨t, hst, ht, -, hth, htg, hpop, hpush, -⟩ :=
    disconnect_step hsum ha (by omega) (by omega) hcnt (by rw [hs.held]; exact hone)
  have hpoped : s.cq.q_free.poped = n + a + 1 := by rw [hs.free]
  have hpushed : s.cq.q_free.pushed = n := by rw [hs.free]; exact Nat.mod_eq_of_lt (by omega)
  have htlen : t.granted.length = n + a := by
    rw [htg, List.length_erase_of_mem hone, hlen]
    rfl
  obtain ⟨t', hr', hg', hreg'⟩ := drain hsum ha (by omega) ht (by rw [hth, htg, hs.held])
    (by rw [hpop, hpush]; omega) (by omega)
  have hgood := hno _ t' ?_ ((hr.trans (.single trivial hst)).trans hr') hg'
  · have hnd : (t'.cq.q_free.free_region a).Nodup := hgood.2.2.nodup_iff.mpr List.nodup_range
    have hcount' : 2 ≤ t.slots.count 0 := by
      have hperm : s.slots.Perm (reset_admin (set_admin 1) :: t.slots) := by
        unfold Sys.slots
        rw [htg]
        exact (List.perm_cons_erase hone).map reset_admin
      rw [hperm.count_eq, reset_admin_set_admin (by decide), List.count_cons_of_ne (by decide)]
        at hcount
      exact hcount
    rw [hreg'] at hnd
    have := List.nodup_iff_count_le_one.mp (List.nodup_append.mp hnd).2.1 0
    omega
  · simp only [List.length_append, length_popActs, List.length_map, List.length_singleton]
    omega

/-- Without admin slots, one admin session that ends stays counted as in use. -/
theorem not_noLeak_of_no_admin_slots {n : Nat} (hn : 1 ≤ n) (hsum : n < 2 ^ 32) :
    ¬ NoLeak n 0 := by
  intro hno
  have hcap : 0 < (n + 0) % 2 ^ 32 := by omega
  obtain ⟨s, hr, hs⟩ := run_pops (n := n) (u := 1) (j := 1) (Nat.zero_le 255) hcap (by omega)
    (fun i hi => by unfold Admitted; split <;> omega)
  obtain ⟨sid, hsid⟩ : ∃ sid, sid = sidAt 1 ((n + 0) % 2 ^ 32) 0 := ⟨_, rfl⟩
  have hgr : s.granted = [sid] := by rw [hsid]; exact hs.granted
  have hm : sid ∈ s.held := by rw [hs.held, hgr]; simp
  have hst : step s (.disconnect sid) = some { s with
      cq := s.cq.push_free sid
      granted := s.granted.erase sid
      held := s.held.erase sid
      accepted := s.accepted.erase sid } := by
    simp only [step, hm, if_true]
  have hgood := hno _ _ (by simp) (hr.trans (.single trivial hst)) (by simp [hgr])
  -- the push takes its other branch, which does not count the slot as given back
  have hin : (s.cq.q_free.push sid s.cq.admin_slots).2.admin_slots_in_use = 0 := hgood.1
  rw [hs.admin_slots, (hs.shaped hcap (by omega)).push sid 0 (by omega)] at hin
  simp [hs.free] at hin

theorem not_noLeak {n a : Nat} (hn : 1 ≤ n) (ha : a ≤ 255) (h : ¬ AdminsFit n a) :
    ¬ NoLeak n a := by
  by_cases hsum : n + a < 2 ^ 32
  · by_cases ha1 : 1 ≤ a
    · exact not_noLeak_of_overrun hn ha1 ha hsum h
    · obtain rfl : a = 0 := by omega
      exact not_noLeak_of_no_admin_slots hn (by omega)
  · intro hno
    exact not_partitioned_of_truncated (by omega) (hno [] _ (by simp) .nil rfl).2.2

/-- A queue whose sids are all back is as good as new after every run exactly
when the configuration keeps the admin sids in use within the admin slots, and
in every configuration of at most 32 bits after a run whose admin requests find
an admin slot. -/
theorem a_drained_queue_is_as_good_as_new (n a : Nat) (hn : 1 ≤ n) (ha : a ≤ 255) :
    (NoLeak n a ↔ AdminsFit n a) ∧
    (n + a < 2 ^ 32 → ∀ acts s, acts.length < 2 ^ 63 →
      RunOf step AdminRoom (Sys.init n a) acts s → s.granted = [] → AsGoodAsNew n a s) := by
  refine ⟨⟨?_, ?_⟩, ?_⟩
  · intro h
    by_contra hc
    exact not_noLeak hn ha hc h
  · intro hfit acts s hlen hr hg
    obtain ⟨hcnt, hpart⟩ := run_partitioned_of_adminsFit hfit ha hlen hr
    exact asGoodAsNew_of_partitioned hfit.1 hcnt hpart hg
  · intro hsum acts s hlen hr hg
    obtain ⟨hcnt, hpart⟩ := run_partitioned_of_adminRoom hsum ha hn hlen hr
    exact asGoodAsNew_of_partitioned hsum hcnt hpart hg

/-- One admin and one normal session on two slots, both of which end. -/
theorem a_drained_queue_is_as_good_as_new_at_two_slots :
    NoLeak 1 1 ∧ ∃ s, RunOf step AdminRoom (Sys.init 104 1)
      [.pop_free 0 true, .push_requested 0, .accept (set_admin 0) 1, .accept_write,
        .disconnect (set_admin 0)] s ∧ s.cq.q_free.pushed = 105 ∧ AsGoodAsNew 104 1 s := by
  have hfit : AdminsFit 1 1 := ⟨by decide, by decide, by decide⟩
  obtain ⟨s, hr, hp⟩ := RunOf.exists_of_exec (s := Sys.init 104 1) adminRoom_of_test
    (p := fun s => s.granted = [] ∧ s.cq.q_free.pushed = 105)
    (by decide : (exec (guarded step adminRoom) _ [.pop_free 0 true, .push_requested 0,
      .accept (set_admin 0) 1, .accept_write, .disconnect (set_admin 0)]).any _ = true)
  have hp' : s.granted = [] ∧ s.cq.q_free.pushed = 105 := by simpa using hp
  exact ⟨(a_drained_queue_is_as_good_as_new 1 1 (by decide) (by decide)).1.mpr hfit, s, hr, hp'.2,
    (a_drained_queue_is_as_good_as_new 104 1 (by decide) (by decide)).2 (by decide) _ s
      (by decide) hr hp'.1⟩

/-- With no admin slot configured, an admin session that is accepted and ends
leaves its count and its admin bit behind. -/
theorem an_admin_session_without_admin_slots_leaks : ∃ s, RunOf step Free (Sys.init 1 0)
    [.pop_free 0 true, .push_requested 0, .accept (set_admin 0) 1, .accept_write,
      .disconnect (set_admin 0)] s ∧
    s.granted = [] ∧ s.cq.q_free.admin_slots_in_use = 1 ∧
    s.cq.q_free.free_region 0 = [set_admin 0] ∧ ¬ NoLeak 1 0 := by
  obtain ⟨s, hr, hp⟩ := RunOf.exists_free (s := Sys.init 1 0)
    (p := fun s => s.granted = [] ∧ s.cq.q_free.admin_slots_in_use = 1 ∧
      s.cq.q_free.free_region 0 = [set_admin 0])
    (by decide : (exec step _ [.pop_free 0 true, .push_requested 0, .accept (set_admin 0) 1,
      .accept_write, .disconnect (set_admin 0)]).any _ = true)
  have hp' : s.granted = [] ∧ s.cq.q_free.admin_slots_in_use = 1 ∧
      s.cq.q_free.free_region 0 = [set_admin 0] := by simpa using hp
  refine ⟨s, hr, hp'.1, hp'.2.1, hp'.2.2, ?_⟩
  intro h
  have hin := (h _ s (by decide) hr hp'.1).1
  rw [hp'.2.1] at hin
  cases hin

end tateyama_bootstrap.connection_queue
