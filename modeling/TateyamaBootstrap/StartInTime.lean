-- A start of a server that boots (process/control.cpp). The child writes its pid to the lock
-- file, makes the status info, writes its pid there as well and becomes active, and `tgctl_start`
-- looks for each of them in a loop of its own. The loops share a budget of rounds: the start
-- succeeds exactly if the last of the four is there before the budget is spent.
import TateyamaBootstrap.StartPolling

namespace tateyama_bootstrap.process

open monitor_output

/-- The rounds from which the four signs of a server are there. -/
structure Boot where
  filled : Nat
  attached : Nat
  stored : Nat
  active : Nat

/-- The round in which the status info is attached. -/
def Boot.attach (boot : Boot) : Nat := max boot.filled boot.attached

/-- The round in which the server is seen to be active. -/
def Boot.last (boot : Boot) : Nat := max boot.attach (max boot.stored boot.active)

/-- The child boots so, as far as the polling looks. -/
structure Boots (env : StartEnv) (boot : Boot) : Prop where
  child : env.child_pid ≠ 0
  alive : ∀ i, i ≤ boot.filled → (env.lock_round i).child_alive
  /-- Before, there may be no lock file, an empty one, or the pid of a dead process. -/
  unfilled : ∀ i, i < boot.filled → (env.lock_round i).Undecided env.child_pid
  opens : (env.lock_round boot.filled).opens
  lock_file : (env.lock_round boot.filled).check ≠ .no_file
  filled : (env.lock_round boot.filled).pid = env.child_pid
  unattached : ∀ i, i < boot.attached → env.attach i = false
  attached : env.attach boot.attach
  unstored : ∀ i, i < boot.stored → env.pid_in_status_info i = 0
  stored : ∀ i, boot.stored ≤ i → i ≤ boot.last → env.pid_in_status_info i = env.child_pid
  starting : ∀ i, i < boot.active →
    ∃ state, state.Starting ∧ Sees env.bst_conf (env.launch_status i) state
  active : ∀ i, boot.active ≤ i → i ≤ boot.last →
    Sees env.bst_conf (env.launch_status i) .activated

/-- How the polling of a server that boots ends within a budget. -/
def Boot.ending (boot : Boot) (count : Nat) : Ending :=
  if count ≤ boot.filled then .no_pid
  else if count ≤ boot.attach then .no_status_info
  else if count ≤ boot.last then .still_launching
  else .status .activated

section

variable {env : StartEnv} {boot : Boot} {count : Nat}

theorem activated_final : StatusCheckResult.activated.Final := by
  simp [StatusCheckResult.Final, StatusCheckResult.Starting]

/-- The last loop, `rounds` rounds before the server is seen to be active. -/
theorem Boots.launch_polls (h : Boots env boot) (rounds i : Nat) (hfrom : boot.attach ≤ i)
    (hi : i + rounds = boot.last) :
    LaunchPolls env count i
      (if count ≤ boot.last then .still_launching else .status .activated) := by
  induction rounds generalizing i with
  | zero =>
    by_cases hcount : count ≤ i
    · rw [if_pos (by omega)]
      exact .still_launching hcount
    · have hstored : boot.stored ≤ i := by
        unfold Boot.last at hi
        omega
      have hactive : boot.active ≤ i := by
        unfold Boot.last at hi
        omega
      have hpid := h.stored i hstored (by omega)
      rw [if_neg (by omega)]
      refine .status (Nat.lt_of_not_le hcount) ?_ hpid (h.active i hactive (by omega))
        activated_final
      rw [hpid]
      exact h.child
  | succ rounds ih =>
    have hrest := ih (i + 1) (by omega) (by omega)
    by_cases hcount : count ≤ i
    · rw [if_pos (by omega)]
      exact .still_launching hcount
    · have hlt : i < count := Nat.lt_of_not_le hcount
      by_cases hstored : boot.stored ≤ i
      · have hactive : i < boot.active := by
          unfold Boot.last at hi
          omega
        obtain ⟨state, hstarting, hsees⟩ := h.starting i hactive
        have hpid := h.stored i hstored (by omega)
        refine .starting hlt ?_ hpid hsees hstarting hrest
        rw [hpid]
        exact h.child
      · exact .no_status_pid_yet hlt (h.unstored i (by omega)) hrest

/-- The loop that waits for the status info, `rounds` rounds before it is attached. -/
theorem Boots.attach_polls (h : Boots env boot) (rounds i : Nat) (hfrom : boot.filled ≤ i)
    (hi : i + rounds = boot.attach) :
    AttachPolls env count i
      (if count ≤ boot.attach then .no_status_info
      else if count ≤ boot.last then .still_launching else .status .activated) := by
  induction rounds generalizing i with
  | zero =>
    obtain rfl : i = boot.attach := by omega
    by_cases hcount : count ≤ boot.attach
    · rw [if_pos hcount]
      exact .no_status_info hcount
    · rw [if_neg hcount]
      refine .attached (Nat.lt_of_not_le hcount) h.attached ?_
      refine h.launch_polls (boot.last - boot.attach) boot.attach (Nat.le_refl _) ?_
      unfold Boot.last
      omega
  | succ rounds ih =>
    have hrest := ih (i + 1) (by omega) (by omega)
    by_cases hcount : count ≤ i
    · rw [if_pos (by omega)]
      exact .no_status_info hcount
    · have hbefore : i < boot.attached := by
        unfold Boot.attach at hi
        omega
      exact .not_yet (Nat.lt_of_not_le hcount) (h.unattached i hbefore) hrest

/-- The loop that waits for the pid, `rounds` rounds before it is in the lock file. -/
theorem Boots.lock_polls (h : Boots env boot) (rounds i : Nat) (file_mutex : Bool)
    (hi : i + rounds = boot.filled) : LockPolls env count i file_mutex (boot.ending count) := by
  induction rounds generalizing i file_mutex with
  | zero =>
    obtain rfl : i = boot.filled := by omega
    unfold Boot.ending
    by_cases hcount : count ≤ boot.filled
    · rw [if_pos hcount]
      exact .no_pid hcount
    · rw [if_neg hcount]
      have halive := h.alive boot.filled (Nat.le_refl _)
      refine .child_pid (Nat.lt_of_not_le hcount) halive (.inr h.opens) ?_ h.filled ?_
      · rintro (hfile | hzero | hother)
        · exact h.lock_file hfile
        · rw [h.filled] at hzero
          exact h.child hzero
        · exact hother.1 h.filled
      · refine h.attach_polls (boot.attach - boot.filled) boot.filled (Nat.le_refl _) ?_
        unfold Boot.attach
        omega
  | succ rounds ih =>
    by_cases hcount : count ≤ i
    · unfold Boot.ending
      rw [if_pos (by omega)]
      exact .no_pid hcount
    · have hlt : i < count := Nat.lt_of_not_le hcount
      have halive := h.alive i (by omega)
      by_cases hopen : file_mutex ∨ (env.lock_round i).opens
      · exact .not_yet hlt halive hopen (h.unfilled i (by omega)) (ih (i + 1) true (by omega))
      · obtain ⟨rfl, hclosed⟩ : file_mutex = false ∧ (env.lock_round i).opens = false := by
          simpa using hopen
        exact .no_lock_file hlt halive hclosed (ih (i + 1) false (by omega))

theorem Boots.polled (h : Boots env boot) (flags : Flags) :
    Polled flags env (boot.ending (start_count flags)) :=
  h.lock_polls boot.filled 0 false (Nat.zero_add _)

theorem Boot.ending_eq_activated :
    boot.ending count = .status .activated ↔ boot.last < count := by
  unfold Boot.ending Boot.last Boot.attach
  split
  · simp
    omega
  · split
    · simp
      omega
    · split
      · simp
        omega
      · simp
        omega

theorem Boot.ending_reason :
    (boot.ending count).reason =
      if boot.last < count then .absent
      else if count ≤ boot.filled then .ambiguous else .timeout := by
  by_cases hlast : boot.last < count
  · rw [if_pos hlast, Boot.ending_eq_activated.mpr hlast]
    rfl
  · rw [if_neg hlast]
    unfold Boot.ending
    split
    · rfl
    · split
      · rfl
      · rw [if_pos (by omega)]
        rfl

end

/-- The start of a server that boots returns `ok` and tells the monitor so exactly if the
server is seen to be active before the budget is spent. Otherwise the monitor gets `timeout`,
or `ambiguous` when even the pid came too late. -/
theorem a_server_that_boots_in_time_is_started (flags : Flags) (mode : BootMode)
    (env : StartEnv) (boot : Boot) (hl : Launched flags env) (hb : Boots env boot) :
    ((tgctl_start flags true mode env).result = .ok .ok ↔ boot.last < start_count flags) ∧
    (flags.monitor ≠ "" → records (tgctl_start flags true mode env) =
      [.start, .finish (if boot.last < start_count flags then .absent
        else if start_count flags ≤ boot.filled then .ambiguous else .timeout)]) := by
  have hpolls : (tgctl_start flags true mode env).result =
        .ok (boot.ending (start_count flags)).rtnv ∧
      (flags.monitor ≠ "" → records (tgctl_start flags true mode env) =
        [.start, .finish (boot.ending (start_count flags)).reason]) :=
    tgctl_start_polls hl (hb.polled flags)
  obtain ⟨hresult, hrecords⟩ := hpolls
  rw [Boot.ending_reason] at hrecords
  refine ⟨?_, hrecords⟩
  rw [hresult, ← Boot.ending_eq_activated, ← Ending.rtnv_eq_ok]
  simp

/-- A child that boots so, with a lock file of its own. -/
def booting (boot : Boot) : StartEnv :=
  { restarted with
    lock_round := fun i =>
      if i < boot.filled then ⟨true, false, .no_file, 0, false⟩
      else ⟨true, true, .locked, 4322, true⟩
    attach := fun i => decide (boot.attached ≤ i)
    pid_in_status_info := fun i => if boot.stored ≤ i then 4322 else 0
    launch_status := fun i =>
      ⟨.locked, fun _ => some (if boot.active ≤ i then .activated else .ready)⟩ }

theorem boots_booting (boot : Boot) : Boots (booting boot) boot where
  child := by simp [booting, restarted]
  alive := by
    intro i _
    simp only [booting]
    split <;> rfl
  unfilled := by
    intro i hi
    simp only [booting, if_pos hi]
    exact .inl rfl
  opens := by simp [booting]
  lock_file := by simp [booting]
  filled := by simp [booting, restarted]
  unattached := by
    intro i hi
    simpa [booting] using hi
  attached := by
    simp only [booting, Boot.attach, decide_eq_true_eq]
    omega
  unstored := by
    intro i hi
    simp only [booting]
    rw [if_neg (by omega)]
  stored := by
    intro i hi _
    simp only [booting, if_pos hi]
    rfl
  starting := by
    intro i hi
    refine ⟨.ready, .inr (.inr rfl), ?_⟩
    have hstate : (booting boot).launch_status i = ⟨.locked, fun _ => some .ready⟩ := by
      simp only [booting]
      rw [if_neg (by omega)]
    rw [hstate]
    rfl
  active := by
    intro i hi _
    have hstate : (booting boot).launch_status i = ⟨.locked, fun _ => some .activated⟩ := by
      simp only [booting, if_pos hi]
    rw [hstate]
    rfl

theorem launched_booting (boot : Boot) :
    Launched (monitored "" false false false) (booting boot) := by
  refine ⟨rfl, rfl, .inl rfl, ?_, rfl⟩
  rintro ⟨state, hs, hrun⟩
  cases hs
  cases hrun

/-- Ten seconds are 500 rounds. -/
theorem a_server_that_boots_in_time_is_started_in_ten_seconds :
    (tgctl_start (monitored "" false false false) true .database_server
      (booting ⟨3, 2, 2, 499⟩)).result = .ok .ok ∧
    records (tgctl_start (monitored "" false false false) true .database_server
      (booting ⟨3, 2, 2, 500⟩)) = [.start, .finish .timeout] := by
  have hcount : start_count (monitored "" false false false) = 500 := rfl
  have hin := a_server_that_boots_in_time_is_started (monitored "" false false false)
    .database_server _ _ (launched_booting ⟨3, 2, 2, 499⟩) (boots_booting _)
  have hlate := a_server_that_boots_in_time_is_started (monitored "" false false false)
    .database_server _ _ (launched_booting ⟨3, 2, 2, 500⟩) (boots_booting _)
  rw [hcount] at hin hlate
  exact ⟨hin.1.mpr (by decide), hlate.2 (by decide)⟩

end tateyama_bootstrap.process
