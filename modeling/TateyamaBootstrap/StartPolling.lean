-- What `tgctl_start` saw and what it says. `Polls` tells which observation ends the
-- polling, with no mention of `rtnv` and `reason`. The command gives the reason of that
-- observation, except where its last loop is left by a `break`: the code behind the loop
-- overwrites the reason with `timeout`.
import TateyamaBootstrap.ProcessReports

namespace tateyama_bootstrap.process

open monitor_output Command

/-- What ends the polling. -/
inductive Ending
  /-- The child is dead. -/
  | dead_child
  /-- The pid in the lock file is that of another live process. -/
  | foreign_pid
  /-- The budget is spent, and the lock file does not hold the pid of the child. -/
  | no_pid
  /-- The budget is spent, and there is no status info. -/
  | no_status_info
  /-- The pid in the status info is not that of the child. -/
  | foreign_status_pid
  /-- A status check with this result. -/
  | status (state : StatusCheckResult)
  /-- The budget is spent, and the child is still starting. -/
  | still_launching
deriving DecidableEq, Repr

/-- The child is on its way. -/
def StatusCheckResult.Starting (state : StatusCheckResult) : Prop :=
  state = .no_file ∨ state = .initial ∨ state = .ready

/-- A status after which there is nothing left to wait for. -/
def StatusCheckResult.Final (state : StatusCheckResult) : Prop :=
  ¬ state.Starting ∧ state ≠ .status_check_count_over

/-- From round `i` on, the wait for the server ends so. The three loops of the polling share
a budget of `count` rounds. -/
inductive LaunchPolls (env : StartEnv) (count : Nat) : Nat → Ending → Prop
  | still_launching {i} (h : count ≤ i) : LaunchPolls env count i .still_launching
  | no_status_pid_yet {i ending} (h : i < count) (hpid : env.pid_in_status_info i = 0)
    (hrest : LaunchPolls env count (i + 1) ending) : LaunchPolls env count i ending
  | foreign_status_pid {i} (h : i < count) (hpid : env.pid_in_status_info i ≠ 0)
    (hne : env.pid_in_status_info i ≠ env.child_pid) :
    LaunchPolls env count i .foreign_status_pid
  | starting {i state ending} (h : i < count) (hpid : env.pid_in_status_info i ≠ 0)
    (heq : env.pid_in_status_info i = env.child_pid)
    (hsees : Sees env.bst_conf (env.launch_status i) state) (hstate : state.Starting)
    (hrest : LaunchPolls env count (i + 1) ending) : LaunchPolls env count i ending
  /-- The status check has spent ten more rounds. -/
  | count_over {i ending} (h : i < count) (hpid : env.pid_in_status_info i ≠ 0)
    (heq : env.pid_in_status_info i = env.child_pid)
    (hsees : Sees env.bst_conf (env.launch_status i) .status_check_count_over)
    (hrest : LaunchPolls env count (i + check_count_status + 1) ending) :
    LaunchPolls env count i ending
  | status {i state} (h : i < count) (hpid : env.pid_in_status_info i ≠ 0)
    (heq : env.pid_in_status_info i = env.child_pid)
    (hsees : Sees env.bst_conf (env.launch_status i) state) (hfinal : state.Final) :
    LaunchPolls env count i (.status state)

/-- From round `i` on, the wait for the status info ends so. -/
inductive AttachPolls (env : StartEnv) (count : Nat) : Nat → Ending → Prop
  | no_status_info {i} (h : count ≤ i) : AttachPolls env count i .no_status_info
  | not_yet {i ending} (h : i < count) (hattach : env.attach i = false)
    (hrest : AttachPolls env count (i + 1) ending) : AttachPolls env count i ending
  | attached {i ending} (h : i < count) (hattach : env.attach i)
    (hrest : LaunchPolls env count i ending) : AttachPolls env count i ending

/-- A round of the wait for the pid of the child that shows neither this pid nor that of
another live process. -/
def LockRound.Undecided (round : LockRound) (child_pid : Int) : Prop :=
  round.check = .no_file ∨ round.pid = 0 ∨ round.pid ≠ child_pid ∧ round.pid_alive = false

/-- From round `i` on, the wait for the pid in the lock file ends so. `file_mutex` tells
whether the lock file has been opened. -/
inductive LockPolls (env : StartEnv) (count : Nat) : Nat → Bool → Ending → Prop
  | no_pid {i file_mutex} (h : count ≤ i) : LockPolls env count i file_mutex .no_pid
  | dead_child {i file_mutex} (h : i < count) (hdead : (env.lock_round i).child_alive = false) :
    LockPolls env count i file_mutex .dead_child
  | no_lock_file {i ending} (h : i < count) (halive : (env.lock_round i).child_alive)
    (hopen : (env.lock_round i).opens = false)
    (hrest : LockPolls env count (i + 1) false ending) : LockPolls env count i false ending
  | not_yet {i} {file_mutex : Bool} {ending} (h : i < count)
    (halive : (env.lock_round i).child_alive) (hopen : file_mutex ∨ (env.lock_round i).opens)
    (hround : (env.lock_round i).Undecided env.child_pid)
    (hrest : LockPolls env count (i + 1) true ending) : LockPolls env count i file_mutex ending
  | foreign_pid {i} {file_mutex : Bool} (h : i < count) (halive : (env.lock_round i).child_alive)
    (hopen : file_mutex ∨ (env.lock_round i).opens)
    (hround : ¬ (env.lock_round i).Undecided env.child_pid)
    (hne : (env.lock_round i).pid ≠ env.child_pid) :
    LockPolls env count i file_mutex .foreign_pid
  | child_pid {i} {file_mutex : Bool} {ending} (h : i < count)
    (halive : (env.lock_round i).child_alive) (hopen : file_mutex ∨ (env.lock_round i).opens)
    (hround : ¬ (env.lock_round i).Undecided env.child_pid)
    (heq : (env.lock_round i).pid = env.child_pid) (hrest : AttachPolls env count i ending) :
    LockPolls env count i file_mutex ending

def start_count (flags : Flags) : Nat :=
  check_count check_count_startup sleep_time_unit_regular flags.timeout

/-- How the polling of a start ends. -/
def Polled (flags : Flags) (env : StartEnv) (ending : Ending) : Prop :=
  LockPolls env (start_count flags) 0 false ending

section

variable {env : StartEnv} {count i : Nat} {file_mutex m : Bool} {ending : Ending}

/-! ## Every polling ends -/

theorem exists_launchPolls (env : StartEnv) (rounds i : Nat) (h : count ≤ i + rounds) :
    ∃ ending, LaunchPolls env count i ending := by
  induction rounds generalizing i with
  | zero => exact ⟨_, .still_launching h⟩
  | succ rounds ih =>
    by_cases hi : count ≤ i
    · exact ⟨_, .still_launching hi⟩
    · have hlt : i < count := Nat.lt_of_not_le hi
      obtain ⟨next, hnext⟩ := ih (i + 1) (by omega)
      by_cases hpid : env.pid_in_status_info i = 0
      · exact ⟨next, .no_status_pid_yet hlt hpid hnext⟩
      · by_cases heq : env.pid_in_status_info i = env.child_pid
        · obtain ⟨state, hs⟩ := status_check_quiet env.bst_conf (env.launch_status i)
          by_cases hover : state = .status_check_count_over
          · subst hover
            obtain ⟨ending, hskip⟩ := ih (i + check_count_status + 1) (by omega)
            exact ⟨ending, .count_over hlt hpid heq hs.result hskip⟩
          · by_cases hstate : state.Starting
            · exact ⟨next, .starting hlt hpid heq hs.result hstate hnext⟩
            · exact ⟨_, .status hlt hpid heq hs.result ⟨hstate, hover⟩⟩
        · exact ⟨_, .foreign_status_pid hlt hpid heq⟩

theorem exists_attachPolls (env : StartEnv) (rounds i : Nat) (h : count ≤ i + rounds) :
    ∃ ending, AttachPolls env count i ending := by
  induction rounds generalizing i with
  | zero => exact ⟨_, .no_status_info h⟩
  | succ rounds ih =>
    by_cases hi : count ≤ i
    · exact ⟨_, .no_status_info hi⟩
    · have hlt : i < count := Nat.lt_of_not_le hi
      cases hattach : env.attach i with
      | true =>
        obtain ⟨ending, hlaunch⟩ := exists_launchPolls env (rounds + 1) i h
        exact ⟨ending, .attached hlt hattach hlaunch⟩
      | false =>
        obtain ⟨ending, hrest⟩ := ih (i + 1) (by omega)
        exact ⟨ending, .not_yet hlt hattach hrest⟩

theorem exists_lockPolls (env : StartEnv) (rounds i : Nat) (file_mutex : Bool)
    (h : count ≤ i + rounds) : ∃ ending, LockPolls env count i file_mutex ending := by
  induction rounds generalizing i file_mutex with
  | zero => exact ⟨_, .no_pid h⟩
  | succ rounds ih =>
    by_cases hi : count ≤ i
    · exact ⟨_, .no_pid hi⟩
    · have hlt : i < count := Nat.lt_of_not_le hi
      cases halive : (env.lock_round i).child_alive with
      | false => exact ⟨_, .dead_child hlt halive⟩
      | true =>
        by_cases hopen : file_mutex ∨ (env.lock_round i).opens
        · by_cases hround : (env.lock_round i).Undecided env.child_pid
          · obtain ⟨ending, hrest⟩ := ih (i + 1) true (by omega)
            exact ⟨ending, .not_yet hlt halive hopen hround hrest⟩
          · by_cases heq : (env.lock_round i).pid = env.child_pid
            · obtain ⟨ending, hrest⟩ := exists_attachPolls env (rounds + 1) i h
              exact ⟨ending, .child_pid hlt halive hopen hround heq hrest⟩
            · exact ⟨_, .foreign_pid hlt halive hopen hround heq⟩
        · obtain ⟨rfl, hclosed⟩ : file_mutex = false ∧ (env.lock_round i).opens = false := by
            simpa using hopen
          obtain ⟨ending, hrest⟩ := ih (i + 1) false (by omega)
          exact ⟨ending, .no_lock_file hlt halive hclosed hrest⟩

theorem exists_polled (flags : Flags) (env : StartEnv) : ∃ ending, Polled flags env ending :=
  exists_lockPolls env (start_count flags) 0 false (by omega)

/-! ## What a polling has seen -/

/-- The pid of the child was in the lock file and in the status info, and the server was
active. -/
def Confirmed (env : StartEnv) : Prop :=
  (∃ k, (env.lock_round k).check ≠ .no_file ∧ (env.lock_round k).pid = env.child_pid) ∧
  ∃ k, env.pid_in_status_info k = env.child_pid ∧
    Sees env.bst_conf (env.launch_status k) .activated

theorem LaunchPolls.seen (h : LaunchPolls env count i (.status .activated)) :
    ∃ k, env.pid_in_status_info k = env.child_pid ∧
      Sees env.bst_conf (env.launch_status k) .activated := by
  generalize he : Ending.status .activated = ending at h
  induction h with
  | still_launching | foreign_status_pid => cases he
  | no_status_pid_yet _ _ _ ih => exact ih he
  | starting _ _ _ _ _ _ ih => exact ih he
  | count_over _ _ _ _ _ ih => exact ih he
  | @status i state _ _ heq hsees _ =>
    cases he
    exact ⟨i, heq, hsees⟩

theorem AttachPolls.seen (h : AttachPolls env count i (.status .activated)) :
    ∃ k, env.pid_in_status_info k = env.child_pid ∧
      Sees env.bst_conf (env.launch_status k) .activated := by
  generalize he : Ending.status .activated = ending at h
  induction h with
  | no_status_info => cases he
  | not_yet _ _ _ ih => exact ih he
  | attached _ _ hrest =>
    subst he
    exact hrest.seen

theorem LockPolls.confirmed (h : LockPolls env count i file_mutex (.status .activated)) :
    Confirmed env := by
  generalize he : Ending.status .activated = ending at h
  induction h with
  | no_pid | dead_child | foreign_pid => cases he
  | no_lock_file _ _ _ _ ih => exact ih he
  | not_yet _ _ _ _ _ ih => exact ih he
  | @child_pid i _ _ _ _ _ hround heq hrest =>
    subst he
    exact ⟨⟨i, fun hfile => hround (.inl hfile), heq⟩, hrest.seen⟩

/-! ## What the command says -/

/-- The reason with which the last loop returns; otherwise the code behind it gives one. -/
def Ending.returned : Ending → Option Reason
  | .status .activated => some .absent
  | .status .not_locked | .status .boot_error => some .ambiguous
  | _ => none

def Ending.rtnv : Ending → ReturnCode
  | .status .activated => .ok
  | _ => .err

/-- The reason that the command gives in the end. -/
def Ending.reason : Ending → Reason
  | .status .activated => .absent
  | .status .not_locked | .status .boot_error => .ambiguous
  | .dead_child => .internal
  | .foreign_pid => .another_process
  | .no_pid => .ambiguous
  | _ => .timeout

theorem Ending.rtnv_eq_ok : ending.rtnv = .ok ↔ ending = .status .activated := by
  unfold Ending.rtnv
  split <;> simp_all

/-- The record that the last loop itself writes. -/
def Ending.told (ending : Ending) (m : Bool) : List monitor_output.Record :=
  if m then (ending.returned.map .finish).toList else []

theorem ends_tell_if (m : Bool) (r : monitor_output.Record) :
    Ends (tell m r : Cmd Unit) (if m then [r] else []) (.ok ()) := by
  cases m with
  | true => exact ends_tell r
  | false => exact Ends.pure

theorem ends_of_sees {bst_conf : BootstrapConfiguration} {status : StatusEnv}
    {state : StatusCheckResult} (h : Sees bst_conf status state) :
    Ends (status_check_internal bst_conf status) [] (.ok state) := by
  obtain ⟨state', hs⟩ := status_check_quiet bst_conf status
  obtain rfl := Sees.unique hs.result h
  exact hs

/-- Where the last loop does not return, it is the code behind it that gives the reason. -/
theorem launch_reason (h : LaunchPolls env count i ending) (hnone : ending.returned = none) :
    ending.reason = .timeout := by
  induction h with
  | still_launching | foreign_status_pid => rfl
  | no_status_pid_yet _ _ _ ih => exact ih hnone
  | starting _ _ _ _ _ _ ih => exact ih hnone
  | count_over _ _ _ _ _ ih => exact ih hnone
  | @status _ state =>
    cases state <;> first | rfl | cases hnone

/-- How the last loop is left. -/
def Ending.Leaves (ending : Ending) (flow : Flow) : Prop :=
  if ending.returned.isSome then flow = .returns ending.rtnv
  else ∃ rtnv rc, flow = .goes_on rtnv rc

theorem launch_rounds_polls (m : Bool) (h : LaunchPolls env count i ending) (fuel : Nat)
    (hfuel : count ≤ i + fuel) :
    ∃ flow, Ends (launch_rounds m env count fuel i) (ending.told m) (.ok flow) ∧
      ending.Leaves flow := by
  have hsilent : ∀ ending : Ending, ending.returned = none → ending.told m = [] := by
    intro ending hnone
    simp [Ending.told, hnone]
  induction h generalizing fuel with
  | still_launching h =>
    refine ⟨.goes_on .ok .absent, ?_, ⟨_, _, rfl⟩⟩
    rw [hsilent _ rfl]
    cases fuel with
    | zero => exact Ends.pure
    | succ fuel =>
      rw [launch_rounds, if_neg (by omega)]
      exact Ends.pure
  | @no_status_pid_yet i ending h hpid _ ih =>
    obtain ⟨fuel, rfl⟩ : ∃ n, fuel = n + 1 := ⟨fuel - 1, by omega⟩
    rw [launch_rounds, if_pos h, if_pos hpid]
    exact ih fuel (by omega)
  | @foreign_status_pid i h hpid hne =>
    obtain ⟨fuel, rfl⟩ : ∃ n, fuel = n + 1 := ⟨fuel - 1, by omega⟩
    refine ⟨.goes_on .err .ambiguous, ?_, ⟨_, _, rfl⟩⟩
    rw [hsilent _ rfl, launch_rounds, if_pos h, if_neg hpid, if_neg (Ne.symm hne)]
    exact Ends.pure
  | @starting i state ending h hpid heq hsees hstate _ ih =>
    obtain ⟨fuel, rfl⟩ : ∃ n, fuel = n + 1 := ⟨fuel - 1, by omega⟩
    obtain ⟨flow, hends, hleaves⟩ := ih fuel (by omega)
    refine ⟨flow, ?_, hleaves⟩
    rw [launch_rounds, if_pos h, if_neg hpid, if_pos heq.symm]
    refine (ends_of_sees hsees).after ?_
    rcases hstate with rfl | rfl | rfl <;> exact hends
  | @count_over i ending h hpid heq hsees _ ih =>
    obtain ⟨fuel, rfl⟩ : ∃ n, fuel = n + 1 := ⟨fuel - 1, by omega⟩
    obtain ⟨flow, hends, hleaves⟩ := ih fuel (by omega)
    refine ⟨flow, ?_, hleaves⟩
    rw [launch_rounds, if_pos h, if_neg hpid, if_pos heq.symm]
    exact (ends_of_sees hsees).after hends
  | @status i state h hpid heq hsees hfinal =>
    obtain ⟨fuel, rfl⟩ : ∃ n, fuel = n + 1 := ⟨fuel - 1, by omega⟩
    rw [launch_rounds, if_pos h, if_neg hpid, if_pos heq.symm]
    have hs := ends_of_sees hsees
    cases state with
    | no_file | initial | ready => exact absurd (by simp [StatusCheckResult.Starting]) hfinal.1
    | status_check_count_over => exact absurd rfl hfinal.2
    | activated => exact ⟨.returns .ok, hs.after ((ends_tell_if m _).before Ends.pure), rfl⟩
    | not_locked | boot_error =>
      exact ⟨.returns .err, hs.after ((ends_tell_if m _).before Ends.pure), rfl⟩
    | deactivating | deactivated =>
      refine ⟨.goes_on .err .another_process, hs.after ?_, ⟨_, _, rfl⟩⟩
      rw [hsilent _ rfl]
      exact Ends.pure
    | undefined | error_in_conf_file_name | error_in_create_conf | error_in_file_mutex_check =>
      refine ⟨.goes_on .err .timeout, hs.after ?_, ⟨_, _, rfl⟩⟩
      rw [hsilent _ rfl]
      exact Ends.pure

theorem attach_rounds_polls (h : AttachPolls env count i ending) (n : Nat) (hn : count ≤ i + n)
    (hi : n = 0 ∨ i + n = count) :
    attach_rounds env n i = none ∧ ending = .no_status_info ∨
    ∃ k, attach_rounds env n i = some k ∧ LaunchPolls env count k ending := by
  induction h generalizing n with
  | no_status_info h =>
    obtain rfl : n = 0 := by omega
    exact .inl ⟨rfl, rfl⟩
  | @not_yet i ending h hattach _ ih =>
    obtain ⟨n, rfl⟩ : ∃ k, n = k + 1 := ⟨n - 1, by omega⟩
    rw [attach_rounds, if_neg (by simp [hattach])]
    exact ih n (by omega) (by omega)
  | @attached i ending h hattach hrest =>
    obtain ⟨n, rfl⟩ : ∃ k, n = k + 1 := ⟨n - 1, by omega⟩
    rw [attach_rounds, if_pos hattach]
    exact .inr ⟨i, rfl, hrest⟩

/-- A round in which the child lives and the lock file is open. -/
theorem lock_round_opened {n : Nat} (halive : (env.lock_round i).child_alive)
    (hopen : file_mutex ∨ (env.lock_round i).opens) :
    lock_rounds env (n + 1) i file_mutex = (do
      .write (.checked (env.lock_round i).check)
      if (env.lock_round i).check ≠ .no_file ∧ (env.lock_round i).pid ≠ 0 then
        if env.child_pid = (env.lock_round i).pid then return (.ok, i)
        else if (env.lock_round i).pid_alive then return (.another, i)
        else lock_rounds env n (i + 1) true
      else lock_rounds env n (i + 1) true) := by
  have hopened : (!file_mutex && !(env.lock_round i).opens) = false := by
    rcases hopen with h | h <;> simp [h]
  rw [lock_rounds]
  simp only [halive, hopened]
  rfl

theorem decided {round : LockRound} {child_pid : Int} (h : ¬ round.Undecided child_pid) :
    (round.check ≠ .no_file ∧ round.pid ≠ 0) ∧
      (round.pid ≠ child_pid → round.pid_alive) := by
  refine ⟨⟨fun hfile => h (.inl hfile), fun hzero => h (.inr (.inl hzero))⟩, fun hne => ?_⟩
  by_contra hdead
  exact h (.inr (.inr ⟨hne, by simpa using hdead⟩))

/-- How the first loop is left. -/
def Ending.Settled (env : StartEnv) (count : Nat) (ending : Ending) : CheckResult → Nat → Prop
  | .init, _ => ending = .no_pid
  | .ok, chkn => chkn < count ∧ AttachPolls env count chkn ending
  | .another, _ => ending = .foreign_pid
  | .dead_abnormally, _ => ending = .dead_child

theorem lock_rounds_polls (h : LockPolls env count i file_mutex ending) (n : Nat)
    (hn : n = 0 ∧ count ≤ i ∨ i + n = count) :
    ∃ check_result chkn, Ends (lock_rounds env n i file_mutex) [] (.ok (check_result, chkn)) ∧
      ending.Settled env count check_result chkn := by
  induction h generalizing n with
  | no_pid h =>
    obtain rfl : n = 0 := by omega
    exact ⟨.init, 0, Ends.pure, rfl⟩
  | @dead_child i file_mutex h hdead =>
    obtain ⟨n, rfl⟩ : ∃ k, n = k + 1 := ⟨n - 1, by omega⟩
    refine ⟨.dead_abnormally, 0, ?_, rfl⟩
    rw [lock_rounds]
    simp only [hdead]
    exact Ends.pure
  | @no_lock_file i ending h halive hopen _ ih =>
    obtain ⟨n, rfl⟩ : ∃ k, n = k + 1 := ⟨n - 1, by omega⟩
    rw [lock_rounds]
    simp only [halive, hopen]
    exact ih n (by omega)
  | @not_yet i file_mutex ending h halive hopen hround _ ih =>
    obtain ⟨n, rfl⟩ : ∃ k, n = k + 1 := ⟨n - 1, by omega⟩
    obtain ⟨check_result, chkn, hends, hsettled⟩ := ih n (by omega)
    refine ⟨check_result, chkn, ?_, hsettled⟩
    rw [lock_round_opened halive hopen]
    refine (Ends.unseen rfl).after ?_
    by_cases hpid : (env.lock_round i).check ≠ .no_file ∧ (env.lock_round i).pid ≠ 0
    · obtain ⟨hne, hdead⟩ : (env.lock_round i).pid ≠ env.child_pid ∧
          (env.lock_round i).pid_alive = false := by
        rcases hround with hfile | hzero | hother
        · exact absurd hfile hpid.1
        · exact absurd hzero hpid.2
        · exact hother
      rw [if_pos hpid, if_neg (Ne.symm hne), if_neg (by simp [hdead])]
      exact hends
    · rw [if_neg hpid]
      exact hends
  | @foreign_pid i file_mutex h halive hopen hround hne =>
    obtain ⟨n, rfl⟩ : ∃ k, n = k + 1 := ⟨n - 1, by omega⟩
    obtain ⟨hpid, hforeign⟩ := decided hround
    refine ⟨.another, i, ?_, rfl⟩
    rw [lock_round_opened halive hopen]
    refine (Ends.unseen rfl).after ?_
    rw [if_pos hpid, if_neg (Ne.symm hne), if_pos (hforeign hne)]
    exact Ends.pure
  | @child_pid i file_mutex ending h halive hopen hround heq hrest =>
    obtain ⟨n, rfl⟩ : ∃ k, n = k + 1 := ⟨n - 1, by omega⟩
    obtain ⟨hpid, -⟩ := decided hround
    refine ⟨.ok, i, ?_, ⟨h, hrest⟩⟩
    rw [lock_round_opened halive hopen]
    refine (Ends.unseen rfl).after ?_
    rw [if_pos hpid, if_pos heq.symm]
    exact Ends.pure

/-- How the polling is left. -/
def Ending.flow (ending : Ending) : Flow :=
  if ending.returned.isSome then .returns ending.rtnv else .goes_on .err ending.reason

theorem close_ends (m : Bool) (ending : Ending) :
    Ends (ending.flow.close m : Cmd ReturnCode)
      (if m ∧ ending.returned = none then [.finish ending.reason] else []) (.ok ending.rtnv) := by
  unfold Ending.flow
  cases hret : ending.returned with
  | some rc => simpa [Flow.close] using Ends.pure
  | none =>
    have hrtnv : ending.rtnv = .err := by
      unfold Ending.rtnv
      split
      · cases hret
      · rfl
    rw [hrtnv]
    cases m with
    | true => exact (ends_finish _).bind Ends.pure
    | false => exact Ends.pure

theorem confirm_polls {flags : Flags} (m : Bool) (hc : env.bst_conf.configuration)
    (h : Polled flags env ending) :
    Ends (confirm flags m env) (ending.told m) (.ok ending.flow) := by
  obtain ⟨check_result, chkn, hlock, hsettled⟩ :=
    lock_rounds_polls h (start_count flags) (.inr (Nat.zero_add _))
  unfold confirm
  dsimp only
  rw [if_pos hc]
  have hdone : ∀ {reason : Reason}, ending.returned = none → ending.reason = reason →
      Ends (pure (.goes_on .err reason) : Cmd Flow) (ending.told m) (.ok ending.flow) := by
    rintro _ hnone rfl
    unfold Ending.told Ending.flow
    rw [hnone]
    simpa using Ends.pure
  refine hlock.after ?_
  cases check_result with
  | init =>
    obtain rfl := hsettled
    exact hdone rfl rfl
  | another =>
    obtain rfl := hsettled
    exact hdone rfl rfl
  | dead_abnormally =>
    obtain rfl := hsettled
    exact hdone rfl rfl
  | ok =>
    obtain ⟨hlt, hattach⟩ := hsettled
    rcases attach_rounds_polls hattach (start_count flags - chkn) (by omega) (by omega) with
      ⟨hnone, rfl⟩ | ⟨k, hk, hlaunch⟩
    · rw [start_count] at hnone
      dsimp only
      rw [hnone]
      dsimp only
      split
      · exact (Ends.unseen rfl).after (hdone rfl rfl)
      · exact hdone rfl rfl
    · obtain ⟨flow, hends, hleaves⟩ :=
        launch_rounds_polls m hlaunch (start_count flags) (by omega)
      rw [start_count] at hk hends
      dsimp only
      rw [hk]
      refine hends.before ?_
      unfold Ending.Leaves at hleaves
      split at hleaves
      · rename_i hsome
        subst hleaves
        rw [Ending.flow, if_pos hsome]
        exact Ends.pure
      · rename_i hnone
        obtain ⟨rtnv, rc, rfl⟩ := hleaves
        rw [Ending.flow, if_neg hnone, launch_reason hlaunch (by simpa using hnone)]
        exact Ends.pure

end

/-! ## The command -/

/-- The command gets as far as the polling: it has launched the child. -/
def Launched (flags : Flags) (env : StartEnv) : Prop :=
  env.bst_conf.valid ∧ env.bst_conf.configuration ∧
  (flags.start_mode = "" ∨ flags.start_mode = "force" ∧ env.lock_file_opens ∧
    Killed flags env.kill ∧ env.kill.attaches) ∧
  ¬ Running env ∧ env.get_base_path = .ok ()

section

variable {flags : Flags} {env : StartEnv} {m : Bool} {mode : BootMode}

theorem running_iff {state : StatusCheckResult} (h : Sees env.bst_conf env.status state) :
    Running env ↔ state.running :=
  ⟨fun ⟨_, hs, hr⟩ => Sees.unique hs h ▸ hr, fun hr => ⟨state, h, hr⟩⟩

theorem launch_launched (hrun : ¬ Running env) (hpath : env.get_base_path = .ok ())
    {vs : List monitor_output.Record} {r : Except Error Flow}
    (h : Ends (confirm flags m env) vs r) : Ends (launch flags m true mode env) vs r := by
  obtain ⟨state, hs⟩ := status_check_quiet env.bst_conf env.status
  refine hs.after ?_
  rw [if_neg (fun hr => hrun ((running_iff hs.result).mpr hr)), hpath]
  exact (Ends.unseen rfl).after h

theorem boot_launched (hl : Launched flags env) {vs : List monitor_output.Record}
    {r : Except Error Flow} (h : Ends (confirm flags m env) vs r) :
    Ends (boot flags m true mode env) vs r := by
  obtain ⟨hv, -, hmode, hrun, hpath⟩ := hl
  have hlaunch : Ends (launch flags m true mode env) vs r := launch_launched hrun hpath h
  unfold boot
  rw [if_pos hv]
  rcases hmode with hempty | ⟨hforce, hopens, hkilled, hattaches⟩
  · rw [if_pos (by simp [hempty])]
    exact hlaunch
  · rw [if_neg (by rw [hforce]; decide), if_pos hforce, hopens]
    refine Ends.after Ends.pure ?_
    rcases tgctl_kill_ends flags env.kill with ⟨-, -, he⟩ | ⟨-, hno, -⟩ | ⟨hno, -⟩
    · exact he.after hlaunch
    · exact absurd hattaches hno
    · exact absurd hkilled hno

/-- However this part ends, it does not end well. -/
def Fails (x : Cmd Flow) : Prop := ∀ flow, x.result = .ok flow → flow.rtnv = .err

theorem fails_pure {flow : Flow} (h : flow.rtnv = .err) : Fails (pure flow) := by
  intro flow' hr
  cases hr
  exact h

theorem fails_raise (e : Error) : Fails (.raise e) := nofun

theorem Fails.bind {α : Type} {y : Cmd α} {f : α → Cmd Flow}
    (h : ∀ a, y.result = .ok a → Fails (f a)) : Fails (y >>= f) := by
  obtain ⟨l, r⟩ := y
  cases r with
  | ok a => exact h a rfl
  | error e => exact nofun

theorem fails_launch (h : ¬ (env.bst_conf.configuration ∧ ¬ Running env ∧
    env.get_base_path = .ok ())) : Fails (launch flags m true mode env) := by
  refine Fails.bind fun state hs => ?_
  split
  · exact Fails.bind fun _ _ => fails_pure rfl
  · rename_i hrun
    split
    · exact fails_pure rfl
    · exact fails_raise _
    · rename_i hpath
      refine Fails.bind fun _ _ => ?_
      rw [if_pos rfl]
      have hc : ¬ env.bst_conf.configuration :=
        fun hc => h ⟨hc, fun hr => hrun ((running_iff hs).mp hr), hpath⟩
      unfold confirm
      dsimp only
      rw [if_neg hc]
      exact fails_pure rfl

theorem fails_boot (h : ¬ Launched flags env) : Fails (boot flags m true mode env) := by
  unfold boot
  split
  · rename_i hv
    split
    · rename_i hempty
      refine fails_launch fun hl => h ⟨hv, hl.1, .inl ?_, hl.2⟩
      simpa using hempty
    · split
      · rename_i hforce
        refine Fails.bind fun _ hopen => Fails.bind fun rtnv hkill => ?_
        cases rtnv with
        | err => exact Fails.bind fun _ _ => fails_pure rfl
        | ok =>
          have hopens : env.lock_file_opens := by
            by_contra hno
            rw [open_lock_file, if_neg hno] at hopen
            cases hopen
          have hkilled : Killed flags env.kill ∧ env.kill.attaches := by
            rcases tgctl_kill_ends flags env.kill with ⟨hk, ha, -⟩ | ⟨-, -, he⟩ | ⟨-, he⟩
            · exact ⟨hk, ha⟩
            · rw [he.result] at hkill
              cases hkill
            · rw [he.result] at hkill
              cases hkill
          exact fails_launch fun hl => h ⟨hv, hl.1, .inr ⟨hforce, hopens, hkilled⟩, hl.2⟩
      · exact Fails.bind fun _ _ => fails_pure rfl
  · exact fails_pure rfl

/-- The records of a start that gets to the polling, and what it returns. -/
theorem tgctl_start_polls (hl : Launched flags env) {ending : Ending}
    (h : Polled flags env ending) :
    (tgctl_start flags true mode env).result = .ok ending.rtnv ∧
    (flags.monitor ≠ "" →
      records (tgctl_start flags true mode env) = [.start, .finish ending.reason]) := by
  have hboot : ∀ m, Ends (boot flags m true mode env) (ending.told m) (.ok ending.flow) :=
    fun m => boot_launched hl (confirm_polls m hl.2.1 h)
  have hframed : ∀ m, ∃ vs, Ends (framed m (boot flags m true mode env)) vs (.ok ending.rtnv) ∧
      (m → vs = [.start, .finish ending.reason]) := by
    intro m
    refine ⟨_, (ends_tell_if m .start).bind ((hboot m).bind (close_ends m ending)), ?_⟩
    rintro rfl
    cases ending with
    | status state => cases state <;> rfl
    | dead_child | foreign_pid | no_pid | no_status_info | foreign_status_pid
    | still_launching => rfl
  obtain ⟨vs, hends, hvs⟩ := hframed (!flags.monitor.isEmpty && true)
  refine ⟨hends.result, fun hm => ?_⟩
  exact hends.log.trans (hvs (by simpa using hm))

theorem tgctl_start_fails (h : ¬ Launched flags env) :
    (tgctl_start flags true mode env).result ≠ .ok .ok := by
  unfold tgctl_start
  dsimp only
  generalize (!flags.monitor.isEmpty && true) = m
  have hfails : Fails (boot flags m true mode env) := fails_boot h
  intro hok
  cases hr : (boot flags m true mode env).result with
  | error e =>
    have hend : Ends (framed m (boot flags m true mode env)) _ (.error e) :=
      (ends_tell_if m .start).bind (Ends.stop ⟨rfl, hr⟩)
    rw [hend.result] at hok
    cases hok
  | ok flow =>
    have hclose : (flow.close m : Cmd ReturnCode).result = .ok .err := by
      rw [← hfails flow hr]
      cases flow with
      | returns rtnv => rfl
      | goes_on rtnv reason => cases m <;> rfl
    have hend : Ends (framed m (boot flags m true mode env)) _ (.ok .err) :=
      (ends_tell_if m .start).bind (Ends.bind ⟨rfl, hr⟩ ⟨rfl, hclose⟩)
    rw [hend.result] at hok
    cases hok

end

/-- The reason that an observation calls for. The end of the budget calls for `timeout`;
before any pid has been seen, it may be called `ambiguous` as well. -/
def Ending.CallsFor : Ending → Reason → Prop
  | .status .activated, reason => reason = .absent
  | .status .deactivating, reason | .status .deactivated, reason => reason = .another_process
  | .status .not_locked, reason | .status .boot_error, reason => reason = .ambiguous
  | .foreign_status_pid, reason => reason = .ambiguous
  | .dead_child, reason => reason = .internal
  | .foreign_pid, reason => reason = .another_process
  | .no_pid, reason => reason = .timeout ∨ reason = .ambiguous
  | .no_status_info, reason | .still_launching, reason | .status _, reason => reason = .timeout

/-- The start returns `ok` only when it has seen its child active, and gives the monitor the
reason of the observation that ends the polling. -/
def SaysWhatItSaw (flags : Flags) (mode : BootMode) (env : StartEnv) : Prop :=
  ((tgctl_start flags true mode env).result = .ok .ok → Confirmed env) ∧
  (flags.monitor ≠ "" → Launched flags env → ∀ ending, Polled flags env ending →
    ∃ reason, records (tgctl_start flags true mode env) = [.start, .finish reason] ∧
      ending.CallsFor reason)

/-- The endings whose reason the code behind the last loop overwrites. -/
def Ending.Overwritten (ending : Ending) : Prop :=
  ending = .foreign_status_pid ∨ ending = .status .deactivating ∨ ending = .status .deactivated

theorem callsFor_reason_iff (ending : Ending) :
    ending.CallsFor ending.reason ↔ ¬ ending.Overwritten := by
  unfold Ending.Overwritten
  cases ending with
  | status state => cases state <;> simp [Ending.CallsFor, Ending.reason]
  | dead_child | foreign_pid | no_pid | no_status_info | foreign_status_pid | still_launching =>
    simp [Ending.CallsFor, Ending.reason]

theorem finish_inj {a b : Reason} (h : Record.finish a = Record.finish b) : a = b := by
  unfold Record.finish at h
  split at h <;> split at h <;> simp_all

theorem reason_fits_iff {flags : Flags} {env : StartEnv} {ending : Ending} (mode : BootMode)
    (hm : flags.monitor ≠ "") (hl : Launched flags env) (hp : Polled flags env ending) :
    (∃ reason, records (tgctl_start flags true mode env) = [.start, .finish reason] ∧
      ending.CallsFor reason) ↔ ¬ ending.Overwritten := by
  have hrecords : records (tgctl_start flags true mode env) = [.start, .finish ending.reason] :=
    (tgctl_start_polls hl hp).2 hm
  rw [← callsFor_reason_iff]
  constructor
  · rintro ⟨reason, h, hcalls⟩
    rw [hrecords] at h
    obtain rfl := finish_inj (by simpa using h)
    exact hcalls
  · intro hcalls
    exact ⟨_, hrecords, hcalls⟩

/-- A start says what it saw exactly when the polling does not end with a foreign pid in the
status info or with a server that is shutting down. -/
theorem start_says_what_it_saw (flags : Flags) (mode : BootMode) (env : StartEnv) :
    SaysWhatItSaw flags mode env ↔
      (flags.monitor ≠ "" → Launched flags env → ∀ ending, Polled flags env ending →
        ¬ ending.Overwritten) := by
  have hok : (tgctl_start flags true mode env).result = .ok .ok → Confirmed env := by
    intro hr
    by_cases hl : Launched flags env
    · obtain ⟨ending, hp⟩ := exists_polled flags env
      rw [(tgctl_start_polls hl hp).1] at hr
      obtain rfl := Ending.rtnv_eq_ok.mp (Except.ok.inj hr)
      exact LockPolls.confirmed hp
    · exact absurd hr (tgctl_start_fails hl)
  constructor
  · rintro ⟨-, h⟩ hm hl ending hp
    exact (reason_fits_iff mode hm hl hp).mp (h hm hl ending hp)
  · intro h
    exact ⟨hok, fun hm hl ending hp => (reason_fits_iff mode hm hl hp).mpr (h hm hl ending hp)⟩

/-- A server that is shut down while it starts. -/
def shut_down_early : StartEnv :=
  { restarted with launch_status := fun _ => ⟨.locked, fun _ => some .deactivating⟩ }

/-- The status info of another process. -/
def misattached : StartEnv := { restarted with pid_in_status_info := fun _ => 4323 }

/-- Both are reported as a timeout, and that after the first round. -/
theorem a_shutdown_is_reported_as_a_timeout :
    records (tgctl_start (monitored "" false false false) true .database_server shut_down_early) =
      [.start, .failure .timeout] ∧
    ¬ SaysWhatItSaw (monitored "" false false false) .database_server shut_down_early ∧
    ¬ SaysWhatItSaw (monitored "" false false false) .database_server misattached := by
  have hlaunched : ∀ env : StartEnv, env.bst_conf = ⟨true, true⟩ →
      env.status = ⟨.no_file, fun _ => none⟩ → env.get_base_path = .ok () →
      Launched (monitored "" false false false) env := by
    intro env hconf hstatus hpath
    refine ⟨by simp [hconf], by simp [hconf], .inl rfl, ?_, hpath⟩
    rintro ⟨state, hs, hrun⟩
    rw [hconf, hstatus] at hs
    cases hs
    cases hrun
  have hlock : ∀ {env : StartEnv} {ending}, env.lock_round = restarted.lock_round →
      env.child_pid = 4322 → env.attach = restarted.attach →
      LaunchPolls env 500 0 ending → Polled (monitored "" false false false) env ending := by
    intro env ending hround hpid hattach h
    refine .child_pid (by decide) (by rw [hround]; rfl) (.inr (by rw [hround]; rfl)) ?_
      (by rw [hround, hpid]; rfl) (.attached (by decide) (by rw [hattach]; rfl) h)
    rw [hround, hpid]
    rintro (h | h | h)
    · cases h
    · cases h
    · cases h.2
  refine ⟨by decide, ?_, ?_⟩
  · rintro ⟨-, h⟩
    have hl := hlaunched shut_down_early rfl rfl rfl
    have hfinal : StatusCheckResult.deactivating.Final := by
      simp [StatusCheckResult.Final, StatusCheckResult.Starting]
    have hp : Polled (monitored "" false false false) shut_down_early (.status .deactivating) :=
      hlock rfl rfl rfl (.status (by decide) (by decide) rfl rfl hfinal)
    exact (reason_fits_iff _ (by decide) hl hp).mp (h (by decide) hl _ hp) (.inr (.inl rfl))
  · rintro ⟨-, h⟩
    have hl := hlaunched misattached rfl rfl rfl
    have hp : Polled (monitored "" false false false) misattached .foreign_status_pid :=
      hlock rfl rfl rfl (.foreign_status_pid (by decide) (by decide) (by decide))
    exact (reason_fits_iff _ (by decide) hl hp).mp (h (by decide) hl _ hp) (.inl rfl)

end tateyama_bootstrap.process
