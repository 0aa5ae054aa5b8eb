-- `SIGKILL` in the runs of control.cpp. `tgctl_kill` reads the pid without a look at the
-- lock and leaves that to its callers: `tgctl_shutdown_kill` looks first, and
-- `tgctl_start` in force mode does not.
import TateyamaBootstrap.ProcessReports

namespace tateyama_bootstrap.process

open monitor_output Command

/-- `kill(pid, SIGKILL)` for some pid. -/
def Event.IsKill (e : Event) : Prop := ∃ pid, e = .sigkill pid

/-- Before every `SIGKILL` of the run, a check has seen the lock file locked. -/
def SeenLocked (log : List Event) : Prop := Follows (· = .checked .locked) Event.IsKill log

def Event.sigkill? : Event → Option Int
  | .sigkill pid => some pid
  | _ => none

theorem seenLocked_of_blank {α : Type} {x : Cmd α} (h : Blank Event.sigkill? x) :
    SeenLocked x.log := by
  refine follows_of_none ?_
  rintro w hw ⟨pid, rfl⟩
  have hnone := List.filterMap_eq_nil_iff.mp h _ hw
  cases hnone

/-! ## The parts that kill nobody -/

theorem blank_write {e : Event} (h : e.sigkill? = none) :
    Blank Event.sigkill? (.write e : Cmd Unit) :=
  (Quiet.unseen h).blank

theorem blank_pure {α : Type} (a : α) : Blank Event.sigkill? (pure a : Cmd α) := Quiet.pure.blank

theorem blank_tell (m : Bool) (r : monitor_output.Record) :
    Blank Event.sigkill? (tell m r : Cmd Unit) := by
  cases m with
  | true => exact blank_write rfl
  | false => exact blank_pure _

theorem blank_close (m : Bool) (flow : Flow) :
    Blank Event.sigkill? (flow.close m : Cmd ReturnCode) := by
  cases flow with
  | returns rtnv => exact blank_pure _
  | goes_on rtnv reason => exact (blank_tell m _).bind fun _ => blank_pure _

theorem blank_status_check (bst_conf : BootstrapConfiguration) (env : StatusEnv) :
    Blank Event.sigkill? (status_check_internal bst_conf env) :=
  (quiet_status_check (fun _ => rfl) bst_conf env).blank

theorem blank_open_lock_file (opens : Bool) : Blank Event.sigkill? (open_lock_file opens) := by
  cases opens with
  | true => exact blank_pure _
  | false => exact Blank.raise

theorem blank_attach_status_info (attaches : Bool) :
    Blank Event.sigkill? (attach_status_info attaches) := by
  cases attaches with
  | true => exact blank_pure _
  | false => exact Blank.raise

theorem blank_shutdown_rounds (env : ShutdownEnv) (n i : Nat) :
    Blank Event.sigkill? (shutdown_rounds env n i) := by
  induction n generalizing i with
  | zero => exact blank_pure _
  | succ n ih =>
    refine (blank_write rfl).bind fun _ => ?_
    split
    · exact blank_pure _
    · exact ih _

theorem blank_tgctl_shutdown (flags : Flags) (env : ShutdownEnv) :
    Blank Event.sigkill? (tgctl_shutdown flags env) := by
  unfold tgctl_shutdown
  split
  · exact blank_pure _
  · split
    · exact blank_pure _
    · exact blank_shutdown_rounds _ _ _

theorem blank_launch_rounds (m : Bool) (env : StartEnv) (check_count fuel i : Nat) :
    Blank Event.sigkill? (launch_rounds m env check_count fuel i) := by
  induction fuel generalizing i with
  | zero => exact blank_pure _
  | succ fuel ih =>
    unfold launch_rounds
    split
    · split
      · exact ih _
      · split
        · refine (blank_status_check _ _).bind fun state => ?_
          cases state with
          | activated | not_locked | boot_error =>
            exact (blank_tell m _).bind fun _ => blank_pure _
          | no_file | initial | ready | status_check_count_over => exact ih _
          | deactivating | deactivated | undefined | error_in_conf_file_name
          | error_in_create_conf | error_in_file_mutex_check => exact blank_pure _
        · exact blank_pure _
    · exact blank_pure _

theorem blank_confirm (flags : Flags) (m : Bool) (env : StartEnv) :
    Blank Event.sigkill? (confirm flags m env) := by
  unfold confirm
  dsimp only
  split
  · refine (quiet_lock_rounds (fun _ => rfl) _ _ _).blank.bind fun ⟨check_result, chkn⟩ => ?_
    cases check_result with
    | ok =>
      dsimp only
      split
      · refine (blank_launch_rounds _ _ _ _ _).bind fun flow => ?_
        cases flow <;> exact blank_pure _
      · split
        · exact (blank_write rfl).bind fun _ => blank_pure _
        · exact blank_pure _
    | another | dead_abnormally | init => exact blank_pure _
  · exact blank_pure _

theorem blank_launch (flags : Flags) (m need_check : Bool) (mode : BootMode) (env : StartEnv) :
    Blank Event.sigkill? (launch flags m need_check mode env) := by
  refine (blank_status_check _ _).bind fun state => ?_
  split
  · exact (blank_tell m _).bind fun _ => blank_pure _
  · split
    · exact blank_pure _
    · exact Blank.raise
    · refine (blank_write rfl).bind fun _ => ?_
      split
      · exact blank_confirm _ _ _
      · exact blank_pure _

/-! ## The kill -/

section

variable {α β : Type} {x : Cmd α} {f : α → Cmd β} {handler : Error → Cmd α} {a : α}

/-- What comes after a part that has killed nobody. -/
theorem seenLocked_after (hx : Blank Event.sigkill? x) (ha : x.result = .ok a) :
    SeenLocked (x >>= f).log ↔ .checked .locked ∈ x.log ∨ SeenLocked (f a).log := by
  have hfirst : Follows (· = .checked .locked) Event.IsKill x.log := seenLocked_of_blank hx
  unfold SeenLocked
  rw [log_bind ha, follows_append]
  simp [hfirst]

theorem seenLocked_of_append {l l' : List Event} (h : SeenLocked (l ++ l')) : SeenLocked l :=
  (follows_append.mp h).1

/-- What comes before a part that kills nobody. -/
theorem seenLocked_bind (hf : ∀ a, Blank Event.sigkill? (f a)) :
    SeenLocked (x >>= f).log ↔ SeenLocked x.log := by
  obtain ⟨l, hl, hrest⟩ := log_bind_append x f
  rw [hl]
  refine ⟨seenLocked_of_append, fun h => follows_append.mpr ⟨h, .inr ?_⟩⟩
  rcases hrest with rfl | ⟨a, rfl⟩
  · exact follows_of_none (by simp)
  · exact seenLocked_of_blank (hf a)

theorem seenLocked_handle (hh : ∀ e, Blank Event.sigkill? (handler e)) :
    SeenLocked (x.handle handler).log ↔ SeenLocked x.log := by
  obtain ⟨l, hl, hrest⟩ := log_handle_append x handler
  rw [hl]
  refine ⟨seenLocked_of_append, fun h => follows_append.mpr ⟨h, .inr ?_⟩⟩
  rcases hrest with rfl | ⟨e, rfl⟩
  · exact follows_of_none (by simp)
  · exact seenLocked_of_blank (hh e)

end

theorem framed_seenLocked_iff (m : Bool) (x : Cmd Flow) :
    SeenLocked (framed m x).log ↔ SeenLocked x.log := by
  have hstart : (start m : Cmd Unit).result = .ok () ∧
      .checked .locked ∉ (start m : Cmd Unit).log := by
    cases m with
    | true => exact ⟨rfl, by simp [start, monitor_output.tell, write, Monitored.record]⟩
    | false => exact ⟨rfl, by simp [start, monitor_output.tell, pure]⟩
  have hblank : Blank Event.sigkill? (start m : Cmd Unit) := blank_tell m _
  unfold framed
  rw [seenLocked_after hblank hstart.1, seenLocked_bind (blank_close m)]
  simp [hstart.2]

theorem tgctl_kill_seenLocked_iff (flags : Flags) (env : KillEnv) :
    SeenLocked (tgctl_kill flags env).log ↔ env.pid = 0 := by
  unfold tgctl_kill
  split
  · rename_i hpid
    refine iff_of_false ?_ hpid
    intro h
    exact ((follows_cons _).mp h).1 ⟨env.pid, rfl⟩
  · rename_i hpid
    exact iff_of_true (seenLocked_of_blank (blank_pure _)) (not_not.mp hpid)

theorem boot_seenLocked_iff (flags : Flags) (m need_check : Bool) (mode : BootMode)
    (env : StartEnv) :
    SeenLocked (boot flags m need_check mode env).log ↔
      (env.bst_conf.valid → flags.start_mode = "force" → env.lock_file_opens →
        env.kill.pid = 0) := by
  unfold boot
  cases env.bst_conf.valid with
  | false => exact iff_of_true (seenLocked_of_blank (blank_pure _)) (by simp)
  | true =>
    rw [if_pos rfl]
    by_cases hforce : flags.start_mode = "force"
    · rw [if_neg (by rw [hforce]; decide), if_pos hforce]
      cases env.lock_file_opens with
      | false => exact iff_of_true (seenLocked_of_blank Blank.raise) (by simp)
      | true =>
        have hopen : (open_lock_file true).log = [] ∧ (open_lock_file true).result = .ok () :=
          ⟨rfl, rfl⟩
        rw [seenLocked_after (blank_open_lock_file true) hopen.2, hopen.1, seenLocked_bind,
          tgctl_kill_seenLocked_iff]
        · simp [hforce]
        · intro rtnv
          cases rtnv with
          | ok => exact blank_launch _ _ _ _ _
          | err => exact (blank_tell m _).bind fun _ => blank_pure _
    · refine iff_of_true (seenLocked_of_blank ?_) (by simp [hforce])
      split
      · exact blank_launch _ _ _ _ _
      · exact (blank_tell m _).bind fun _ => blank_pure _

theorem blank_after_stop (m : Bool) (rtnv : ReturnCode) :
    Blank Event.sigkill? (after_stop m rtnv) := by
  cases rtnv with
  | ok => exact (blank_tell m _).bind fun _ => blank_pure _
  | err => exact blank_pure _

theorem stop_seenLocked_iff (flags : Flags) (m force : Bool) (env : ShutdownKillEnv) :
    SeenLocked (stop flags m force env).log ↔ (force → env.kill.pid = 0) := by
  unfold stop
  cases force with
  | true =>
    rw [if_pos rfl, seenLocked_bind (blank_after_stop m), tgctl_kill_seenLocked_iff]
    simp
  | false =>
    rw [if_neg Bool.false_ne_true]
    refine iff_of_true (seenLocked_of_blank ?_) (by simp)
    refine (blank_attach_status_info _).bind fun _ => ?_
    split
    · exact (blank_tgctl_shutdown _ _).bind (blank_after_stop m)
    · exact blank_pure _

/-- Once the lock file has been opened, or has not. -/
theorem open_stop_seenLocked_iff (flags : Flags) (m force : Bool) (env : ShutdownKillEnv) :
    SeenLocked (do open_lock_file env.lock_file_opens; stop flags m force env : Cmd Flow).log ↔
      (force → env.lock_file_opens → env.kill.pid = 0) := by
  cases env.lock_file_opens with
  | false => exact iff_of_true (seenLocked_of_blank Blank.raise) (by simp)
  | true =>
    have hopen : (open_lock_file true).log = [] ∧ (open_lock_file true).result = .ok () :=
      ⟨rfl, rfl⟩
    rw [seenLocked_after (blank_open_lock_file true) hopen.2, hopen.1, stop_seenLocked_iff]
    simp

/-- The command looks first. A lock that it cannot look at does not stop it. -/
theorem shutdown_kill_try_seenLocked_iff (flags : Flags) (m force : Bool) (env : ShutdownKillEnv)
    (hv : env.bst_conf.valid) (hc : env.bst_conf.configuration) :
    SeenLocked (shutdown_kill_try flags m force env).log ↔
      (force → env.status.check = .error → env.lock_file_opens → env.kill.pid = 0) := by
  obtain ⟨state, hs⟩ := status_check_quiet env.bst_conf env.status
  have hlog : (status_check_internal env.bst_conf env.status).log =
      [.checked env.status.check] := by
    simp only [status_check_internal, hv, hc]
    cases env.status.check <;> rfl
  have hstate := hs.result
  unfold shutdown_kill_try
  rw [seenLocked_after (blank_status_check _ _) hs.result, hlog]
  simp only [status_check_internal, hv, hc] at hstate
  cases hst : env.status.check with
  | locked => simp
  | error =>
    rw [hst] at hstate
    obtain rfl : StatusCheckResult.error_in_file_mutex_check = state := Except.ok.inj hstate
    rw [if_neg (by decide), open_stop_seenLocked_iff]
    simp
  | no_file | not_locked =>
    rw [hst] at hstate
    obtain rfl := Except.ok.inj hstate
    rw [if_pos (by decide)]
    refine iff_of_true (.inr (seenLocked_of_blank ?_)) (by simp)
    exact (blank_tell m _).bind fun _ => blank_pure _

theorem blank_shutdown_kill_catch (flags : Flags) (e : Error) :
    Blank Event.sigkill? (shutdown_kill_catch flags e) := by
  unfold shutdown_kill_catch
  split
  · split
    · split <;> exact blank_pure _
    · exact blank_pure _
  · exact Blank.raise

theorem shutdown_kill_seenLocked_iff (flags : Flags) (m force : Bool) (env : ShutdownKillEnv) :
    SeenLocked (shutdown_kill flags m force env).log ↔
      (env.bst_conf.valid → env.bst_conf.configuration → force → env.status.check = .error →
        env.lock_file_opens → env.kill.pid = 0) := by
  unfold shutdown_kill
  cases hv : env.bst_conf.valid with
  | false => exact iff_of_true (seenLocked_of_blank (blank_pure _)) (by simp)
  | true =>
    cases hc : env.bst_conf.configuration with
    | false => exact iff_of_true (seenLocked_of_blank (blank_pure _)) (by simp)
    | true =>
      rw [if_pos rfl, if_pos rfl, seenLocked_handle (blank_shutdown_kill_catch flags),
        shutdown_kill_try_seenLocked_iff flags m force env hv hc]
      simp

/-- `SIGKILL` goes only where the lock was seen locked, except for a start in force mode,
which never looks, and for a kill whose look at the lock file has failed. There it goes
to whatever pid the file holds. -/
theorem sigkill_goes_to_the_holder_of_the_lock (flags : Flags) (need_check : Bool)
    (mode : BootMode) (env : StartEnv) (force status_output : Bool) (stop_env : ShutdownKillEnv) :
    (SeenLocked (tgctl_start flags need_check mode env).log ↔
      (env.bst_conf.valid → flags.start_mode = "force" → env.lock_file_opens →
        env.kill.pid = 0)) ∧
    (SeenLocked (tgctl_shutdown_kill flags force status_output stop_env).log ↔
      (stop_env.bst_conf.valid → stop_env.bst_conf.configuration → force →
        stop_env.status.check = .error → stop_env.lock_file_opens → stop_env.kill.pid = 0)) := by
  constructor
  · unfold tgctl_start
    rw [framed_seenLocked_iff, boot_seenLocked_iff]
  · unfold tgctl_shutdown_kill
    rw [framed_seenLocked_iff, shutdown_kill_seenLocked_iff]

theorem sigkill_goes_to_the_holder_of_the_lock_of_a_server :
    SeenLocked (tgctl_start (monitored "" false false false) true .database_server
      restarted).log ∧
    SeenLocked (tgctl_shutdown_kill (monitored "" false false false) true true served).log ∧
    .sigkill 4321 ∈
      (tgctl_shutdown_kill (monitored "" false false false) true true served).log := by
  obtain ⟨hstart, hstop⟩ := sigkill_goes_to_the_holder_of_the_lock
    (monitored "" false false false) true .database_server restarted true true served
  refine ⟨hstart.mpr ?_, hstop.mpr ?_, by decide⟩
  · intro _ hforce
    exact absurd hforce (by decide)
  · intro _ _ _ herror
    cases herror

/-- The lock file of a server that has crashed: nobody holds the lock, and the pid in it may
be that of another process by now. A start in force mode kills that process. -/
theorem a_start_kills_by_a_stale_pid :
    (tgctl_start (monitored "force" false false false) true .database_server
      restarted).log.head? = some (.record .start) ∧
    (tgctl_start (monitored "force" false false false) true .database_server
      restarted).log[1]? = some (Event.sigkill 4321) ∧
    ¬ SeenLocked (tgctl_start (monitored "force" false false false) true .database_server
      restarted).log := by
  refine ⟨by decide, by decide, fun h => ?_⟩
  unfold tgctl_start at h
  rw [framed_seenLocked_iff, boot_seenLocked_iff] at h
  exact absurd (h rfl rfl rfl) (by decide)

end tateyama_bootstrap.process
