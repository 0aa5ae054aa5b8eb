-- The commands of control.cpp tell the monitor the truth, except in the runs that
-- `StartTold` and `StopTold` leave out: there an exception passes the command by, or
-- `rtnv` is `err` while `reason` is still `absent`.
import TateyamaBootstrap.ProcessControl

namespace tateyama_bootstrap.process

open monitor_output Command

variable {α : Type} {x : Cmd Flow} {y : Cmd α} {f : α → Cmd Flow} {a : α} {rc : Reason}
variable {rtnv : ReturnCode}

/-! ## The parts that write no record -/

/-- What a status check observes. -/
def Sees (bst_conf : BootstrapConfiguration) (env : StatusEnv) (state : StatusCheckResult) : Prop :=
  (status_check_internal bst_conf env).result = .ok state

/-- A view that leaves out the checks of the lock. -/
theorem quiet_status_check {V : Type} {view : Event → Option V}
    (hv : ∀ state, view (.checked state) = none) (bst_conf : BootstrapConfiguration)
    (env : StatusEnv) : Quiet view (status_check_internal bst_conf env) := by
  unfold status_check_internal
  split
  · exact Quiet.pure
  · split
    · exact Quiet.pure
    · refine (Quiet.unseen (hv _)).bind fun _ => ?_
      cases env.check <;> exact Quiet.pure

theorem status_check_quiet (bst_conf : BootstrapConfiguration) (env : StatusEnv) :
    Quiet Monitored.record? (status_check_internal bst_conf env) :=
  quiet_status_check (fun _ => rfl) bst_conf env

theorem Sees.unique {bst_conf : BootstrapConfiguration} {env : StatusEnv}
    {state state' : StatusCheckResult} (h : Sees bst_conf env state)
    (h' : Sees bst_conf env state') : state = state' := by
  unfold Sees at h h'
  rw [h] at h'
  cases h'
  rfl

/-- The server is seen to have let go of the lock in one of the rounds. -/
def Released (env : KillEnv) (n i : Nat) : Prop :=
  Within (fun k => Sees (env.bst_conf k) (env.status k) .not_locked) n i

/-- `tgctl_kill` finds a pid, and sees the server gone in time. -/
def Killed (flags : Flags) (env : KillEnv) : Prop :=
  env.pid ≠ 0 ∧
    Released env (check_count check_count_kill sleep_time_unit_regular flags.timeout) 0

/-- The three ends of `tgctl_kill`. -/
def KillEnds (env : KillEnv) (killed : Prop) (x : Cmd ReturnCode) : Prop :=
  killed ∧ env.attaches ∧ Ends x [] (.ok .ok) ∨
  killed ∧ ¬ env.attaches ∧ Ends x [] (.error no_shared_memory) ∨
  ¬ killed ∧ Ends x [] (.ok .err)

theorem kill_rounds_ends (env : KillEnv) (n i : Nat) :
    KillEnds env (Released env n i) (kill_rounds env n i) := by
  induction n generalizing i with
  | zero => exact .inr (.inr ⟨not_within_zero, Ends.pure⟩)
  | succ n ih =>
    obtain ⟨state, hs⟩ := status_check_quiet (env.bst_conf i) (env.status i)
    by_cases hl : state = .not_locked
    · subst hl
      have hr : Released env (n + 1) i := within_now hs.result
      cases ha : env.attaches with
      | true =>
        refine .inl ⟨hr, ha, hs.after ?_⟩
        rw [if_pos rfl, ha]
        exact Ends.after Ends.pure Ends.pure
      | false =>
        refine .inr (.inl ⟨hr, by simp [ha], hs.after ?_⟩)
        rw [if_pos rfl, ha]
        exact Ends.stop Ends.raise
    · have hiff : Released env (n + 1) i ↔ Released env n (i + 1) :=
        within_next (fun h => hl (Sees.unique hs.result h))
      have hstep : ∀ r, Ends (kill_rounds env n (i + 1)) [] r →
          Ends (kill_rounds env (n + 1) i) [] r := by
        intro r h
        refine hs.after ?_
        rw [if_neg hl]
        exact h
      rw [hiff]
      rcases ih (i + 1) with ⟨h, ha, he⟩ | ⟨h, ha, he⟩ | ⟨h, he⟩
      · exact .inl ⟨h, ha, hstep _ he⟩
      · exact .inr (.inl ⟨h, ha, hstep _ he⟩)
      · exact .inr (.inr ⟨h, hstep _ he⟩)

theorem tgctl_kill_ends (flags : Flags) (env : KillEnv) :
    KillEnds env (Killed flags env) (tgctl_kill flags env) := by
  by_cases hp : env.pid = 0
  · refine .inr (.inr ⟨fun h => h.1 hp, ?_⟩)
    rw [tgctl_kill, if_neg (not_not.mpr hp)]
    exact Ends.pure
  · have hstep : ∀ r, Ends (kill_rounds env
        (check_count check_count_kill sleep_time_unit_regular flags.timeout) 0) [] r →
        Ends (tgctl_kill flags env) [] r := by
      intro r h
      rw [tgctl_kill, if_pos hp]
      exact (Ends.unseen rfl).after h
    rcases kill_rounds_ends env
        (check_count check_count_kill sleep_time_unit_regular flags.timeout) 0
      with ⟨h, ha, he⟩ | ⟨h, ha, he⟩ | ⟨h, he⟩
    · exact .inl ⟨⟨hp, h⟩, ha, hstep _ he⟩
    · exact .inr (.inl ⟨⟨hp, h⟩, ha, hstep _ he⟩)
    · exact .inr (.inr ⟨fun hk => h hk.2, hstep _ he⟩)

/-- The lock file is seen to be gone in one of the rounds. -/
def Gone (env : ShutdownEnv) (n i : Nat) : Prop := Within (fun k => env.check k = .no_file) n i

/-- `tgctl_shutdown` asks for the shutdown, and sees the server gone in time. -/
def ShutDown (flags : Flags) (env : ShutdownEnv) : Prop :=
  ¬ (flags.graceful ∧ flags.forceful) ∧ env.request_shutdown ∧
    Gone env (check_count check_count_shutdown sleep_time_unit_shutdown flags.timeout) 0

theorem shutdown_rounds_ends (env : ShutdownEnv) (n i : Nat) :
    Gone env n i ∧ Ends (shutdown_rounds env n i) [] (.ok .ok) ∨
    ¬ Gone env n i ∧ Ends (shutdown_rounds env n i) [] (.ok .err) := by
  induction n generalizing i with
  | zero => exact .inr ⟨not_within_zero, Ends.pure⟩
  | succ n ih =>
    by_cases hg : env.check i = .no_file
    · refine .inl ⟨within_now hg, (Ends.unseen rfl).after ?_⟩
      rw [if_pos hg]
      exact Ends.pure
    · have hiff : Gone env (n + 1) i ↔ Gone env n (i + 1) := within_next hg
      have hstep : ∀ r, Ends (shutdown_rounds env n (i + 1)) [] r →
          Ends (shutdown_rounds env (n + 1) i) [] r := by
        intro r h
        refine (Ends.unseen rfl).after ?_
        rw [if_neg hg]
        exact h
      rw [hiff]
      exact (ih (i + 1)).imp (fun h => ⟨h.1, hstep _ h.2⟩) (fun h => ⟨h.1, hstep _ h.2⟩)

theorem tgctl_shutdown_ends (flags : Flags) (env : ShutdownEnv) :
    ShutDown flags env ∧ Ends (tgctl_shutdown flags env) [] (.ok .ok) ∨
    ¬ ShutDown flags env ∧ Ends (tgctl_shutdown flags env) [] (.ok .err) := by
  unfold tgctl_shutdown
  split
  · rename_i h
    rw [Bool.and_eq_true] at h
    exact .inr ⟨fun hd => hd.1 h, Ends.pure⟩
  · rename_i h
    rw [Bool.and_eq_true] at h
    split
    · rename_i hr
      refine .inr ⟨fun hd => ?_, Ends.pure⟩
      rw [hd.2.1] at hr
      cases hr
    · rename_i hr
      rw [Bool.not_eq_true, Bool.not_eq_false'] at hr
      rcases shutdown_rounds_ends env
          (check_count check_count_shutdown sleep_time_unit_shutdown flags.timeout) 0
        with ⟨hg, he⟩ | ⟨hg, he⟩
      · exact .inl ⟨⟨h, hr, hg⟩, he⟩
      · exact .inr ⟨fun hd => hg hd.2.2, he⟩

/-! ## shutdown and kill -/

/-- The handler has a reason to give when it may speak. -/
theorem thrown_truthful_iff {flags : Flags} {code : Reason} {what : String}
    (h : Ends x [] (.error (.runtime_error code what))) :
    Truthful (framed true (x.handle (shutdown_kill_catch flags))) ↔ flags.quiet = false := by
  have htells : ∀ {rc}, shutdown_kill_catch flags (.runtime_error code what) =
      pure (.goes_on .err rc) → Tells (x.handle (shutdown_kill_catch flags)) rc .err := by
    intro rc hc
    have hc' : Ends (shutdown_kill_catch flags (.runtime_error code what)) []
        (.ok (.goes_on .err rc)) := hc ▸ Ends.pure
    exact tells_of_error (by simp) h hc'
  cases hq : flags.quiet with
  | true =>
    have hc : shutdown_kill_catch flags (.runtime_error code what) =
        pure (.goes_on .err .absent) := by simp [shutdown_kill_catch, hq]
    rw [(htells hc).truthful_iff]
    simp
  | false =>
    by_cases hw : what = "the lock file does not exist"
    · have hc : shutdown_kill_catch flags (.runtime_error code what) =
          pure (.goes_on .err .invalid_status) := by simp [shutdown_kill_catch, hq, hw]
      rw [(htells hc).truthful_iff]
      simp
    · have hc : shutdown_kill_catch flags (.runtime_error code what) =
          pure (.goes_on .err .ambiguous) := by simp [shutdown_kill_catch, hq, hw]
      rw [(htells hc).truthful_iff]
      simp

/-- Nothing runs that could be stopped. -/
def Stopped (env : ShutdownKillEnv) : Prop :=
  ∃ state, Sees env.bst_conf env.status state ∧ state.stopped

/-- Where there is a server to stop, `tgctl_kill` and `tgctl_shutdown` do not return `err`,
and nothing is thrown when `--quiet` is given. -/
def StopTold (flags : Flags) (force : Bool) (env : ShutdownKillEnv) : Prop :=
  env.bst_conf.valid → env.bst_conf.configuration → ¬ Stopped env →
    (flags.quiet → env.lock_file_opens) ∧
    (env.lock_file_opens → force →
      Killed flags env.kill ∧ (flags.quiet → env.kill.attaches)) ∧
    (env.lock_file_opens → ¬ force →
      (flags.quiet → env.attaches) ∧
      (env.attaches → ¬ env.is_shutdown_requested → ShutDown flags env.shutdown))

theorem after_stop_tells (rtnv : ReturnCode) : Tells (after_stop true rtnv) .absent rtnv := by
  cases rtnv with
  | ok => exact tells_returns
  | err => exact tells_goes_on

section

variable {flags : Flags} {env : ShutdownKillEnv} {force : Bool}

/-- The ends of `stop`: with a reason that agrees with `rtnv` exactly when the server has
been stopped or somebody else has asked for it, or with an exception. -/
theorem stop_force_truthful_iff :
    Truthful (framed true ((stop flags true true env).handle (shutdown_kill_catch flags))) ↔
      Killed flags env.kill ∧ (flags.quiet → env.kill.attaches) := by
  have hend : ∀ {rtnv}, Ends (tgctl_kill flags env.kill) [] (.ok rtnv) →
      Tells ((stop flags true true env).handle (shutdown_kill_catch flags)) .absent rtnv :=
    fun h => Tells.handle (Tells.after h (after_stop_tells _))
  rcases tgctl_kill_ends flags env.kill with ⟨hk, ha, he⟩ | ⟨hk, ha, he⟩ | ⟨hk, he⟩
  · rw [(hend he).truthful_iff]
    simp [hk, ha]
  · have hs : Ends (stop flags true true env) [] (.error no_shared_memory) := Ends.stop he
    rw [thrown_truthful_iff hs]
    simp [hk, ha]
  · rw [(hend he).truthful_iff]
    simp [hk]

theorem stop_truthful_iff :
    Truthful (framed true ((stop flags true false env).handle (shutdown_kill_catch flags))) ↔
      (flags.quiet → env.attaches) ∧
      (env.attaches → ¬ env.is_shutdown_requested → ShutDown flags env.shutdown) := by
  cases ha : env.attaches with
  | false =>
    have hs : Ends (stop flags true false env) [] (.error no_shared_memory) := by
      unfold stop
      rw [ha]
      exact Ends.stop Ends.raise
    rw [thrown_truthful_iff hs]
    simp
  | true =>
    have hattach : Ends (attach_status_info env.attaches) [] (.ok ()) := by
      rw [ha]
      exact Ends.pure
    cases hr : env.is_shutdown_requested with
    | true =>
      have hs : Tells (stop flags true false env) .invalid_status .err := by
        refine Tells.after hattach ?_
        rw [hr]
        exact tells_goes_on
      rw [hs.handle.truthful_iff]
      simp
    | false =>
      have hend : ∀ {rtnv}, Ends (tgctl_shutdown flags env.shutdown) [] (.ok rtnv) →
          Tells (stop flags true false env) .absent rtnv := by
        intro rtnv h
        refine Tells.after hattach ?_
        rw [hr]
        exact Tells.after h (after_stop_tells _)
      rcases tgctl_shutdown_ends flags env.shutdown with ⟨hd, he⟩ | ⟨hd, he⟩
      · rw [(hend he).handle.truthful_iff]
        simp [hd]
      · rw [(hend he).handle.truthful_iff]
        simp [hd]

theorem shutdown_kill_truthful_iff :
    Truthful (framed true (shutdown_kill flags true force env)) ↔ StopTold flags force env := by
  unfold shutdown_kill shutdown_kill_try StopTold
  cases env.bst_conf.valid with
  | false =>
    rw [if_neg Bool.false_ne_true, tells_goes_on.truthful_iff]
    simp
  | true =>
    cases env.bst_conf.configuration with
    | false =>
      rw [if_pos rfl, if_neg Bool.false_ne_true, tells_goes_on.truthful_iff]
      simp
    | true =>
      rw [if_pos rfl, if_pos rfl]
      obtain ⟨state, hs⟩ := status_check_quiet env.bst_conf env.status
      rw [truthful_congr (framed_same (Ends.same hs).handle)]
      have hstopped : Stopped env ↔ state.stopped :=
        ⟨fun ⟨_, h, h'⟩ => Sees.unique h hs.result ▸ h', fun h => ⟨state, hs.result, h⟩⟩
      by_cases hst : state.stopped
      · rw [if_pos hst, tells_returns.handle.truthful_iff]
        simp [hstopped, hst]
      · rw [if_neg hst]
        cases hopens : env.lock_file_opens with
        | false =>
          have hthrown : Ends (do open_lock_file false; stop flags true force env) []
              (.error lock_file_does_not_exist) := Ends.stop Ends.raise
          rw [thrown_truthful_iff hthrown]
          simp [hstopped, hst]
        | true =>
          have hopen : Ends (open_lock_file true) [] (.ok ()) := Ends.pure
          rw [truthful_congr (framed_same (Ends.same hopen).handle)]
          cases force with
          | true =>
            rw [stop_force_truthful_iff]
            simp [hstopped, hst]
          | false =>
            rw [stop_truthful_iff]
            simp [hstopped, hst]

end

/-! ## status -/

theorem tgctl_status_truthful {flags : Flags} (hm : flags.monitor ≠ "")
    (bst_conf : BootstrapConfiguration) (env : StatusEnv) :
    Truthful (tgctl_status flags bst_conf env) := by
  have htold : ∀ stat, Ends (tgctl_status.told true stat) [.status stat, .finish .absent]
      (.ok .ok) :=
    fun stat => (ends_tell _).bind ((ends_finish _).bind Ends.pure)
  have herr : ∀ rc, Ends (Flow.close true (.goes_on .err rc) : Cmd ReturnCode) [.finish rc]
      (.ok .err) :=
    fun rc => (ends_finish rc).bind Ends.pure
  have hmon : (!flags.monitor.isEmpty) = true := by simpa using hm
  obtain ⟨state, hs⟩ := status_check_quiet bst_conf env
  -- a status that the command can tell, or a reason that is not `absent`
  have hok : ∀ {stat}, Ends (tgctl_status flags bst_conf env)
      (.start :: [.status stat] ++ [.finish .absent]) (.ok .ok) →
      Truthful (tgctl_status flags bst_conf env) :=
    fun h => (truthful_iff h (by simp [Record.IsData])).mpr (by simp)
  have hfail : ∀ {rc}, rc ≠ .absent → Ends (tgctl_status flags bst_conf env)
      (.start :: [] ++ [.finish rc]) (.ok .err) → Truthful (tgctl_status flags bst_conf env) :=
    fun hrc h => (truthful_iff h (by simp)).mpr (by simp [hrc])
  unfold tgctl_status at hok hfail ⊢
  rw [hmon] at hok hfail ⊢
  cases state with
  | no_file | initial | ready | activated | deactivating | deactivated | not_locked =>
    exact hok (ends_start.bind (hs.after (htold _)))
  | status_check_count_over | error_in_create_conf | error_in_conf_file_name | undefined
  | boot_error | error_in_file_mutex_check =>
    exact hfail (by decide) (ends_start.bind (hs.after (herr _)))

/-! ## start -/

section

variable {flags : Flags} {env : StartEnv}

theorem quiet_lock_rounds {V : Type} {view : Event → Option V}
    (hv : ∀ state, view (.checked state) = none) (n i : Nat) (file_mutex : Bool) :
    Quiet view (lock_rounds env n i file_mutex) := by
  induction n generalizing i file_mutex with
  | zero => exact Quiet.pure
  | succ n ih =>
    unfold lock_rounds
    dsimp only
    split
    · exact Quiet.pure
    · split
      · exact ih _ _
      · refine (Quiet.unseen (hv _)).bind fun _ => ?_
        split
        · split
          · exact Quiet.pure
          · split
            · exact Quiet.pure
            · exact ih _ _
        · exact ih _ _

/-- The loop returns with a finish record that agrees, or it is left without one. -/
theorem launch_rounds_ends (env : StartEnv) (check_count fuel i : Nat) :
    (∃ rtnv rc, Ends (launch_rounds true env check_count fuel i) [.finish rc]
      (.ok (.returns rtnv)) ∧ (rc = .absent ↔ rtnv = .ok)) ∨
    ∃ rtnv rc, Ends (launch_rounds true env check_count fuel i) [] (.ok (.goes_on rtnv rc)) := by
  induction fuel generalizing i with
  | zero => exact .inr ⟨_, _, Ends.pure⟩
  | succ fuel ih =>
    unfold launch_rounds
    split
    · split
      · exact ih _
      · split
        · obtain ⟨state, hs⟩ := status_check_quiet env.bst_conf (env.launch_status i)
          cases state with
          | activated =>
            refine .inl ⟨.ok, .absent, hs.after ((ends_finish _).bind Ends.pure), ?_⟩
            simp
          | not_locked | boot_error =>
            refine .inl ⟨.err, .ambiguous, hs.after ((ends_finish _).bind Ends.pure), ?_⟩
            simp
          | no_file | initial | ready | status_check_count_over =>
            rcases ih _ with ⟨rtnv, rc, h, hagree⟩ | ⟨rtnv, rc, h⟩
            · exact .inl ⟨rtnv, rc, hs.after h, hagree⟩
            · exact .inr ⟨rtnv, rc, hs.after h⟩
          | deactivating | deactivated | undefined | error_in_conf_file_name
          | error_in_create_conf | error_in_file_mutex_check =>
            exact .inr ⟨_, _, hs.after Ends.pure⟩
        · exact .inr ⟨_, _, Ends.pure⟩
    · exact .inr ⟨_, _, Ends.pure⟩

theorem confirm_agrees : Agrees (confirm flags true env) := by
  unfold confirm
  dsimp only
  split
  · refine Agrees.after (quiet_lock_rounds (fun _ => rfl) _ _ _) fun ⟨check_result, chkn⟩ => ?_
    cases check_result with
    | ok =>
      dsimp only
      split
      · rename_i chkn' _
        rcases launch_rounds_ends env
            (check_count check_count_startup sleep_time_unit_regular flags.timeout)
            (check_count check_count_startup sleep_time_unit_regular flags.timeout) chkn'
          with ⟨rtnv, rc, h, hagree⟩ | ⟨rtnv, rc, h⟩
        · exact ⟨rc, rtnv, ⟨[], by simp, .inr (h.bind Ends.pure)⟩, hagree⟩
        · exact ⟨.timeout, .err, ⟨[], by simp, .inl (h.bind Ends.pure)⟩, by simp⟩
      · split
        · exact Agrees.after (Quiet.unseen rfl) fun _ => agrees_goes_on (by decide)
        · exact agrees_goes_on (by decide)
    | another => exact agrees_goes_on (by decide)
    | dead_abnormally => exact agrees_goes_on (by decide)
    | init => exact agrees_goes_on (by decide)
  · exact agrees_goes_on (by decide)

/-- A server runs already. -/
def Running (env : StartEnv) : Prop :=
  ∃ state, Sees env.bst_conf env.status state ∧ state.running

/-- In force mode the lock file is there, and so is the status info of the server that is
killed; and where `get_base_path` is called, it does not throw. -/
def StartTold (flags : Flags) (env : StartEnv) : Prop :=
  env.bst_conf.valid →
    (flags.start_mode = "force" →
      env.lock_file_opens ∧ (Killed flags env.kill → env.kill.attaches)) ∧
    (flags.start_mode = "" ∨ flags.start_mode = "force" ∧ Killed flags env.kill →
      ¬ Running env → env.get_base_path = .ok ())

theorem launch_truthful_iff (mode : BootMode) :
    Truthful (framed true (launch flags true true mode env)) ↔
      (¬ Running env → env.get_base_path = .ok ()) := by
  obtain ⟨state, hs⟩ := status_check_quiet env.bst_conf env.status
  have hrunning : Running env ↔ state.running :=
    ⟨fun ⟨_, h, h'⟩ => Sees.unique h hs.result ▸ h', fun h => ⟨state, hs.result, h⟩⟩
  unfold launch
  rw [truthful_congr (framed_same (Ends.same hs)), hrunning]
  by_cases hr : state.running
  · rw [if_pos hr, tells_returns.truthful_iff]
    simp [hr]
  · rw [if_neg hr]
    rcases hb : env.get_base_path with e | _
    · have hne : (¬ state.running → (Except.error e : Except Error Unit) = .ok ()) ↔ False := by
        simp [hr]
      rw [hne, iff_false]
      cases e with
      | runtime_error code what => exact framed_of_returns Ends.pure
      | out_of_range => exact framed_of_error Ends.raise
      | exception what => exact framed_of_error Ends.raise
    · refine iff_of_true ?_ (fun _ => rfl)
      exact (Agrees.after (Quiet.unseen rfl) fun _ => confirm_agrees).truthful

theorem boot_truthful_iff (mode : BootMode) :
    Truthful (framed true (boot flags true true mode env)) ↔ StartTold flags env := by
  unfold boot StartTold
  cases env.bst_conf.valid with
  | false =>
    rw [if_neg Bool.false_ne_true, tells_goes_on.truthful_iff]
    simp
  | true =>
    rw [if_pos rfl]
    by_cases hempty : flags.start_mode = ""
    · rw [if_pos (by simp [hempty]), launch_truthful_iff]
      simp [hempty]
    · rw [if_neg (by simpa using hempty)]
      by_cases hforce : flags.start_mode = "force"
      · rw [if_pos hforce]
        cases hopens : env.lock_file_opens with
        | false =>
          refine iff_of_false (framed_of_error (Ends.stop Ends.raise)) ?_
          simp [hforce]
        | true =>
          have hopen : Ends (open_lock_file true) [] (.ok ()) := Ends.pure
          rw [truthful_congr (framed_same (Ends.same hopen))]
          rcases tgctl_kill_ends flags env.kill with ⟨hk, ha, he⟩ | ⟨hk, ha, he⟩ | ⟨hk, he⟩
          · rw [truthful_congr (framed_same (Ends.same he)), launch_truthful_iff]
            simp [hforce, hk, ha]
          · refine iff_of_false (framed_of_error (Ends.stop he)) ?_
            simp [hforce, hk, ha]
          · rw [truthful_congr (framed_same (Ends.same he)), tells_returns.truthful_iff]
            simp [hforce, hk]
      · rw [if_neg hforce, tells_returns.truthful_iff]
        simp [hempty, hforce]

end

/-- The commands of control.cpp tell the monitor the truth in exactly these runs. -/
theorem the_monitor_is_told_the_truth (flags : Flags) (hm : flags.monitor ≠ "") :
    (∀ mode env, Truthful (tgctl_start flags true mode env) ↔ StartTold flags env) ∧
    (∀ force env, Truthful (tgctl_shutdown_kill flags force true env) ↔
      StopTold flags force env) ∧
    ∀ bst_conf env, Truthful (tgctl_status flags bst_conf env) := by
  have hmon : (!flags.monitor.isEmpty && true) = true := by simpa using hm
  refine ⟨fun mode env => ?_, fun force env => ?_, tgctl_status_truthful hm⟩
  · rw [← boot_truthful_iff mode, tgctl_start, hmon]
  · rw [← shutdown_kill_truthful_iff, tgctl_shutdown_kill, hmon]

/-- A server that runs, and goes when it is told to. -/
def served : ShutdownKillEnv where
  bst_conf := ⟨true, true⟩
  status := ⟨.locked, fun _ => some .activated⟩
  lock_file_opens := true
  kill := ⟨4321, fun _ => ⟨true, true⟩, fun _ => ⟨.not_locked, fun _ => none⟩, true⟩
  attaches := true
  is_shutdown_requested := false
  shutdown := ⟨true, fun _ => .no_file⟩

/-- A server that starts in place of one that is killed. -/
def restarted : StartEnv where
  bst_conf := ⟨true, true⟩
  lock_file_opens := true
  kill := served.kill
  status := ⟨.no_file, fun _ => none⟩
  get_base_path := .ok ()
  child_pid := 4322
  lock_round := fun _ => ⟨true, true, .locked, 4322, true⟩
  attach := fun _ => true
  pid_in_status_info := fun _ => 4322
  launch_status := fun _ => ⟨.locked, fun _ => some .activated⟩
  last_check := .locked

def monitored (start_mode : String) (quiet graceful forceful : Bool) : Flags :=
  ⟨"monitor.log", start_mode, -1, quiet, graceful, forceful⟩

theorem the_monitor_is_told_the_truth_of_a_restart :
    Truthful (tgctl_start (monitored "force" true true false) true .database_server restarted) ∧
    Truthful (tgctl_shutdown_kill (monitored "force" true true false) false true served) ∧
    Truthful (tgctl_shutdown_kill (monitored "force" true true false) true true served) ∧
    Truthful (tgctl_status (monitored "force" true true false) served.bst_conf served.status) := by
  obtain ⟨hstart, hstop, hstatus⟩ :=
    the_monitor_is_told_the_truth (monitored "force" true true false) (by decide)
  have hkilled : Killed (monitored "force" true true false) served.kill :=
    ⟨by decide, within_now rfl⟩
  have hshut : ShutDown (monitored "force" true true false) served.shutdown :=
    ⟨by decide, rfl, within_now rfl⟩
  refine ⟨(hstart _ _).mpr ?_, (hstop _ _).mpr ?_, (hstop _ _).mpr ?_, hstatus _ _⟩
  · exact fun _ => ⟨fun _ => ⟨rfl, fun _ => rfl⟩, fun _ _ => rfl⟩
  · intro _ _ _
    exact ⟨fun _ => rfl, fun _ h => (nomatch h), fun _ _ => ⟨fun _ => rfl, fun _ _ => hshut⟩⟩
  · intro _ _ _
    exact ⟨fun _ => rfl, fun _ _ => ⟨hkilled, fun _ => rfl⟩, fun _ h => (h rfl).elim⟩

/-- A shutdown that is refused because both `--graceful` and `--forceful` are given, and one
that finds the lock file gone under `--quiet`, are told as a success; and a start in force
mode without a lock file does not write its finish record. -/
theorem a_refused_shutdown_is_told_as_a_success :
    Ends (tgctl_shutdown_kill (monitored "" false true true) false true served)
      [.start, .success] (.ok .err) ∧
    ¬ Truthful (tgctl_shutdown_kill (monitored "" false true true) false true served) ∧
    ¬ Truthful (tgctl_shutdown_kill (monitored "" true false false) false true
      { served with lock_file_opens := false }) ∧
    ¬ Truthful (tgctl_start (monitored "force" false false false) true .database_server
      { restarted with lock_file_opens := false }) := by
  have hrefused : Ends (tgctl_shutdown_kill (monitored "" false true true) false true served)
      [.start, .success] (.ok .err) := ⟨rfl, rfl⟩
  have hgone : Ends (tgctl_shutdown_kill (monitored "" true false false) false true
      { served with lock_file_opens := false }) [.start, .success] (.ok .err) := ⟨rfl, rfl⟩
  have hlost : Ends (tgctl_start (monitored "force" false false false) true .database_server
      { restarted with lock_file_opens := false }) [.start]
      (.error lock_file_does_not_exist) := ⟨rfl, rfl⟩
  exact ⟨hrefused, not_truthful_of_success hrefused, not_truthful_of_success hgone,
    not_truthful_of_error hlost⟩

end tateyama_bootstrap.process
