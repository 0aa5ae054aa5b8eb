-- The commands that control a server process (process/control.cpp): `tgctl_start`,
-- `tgctl_shutdown_kill` with `tgctl_kill` and `tgctl_shutdown`, and `tgctl_status`.
-- Everything that a command observes is a field of its environment, one for each place
-- that looks, and one for each round of a loop. The exceptions are those of
-- `tgctl::runtime_error`. The messages on the console are left out.
import TateyamaBootstrap.MonitorLog
import TateyamaBootstrap.ProcMutex

namespace tateyama_bootstrap.process

open monitor_output

/-- `framework::boot_mode`. -/
inductive BootMode
  | database_server
  | maintenance_server
  | quiescent_server
deriving DecidableEq, Repr

/-- What the commands do, in the order in which they do it. -/
inductive Event
  | record (r : Record)
  /-- `proc_mutex::check`, and what it has seen. -/
  | checked (state : proc_mutex.LockState)
  /-- `kill(pid, SIGKILL)`. -/
  | sigkill (pid : Int)
  /-- The child process of `tgctl_start`. -/
  | launched (mode : BootMode)
deriving DecidableEq, Repr

def Event.record? : Event → Option Record
  | .record r => some r
  | _ => none

instance : Monitored Event where
  record := .record
  record? := Event.record?
  record?_record _ := rfl

abbrev Cmd := Command Error Event

/-- The command line flags of control.cpp. -/
structure Flags where
  monitor : String
  start_mode : String
  timeout : Int
  quiet : Bool
  graceful : Bool
  forceful : Bool

def sleep_time_unit_regular : Nat := 20
def sleep_time_unit_shutdown : Nat := 1000
def check_count_startup : Nat := 500
def check_count_shutdown : Nat := 300
def check_count_status : Nat := 10
def check_count_kill : Nat := 500

/-- The number of rounds of a loop. With a timeout of 0 it is `INT64_MAX`. -/
def check_count (default sleep_time_unit : Nat) (timeout : Int) : Nat :=
  if 0 < timeout then (1000 * timeout).toNat / sleep_time_unit
  else if timeout = 0 then 2 ^ 63 - 1
  else default

/-- `bootstrap_configuration`: whether it is `valid()`, and whether
`get_configuration()` is not null. -/
structure BootstrapConfiguration where
  valid : Bool
  configuration : Bool
deriving DecidableEq, Repr

/-- `status_info::state`. -/
inductive State
  | initial
  | ready
  | activated
  | deactivating
  | deactivated
  | boot_error
deriving DecidableEq, Repr

inductive StatusCheckResult
  | undefined
  | error_in_conf_file_name
  | error_in_create_conf
  | no_file
  | not_locked
  | initial
  | ready
  | activated
  | deactivating
  | deactivated
  | boot_error
  | status_check_count_over
  | error_in_file_mutex_check
deriving DecidableEq, Repr

def State.result : State → StatusCheckResult
  | .initial => .initial
  | .ready => .ready
  | .activated => .activated
  | .deactivating => .deactivating
  | .deactivated => .deactivated
  | .boot_error => .boot_error

/-- What one `status_check_internal` observes: the lock, and the status info in each
round, `none` when `status_info_bridge` throws. -/
structure StatusEnv where
  check : proc_mutex.LockState
  whole : Nat → Option State

/-- The rounds of `status_check_internal`, from the `i`-th on. -/
def whole_rounds (env : StatusEnv) : Nat → Nat → StatusCheckResult
  | 0, _ => .status_check_count_over
  | n + 1, i =>
    match env.whole i with
    | some state => state.result
    | none =>
      if i < check_count_status - 1 then whole_rounds env n (i + 1)
      else .status_check_count_over

def status_check_internal (bst_conf : BootstrapConfiguration) (env : StatusEnv) :
    Cmd StatusCheckResult := do
  if !bst_conf.valid then return .error_in_conf_file_name
  if !bst_conf.configuration then return .error_in_create_conf
  .write (.checked env.check)
  match env.check with
  | .no_file => return .no_file
  | .not_locked => return .not_locked
  | .locked => return whole_rounds env check_count_status 0
  | .error => return .error_in_file_mutex_check

def is_running (bst_conf : BootstrapConfiguration) (env : StatusEnv) : Cmd Bool := do
  let state ← status_check_internal bst_conf env
  return state = .activated

/-- The exceptions of the constructors of `proc_mutex` and of `status_info_bridge`. -/
def lock_file_does_not_exist : Error :=
  .runtime_error .internal "the lock file does not exist"

def no_shared_memory : Error :=
  .runtime_error .internal "can't find shared memory for status_info"

/-- `proc_mutex(lock_file, false)`. -/
def open_lock_file (opens : Bool) : Cmd Unit :=
  if opens then pure () else .raise lock_file_does_not_exist

/-- `status_info_bridge(digest)`. -/
def attach_status_info (attaches : Bool) : Cmd Unit :=
  if attaches then pure () else .raise no_shared_memory

/-! ## kill and shutdown -/

/-- Every round of `tgctl_kill` makes the configuration anew. -/
structure KillEnv where
  pid : Int
  bst_conf : Nat → BootstrapConfiguration
  status : Nat → StatusEnv
  attaches : Bool

def kill_rounds (env : KillEnv) : Nat → Nat → Cmd ReturnCode
  | 0, _ => return .err
  | n + 1, i => do
    let state ← status_check_internal (env.bst_conf i) (env.status i)
    if state = .not_locked then
      attach_status_info env.attaches
      return .ok
    else
      kill_rounds env n (i + 1)

def tgctl_kill (flags : Flags) (env : KillEnv) : Cmd ReturnCode := do
  if env.pid ≠ 0 then
    .write (.sigkill env.pid)
    kill_rounds env (check_count check_count_kill sleep_time_unit_regular flags.timeout) 0
  else
    return .err

structure ShutdownEnv where
  request_shutdown : Bool
  check : Nat → proc_mutex.LockState

def shutdown_rounds (env : ShutdownEnv) : Nat → Nat → Cmd ReturnCode
  | 0, _ => return .err
  | n + 1, i => do
    .write (.checked (env.check i))
    if env.check i = .no_file then
      return .ok
    else
      shutdown_rounds env n (i + 1)

def tgctl_shutdown (flags : Flags) (env : ShutdownEnv) : Cmd ReturnCode :=
  if flags.graceful && flags.forceful then return .err
  else if !env.request_shutdown then return .err
  else
    shutdown_rounds env
      (check_count check_count_shutdown sleep_time_unit_shutdown flags.timeout) 0

structure ShutdownKillEnv where
  bst_conf : BootstrapConfiguration
  status : StatusEnv
  lock_file_opens : Bool
  kill : KillEnv
  attaches : Bool
  is_shutdown_requested : Bool
  shutdown : ShutdownEnv

/-- After `tgctl_kill` or `tgctl_shutdown`. -/
def after_stop (monitor_output : Bool) : ReturnCode → Cmd Flow
  | .ok => do
    finish monitor_output .absent
    return .returns .ok
  | .err => return .goes_on .err .absent

/-- The states in which there is no server to stop. -/
def StatusCheckResult.stopped (state : StatusCheckResult) : Bool :=
  state = .no_file || state = .not_locked || state = .deactivated

/-- `tgctl_shutdown_kill` once it has opened the lock file. -/
def stop (flags : Flags) (monitor_output force : Bool) (env : ShutdownKillEnv) : Cmd Flow := do
  if force then
    let rtnv ← tgctl_kill flags env.kill
    after_stop monitor_output rtnv
  else
    attach_status_info env.attaches
    if !env.is_shutdown_requested then
      let rtnv ← tgctl_shutdown flags env.shutdown
      after_stop monitor_output rtnv
    else
      return .goes_on .err .invalid_status

/-- The `try` block of `tgctl_shutdown_kill`. -/
def shutdown_kill_try (flags : Flags) (monitor_output force : Bool) (env : ShutdownKillEnv) :
    Cmd Flow := do
  let state ← status_check_internal env.bst_conf env.status
  if state.stopped then
    finish monitor_output .absent
    return .returns .ok
  else
    open_lock_file env.lock_file_opens
    stop flags monitor_output force env

/-- The handler of `tgctl_shutdown_kill` takes a `runtime_error`. It leaves `reason` as
it is when `--quiet` is given. -/
def shutdown_kill_catch (flags : Flags) : Error → Cmd Flow
  | .runtime_error _ what =>
    if !flags.quiet then
      if what = "the lock file does not exist" then return .goes_on .err .invalid_status
      else return .goes_on .err .ambiguous
    else
      return .goes_on .err .absent
  | e => .raise e

/-- `tgctl_shutdown_kill` up to its common end. -/
def shutdown_kill (flags : Flags) (monitor_output force : Bool) (env : ShutdownKillEnv) :
    Cmd Flow :=
  if env.bst_conf.valid then
    if env.bst_conf.configuration then
      (shutdown_kill_try flags monitor_output force env).handle (shutdown_kill_catch flags)
    else return .goes_on .err .initialization
  else return .goes_on .err .not_found

def tgctl_shutdown_kill (flags : Flags) (force status_output : Bool) (env : ShutdownKillEnv) :
    Cmd ReturnCode :=
  let monitor_output := !flags.monitor.isEmpty && status_output
  framed monitor_output (shutdown_kill flags monitor_output force env)

/-! ## status -/

def tgctl_status (flags : Flags) (bst_conf : BootstrapConfiguration) (env : StatusEnv) :
    Cmd ReturnCode := do
  let monitor_output := !flags.monitor.isEmpty
  start monitor_output
  match ← status_check_internal bst_conf env with
  | .no_file => told monitor_output .stop
  | .initial => told monitor_output .ready
  | .ready => told monitor_output .ready
  | .activated => told monitor_output .activated
  | .deactivating => told monitor_output .deactivating
  | .deactivated => told monitor_output .deactivated
  | .not_locked => told monitor_output .unknown
  | .status_check_count_over => (Flow.goes_on .err .timeout).close monitor_output
  | .error_in_create_conf => (Flow.goes_on .err .initialization).close monitor_output
  | .error_in_conf_file_name => (Flow.goes_on .err .not_found).close monitor_output
  | _ => (Flow.goes_on .err .ambiguous).close monitor_output
where
  /-- A status that the command can tell. -/
  told (monitor_output : Bool) (stat : Status) : Cmd ReturnCode := do
    status monitor_output stat
    (Flow.goes_on .ok .absent).close monitor_output

/-! ## start -/

/-- A round of the loop that waits for the pid of the child in the lock file. -/
structure LockRound where
  child_alive : Bool
  opens : Bool
  check : proc_mutex.LockState
  pid : Int
  pid_alive : Bool

structure StartEnv where
  bst_conf : BootstrapConfiguration
  lock_file_opens : Bool
  kill : KillEnv
  status : StatusEnv
  /-- The exception of `get_base_path`. What `process.h` raises there is a
  `filesystem_error`; the handler takes a `runtime_error`. -/
  get_base_path : Except Error Unit
  child_pid : Int
  lock_round : Nat → LockRound
  attach : Nat → Bool
  pid_in_status_info : Nat → Int
  launch_status : Nat → StatusEnv
  last_check : proc_mutex.LockState

inductive CheckResult
  | init
  | ok
  | another
  | dead_abnormally
deriving DecidableEq, Repr

/-- The loop that waits for the pid in the lock file: `check_result` and `chkn`.
`file_mutex` is set once the lock file has been opened. -/
def lock_rounds (env : StartEnv) : Nat → Nat → Bool → Cmd (CheckResult × Nat)
  | 0, _, _ => return (.init, 0)
  | n + 1, i, file_mutex => do
    let round := env.lock_round i
    if !round.child_alive then return (.dead_abnormally, 0)
    else if !file_mutex && !round.opens then
      -- the constructor has thrown, and the loop goes on
      lock_rounds env n (i + 1) false
    else
      .write (.checked round.check)
      if round.check ≠ .no_file ∧ round.pid ≠ 0 then
        if env.child_pid = round.pid then return (.ok, i)
        else if round.pid_alive then return (.another, i)
        else lock_rounds env n (i + 1) true
      else lock_rounds env n (i + 1) true

/-- The loop that waits for the shared memory of the status info: `chkn`. -/
def attach_rounds (env : StartEnv) : Nat → Nat → Option Nat
  | 0, _ => none
  | n + 1, i => if env.attach i then some i else attach_rounds env n (i + 1)

/-- The loop that waits until the server is activated, with the values of `rtnv` and
`reason` when it is left. `i` grows in every round, so that `fuel` does not run out
before `i` is `check_count`. -/
def launch_rounds (monitor_output : Bool) (env : StartEnv) (check_count : Nat) :
    Nat → Nat → Cmd Flow
  | 0, _ => return .goes_on .ok .absent
  | fuel + 1, i => do
    if i < check_count then
      if env.pid_in_status_info i = 0 then
        launch_rounds monitor_output env check_count fuel (i + 1)
      else if env.child_pid = env.pid_in_status_info i then
        match ← status_check_internal env.bst_conf (env.launch_status i) with
        | .activated =>
          finish monitor_output .absent
          return .returns .ok
        | .not_locked | .boot_error =>
          finish monitor_output .ambiguous
          return .returns .err
        | .no_file | .initial | .ready =>
          launch_rounds monitor_output env check_count fuel (i + 1)
        | .deactivating | .deactivated => return .goes_on .err .another_process
        | .status_check_count_over =>
          launch_rounds monitor_output env check_count fuel (i + check_count_status + 1)
        | .undefined | .error_in_conf_file_name | .error_in_create_conf
        | .error_in_file_mutex_check => return .goes_on .err .timeout
      else return .goes_on .err .ambiguous
    else return .goes_on .ok .absent

/-- What `tgctl_start` does about the child when `need_check` is set. -/
def confirm (flags : Flags) (monitor_output : Bool) (env : StartEnv) : Cmd Flow := do
  let check_count := check_count check_count_startup sleep_time_unit_regular flags.timeout
  if env.bst_conf.configuration then
    let (check_result, chkn) ← lock_rounds env check_count 0 false
    match check_result with
    | .ok =>
      match attach_rounds env (check_count - chkn) chkn with
      | some chkn =>
        match ← launch_rounds monitor_output env check_count check_count chkn with
        | .returns rtnv => return .returns rtnv
        -- what the loop has left in `rtnv` and `reason` is overwritten here
        | .goes_on _ _ => return .goes_on .err .timeout
      | none =>
        if !flags.quiet then
          .write (.checked env.last_check)
        return .goes_on .err .timeout
    | .another => return .goes_on .err .another_process
    | .dead_abnormally => return .goes_on .err .internal
    | .init => return .goes_on .err .ambiguous
  else return .goes_on .err .not_found

/-- The states in which a server runs already. -/
def StatusCheckResult.running (state : StatusCheckResult) : Bool :=
  state = .initial || state = .ready || state = .activated || state = .deactivating

/-- From the first status check of `tgctl_start` on. -/
def launch (flags : Flags) (monitor_output need_check : Bool) (mode : BootMode) (env : StartEnv) :
    Cmd Flow := do
  let state ← status_check_internal env.bst_conf env.status
  if state.running then
    finish monitor_output .another_process
    return .returns .err
  else
    match env.get_base_path with
    | .error (.runtime_error _ _) => return .returns .err
    | .error e => .raise e
    | .ok _ =>
      .write (.launched mode)
      if need_check then confirm flags monitor_output env else return .returns .ok

/-- `tgctl_start` up to its common end. -/
def boot (flags : Flags) (monitor_output need_check : Bool) (mode : BootMode) (env : StartEnv) :
    Cmd Flow := do
  if env.bst_conf.valid then
    if flags.start_mode.isEmpty then
      launch flags monitor_output need_check mode env
    else if flags.start_mode = "force" then
      open_lock_file env.lock_file_opens
      match ← tgctl_kill flags env.kill with
      | .ok => launch flags monitor_output need_check mode env
      | .err =>
        finish monitor_output .initialization
        return .returns .err
    else
      finish monitor_output .invalid_argument
      return .returns .err
  else return .goes_on .err .not_found

def tgctl_start (flags : Flags) (need_check : Bool) (mode : BootMode) (env : StartEnv) :
    Cmd ReturnCode :=
  let monitor_output := !flags.monitor.isEmpty && need_check
  framed monitor_output (boot flags monitor_output need_check mode env)

end tateyama_bootstrap.process
