-- The backup and restore subcommands of `tgctl_main` (tgctl/tgctl.cpp), which start a
-- server in maintenance mode around the commands of the datastore, and the exit code of
-- the process.
import TateyamaBootstrap.ProcessControl
import TateyamaBootstrap.BackupCommands

namespace tateyama_bootstrap.tgctl

open process datastore

/-- What the parts of a subcommand do. -/
inductive Event
  | process (e : process.Event)
  | datastore (e : datastore.Event)
  /-- `tgctl_start` in maintenance mode has returned this. -/
  | started (rtnv : ReturnCode)
  /-- A call of `tgctl_shutdown_kill`. -/
  | stopping (force : Bool)
deriving DecidableEq, Repr

abbrev Cmd := Command Error Event

def run_process {α : Type} (x : process.Cmd α) : Cmd α := x.embed .process

def run_datastore {α : Type} (x : datastore.Cmd α) : Cmd α := x.embed .datastore

structure Flags extends process.Flags where
  q : Bool
  label : String
  force : Bool
  keep_backup : Bool
  _keep_backup : Bool
  use_file_list : String

/-- The flags that backup.cpp reads. -/
def Flags.datastore (flags : Flags) : datastore.Flags where
  monitor := flags.monitor
  label := flags.label
  force := flags.force
  keep_backup := flags.keep_backup
  _keep_backup := flags._keep_backup
  use_file_list := flags.use_file_list

/-- The flags around `backup create`: quiet, and without a monitor. -/
def Flags.hushed (flags : Flags) : process.Flags :=
  { flags.toFlags with quiet := true, monitor := "" }

structure Env where
  /-- What the first and the second `is_running` observe. -/
  running_conf : BootstrapConfiguration
  running_status : StatusEnv
  running_again_conf : BootstrapConfiguration
  running_again_status : StatusEnv
  start : StartEnv
  shutdown : ShutdownKillEnv
  kill : ShutdownKillEnv
  datastore : datastore.Env

def code : ReturnCode → Int
  | .ok => 0
  | .err => 1

def start_server (flags : process.Flags) (env : StartEnv) : Cmd ReturnCode := do
  let rtnv ← run_process (tgctl_start flags true .maintenance_server env)
  .write (.started rtnv)
  return rtnv

def call_shutdown_kill (flags : process.Flags) (force status_output : Bool) (env : ShutdownKillEnv) :
    Cmd ReturnCode := do
  .write (.stopping force)
  run_process (tgctl_shutdown_kill flags force status_output env)

/-- The maintenance server of `backup create` goes, by a kill where a shutdown fails. -/
def stop_server (flags : Flags) (env : Env) : Cmd Unit := do
  match ← call_shutdown_kill flags.hushed false true env.shutdown with
  | .ok => return ()
  | .err =>
    let _ ← call_shutdown_kill flags.hushed true true env.kill
    return ()

/-- `backup create` with a server that was there before. -/
def create_on_running (flags : Flags) (env : Env) : Cmd Int := do
  let rv ← run_datastore (tgctl_backup_create flags.datastore env.datastore)
  return code rv

/-- `backup create` with a server that has been started for it. -/
def create_on_started (flags : Flags) (env : Env) : Cmd Int := do
  let rv ← run_datastore (tgctl_backup_create flags.datastore env.datastore)
  stop_server flags env
  return code rv

def backup_create (flags : Flags) (env : Env) : Cmd Int := do
  match ← run_datastore (tgctl_backup_directory_check flags.datastore env.datastore) with
  | .err => return code .err
  | .ok =>
    let running ← run_process (is_running env.running_conf env.running_status)
    if running then create_on_running flags env
    else
      match ← start_server flags.hushed env.start with
      | .ok => create_on_started flags env
      | .err =>
        let running ← run_process
          (is_running env.running_again_conf env.running_again_status)
        -- somebody else has started a server
        if running then create_on_running flags env else return code .err

def backup (flags : Flags) (args : List String) (env : Env) : Cmd Int := do
  if args.length < 3 then return code .err
  else if args.getD 2 "" = "create" then
    if args.length < 4 then return code .err else backup_create flags env
  else if args.getD 2 "" = "estimate" then
    let rv ← run_datastore (tgctl_backup_estimate flags.datastore env.datastore)
    return code rv
  else return code .err

/-- What `restore` does while the maintenance server runs; `rtnv` is 0 at first. -/
def restore_on_started (flags : Flags) (args : List String) (env : Env) : Cmd Int := do
  if args.getD 2 "" = "backup" then
    if 3 < args.length then
      if !flags.use_file_list.isEmpty then
        let rv ← run_datastore
          (tgctl_restore_backup_use_file_list flags.datastore env.datastore (args.getD 3 ""))
        return code rv
      else
        let rv ← run_datastore
          (tgctl_restore_backup flags.datastore env.datastore (args.getD 3 ""))
        return code rv
    else return 0
  else if args.getD 2 "" = "tag" then
    if 3 < args.length then
      let rv ← run_datastore (tgctl_restore_tag flags.datastore env.datastore (args.getD 3 ""))
      return code rv
    else return 0
  else return -1

def restore (flags : Flags) (args : List String) (env : Env) : Cmd Int := do
  let flags := { flags with timeout := 0, quiet := true }
  match ← start_server flags.toFlags env.start with
  | .ok =>
    if args.length < 3 then return code .err
    else
      let rtnv ← restore_on_started flags args env
      let _ ← call_shutdown_kill flags.toFlags false false env.shutdown
      return rtnv
  | .err => return -1

/-- `tgctl_main`; `others` are the other subcommands. -/
def tgctl_main (others : Flags → List String → Cmd Int) (flags : Flags) (args : List String)
    (env : Env) : Cmd Int :=
  let flags := { flags with quiet := flags.quiet || flags.q }
  if args.length < 2 then return code .err
  else if args.getD 1 "" = "backup" then backup flags args env
  else if args.getD 1 "" = "restore" then restore flags args env
  else others flags args

/-- `main` returns -1 when an exception reaches it. -/
def exit_code (x : Cmd Int) : Int :=
  match x.result with
  | .ok rtnv => rtnv
  | .error _ => -1

end tateyama_bootstrap.tgctl
