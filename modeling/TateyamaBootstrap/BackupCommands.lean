-- The backup and restore commands (datastore/backup.cpp, datastore/file_list.h) on top
-- of `transport::send` for the datastore. Everything that a command observes is a field
-- of its environment; the bytes that the server answers go through `send_datastore`.
import TateyamaBootstrap.ServerCalls

namespace tateyama_bootstrap.datastore

open monitor_output server_calls

/-! ## The messages of the datastore service -/

structure FileSetEntry where
  source_path : String
  destination_path : String
  detached : Bool
deriving DecidableEq, Repr

/-- `RestoreBegin.source`. -/
inductive Source
  | backup_directory (path : String)
  | tag_name (name : String)
  | entries (directory : String) (file_set_entry : List FileSetEntry)
deriving DecidableEq, Repr

inductive Request
  | backup_begin (label : String)
  | backup_end (id : Nat)
  | backup_estimate
  | restore_begin (source : Source) (keep_backup : Bool) (label : String)
deriving DecidableEq, Repr

/-- `files` are those of the simple source, none for a detail source. -/
inductive BackupBegin
  | success (id : Nat) (files : List String)
  | unknown_error (message : String)
  | not_set
deriving DecidableEq, Repr

inductive BackupEnd
  | success
  | expired
  | unknown_error (message : String)
  | not_set
deriving DecidableEq, Repr

inductive BackupEstimate
  | success (number_of_files number_of_bytes : Nat)
  | unknown_error (message : String)
  | not_set
deriving DecidableEq, Repr

inductive RestoreBegin
  | success (id : Nat)
  | not_found (path : String)
  | permission_error (path : String)
  | broken_data (path detail : String)
  | unknown_error (message : String)
  | not_set
deriving DecidableEq, Repr

instance : Response BackupBegin where
  success
    | .success _ _ => true
    | _ => false

instance : Response BackupEnd where
  success
    | .success => true
    | _ => false

instance : Response BackupEstimate where
  success
    | .success _ _ => true
    | _ => false

instance : Response RestoreBegin where
  success
    | .success _ => true
    | _ => false

inductive Event
  | record (r : monitor_output.Record)
  | sent (request : Request)
  /-- The server has answered with a service result that reports success. -/
  | acknowledged (request : Request)
  | copied (file : String)
deriving DecidableEq, Repr

def Event.record? : Event → Option monitor_output.Record
  | .record r => some r
  | _ => none

instance : Monitored Event where
  record := .record
  record? := Event.record?
  record?_record _ := rfl

instance : Routed Request where
  service _ := .datastore

instance : Logged Request Event where
  sent := .sent
  acknowledged := .acknowledged
  record?_sent _ := rfl
  record?_acknowledged _ := rfl

abbrev Cmd := Command Error Event

abbrev Server (T : Type) := server_calls.Server Request T

/-! ## The file list -/

/-- `boost::property_tree::ptree`. -/
inductive Ptree
  | node (data : String) (children : List (String × Ptree))

namespace Ptree

def data : Ptree → String
  | node data _ => data

def children : Ptree → List (String × Ptree)
  | node _ children => children

/-- A child by its name; the names of the file list have no dots. -/
def get_child (t : Ptree) (name : String) : Option Ptree :=
  (t.children.find? (·.1 = name)).map (·.2)

/-- An entry of the file list, when all its fields are there. `bool_of` is boost's
translator. -/
def entry (bool_of : String → Option Bool) (info : Ptree) : Option FileSetEntry := do
  let source ← info.get_child "source_path"
  let destination ← info.get_child "destination_path"
  let detached ← info.get_child "detached"
  let detached ← bool_of detached.data
  some ⟨source.data, destination.data, detached⟩

/-- `file_list::for_each`, which throws `ptree_bad_path` without an `entries` node. -/
def for_each (bool_of : String → Option Bool) (pt : Ptree) : Except Error (List FileSetEntry) :=
  match pt.get_child "entries" with
  | none => .error (.exception "No such node (entries)")
  | some entries => .ok (entries.children.filterMap fun child => child.2.entry bool_of)

end Ptree

/-! ## The commands -/

/-- The command line flags of backup.cpp. -/
structure Flags where
  monitor : String
  label : String
  force : Bool
  keep_backup : Bool
  _keep_backup : Bool
  use_file_list : String

structure Env where
  /-- The constructor of `transport`. -/
  connect : Except Error Unit
  connect_reasoned : ∀ e, connect = .error e → Reasoned e
  /-- `transport::database_name()` in a handler. -/
  database_name : Except Error Unit
  backup_begin : Server BackupBegin
  backup_end : Server BackupEnd
  /-- A BackupEnd holds a number, and is not too long to go out. -/
  backup_end_message : ∀ id, (backup_end.message (.backup_end id)).isSome = true
  backup_estimate : Server BackupEstimate
  restore_begin : Server RestoreBegin
  /-- The answer at the prompt, none when it throws. -/
  prompt : Option Bool
  /-- What `read_json` reads, none when it fails. -/
  file_list : Option Ptree
  bool_of : String → Option Bool
  /-- The sizes of the files before and after they are copied, none for an exception. -/
  file_size : Nat → Option Nat
  copied_size : Nat → Option Nat
  copy_file : Nat → Bool
  directory_exists : Bool
  is_directory : Bool
  owner_write : Bool

def filesystem_error : Error := .exception "filesystem_error"

def size_of (size : Option Nat) : Cmd Nat :=
  match size with
  | some n => pure n
  | none => .raise filesystem_error

/-- `total_bytes`, from the `i`-th file on. -/
def sum_sizes (env : Env) : List String → Nat → Nat → Cmd Nat
  | [], _, total => pure total
  | _ :: files, i, total => do
    let size ← size_of (env.file_size i)
    sum_sizes env files (i + 1) (total + size)

def copy_file (env : Env) (i : Nat) (file : String) : Cmd Unit :=
  if env.copy_file i then .write (.copied file) else .raise filesystem_error

/-- The progress is 1 when there is nothing to copy. -/
def tell_progress (monitor_output : Bool) (completed_bytes total_bytes : Nat) : Cmd Unit :=
  if 0 < total_bytes then progress monitor_output completed_bytes total_bytes
  else progress monitor_output 1 1

/-- The loop that copies the files, from the `i`-th on. -/
def copy_files (monitor_output : Bool) (env : Env) (total_bytes : Nat) :
    List String → Nat → Nat → Cmd Unit
  | [], _, _ => pure ()
  | file :: files, i, completed_bytes => do
    copy_file env i file
    if monitor_output then
      let size ← size_of (env.copied_size i)
      tell_progress monitor_output (completed_bytes + size) total_bytes
      copy_files monitor_output env total_bytes files (i + 1) (completed_bytes + size)
    else
      copy_files monitor_output env total_bytes files (i + 1) completed_bytes

def backup_files (monitor_output : Bool) (env : Env) (files : List String) : Cmd Unit := do
  if monitor_output then
    let total_bytes ← sum_sizes env files 0 0
    copy_files monitor_output env total_bytes files 0 0
  else
    copy_files monitor_output env 0 files 0 0

/-- After the files have been copied. -/
def backup_finish (monitor_output : Bool) (env : Env) (id : Nat) : Cmd Flow := do
  match ← send env.backup_end (.backup_end id) with
  | some .success =>
    finish monitor_output .absent
    return .returns .ok
  | some (.unknown_error _) => return .goes_on .err .server
  | some .expired => return .goes_on .err .payload_broken
  | some .not_set => return .goes_on .err .payload_broken
  | none => return .goes_on .err .payload_broken

/-- The `try` block of `tgctl_backup_create`. -/
def backup_create_try (flags : Flags) (monitor_output : Bool) (env : Env) : Cmd Flow := do
  observe env.connect
  match ← send env.backup_begin (.backup_begin flags.label) with
  | some (.success id files) =>
    backup_files monitor_output env files
    backup_finish monitor_output env id
  | some (.unknown_error _) => return .goes_on .err .server
  | some .not_set => return .goes_on .err .payload_broken
  | none => return .goes_on .err .payload_broken

/-- The handlers of `tgctl_backup_create`. -/
def backup_create_catch : Error → Cmd Flow
  | .runtime_error code _ => return .goes_on .err code
  | _ => return .goes_on .err .io

def tgctl_backup_create (flags : Flags) (env : Env) : Cmd ReturnCode :=
  let monitor_output := !flags.monitor.isEmpty
  framed monitor_output ((backup_create_try flags monitor_output env).handle backup_create_catch)

def tgctl_backup_directory_check (flags : Flags) (env : Env) : Cmd ReturnCode := do
  if env.directory_exists && env.is_directory && env.owner_write then return .ok
  let monitor_output := !flags.monitor.isEmpty
  start monitor_output
  finish monitor_output .io
  return .err

section

variable {T : Type} [Response T]

/-- What the commands with one request make of its response. -/
def judge (monitor_output : Bool) : Option T → Cmd Flow
  | some response => do
    if Response.success response then
      finish monitor_output .absent
      return .returns .ok
    else
      return .goes_on .err .server
  | none => return .goes_on .err .payload_broken

/-- The handler of the commands with one request; its message names the database. -/
def request_catch (env : Env) : Error → Cmd Flow := catch_runtime_error env.database_name

/-- The commands with one request. `request` is made once the transport is there. -/
def request_try (monitor_output : Bool) (env : Env) (server : Server T)
    (request : Except Error Request) : Cmd Flow := do
  let response ← ask env.connect server request
  judge monitor_output response

end

def tgctl_backup_estimate (flags : Flags) (env : Env) : Cmd ReturnCode :=
  let monitor_output := !flags.monitor.isEmpty
  framed monitor_output
    ((request_try monitor_output env env.backup_estimate (.ok .backup_estimate)).handle
      (request_catch env))

/-- The prompt, unless `--force` is given. -/
def confirmed (flags : Flags) (env : Env) : Bool := flags.force || env.prompt = some true

def tgctl_restore_backup (flags : Flags) (env : Env) (path_to_backup : String) :
    Cmd ReturnCode := do
  if !confirmed flags env then return .err
  let monitor_output := !flags.monitor.isEmpty
  framed monitor_output
    ((request_try monitor_output env env.restore_begin
      (.ok (.restore_begin (.backup_directory path_to_backup)
        (flags.keep_backup && flags._keep_backup) flags.label))).handle (request_catch env))

/-- The entries of the file list, on the directory that the operand names. -/
def file_list_request (flags : Flags) (env : Env) (path_to_backup : String) (pt : Ptree) :
    Except Error Request := do
  let files ← pt.for_each env.bool_of
  return .restore_begin (.entries path_to_backup files) false flags.label

def file_list_try (flags : Flags) (monitor_output : Bool) (env : Env) (path_to_backup : String) :
    Cmd Flow := do
  match env.file_list with
  | none =>
    -- `reason` is still `absent`
    finish monitor_output .absent
    return .returns .err
  | some pt =>
    request_try monitor_output env env.restore_begin
      (file_list_request flags env path_to_backup pt)

def tgctl_restore_backup_use_file_list (flags : Flags) (env : Env) (path_to_backup : String) :
    Cmd ReturnCode := do
  if !confirmed flags env then return .err
  let monitor_output := !flags.monitor.isEmpty
  framed monitor_output
    ((file_list_try flags monitor_output env path_to_backup).handle (request_catch env))

def tgctl_restore_tag (flags : Flags) (env : Env) (tag_name : String) : Cmd ReturnCode :=
  let monitor_output := !flags.monitor.isEmpty
  framed monitor_output
    ((request_try monitor_output env env.restore_begin
      (.ok (.restore_begin (.tag_name tag_name) false ""))).handle (request_catch env))

end tateyama_bootstrap.datastore
