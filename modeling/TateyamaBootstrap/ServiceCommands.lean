-- The commands that put one request to a service of the server (session/session.cpp,
-- metrics/metrics.cpp, request/request.cpp, altimeter/altimeter.cpp). What a command
-- observes is a field of its environment; what it prints on the standard output and what it
-- writes to the monitor file is in its log.
import TateyamaBootstrap.ServerCalls
import TateyamaBootstrap.MonitorLines

namespace tateyama_bootstrap.services

open monitor_output server_calls json
open transport (Service)

/-! ## The messages of the services -/

/-- `request.SessionShutdownType`. -/
inductive SessionShutdownType
  | not_set
  | graceful
  | forceful
deriving DecidableEq, Repr

/-- `common.LogCategory` of the altimeter. -/
inductive LogCategory
  | event
  | audit
deriving DecidableEq, Repr

/-- `LogSettings` of the altimeter; the fields are optional. -/
structure LogSettings where
  enabled : Option Bool
  level : Option Nat
  statement_duration : Option Nat
deriving DecidableEq, Repr

inductive Request
  | session_list
  | session_get (session_specifier : Text)
  | session_shutdown (session_specifier : Text) (request_type : SessionShutdownType)
  | session_set_variable (session_specifier name : Text) (value : Option Text)
  | metrics_list
  | metrics_show
  | list_request
  | get_payload (session_id request_id : Nat)
  | extract_statement_info (session_id : Nat) (payload : Text)
  | configure (event_log audit_log : Option LogSettings)
  | log_rotate (category : LogCategory)
deriving DecidableEq, Repr

/-- The overload of `transport::send` that takes the request. -/
def Request.service : Request → Service
  | .session_list | .session_get _ | .session_shutdown _ _ | .session_set_variable _ _ _ => .session
  | .metrics_list | .metrics_show => .metrics
  | .list_request | .get_payload _ _ => .request
  | .extract_statement_info _ _ => .sql
  | .configure _ _ | .log_rotate _ => .altimeter

/-- The `result` of a response, one of a success, an error and nothing. -/
inductive Result (α : Type)
  | success (a : α)
  | error (message : Text)
  | not_set
deriving DecidableEq, Repr

structure SessionInfo where
  session_id : Text
  label : Text
  application : Text
  user : Text
  start_at : Nat
  connection_type : Text
  connection_info : Text
deriving DecidableEq, Repr

structure RequestInfo where
  session_id : Nat
  request_id : Nat
  service_id : Nat
  payload_size : Nat
  started_time : Nat
deriving DecidableEq, Repr

structure StatementInfo where
  transaction_id : Option Text
  sql : Option Text
deriving DecidableEq, Repr

abbrev SessionList := Result (List SessionInfo)
abbrev SessionGet := Result SessionInfo
abbrev SessionShutdown := Result Unit
abbrev SessionSetVariable := Result Unit
abbrev ListRequest := Result (List RequestInfo)
abbrev GetPayload := Result Text
abbrev ExtractStatementInfo := Result StatementInfo
abbrev Configure := Result Unit
abbrev LogRotate := Result Unit

/-- `sql.response.Response`. -/
inductive SqlResponse
  | extract_statement_info (result : ExtractStatementInfo)
  /-- Any other response of the service, or none. -/
  | other
deriving DecidableEq, Repr

/-- An element of an array; its value is the text that is printed for the number. -/
structure MetricsElement where
  attributes : List (Text × Text)
  value : Text
deriving DecidableEq, Repr

inductive MetricsValue
  | value (value : Text)
  | array (elements : List MetricsElement)
  | not_set
deriving DecidableEq, Repr

structure MetricsItem where
  key : Text
  description : Text
  value : MetricsValue
deriving DecidableEq, Repr

/-- This response has no `result`. -/
structure MetricsInformation where
  items : List MetricsItem
deriving DecidableEq, Repr

instance {α : Type} : Response (Result α) where
  success
    | .success _ => true
    | _ => false

instance : Response SqlResponse where
  success
    | .extract_statement_info (.success _) => true
    | _ => false

instance : Response MetricsInformation where
  success _ := true

/-! ## What a command does -/

inductive Event
  | record (r : monitor_output.Record)
  /-- A line of data in the monitor file. -/
  | data (call : Call)
  | out (text : Text)
  | sent (request : Request)
  /-- The server has answered with a service result that reports success. -/
  | acknowledged (request : Request)

def Event.record? : Event → Option monitor_output.Record
  | .record r => some r
  | _ => none

instance : Monitored Event where
  record := .record
  record? := Event.record?
  record?_record _ := rfl

instance : Routed Request where
  service := Request.service

instance : Logged Request Event where
  sent := .sent
  acknowledged := .acknowledged
  record?_sent _ := rfl
  record?_acknowledged _ := rfl

abbrev Cmd := Command Error Event

abbrev Server (T : Type) := server_calls.Server Request T

def out (text : Text) : Cmd Unit := .write (.out text)

def out_if (shown : Bool) (text : Text) : Cmd Unit := if shown then out text else pure ()

/-- A line of data, when `--monitor` is given. -/
def data (monitor_output : Bool) (call : Call) : Cmd Unit :=
  if monitor_output then .write (.data call) else pure ()

/-! ## Numbers in strings -/

/-- The sign of a number, blanks before it skipped. -/
def sign (str : Text) : Bool × Text :=
  match str.dropWhile isspace with
  | 0x2d :: rest => (true, rest)
  | 0x2b :: rest => (false, rest)
  | rest => (false, rest)

/-- `std::stol`: what follows the digits is ignored. -/
def stol (str : Text) : Except Error Int :=
  let (negative, rest) := sign str
  let digits := rest.takeWhile digit
  let n : Int := if negative then -(digits_value digits) else digits_value digits
  if digits.isEmpty then .error (.exception "stol")
  else if -2 ^ 63 ≤ n ∧ n < 2 ^ 63 then .ok n
  else .error .out_of_range

/-- `std::stoul`, which takes the two's complement of a negative number. -/
def stoul (str : Text) : Except Error Nat :=
  let (negative, rest) := sign str
  let digits := rest.takeWhile digit
  let n := digits_value digits
  if digits.isEmpty then .error (.exception "stoul")
  else if 2 ^ 64 ≤ n then .error .out_of_range
  else .ok (if negative then (2 ^ 64 - n) % 2 ^ 64 else n)

/-- `substr(1)`. -/
def substr_1 : Text → Except Error Text
  | [] => .error .out_of_range
  | _ :: rest => .ok rest

/-! ## The commands -/

/-- The command line flags of the commands. -/
structure Flags where
  monitor : String
  verbose : Bool
  id : Bool
  quiet : Bool
  graceful : Bool
  forceful : Bool
  format : String

structure Env where
  /-- The constructor of `transport`. -/
  connect : Except Error Unit
  connect_reasoned : ∀ e, connect = .error e → Reasoned e
  /-- `transport::database_name()` in a handler. -/
  database_name : Except Error Unit
  session_list : Server SessionList
  session_get : Server SessionGet
  session_shutdown : Server SessionShutdown
  session_set_variable : Server SessionSetVariable
  metrics_information : Server MetricsInformation
  list_request : Server ListRequest
  get_payload : Server GetPayload
  sql : Server SqlResponse
  configure : Server Configure
  log_rotate : Server LogRotate
  /-- `gmtime_r` and `put_time` for the milliseconds of a session's start, empty when they
  do not give a time. -/
  to_timepoint_string : Nat → Text
  /-- The clock, in milliseconds. -/
  nms : Nat
  /-- The base64 iterators of boost; `decode` is none when it meets another character. -/
  encode : Text → Text
  decode : Text → Option Text

/-- The message is made of the exception alone. -/
def session_catch : Error → Cmd Flow := catch_runtime_error (.ok ())

/-- The message names the database. -/
def service_catch (env : Env) : Error → Cmd Flow := catch_runtime_error env.database_name

/-- The switch over `result_case()`. -/
def judge {α : Type} (response : Option (Result α)) (succeed : α → Cmd Flow) : Cmd Flow :=
  match response with
  | some (.success a) => succeed a
  | some (.error _) => return .goes_on .err .server
  | some .not_set => return .goes_on .err .payload_broken
  | none => return .goes_on .err .payload_broken

/-- The end of a command that has succeeded. -/
def succeeds (monitor_output : Bool) : Cmd Flow := do
  finish monitor_output .absent
  return .returns .ok

/-! ## session -/

/-- `std::setw` with `std::left` and with `std::right`. -/
def left (width : Nat) (text : Text) : Text := text ++ List.replicate (width - text.length) 0x20

def right (width : Nat) (text : Text) : Text := List.replicate (width - text.length) 0x20 ++ text

/-- A column of the verbose list. -/
structure Column where
  title : Text
  least : Nat
  gap : Nat
  cell : SessionInfo → Text

def Column.width (c : Column) (entries : List SessionInfo) : Nat :=
  entries.foldl (fun w e => max w (c.cell e).length) c.least + c.gap

def columns (env : Env) : List Column :=
  [⟨ascii "id", 2, 2, (·.session_id)⟩, ⟨ascii "label", 5, 2, (·.label)⟩,
    ⟨ascii "application", 11, 2, (·.application)⟩, ⟨ascii "user", 4, 2, (·.user)⟩,
    ⟨ascii "start", 5, 2, fun e => env.to_timepoint_string e.start_at⟩,
    ⟨ascii "type", 4, 2, (·.connection_type)⟩, ⟨ascii "remote", 6, 0, (·.connection_info)⟩]

def verbose_title (env : Env) (entries : List SessionInfo) : Text :=
  (columns env).flatMap (fun c => left (c.width entries) c.title) ++ ascii "\n"

def verbose_line (env : Env) (entries : List SessionInfo) (e : SessionInfo) : Text :=
  (columns env).flatMap fun c => left (c.width entries) (c.cell e)

/-- The label stands for the session when it is there, has no blank in it and is no other
session's label, unless `--id` is given. -/
def session_reference (flags : Flags) (entries : List SessionInfo) (e : SessionInfo) : Text :=
  let labels := (entries.map (·.label)).filter fun label => !label.isEmpty
  if e.label.isEmpty || e.label.contains 0x20 || e.label.contains 0x09 || flags.id ||
      decide (1 < labels.count e.label) then e.session_id
  else e.label

def session_line (flags : Flags) (env : Env) (entries : List SessionInfo) (e : SessionInfo) :
    Text :=
  if flags.verbose then verbose_line env entries e
  else session_reference flags entries e ++ ascii " "

/-- `std::map::emplace`, which leaves alone a key that is there. -/
def emplace (key : Nat) (line : Text) : List (Nat × Text) → List (Nat × Text)
  | [] => [(key, line)]
  | (k, l) :: output =>
    if key < k then (key, line) :: (k, l) :: output
    else if key = k then (k, l) :: output
    else (k, l) :: emplace key line output

def session_info (env : Env) (e : SessionInfo) : Call :=
  .session_info e.session_id e.label e.application e.user (env.to_timepoint_string e.start_at)
    e.connection_type e.connection_info

/-- The number in a session id, which has one character before it. -/
def session_number (e : SessionInfo) : Except Error Nat := do
  let number ← stol (← substr_1 e.session_id)
  return (number % 2 ^ 64).toNat

/-- The loop over the entries; `output` has the lines so far. -/
def list_sessions (flags : Flags) (monitor_output : Bool) (env : Env)
    (entries : List SessionInfo) : List SessionInfo → List (Nat × Text) → Cmd (List (Nat × Text))
  | [], output => pure output
  | e :: rest, output => do
    let number ← observe (session_number e)
    data monitor_output (session_info env e)
    list_sessions flags monitor_output env entries rest
      (emplace number (session_line flags env entries e) output)

def session_list_succeeds (flags : Flags) (monitor_output : Bool) (env : Env)
    (entries : List SessionInfo) : Cmd Flow := do
  out_if flags.verbose (verbose_title env entries)
  let output ← list_sessions flags monitor_output env entries entries []
  out (output.flatMap fun line => line.2 ++ ascii "\n")
  succeeds monitor_output

def session_list (flags : Flags) (env : Env) : Cmd ReturnCode :=
  let monitor_output := !flags.monitor.isEmpty
  framed monitor_output ((do
    let response ← ask env.connect env.session_list (.ok .session_list)
    judge response (session_list_succeeds flags monitor_output env)).handle session_catch)

def session_text (env : Env) (e : SessionInfo) : Text :=
  [(ascii "id", e.session_id), (ascii "application", e.application), (ascii "label", e.label),
    (ascii "user", e.user), (ascii "start", env.to_timepoint_string e.start_at),
    (ascii "type", e.connection_type), (ascii "remote", e.connection_info)].flatMap
    fun line => left 13 line.1 ++ line.2 ++ ascii "\n"

def session_show (flags : Flags) (env : Env) (session_ref : Text) : Cmd ReturnCode :=
  let monitor_output := !flags.monitor.isEmpty
  framed monitor_output ((do
    let response ← ask env.connect env.session_get (.ok (.session_get session_ref))
    judge response fun e => do
      out (session_text env e)
      data monitor_output (session_info env e)
      succeeds monitor_output).handle session_catch)

def shutdown_type (flags : Flags) : SessionShutdownType :=
  if flags.graceful then .graceful else if flags.forceful then .forceful else .not_set

def session_shutdown (flags : Flags) (env : Env) (session_ref : Text) : Cmd ReturnCode :=
  let monitor_output := !flags.monitor.isEmpty
  framed monitor_output
    (if flags.graceful && flags.forceful then
      -- `reason` is still `absent`
      return .goes_on .err .absent
    else
      (do
        let response ← ask env.connect env.session_shutdown
          (.ok (.session_shutdown session_ref (shutdown_type flags)))
        judge response fun _ => succeeds monitor_output).handle session_catch)

/-- `set_value` is sent when `set`. -/
def session_swtch (flags : Flags) (env : Env) (session_ref set_key set_value : Text)
    (set : Bool) : Cmd ReturnCode :=
  let monitor_output := !flags.monitor.isEmpty
  framed monitor_output ((do
    let response ← ask env.connect env.session_set_variable
      (.ok (.session_set_variable session_ref set_key (if set then some set_value else none)))
    judge response fun _ => succeeds monitor_output).handle session_catch)

/-! ## metrics -/

def list_json_item (item : MetricsItem) : Text :=
  ascii "  \"" ++ item.key ++ ascii "\": \"" ++ item.description ++ ascii "\""

/-- The items, with a comma behind all but the last. -/
def list_json_items : List MetricsItem → Text
  | [] => []
  | [item] => list_json_item item ++ ascii "\n"
  | item :: items => list_json_item item ++ ascii ",\n" ++ list_json_items items

def list_json (info_list : MetricsInformation) : Text :=
  ascii "\x7b\n" ++ list_json_items info_list.items ++ ascii "\x7d\n"

/-- The lines of the text format. An item with the key of the line before has none. -/
def list_text_items (key_max description_max : Nat) : Text → List MetricsItem → Text
  | _, [] => []
  | prev_key, item :: items =>
    if prev_key = item.key then list_text_items key_max description_max prev_key items
    else
      right key_max item.key ++ ascii " : " ++ left description_max item.description ++
        ascii "\n" ++ list_text_items key_max description_max item.key items

def list_text (info_list : MetricsInformation) : Text :=
  let key_max := info_list.items.foldl (fun w item => max w item.key.length) 0
  let description_max := info_list.items.foldl (fun w item => max w item.description.length) 0
  list_text_items key_max description_max [] info_list.items

def show_element (element : MetricsElement) : Text :=
  ascii "    \x7b\n" ++
    element.attributes.flatMap
      (fun a => ascii "      \"" ++ a.1 ++ ascii "\": \"" ++ a.2 ++ ascii "\",\n") ++
    ascii "      \"value\": " ++ element.value ++ ascii "\n"

def show_elements : List MetricsElement → Text
  | [] => []
  | [element] => show_element element ++ ascii "    \x7d\n"
  | element :: elements => show_element element ++ ascii "    \x7d,\n" ++ show_elements elements

def show_item (item : MetricsItem) : Text :=
  match item.value with
  | .array elements =>
    ascii "  \"" ++ item.key ++ ascii "\": [\n" ++ show_elements elements ++ ascii "  ]"
  | .value value => ascii "  \"" ++ item.key ++ ascii "\": " ++ value
  | .not_set => ascii "  \"" ++ item.key ++ ascii "\": 0"

/-- The items, with a comma before all but the first. -/
def show_items : List MetricsItem → Text
  | [] => []
  | [item] => show_item item
  | item :: items => show_item item ++ ascii ",\n" ++ show_items items

def show_json (info_show : MetricsInformation) : Text :=
  ascii "\x7b\n" ++ show_items info_show.items ++ ascii "\n\x7d\n"

def metrics_list (flags : Flags) (env : Env) : Cmd ReturnCode :=
  let monitor_output := !flags.monitor.isEmpty
  framed monitor_output ((do
    match ← ask env.connect env.metrics_information (.ok .metrics_list) with
    | some info_list =>
      if flags.format = "json" then
        out (list_json info_list)
        succeeds monitor_output
      else if flags.format = "text" then
        out (list_text info_list)
        succeeds monitor_output
      else
        return .goes_on .err .invalid_argument
    | none => return .goes_on .err .payload_broken).handle (service_catch env))

def metrics_show (flags : Flags) (env : Env) : Cmd ReturnCode :=
  let monitor_output := !flags.monitor.isEmpty
  framed monitor_output ((do
    match ← ask env.connect env.metrics_information (.ok .metrics_show) with
    | some info_show =>
      if flags.format = "json" then
        out (show_json info_show)
        succeeds monitor_output
      else
        -- the text format has not been written yet
        return .goes_on .err .invalid_argument
    | none => return .goes_on .err .payload_broken).handle (service_catch env))

/-! ## request -/

def list_title : Text :=
  ascii "session-id  request-id  service-id  payload-size  elapsed-time (ms)\n" ++
  ascii "----------  ----------  ----------  ------------  -----------------\n"

/-- The milliseconds since a request was started, as a number of 64 bits. -/
def elapsed (env : Env) (e : RequestInfo) : Nat :=
  (((env.nms : Int) - e.started_time) % 2 ^ 64).toNat

def request_line (env : Env) (e : RequestInfo) : Text :=
  right 10 (nat_text e.session_id) ++ right 12 (nat_text e.request_id) ++
    right 12 (nat_text e.service_id) ++ right 14 (nat_text e.payload_size) ++
    right 19 (nat_text (elapsed env e)) ++ ascii "\n"

def list_requests (flags : Flags) (monitor_output : Bool) (env : Env) :
    List RequestInfo → Cmd Unit
  | [] => pure ()
  | e :: rest => do
    out_if (!flags.quiet) (request_line env e)
    data monitor_output
      (.request_list e.session_id e.request_id e.service_id e.payload_size (elapsed env e))
    list_requests flags monitor_output env rest

def request_list (flags : Flags) (env : Env) : Cmd ReturnCode :=
  let monitor_output := !flags.monitor.isEmpty
  framed monitor_output ((do
    let response ← ask env.connect env.list_request (.ok .list_request)
    judge response fun requests => do
      out_if (!flags.quiet) list_title
      list_requests flags monitor_output env requests
      succeeds monitor_output).handle (service_catch env))

def request_payload (flags : Flags) (env : Env) (session_id request_id : Nat) :
    Cmd ReturnCode :=
  let monitor_output := !flags.monitor.isEmpty
  framed monitor_output ((do
    let response ← ask env.connect env.get_payload (.ok (.get_payload session_id request_id))
    judge response fun payload => do
      out_if (!flags.quiet) (env.encode payload)
      data monitor_output (.request_payload (env.encode payload))
      succeeds monitor_output).handle (service_catch env))

def request_extract_sql_succeeds (flags : Flags) (monitor_output : Bool) (info : StatementInfo) :
    Cmd Flow := do
  out_if (info.sql.isSome && !flags.quiet) (info.sql.getD [] ++ ascii "\n")
  data monitor_output (.request_extract_sql info.transaction_id info.sql)
  succeeds monitor_output

/-- A character that is not of base64 throws `dataflow_exception`. -/
def decoded (env : Env) (payload : Text) : Except Error Text :=
  match env.decode payload with
  | some payload => .ok payload
  | none => .error (.exception "attempt to decode a value not in base64 char set")

/-- The payload is decoded before the transport is made. -/
def ask_statement_info (env : Env) (session_id : Nat) (payload : Text) :
    Cmd (Option SqlResponse) := do
  let payload ← observe (decoded env payload)
  ask env.connect env.sql (.ok (.extract_statement_info session_id payload))

def request_extract_sql (flags : Flags) (env : Env) (session_id : Nat) (payload : Text) :
    Cmd ReturnCode :=
  let monitor_output := !flags.monitor.isEmpty
  framed monitor_output ((do
    match ← ask_statement_info env session_id payload with
    | some (.extract_statement_info result) =>
      judge (some result) (request_extract_sql_succeeds flags monitor_output)
    | some .other => return .goes_on .err .payload_broken
    | none => return .goes_on .err .payload_broken).handle (service_catch env))

/-! ## altimeter -/

def post_processing (response : Option (Result Unit)) : Reason :=
  match response with
  | some (.success _) => .absent
  | some (.error _) => .server
  | some .not_set => .payload_broken
  | none => .payload_broken

/-- The last lines of the commands; both branches of the return code are the same. -/
def altimeter_flow (reason : Reason) : Flow :=
  .goes_on (if reason = .absent then .err else .err) reason

def altimeter_command (flags : Flags) (env : Env) (server : Server (Result Unit))
    (request : Except Error Request) : Cmd ReturnCode :=
  let monitor_output := !flags.monitor.isEmpty
  framed monitor_output ((do
    let response ← ask env.connect server request
    return altimeter_flow (post_processing response)).handle (service_catch env))

/-- The log that `type` names. -/
def log_category (type what : String) : Except Error LogCategory :=
  if type = "event" then .ok .event
  else if type = "audit" then .ok .audit
  else .error (.runtime_error .internal what)

def configure (category : LogCategory) (settings : LogSettings) : Request :=
  match category with
  | .event => .configure (some settings) none
  | .audit => .configure none (some settings)

def set_enabled_request (type : String) (enabled : Bool) : Except Error Request := do
  let category ← log_category type "illegal type for altimeter set_enabled"
  return configure category ⟨some enabled, none, none⟩

def set_enabled (flags : Flags) (env : Env) (type : String) (enabled : Bool) : Cmd ReturnCode :=
  altimeter_command flags env env.configure (set_enabled_request type enabled)

/-- The level is converted before the type is looked at. -/
def set_log_level_request (type : String) (level : Text) : Except Error Request := do
  let l ← stoul level
  let category ← log_category type "illegal type for altimeter set_log_level"
  return configure category ⟨none, some l, none⟩

def set_log_level (flags : Flags) (env : Env) (type : String) (level : Text) : Cmd ReturnCode :=
  altimeter_command flags env env.configure (set_log_level_request type level)

def set_statement_duration_request (value : Text) : Except Error Request := do
  let v ← stoul value
  return configure .event ⟨none, none, some v⟩

def set_statement_duration (flags : Flags) (env : Env) (value : Text) : Cmd ReturnCode :=
  altimeter_command flags env env.configure (set_statement_duration_request value)

def rotate_request (type : String) : Except Error Request := do
  let category ← log_category type "illegal type for altimeter rotate"
  return .log_rotate category

def rotate (flags : Flags) (env : Env) (type : String) : Cmd ReturnCode :=
  altimeter_command flags env env.log_rotate (rotate_request type)

/-! ## All the commands -/

/-- A call of one of the commands, with its arguments. -/
inductive Invocation
  | session_list
  | session_show (session_ref : Text)
  | session_shutdown (session_ref : Text)
  | session_swtch (session_ref set_key set_value : Text) (set : Bool)
  | metrics_list
  | metrics_show
  | request_list
  | request_payload (session_id request_id : Nat)
  | request_extract_sql (session_id : Nat) (payload : Text)
  | set_enabled (type : String) (enabled : Bool)
  | set_log_level (type : String) (level : Text)
  | set_statement_duration (value : Text)
  | rotate (type : String)

def run (flags : Flags) (env : Env) : Invocation → Cmd ReturnCode
  | .session_list => session_list flags env
  | .session_show session_ref => session_show flags env session_ref
  | .session_shutdown session_ref => session_shutdown flags env session_ref
  | .session_swtch session_ref set_key set_value set =>
    session_swtch flags env session_ref set_key set_value set
  | .metrics_list => metrics_list flags env
  | .metrics_show => metrics_show flags env
  | .request_list => request_list flags env
  | .request_payload session_id request_id => request_payload flags env session_id request_id
  | .request_extract_sql session_id payload => request_extract_sql flags env session_id payload
  | .set_enabled type enabled => set_enabled flags env type enabled
  | .set_log_level type level => set_log_level flags env type level
  | .set_statement_duration value => set_statement_duration flags env value
  | .rotate type => rotate flags env type

end tateyama_bootstrap.services
