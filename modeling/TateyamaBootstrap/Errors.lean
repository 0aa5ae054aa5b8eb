-- The errors that the modelled code throws: `tgctl::runtime_error` with its
-- `monitor::reason` and its text, and the exceptions of the standard library
-- and of boost.
import Mathlib.Init

namespace tateyama_bootstrap

/-- `monitor::reason`. -/
inductive Reason
  | absent
  | connection
  | not_found
  | ambiguous
  | permission
  | variable_not_defined
  | variable_invalid_value
  | authentication_failure
  | connection_timeout
  | connection_failure
  | io
  | server
  | interrupted
  | internal
  | request_missing
  | payload_broken
  | sql_missing
  | sql_unresolved
  | initialization
  | another_process
  | invalid_status
  | invalid_argument
  | timeout
  | unknown
deriving DecidableEq, Repr

/-- What a call of the modelled code can throw. -/
inductive Error
  | runtime_error (code : Reason) (what : String)
  | out_of_range
  /-- An exception of another class of the standard library or of boost. -/
  | exception (what : String)
deriving DecidableEq, Repr

end tateyama_bootstrap
