-- `tgctl credentials` (authentication/authenticator.cpp). The option for the lifetime goes to the
-- credential handler of the authenticator (authentication/credential_handler.cpp); the credential
-- is made by another one, which the transport has for its handshake (transport/transport.h).
import TateyamaBootstrap.Base64
import TateyamaBootstrap.ExpirationDates
import TateyamaBootstrap.JsonLayout
import TateyamaBootstrap.MonitorLog
import TateyamaBootstrap.Prompt
import TateyamaBootstrap.TextLines

open json

namespace tateyama_bootstrap.authentication

/-! ## Runs of the command -/

/-- An exception, by whether it is a `std::runtime_error`. -/
inductive Thrown
  | runtime_error (what : Text)
  | other (what : Text)
deriving DecidableEq, Repr

/-- What the command reads from and writes to as it goes. -/
structure World where
  console : Console
  cerr : Text
  /-- The files that it has written, with their paths. -/
  written : List (Text × Text)
deriving DecidableEq, Repr

/-- A part of the command; it has no result when a prompt waits for ever. -/
def Run (α : Type) : Type := World → Option (Except Thrown α × World)

namespace Run

instance : Monad Run where
  pure a := fun world => some (.ok a, world)
  bind x f := fun world =>
    match x world with
    | none => none
    | some (.error e, world) => some (.error e, world)
    | some (.ok a, world) => f a world

def raise {α : Type} (e : Thrown) : Run α := fun world => some (.error e, world)

/-- `catch (std::runtime_error &ex)`. -/
def handle {α : Type} (x : Run α) (handler : Text → Run α) : Run α := fun world =>
  match x world with
  | some (.error (.runtime_error what), world) => handler what world
  | r => r

/-- What a call gives that the command has no part in. -/
def observe {α : Type} : Except Thrown α → Run α
  | .ok a => pure a
  | .error e => raise e

end Run

def cerr (text : Text) : Run Unit := fun world =>
  some (.ok (), { world with cerr := world.cerr ++ text })

/-- A round of the prompt's loop for each character of the input, and one for its end. -/
def ask (msg : Text) (display : Bool) : Run Text := fun world =>
  (prompt (world.console.stdin.length + 1) msg display world.console).map fun (text, console) =>
    (.ok text, { world with console })

def write_file (path text : Text) : Run Unit := fun world =>
  some (.ok (), { world with written := world.written ++ [(path, text)] })

/-! ## The surroundings -/

/-- The command line flags; `overwrite'` and `auth'` are `FLAGS__overwrite` and `FLAGS__auth`,
which are true unless `--no-overwrite` and `--no-auth` are given. -/
structure Flags where
  user : Text
  auth_token : Text
  credentials : Text
  expiration : Int
  overwrite : Bool
  overwrite' : Bool
  auth' : Bool
deriving DecidableEq, Repr

inductive FileType
  | not_found
  | regular
  | directory
  | other
deriving DecidableEq, Repr

/-- The response to a request for the encryption key. -/
inductive EncryptionKey
  | success (encryption_key : Text)
  | unsupported_operation
  | error
deriving DecidableEq, Repr

/-- `request.Credential`, when it is set. -/
inductive Credential
  | encrypted_credential (text : Text)
  | remember_me_credential (token : Text)
deriving DecidableEq, Repr

inductive Handshake
  | success
  | error (message : Text)
deriving DecidableEq, Repr

/-- What the process, the file system, the server and the libraries answer. -/
structure Env where
  /-- `enabled` in the section `authentication` of the configuration, or what
  `get_configuration()` throws before it can be read. -/
  enabled : Except Thrown (Option Bool)
  /-- `connection_container` and `session_wire_container`. -/
  connect : Except Thrown Unit
  encryption_key : Except Thrown (Option EncryptionKey)
  handshake : Option Credential → Except Thrown (Option Handshake)
  /-- The clock, in nanoseconds. -/
  now : Nat
  TSURUGI_AUTH_TOKEN : Option Text
  HOME : Option Text
  status : Text → Except Thrown FileType
  /-- The status of the files after the call. -/
  create_directory : Text → Except Thrown (Text → Except Thrown FileType)
  /-- The contents of a file that can be opened for reading. -/
  read : Text → Option Text
  /-- A file can be opened for writing. -/
  opens : Text → Bool
  permissions : Text → Except Thrown Unit
  /-- `operator<<` of nlohmann::json for an object; none where it throws `type_error`. -/
  dump : List (Text × Json) → Option Text
  /-- `rsa_encrypter`, with a public key. -/
  encrypt : Text → Text → Except Thrown Text

/-! ## credential_handler -/

inductive CredentialType
  | not_defined
  | no_auth
  | user_password
  | auth_token
  | file
  | disabled
deriving DecidableEq, Repr

structure CredentialHandler where
  type : CredentialType := .not_defined
  json_text : Text := []
  auth_token : Text := []
  encrypted_credential : Text := []
  /-- In minutes. -/
  expiration : Int := 300
  expiration_date_string : Text := []
deriving DecidableEq, Repr

/-- `operator[]` of nlohmann::json with an assignment. The members are in the order of their
names. -/
def assign (name : Text) (v : Json) : List (Text × Json) → List (Text × Json)
  | [] => [(name, v)]
  | (n, w) :: j =>
    if name = n then (n, v) :: j
    else if name < n then (name, v) :: (n, w) :: j
    else (n, w) :: assign name v j

def FORMAT_VERSION : Nat := 1

/-- The nanoseconds of a number of minutes. -/
def minutes (n : Int) : Int := n * 60000000000

namespace CredentialHandler

def expiration_date (handler : CredentialHandler) : Text := handler.expiration_date_string

/-- `std::chrono::hours(expiration * 24)`. -/
def set_expiration (handler : CredentialHandler) (expiration : Int) : CredentialHandler :=
  { handler with expiration := expiration * 24 * 60 }

/-- `expiration()`. -/
def make_expiration (handler : CredentialHandler) (now : Nat) : CredentialHandler :=
  { handler with
    expiration_date_string := expiration_text (now + minutes handler.expiration).toNat }

/-- The object of `get_json_text`, with the handler that has its date. -/
def json_object (handler : CredentialHandler) (now : Nat) (user password : Text) :
    List (Text × Json) × CredentialHandler :=
  let j := assign (ascii "format_version") (.number false FORMAT_VERSION [] []) []
  let j := assign (ascii "user") (.string user) j
  let j := assign (ascii "password") (.string password) j
  if 0 < handler.expiration then
    let handler := handler.make_expiration now
    let j := assign (ascii "expiration_date") (.string handler.expiration_date_string) j
    (assign (ascii "password") (.string password) j, handler)
  else (assign (ascii "password") (.string password) j, handler)

def set_user_password (handler : CredentialHandler) (env : Env) (user password : Text) :
    Run CredentialHandler :=
  let (j, handler) := handler.json_object env.now user password
  match env.dump j with
  | some json_text => pure { handler with type := .user_password, json_text }
  | none => .raise (.other (ascii "type_error"))

def set_auth_token (handler : CredentialHandler) (auth_token : Text) : CredentialHandler :=
  { handler with type := .auth_token, auth_token }

/-- The first line of the file, if there is one. -/
def set_file_credential (handler : CredentialHandler) (env : Env) (path : Text) :
    CredentialHandler :=
  match env.read path with
  | none => { handler with type := .file }
  | some contents =>
    let encrypted_credential := contents.takeWhile (· ≠ newline)
    if encrypted_credential.isEmpty then { handler with type := .file }
    else { handler with type := .file, encrypted_credential }

end CredentialHandler

/-- `operator/=` of `std::filesystem::path`, for a relative name. -/
def append_path (path name : Text) : Text :=
  if path.isEmpty || path.getLast? = some 0x2f then path ++ name else path ++ 0x2f :: name

def credential_directory (home : Text) : Text := append_path home (ascii ".tsurugidb")

def default_credential_path (home : Text) : Text :=
  append_path (credential_directory home) (ascii "credentials.key")

def check_not_more_than_one (flags : Flags) : Bool :=
  if !flags.user.isEmpty &&
      (!flags.auth_token.isEmpty || !flags.credentials.isEmpty || !flags.auth') then false
  else if !flags.auth_token.isEmpty && (!flags.credentials.isEmpty || !flags.auth') then false
  else if !flags.credentials.isEmpty && !flags.auth' then false
  else true

/-- The options are looked at only when the authentication is on. -/
def auth_options (flags : Flags) (env : Env) (handler : CredentialHandler) :
    Run CredentialHandler := do
  let enabled_opt ← .observe env.enabled
  if enabled_opt ≠ some true then return { handler with type := .disabled }
  else if !check_not_more_than_one flags then
    .raise (.runtime_error (ascii "more than one credential options are specified"))
  else if !flags.auth' then return { handler with type := .no_auth }
  else if !flags.user.isEmpty then
    let password ← ask (ascii "password: ") false
    handler.set_user_password env flags.user password
  else if !flags.auth_token.isEmpty then return handler.set_auth_token flags.auth_token
  else if !flags.credentials.isEmpty then return handler.set_file_credential env flags.credentials
  else
    match env.TSURUGI_AUTH_TOKEN with
    | some token => return handler.set_auth_token token
    | none =>
      match env.HOME with
      | some home => return handler.set_file_credential env (default_credential_path home)
      | none => return handler

/-- The key that the lambda of the handshake gets. -/
def key_func (env : Env) : Run (Option Text) := do
  match ← .observe env.encryption_key with
  | some (.success encryption_key) => return some encryption_key
  | some .unsupported_operation =>
    cerr (ascii "authentication of tsurugidb is off\n")
    return none
  | some .error => return none
  | none => return none

def add_credential (env : Env) (handler : CredentialHandler) : Run (Option Credential) :=
  match handler.type with
  | .disabled => return none
  | .no_auth => return none
  | .user_password => do
    match ← key_func env with
    | some key =>
      let c ← .observe (env.encrypt key handler.json_text)
      return some (.encrypted_credential (base64_encode c))
    | none => .raise (.runtime_error (ascii "error in get encryption key"))
  | .auth_token => return some (.remember_me_credential handler.auth_token)
  | .file => return some (.encrypted_credential handler.encrypted_credential)
  | .not_defined => .raise (.runtime_error (ascii "no credential specified"))

/-! ## transport -/

def handshake_error : Text := ascii "handshake error"

/-- The constructor, with the encrypted credential that the transport has then. Its credential
handler is a new one. -/
def transport (flags : Flags) (env : Env) : Run Text := do
  .observe env.connect
  let handler ← auth_options flags env {}
  let credential ← add_credential env handler
  match ← .observe (env.handshake credential) with
  | none => .raise (.runtime_error handshake_error)
  | some (.error message) =>
    .raise (.runtime_error (if message.isEmpty then handshake_error else message))
  | some .success =>
    match credential with
    | some (.encrypted_credential text) => return text
    | _ => return []

/-! ## authenticator -/

def MAX_EXPIRATION : Int := 365

/-- A message, and the end of the command. -/
def fails (message : Text) : Run ReturnCode := do
  cerr message
  return .err

/-- The part that makes and writes the credential. -/
def store_credential (flags : Flags) (env : Env) (handler : CredentialHandler) (path : Text) :
    Run ReturnCode := do
  let encrypted_credential ← transport flags env
  if encrypted_credential.isEmpty then fails (ascii "cannot obtain encrypted credential\n")
  else if !env.opens path then fails (ascii "cannot open '" ++ path ++ ascii "'\n")
  else
    let d := handler.expiration_date
    write_file path (encrypted_credential ++ newline ::
      (if d.isEmpty then [] else d ++ [newline]))
    -- the error code that is tested behind this call is not the one it could set
    .observe (env.permissions path)
    return .ok

def file_exists (status : Text → Except Thrown FileType) (path : Text) : Run Bool := do
  let type ← .observe (status path)
  return decide (type ≠ .not_found)

/-- `FLAGS_user` is what the prompt gives where it is empty. -/
def flags_user (flags : Flags) : Run Flags :=
  if flags.user.isEmpty then do
    let user ← ask (ascii "user: ") true
    return { flags with user }
  else return flags

/-- A file that may be overwritten is not looked for. -/
def already_exists (flags : Flags) (status : Text → Except Thrown FileType) (path : Text) :
    Run Bool :=
  let overwrite := flags.overwrite && flags.overwrite'
  if overwrite then return false else file_exists status path

def credentials_path (flags : Flags) (env : Env) (status : Text → Except Thrown FileType)
    (path : Text) : Run ReturnCode :=
  if flags.expiration < 0 ∨ MAX_EXPIRATION < flags.expiration then
    fails (ascii
      "--expiration should be greater then or equal to 0 and less than or equal to 365\n")
  else if !flags.credentials.isEmpty then
    fails (ascii "--credentials option is invalid for credentials subcommand\n")
  else if !flags.auth_token.isEmpty then
    fails (ascii "--auth_token option is invalid for credentials subcommand\n")
  else if !flags.overwrite' && flags.overwrite then
    fails (ascii "both --overwrite and --no-overwrite are specified\n")
  else do
    let there ← already_exists flags status path
    if there then fails (ascii "file '" ++ path ++ ascii "' already exists\n")
    else
      let flags ← flags_user flags
      let handler := ({} : CredentialHandler).set_expiration flags.expiration
      (store_credential flags env handler path).handle fun what =>
        fails (ascii "cannot establish session with the user and the password: " ++ what ++
          ascii "\n")

/-- The directory of the default file is made where it is missing; what the files are then. -/
def make_directory (env : Env) (parent : Text) : Run (Text → Except Thrown FileType) := do
  let there ← file_exists env.status parent
  if there then return env.status else .observe (env.create_directory parent)

/-- `credentials()`. -/
def credentials_default (flags : Flags) (env : Env) : Run ReturnCode :=
  match env.HOME with
  | none => fails (ascii "the environment variable HOME is not defined\n")
  | some home => do
    let parent := credential_directory home
    let status ← make_directory env parent
    let type ← .observe (status parent)
    if type ≠ .directory then
      fails (ascii "'" ++ parent ++ ascii "' is not a directory\n")
    else credentials_path flags env status (default_credential_path home)

/-- `credentials(file_name)`. -/
def credentials_file (flags : Flags) (env : Env) (file_name : Text) : Run ReturnCode := do
  let type ← .observe (env.status file_name)
  if type ≠ .not_found ∧ type ≠ .regular then
    fails (ascii "'" ++ file_name ++ ascii "' is not a regular file\n")
  else credentials_path flags env env.status file_name

/-- The subcommand, with the file name that is given behind it. -/
def credentials (flags : Flags) (env : Env) : Option Text → Run ReturnCode
  | none => credentials_default flags env
  | some file_name => credentials_file flags env file_name

/-! ## What is asked of a credential -/

/-- What the server reads in a credential. -/
def plaintext (decrypt : Text → Option Text) (credential : Text) : Option Json :=
  ((request.decode credential).bind decrypt).bind parse

def days (n : Int) : Int := n * 86400000000000

/-- The first line of the file is a credential that lasts for `expiration` days, and the second
one is its date. With no days, the credential has no date. -/
def Lifetime (env : Env) (decrypt : Text → Option Text) (expiration : Int) (text : Text) : Prop :=
  ∃ credential rest members, lines text = credential :: rest ∧
    plaintext decrypt credential = some (.object members) ∧
    (0 < expiration →
      members.lookup (ascii "expiration_date") =
        some (.string (expiration_text (env.now + days expiration).toNat)) ∧
      rest.head? = some (expiration_text (env.now + days expiration).toNat)) ∧
    (expiration = 0 → members.lookup (ascii "expiration_date") = none)

/-- The object that the code builds, for a date. -/
def credential_object (user password date : Text) : List (Text × Json) :=
  [(ascii "expiration_date", .string date),
    (ascii "format_version", .number false FORMAT_VERSION [] []),
    (ascii "password", .string password), (ascii "user", .string user)]

/-- The libraries: the text of an object reads as the object, and the server, which has sent the
key, decrypts what is encrypted with it. -/
structure Wraps (env : Env) (decrypt : Text → Option Text) : Prop where
  parse_dump : ∀ user password date text,
    env.dump (credential_object user password date) = some text →
      parse text = some (.object (credential_object user password date))
  decrypt_encrypt : ∀ key text c, env.encryption_key = .ok (some (.success key)) →
    env.encrypt key text = .ok c → decrypt c = some text

/-- The user that the command goes on with. -/
def user_of (flags : Flags) (world : World) : Text :=
  if flags.user.isEmpty then world.console.stdin.takeWhile (· ≠ newline) else flags.user

/-! ## Parts that come to their end -/

namespace Run

variable {α β : Type} {x : Run α} {f : α → Run β} {world world' : World}

theorem bind_ok {b : β} : (x >>= f) world = some (.ok b, world') ↔
    ∃ a middle, x world = some (.ok a, middle) ∧ f a middle = some (.ok b, world') := by
  change (match x world with
    | none => none
    | some (.error e, world) => some (.error e, world)
    | some (.ok a, world) => f a world) = some (.ok b, world') ↔ _
  rcases x world with _ | ⟨e | a, middle⟩
  · simp
  · simp
  · simp

theorem pure_ok {a b : α} : (pure a : Run α) world = some (.ok b, world') ↔
    a = b ∧ world = world' := by
  change some (Except.ok a, world) = some (.ok b, world') ↔ _
  simp

theorem raise_ok {e : Thrown} {a : α} : ¬ (raise e : Run α) world = some (.ok a, world') := by
  simp [raise]

theorem observe_ok {r : Except Thrown α} {a : α} :
    (observe r) world = some (.ok a, world') ↔ r = .ok a ∧ world = world' := by
  rcases r with e | b
  · simp [observe, raise]
  · rw [observe, pure_ok]
    simp

theorem handle_ok {handler : Text → Run α} {a : α}
    (hhandler : ∀ what middle, ¬ handler what middle = some (.ok a, world')) :
    x.handle handler world = some (.ok a, world') ↔ x world = some (.ok a, world') := by
  unfold handle
  split
  · rename_i what middle hx
    simp [hhandler, hx]
  · rfl

end Run

theorem fails_ok {message : Text} {world world' : World} :
    ¬ fails message world = some (.ok .ok, world') := by
  unfold fails
  rw [Run.bind_ok]
  rintro ⟨_, _, -, h⟩
  simp [Run.pure_ok] at h

theorem prompt_loop_some {fuel : Nat} {stdin rest : List UInt8} {rtnv text : Text}
    (h : prompt_loop fuel stdin rtnv = some (text, rest)) :
    text = rtnv ++ stdin.takeWhile (· ≠ newline) := by
  by_cases hnewline : newline ∈ stdin
  · induction fuel generalizing stdin rtnv with
    | zero => simp [prompt_loop] at h
    | succ fuel ih =>
      rcases stdin with _ | ⟨c, stdin⟩
      · simp at hnewline
      rw [prompt_loop_cons] at h
      split at h
      · rename_i hc
        simp only [Option.some.injEq, Prod.mk.injEq] at h
        simp [hc, h.1]
      · rename_i hc
        have hmem : newline ∈ stdin := by
          rcases List.mem_cons.mp hnewline with hc' | hmem
          · exact absurd hc'.symm hc
          · exact hmem
        rw [ih h hmem, List.takeWhile_cons_of_pos (by simpa using hc)]
        simp
  · rw [prompt_loop_eof _ _ _ hnewline] at h
    simp at h

theorem ask_ok {msg text : Text} {display : Bool} {world world' : World}
    (h : ask msg display world = some (.ok text, world')) :
    text = world.console.stdin.takeWhile (· ≠ newline) ∧ world'.written = world.written := by
  unfold ask at h
  obtain ⟨⟨rtnv, after⟩, hprompt, heq⟩ := Option.map_eq_some_iff.mp h
  simp only [Prod.mk.injEq, Except.ok.injEq] at heq
  obtain ⟨rfl, rfl⟩ := heq
  refine ⟨?_, rfl⟩
  unfold prompt at hprompt
  rw [Console.ask_stdin] at hprompt
  split at hprompt
  · simp at hprompt
  · rename_i hloop
    simp only [Option.some.injEq, Prod.mk.injEq] at hprompt
    rw [← hprompt.1, prompt_loop_some hloop, List.nil_append]

theorem flags_user_ok {flags flags' : Flags} {world world' : World}
    (h : flags_user flags world = some (.ok flags', world')) :
    flags' = { flags with user := user_of flags world } ∧ world'.written = world.written := by
  unfold flags_user at h
  unfold user_of
  split at h
  · rename_i hempty
    rw [Run.bind_ok] at h
    obtain ⟨user, middle, hask, hpure⟩ := h
    obtain ⟨rfl, hwritten⟩ := ask_ok hask
    obtain ⟨rfl, rfl⟩ := Run.pure_ok.mp hpure
    rw [if_pos hempty]
    exact ⟨rfl, hwritten⟩
  · rename_i hempty
    obtain ⟨rfl, rfl⟩ := Run.pure_ok.mp h
    rw [if_neg hempty]
    exact ⟨rfl, rfl⟩

/-! ## The credential of the transport -/

/-- The date of a handler that has been told nothing. -/
def default_date (env : Env) : Text := expiration_text (env.now + minutes 300).toNat

theorem json_object_default (now : Nat) (user password : Text) :
    (({} : CredentialHandler).json_object now user password).1 =
      credential_object user password (expiration_text (now + minutes 300).toNat) := by
  rfl

section

variable {flags : Flags} {env : Env} {world world' : World}

/-- Where the handshake of a user has its credential from. -/
inductive Source (flags : Flags) (env : Env) : CredentialHandler → Prop
  | user_password {handler : CredentialHandler} (password : Text) (huser : flags.user ≠ [])
      (htype : handler.type = .user_password)
      (hjson : env.dump (credential_object flags.user password (default_date env)) =
        some handler.json_text) : Source flags env handler
  | file {handler : CredentialHandler} (home : Text) (huser : flags.user = [])
      (htype : handler.type = .file) (hhome : env.HOME = some home)
      (hread : handler.encrypted_credential =
        ((env.read (default_credential_path home)).getD []).takeWhile (· ≠ newline)) :
      Source flags env handler
  | none {handler : CredentialHandler} (htype : handler.type ≠ .user_password)
      (htype' : handler.type ≠ .file) : Source flags env handler

theorem set_file_credential_eq (env : Env) (path : Text) :
    (({} : CredentialHandler).set_file_credential env path).type = .file ∧
      (({} : CredentialHandler).set_file_credential env path).encrypted_credential =
        ((env.read path).getD []).takeWhile (· ≠ newline) := by
  unfold CredentialHandler.set_file_credential
  rcases env.read path with _ | contents
  · exact ⟨rfl, rfl⟩
  · by_cases hempty : (contents.takeWhile (· ≠ newline)).isEmpty
    · simp only [hempty, if_true, Option.getD_some, true_and]
      exact (List.isEmpty_iff.mp hempty).symm
    · simp only [hempty, Option.getD_some]
      exact ⟨rfl, rfl⟩

/-- The options leave the new handler of a transport with one of the sources. -/
theorem auth_options_ok {handler : CredentialHandler} (htoken : flags.auth_token = [])
    (hfile : flags.credentials = [])
    (h : auth_options flags env {} world = some (.ok handler, world')) :
    Source flags env handler ∧ world'.written = world.written := by
  unfold auth_options at h
  rw [Run.bind_ok] at h
  obtain ⟨enabled_opt, middle, henabled, h⟩ := h
  obtain ⟨-, rfl⟩ := Run.observe_ok.mp henabled
  split at h
  · obtain ⟨rfl, rfl⟩ := Run.pure_ok.mp h
    exact ⟨.none (by simp) (by simp), rfl⟩
  split at h
  · exact absurd h Run.raise_ok
  split at h
  · obtain ⟨rfl, rfl⟩ := Run.pure_ok.mp h
    exact ⟨.none (by simp) (by simp), rfl⟩
  split at h
  · rename_i huser
    rw [Run.bind_ok] at h
    obtain ⟨password, asked, hask, h⟩ := h
    have hwritten := (ask_ok hask).2
    unfold CredentialHandler.set_user_password at h
    dsimp only at h
    rw [json_object_default] at h
    rcases hdump : env.dump (credential_object flags.user password (default_date env))
      with _ | json_text
    · unfold default_date at hdump
      rw [hdump] at h
      exact absurd h Run.raise_ok
    · have hjson := hdump
      unfold default_date at hdump
      rw [hdump] at h
      obtain ⟨rfl, rfl⟩ := Run.pure_ok.mp h
      exact ⟨.user_password password (by simpa using huser) rfl hjson, hwritten⟩
  rename_i huser
  rw [htoken, hfile] at h
  simp only [List.isEmpty_nil, Bool.not_true, Bool.false_eq_true, if_false] at h
  rcases henv : env.TSURUGI_AUTH_TOKEN with _ | token
  · rw [henv] at h
    rcases hhome : env.HOME with _ | home
    · rw [hhome] at h
      obtain ⟨rfl, rfl⟩ := Run.pure_ok.mp h
      exact ⟨.none (by simp) (by simp), rfl⟩
    · rw [hhome] at h
      obtain ⟨rfl, rfl⟩ := Run.pure_ok.mp h
      obtain ⟨htype, hread⟩ := set_file_credential_eq env (default_credential_path home)
      exact ⟨.file home (by simpa using huser) htype hhome hread, rfl⟩
  · rw [henv] at h
    obtain ⟨rfl, rfl⟩ := Run.pure_ok.mp h
    exact ⟨.none (by simp [CredentialHandler.set_auth_token])
      (by simp [CredentialHandler.set_auth_token]), rfl⟩

theorem key_func_ok {key_opt : Option Text} (h : key_func env world = some (.ok key_opt, world')) :
    world'.written = world.written ∧
      ∀ key, key_opt = some key → env.encryption_key = .ok (some (.success key)) := by
  unfold key_func at h
  rw [Run.bind_ok] at h
  obtain ⟨response, middle, hobserve, h⟩ := h
  obtain ⟨hanswer, rfl⟩ := Run.observe_ok.mp hobserve
  rcases response with _ | encryption_key | _ | _
  · obtain ⟨rfl, rfl⟩ := Run.pure_ok.mp h
    exact ⟨rfl, by simp⟩
  · obtain ⟨rfl, rfl⟩ := Run.pure_ok.mp h
    refine ⟨rfl, ?_⟩
    intro key heq
    rw [hanswer, Option.some.inj heq]
  · obtain ⟨_, told, hcerr, h⟩ := Run.bind_ok.mp h
    obtain ⟨rfl, rfl⟩ := Run.pure_ok.mp h
    unfold cerr at hcerr
    simp only [Option.some.injEq, Prod.mk.injEq, true_and] at hcerr
    subst hcerr
    exact ⟨rfl, by simp⟩
  · obtain ⟨rfl, rfl⟩ := Run.pure_ok.mp h
    exact ⟨rfl, by simp⟩

/-- An encrypted credential comes from one of the two sources. -/
theorem add_credential_ok {handler : CredentialHandler} {text : Text}
    (h : add_credential env handler world =
      some (.ok (some (.encrypted_credential text)), world')) :
    world'.written = world.written ∧
    (handler.type = .user_password ∧ (∃ key c,
        env.encryption_key = .ok (some (.success key)) ∧
        env.encrypt key handler.json_text = .ok c ∧ text = base64_encode c) ∨
      handler.type = .file ∧ text = handler.encrypted_credential) := by
  unfold add_credential at h
  rcases htype : handler.type
  all_goals rw [htype] at h
  case not_defined => exact absurd h Run.raise_ok
  case no_auth => simp [Run.pure_ok] at h
  case user_password =>
    obtain ⟨key_opt, middle, hkey, h⟩ := Run.bind_ok.mp h
    obtain ⟨hwritten, hanswer⟩ := key_func_ok hkey
    rcases key_opt with _ | key
    · exact absurd h Run.raise_ok
    · obtain ⟨c, encrypted, hobserve, h⟩ := Run.bind_ok.mp h
      obtain ⟨hencrypt, rfl⟩ := Run.observe_ok.mp hobserve
      obtain ⟨heq, rfl⟩ := Run.pure_ok.mp h
      simp only [Option.some.injEq, Credential.encrypted_credential.injEq] at heq
      exact ⟨hwritten, Or.inl ⟨rfl, key, c, hanswer key rfl, hencrypt, heq.symm⟩⟩
  case auth_token => simp [Run.pure_ok] at h
  case file =>
    obtain ⟨heq, rfl⟩ := Run.pure_ok.mp h
    simp only [Option.some.injEq, Credential.encrypted_credential.injEq] at heq
    exact ⟨rfl, Or.inr ⟨rfl, heq.symm⟩⟩
  case disabled => simp [Run.pure_ok] at h

/-- A credential that is made for the user with the date of a new handler, or that is the first
line of the default file. -/
def Obtained (flags : Flags) (env : Env) (text : Text) : Prop :=
  (flags.user ≠ [] ∧ ∃ key password json c, env.encryption_key = .ok (some (.success key)) ∧
    env.dump (credential_object flags.user password (default_date env)) = some json ∧
    env.encrypt key json = .ok c ∧ text = base64_encode c) ∨
  (flags.user = [] ∧ ∃ home contents, env.HOME = some home ∧
    env.read (default_credential_path home) = some contents ∧
    text = contents.takeWhile (· ≠ newline))

theorem transport_ok {text : Text} (htoken : flags.auth_token = []) (hfile : flags.credentials = [])
    (h : transport flags env world = some (.ok text, world')) (hne : text ≠ []) :
    Obtained flags env text ∧ world'.written = world.written := by
  unfold transport at h
  obtain ⟨_, connected, hobserve, h⟩ := Run.bind_ok.mp h
  obtain ⟨-, rfl⟩ := Run.observe_ok.mp hobserve
  obtain ⟨handler, optioned, hoptions, h⟩ := Run.bind_ok.mp h
  obtain ⟨hsource, hwritten⟩ := auth_options_ok htoken hfile hoptions
  obtain ⟨credential, added, hadd, h⟩ := Run.bind_ok.mp h
  obtain ⟨response, shaken, hobserve, h⟩ := Run.bind_ok.mp h
  obtain ⟨-, rfl⟩ := Run.observe_ok.mp hobserve
  rcases response with _ | _ | message
  · exact absurd h Run.raise_ok
  · rcases credential with _ | encrypted | token
    · exact absurd (Run.pure_ok.mp h).1.symm hne
    · obtain ⟨rfl, rfl⟩ := Run.pure_ok.mp h
      obtain ⟨hwritten', hadded⟩ := add_credential_ok hadd
      refine ⟨?_, hwritten'.trans hwritten⟩
      rcases hadded with ⟨htype, key, c, hkey, hencrypt, rfl⟩ | ⟨htype, rfl⟩
      · rcases hsource with ⟨password, huser, -, hjson⟩ | ⟨home, huser, htype', -, -⟩ | ⟨hno, -⟩
        · exact Or.inl ⟨huser, key, password, _, c, hkey, hjson, hencrypt, rfl⟩
        · rw [htype] at htype'
          simp at htype'
        · exact absurd htype hno
      · rcases hsource with ⟨password, huser, htype', -⟩ | ⟨home, huser, -, hhome, hread⟩ | ⟨-, hno⟩
        · rw [htype] at htype'
          simp at htype'
        · rcases hcontents : env.read (default_credential_path home) with _ | contents
          · rw [hcontents] at hread
            exact absurd hread hne
          · rw [hcontents] at hread
            exact Or.inr ⟨huser, home, contents, hhome, hcontents, hread⟩
        · exact absurd htype hno
    · exact absurd (Run.pure_ok.mp h).1.symm hne
  · exact absurd h Run.raise_ok

/-! ## What the command writes -/

/-- The handler of the authenticator has never made a date, so there is no second line. -/
theorem store_credential_ok {handler : CredentialHandler} {path : Text}
    (h : store_credential flags env handler path world = some (.ok .ok, world'))
    (htoken : flags.auth_token = []) (hfile : flags.credentials = [])
    (hdate : handler.expiration_date = []) :
    ∃ text, Obtained flags env text ∧
      world'.written = world.written ++ [(path, text ++ [newline])] := by
  unfold store_credential at h
  obtain ⟨text, connected, htransport, h⟩ := Run.bind_ok.mp h
  split at h
  · exact absurd h fails_ok
  rename_i hne
  split at h
  · exact absurd h fails_ok
  obtain ⟨hobtained, hwritten⟩ := transport_ok htoken hfile htransport (by simpa using hne)
  obtain ⟨_, stored, hwrite, h⟩ := Run.bind_ok.mp h
  obtain ⟨_, permitted, hobserve, h⟩ := Run.bind_ok.mp h
  obtain ⟨-, rfl⟩ := Run.observe_ok.mp hobserve
  obtain ⟨-, rfl⟩ := Run.pure_ok.mp h
  unfold write_file at hwrite
  simp only [hdate, List.isEmpty_nil, if_true, Option.some.injEq, Prod.mk.injEq, true_and] at hwrite
  subst hwrite
  refine ⟨text, hobtained, ?_⟩
  rw [hwritten]

theorem file_exists_ok {status : Text → Except Thrown FileType} {path : Text} {there : Bool}
    (h : file_exists status path world = some (.ok there, world')) : world = world' := by
  unfold file_exists at h
  obtain ⟨type, observed, hobserve, h⟩ := Run.bind_ok.mp h
  obtain ⟨-, rfl⟩ := Run.observe_ok.mp hobserve
  exact (Run.pure_ok.mp h).2

theorem credentials_path_ok {status : Text → Except Thrown FileType} {path : Text}
    (h : credentials_path flags env status path world = some (.ok .ok, world')) :
    0 ≤ flags.expiration ∧
      ∃ text, Obtained { flags with user := user_of flags world } env text ∧
        world'.written = world.written ++ [(path, text ++ [newline])] := by
  unfold credentials_path at h
  split at h
  · exact absurd h fails_ok
  rename_i hrange
  split at h
  · exact absurd h fails_ok
  rename_i hfile
  split at h
  · exact absurd h fails_ok
  rename_i htoken
  split at h
  · exact absurd h fails_ok
  simp only [Bool.not_eq_true, Bool.not_eq_false', List.isEmpty_iff] at hfile htoken
  obtain ⟨there, looked, hthere, h⟩ := Run.bind_ok.mp h
  obtain rfl : world = looked := by
    unfold already_exists at hthere
    split at hthere
    · exact (Run.pure_ok.mp hthere).2
    · exact file_exists_ok hthere
  split at h
  · exact absurd h fails_ok
  obtain ⟨flags', asked, huser, h⟩ := Run.bind_ok.mp h
  obtain ⟨rfl, hwritten⟩ := flags_user_ok huser
  rw [Run.handle_ok fun _ _ => fails_ok] at h
  obtain ⟨text, hobtained, hstored⟩ := store_credential_ok h htoken hfile rfl
  refine ⟨by omega, text, hobtained, ?_⟩
  rw [hstored, hwritten]

/-- A successful command has written one file. -/
theorem credentials_ok {file_name : Option Text}
    (h : credentials flags env file_name world = some (.ok .ok, world')) :
    0 ≤ flags.expiration ∧
      ∃ path text, Obtained { flags with user := user_of flags world } env text ∧
        world'.written = world.written ++ [(path, text ++ [newline])] := by
  rcases file_name with _ | file_name
  · unfold credentials credentials_default at h
    rcases hhome : env.HOME with _ | home
    · rw [hhome] at h
      exact absurd h fails_ok
    rw [hhome] at h
    obtain ⟨status, made, hmake, h⟩ := Run.bind_ok.mp h
    obtain rfl : world = made := by
      unfold make_directory at hmake
      obtain ⟨there, looked, hthere, hmake⟩ := Run.bind_ok.mp hmake
      obtain rfl := file_exists_ok hthere
      split at hmake
      · exact (Run.pure_ok.mp hmake).2
      · exact (Run.observe_ok.mp hmake).2
    obtain ⟨type, observed, hobserve, h⟩ := Run.bind_ok.mp h
    obtain ⟨-, rfl⟩ := Run.observe_ok.mp hobserve
    split at h
    · exact absurd h fails_ok
    obtain ⟨hrange, text, hpath⟩ := credentials_path_ok h
    exact ⟨hrange, _, text, hpath⟩
  · unfold credentials credentials_file at h
    obtain ⟨type, observed, hobserve, h⟩ := Run.bind_ok.mp h
    obtain ⟨-, rfl⟩ := Run.observe_ok.mp hobserve
    split at h
    · exact absurd h fails_ok
    obtain ⟨hrange, text, hpath⟩ := credentials_path_ok h
    exact ⟨hrange, _, text, hpath⟩

/-! ## How long a credential lasts -/

variable {decrypt : Text → Option Text}

/-- A text in base64 stands on one line. -/
theorem newline_not_mem_base64 (input : Text) : newline ∉ base64_encode input := by
  intro hmem
  obtain ⟨word, hword, heq⟩ := List.mem_map.mp hmem
  have hback := binary_from_base64_from_binary (transform_width_6_8_lt hword)
  rw [heq] at hback
  have hnone : binary_from_base64 newline = none := by decide +kernel
  rw [hnone] at hback
  simp at hback

theorem Obtained.one_line {text : Text} (h : Obtained flags env text) :
    lines (text ++ [newline]) = [text] := by
  apply lines_end
  rcases h with ⟨-, key, password, json, c, -, -, -, rfl⟩ | ⟨-, home, contents, -, -, rfl⟩
  · exact newline_not_mem_base64 c
  · intro hmem
    simpa [newline] using List.mem_takeWhile_imp hmem

/-- The server finds the date of a new handler in a credential that is made for a user: the
option for the lifetime has not come to it. -/
theorem Obtained.plaintext {text : Text} (hwraps : Wraps env decrypt)
    (h : Obtained flags env text) (huser : flags.user ≠ []) :
    ∃ password, authentication.plaintext decrypt text =
      some (.object (credential_object flags.user password (default_date env))) := by
  rcases h with ⟨-, key, password, json, c, hkey, hdump, hencrypt, rfl⟩ | ⟨hempty, -⟩
  · refine ⟨password, ?_⟩
    have hdecode : request.decode (base64_encode c) = some c := request.decode_encode c
    unfold authentication.plaintext
    rw [hdecode, Option.bind_some, hwraps.decrypt_encrypt key json c hkey hencrypt,
      Option.bind_some, hwraps.parse_dump _ _ _ _ hdump]
  · exact absurd hempty huser

/-- The default file has a credential without a date. -/
def Undated (env : Env) (decrypt : Text → Option Text) : Prop :=
  ∃ home contents members, env.HOME = some home ∧
    env.read (default_credential_path home) = some contents ∧
    plaintext decrypt (contents.takeWhile (· ≠ newline)) = some (.object members) ∧
    members.lookup (ascii "expiration_date") = none

/-- A file with one line has the lifetime that is asked for only when that is no limit. -/
theorem lifetime_one_line_iff (env : Env) (decrypt : Text → Option Text) {text : Text}
    {expiration : Int} (hrange : 0 ≤ expiration)
    (hlines : lines (text ++ [newline]) = [text]) :
    Lifetime env decrypt expiration (text ++ [newline]) ↔
      expiration = 0 ∧ ∃ members, plaintext decrypt text = some (.object members) ∧
        members.lookup (ascii "expiration_date") = none := by
  unfold Lifetime
  rw [hlines]
  constructor
  · rintro ⟨credential, rest, members, heq, hplain, hdated, hundated⟩
    obtain ⟨rfl, rfl⟩ := List.cons.inj heq
    have hzero : expiration = 0 := by
      by_contra hne
      have := (hdated (by omega)).2
      simp at this
    exact ⟨hzero, members, hplain, hundated hzero⟩
  · rintro ⟨rfl, members, hplain, hundated⟩
    exact ⟨text, [], members, rfl, hplain, by simp, fun _ => hundated⟩

theorem Obtained.undated_iff {text : Text} (hwraps : Wraps env decrypt)
    (h : Obtained flags env text) :
    (∃ members, authentication.plaintext decrypt text = some (.object members) ∧
      members.lookup (ascii "expiration_date") = none) ↔
    flags.user = [] ∧ Undated env decrypt := by
  by_cases huser : flags.user = []
  · rcases h with ⟨hno, -⟩ | ⟨-, home, contents, hhome, hread, rfl⟩
    · exact absurd huser hno
    constructor
    · rintro ⟨members, hplain, hundated⟩
      exact ⟨huser, home, contents, members, hhome, hread, hplain, hundated⟩
    · rintro ⟨-, home', contents', members, hhome', hread', hplain, hundated⟩
      obtain rfl := Option.some.inj (hhome.symm.trans hhome')
      obtain rfl := Option.some.inj (hread.symm.trans hread')
      exact ⟨members, hplain, hundated⟩
  · obtain ⟨password, hplain⟩ := h.plaintext hwraps huser
    constructor
    · rintro ⟨members, hplain', hundated⟩
      rw [hplain] at hplain'
      obtain rfl := Json.object.inj (Option.some.inj hplain')
      have hdated : (credential_object flags.user password (default_date env)).lookup
          (ascii "expiration_date") = some (.string (default_date env)) := rfl
      rw [hdated] at hundated
      simp at hundated
    · rintro ⟨hempty, -⟩
      exact absurd hempty huser

end

/-- A successful command has written a credential with the lifetime that is asked for exactly
when that is none, no user is given, and the default file has a credential without a date. -/
theorem credentials_lifetime_iff (flags : Flags) (env : Env) (decrypt : Text → Option Text)
    (file_name : Option Text) (world world' : World) (hwraps : Wraps env decrypt)
    (h : credentials flags env file_name world = some (.ok .ok, world')) :
    (∃ path text, world'.written = world.written ++ [(path, text)] ∧
      Lifetime env decrypt flags.expiration text) ↔
    flags.expiration = 0 ∧ user_of flags world = [] ∧ Undated env decrypt := by
  obtain ⟨hrange, path, text, hobtained, hwritten⟩ := credentials_ok h
  have hlifetime := lifetime_one_line_iff env decrypt hrange hobtained.one_line
  rw [hobtained.undated_iff hwraps] at hlifetime
  rw [← hlifetime]
  constructor
  · rintro ⟨path', text', heq, hlast⟩
    rw [hwritten] at heq
    simp only [List.append_cancel_left_eq, List.cons.injEq, Prod.mk.injEq, and_true] at heq
    rw [heq.2]
    exact hlast
  · intro hlast
    exact ⟨path, _, hwritten, hlast⟩

/-! ## Two runs -/

/-- The members of a credential as nlohmann::json prints them, without blanks. -/
def credential_members (user password date : Text) : List Member :=
  [string_member (ascii "expiration_date") date,
    ⟨ascii "format_version", ascii "1", .number false FORMAT_VERSION [] [], True, True⟩,
    string_member (ascii "password") password, string_member (ascii "user") user]

/-- The text of a credential whose strings need no escapes. -/
def plain_dump : List (Text × Json) → Option Text
  | [(_, .string date), _, (_, .string password), (_, .string user)] =>
    if (Raw.quoted date).Clean ∧ (Raw.quoted password).Clean ∧ (Raw.quoted user).Clean then
      some (0x7b :: members_text [] [] [] (credential_members user password date))
    else none
  | _ => none

theorem parse_plain_dump {user password date text : Text}
    (h : plain_dump (credential_object user password date) = some text) :
    parse text = some (.object (credential_object user password date)) := by
  simp only [plain_dump, credential_object] at h
  split at h
  · rename_i hclean
    obtain rfl := Option.some.inj h
    have hone : Piece (ascii "1") (.number false FORMAT_VERSION [] []) True True :=
      piece_number rfl
    have hgood : ∀ m ∈ credential_members user password date, m.Good := by
      simp only [credential_members, List.forall_mem_cons]
      exact ⟨string_member_good _ _, hone, string_member_good _ _, string_member_good _ _, by simp⟩
    have hpiece := piece_members (by decide : Blank []) (by decide : Blank [])
      (by decide : Blank []) (by decide : Blank []) hgood
    have hread := (parse_piece hpiece (by decide : Blank [])).mpr ?_
    · rw [List.append_nil, List.nil_append] at hread
      exact hread
    · have hnames : (Raw.quoted (ascii "expiration_date")).Clean ∧
          (Raw.quoted (ascii "format_version")).Clean ∧ (Raw.quoted (ascii "password")).Clean ∧
          (Raw.quoted (ascii "user")).Clean := by decide
      obtain ⟨hdate, hpassword, huser⟩ := hclean
      obtain ⟨hdate', hversion', hpassword', huser'⟩ := hnames
      simp only [credential_members, List.forall_mem_cons, Member.Holds, Member.Utf8,
        string_member]
      exact ⟨⟨⟨hdate'.1, hdate.1⟩, ⟨hversion'.1, trivial⟩, ⟨hpassword'.1, hpassword.1⟩,
          ⟨huser'.1, huser.1⟩, by simp⟩,
        ⟨hdate'.2, hdate.2⟩, ⟨hversion'.2, trivial⟩, ⟨hpassword'.2, hpassword.2⟩,
        ⟨huser'.2, huser.2⟩, by simp⟩
  · simp at h

/-- A server that takes every credential, and a cipher that leaves the text as it is. -/
def accepting (read : Text → Option Text) : Env where
  enabled := .ok (some true)
  connect := .ok ()
  encryption_key := .ok (some (.success (ascii "key")))
  handshake := fun _ => .ok (some .success)
  now := 0
  TSURUGI_AUTH_TOKEN := none
  HOME := some (ascii "/home/user")
  status := fun _ => .ok .not_found
  create_directory := fun _ => .ok fun _ => .ok .directory
  read
  opens := fun _ => true
  permissions := fun _ => .ok ()
  dump := plain_dump
  encrypt := fun _ text => .ok text

theorem accepting_wraps (read : Text → Option Text) : Wraps (accepting read) some where
  parse_dump := fun _ _ _ _ => parse_plain_dump
  decrypt_encrypt := fun _ _ _ _ h => congrArg some (Except.ok.inj h).symm

def credential_flags (expiration : Int) : Flags := ⟨[], [], [], expiration, false, true, true⟩

def typing (stdin : Text) : World := ⟨⟨stdin, false, ⟨true, false⟩, []⟩, [], []⟩

/-- An empty user, and a default file with the credential of an empty object. -/
theorem credentials_lifetime_of_a_copy :
    ∃ world', Wraps (accepting fun _ => some (ascii "e30")) some ∧
      credentials (credential_flags 0) (accepting fun _ => some (ascii "e30"))
        (some (ascii "cred.key")) (typing [newline]) = some (.ok .ok, world') ∧
      ∃ path text, world'.written = [] ++ [(path, text)] ∧
        Lifetime (accepting fun _ => some (ascii "e30")) some 0 text := by
  have hrun : credentials (credential_flags 0) (accepting fun _ => some (ascii "e30"))
      (some (ascii "cred.key")) (typing [newline]) =
      some (.ok .ok, { typing [] with written := [(ascii "cred.key", ascii "e30\n")] }) := rfl
  refine ⟨_, accepting_wraps _, hrun, ?_⟩
  refine (credentials_lifetime_iff _ _ some _ _ _ (accepting_wraps _) hrun).mpr ?_
  exact ⟨rfl, rfl, _, _, [], rfl, rfl, rfl, rfl⟩

/-- A user with a password, and a lifetime of 90 days. -/
theorem the_lifetime_of_a_user_is_lost :
    ¬ (∀ (flags : Flags) (env : Env) (decrypt : Text → Option Text) (file_name : Option Text)
      (world world' : World), Wraps env decrypt →
      credentials flags env file_name world = some (.ok .ok, world') →
      ∃ path text, world'.written = world.written ++ [(path, text)] ∧
        Lifetime env decrypt flags.expiration text) := by
  intro h
  have hends : (credentials (credential_flags 90) (accepting fun _ => none)
      (some (ascii "cred.key")) (typing (ascii "alice\nsecret\n"))).map (·.1) =
      some (.ok .ok) := by
    decide +kernel
  obtain ⟨⟨_, world'⟩, hrun, rfl⟩ := Option.map_eq_some_iff.mp hends
  obtain ⟨path, text, hwritten, hlifetime⟩ :=
    h _ _ some _ _ world' (accepting_wraps fun _ => none) hrun
  obtain ⟨-, path', text', hobtained, hwritten'⟩ := credentials_ok hrun
  rw [hwritten'] at hwritten
  simp only [List.append_cancel_left_eq, List.cons.injEq, Prod.mk.injEq, and_true] at hwritten
  rw [← hwritten.2, lifetime_one_line_iff _ _ (by decide) hobtained.one_line] at hlifetime
  exact absurd hlifetime.1 (by decide)

end tateyama_bootstrap.authentication
