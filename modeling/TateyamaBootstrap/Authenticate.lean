-- `authenticate` (authentication/authenticator.cpp), which lets a user pass whose
-- credential the authentication service confirms: the client of the service
-- (authentication/client.h), the token (authentication/token_handler.h) and the check
-- of the user name.
import TateyamaBootstrap.AuthenticationUrl
import TateyamaBootstrap.Credentials
import TateyamaBootstrap.Errors
import TateyamaBootstrap.ProcMutexContents

open json patterns

namespace tateyama_bootstrap.authentication

/-! ## The authentication service -/

/-- What `httplib::Client::Get` returns or throws. -/
inductive HttpResult
  | response (status : Nat) (body : Text)
  /-- A timeout, or nobody there. -/
  | no_response
  | invalid_argument (what : Text)
deriving DecidableEq, Repr

/-- The grants of a token that are read. -/
structure Jwt where
  name : Option Text
  exp : Option Int
deriving DecidableEq, Repr

/-- The address that the client is made for. -/
structure Endpoint where
  host : Text
  port : Int
  path : Text
  /-- In milliseconds. -/
  request_timeout : Int
deriving DecidableEq, Repr

/-- The service and the libraries that the answers go through. -/
structure Service where
  Get : Endpoint → (path : Text) → (headers : List (Text × Text)) → HttpResult
  /-- `nlohmann::json::parse`, with the text of its exception. -/
  parse : Text → Except Text Json
  /-- The text of an exception of nlohmann for a value of the wrong type. -/
  type_error : Text
  /-- `jwt_decode` of a token with a public key, when it returns 0. -/
  jwt_decode : (token public_key : Text) → Option Jwt

/-- What a function of the client does: it returns, it throws an
`authentication_exception`, or it dereferences the end of a container. -/
inductive Reply (α : Type)
  | ok (a : α)
  | throws (what : Text)
  | undefined

/-- A member that is read as a string. -/
inductive MemberValue
  | text (t : Text)
  | type_error
  | undefined

/-- `std::string s = j.find(key).value()`. -/
def find_value (j : Json) (key : Text) : MemberValue :=
  match j with
  | .object ms =>
    match ms.lookup key with
    | some (.string t) => .text t
    | some _ => .type_error
    | none => .undefined
  | .array _ => .undefined
  | _ => .type_error

/-- `j.value("message", "")`. -/
def message_value (j : Json) : MemberValue :=
  match j with
  | .object ms =>
    match ms.lookup (ascii "message") with
    | some (.string t) => .text t
    | some _ => .type_error
    | none => .text []
  | _ => .type_error

def malfunction : Text := ascii "the authentication service malfunction"

/-- What the handler of `nlohmann::detail::exception` throws. -/
def json_exception (status : Nat) (what : Text) : Text :=
  if status = 503 then ascii "authentication service is unavailable"
  else ascii "invalid reply from the authentication service, " ++ what

/-- The common part of the three requests; `what` is what the request is for, and `read`
takes the answer of a response with status 200 apart. -/
def answer {α : Type} (service : Service) (what : Text) (result : HttpResult)
    (read : Json → (Text → Reply α) → Reply α) : Reply α :=
  match result with
  | .invalid_argument reason =>
    .throws (ascii "cannot " ++ what ++
      ascii " the authentication service, reason is le " ++ reason)
  | .no_response =>
    .throws (ascii "cannot " ++ what ++
      ascii " the authentication service due to timeout or service unavailable")
  | .response status body =>
    match service.parse body with
    | .error reason => .throws (json_exception status reason)
    | .ok j =>
      if status = 200 then read j fun reason => .throws (json_exception status reason)
      else
        match message_value j with
        | .text message => .throws (if message.isEmpty then malfunction else message)
        | _ => .throws (json_exception status service.type_error)

/-- A member of a response, with what comes after it. -/
def with_member {α : Type} (service : Service) (j : Json) (key : Text)
    (jex : Text → Reply α) (next : Text → Reply α) : Reply α :=
  match find_value j key with
  | .text t => next t
  | .type_error => jex service.type_error
  | .undefined => .undefined

/-- The key, whose type is always RSA. -/
def get_encryption_key (service : Service) (client : Endpoint) : Reply Text :=
  answer service (ascii "obtain encryption key from")
    (service.Get client (client.path ++ ascii "/encryption-key") []) fun j jex =>
      with_member service j (ascii "key_type") jex fun type =>
        with_member service j (ascii "key_data") jex fun data =>
          if ¬ type.isEmpty ∧ ¬ data.isEmpty ∧ type = ascii "RSA" then .ok data
          else .throws malfunction

/-- The token of the response. -/
def read_token (service : Service) (j : Json) (jex : Text → Reply Text) : Reply Text :=
  with_member service j (ascii "token") jex fun token =>
    if token.isEmpty then .throws malfunction else .ok token

def verify_token (service : Service) (client : Endpoint) (token_given : Text) : Reply Text :=
  answer service (ascii "verify token by")
    (service.Get client (client.path ++ ascii "/verify")
      [(ascii "Authorization", c_str (ascii "Bearer " ++ token_given))]) (read_token service)

def verify_encrypted (service : Service) (client : Endpoint) (encrypted_credential : Text) :
    Reply Text :=
  answer service (ascii "verify encrypted credential by")
    (service.Get client (client.path ++ ascii "/issue-encrypted")
      [(ascii "X-Encrypted-Credentials", c_str encrypted_credential)]) (read_token service)

/-! ## The name of the user -/

def MAXIMUM_USERNAME_LENGTH : Nat := 1024

/-- `\s`. -/
def whitespace (c : UInt8) : Bool := c == 0x20 || (0x09 ≤ c && c ≤ 0x0d)

def any_byte (_ : UInt8) : Bool := true

/-- `[\x20-\x7E\x80-\xFF]`. -/
def name_byte (c : UInt8) : Bool := (0x20 ≤ c && c ≤ 0x7e) || 0x80 ≤ c

def check_username : Option Text → Except Text (Option Text)
  | none => .ok none
  | some name =>
    if (find [.one whitespace, .many 0 any_byte] name).isSome then
      .error (ascii "invalid user name (begin with whitespace)")
    else if (find [.many 0 any_byte, .one whitespace] name).isSome then
      .error (ascii "invalid user name (end with whitespace)")
    else if MAXIMUM_USERNAME_LENGTH < name.length then
      .error (ascii "invalid user name (too long)")
    else if (find [.many 0 name_byte] name).isSome then .ok (some name)
    else .error (ascii "invalid user name (includes invalid charactor)")

/-! ## authenticate -/

/-- What becomes of the user. -/
inductive Verdict
  | accepted
  /-- A `tgctl::runtime_error`. -/
  | refused (reason : Reason) (what : Text)
  /-- A container of a response is read past its end. -/
  | undefined
deriving DecidableEq, Repr

/-- The section `authentication` and the service that it names. An exception of the
`get_configuration()` that the section comes from is one of `enabled`. -/
structure AuthEnv extends Env where
  request_timeout : Except Thrown (Option Int)
  url : Except Thrown (Option Text)
  service : Service

def authentication_failed : Text := ascii "authentication failed"

/-- The end of a case that does not let the user pass. -/
def fails_to_pass : Run Verdict := .raise (.runtime_error authentication_failed)

/-- What a token says, checked. -/
def pass_name (name_opt : Option Text) : Run Verdict :=
  match check_username name_opt with
  | .error what => .raise (.runtime_error what)
  | .ok (some _) => return .accepted
  | .ok none => do
    cerr (match name_opt with
      | some name => ascii "illegal user name: " ++ name ++ ascii "\n"
      | none => ascii "illegal user name\n")
    fails_to_pass

def jwt_name (jwt : Option Jwt) : Option Text := jwt.bind Jwt.name

def jwt_exp (jwt : Option Jwt) : Option Int := jwt.bind Jwt.exp

/-- The seconds of the clock. A comparison with an empty optional is false. -/
def not_expired (now : Nat) (exp : Option Int) : Bool :=
  exp.any fun e => ((now / 1000000000 : Nat) : Int) < e

def pass_credential (env : AuthEnv) (client : Endpoint) (encryption_key : Text) :
    Option Credential → Run Verdict
  | some (.encrypted_credential c) =>
    match verify_encrypted env.service client c with
    | .undefined => return .undefined
    | .throws what => .raise (.runtime_error what)
    | .ok token => pass_name (jwt_name (env.service.jwt_decode token encryption_key))
  | some (.remember_me_credential token) =>
    match verify_token env.service client token with
    | .undefined => return .undefined
    | .throws what => .raise (.runtime_error what)
    | .ok _ =>
      let jwt := env.service.jwt_decode token encryption_key
      if not_expired env.now (jwt_exp jwt) then pass_name (jwt_name jwt) else fails_to_pass
  | none => fails_to_pass

/-- The lambda for `add_credential` gives the key of the service. -/
def AuthEnv.keyed (env : AuthEnv) (encryption_key : Text) : Env :=
  { env.toEnv with encryption_key := .ok (some (.success encryption_key)) }

/-- What stands in the `try` block. -/
def dialogue (flags : Flags) (env : AuthEnv) (client : Endpoint) : Run Verdict :=
  match get_encryption_key env.service client with
  | .undefined => return .undefined
  | .throws what => .raise (.runtime_error what)
  | .ok encryption_key => do
    let handler ← auth_options flags env.toEnv {}
    let credential ← add_credential (env.keyed encryption_key) handler
    pass_credential env client encryption_key credential

/-- `catch (std::exception &ex)`. -/
def refuse_exceptions (x : Run Verdict) : Run Verdict := fun world =>
  match x world with
  | some (.error (.runtime_error what), world) =>
    some (.ok (.refused .authentication_failure what), world)
  | some (.error (.other what), world) =>
    some (.ok (.refused .authentication_failure what), world)
  | r => r

/-- `port.empty() ? 80 : stoi(port)`. -/
def port_number (port : Text) : Except Thrown Int :=
  if port.isEmpty then .ok 80
  else
    match proc_mutex.stoi (port.map fun b => Char.ofNat b.toNat) with
    | .value n => .ok n
    | .invalid_argument => .error (.other (ascii "stoi"))
    | .out_of_range => .error (.other (ascii "stoi"))

def endpoint (url : Text) (request_timeout : Int) : Except Thrown Endpoint := do
  let u := UrlParser.new url
  let port ← port_number u.port
  return { host := u.domain, port, path := u.path, request_timeout }

def authenticate (flags : Flags) (env : AuthEnv) : Run Verdict := do
  let enabled_opt ← .observe env.enabled
  if enabled_opt = some false then return .accepted
  else
    let request_timeout_opt ← .observe env.request_timeout
    let url_opt ← .observe env.url
    match request_timeout_opt, url_opt with
    | some request_timeout, some url =>
      let client ← .observe (endpoint url request_timeout)
      refuse_exceptions (dialogue flags env client)
    | _, _ => return .refused .server (ascii "error in config file")

/-! ## Names that are taken -/

section

variable {p : UInt8 → Bool} {s : Text}

theorem find_begin_iff :
    (find [.one p, .many 0 any_byte] s).isSome = true ↔ ∃ c ∈ s.head?, p c = true := by
  rw [find_isSome_iff]
  constructor
  · rintro ⟨parts, rfl, hall⟩
    cases hall with
    | cons hone htail =>
      obtain ⟨c, rfl, hc⟩ := hone
      exact ⟨c, rfl, hc⟩
  · rintro ⟨c, hc, hp⟩
    obtain ⟨rest, rfl⟩ := List.head?_eq_some_iff.mp hc
    refine ⟨[[c], rest], by simp, .cons ⟨c, rfl, hp⟩ (.cons ⟨Nat.zero_le _, ?_⟩ .nil)⟩
    exact fun _ _ => rfl

theorem find_end_iff :
    (find [.many 0 any_byte, .one p] s).isSome = true ↔ ∃ c ∈ s.getLast?, p c = true := by
  rw [find_isSome_iff]
  constructor
  · rintro ⟨parts, rfl, hall⟩
    cases hall with
    | @cons _ run _ _ hmany htail =>
      cases htail with
      | cons hone hnil =>
        cases hnil
        obtain ⟨c, rfl, hc⟩ := hone
        exact ⟨c, by simp, hc⟩
  · rintro ⟨c, hc, hp⟩
    obtain ⟨run, rfl⟩ := List.getLast?_eq_some_iff.mp hc
    refine ⟨[run, [c]], by simp, .cons ⟨Nat.zero_le _, ?_⟩ (.cons ⟨c, rfl, hp⟩ .nil)⟩
    exact fun _ _ => rfl

theorem find_all_iff : (find [.many 0 p] s).isSome = true ↔ ∀ c ∈ s, p c = true := by
  rw [find_isSome_iff]
  constructor
  · rintro ⟨parts, rfl, hall⟩
    cases hall with
    | cons hmany hnil =>
      cases hnil
      simpa using hmany.2
  · intro h
    exact ⟨[s], by simp, .cons ⟨Nat.zero_le _, h⟩ .nil⟩

end

/-- No white space at either end, `MAXIMUM_USERNAME_LENGTH` bytes at most, and none of the
control characters. The empty name is one of them. -/
structure ValidName (name : Text) : Prop where
  first : ∀ c ∈ name.head?, ¬ whitespace c = true
  last : ∀ c ∈ name.getLast?, ¬ whitespace c = true
  length : name.length ≤ MAXIMUM_USERNAME_LENGTH
  bytes : ∀ c ∈ name, name_byte c = true

theorem check_username_ok {name_opt : Option Text} {name : Text} :
    check_username name_opt = .ok (some name) ↔ name_opt = some name ∧ ValidName name := by
  rcases name_opt with _ | given
  · simp [check_username]
  simp only [check_username, find_begin_iff, find_end_iff, find_all_iff, Option.some.injEq]
  split
  · rename_i hbegin
    simp only [reduceCtorEq, false_iff]
    rintro ⟨rfl, hvalid⟩
    obtain ⟨c, hc, hspace⟩ := hbegin
    exact hvalid.first c hc hspace
  rename_i hbegin
  split
  · rename_i hend
    simp only [reduceCtorEq, false_iff]
    rintro ⟨rfl, hvalid⟩
    obtain ⟨c, hc, hspace⟩ := hend
    exact hvalid.last c hc hspace
  rename_i hend
  split
  · rename_i hlong
    simp only [reduceCtorEq, false_iff]
    rintro ⟨rfl, hvalid⟩
    exact absurd hvalid.length (by omega)
  rename_i hlong
  split
  · rename_i hbytes
    simp only [Except.ok.injEq, Option.some.injEq, iff_self_and]
    rintro rfl
    exact ⟨fun c hc hp => hbegin ⟨c, hc, hp⟩, fun c hc hp => hend ⟨c, hc, hp⟩, by omega, hbytes⟩
  · rename_i hbytes
    simp only [reduceCtorEq, false_iff]
    rintro ⟨rfl, hvalid⟩
    exact hbytes hvalid.bytes

/-! ## What the service says -/

section

variable {service : Service} {client : Endpoint}

/-- A response with status 200, and the members of the object in it. -/
def Answers (service : Service) (client : Endpoint) (path : Text)
    (headers : List (Text × Text)) (members : List (Text × Json)) : Prop :=
  ∃ body, service.Get client (client.path ++ path) headers = .response 200 body ∧
    service.parse body = .ok (.object members)

theorem answer_ok {α : Type} {what : Text} {result : HttpResult}
    {read : Json → (Text → Reply α) → Reply α} {a : α} :
    answer service what result read = .ok a ↔
      ∃ body j, result = .response 200 body ∧ service.parse body = .ok j ∧
        read j (fun reason => .throws (json_exception 200 reason)) = .ok a := by
  rcases result with ⟨status, body⟩ | _ | reason
  · simp only [answer, HttpResult.response.injEq]
    rcases hparse : service.parse body with reason | j
    · simp [hparse]
    by_cases hstatus : status = 200
    · subst hstatus
      simp [hparse]
    · simp only [hstatus, if_false, false_and, exists_false, iff_false]
      rcases message_value j <;> simp
  · simp [answer]
  · simp [answer]

theorem with_member_ok {α : Type} {j : Json} {key : Text} {what : Text → Text}
    {next : Text → Reply α} {a : α} :
    with_member service j key (fun reason => .throws (what reason)) next = .ok a ↔
      ∃ members t, j = .object members ∧ members.lookup key = some (.string t) ∧
        next t = .ok a := by
  cases j with
  | object members =>
    simp only [with_member, find_value, Json.object.injEq, exists_and_left, exists_eq_left']
    rcases members.lookup key with _ | v
    · simp
    · cases v <;> simp
  | _ => simp [with_member, find_value]

/-- The service gives its key. -/
def Key (service : Service) (client : Endpoint) (key : Text) : Prop :=
  ∃ members, Answers service client (ascii "/encryption-key") [] members ∧
    members.lookup (ascii "key_type") = some (.string (ascii "RSA")) ∧
    members.lookup (ascii "key_data") = some (.string key) ∧ key ≠ []

/-- The service answers a credential in a header with a token. -/
def Issues (service : Service) (client : Endpoint) (path : Text) (header : Text × Text)
    (token : Text) : Prop :=
  ∃ members, Answers service client path [header] members ∧
    members.lookup (ascii "token") = some (.string token) ∧ token ≠ []

theorem get_encryption_key_ok {key : Text} :
    get_encryption_key service client = .ok key ↔ Key service client key := by
  unfold get_encryption_key Key Answers
  simp only [answer_ok, with_member_ok]
  constructor
  · rintro ⟨body, j, hget, hparse, members, type, rfl, htype, members', data, heq, hdata, hok⟩
    obtain rfl := Json.object.inj heq
    split at hok
    · rename_i hcond
      obtain ⟨-, hne, rfl⟩ := hcond
      obtain rfl := Reply.ok.inj hok
      exact ⟨members, ⟨body, hget, hparse⟩, htype, hdata, by simpa using hne⟩
    · cases hok
  · rintro ⟨members, ⟨body, hget, hparse⟩, htype, hdata, hne⟩
    refine ⟨body, _, hget, hparse, members, _, rfl, htype, members, _, rfl, hdata, ?_⟩
    rw [if_pos ⟨by decide, by simpa using hne, rfl⟩]

theorem read_token_ok {path what : Text} {header : Text × Text} {token : Text} :
    answer service what (service.Get client (client.path ++ path) [header])
        (read_token service) = .ok token ↔
      Issues service client path header token := by
  unfold Issues Answers read_token
  simp only [answer_ok, with_member_ok]
  constructor
  · rintro ⟨body, j, hget, hparse, members, t, rfl, htoken, hok⟩
    split at hok
    · cases hok
    · rename_i hne
      obtain rfl := Reply.ok.inj hok
      exact ⟨members, ⟨body, hget, hparse⟩, htoken, by simpa using hne⟩
  · rintro ⟨members, ⟨body, hget, hparse⟩, htoken, hne⟩
    refine ⟨body, _, hget, hparse, members, _, rfl, htoken, ?_⟩
    rw [if_neg (by simpa using hne)]

theorem verify_encrypted_ok {c token : Text} :
    verify_encrypted service client c = .ok token ↔
      Issues service client (ascii "/issue-encrypted")
        (ascii "X-Encrypted-Credentials", c_str c) token :=
  read_token_ok

theorem verify_token_ok {token_given token : Text} :
    verify_token service client token_given = .ok token ↔
      Issues service client (ascii "/verify")
        (ascii "Authorization", c_str (ascii "Bearer " ++ token_given)) token :=
  read_token_ok

end

/-! ## The credential of the user -/

theorem prompt_loop_enough {fuel : Nat} {stdin : List UInt8} (rtnv : Text)
    (h : newline ∈ stdin) (hfuel : stdin.length ≤ fuel) :
    ∃ rest, prompt_loop fuel stdin rtnv =
      some (rtnv ++ stdin.takeWhile (· ≠ newline), rest) := by
  induction fuel generalizing stdin rtnv with
  | zero =>
    obtain rfl := List.length_eq_zero_iff.mp (Nat.le_zero.mp hfuel)
    cases h
  | succ fuel ih =>
    rcases stdin with _ | ⟨c, stdin⟩
    · cases h
    rw [prompt_loop_cons]
    by_cases hc : c = newline
    · subst hc
      exact ⟨stdin, by simp⟩
    · have hmem : newline ∈ stdin := by simpa [Ne.symm hc] using h
      obtain ⟨rest, hrest⟩ := ih (rtnv ++ [c]) hmem (by simpa using hfuel)
      refine ⟨rest, ?_⟩
      rw [if_neg hc, hrest, List.takeWhile_cons_of_pos (by simpa using hc)]
      simp

/-- The answer to a question is the line that is typed. -/
theorem ask_iff {msg text : Text} {display : Bool} {world : World} :
    (∃ world', ask msg display world = some (.ok text, world')) ↔
      newline ∈ world.console.stdin ∧
        text = world.console.stdin.takeWhile (· ≠ newline) := by
  constructor
  · rintro ⟨world', h⟩
    refine ⟨?_, (ask_ok h).1⟩
    by_contra hno
    unfold ask at h
    rw [prompt_eof _ _ _ _ hno] at h
    cases h
  · rintro ⟨hmem, rfl⟩
    obtain ⟨rest, hrest⟩ :=
      prompt_loop_enough [] hmem (Nat.le_succ world.console.stdin.length)
    unfold ask prompt
    rw [Console.ask_stdin, hrest]
    exact ⟨_, rfl⟩

/-- The credential that the options stand for, and without an option the environment or
the default file. -/
inductive Presents (flags : Flags) (env : Env) (key : Text) (stdin : List UInt8) :
    Credential → Prop
  | user_password {json c : Text} (huser : flags.user ≠ []) (htoken : flags.auth_token = [])
      (hfile : flags.credentials = []) (hline : newline ∈ stdin)
      (hdump : env.dump (credential_object flags.user (stdin.takeWhile (· ≠ newline))
        (default_date env)) = some json)
      (hencrypt : env.encrypt key json = .ok c) :
      Presents flags env key stdin (.encrypted_credential (base64_encode c))
  | auth_token (huser : flags.user = []) (htoken : flags.auth_token ≠ [])
      (hfile : flags.credentials = []) :
      Presents flags env key stdin (.remember_me_credential flags.auth_token)
  | credentials (huser : flags.user = []) (htoken : flags.auth_token = [])
      (hfile : flags.credentials ≠ []) :
      Presents flags env key stdin (.encrypted_credential
        (((env.read flags.credentials).getD []).takeWhile (· ≠ newline)))
  | environment {token : Text} (huser : flags.user = []) (htoken : flags.auth_token = [])
      (hfile : flags.credentials = []) (henv : env.TSURUGI_AUTH_TOKEN = some token) :
      Presents flags env key stdin (.remember_me_credential token)
  | home {home : Text} (huser : flags.user = []) (htoken : flags.auth_token = [])
      (hfile : flags.credentials = []) (henv : env.TSURUGI_AUTH_TOKEN = none)
      (hhome : env.HOME = some home) :
      Presents flags env key stdin (.encrypted_credential
        (((env.read (default_credential_path home)).getD []).takeWhile (· ≠ newline)))

section

variable {flags : Flags} {env : AuthEnv} {key : Text} {world world' : World}

/-- The two calls that make the credential. -/
def Made (flags : Flags) (env : AuthEnv) (key : Text) (world : World)
    (credential : Credential) : Prop :=
  ∃ handler middle world', auth_options flags env.toEnv {} world = some (.ok handler, middle) ∧
    add_credential (env.keyed key) handler middle = some (.ok (some credential), world')

theorem add_file_credential {path : Text} {credential : Credential} :
    add_credential (env.keyed key) (({} : CredentialHandler).set_file_credential env.toEnv path)
        world = some (.ok (some credential), world') ↔
      credential = .encrypted_credential (((env.read path).getD []).takeWhile (· ≠ newline)) ∧
        world = world' := by
  obtain ⟨htype, hread⟩ := set_file_credential_eq env.toEnv path
  unfold add_credential
  rw [htype]
  dsimp only
  rw [Run.pure_ok, hread, Option.some.injEq, eq_comm]

theorem add_auth_token {token : Text} {credential : Credential} :
    add_credential (env.keyed key) (({} : CredentialHandler).set_auth_token token)
        world = some (.ok (some credential), world') ↔
      credential = .remember_me_credential token ∧ world = world' := by
  change (pure (some _) : Run (Option Credential)) world = _ ↔ _
  rw [Run.pure_ok, Option.some.injEq, eq_comm]
  rfl

theorem key_func_keyed : key_func (env.keyed key) world = some (.ok (some key), world) := rfl

theorem add_user_password {handler : CredentialHandler} (htype : handler.type = .user_password)
    {credential : Credential} :
    add_credential (env.keyed key) handler world = some (.ok (some credential), world') ↔
      (∃ c, env.encrypt key handler.json_text = .ok c ∧
        credential = .encrypted_credential (base64_encode c)) ∧ world = world' := by
  unfold add_credential
  rw [htype]
  dsimp only
  constructor
  · intro h
    obtain ⟨key_opt, middle, hkey, h⟩ := Run.bind_ok.mp h
    rw [key_func_keyed] at hkey
    cases hkey
    obtain ⟨c, encrypted, hobserve, h⟩ := Run.bind_ok.mp h
    obtain ⟨hencrypt, rfl⟩ := Run.observe_ok.mp hobserve
    obtain ⟨heq, rfl⟩ := Run.pure_ok.mp h
    exact ⟨⟨c, hencrypt, (Option.some.inj heq).symm⟩, rfl⟩
  · rintro ⟨⟨c, hencrypt, rfl⟩, rfl⟩
    refine Run.bind_ok.mpr ⟨some key, world, key_func_keyed, ?_⟩
    exact Run.bind_ok.mpr ⟨c, world, Run.observe_ok.mpr ⟨hencrypt, rfl⟩, Run.pure_ok.mpr ⟨rfl, rfl⟩⟩

/-- A new handler has the credential object with the date of a new handler. -/
theorem set_user_password_ok {handler : CredentialHandler} {user password : Text} :
    ({} : CredentialHandler).set_user_password env.toEnv user password world =
        some (.ok handler, world') ↔
      (∃ json, env.dump (credential_object user password (default_date env.toEnv)) = some json ∧
        handler = { (({} : CredentialHandler).json_object env.now user password).2 with
          type := .user_password, json_text := json }) ∧ world = world' := by
  unfold CredentialHandler.set_user_password
  dsimp only
  rw [json_object_default]
  change (match env.dump (credential_object user password (default_date env.toEnv)) with
    | some json_text => _
    | none => _ : Run CredentialHandler) world = _ ↔ _
  rcases env.dump (credential_object user password (default_date env.toEnv)) with _ | json
  · simp [Run.raise_ok]
  · simp only [Run.pure_ok, Option.some.injEq, exists_eq_left']
    rw [eq_comm]

theorem check_not_more_than_one_iff (hauth : flags.auth' = true) :
    check_not_more_than_one flags = true ↔
      (flags.user = [] ∨ flags.auth_token = [] ∧ flags.credentials = []) ∧
        (flags.auth_token = [] ∨ flags.credentials = []) := by
  unfold check_not_more_than_one
  rw [hauth]
  rcases flags.user <;> rcases flags.auth_token <;> rcases flags.credentials <;> simp

theorem observe_bind {α β : Type} {a : α} {f : α → Run β} :
    (Run.observe (.ok a) >>= f) = f a := rfl

theorem Presents.made {credential : Credential} (henabled : env.enabled = .ok (some true))
    (hauth : flags.auth' = true)
    (h : Presents flags env.toEnv key world.console.stdin credential) :
    Made flags env key world credential := by
  have hone : check_not_more_than_one flags = true := by
    rw [check_not_more_than_one_iff hauth]
    cases h <;> simp_all
  cases h with
  | user_password huser htoken hfile hline hdump hencrypt =>
    have hask : ∃ middle, ask (ascii "password: ") false world =
        some (.ok (world.console.stdin.takeWhile (· ≠ newline)), middle) :=
      ask_iff.mpr ⟨hline, rfl⟩
    obtain ⟨middle, hask⟩ := hask
    have hset := set_user_password_ok.mpr ⟨⟨_, hdump, rfl⟩, Eq.refl middle⟩
    have hoptions : ∀ handler, ({} : CredentialHandler).set_user_password env.toEnv flags.user
        (world.console.stdin.takeWhile (· ≠ newline)) middle = some (.ok handler, middle) →
        auth_options flags env.toEnv {} world = some (.ok handler, middle) := by
      intro handler hset
      simp only [auth_options, henabled, observe_bind, hone, hauth, ne_eq, not_true, if_false,
        Bool.not_true, Bool.false_eq_true]
      rw [if_pos (by simpa using huser)]
      exact Run.bind_ok.mpr ⟨_, middle, hask, hset⟩
    exact ⟨_, middle, middle, hoptions _ hset,
      (add_user_password rfl).mpr ⟨⟨_, hencrypt, rfl⟩, rfl⟩⟩
  | auth_token huser htoken hfile =>
    refine ⟨_, world, world, ?_, add_auth_token.mpr ⟨rfl, rfl⟩⟩
    simp [auth_options, henabled, observe_bind, hone, hauth, huser, htoken, Run.pure_ok]
  | credentials huser htoken hfile =>
    refine ⟨_, world, world, ?_, add_file_credential.mpr ⟨rfl, rfl⟩⟩
    simp [auth_options, henabled, observe_bind, hone, hauth, huser, htoken, hfile, Run.pure_ok]
  | environment huser htoken hfile henv =>
    refine ⟨_, world, world, ?_, add_auth_token.mpr ⟨rfl, rfl⟩⟩
    simp [auth_options, henabled, observe_bind, hone, hauth, huser, htoken, hfile, henv,
      Run.pure_ok]
  | home huser htoken hfile henv hhome =>
    refine ⟨_, world, world, ?_, add_file_credential.mpr ⟨rfl, rfl⟩⟩
    simp [auth_options, henabled, observe_bind, hone, hauth, huser, htoken, hfile, henv, hhome,
      Run.pure_ok]

theorem Made.presents {credential : Credential} (h : Made flags env key world credential) :
    env.enabled = .ok (some true) ∧ flags.auth' = true ∧
      Presents flags env.toEnv key world.console.stdin credential := by
  obtain ⟨handler, middle, world', hoptions, hadd⟩ := h
  unfold auth_options at hoptions
  obtain ⟨enabled_opt, observed, hobserve, hoptions⟩ := Run.bind_ok.mp hoptions
  obtain ⟨henabled, rfl⟩ := Run.observe_ok.mp hobserve
  split at hoptions
  · obtain ⟨rfl, rfl⟩ := Run.pure_ok.mp hoptions
    exact absurd (Run.pure_ok.mp hadd).1 (by simp)
  rename_i htrue
  obtain rfl : enabled_opt = some true := not_not.mp htrue
  split at hoptions
  · exact absurd hoptions Run.raise_ok
  rename_i hone
  split at hoptions
  · obtain ⟨rfl, rfl⟩ := Run.pure_ok.mp hoptions
    exact absurd (Run.pure_ok.mp hadd).1 (by simp)
  rename_i hauth
  simp only [Bool.not_eq_true, Bool.not_eq_false'] at hone hauth
  obtain ⟨hmore, hmore'⟩ := (check_not_more_than_one_iff hauth).mp hone
  refine ⟨henabled, hauth, ?_⟩
  split at hoptions
  · rename_i huser
    replace huser : flags.user ≠ [] := by simpa using huser
    obtain ⟨htoken, hfile⟩ := hmore.resolve_left huser
    obtain ⟨password, asked, hask, hset⟩ := Run.bind_ok.mp hoptions
    obtain ⟨hline, rfl⟩ := ask_iff.mp ⟨asked, hask⟩
    obtain ⟨⟨json, hdump, rfl⟩, rfl⟩ := set_user_password_ok.mp hset
    obtain ⟨⟨c, hencrypt, rfl⟩, -⟩ := (add_user_password rfl).mp hadd
    exact .user_password huser htoken hfile hline hdump hencrypt
  rename_i huser
  replace huser : flags.user = [] := by simpa using huser
  split at hoptions
  · rename_i htoken
    replace htoken : flags.auth_token ≠ [] := by simpa using htoken
    obtain ⟨rfl, rfl⟩ := Run.pure_ok.mp hoptions
    obtain ⟨rfl, -⟩ := add_auth_token.mp hadd
    exact .auth_token huser htoken (hmore'.resolve_left htoken)
  rename_i htoken
  replace htoken : flags.auth_token = [] := by simpa using htoken
  split at hoptions
  · rename_i hfile
    obtain ⟨rfl, rfl⟩ := Run.pure_ok.mp hoptions
    obtain ⟨rfl, -⟩ := add_file_credential.mp hadd
    exact .credentials huser htoken (by simpa using hfile)
  rename_i hfile
  replace hfile : flags.credentials = [] := by simpa using hfile
  rcases henv : env.TSURUGI_AUTH_TOKEN with _ | token
  · rw [henv] at hoptions
    rcases hhome : env.HOME with _ | home
    · rw [hhome] at hoptions
      obtain ⟨rfl, rfl⟩ := Run.pure_ok.mp hoptions
      exact absurd hadd Run.raise_ok
    · rw [hhome] at hoptions
      obtain ⟨rfl, rfl⟩ := Run.pure_ok.mp hoptions
      obtain ⟨rfl, -⟩ := add_file_credential.mp hadd
      exact .home huser htoken hfile henv hhome
  · rw [henv] at hoptions
    obtain ⟨rfl, rfl⟩ := Run.pure_ok.mp hoptions
    obtain ⟨rfl, -⟩ := add_auth_token.mp hadd
    exact .environment huser htoken hfile henv

end

/-! ## Who passes -/

/-- A call that lets the user pass. -/
def Passes (x : Run Verdict) (world : World) : Prop :=
  ∃ world', x world = some (.ok .accepted, world')

section

variable {world : World}

theorem not_passes_raise {e : Thrown} : ¬ Passes (.raise e) world := by
  rintro ⟨world', h⟩
  exact Run.raise_ok h

theorem not_passes_undefined : ¬ Passes (pure .undefined) world := by
  rintro ⟨world', h⟩
  cases (Run.pure_ok.mp h).1

theorem passes_pure : Passes (pure .accepted) world := ⟨world, Run.pure_ok.mpr ⟨rfl, rfl⟩⟩

theorem passes_refuse_exceptions {x : Run Verdict} :
    Passes (refuse_exceptions x) world ↔ Passes x world := by
  unfold Passes refuse_exceptions
  rcases hx : x world with _ | ⟨e | v, world'⟩
  · simp
  · cases e <;> simp
  · simp

theorem passes_name_iff {name_opt : Option Text} :
    Passes (pass_name name_opt) world ↔ ∃ name, name_opt = some name ∧ ValidName name := by
  unfold pass_name
  simp only [← check_username_ok]
  rcases check_username name_opt with what | _ | name
  · simp [not_passes_raise]
  · simp only [Except.ok.injEq, reduceCtorEq, exists_false, iff_false]
    rintro ⟨world', h⟩
    obtain ⟨_, told, -, hfails⟩ := Run.bind_ok.mp h
    exact Run.raise_ok hfails
  · simp [passes_pure]

end

/-- What the service and the token must say of a credential. -/
def Trusted (env : AuthEnv) (client : Endpoint) (key : Text) : Credential → Prop
  | .encrypted_credential c => ∃ token jwt name,
      Issues env.service client (ascii "/issue-encrypted")
        (ascii "X-Encrypted-Credentials", c_str c) token ∧
      env.service.jwt_decode token key = some jwt ∧ jwt.name = some name ∧ ValidName name
  | .remember_me_credential token => ∃ confirmed jwt name exp,
      Issues env.service client (ascii "/verify")
        (ascii "Authorization", c_str (ascii "Bearer " ++ token)) confirmed ∧
      env.service.jwt_decode token key = some jwt ∧ jwt.name = some name ∧ ValidName name ∧
      jwt.exp = some exp ∧ ((env.now / 1000000000 : Nat) : Int) < exp

section

variable {flags : Flags} {env : AuthEnv} {client : Endpoint} {key : Text} {world : World}

theorem passes_encrypted_iff {c : Text} :
    Passes (pass_credential env client key (some (.encrypted_credential c))) world ↔
      Trusted env client key (.encrypted_credential c) := by
  unfold pass_credential
  simp only [Trusted, ← verify_encrypted_ok]
  rcases verify_encrypted env.service client c with token | what | _
  · simp only [passes_name_iff, Reply.ok.injEq, jwt_name, Option.bind_eq_some_iff]
    constructor
    · rintro ⟨name, ⟨jwt, hjwt, hname⟩, hvalid⟩
      exact ⟨token, jwt, name, rfl, hjwt, hname, hvalid⟩
    · rintro ⟨_, jwt, name, rfl, hjwt, hname, hvalid⟩
      exact ⟨name, ⟨jwt, hjwt, hname⟩, hvalid⟩
  · simp [not_passes_raise]
  · simp [not_passes_undefined]

theorem passes_remember_me_iff {token : Text} :
    Passes (pass_credential env client key (some (.remember_me_credential token))) world ↔
      Trusted env client key (.remember_me_credential token) := by
  unfold pass_credential
  simp only [Trusted, ← verify_token_ok]
  rcases verify_token env.service client token with confirmed | what | _
  · simp only [Reply.ok.injEq]
    rcases env.service.jwt_decode token key with _ | ⟨name_opt, exp_opt⟩
    · simp [not_expired, jwt_exp, fails_to_pass, not_passes_raise]
    · rcases exp_opt with _ | exp
      · simp [not_expired, jwt_exp, fails_to_pass, not_passes_raise]
      · by_cases hexp : (env.now : Int) / 1000000000 < exp
        · simp [not_expired, jwt_exp, jwt_name, hexp, passes_name_iff]
        · simp [not_expired, jwt_exp, hexp, fails_to_pass, not_passes_raise]
  · simp [not_passes_raise]
  · simp [not_passes_undefined]

theorem passes_credential_iff {credential : Option Credential} :
    Passes (pass_credential env client key credential) world ↔
      ∃ c, credential = some c ∧ Trusted env client key c := by
  rcases credential with _ | c | token
  · simp [pass_credential, fails_to_pass, not_passes_raise]
  · simp [passes_encrypted_iff]
  · simp [passes_remember_me_iff]

theorem passes_dialogue_iff :
    Passes (dialogue flags env client) world ↔
      ∃ key credential, Key env.service client key ∧ Made flags env key world credential ∧
        Trusted env client key credential := by
  unfold dialogue
  simp only [← get_encryption_key_ok]
  rcases get_encryption_key env.service client with key | what | _
  · simp only [Reply.ok.injEq, exists_and_left, exists_eq_left']
    constructor
    · rintro ⟨world', h⟩
      obtain ⟨handler, optioned, hoptions, h⟩ := Run.bind_ok.mp h
      obtain ⟨credential, added, hadd, h⟩ := Run.bind_ok.mp h
      obtain ⟨c, rfl, htrusted⟩ := passes_credential_iff.mp ⟨world', h⟩
      exact ⟨c, ⟨handler, optioned, added, hoptions, hadd⟩, htrusted⟩
    · rintro ⟨c, ⟨handler, optioned, added, hoptions, hadd⟩, htrusted⟩
      obtain ⟨world', h⟩ := passes_credential_iff.mpr ⟨c, rfl, htrusted⟩
      exact ⟨world', Run.bind_ok.mpr ⟨handler, optioned, hoptions,
        Run.bind_ok.mpr ⟨some c, added, hadd, h⟩⟩⟩
  · simp [not_passes_raise]
  · simp [not_passes_undefined]

end

/-- A user passes when the authentication is off. When it is on, a user passes without
`--no-auth` whose one credential the service at the address of the configuration confirms,
with a token that its key verifies, that has a valid name and, where the user has brought
it, that has not expired; nobody else does. -/
theorem a_user_passes_with_a_confirmed_credential (flags : Flags) (env : AuthEnv)
    (world : World) :
    Passes (authenticate flags env) world ↔
      env.enabled = .ok (some false) ∨
      env.enabled = .ok (some true) ∧ flags.auth' = true ∧
        ∃ request_timeout url client key credential,
          env.request_timeout = .ok (some request_timeout) ∧ env.url = .ok (some url) ∧
          endpoint url request_timeout = .ok client ∧ Key env.service client key ∧
          Presents flags env.toEnv key world.console.stdin credential ∧
          Trusted env client key credential := by
  unfold authenticate
  constructor
  · rintro ⟨world', h⟩
    obtain ⟨enabled_opt, observed, hobserve, h⟩ := Run.bind_ok.mp h
    obtain ⟨henabled, rfl⟩ := Run.observe_ok.mp hobserve
    split at h
    · rename_i hoff
      exact .inl (henabled.trans (congrArg _ hoff))
    right
    obtain ⟨request_timeout_opt, observed, hobserve, h⟩ := Run.bind_ok.mp h
    obtain ⟨htimeout, rfl⟩ := Run.observe_ok.mp hobserve
    obtain ⟨url_opt, observed, hobserve, h⟩ := Run.bind_ok.mp h
    obtain ⟨hurl, rfl⟩ := Run.observe_ok.mp hobserve
    rcases request_timeout_opt with _ | request_timeout
    · cases (Run.pure_ok.mp h).1
    rcases url_opt with _ | url
    · cases (Run.pure_ok.mp h).1
    obtain ⟨client, observed, hobserve, h⟩ := Run.bind_ok.mp h
    obtain ⟨hclient, rfl⟩ := Run.observe_ok.mp hobserve
    obtain ⟨key, credential, hkey, hmade, htrusted⟩ :=
      passes_dialogue_iff.mp (passes_refuse_exceptions.mp ⟨world', h⟩)
    obtain ⟨hon, hauth, hpresents⟩ := hmade.presents
    exact ⟨hon, hauth, request_timeout, url, client, key, credential, htimeout, hurl, hclient,
      hkey, hpresents, htrusted⟩
  · rintro (hoff | ⟨hon, hauth, request_timeout, url, client, key, credential, htimeout, hurl,
      hclient, hkey, hpresents, htrusted⟩)
    · rw [hoff, observe_bind, if_pos rfl]
      exact passes_pure
    · have hmade := hpresents.made hon hauth
      obtain ⟨world', h⟩ := passes_refuse_exceptions.mpr
        (passes_dialogue_iff.mpr ⟨key, credential, hkey, hmade, htrusted⟩)
      rw [hon, observe_bind, if_neg (by simp), htimeout, observe_bind, hurl, observe_bind]
      dsimp only
      rw [hclient, observe_bind]
      exact ⟨world', h⟩

end tateyama_bootstrap.authentication
