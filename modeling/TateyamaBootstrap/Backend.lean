-- The server process (server/backend.cpp). A server finds its configuration
-- (configuration/bootstrap_configuration.h), takes the lock of its configuration and that of
-- its database name (process/proc_mutex.h), boots, serves and goes. Any number of servers run
-- beside each other, and `tgctl` and the clients look at their lock files.
import TateyamaBootstrap.Credentials
import TateyamaBootstrap.FileLocks
import TateyamaBootstrap.ProcessControl
import TateyamaBootstrap.Runs

open file_locks json runs

namespace tateyama_bootstrap

/-! ## The bootstrap configuration -/

namespace configuration

open authentication (append_path)

/-- What a server reads of its configuration. -/
structure Whole where
  pid_directory : Option Text
  database_name : Option Text

/-- What the constructor of `bootstrap_configuration` observes. -/
structure BootstrapEnv where
  env_home : Option Text
  env_conf : Option Text
  file_exists : Text → Bool
  is_directory : Text → Bool
  canonical : Text → Text
  /-- `create_configuration` of the file, with the home as its base path. -/
  create_configuration : Text → Option Text → Option Whole

structure Bootstrap where
  conf_file : Text
  lock_file : Text
  configuration_ : Whole

def HOME_CONF_FILE : Text := ascii "var/etc/tsurugi.ini"

/-- The flag comes before `TSURUGI_CONF`, and this before `TSURUGI_HOME`. -/
def conf_file (env : BootstrapEnv) (fname : Text) : Option Text :=
  if !fname.isEmpty then some fname
  else
    match env.env_conf with
    | some path => some path
    | none => env.env_home.map fun home => append_path home HOME_CONF_FILE

def hex_digit (n : Nat) : UInt8 := (ascii "0123456789abcdef").getD n 0

/-- `std::hex` with `setw(width)` and `setfill('0')`, of a number that fits. -/
def hex_text : Nat → Nat → Text
  | 0, _ => []
  | width + 1, n => hex_text width (n / 16) ++ [hex_digit (n % 16)]

/-- `hash` is that of `std::hash<std::string>`. -/
def digest (hash : Text → UInt64) (path_string : Text) : Text :=
  hex_text 16 (hash path_string).toNat

def pid_file_name (digest : Text) : Text := ascii "tsurugi-" ++ digest ++ ascii ".pid"

/-- The constructor, where every exception makes an invalid configuration. -/
def create_bootstrap_configuration (hash : Text → UInt64) (env : BootstrapEnv) (fname : Text) :
    Option Bootstrap := do
  let conf_file ← conf_file env fname
  if !env.file_exists conf_file || env.is_directory conf_file then none
  else
    let configuration_ ← env.create_configuration conf_file env.env_home
    let directory ← configuration_.pid_directory
    let lock_file :=
      append_path directory (pid_file_name (digest hash (env.canonical conf_file)))
    some { conf_file, lock_file, configuration_ }

end configuration

namespace backend

open authentication (append_path)
open configuration
open process (State)

/-! ## The servers -/

/-- The two mutexes of `backend_main`: `mutex` and `shm_mutex`. -/
inductive Lock
  | process
  | database
deriving DecidableEq, Repr

/-- `shm_mutex::lock_file_name`. -/
def lock_file_name (dbname : Text) : Text := ascii "tsurugi-" ++ dbname ++ ascii ".lock"

/-- The lock files of a server. Without a database name there is no `shm_mutex`. -/
def lock_path (bst_conf : Bootstrap) : Lock → Option Text
  | .process => some bst_conf.lock_file
  | .database => do
    let database_name ← bst_conf.configuration_.database_name
    let directory ← bst_conf.configuration_.pid_directory
    some (append_path directory (lock_file_name database_name))

/-- How a server is launched. -/
structure Launch where
  env : BootstrapEnv
  conf : Text
  /-- `get_configuration`, `setup_glog` and `write_json` do not throw. -/
  configured : Bool

def Launch.path (hash : Text → UInt64) (launch : Launch) (l : Lock) : Option Text :=
  (create_bootstrap_configuration hash launch.env launch.conf).bind fun b => lock_path b l

def Launch.valid (hash : Text → UInt64) (launch : Launch) : Bool :=
  (create_bootstrap_configuration hash launch.env launch.conf).isSome && launch.configured

/-- A `proc_mutex` object of a server. -/
inductive Mutex
  | absent
  | opened
  /-- `lock` has called `ftruncate` and not yet `flock`. -/
  | truncated
  | owner
  /-- The destructor has closed the file of an owner and not yet unlinked it. -/
  | closed
deriving DecidableEq, Repr

def Mutex.is_open : Mutex → Bool
  | .opened | .truncated | .owner => true
  | .absent | .closed => false

/-- Where a server stands in `backend_main`. -/
inductive Pc
  | configure
  | locking (l : Lock)
  | setup
  | fill_contents
  /-- It is about to tell that it is ready. -/
  | boot
  | start
  | activate
  /-- It waits for a shutdown request. -/
  | serve
  | shutdown
  /-- It is about to call `exit(1)`, which destroys no local object. -/
  | failed
  /-- It destroys its local objects. -/
  | leave (code : Nat)
  /-- Without a code, it was killed. -/
  | gone (code : Option Nat)
deriving DecidableEq, Repr

structure Server where
  pc : Pc
  mutex : Lock → Mutex
  /-- What it has written to its status info, in this order. -/
  whole : List State

def Server.init : Server where
  pc := .configure
  mutex := fun _ => .absent
  whole := []

inductive ServerAct
  | configure
  | construct
  | construct_fails
  | truncate
  | truncate_fails
  | flock
  | setup (ok : Bool)
  /-- The altimeter could not be started before. -/
  | altimeter_fails
  | fill_contents
  | ready
  | start (ok : Bool)
  | activate
  | deactivate
  | shut_down
  /-- An exception leaves `backend_main`, a `std::runtime_error` or another. -/
  | throws (runtime_error : Bool)
  | close
  | unlink
  | leave
  | exit
  | crash
deriving DecidableEq, Repr

/-- Servers, and the `tgctl` and client processes that look at a lock file. -/
inductive Proc
  | server (p : Nat)
  | probe (q : Nat)
deriving DecidableEq, Repr

namespace Server

def set_mutex (v : Server) (l : Lock) (m : Mutex) : Server :=
  { v with mutex := Function.update v.mutex l m }

def tell (v : Server) (state : State) (pc : Pc) : Server :=
  { v with pc := pc, whole := v.whole ++ [state] }

/-- The end of the process. -/
def die (v : Server) (code : Option Nat) : Server :=
  { v with pc := .gone code, mutex := fun _ => .absent }

/-- The object that is destroyed next: `shm_mutex` is destroyed before `mutex`. -/
def next_mutex (v : Server) : Lock :=
  if v.mutex .database = .absent then .process else .database

/-- Where an exception passes through `backend_main`. -/
def may_throw (v : Server) : Bool :=
  match v.pc with
  | .setup | .fill_contents | .boot | .start | .activate | .serve | .shutdown => true
  | .configure | .locking _ | .failed | .leave _ | .gone _ => false

/-- What follows a mutex that is locked. -/
def after : Lock → Pc
  | .process => .setup
  | .database => .boot

end Server

section

variable (valid : Bool) (path : Lock → Option Text) (me : Proc)

/-- A mutex that cannot be locked. The constructor of `shm_mutex` tries again with the path
that it has moved from, which opens no file, and leaves no object behind. -/
def refuse (files : Files Text Proc) (v : Server) (x : Text) : Lock → Files Text Proc × Server
  | .process => (files, { v with pc := .failed })
  | .database => (files.close me x, (v.set_mutex .database .absent).tell .boot_error .failed)

/-- The constructor and `lock` of a mutex. -/
def lock_step (files : Files Text Proc) (v : Server) (l : Lock) (x : Text) :
    ServerAct → Option (Files Text Proc × Server)
  | .construct =>
    if v.mutex l = .absent then some (files.open_create me x, v.set_mutex l .opened) else none
  | .construct_fails => if v.mutex l = .absent then some (refuse me files v x l) else none
  | .truncate => if v.mutex l = .opened then some (files, v.set_mutex l .truncated) else none
  | .truncate_fails => if v.mutex l = .opened then some (refuse me files v x l) else none
  | .flock =>
    if v.mutex l = .truncated then
      match files.try_lock me x with
      | some files => some (files, { v.set_mutex l .owner with pc := Server.after l })
      | none => some (refuse me files v x l)
    else none
  | _ => none

/-- The destructors of the mutexes. -/
def leave_step (files : Files Text Proc) (v : Server) (code : Nat) :
    ServerAct → Option (Files Text Proc × Server)
  | .close =>
    match path v.next_mutex with
    | some x =>
      if v.mutex v.next_mutex = .owner then
        some (files.close me x, v.set_mutex v.next_mutex .closed)
      else none
    | none => none
  | .unlink =>
    match path v.next_mutex with
    | some x =>
      if v.mutex v.next_mutex = .closed then
        some (files.unlink x, v.set_mutex v.next_mutex .absent)
      else none
    | none => none
  | .leave =>
    if v.mutex .database = .absent ∧ v.mutex .process = .absent then
      some (files.exit me, v.die (some code))
    else none
  | _ => none

/-- The steps between, which touch no lock file: what the server tells, and where it goes.
`named` says that there is a database name. -/
def main_next (valid named : Bool) : Pc → ServerAct → Option (List State × Pc)
  | .configure, .configure => some ([], if valid then .locking .process else .failed)
  | .setup, .setup true => some ([], .fill_contents)
  | .setup, .setup false => some ([.boot_error], .failed)
  | .setup, .altimeter_fails => some ([], .failed)
  | .fill_contents, .fill_contents => some ([], if named then .locking .database else .boot)
  | .boot, .ready => some ([.ready], .start)
  | .start, .start true => some ([], .activate)
  | .start, .start false => some ([.boot_error], .failed)
  | .activate, .activate => some ([.activated], .serve)
  | .serve, .deactivate => some ([.deactivating], .shutdown)
  | .shutdown, .shut_down => some ([.deactivated], .leave 0)
  | _, _ => none

def main_step (v : Server) (a : ServerAct) : Option Server :=
  (main_next valid (path .database).isSome v.pc a).map fun next =>
    { v with pc := next.2, whole := v.whole ++ next.1 }

def server_step (files : Files Text Proc) (v : Server) (a : ServerAct) :
    Option (Files Text Proc × Server) :=
  match a with
  | .crash =>
    match v.pc with
    | .gone _ => none
    | _ => some (files.exit me, v.die none)
  | .exit => if v.pc = .failed then some (files.exit me, v.die (some 1)) else none
  | .throws runtime_error =>
    if v.may_throw then some (files, { v with pc := .leave (if runtime_error then 1 else 2) })
    else none
  | _ =>
    match v.pc with
    | .locking l =>
      match path l with
      | some x => lock_step me files v l x a
      | none => none
    | .leave code => leave_step path me files v code a
    | _ => (main_step valid path v a).map fun v => (files, v)

end

/-! ## Servers beside each other -/

structure Sys where
  files : Files Text Proc
  server : Nat → Server

def Sys.init : Sys where
  files := .init
  server := fun _ => .init

inductive Act
  | server (p : Nat) (a : ServerAct)
  /-- `status_provider::is_alive`, and the `check` of a mutex that `tgctl` has made: a process
  opens the lock file of a configuration, locks it if it can, unlocks and closes it. -/
  | probe_open (q p : Nat)
  | probe_lock (q p : Nat)
  | probe_unlock (q p : Nat)
  | probe_close (q p : Nat)
  /-- `tgctl_kill` unlinks the lock file of a configuration. -/
  | kill_unlink (p : Nat)

section

variable (hash : Text → UInt64) (launch : Nat → Launch)

/-- A call of a probe on the lock file of the configuration of `p`. -/
def probe_step (s : Sys) (p : Nat) (call : Text → Option (Files Text Proc)) : Option Sys :=
  (((launch p).path hash .process).bind call).map fun files => { s with files }

def step (s : Sys) : Act → Option Sys
  | .server p a =>
    (server_step ((launch p).valid hash) ((launch p).path hash) (.server p) s.files (s.server p)
      a).map fun next => { files := next.1, server := Function.update s.server p next.2 }
  | .probe_open q p => probe_step hash launch s p fun x =>
    if s.files.fd (.probe q) x = none then s.files.open_existing (.probe q) x else none
  | .probe_lock q p => probe_step hash launch s p fun x => s.files.try_lock (.probe q) x
  | .probe_unlock q p => probe_step hash launch s p fun x => some (s.files.unlock (.probe q) x)
  | .probe_close q p => probe_step hash launch s p fun x => some (s.files.close (.probe q) x)
  | .kill_unlink p => probe_step hash launch s p fun x => some (s.files.unlink x)

/-- No lock file is unlinked while a server holds its lock, and no server locks a file that
has lost its path. -/
def PathKept (s : Sys) : Act → Prop
  | .server p .unlink =>
    ∀ l x, (s.server p).mutex l = .closed → (launch p).path hash l = some x →
      ∀ q, ¬ s.files.Holds (.server q) x
  | .server p .flock =>
    ∀ l x, (s.server p).pc = .locking l → (launch p).path hash l = some x →
      (s.files.try_lock (.server p) x).isSome → s.files.entry x = s.files.fd (.server p) x
  | .kill_unlink p =>
    ∀ x, (launch p).path hash .process = some x → ∀ q, ¬ s.files.Holds (.server q) x
  | _ => True

end

/-! ## The names of the lock files -/

theorem getLast?_append_path (path name : Text) (h : name ≠ []) :
    (append_path path name).getLast? = name.getLast? := by
  unfold append_path
  split
  · rw [List.getLast?_append_of_ne_nil _ h]
  · rw [List.getLast?_append_of_ne_nil _ (by simp), List.getLast?_cons_of_ne_nil h]

theorem pid_file_name_last (digest : Text) : (pid_file_name digest).getLast? = some 0x64 := by
  unfold pid_file_name
  rw [List.getLast?_append_of_ne_nil _ (by decide)]
  rfl

theorem lock_file_name_last (dbname : Text) : (lock_file_name dbname).getLast? = some 0x6b := by
  unfold lock_file_name
  rw [List.getLast?_append_of_ne_nil _ (by decide)]
  rfl

theorem Launch.process_path_last {hash : Text → UInt64} {launch : Launch} {x : Text}
    (h : launch.path hash .process = some x) : x.getLast? = some 0x64 := by
  unfold Launch.path at h
  obtain ⟨b, hb, hx⟩ := Option.bind_eq_some_iff.mp h
  simp only [lock_path, Option.some.injEq] at hx
  subst hx
  unfold create_bootstrap_configuration at hb
  simp only [bind, Option.bind_eq_some_iff] at hb
  obtain ⟨file, -, hb⟩ := hb
  split at hb
  · cases hb
  · obtain ⟨whole, -, hb⟩ := Option.bind_eq_some_iff.mp hb
    obtain ⟨directory, -, hb⟩ := Option.bind_eq_some_iff.mp hb
    cases hb
    have hne : pid_file_name (digest hash (launch.env.canonical file)) ≠ [] := by
      simp [pid_file_name, ascii]
    rw [getLast?_append_path _ _ hne, pid_file_name_last]

theorem Launch.database_path_last {hash : Text → UInt64} {launch : Launch} {x : Text}
    (h : launch.path hash .database = some x) : x.getLast? = some 0x6b := by
  unfold Launch.path at h
  obtain ⟨b, -, hx⟩ := Option.bind_eq_some_iff.mp h
  obtain ⟨dbname, -, hx⟩ := Option.bind_eq_some_iff.mp hx
  obtain ⟨directory, -, hx⟩ := Option.bind_eq_some_iff.mp hx
  cases hx
  have hne : lock_file_name dbname ≠ [] := by
    simp [lock_file_name, ascii]
  rw [getLast?_append_path _ _ hne, lock_file_name_last]

/-- The lock file of a configuration is not that of a database name. -/
theorem Launch.path_lock {hash : Text → UInt64} {launch launch' : Launch} {l l' : Lock}
    {x : Text} (h : launch.path hash l = some x) (h' : launch'.path hash l' = some x) :
    l = l' := by
  cases l with
  | process =>
    cases l' with
    | process => rfl
    | database =>
      have hlast := (process_path_last h).symm.trans (database_path_last h')
      cases hlast
  | database =>
    cases l' with
    | process =>
      have hlast := (process_path_last h').symm.trans (database_path_last h)
      cases hlast
    | database => rfl

/-! ## What one step of a server does -/

/-- What a step of a server does to the files and to the mutexes of the server. -/
inductive FileMove (path : Lock → Option Text) (me : Proc) (files : Files Text Proc)
    (mutex : Lock → Mutex) : Files Text Proc → (Lock → Mutex) → Prop
  | still : FileMove path me files mutex files mutex
  | opens {l : Lock} {x : Text} (hx : path l = some x) (hm : mutex l = .absent) :
    FileMove path me files mutex (files.open_create me x) (Function.update mutex l .opened)
  | truncates {l : Lock} {x : Text} (hx : path l = some x) (hm : mutex l = .opened) :
    FileMove path me files mutex files (Function.update mutex l .truncated)
  | locks {l : Lock} {x : Text} {files' : Files Text Proc} (hx : path l = some x)
    (hlock : files.try_lock me x = some files') (hentry : files.entry x = files.fd me x) :
    FileMove path me files mutex files' (Function.update mutex l .owner)
  | closes {l : Lock} {x : Text} {m : Mutex} (hx : path l = some x) (hm : m.is_open = false) :
    FileMove path me files mutex (files.close me x) (Function.update mutex l m)
  | unlinks {l : Lock} {x : Text} (hx : path l = some x) (hm : mutex l = .closed)
    (hfree : ∀ q, ¬ files.Holds (.server q) x) :
    FileMove path me files mutex (files.unlink x) (Function.update mutex l .absent)
  | exits : FileMove path me files mutex (files.exit me) fun _ => .absent

section Moves

variable {valid : Bool} {path : Lock → Option Text} {me : Proc} {files : Files Text Proc}
  {v : Server} {a : ServerAct} {next : Files Text Proc × Server}

/-- The part of `PathKept` that concerns a step of this server. -/
structure Guarded (path : Lock → Option Text) (me : Proc) (files : Files Text Proc) (v : Server)
    (a : ServerAct) : Prop where
  flock : a = .flock → ∀ l x, v.pc = .locking l → path l = some x →
    (files.try_lock me x).isSome → files.entry x = files.fd me x
  unlink : a = .unlink → ∀ l x, v.mutex l = .closed → path l = some x →
    ∀ q, ¬ files.Holds (.server q) x

theorem refuse_move {l : Lock} {x : Text} (hx : path l = some x) :
    FileMove path me files v.mutex (refuse me files v x l).1 (refuse me files v x l).2.mutex := by
  cases l with
  | process => exact .still
  | database => exact .closes hx rfl

theorem lock_move {l : Lock} {x : Text} (hx : path l = some x) (hpc : v.pc = .locking l)
    (hg : Guarded path me files v a) (h : lock_step me files v l x a = some next) :
    FileMove path me files v.mutex next.1 next.2.mutex := by
  cases a with
  | construct =>
    obtain ⟨hm, ⟨⟩⟩ := Option.ite_none_right_eq_some.mp h
    exact .opens hx hm
  | construct_fails | truncate_fails =>
    obtain ⟨-, ⟨⟩⟩ := Option.ite_none_right_eq_some.mp h
    exact refuse_move hx
  | truncate =>
    obtain ⟨hm, ⟨⟩⟩ := Option.ite_none_right_eq_some.mp h
    exact .truncates hx hm
  | flock =>
    obtain ⟨-, h⟩ := Option.ite_none_right_eq_some.mp h
    split at h
    · rename_i files' hlock
      cases h
      exact .locks hx hlock (hg.flock rfl l x hpc hx (by simp [hlock]))
    · cases h
      exact refuse_move hx
  | _ => cases h

theorem leave_move {code : Nat} (hg : Guarded path me files v a)
    (h : leave_step path me files v code a = some next) :
    FileMove path me files v.mutex next.1 next.2.mutex := by
  cases a with
  | close =>
    simp only [leave_step] at h
    split at h
    · rename_i x hx
      obtain ⟨-, ⟨⟩⟩ := Option.ite_none_right_eq_some.mp h
      exact .closes hx rfl
    · cases h
  | unlink =>
    simp only [leave_step] at h
    split at h
    · rename_i x hx
      obtain ⟨hm, ⟨⟩⟩ := Option.ite_none_right_eq_some.mp h
      exact .unlinks hx hm (hg.unlink rfl _ x hm hx)
    · cases h
  | leave =>
    obtain ⟨-, ⟨⟩⟩ := Option.ite_none_right_eq_some.mp h
    exact .exits
  | _ => cases h

theorem main_mutex {v' : Server} (h : main_step valid path v a = some v') :
    v'.mutex = v.mutex := by
  obtain ⟨next, -, rfl⟩ := Option.map_eq_some_iff.mp h
  rfl

theorem server_move (hg : Guarded path me files v a)
    (h : server_step valid path me files v a = some next) :
    FileMove path me files v.mutex next.1 next.2.mutex := by
  unfold server_step at h
  split at h
  · split at h
    · cases h
    · cases h
      exact .exits
  · obtain ⟨-, ⟨⟩⟩ := Option.ite_none_right_eq_some.mp h
    exact .exits
  · obtain ⟨-, ⟨⟩⟩ := Option.ite_none_right_eq_some.mp h
    exact .still
  · split at h
    · rename_i l hpc
      split at h
      · rename_i x hx
        exact lock_move hx hpc hg h
      · cases h
    · exact leave_move hg h
    · obtain ⟨v', hv, rfl⟩ := Option.map_eq_some_iff.mp h
      simp only [main_mutex hv]
      exact .still

/-! ## The mutexes and the locks -/

/-- The mutexes of a server say which files it has open and which locks it holds. -/
structure Matched (path : Lock → Option Text) (me : Proc) (files : Files Text Proc)
    (mutex : Lock → Mutex) : Prop where
  opened : ∀ {l x}, path l = some x → (files.Opened me x ↔ (mutex l).is_open = true)
  holds : ∀ {l x}, path l = some x → (files.Holds me x ↔ mutex l = .owner)
  only : ∀ {x}, files.Opened me x → ∃ l, path l = some x

variable {mutex mutex' : Lock → Mutex} {files' : Files Text Proc}

theorem Matched.closed (hm : Matched path me files mutex) {l : Lock} {x : Text}
    (hx : path l = some x) (h : (mutex l).is_open = false) : files.fd me x = none := by
  have hnot : ¬ files.Opened me x := by
    rw [hm.opened hx, h]
    decide
  by_contra hne
  exact hnot (Option.ne_none_iff_exists'.mp hne)

/-- Nothing changes for the server. -/
theorem Matched.same (hm : Matched path me files mutex)
    (hsame : ∀ x, (files'.Opened me x ↔ files.Opened me x) ∧
      (files'.Holds me x ↔ files.Holds me x)) : Matched path me files' mutex := by
  refine ⟨?_, ?_, ?_⟩
  · intro l x hx
    rw [(hsame x).1]
    exact hm.opened hx
  · intro l x hx
    rw [(hsame x).2]
    exact hm.holds hx
  · intro x hx
    exact hm.only ((hsame x).1.mp hx)

/-- One mutex changes, with the file at its path. -/
theorem Matched.update (hinj : ∀ l l' x, path l = some x → path l' = some x → l = l')
    (hm : Matched path me files mutex) {l : Lock} {x : Text} {m : Mutex} (hx : path l = some x)
    (hopen : files'.Opened me x ↔ m.is_open = true) (hheld : files'.Holds me x ↔ m = .owner)
    (hopened : ∀ y, y ≠ x → (files'.Opened me y ↔ files.Opened me y))
    (hholds : ∀ y, y ≠ x → (files'.Holds me y ↔ files.Holds me y)) :
    Matched path me files' (Function.update mutex l m) := by
  have hother : ∀ {l' y}, path l' = some y → l' ≠ l → y ≠ x := by
    rintro l' y hy hne rfl
    exact hne (hinj _ _ _ hy hx)
  refine ⟨?_, ?_, ?_⟩
  · intro l' y hy
    by_cases hl : l' = l
    · subst hl
      cases hx.symm.trans hy
      rw [Function.update_self]
      exact hopen
    · rw [Function.update_of_ne hl, hopened y (hother hy hl)]
      exact hm.opened hy
  · intro l' y hy
    by_cases hl : l' = l
    · subst hl
      cases hx.symm.trans hy
      rw [Function.update_self]
      exact hheld
    · rw [Function.update_of_ne hl, hholds y (hother hy hl)]
      exact hm.holds hy
  · intro y hy
    by_cases hyx : y = x
    · subst hyx
      exact ⟨l, hx⟩
    · exact hm.only ((hopened y hyx).mp hy)

theorem FileMove.matched (hinj : ∀ l l' x, path l = some x → path l' = some x → l = l')
    (hs : files.Ok) (hm : Matched path me files mutex)
    (h : FileMove path me files mutex files' mutex') : Matched path me files' mutex' := by
  cases h with
  | still => exact hm
  | @opens l x hx habsent =>
    have hopens := Files.opens_open_create files me x
    have hclosed := hm.closed hx (by rw [habsent]; rfl)
    refine hm.update hinj hx ?_ ?_ ?_ ?_
    · simp [hopens.opened_iff, Mutex.is_open]
    · rw [hopens.holds_iff hs hclosed, hm.holds hx, habsent]
      simp
    · intro y hy
      simp [hopens.opened_iff, hy]
    · intro y _
      exact hopens.holds_iff hs hclosed
  | @truncates l x hx hopened =>
    refine hm.update hinj hx ?_ ?_ (fun _ _ => Iff.rfl) (fun _ _ => Iff.rfl)
    · rw [hm.opened hx, hopened]
      rfl
    · rw [hm.holds hx, hopened]
      simp
  | @locks l x files' hx hlock _ =>
    have hfd := Files.fd_try_lock hlock
    obtain ⟨i, hi, -, -⟩ := Files.try_lock_eq_some hlock
    have hsame : ∀ y, files'.Opened me y ↔ files.Opened me y := by
      intro y
      unfold Files.Opened
      rw [hfd]
    refine hm.update hinj hx ?_ ?_ (fun y _ => hsame y) ?_
    · rw [hsame]
      exact iff_of_true ⟨i, hi⟩ rfl
    · simp [Files.holds_try_lock hs hlock]
    · intro y hy
      simp [Files.holds_try_lock hs hlock, hy]
  | @closes l x m hx hopen =>
    refine hm.update hinj hx ?_ ?_ ?_ ?_
    · simp [Files.opened_close, hopen]
    · have hne : m ≠ .owner := by
        rintro rfl
        cases hopen
      simp [Files.holds_close hs, hne]
    · intro y hy
      simp [Files.opened_close, hy]
    · intro y hy
      simp [Files.holds_close hs, hy]
  | @unlinks l x hx hclosed _ =>
    refine hm.update hinj hx ?_ ?_ (fun _ _ => Iff.rfl) (fun _ _ => Iff.rfl)
    · change files.Opened me x ↔ _
      rw [hm.opened hx, hclosed]
      rfl
    · change files.Holds me x ↔ _
      rw [hm.holds hx, hclosed]
      simp
  | exits =>
    refine ⟨?_, ?_, ?_⟩
    · intro l x _
      simp [Files.opened_exit, Mutex.is_open]
    · intro l x _
      simp [Files.holds_exit]
    · intro x hx
      exact absurd rfl (Files.opened_exit.mp hx).2

theorem FileMove.ok (hs : files.Ok) (hm : Matched path me files mutex)
    (h : FileMove path me files mutex files' mutex') : files'.Ok := by
  cases h with
  | still | truncates => exact hs
  | @opens l x hx habsent =>
    exact (Files.opens_open_create files me x).ok hs (hm.closed hx (by rw [habsent]; rfl))
  | locks _ hlock _ => exact hs.try_lock hlock
  | closes => exact hs.close
  | unlinks => exact hs.unlink
  | exits => exact hs.exit

/-- The servers keep the paths of their locks. -/
theorem FileMove.kept (hs : files.Ok) (h : FileMove path me files mutex files' mutex') {q : Nat}
    {y : Text} (hk : files.Kept (.server q) y) : files'.Kept (.server q) y := by
  cases h with
  | still | truncates => exact hk
  | opens => exact (Files.opens_open_create files me _).kept hk
  | locks _ hlock hentry => exact hk.try_lock hs hlock fun _ _ => hentry
  | closes => exact hk.close
  | unlinks _ _ hfree => exact hk.unlink (hfree q)
  | exits => exact hk.exit

/-- The other processes have open and hold what they had. -/
theorem FileMove.others (hs : files.Ok) (hm : Matched path me files mutex)
    (h : FileMove path me files mutex files' mutex') {r : Proc} (hr : r ≠ me) (y : Text) :
    (files'.Opened r y ↔ files.Opened r y) ∧ (files'.Holds r y ↔ files.Holds r y) := by
  cases h with
  | still | truncates | unlinks => exact ⟨Iff.rfl, Iff.rfl⟩
  | @opens l x hx habsent =>
    have hopens := Files.opens_open_create files me x
    have hclosed := hm.closed hx (by rw [habsent]; rfl)
    exact ⟨by simp [hopens.opened_iff, hr], hopens.holds_iff hs hclosed⟩
  | locks _ hlock _ =>
    refine ⟨?_, by simp [Files.holds_try_lock hs hlock, hr]⟩
    unfold Files.Opened
    rw [Files.fd_try_lock hlock]
  | closes => exact ⟨by simp [Files.opened_close, hr], by simp [Files.holds_close hs, hr]⟩
  | exits => exact ⟨by simp [Files.opened_exit, hr], by simp [Files.holds_exit, hr]⟩

end Moves

end backend

end tateyama_bootstrap
