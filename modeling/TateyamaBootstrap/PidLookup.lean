-- The look-up of the server's pid (process/control.cpp), for `tgctl pid` and
-- `tgctl diagnostic`: the lock file is opened once, and its pid is asked for until it is not 0.
import TateyamaBootstrap.ProcMutexContents

namespace tateyama_bootstrap.process

open proc_mutex

/-- The lock file while `get_pid` runs. -/
inductive LockFile
  | no_file
  /-- `opens` when `open` with `O_RDWR` succeeds. `locked` when another process has the lock. -/
  | file (opens regular locked : Bool) (content : String)
deriving DecidableEq, Repr

/-- What `get_pid` finds: the configuration file is valid, its configuration is there, and the
lock file. -/
structure PidEnv where
  valid : Bool
  conf : Bool
  lock_file : LockFile
deriving DecidableEq, Repr

namespace LockFile

/-- The constructor of `proc_mutex` without `create_file`. -/
def construct : LockFile → Except Error Unit
  | .no_file => .error (.runtime_error .internal "the lock file does not exist")
  | .file opens _ _ _ =>
    if opens then .ok () else .error (.runtime_error .internal "the lock file does not exist")

def check : LockFile → LockState
  | .no_file => .no_file
  | .file _ regular locked _ =>
    if !regular then .error else if locked then .locked else .not_locked

def content : LockFile → String
  | .no_file => ""
  | .file _ _ _ content => content

/-- `pid()`, with the check of the lock. -/
def pid (file : LockFile) : Except Error Int :=
  if file.check = .locked then proc_mutex.pid file.content else .ok 0

end LockFile

/-- The loop, for `fuel` turns of it; `none` while it has not come to an end. -/
def get_pid_loop (file : LockFile) : (fuel : Nat) → Option (Except Error Int)
  | 0 => none
  | fuel + 1 =>
    match file.pid with
    | .error e => some (.error e)
    | .ok pid => if pid ≠ 0 then some (.ok pid) else get_pid_loop file fuel

def get_pid (fuel : Nat) (env : PidEnv) : Option (Except Error Int) :=
  if env.valid then
    if env.conf then
      match env.lock_file.construct with
      | .error e => some (.error e)
      | .ok () => get_pid_loop env.lock_file fuel
    else some (.error (.runtime_error .internal "error in create_configuration"))
  else some (.error (.runtime_error .internal "cannot find any valid configuration file"))

/-! ## The number in the file -/

/-- The text begins with the decimal number `n`: white space and a plus sign may stand before
it, and anything but a digit behind it. -/
def Begins (text : List Char) (n : Nat) : Prop :=
  ∃ spaces sign digits rest, text = spaces ++ (sign ++ (digits ++ rest)) ∧
    (∀ c ∈ spaces, isspace c) ∧ (sign = [] ∨ sign = ['+']) ∧
    digits ≠ [] ∧ (∀ c ∈ digits, c.isDigit) ∧ (∀ c, rest.head? = some c → ¬c.isDigit) ∧
    n = Nat.ofDigitChars 10 digits 0

/-- The call ends with the number of a locked file or with a `tgctl::runtime_error`. -/
def Finishes (env : PidEnv) : Prop :=
  (∃ fuel code what, get_pid fuel env = some (.error (.runtime_error code what))) ∨
    ∃ fuel n, 0 < n ∧ get_pid fuel env = some (.ok (n : Nat)) ∧
      env.lock_file.check = .locked ∧ Begins env.lock_file.content.toList n

theorem takeWhile_digits {digits rest : List Char} (h : ∀ c ∈ digits, c.isDigit)
    (hrest : ∀ c, rest.head? = some c → ¬c.isDigit) :
    (digits ++ rest).takeWhile Char.isDigit = digits := by
  rw [List.takeWhile_append_of_pos h]
  rcases rest with _ | ⟨c, rest⟩
  · simp
  · simp [hrest c rfl]

theorem stoi_digits_iff (text : List Char) (n : Nat) :
    stoi_digits false text = .value n ↔
      text.takeWhile Char.isDigit ≠ [] ∧
        n = Nat.ofDigitChars 10 (text.takeWhile Char.isDigit) 0 ∧ n < 2 ^ 31 := by
  unfold stoi_digits
  simp only [Bool.false_eq_true, if_false, List.isEmpty_iff]
  by_cases h0 : text.takeWhile Char.isDigit = []
  · simp [h0]
  rw [if_neg h0]
  split
  · rename_i hrange
    simp only [Stoi.value.injEq, Int.ofNat_inj, ne_eq, h0, not_false_eq_true, true_and]
    omega
  · rename_i hrange
    simp only [reduceCtorEq, ne_eq, h0, not_false_eq_true, true_and, false_iff]
    omega

/-- A minus sign gives no positive number. -/
theorem stoi_digits_minus (text : List Char) {n : Nat} (hn : 0 < n) :
    stoi_digits true text ≠ .value n := by
  unfold stoi_digits
  simp only [if_true]
  split
  · simp
  split
  · simp only [ne_eq, Stoi.value.injEq]
    omega
  · simp

theorem begins_of_digits {spaces sign text : List Char} {n : Nat}
    (hspaces : ∀ c ∈ spaces, isspace c)
    (hsign : sign = [] ∨ sign = ['+']) (h : stoi_digits false text = .value n) :
    Begins (spaces ++ (sign ++ text)) n := by
  obtain ⟨hne, hvalue, -⟩ := (stoi_digits_iff text n).mp h
  refine ⟨spaces, sign, text.takeWhile Char.isDigit, text.dropWhile Char.isDigit, ?_, hspaces,
    hsign, hne, ?_, ?_, hvalue⟩
  · rw [List.takeWhile_append_dropWhile]
  · intro c hc
    exact List.mem_takeWhile_imp hc
  · intro c hc hdigit
    have := List.head?_dropWhile_not Char.isDigit text
    rw [hc] at this
    simp [hdigit] at this

/-- `stoi` returns a positive number exactly when the text begins with it. -/
theorem stoi_pos_iff (text : List Char) {n : Nat} (hn : 0 < n) :
    stoi text = .value n ↔ Begins text n ∧ n < 2 ^ 31 := by
  constructor
  · intro h
    have htext := List.takeWhile_append_dropWhile (p := isspace) (l := text)
    have hspaces : ∀ c ∈ text.takeWhile isspace, isspace c := fun c hc => List.mem_takeWhile_imp hc
    unfold stoi at h
    split at h
    · exact absurd h (stoi_digits_minus _ hn)
    · rename_i rest heq
      rw [heq] at htext
      rw [← htext]
      exact ⟨begins_of_digits hspaces (Or.inr rfl) h, ((stoi_digits_iff _ _).mp h).2.2⟩
    · rw [← htext]
      exact ⟨begins_of_digits hspaces (Or.inl rfl) h, ((stoi_digits_iff _ _).mp h).2.2⟩
  · rintro ⟨⟨spaces, sign, digits, rest, rfl, hspaces, hsign, hne, hdigits, hrest, hvalue⟩, hlt⟩
    have hread : stoi_digits false (digits ++ rest) = .value n := by
      rw [stoi_digits_iff, takeWhile_digits hdigits hrest]
      exact ⟨hne, hvalue, hlt⟩
    rcases digits with _ | ⟨c, digits⟩
    · exact absurd rfl hne
    have hc : c.isDigit := hdigits c (by simp)
    rcases hsign with rfl | rfl
    · rw [stoi_of_dropWhile hc ?_, ← hread]
      · rfl
      · rw [List.nil_append, List.dropWhile_append_of_pos hspaces]
        simp [isspace_of_isDigit hc]
    · unfold stoi
      rw [List.dropWhile_append_of_pos hspaces]
      simpa [isspace] using hread

/-! ## When it finishes -/

theorem pid_pos_iff (content : String) {n : Nat} (hn : 0 < n) :
    proc_mutex.pid content = .ok (n : Int) ↔ Begins content.toList n ∧ n < 2 ^ 31 := by
  rw [← stoi_pos_iff _ hn]
  unfold proc_mutex.pid
  split
  · rename_i h0
    have hnil : content.toList = [] := by
      rw [String.isEmpty_iff.mp h0]
      rfl
    have hstoi : stoi [] = .invalid_argument := by decide
    rw [hnil, hstoi, Except.ok.injEq]
    simp only [reduceCtorEq, iff_false]
    omega
  · rcases stoi content.toList with v | _ | _
    · simp
    · simp only [Except.ok.injEq, reduceCtorEq, iff_false]
      omega
    · simp

/-- The one exception that the text of the file can cause is not a `tgctl::runtime_error`. -/
theorem pid_error {content : String} {e : Error} (h : proc_mutex.pid content = .error e) :
    e = .out_of_range := by
  unfold proc_mutex.pid at h
  split at h
  · simp at h
  · split at h <;> simp at h
    exact h.symm

/-- The file does not change, so every turn of the loop finds what the first one finds. -/
theorem get_pid_loop_iff (file : LockFile) (r : Except Error Int) :
    (∃ fuel, get_pid_loop file fuel = some r) ↔ file.pid = r ∧ r ≠ .ok 0 := by
  have hturn : ∀ fuel, get_pid_loop file (fuel + 1) =
      if file.pid = .ok 0 then get_pid_loop file fuel else some file.pid := by
    intro fuel
    rw [get_pid_loop]
    rcases file.pid with e | pid
    · simp
    · by_cases h0 : pid = 0 <;> simp [h0]
  by_cases h0 : file.pid = .ok 0
  · have hnever : ∀ fuel, get_pid_loop file fuel = none := by
      intro fuel
      induction fuel with
      | zero => rfl
      | succ fuel ih => rw [hturn, if_pos h0, ih]
    constructor
    · rintro ⟨fuel, h⟩
      rw [hnever] at h
      simp at h
    · rintro ⟨h, hr⟩
      exact absurd (h.symm.trans h0) hr
  · constructor
    · rintro ⟨fuel, h⟩
      rcases fuel with _ | fuel
      · simp [get_pid_loop] at h
      · rw [hturn, if_neg h0] at h
        obtain rfl := Option.some.inj h
        exact ⟨rfl, h0⟩
    · rintro ⟨rfl, -⟩
      exact ⟨1, by rw [hturn, if_neg h0]⟩

/-- The file is locked and begins with a positive number of 31 bits. -/
def HasPid (file : LockFile) : Prop :=
  file.check = .locked ∧ ∃ n, 0 < n ∧ n < 2 ^ 31 ∧ Begins file.content.toList n

theorem loop_finishes_iff (file : LockFile) :
    ((∃ fuel code what, get_pid_loop file fuel = some (.error (.runtime_error code what))) ∨
      ∃ fuel n, 0 < n ∧ get_pid_loop file fuel = some (.ok (n : Nat)) ∧
        file.check = .locked ∧ Begins file.content.toList n) ↔ HasPid file := by
  constructor
  · rintro (⟨fuel, code, what, h⟩ | ⟨fuel, n, hn, h, hlocked, hbegins⟩)
    · obtain ⟨hpid, -⟩ := (get_pid_loop_iff file _).mp ⟨fuel, h⟩
      unfold LockFile.pid at hpid
      split at hpid
      · simpa using pid_error hpid
      · simp at hpid
    · obtain ⟨hpid, -⟩ := (get_pid_loop_iff file _).mp ⟨fuel, h⟩
      rw [LockFile.pid, if_pos hlocked, pid_pos_iff _ hn] at hpid
      exact ⟨hlocked, n, hn, hpid.2, hbegins⟩
  · rintro ⟨hlocked, n, hn, hlt, hbegins⟩
    have hpid : file.pid = .ok (n : Int) := by
      rw [LockFile.pid, if_pos hlocked, pid_pos_iff _ hn]
      exact ⟨hbegins, hlt⟩
    have hne : (.ok (n : Int) : Except Error Int) ≠ .ok 0 := by
      simp only [ne_eq, Except.ok.injEq]
      omega
    obtain ⟨fuel, hfuel⟩ := (get_pid_loop_iff file _).mpr ⟨hpid, hne⟩
    exact Or.inr ⟨fuel, n, hn, hfuel, hlocked, hbegins⟩

/-- The look-up finishes as it should exactly when it throws before its loop or finds a positive
number in a locked file. -/
theorem get_pid_finishes_iff (env : PidEnv) :
    Finishes env ↔ env.valid = false ∨ env.conf = false ∨ env.lock_file.construct ≠ .ok () ∨
      HasPid env.lock_file := by
  unfold Finishes get_pid
  by_cases hvalid : env.valid
  case neg => simp [hvalid]
  by_cases hconf : env.conf
  case neg => simp [hvalid, hconf]
  simp only [hvalid, hconf, if_true]
  rcases hopen : env.lock_file.construct with e | _
  · have hthrows : ∃ code what, e = .runtime_error code what := by
      unfold LockFile.construct at hopen
      split at hopen
      · exact ⟨_, _, (Except.error.inj hopen).symm⟩
      · split at hopen
        · simp at hopen
        · exact ⟨_, _, (Except.error.inj hopen).symm⟩
    obtain ⟨code, what, rfl⟩ := hthrows
    simp
  · simpa using loop_finishes_iff env.lock_file

/-- The file of a server that is gone: it is not locked, and the look-up goes on for ever. -/
theorem a_file_that_is_not_locked_is_asked_for_ever :
    ¬Finishes ⟨true, true, .file true true false "4321"⟩ ∧
      ∀ fuel, get_pid fuel ⟨true, true, .file true true false "4321"⟩ = none := by
  have hloop : ∀ fuel, get_pid fuel ⟨true, true, .file true true false "4321"⟩ = none := by
    intro fuel
    rcases h : get_pid fuel ⟨true, true, .file true true false "4321"⟩ with _ | r
    · rfl
    · have hloop := (get_pid_loop_iff (.file true true false "4321") r).mp ⟨fuel, h⟩
      exact absurd hloop.1.symm hloop.2
  refine ⟨?_, hloop⟩
  rintro (⟨fuel, code, what, h⟩ | ⟨fuel, n, -, h, -⟩)
  · rw [hloop] at h
    simp at h
  · rw [hloop] at h
    simp at h

end tateyama_bootstrap.process
