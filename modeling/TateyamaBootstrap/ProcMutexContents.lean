-- The pid in the lock file (process/proc_mutex.h). `lock` truncates the file before it
-- asks for the lock, so a `lock` that fails has already emptied the file of the owner.
import TateyamaBootstrap.ProcMutexProbes
import TateyamaBootstrap.Errors
import Mathlib.Data.List.TakeWhile

open runs

namespace tateyama_bootstrap.proc_mutex

/-! ## `pid` -/

/-- What `std::stoi` returns or throws. -/
inductive Stoi
  | value (n : Int)
  | invalid_argument
  | out_of_range
deriving DecidableEq, Repr

def isspace (c : Char) : Bool := [' ', '\t', '\n', '\x0b', '\x0c', '\r'].contains c

/-- The digits at the front, as a number of 32 bits. -/
def stoi_digits (negative : Bool) (str : List Char) : Stoi :=
  let digits := str.takeWhile Char.isDigit
  let n : Int := Nat.ofDigitChars 10 digits 0
  let n := if negative then -n else n
  if digits.isEmpty then .invalid_argument
  else if -2 ^ 31 ≤ n ∧ n < 2 ^ 31 then .value n
  else .out_of_range

def stoi (str : List Char) : Stoi :=
  match str.dropWhile isspace with
  | '-' :: rest => stoi_digits true rest
  | '+' :: rest => stoi_digits false rest
  | rest => stoi_digits false rest

/-- `pid(false)` on what `contents` reads. -/
def pid (contents : String) : Except Error Int :=
  if contents.isEmpty then .ok 0
  else
    match stoi contents.toList with
    | .value n => .ok n
    | .invalid_argument => .ok 0
    | .out_of_range => .error .out_of_range

/-- `pid(false)` looks the file up by its path. `file_size` throws when there is none. -/
def Sys.pid (s : Sys) : Except Error Int :=
  match s.path with
  | none => .error (.exception "filesystem_error")
  | some i => proc_mutex.pid (s.content i)

theorem isspace_of_isDigit {c : Char} (hc : c.isDigit) : isspace c = false := by
  by_contra h
  have hmem : c ∈ [' ', '\t', '\n', '\x0b', '\x0c', '\r'] := by
    rw [Bool.not_eq_false] at h
    exact List.contains_iff_mem.mp h
  simp only [List.mem_cons, List.not_mem_nil, or_false] at hmem
  rcases hmem with rfl | rfl | rfl | rfl | rfl | rfl <;> exact absurd hc (by decide)

/-- A digit behind the white space is read from there on. -/
theorem stoi_of_dropWhile {str rest : List Char} {c : Char} (hc : c.isDigit)
    (h : str.dropWhile isspace = c :: rest) : stoi str = stoi_digits false (c :: rest) := by
  unfold stoi
  rw [h]
  split
  · rename_i heq
    cases heq
    exact absurd hc (by decide)
  · rename_i heq
    cases heq
    exact absurd hc (by decide)
  · rfl

/-- Digits are read from the first on. -/
theorem stoi_of_digits {str : List Char} (hne : str ≠ []) (hall : ∀ c ∈ str, c.isDigit) :
    stoi str = stoi_digits false str := by
  cases str with
  | nil => exact absurd rfl hne
  | cons c rest =>
    have hc : c.isDigit := hall c (by simp)
    exact stoi_of_dropWhile hc (by simp [isspace_of_isDigit hc])

/-- What `fill_contents` writes, `pid` reads. -/
theorem pid_toString {p : Nat} (hp : p < 2 ^ 31) : proc_mutex.pid (toString p) = .ok (p : Int) := by
  have hdigits : (toString p).toList = Nat.toDigits 10 p := Nat.toList_repr
  have hall : ∀ c ∈ Nat.toDigits 10 p, c.isDigit := by
    intro c hc
    exact Nat.isDigit_of_mem_toDigits (by decide) (by decide) hc
  have htake : (Nat.toDigits 10 p).takeWhile Char.isDigit = Nat.toDigits 10 p :=
    List.takeWhile_eq_self_iff.mpr hall
  have hne : Nat.toDigits 10 p ≠ [] := Nat.toDigits_ne_nil
  have hempty : (toString p).isEmpty = false := by
    rw [← Bool.not_eq_true, String.isEmpty_iff]
    intro h
    rw [h] at hdigits
    exact hne hdigits.symm
  have hstoi : stoi (toString p).toList = .value p := by
    rw [hdigits, stoi_of_digits hne hall]
    unfold stoi_digits
    rw [htake]
    dsimp only
    rw [Nat.ofDigitChars_ten_toDigits, if_neg (by simp), if_neg Bool.false_ne_true,
      if_pos (by omega)]
  unfold proc_mutex.pid
  rw [hempty, if_neg Bool.false_ne_true, hstoi]

/-! ## What an owner can rely on -/

/-- The file at the path is that of the owner that has filled it, and holds its pid, which
`pid(false)` returns. `getpid()` is a number of 31 bits. -/
def PidKept (s : Sys) : Prop :=
  ∀ p i, s.proc p = .owner i true →
    s.path = some i ∧ s.content i = toString p ∧ (p < 2 ^ 31 → s.pid = .ok (p : Int))

/-- Nobody calls `lock` on the file of an owner that has written its pid, or unlinks it;
and an owner writes its pid into the file at the path, over nothing that is longer. -/
def SparesPid (s : Sys) : Act → Prop
  | .truncate q => ∀ p i, s.proc q = .opened i → s.proc p ≠ .owner i true
  | .unlink _ | .kill_unlink _ => ∀ p i, s.proc p = .owner i true → s.path ≠ some i
  | .fill_contents p => ∀ i, s.proc p = .owner i false →
      s.path = some i ∧ (s.content i).length ≤ (toString p).length
  | _ => True

theorem pidKept_iff {s : Sys} :
    PidKept s ↔ ∀ p i, s.proc p = .owner i true → s.path = some i ∧ s.content i = toString p := by
  constructor
  · intro h p i hp
    obtain ⟨hpath, hcontent, -⟩ := h p i hp
    exact ⟨hpath, hcontent⟩
  · intro h p i hp
    obtain ⟨hpath, hcontent⟩ := h p i hp
    refine ⟨hpath, hcontent, fun hlt => ?_⟩
    unfold Sys.pid
    rw [hpath]
    dsimp only
    rw [hcontent]
    exact pid_toString hlt

section

variable {s t : Sys}

/-- The owners that have filled their file are still there, and so is their file. -/
theorem PidKept.keep (h : PidKept s)
    (hproc : ∀ p i, t.proc p = .owner i true → s.proc p = .owner i true)
    (hpath : ∀ i, s.path = some i → t.path = some i)
    (hcontent : ∀ p i, t.proc p = .owner i true → t.content i = s.content i) : PidKept t := by
  rw [pidKept_iff] at h ⊢
  intro p i hp
  obtain ⟨hi, hc⟩ := h p i (hproc p i hp)
  exact ⟨hpath i hi, (hcontent p i hp).trans hc⟩

/-- A process moves to a place where it has not filled a file, and the files stay. -/
theorem PidKept.other (h : PidKept s) {p : Nat} {x : Proc} (hx : ∀ i, x ≠ .owner i true)
    (ht : t.proc = Function.update s.proc p x) (hpath : ∀ i, s.path = some i → t.path = some i)
    (hcontent : t.content = s.content) : PidKept t := by
  refine h.keep ?_ hpath fun _ _ _ => by rw [hcontent]
  intro q i hq
  have hne : q ≠ p := by
    rintro rfl
    rw [ht, Function.update_self] at hq
    exact hx i hq
  rwa [ht, Function.update_of_ne hne] at hq

/-- The pid as text covers what was in the file, unless that was longer. -/
theorem write_pid_content_iff (s : Sys) (p i : Nat) :
    (s.write_pid p i).content i = toString p ↔
      (s.content i).length ≤ (toString p).length := by
  unfold Sys.write_pid
  simp only [Function.update_self]
  rw [← String.toList_inj, String.appendSlice_eq, String.toList_append, String.toList_copy_drop,
    List.append_right_eq_self, List.drop_eq_nil_iff, String.length_toList]

theorem toString_ne_empty (p : Nat) : toString p ≠ "" := by
  intro h
  have hdigits : (toString p).toList = Nat.toDigits 10 p := Nat.toList_repr
  rw [h] at hdigits
  exact Nat.toDigits_ne_nil hdigits.symm

/-- `ftruncate` empties the file, whoever owns it. -/
theorem pidKept_truncate_iff {q j : Nat} (h : PidKept s) (hq : s.proc q = .opened j) :
    PidKept { s.set_proc q (.truncated j) with content := Function.update s.content j "" } ↔
      ∀ p i, s.proc q = .opened i → s.proc p ≠ .owner i true := by
  constructor
  · intro ht p i hi hp
    rw [hq] at hi
    cases hi
    have hne : p ≠ q := by
      rintro rfl
      rw [hq] at hp
      cases hp
    have hp' : (s.set_proc q (.truncated j)).proc p = .owner j true :=
      (Function.update_of_ne hne ..).trans hp
    obtain ⟨-, hcontent, -⟩ := ht p j hp'
    have hempty : Function.update s.content j "" j = toString p := hcontent
    rw [Function.update_self] at hempty
    exact toString_ne_empty p hempty.symm
  · intro hfree
    have hproc : ∀ p i, (s.set_proc q (.truncated j)).proc p = .owner i true →
        s.proc p = .owner i true := by
      intro p i hp
      by_cases hpq : p = q
      · subst hpq
        simp only [Sys.set_proc, Function.update_self] at hp
        cases hp
      · simpa only [Sys.set_proc, Function.update_of_ne hpq] using hp
    refine h.keep hproc (fun _ hi => hi) fun p i hp => ?_
    have hij : i ≠ j := by
      rintro rfl
      exact hfree p i hq (hproc p i hp)
    exact Function.update_of_ne hij ..

/-- The owner fills its file, which no other owner has. -/
theorem pidKept_fill_iff {p j : Nat} (hh : HoldersOk s) (h : PidKept s)
    (hp : s.proc p = .owner j false) :
    PidKept ((s.write_pid p j).set_proc p (.owner j true)) ↔
      ∀ i, s.proc p = .owner i false →
        s.path = some i ∧ (s.content i).length ≤ (toString p).length := by
  have hself : ((s.write_pid p j).set_proc p (.owner j true)).proc p = .owner j true :=
    Function.update_self ..
  constructor
  · intro ht i hi
    rw [hp] at hi
    cases hi
    obtain ⟨hpath, hcontent, -⟩ := ht p j hself
    exact ⟨hpath, (write_pid_content_iff s p j).mp hcontent⟩
  · intro hfill
    obtain ⟨hpath, hlen⟩ := hfill j hp
    rw [pidKept_iff] at h ⊢
    intro q i hq
    by_cases hqp : q = p
    · subst hqp
      rw [hself] at hq
      cases hq
      exact ⟨hpath, (write_pid_content_iff s q j).mpr hlen⟩
    · have hq' : s.proc q = .owner i true := by
        simpa only [Sys.set_proc, Sys.write_pid, Function.update_of_ne hqp] using hq
      obtain ⟨hi, hc⟩ := h q i hq'
      have hij : i ≠ j := by
        rintro rfl
        have hholder := (hh.owner q i true hq').symm.trans (hh.owner p i false hp)
        exact hqp (Option.some.inj hholder)
      exact ⟨hi, (Function.update_of_ne hij ..).trans hc⟩

/-- The path goes, and with it the file of the owner that has filled it. -/
theorem pidKept_unlink_iff {q : Nat} (h : PidKept s) (hq : ∀ i, s.proc q ≠ .owner i true) :
    PidKept { s.set_proc q .gone with path := none } ↔
      ∀ p i, s.proc p = .owner i true → s.path ≠ some i := by
  constructor
  · intro ht p i hp hi
    have hne : p ≠ q := by
      rintro rfl
      exact hq i hp
    have hp' : (s.set_proc q .gone).proc p = .owner i true :=
      (Function.update_of_ne hne ..).trans hp
    obtain ⟨hnone, -⟩ := ht p i hp'
    cases hnone
  · intro hfree p i hp
    have hne : p ≠ q := by
      rintro rfl
      simp only [Sys.set_proc, Function.update_self] at hp
      cases hp
    have hp' : s.proc p = .owner i true := by
      simpa only [Sys.set_proc, Function.update_of_ne hne] using hp
    exact absurd (h p i hp').1 (hfree p i hp')

/-- What keeps the pid, for each of the steps. -/
theorem pidKept_step_iff {x : Act} (hh : HoldersOk s) (h : PidKept s) (hs : step s x = some t) :
    PidKept t ↔ SparesPid s x := by
  cases x with
  | construct p =>
    simp only [step] at hs
    split at hs
    · cases hs
      obtain ⟨hproc, -, hpath⟩ := open_create_keeps s
      refine iff_of_true (h.other (p := p) (x := .opened s.open_create.1) (by simp) ?_ hpath ?_)
        trivial
      · rw [← hproc]
        rfl
      · unfold Sys.open_create
        split <;> rfl
    · cases hs
  | construct_fails p | truncate_fails p | probe p | check_again p =>
    simp only [step] at hs
    split at hs
    · cases hs
      exact iff_of_true (h.other (p := p) (by simp) rfl (fun _ hi => hi) rfl) trivial
    · cases hs
  | truncate q =>
    simp only [step] at hs
    split at hs
    · rename_i j hq
      cases hs
      exact pidKept_truncate_iff h hq
    · cases hs
  | flock p =>
    simp only [step] at hs
    split at hs
    · split at hs
      · cases hs
        exact iff_of_true (h.other (p := p) (by simp) rfl (fun _ hi => hi) rfl) trivial
      · cases hs
        exact iff_of_true (h.other (p := p) (by simp) rfl (fun _ hi => hi) rfl) trivial
    · cases hs
  | fill_contents p =>
    simp only [step] at hs
    split at hs
    · rename_i j hp
      cases hs
      exact pidKept_fill_iff hh h hp
    · cases hs
  | close p =>
    simp only [step] at hs
    split at hs <;> cases hs <;>
      exact iff_of_true (h.other (p := p) (by simp) rfl (fun _ hi => hi) rfl) trivial
  | unlink p | kill_unlink p =>
    simp only [step] at hs
    split at hs
    · rename_i hp
      cases hs
      exact pidKept_unlink_iff h (by rw [hp]; simp)
    · cases hs
  | crash p =>
    simp only [step] at hs
    split at hs
    · cases hs
    · cases hs
    · cases hs
      exact iff_of_true (h.other (p := p) (by simp) rfl (fun _ hi => hi) rfl) trivial
  | check_exists p | check_open p | check_flock p =>
    simp only [step] at hs
    split at hs
    · split at hs <;> cases hs <;>
        exact iff_of_true (h.other (p := p) (by simp) rfl (fun _ hi => hi) rfl) trivial
    · cases hs
  | check_unlock p =>
    simp only [step] at hs
    split at hs
    · cases hs
      exact iff_of_true (h.other (p := p) (by simp) rfl (fun _ hi => hi) rfl) trivial
    · cases hs

end

/-- The pid of an owner that has filled the lock file is there in every state of a run exactly
when every step of the run spares it. -/
theorem the_pid_stays_in_the_lock_file (acts : List Act) (s : Sys)
    (hr : RunOf step Free Sys.init acts s) :
    (∀ begun t, begun <+: acts → RunOf step Free Sys.init begun t → PidKept t) ↔
      RunOf step SparesPid Sys.init acts s := by
  refine hr.always_iff (I := HoldersOk) holdersOk_init ?_ (fun _ _ _ h => holdersOk_step h)
    (fun _ _ _ hh h => pidKept_step_iff hh h)
  intro p i hp
  cases hp

/-- The test for `SparesPid` in a state in which every owner holds its lock. -/
def sparesPid (s : Sys) : Act → Bool
  | .truncate q =>
    match s.proc q with
    | .opened i => s.holder i == none
    | _ => true
  | .unlink _ | .kill_unlink _ => s.path.all fun i => s.holder i == none
  | .fill_contents p =>
    match s.proc p with
    | .owner i false => s.path == some i && (s.content i).length ≤ (toString p).length
    | _ => true
  | _ => true

theorem sparesPid_of_test (s : Sys) (x : Act) (h : HoldersOk s) (hx : sparesPid s x = true) :
    SparesPid s x := by
  have hfree : (s.path.all fun i => s.holder i == none) = true →
      ∀ p i, s.proc p = .owner i true → s.path ≠ some i := by
    intro hall p i hp hi
    rw [hi] at hall
    simp [h.owner p i true hp] at hall
  cases x with
  | truncate q =>
    intro p i hq hp
    simp [sparesPid, hq, h.owner p i true hp] at hx
  | unlink p => exact hfree hx
  | kill_unlink p => exact hfree hx
  | fill_contents p =>
    intro i hp
    simpa [sparesPid, hp] using hx
  | _ => trivial

/-- Server 4321 locks the file and writes its pid, a probe finds the file locked, and the
server goes. -/
def orderly : List Act :=
  [.construct 4321, .truncate 4321, .flock 4321, .fill_contents 4321, .probe 1, .check_exists 1,
    .check_flock 1, .close 4321, .unlink 4321]

theorem the_pid_stays_in_the_lock_file_of_a_server :
    ∃ s, RunOf step Free Sys.init orderly s ∧
      ∀ begun t, begun <+: orderly → RunOf step Free Sys.init begun t → PidKept t := by
  obtain ⟨s, hr, -⟩ := RunOf.exists_of_exec_inv (s := Sys.init) holdersOk_init
    (fun _ _ _ h _ hs => holdersOk_step h hs) sparesPid_of_test (p := fun _ => true)
    (by decide : (exec (guarded step sparesPid) _ orderly).any _ = true)
  have hfree : RunOf step Free Sys.init orderly s := hr.mono fun _ _ _ => trivial
  exact ⟨s, hfree, (the_pid_stays_in_the_lock_file orderly s hfree).mpr hr⟩

/-- Server 2 calls `lock` while server 4321 has the lock. The call fails, and the file of
server 4321 is empty after it. -/
theorem a_failed_lock_empties_the_lock_file : ∃ s, RunOf step Free Sys.init
    [.construct 4321, .truncate 4321, .flock 4321, .fill_contents 4321, .construct 2,
      .truncate 2, .flock 2] s ∧
    s.proc 4321 = .owner 0 true ∧ s.proc 2 = .failed 0 ∧ s.content 0 = "" ∧ s.pid = .ok 0 ∧
    ¬ PidKept s := by
  obtain ⟨s, hr, hp⟩ := RunOf.exists_free (s := Sys.init)
    (p := fun s => s.proc 4321 = .owner 0 true ∧ s.proc 2 = .failed 0 ∧ s.content 0 = "" ∧
      s.path = some 0)
    (by decide : (exec step _ [.construct 4321, .truncate 4321, .flock 4321,
      .fill_contents 4321, .construct 2, .truncate 2, .flock 2]).any _ = true)
  obtain ⟨h1, h2, hcontent, hpath⟩ : s.proc 4321 = .owner 0 true ∧ s.proc 2 = .failed 0 ∧
      s.content 0 = "" ∧ s.path = some 0 := by simpa using hp
  have hpid : s.pid = .ok 0 := by
    unfold Sys.pid
    rw [hpath]
    dsimp only
    rw [hcontent]
    rfl
  refine ⟨s, hr, h1, h2, hcontent, hpid, fun h => ?_⟩
  obtain ⟨-, hkept, -⟩ := h 4321 0 h1
  exact toString_ne_empty 4321 (hkept.symm.trans hcontent)

end tateyama_bootstrap.proc_mutex
