-- The lock file of a server (process/proc_mutex.h). The lock lives on an
-- inode and is found through a path. Servers create, lock, fill and unlink the
-- file, and `tgctl_kill` (process/control.cpp) unlinks it as well. Every
-- system call is one step of `step` here.
import TateyamaBootstrap.Runs
import Mathlib.Algebra.Group.Int.Defs
import Mathlib.Algebra.Group.Nat.Defs
import Mathlib.Logic.Function.Basic

open runs

namespace tateyama_bootstrap.proc_mutex

inductive LockState
  | no_file
  | not_locked
  | locked
  | error
deriving DecidableEq, Repr

/-- Where a process stands. A server that starts anew is another process. -/
inductive Proc
  | idle
  /-- The constructor has opened the file, with `O_CREAT`. -/
  | opened (inode : Nat)
  /-- `lock` has called `ftruncate` and not yet `flock`. -/
  | truncated (inode : Nat)
  /-- `lock` has returned, and `owner_` is set. -/
  | owner (inode : Nat) (filled : Bool)
  /-- `lock` has thrown. -/
  | failed (inode : Nat)
  /-- The destructor of an owner has closed the file and not yet unlinked it. -/
  | closed
  | gone
  /-- `status_check_internal` has constructed its mutex, without `O_CREAT`. -/
  | probing (fd : Option Nat)
  /-- `check` has seen that the path exists. -/
  | checking (fd : Option Nat)
  /-- `check` holds the lock and will release it. -/
  | probed (inode : Nat)
  /-- `check` has returned. -/
  | checked (state : LockState)
deriving DecidableEq, Repr

/-- The directory entry of the lock file, the inodes and the processes. -/
structure Sys where
  path : Option Nat
  next_inode : Nat
  content : Nat → String
  /-- The process whose open file description holds the lock of the inode. -/
  holder : Nat → Option Nat
  proc : Nat → Proc

def Sys.init : Sys where
  path := none
  next_inode := 0
  content := fun _ => ""
  holder := fun _ => none
  proc := fun _ => .idle

inductive Act
  | construct (p : Nat)
  | construct_fails (p : Nat)
  | truncate (p : Nat)
  | truncate_fails (p : Nat)
  | flock (p : Nat)
  | fill_contents (p : Nat)
  | close (p : Nat)
  | unlink (p : Nat)
  | crash (p : Nat)
  | probe (p : Nat)
  | check_exists (p : Nat)
  | check_open (p : Nat)
  | check_flock (p : Nat)
  | check_unlock (p : Nat)
  | check_again (p : Nat)
  | kill_unlink (p : Nat)
deriving DecidableEq, Repr

namespace Sys

def set_proc (s : Sys) (p : Nat) (x : Proc) : Sys :=
  { s with proc := Function.update s.proc p x }

/-- A process holds locks until it unlocks, closes its file or dies. -/
def release (s : Sys) (p : Nat) : Sys :=
  { s with holder := fun i => if s.holder i = some p then none else s.holder i }

def acquire (s : Sys) (p i : Nat) : Sys :=
  { s with holder := Function.update s.holder i (some p) }

/-- `open` with `O_CREAT`: an absent file is made anew. -/
def open_create (s : Sys) : Nat × Sys :=
  match s.path with
  | some i => (i, s)
  | none => (s.next_inode, { s with path := some s.next_inode, next_inode := s.next_inode + 1 })

/-- The pid as text over the start of the file, at the offset 0 of a fresh descriptor. -/
def write_pid (s : Sys) (p i : Nat) : Sys :=
  let pid := toString p
  { s with content := Function.update s.content i (pid ++ (s.content i).drop pid.length) }

end Sys

/-- One system call of a server or of `tgctl_kill`, or the death of a process. -/
def step (s : Sys) : Act → Option Sys
  | .construct p =>
    match s.proc p with
    | .idle => some (s.open_create.2.set_proc p (.opened s.open_create.1))
    | _ => none
  | .construct_fails p =>
    match s.proc p with
    | .idle => some (s.set_proc p .gone)
    | _ => none
  | .truncate p =>
    match s.proc p with
    | .opened i =>
      some { s.set_proc p (.truncated i) with content := Function.update s.content i "" }
    | _ => none
  | .truncate_fails p =>
    match s.proc p with
    | .opened i => some (s.set_proc p (.failed i))
    | _ => none
  | .flock p =>
    match s.proc p with
    | .truncated i =>
      match s.holder i with
      | none => some ((s.acquire p i).set_proc p (.owner i false))
      | some _ => some (s.set_proc p (.failed i))
    | _ => none
  | .fill_contents p =>
    match s.proc p with
    | .owner i false => some ((s.write_pid p i).set_proc p (.owner i true))
    | _ => none
  | .close p =>
    match s.proc p with
    | .owner _ _ => some ((s.release p).set_proc p .closed)
    -- the destructor of a mutex that is not the owner only closes
    | .opened _ | .failed _ => some ((s.release p).set_proc p .gone)
    | _ => none
  | .unlink p =>
    match s.proc p with
    | .closed => some { s.set_proc p .gone with path := none }
    | _ => none
  | .crash p =>
    match s.proc p with
    | .idle | .gone => none
    | _ => some ((s.release p).set_proc p .gone)
  | .probe p =>
    match s.proc p with
    | .idle => some (s.set_proc p (.probing s.path))
    | _ => none
  | .check_exists p =>
    match s.proc p with
    | .probing fd =>
      match s.path with
      | none => some (s.set_proc p (.checked .no_file))
      | some _ => some (s.set_proc p (.checking fd))
    | _ => none
  | .check_open p =>
    match s.proc p with
    | .checking none =>
      match s.path with
      | none => some (s.set_proc p (.checked .error))
      | some i => some (s.set_proc p (.checking (some i)))
    | _ => none
  | .check_flock p =>
    match s.proc p with
    | .checking (some i) =>
      match s.holder i with
      | none => some ((s.acquire p i).set_proc p (.probed i))
      | some _ => some (s.set_proc p (.checked .locked))
    | _ => none
  | .check_unlock p =>
    match s.proc p with
    | .probed _ => some ((s.release p).set_proc p (.checked .not_locked))
    | _ => none
  | .check_again p =>
    match s.proc p with
    | .checked _ => some (s.set_proc p .idle)
    | _ => none
  | .kill_unlink p =>
    match s.proc p with
    | .checked .not_locked => some { s.set_proc p .gone with path := none }
    | _ => none

/-! ## Exclusion -/

/-- At most one live process is an owner. -/
def MutualExclusion (s : Sys) : Prop :=
  ∀ p q i j f g, s.proc p = .owner i f → s.proc q = .owner j g → p = q

/-- The file at the path has no owner. -/
def Unowned (s : Sys) : Prop := ∀ p i f, s.proc p = .owner i f → s.path ≠ some i

/-- The file is not unlinked under a live owner, and no `flock` succeeds on a
file that has lost its path. -/
def PathKept (s : Sys) : Act → Prop
  | .unlink _ | .kill_unlink _ => Unowned s
  | .flock p => ∀ i, s.proc p = .truncated i → s.holder i = none → s.path = some i
  | _ => True

/-- Every owner holds the lock of the file at the path. -/
def OwnersAtPath (s : Sys) : Prop :=
  ∀ p i f, s.proc p = .owner i f → s.path = some i ∧ s.holder i = some p

theorem OwnersAtPath.exclusion {s : Sys} (h : OwnersAtPath s) : MutualExclusion s := by
  intro p q i j f g hp hq
  obtain ⟨hpi, hph⟩ := h p i f hp
  obtain ⟨hqj, hqh⟩ := h q j g hq
  rw [hpi] at hqj
  cases hqj
  rw [hph] at hqh
  cases hqh
  rfl

section Keep

variable {s t : Sys}

/-- Nobody becomes an owner, and the owners keep their path and their lock. -/
theorem OwnersAtPath.keep (h : OwnersAtPath s)
    (hproc : ∀ q i f, t.proc q = .owner i f → ∃ g, s.proc q = .owner i g)
    (hpath : ∀ q i f, t.proc q = .owner i f → s.path = some i → t.path = some i)
    (hhold : ∀ q i f, t.proc q = .owner i f → s.holder i = some q → t.holder i = some q) :
    OwnersAtPath t := by
  intro q i f hq
  obtain ⟨g, hg⟩ := hproc q i f hq
  obtain ⟨h1, h2⟩ := h q i g hg
  exact ⟨hpath q i f hq h1, hhold q i f hq h2⟩

/-- A process that moves to a state that is no owner makes no owner. -/
theorem owner_of_update {p : Nat} {x : Proc} (hx : ∀ i f, x ≠ .owner i f)
    (ht : t.proc = Function.update s.proc p x) {q i : Nat} {f : Bool}
    (hq : t.proc q = .owner i f) : q ≠ p ∧ s.proc q = .owner i f := by
  have hne : q ≠ p := by
    rintro rfl
    rw [ht, Function.update_self] at hq
    exact hx i f hq
  rw [ht, Function.update_of_ne hne] at hq
  exact ⟨hne, hq⟩

/-- A step of a process that is no owner after it, and that leaves the path and
the locks of all others alone. -/
theorem OwnersAtPath.other (h : OwnersAtPath s) {p : Nat} {x : Proc}
    (hx : ∀ i f, x ≠ .owner i f) (ht : t.proc = Function.update s.proc p x)
    (hpath : ∀ i, s.path = some i → t.path = some i)
    (hhold : ∀ q i, q ≠ p → s.holder i = some q → t.holder i = some q) : OwnersAtPath t := by
  refine h.keep ?_ ?_ ?_
  · exact fun q i f hq => ⟨f, (owner_of_update hx ht hq).2⟩
  · exact fun q i f _ hi => hpath i hi
  · exact fun q i f hq => hhold q i (owner_of_update hx ht hq).1

theorem release_holder {p q i : Nat} (hne : q ≠ p) (h : s.holder i = some q) :
    (s.release p).holder i = some q := by
  have hn : s.holder i ≠ some p := by
    rw [h]
    simpa using hne
  simp only [Sys.release, if_neg hn]
  exact h

theorem acquire_holder {p q i j : Nat} (hfree : s.holder j = none) (h : s.holder i = some q) :
    (s.acquire p j).holder i = some q := by
  have hij : i ≠ j := by
    rintro rfl
    rw [hfree] at h
    cases h
  simp only [Sys.acquire, Function.update_of_ne hij]
  exact h

theorem open_create_keeps (s : Sys) :
    s.open_create.2.proc = s.proc ∧ s.open_create.2.holder = s.holder ∧
      ∀ i, s.path = some i → s.open_create.2.path = some i := by
  unfold Sys.open_create
  split
  · exact ⟨rfl, rfl, fun _ hi => hi⟩
  · rename_i hnone
    exact ⟨rfl, rfl, fun i hi => by rw [hnone] at hi; cases hi⟩

end Keep

theorem ownersAtPath_step {s t : Sys} {x : Act} (h : OwnersAtPath s) (hx : PathKept s x)
    (hs : step s x = some t) : OwnersAtPath t := by
  cases x with
  | construct p =>
    simp only [step] at hs
    split at hs
    · cases hs
      obtain ⟨hproc, hhold, hpath⟩ := open_create_keeps s
      refine h.other (p := p) (x := .opened s.open_create.1) (by simp) ?_ hpath ?_
      · rw [← hproc]
        rfl
      · intro q i _ hq
        rw [← hhold] at hq
        exact hq
    · cases hs
  | construct_fails p | truncate_fails p | probe p | check_again p =>
    simp only [step] at hs
    split at hs
    · cases hs
      exact h.other (p := p) (by simp) rfl (fun _ hi => hi) (fun _ _ _ hq => hq)
    · cases hs
  | truncate p =>
    simp only [step] at hs
    split at hs
    · cases hs
      exact h.other (p := p) (by simp) rfl (fun _ hi => hi) (fun _ _ _ hq => hq)
    · cases hs
  | flock p =>
    simp only [step] at hs
    split at hs
    · rename_i j hp
      split at hs
      · rename_i hfree
        cases hs
        intro q i f hq
        by_cases hqp : q = p
        · subst hqp
          simp only [Sys.set_proc, Function.update_self] at hq
          cases hq
          exact ⟨hx j hp hfree, by simp [Sys.set_proc, Sys.acquire]⟩
        · simp only [Sys.set_proc, Function.update_of_ne hqp] at hq
          obtain ⟨h1, h2⟩ := h q i f hq
          exact ⟨h1, acquire_holder hfree h2⟩
      · cases hs
        exact h.other (p := p) (by simp) rfl (fun _ hi => hi) (fun _ _ _ hq => hq)
    · cases hs
  | fill_contents p =>
    simp only [step] at hs
    split at hs
    · rename_i j hp
      cases hs
      refine h.keep ?_ (fun _ _ _ _ hi => hi) (fun _ _ _ _ hq => hq)
      intro q i f hq
      by_cases hqp : q = p
      · subst hqp
        simp only [Sys.set_proc, Function.update_self] at hq
        cases hq
        exact ⟨false, hp⟩
      · simp only [Sys.set_proc, Function.update_of_ne hqp] at hq
        exact ⟨f, hq⟩
    · cases hs
  | close p =>
    simp only [step] at hs
    split at hs <;> cases hs <;>
      exact h.other (p := p) (by simp) rfl (fun _ hi => hi)
        (fun _ _ hne hq => release_holder hne hq)
  | crash p =>
    simp only [step] at hs
    split at hs
    · cases hs
    · cases hs
    · cases hs
      exact h.other (p := p) (by simp) rfl (fun _ hi => hi)
        (fun _ _ hne hq => release_holder hne hq)
  | unlink p | kill_unlink p =>
    simp only [step] at hs
    split at hs
    · cases hs
      -- no owner of the file at the path, so no owner at all
      intro q i f hq
      obtain ⟨-, hq'⟩ := owner_of_update (by simp) rfl hq
      exact absurd (h q i f hq').1 (hx q i f hq')
    · cases hs
  | check_exists p | check_open p =>
    simp only [step] at hs
    split at hs
    · split at hs <;> cases hs <;>
        exact h.other (p := p) (by simp) rfl (fun _ hi => hi) (fun _ _ _ hq => hq)
    · cases hs
  | check_flock p =>
    simp only [step] at hs
    split at hs
    · split at hs
      · rename_i hfree
        cases hs
        exact h.other (p := p) (by simp) rfl (fun _ hi => hi)
          (fun _ _ _ hq => acquire_holder hfree hq)
      · cases hs
        exact h.other (p := p) (by simp) rfl (fun _ hi => hi) (fun _ _ _ hq => hq)
    · cases hs
  | check_unlock p =>
    simp only [step] at hs
    split at hs
    · cases hs
      exact h.other (p := p) (by simp) rfl (fun _ hi => hi)
        (fun _ _ hne hq => release_holder hne hq)
    · cases hs

theorem ownersAtPath_init : OwnersAtPath Sys.init := by
  intro p i f hp
  cases hp

/-- At most one process owns the lock file at any time, in every run that does
not unlink the file under a live owner and does not lock an unlinked file. -/
theorem the_lock_file_has_one_owner (acts : List Act) (s : Sys)
    (hr : RunOf step PathKept Sys.init acts s) : MutualExclusion s :=
  (hr.inv ownersAtPath_init fun _ _ _ h hx hs => ownersAtPath_step h hx hs).exclusion

/-- The test for `PathKept` in a state in which every owner holds its lock. -/
def pathKept (s : Sys) : Act → Bool
  | .unlink _ | .kill_unlink _ => s.path.all fun i => s.holder i == none
  | .flock p =>
    match s.proc p with
    | .truncated i => s.path == some i
    | _ => true
  | _ => true

theorem pathKept_of_test (s : Sys) (x : Act) (h : OwnersAtPath s) (hx : pathKept s x = true) :
    PathKept s x := by
  have hfree : (s.path.all fun i => s.holder i == none) = true → Unowned s := by
    intro hall p i f hp hi
    rw [hi] at hall
    simp [(h p i f hp).2] at hall
  cases x with
  | unlink p => exact hfree hx
  | kill_unlink p => exact hfree hx
  | flock p =>
    intro i hi _
    simpa [pathKept, hi] using hx
  | _ => trivial

/-- Server 0 owns the lock, crashes, and its file is unlinked by `tgctl_kill`.
Server 2 makes the file anew, and server 3 does not get the lock. -/
theorem the_lock_file_has_one_owner_after_a_kill : ∃ s, RunOf step PathKept Sys.init
    [.construct 0, .truncate 0, .flock 0, .crash 0,
      .probe 1, .check_exists 1, .check_flock 1, .check_unlock 1, .kill_unlink 1,
      .construct 2, .truncate 2, .flock 2, .construct 3, .truncate 3, .flock 3] s ∧
    s.proc 2 = .owner 1 false ∧ s.proc 3 = .failed 1 ∧ MutualExclusion s := by
  obtain ⟨s, hr, hp⟩ := RunOf.exists_of_exec_inv (s := Sys.init) ownersAtPath_init
    (fun _ _ _ h hx hs => ownersAtPath_step h (pathKept_of_test _ _ h hx) hs) pathKept_of_test
    (p := fun s => s.proc 2 = .owner 1 false ∧ s.proc 3 = .failed 1)
    (by decide : (exec (guarded step pathKept) _ [.construct 0, .truncate 0, .flock 0, .crash 0,
      .probe 1, .check_exists 1, .check_flock 1, .check_unlock 1, .kill_unlink 1,
      .construct 2, .truncate 2, .flock 2, .construct 3, .truncate 3, .flock 3]).any _ = true)
  obtain ⟨h2, h3⟩ : s.proc 2 = .owner 1 false ∧ s.proc 3 = .failed 1 := by simpa using hp
  exact ⟨s, hr, h2, h3, the_lock_file_has_one_owner _ s hr⟩

/-- Server 1 has the file open when server 0 closes it, so it locks the file
that server 0 is about to unlink, and server 2 locks a new one. -/
theorem an_unlink_under_an_owner_makes_two_owners : ∃ s, RunOf step Free Sys.init
    [.construct 0, .truncate 0, .flock 0, .fill_contents 0, .construct 1, .close 0,
      .truncate 1, .flock 1, .unlink 0, .construct 2, .truncate 2, .flock 2] s ∧
    s.proc 1 = .owner 0 false ∧ s.proc 2 = .owner 1 false ∧ ¬ MutualExclusion s := by
  obtain ⟨s, hr, hp⟩ := RunOf.exists_free (s := Sys.init)
    (p := fun s => s.proc 1 = .owner 0 false ∧ s.proc 2 = .owner 1 false)
    (by decide : (exec step _ [.construct 0, .truncate 0, .flock 0, .fill_contents 0,
      .construct 1, .close 0, .truncate 1, .flock 1, .unlink 0, .construct 2, .truncate 2,
      .flock 2]).any _ = true)
  obtain ⟨h1, h2⟩ : s.proc 1 = .owner 0 false ∧ s.proc 2 = .owner 1 false := by simpa using hp
  refine ⟨s, hr, h1, h2, ?_⟩
  intro h
  have he := h 1 2 0 1 false false h1 h2
  omega

end tateyama_bootstrap.proc_mutex
