-- Advisory locks on files, as `flock` gives them. A lock lives on an inode, and an inode is
-- found through a path. Who unlinks the path leaves the inode to those who have it open, and
-- who opens the path after that makes another inode.
import Mathlib.Logic.Function.Basic

namespace file_locks

/-! ## The system calls -/

/-- The directory, the inodes, and what the processes have open and locked. A process opens
a path once at a time. -/
structure Files (Path Proc : Type) where
  entry : Path → Option Nat
  next_inode : Nat
  /-- The path under which the inode was made. -/
  made : Nat → Option Path
  fd : Proc → Path → Option Nat
  holder : Nat → Option Proc

namespace Files

section

variable {Path Proc : Type}

def init : Files Path Proc where
  entry := fun _ => none
  next_inode := 0
  made := fun _ => none
  fd := fun _ _ => none
  holder := fun _ => none

variable [DecidableEq Path] [DecidableEq Proc]

def set_fd (s : Files Path Proc) (p : Proc) (x : Path) (fd : Option Nat) : Files Path Proc :=
  { s with fd := Function.update s.fd p (Function.update (s.fd p) x fd) }

/-- A file at a path where there is none. -/
def create (s : Files Path Proc) (x : Path) : Files Path Proc :=
  { s with
    entry := Function.update s.entry x (some s.next_inode)
    next_inode := s.next_inode + 1
    made := Function.update s.made s.next_inode (some x) }

/-- `open` with `O_CREAT`. -/
def open_create (s : Files Path Proc) (p : Proc) (x : Path) : Files Path Proc :=
  match s.entry x with
  | some i => s.set_fd p x (some i)
  | none => (s.create x).set_fd p x (some s.next_inode)

/-- `open` without `O_CREAT`. -/
def open_existing (s : Files Path Proc) (p : Proc) (x : Path) : Option (Files Path Proc) :=
  (s.entry x).map fun i => s.set_fd p x (some i)

/-- `flock` with `LOCK_EX | LOCK_NB`: none when another process holds the lock. -/
def try_lock (s : Files Path Proc) (p : Proc) (x : Path) : Option (Files Path Proc) :=
  match s.fd p x with
  | some i =>
    if s.holder i = none ∨ s.holder i = some p then
      some { s with holder := Function.update s.holder i (some p) }
    else none
  | none => none

/-- `flock` with `LOCK_UN`. -/
def unlock (s : Files Path Proc) (p : Proc) (x : Path) : Files Path Proc :=
  { s with
    holder := fun i => if s.fd p x = some i ∧ s.holder i = some p then none else s.holder i }

/-- `close` gives the lock back as well. -/
def close (s : Files Path Proc) (p : Proc) (x : Path) : Files Path Proc :=
  (s.unlock p x).set_fd p x none

def unlink (s : Files Path Proc) (x : Path) : Files Path Proc :=
  { s with entry := Function.update s.entry x none }

/-- The end of a process closes all its files. -/
def exit (s : Files Path Proc) (p : Proc) : Files Path Proc :=
  { s with
    fd := Function.update s.fd p fun _ => none
    holder := fun i => if s.holder i = some p then none else s.holder i }

end

/-! ## Who has what -/

variable {Path Proc : Type}

def Opened (s : Files Path Proc) (p : Proc) (x : Path) : Prop := ∃ i, s.fd p x = some i

def Holds (s : Files Path Proc) (p : Proc) (x : Path) : Prop :=
  ∃ i, s.fd p x = some i ∧ s.holder i = some p

/-- The process has not lost the path of the file that it has locked. -/
def Kept (s : Files Path Proc) (p : Proc) (x : Path) : Prop :=
  ∀ i, s.fd p x = some i → s.holder i = some p → s.entry x = some i

/-- An inode has one path, and who holds its lock has it open. -/
structure Ok (s : Files Path Proc) : Prop where
  entry_made : ∀ {x i}, s.entry x = some i → s.made i = some x
  fd_made : ∀ {p x i}, s.fd p x = some i → s.made i = some x
  made_lt : ∀ {x i}, s.made i = some x → i < s.next_inode
  holder_open : ∀ {p i}, s.holder i = some p → ∃ x, s.fd p x = some i

theorem Holds.opened {s : Files Path Proc} {p : Proc} {x : Path} (h : s.Holds p x) :
    s.Opened p x := by
  obtain ⟨i, hi, -⟩ := h
  exact ⟨i, hi⟩

/-- A path that is kept has one holder. -/
theorem Holds.unique {s : Files Path Proc} {p q : Proc} {x : Path} (hp : s.Kept p x)
    (hq : s.Kept q x) (h : s.Holds p x) (h' : s.Holds q x) : p = q := by
  obtain ⟨i, hi, hpi⟩ := h
  obtain ⟨j, hj, hqj⟩ := h'
  have hij : i = j := by
    have := (hp i hi hpi).symm.trans (hq j hj hqj)
    exact Option.some.inj this
  subst hij
  exact Option.some.inj (hpi.symm.trans hqj)

theorem ok_init : Ok (init : Files Path Proc) where
  entry_made := fun h => by cases h
  fd_made := fun h => by cases h
  made_lt := fun h => by cases h
  holder_open := fun h => by cases h

section

variable {s t : Files Path Proc} {p q : Proc} {x y : Path}

/-- Two descriptors of one inode are of one path. -/
theorem Ok.same_path (h : Ok s) {i : Nat} (hx : s.fd p x = some i) (hy : s.fd q y = some i) :
    x = y := Option.some.inj ((h.fd_made hx).symm.trans (h.fd_made hy))

/-- Less is open and held than before, and no path is lost. -/
theorem Kept.mono (hk : s.Kept q y) (hfd : ∀ i, t.fd q y = some i → s.fd q y = some i)
    (hheld : ∀ i, t.holder i = some q → s.holder i = some q)
    (hentry : ∀ i, s.fd q y = some i → s.holder i = some q → s.entry y = some i →
      t.entry y = some i) : t.Kept q y := by
  intro i hi hq
  exact hentry i (hfd i hi) (hheld i hq) (hk i (hfd i hi) (hheld i hq))

end

/-! ## Paths -/

section

variable [DecidableEq Path] {s t : Files Path Proc} {p q : Proc} {x y : Path}

theorem Ok.create (h : Ok s) (x : Path) : Ok (s.create x) where
  entry_made := by
    intro y i hi
    by_cases hy : y = x
    · subst hy
      simp only [Files.create, Function.update_self, Option.some.injEq] at hi ⊢
      rw [← hi, Function.update_self]
    · simp only [Files.create, Function.update_of_ne hy] at hi ⊢
      have hlt := h.made_lt (h.entry_made hi)
      rw [Function.update_of_ne (by omega)]
      exact h.entry_made hi
  fd_made := by
    intro q y i hi
    have hmade := h.fd_made hi
    have hlt := h.made_lt hmade
    simp only [Files.create]
    rw [Function.update_of_ne (by omega)]
    exact hmade
  made_lt := by
    intro y i hi
    simp only [Files.create] at hi ⊢
    by_cases hlast : i = s.next_inode
    · omega
    · rw [Function.update_of_ne hlast] at hi
      have hlt := h.made_lt hi
      omega
  holder_open := h.holder_open

theorem Ok.unlink (hs : Ok s) : Ok (s.unlink x) where
  entry_made := by
    intro y i hi
    by_cases hy : y = x
    · subst hy
      simp [Files.unlink] at hi
    · simp only [Files.unlink, Function.update_of_ne hy] at hi
      exact hs.entry_made hi
  fd_made := hs.fd_made
  made_lt := hs.made_lt
  holder_open := hs.holder_open

/-- Nobody loses the path when nobody holds its lock. -/
theorem Kept.unlink (hk : s.Kept q y) (hfree : ¬ s.Holds q x) : (s.unlink x).Kept q y := by
  refine hk.mono (fun _ hi => hi) (fun _ h => h) ?_
  intro i hi hq hentry
  have hy : y ≠ x := by
    rintro rfl
    exact hfree ⟨i, hi, hq⟩
  simp only [Files.unlink, Function.update_of_ne hy]
  exact hentry

end

/-! ## Locks -/

section

variable [DecidableEq Proc] {s t : Files Path Proc} {p q : Proc} {x y : Path}

theorem try_lock_eq_some (h : s.try_lock p x = some t) :
    ∃ i, s.fd p x = some i ∧ (s.holder i = none ∨ s.holder i = some p) ∧
      t = { s with holder := Function.update s.holder i (some p) } := by
  unfold try_lock at h
  split at h
  · rename_i i hi
    split at h
    · rename_i hfree
      cases h
      exact ⟨i, hi, hfree, rfl⟩
    · cases h
  · cases h

theorem fd_try_lock (h : s.try_lock p x = some t) : t.fd = s.fd := by
  obtain ⟨i, -, -, rfl⟩ := try_lock_eq_some h
  rfl

theorem holds_try_lock (hs : Ok s) (h : s.try_lock p x = some t) :
    t.Holds q y ↔ s.Holds q y ∨ q = p ∧ y = x := by
  obtain ⟨i, hi, hfree, rfl⟩ := try_lock_eq_some h
  constructor
  · rintro ⟨j, hj, hheld⟩
    by_cases hji : j = i
    · subst hji
      simp only [Function.update_self, Option.some.injEq] at hheld
      exact .inr ⟨hheld.symm, hs.same_path hj hi⟩
    · simp only [Function.update_of_ne hji] at hheld
      exact .inl ⟨j, hj, hheld⟩
  · rintro (⟨j, hj, hheld⟩ | ⟨rfl, rfl⟩)
    · refine ⟨j, hj, ?_⟩
      by_cases hji : j = i
      · subst hji
        rw [hheld] at hfree
        have hqp : q = p := by simpa using hfree
        simp [hqp]
      · simpa [Function.update_of_ne hji] using hheld
    · exact ⟨i, hi, by simp⟩

theorem Ok.try_lock (hs : Ok s) (h : s.try_lock p x = some t) : Ok t := by
  obtain ⟨i, hi, -, rfl⟩ := try_lock_eq_some h
  refine ⟨hs.entry_made, hs.fd_made, hs.made_lt, ?_⟩
  intro q j hheld
  by_cases hji : j = i
  · subst hji
    simp only [Function.update_self, Option.some.injEq] at hheld
    subst hheld
    exact ⟨x, hi⟩
  · simp only [Function.update_of_ne hji] at hheld
    exact hs.holder_open hheld

/-- A lock keeps its path when the file was still at the path. -/
theorem Kept.try_lock (hs : Ok s) (hk : s.Kept q y) (h : s.try_lock p x = some t)
    (hx : q = p → y = x → s.entry x = s.fd p x) : t.Kept q y := by
  intro j hj hheld
  have hholds : t.Holds q y := ⟨j, hj, hheld⟩
  obtain ⟨i, hi, -, rfl⟩ := try_lock_eq_some h
  obtain hbefore | ⟨rfl, rfl⟩ := (holds_try_lock hs h).mp hholds
  · obtain ⟨k, hk', hheld'⟩ := hbefore
    have hkj : k = j := Option.some.inj (hk'.symm.trans hj)
    subst hkj
    exact hk k hk' hheld'
  · exact (hx rfl rfl).trans hj

theorem holder_unlock {i : Nat} :
    (s.unlock p x).holder i = some q ↔ s.holder i = some q ∧ ¬ (q = p ∧ s.fd p x = some i) := by
  unfold unlock
  dsimp only
  split
  · rename_i hi
    constructor
    · intro h
      cases h
    · rintro ⟨hq, hne⟩
      exact absurd ⟨Option.some.inj (hq.symm.trans hi.2), hi.1⟩ hne
  · rename_i hi
    constructor
    · intro hq
      refine ⟨hq, ?_⟩
      rintro ⟨rfl, hx⟩
      exact hi ⟨hx, hq⟩
    · exact fun h => h.1

theorem holds_unlock (hs : Ok s) :
    (s.unlock p x).Holds q y ↔ s.Holds q y ∧ ¬ (q = p ∧ y = x) := by
  constructor
  · rintro ⟨i, hi, hheld⟩
    obtain ⟨hq, hne⟩ := holder_unlock.mp hheld
    refine ⟨⟨i, hi, hq⟩, ?_⟩
    rintro ⟨rfl, rfl⟩
    exact hne ⟨rfl, hi⟩
  · rintro ⟨⟨i, hi, hq⟩, hne⟩
    refine ⟨i, hi, holder_unlock.mpr ⟨hq, ?_⟩⟩
    rintro ⟨rfl, hx⟩
    exact hne ⟨rfl, hs.same_path hi hx⟩

theorem Ok.unlock (hs : Ok s) : Ok (s.unlock p x) where
  entry_made := hs.entry_made
  fd_made := hs.fd_made
  made_lt := hs.made_lt
  holder_open := fun h => hs.holder_open (holder_unlock.mp h).1

theorem Kept.unlock (hk : s.Kept q y) : (s.unlock p x).Kept q y :=
  hk.mono (fun _ hi => hi) (fun _ h => (holder_unlock.mp h).1) (fun _ _ _ h => h)

theorem holder_exit {i : Nat} :
    (s.exit p).holder i = some q ↔ s.holder i = some q ∧ q ≠ p := by
  unfold exit
  dsimp only
  split
  · rename_i hi
    constructor
    · intro h
      cases h
    · rintro ⟨hq, hne⟩
      exact absurd (Option.some.inj (hq.symm.trans hi)) hne
  · rename_i hi
    constructor
    · intro hq
      refine ⟨hq, ?_⟩
      rintro rfl
      exact hi hq
    · exact fun h => h.1

theorem fd_exit : (s.exit p).fd q y = if q = p then none else s.fd q y := by
  unfold exit
  by_cases hq : q = p
  · subst hq
    simp
  · simp [hq]

theorem opened_exit : (s.exit p).Opened q y ↔ s.Opened q y ∧ q ≠ p := by
  unfold Opened
  rw [fd_exit]
  by_cases hq : q = p
  · simp [hq]
  · simp [hq]

theorem holds_exit : (s.exit p).Holds q y ↔ s.Holds q y ∧ q ≠ p := by
  unfold Holds
  rw [fd_exit]
  by_cases hq : q = p
  · simp [hq]
  · simp [hq, holder_exit]

theorem Ok.exit (hs : Ok s) : Ok (s.exit p) where
  entry_made := hs.entry_made
  made_lt := hs.made_lt
  fd_made := by
    intro q y i hi
    rw [fd_exit] at hi
    split at hi
    · cases hi
    · exact hs.fd_made hi
  holder_open := by
    intro q i hheld
    obtain ⟨hq, hne⟩ := holder_exit.mp hheld
    obtain ⟨y, hy⟩ := hs.holder_open hq
    exact ⟨y, by rw [fd_exit, if_neg hne]; exact hy⟩

theorem Kept.exit (hk : s.Kept q y) : (s.exit p).Kept q y := by
  refine hk.mono ?_ (fun _ h => (holder_exit.mp h).1) (fun _ _ _ h => h)
  intro i hi
  rw [fd_exit] at hi
  split at hi
  · cases hi
  · exact hi

end

/-! ## Descriptors -/

section

variable [DecidableEq Path] [DecidableEq Proc] {s t : Files Path Proc} {p q : Proc} {x y : Path}

theorem fd_set_fd (s : Files Path Proc) (p q : Proc) (x y : Path) (fd : Option Nat) :
    (s.set_fd p x fd).fd q y = if q = p ∧ y = x then fd else s.fd q y := by
  by_cases hq : q = p
  · subst hq
    by_cases hy : y = x
    · subst hy
      simp [set_fd]
    · simp [set_fd, hy]
  · simp [set_fd, hq]

/-- The process has opened the file at the path. -/
structure Opens (s t : Files Path Proc) (p : Proc) (x : Path) : Prop where
  inode : ∃ i, t.entry x = some i ∧ ∀ q y, t.fd q y = if q = p ∧ y = x then some i else s.fd q y
  entry : ∀ y i, s.entry y = some i → t.entry y = some i
  holder : t.holder = s.holder
  ok : Ok s → s.fd p x = none → Ok t

theorem Ok.set_fd (h : Ok s) {i : Nat} (hi : s.made i = some x) (hclosed : s.fd p x = none) :
    Ok (s.set_fd p x (some i)) where
  entry_made := h.entry_made
  made_lt := h.made_lt
  fd_made := by
    intro q y j hj
    rw [fd_set_fd] at hj
    split at hj
    · rename_i hqy
      obtain ⟨rfl, rfl⟩ := hqy
      cases hj
      exact hi
    · exact h.fd_made hj
  holder_open := by
    intro q j hj
    obtain ⟨y, hy⟩ := h.holder_open hj
    refine ⟨y, ?_⟩
    rw [fd_set_fd, if_neg]
    · exact hy
    · rintro ⟨rfl, rfl⟩
      rw [hclosed] at hy
      cases hy

theorem opens_open_create (s : Files Path Proc) (p : Proc) (x : Path) :
    Opens s (s.open_create p x) p x := by
  unfold open_create
  split
  · rename_i i hi
    exact
      { inode := ⟨i, hi, fun q y => fd_set_fd s p q x y _⟩
        entry := fun _ _ hy => hy
        holder := rfl
        ok := fun h hclosed => h.set_fd (h.entry_made hi) hclosed }
  · rename_i hnone
    exact
      { inode := ⟨s.next_inode, by simp [set_fd, create], fun q y => fd_set_fd _ p q x y _⟩
        entry := by
          intro y i hy
          have hne : y ≠ x := by
            rintro rfl
            rw [hnone] at hy
            cases hy
          simp only [set_fd, create, Function.update_of_ne hne]
          exact hy
        holder := rfl
        ok := fun h hclosed => (h.create x).set_fd (by simp [create]) hclosed }

theorem opens_open_existing (h : s.open_existing p x = some t) : Opens s t p x := by
  unfold open_existing at h
  obtain ⟨i, hi, rfl⟩ := Option.map_eq_some_iff.mp h
  exact
    { inode := ⟨i, hi, fun q y => fd_set_fd s p q x y _⟩
      entry := fun _ _ hy => hy
      holder := rfl
      ok := fun h hclosed => h.set_fd (h.entry_made hi) hclosed }

theorem Opens.opened_iff (h : Opens s t p x) :
    t.Opened q y ↔ s.Opened q y ∨ q = p ∧ y = x := by
  obtain ⟨i, -, hfd⟩ := h.inode
  unfold Opened
  rw [hfd q y]
  split
  · rename_i hqy
    simp [hqy]
  · rename_i hqy
    simp [hqy]

theorem Opens.holds_iff (h : Opens s t p x) (hs : Ok s) (hclosed : s.fd p x = none) :
    t.Holds q y ↔ s.Holds q y := by
  obtain ⟨i, -, hfd⟩ := h.inode
  by_cases hqy : q = p ∧ y = x
  · obtain ⟨rfl, rfl⟩ := hqy
    refine iff_of_false ?_ ?_
    · rintro ⟨j, hj, hheld⟩
      rw [h.holder] at hheld
      obtain ⟨z, hz⟩ := hs.holder_open hheld
      have hzy : z ≠ y := by
        rintro rfl
        rw [hclosed] at hz
        cases hz
      have htz : t.fd q z = some j := by
        rw [hfd, if_neg (fun hc => hzy hc.2)]
        exact hz
      exact hzy ((h.ok hs hclosed).same_path htz hj)
    · rintro ⟨j, hj, -⟩
      rw [hclosed] at hj
      cases hj
  · unfold Holds
    rw [hfd q y, if_neg hqy, h.holder]

theorem Opens.kept (h : Opens s t p x) (hk : s.Kept q y) : t.Kept q y := by
  obtain ⟨i, hi, hfd⟩ := h.inode
  intro j hj hheld
  rw [hfd] at hj
  split at hj
  · rename_i hqy
    rw [hqy.2, hi]
    exact hj
  · rw [h.holder] at hheld
    exact h.entry y j (hk j hj hheld)

theorem fd_close : (s.close p x).fd q y = if q = p ∧ y = x then none else s.fd q y :=
  fd_set_fd (s.unlock p x) p q x y none

theorem opened_close : (s.close p x).Opened q y ↔ s.Opened q y ∧ ¬ (q = p ∧ y = x) := by
  unfold Opened
  rw [fd_close]
  split
  · rename_i hqy
    simp [hqy]
  · rename_i hqy
    simp [hqy]

theorem holds_close (hs : Ok s) :
    (s.close p x).Holds q y ↔ s.Holds q y ∧ ¬ (q = p ∧ y = x) := by
  rw [← holds_unlock hs]
  unfold Holds
  rw [fd_close]
  split
  · rename_i hqy
    obtain ⟨rfl, rfl⟩ := hqy
    refine iff_of_false ?_ ?_
    · rintro ⟨i, hi, -⟩
      cases hi
    · intro h
      exact ((holds_unlock hs).mp h).2 ⟨rfl, rfl⟩
  · rfl

theorem Ok.close (hs : Ok s) : Ok (s.close p x) where
  entry_made := hs.entry_made
  made_lt := hs.made_lt
  fd_made := by
    intro q y i hi
    rw [fd_close] at hi
    split at hi
    · cases hi
    · exact hs.fd_made hi
  holder_open := by
    intro q i hheld
    obtain ⟨hq, hne⟩ := holder_unlock.mp hheld
    obtain ⟨y, hy⟩ := hs.holder_open hq
    refine ⟨y, ?_⟩
    rw [fd_close, if_neg]
    · exact hy
    · rintro ⟨rfl, rfl⟩
      exact hne ⟨rfl, hy⟩

theorem Kept.close (hk : s.Kept q y) : (s.close p x).Kept q y := by
  refine hk.mono ?_ (fun _ h => (holder_unlock.mp h).1) (fun _ _ _ h => h)
  intro i hi
  rw [fd_close] at hi
  split at hi
  · cases hi
  · exact hi

end

end Files

end file_locks
