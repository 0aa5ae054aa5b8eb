-- The probes of the lock file: `proc_mutex::check`, which `tgctl_start` calls in a
-- loop on one mutex object, and `status_provider::is_alive` of transport/wire.h.
-- A probe takes the lock itself and gives it back, so until then it cannot be
-- told from an owner.
import TateyamaBootstrap.ProcMutex

open runs

namespace tateyama_bootstrap.proc_mutex

/-! ## The probes -/

/-- The processes, with the `fd_` of the mutex object on which a process has
called `check`. -/
structure Probes where
  base : Sys
  kept : Nat → Option Nat

inductive ProbeAct
  | base (a : Act)
  /-- `check` is called once more on the same object. -/
  | poll (p : Nat)
  /-- `is_alive`, which opens the file and does not look at the path first. -/
  | is_alive (p : Nat)
deriving DecidableEq, Repr

namespace Probes

def init : Probes := ⟨Sys.init, fun _ => none⟩

/-- The descriptors of the processes that are in a call of `check`. -/
def keep (s : Probes) (t : Sys) (p : Nat) : Option Nat :=
  match t.proc p with
  | .probing fd | .checking fd => fd
  | .probed i => some i
  | _ => s.kept p

end Probes

/-- One system call of a server, of `tgctl_kill` or of a probe. -/
def probe_step (s : Probes) : ProbeAct → Option Probes
  | .base a => (step s.base a).map fun t => ⟨t, s.keep t⟩
  | .poll p =>
    match s.base.proc p with
    | .checked _ => some { s with base := s.base.set_proc p (.probing (s.kept p)) }
    | _ => none
  | .is_alive p =>
    match s.base.proc p with
    | .idle => some { s with base := s.base.set_proc p (.checking none) }
    | _ => none

/-! ## Refusals -/

/-- Another process has locked this file and not released it. -/
def Owned (s : Sys) (p i : Nat) : Prop := ∃ q f, q ≠ p ∧ s.proc q = .owner i f

/-- A `lock` that fails, and a probe that reports a server, meets an owner. -/
def OwnerOnly (s : Probes) : ProbeAct → Prop
  | .base (.flock p) => ∀ i t, s.base.proc p = .truncated i →
      probe_step s (.base (.flock p)) = some t → t.base.proc p = .failed i → Owned s.base p i
  | .base (.truncate_fails p) => ∀ i t, s.base.proc p = .opened i →
      probe_step s (.base (.truncate_fails p)) = some t → t.base.proc p = .failed i →
      Owned s.base p i
  | .base (.check_flock p) => ∀ i t, s.base.proc p = .checking (some i) →
      probe_step s (.base (.check_flock p)) = some t → t.base.proc p = .checked .locked →
      Owned s.base p i
  | _ => True

/-- No probe has the lock of the file. -/
def NoProbe (s : Sys) (i : Nat) : Prop := ∀ q, s.holder i = some q → s.proc q ≠ .probed i

/-- Nobody tries to lock the file while a probe has it. -/
def Unprobed (s : Probes) : ProbeAct → Prop
  | .base (.flock p) => ∀ i, s.base.proc p = .truncated i → NoProbe s.base i
  | .base (.check_flock p) => ∀ i, s.base.proc p = .checking (some i) → NoProbe s.base i
  | _ => True

/-- The file system lets `ftruncate` succeed. -/
def Truncates (_ : Probes) (a : ProbeAct) : Prop := ∀ p, a ≠ .base (.truncate_fails p)

/-! ## Who holds a lock -/

/-- A lock is held by an owner or by a probe, and every owner holds its lock. -/
structure HoldersOk (s : Sys) : Prop where
  holder : ∀ i q, s.holder i = some q → (∃ f, s.proc q = .owner i f) ∨ s.proc q = .probed i
  owner : ∀ q i f, s.proc q = .owner i f → s.holder i = some q

/-- The place of a process that has no lock. -/
def Proc.lockless : Proc → Bool
  | .owner _ _ | .probed _ => false
  | _ => true

section Holders

variable {s t : Sys} {p i : Nat} {x : Proc}

theorem holdersOk_init : HoldersOk Sys.init := by
  refine ⟨?_, ?_⟩
  · intro i q h
    cases h
  · intro q i f h
    cases h

theorem HoldersOk.not_holder (h : HoldersOk s) (hp : (s.proc p).lockless = true) (i : Nat) :
    s.holder i ≠ some p := by
  intro hi
  rcases h.holder i p hi with ⟨f, he⟩ | he
  · rw [he] at hp
    cases hp
  · rw [he] at hp
    cases hp

/-- A process that has no lock goes on without one. -/
theorem HoldersOk.moves (h : HoldersOk s) (hp : (s.proc p).lockless = true)
    (hx : x.lockless = true) (ht : t.proc = Function.update s.proc p x)
    (hh : t.holder = s.holder) : HoldersOk t := by
  have hne : ∀ i q, s.holder i = some q → q ≠ p := by
    rintro i q hq rfl
    exact h.not_holder hp i hq
  refine ⟨?_, ?_⟩
  · intro i q hq
    rw [hh] at hq
    rw [ht, Function.update_of_ne (hne i q hq)]
    exact h.holder i q hq
  · intro q i f hq
    by_cases hqp : q = p
    · subst hqp
      rw [ht, Function.update_self] at hq
      rw [hq] at hx
      cases hx
    · rw [ht, Function.update_of_ne hqp] at hq
      rw [hh]
      exact h.owner q i f hq

/-- A process gives back what it has. -/
theorem HoldersOk.releases (h : HoldersOk s) (hx : x.lockless = true)
    (ht : t.proc = Function.update s.proc p x) (hh : t.holder = (s.release p).holder) :
    HoldersOk t := by
  refine ⟨?_, ?_⟩
  · intro i q hq
    rw [hh] at hq
    simp only [Sys.release] at hq
    split at hq
    · cases hq
    · rename_i hn
      have hqp : q ≠ p := by
        rintro rfl
        exact hn hq
      rw [ht, Function.update_of_ne hqp]
      exact h.holder i q hq
  · intro q i f hq
    by_cases hqp : q = p
    · subst hqp
      rw [ht, Function.update_self] at hq
      rw [hq] at hx
      cases hx
    · rw [ht, Function.update_of_ne hqp] at hq
      rw [hh]
      exact release_holder hqp (h.owner q i f hq)

/-- A process takes a lock that is free. -/
theorem HoldersOk.acquires (h : HoldersOk s) (hp : (s.proc p).lockless = true)
    (hfree : s.holder i = none) (hx : x = .owner i false ∨ x = .probed i)
    (ht : t.proc = Function.update s.proc p x) (hh : t.holder = (s.acquire p i).holder) :
    HoldersOk t := by
  refine ⟨?_, ?_⟩
  · intro j q hq
    rw [hh] at hq
    simp only [Sys.acquire] at hq
    by_cases hji : j = i
    · subst hji
      rw [Function.update_self] at hq
      cases hq
      rw [ht, Function.update_self]
      exact hx.imp_left fun he => ⟨false, he⟩
    · rw [Function.update_of_ne hji] at hq
      have hqp : q ≠ p := by
        rintro rfl
        exact h.not_holder hp j hq
      rw [ht, Function.update_of_ne hqp]
      exact h.holder j q hq
  · intro q j f hq
    by_cases hqp : q = p
    · subst hqp
      rw [ht, Function.update_self] at hq
      rw [hh]
      rcases hx with rfl | rfl
      · cases hq
        exact Function.update_self ..
      · cases hq
    · rw [ht, Function.update_of_ne hqp] at hq
      rw [hh]
      exact acquire_holder hfree (h.owner q j f hq)

theorem holdersOk_step {a : Act} (h : HoldersOk s) (hs : step s a = some t) : HoldersOk t := by
  cases a with
  | construct p =>
    simp only [step] at hs
    split at hs
    · rename_i hp
      cases hs
      obtain ⟨hproc, hhold, -⟩ := open_create_keeps s
      refine h.moves (p := p) (x := .opened s.open_create.1) (by rw [hp]; rfl) rfl ?_ hhold
      rw [← hproc]
      rfl
    · cases hs
  | construct_fails p | truncate p | truncate_fails p | probe p | check_again p =>
    simp only [step] at hs
    split at hs
    · rename_i hp
      cases hs
      exact h.moves (p := p) (by rw [hp]; rfl) rfl rfl rfl
    · cases hs
  | flock p =>
    simp only [step] at hs
    split at hs
    · rename_i i hp
      split at hs
      · rename_i hfree
        cases hs
        exact h.acquires (by rw [hp]; rfl) hfree (.inl rfl) rfl rfl
      · cases hs
        exact h.moves (p := p) (by rw [hp]; rfl) rfl rfl rfl
    · cases hs
  | fill_contents p =>
    simp only [step] at hs
    split at hs
    · rename_i i hp
      cases hs
      refine ⟨?_, ?_⟩
      · intro j q hq
        rcases h.holder j q hq with ⟨f, he⟩ | he
        · by_cases hqp : q = p
          · subst hqp
            rw [hp] at he
            cases he
            exact .inl ⟨true, Function.update_self ..⟩
          · exact .inl ⟨f, (Function.update_of_ne hqp ..).trans he⟩
        · have hqp : q ≠ p := by
            rintro rfl
            rw [hp] at he
            cases he
          exact .inr ((Function.update_of_ne hqp ..).trans he)
      · intro q j f hq
        by_cases hqp : q = p
        · subst hqp
          simp only [Sys.set_proc, Function.update_self] at hq
          cases hq
          exact h.owner q i false hp
        · simp only [Sys.set_proc, Function.update_of_ne hqp] at hq
          exact h.owner q j f hq
    · cases hs
  | close p =>
    simp only [step] at hs
    split at hs <;> cases hs <;> exact h.releases (p := p) rfl rfl rfl
  | unlink p | kill_unlink p =>
    simp only [step] at hs
    split at hs
    · rename_i hp
      cases hs
      exact h.moves (p := p) (by rw [hp]; rfl) rfl rfl rfl
    · cases hs
  | crash p =>
    simp only [step] at hs
    split at hs
    · cases hs
    · cases hs
    · cases hs
      exact h.releases (p := p) rfl rfl rfl
  | check_exists p | check_open p =>
    simp only [step] at hs
    split at hs
    · rename_i hp
      split at hs <;> cases hs <;> exact h.moves (p := p) (by rw [hp]; rfl) rfl rfl rfl
    · cases hs
  | check_flock p =>
    simp only [step] at hs
    split at hs
    · rename_i i hp
      split at hs
      · rename_i hfree
        cases hs
        exact h.acquires (by rw [hp]; rfl) hfree (.inr rfl) rfl rfl
      · cases hs
        exact h.moves (p := p) (by rw [hp]; rfl) rfl rfl rfl
    · cases hs
  | check_unlock p =>
    simp only [step] at hs
    split at hs
    · cases hs
      exact h.releases (p := p) rfl rfl rfl
    · cases hs

end Holders

theorem holdersOk_probe_step {s t : Probes} {a : ProbeAct} (h : HoldersOk s.base)
    (hs : probe_step s a = some t) : HoldersOk t.base := by
  cases a with
  | base a =>
    obtain ⟨u, hu, rfl⟩ := Option.map_eq_some_iff.mp hs
    exact holdersOk_step h hu
  | poll p | is_alive p =>
    simp only [probe_step] at hs
    split at hs
    · rename_i hp
      cases hs
      exact h.moves (p := p) (by rw [hp]; rfl) rfl rfl rfl
    · cases hs

/-! ## Who is in the way -/

/-- A lock that is refused is held by an owner, unless a probe has it. -/
theorem HoldersOk.owned_iff {s : Sys} (h : HoldersOk s) {p i q : Nat}
    (hp : (s.proc p).lockless = true) (hq : s.holder i = some q) :
    Owned s p i ↔ NoProbe s i := by
  constructor
  · rintro ⟨r, f, -, hr⟩ q' hq' hprobe
    rw [h.owner r i f hr] at hq'
    cases hq'
    rw [hr] at hprobe
    cases hprobe
  · intro hn
    rcases h.holder i q hq with ⟨f, he⟩ | he
    · refine ⟨q, f, ?_, he⟩
      rintro rfl
      exact h.not_holder hp i hq
    · exact absurd he (hn q hq)

/-- The same for a step that tries to get the lock of a file, and moves its process
to `x` when it gets it and to `y` when it does not. -/
theorem HoldersOk.refusal_iff {s : Probes} (h : HoldersOk s.base) {a : Act} {p i : Nat}
    {x y : Proc} (hp : (s.base.proc p).lockless = true) (hxy : x ≠ y)
    (hfree : s.base.holder i = none → step s.base a = some ((s.base.acquire p i).set_proc p x))
    (hheld : ∀ q, s.base.holder i = some q → step s.base a = some (s.base.set_proc p y)) :
    (∀ t, probe_step s (.base a) = some t → t.base.proc p = y → Owned s.base p i) ↔
      NoProbe s.base i := by
  have hself : ∀ (u : Sys) (z : Proc), (u.set_proc p z).proc p = z := fun u z =>
    Function.update_self ..
  simp only [probe_step]
  cases hh : s.base.holder i with
  | none =>
    rw [hfree hh]
    constructor
    · intro _ q hq
      rw [hh] at hq
      cases hq
    · intro _ t ht hy
      cases ht
      rw [hself] at hy
      exact absurd hy hxy
  | some q =>
    rw [hheld q hh]
    constructor
    · intro ho
      exact (h.owned_iff hp hh).mp (ho _ rfl (hself _ _))
    · intro hn t _ _
      exact (h.owned_iff hp hh).mpr hn

theorem HoldersOk.ownerOnly_iff {s : Probes} (h : HoldersOk s.base) {a : ProbeAct}
    (ha : Truncates s a) : OwnerOnly s a ↔ Unprobed s a := by
  cases a with
  | base a =>
    cases a with
    | flock p =>
      have hi : ∀ i, s.base.proc p = .truncated i → _ := fun i hp =>
        h.refusal_iff (a := .flock p) (p := p) (i := i) (x := .owner i false) (y := .failed i)
          (by rw [hp]; rfl) (by simp) (fun hh => by simp only [step, hp, hh])
          fun q hh => by simp only [step, hp, hh]
      exact ⟨fun ho i hp => (hi i hp).mp fun t => ho i t hp,
        fun hu i t hp => (hi i hp).mpr (hu i hp) t⟩
    | check_flock p =>
      have hi : ∀ i, s.base.proc p = .checking (some i) → _ := fun i hp =>
        h.refusal_iff (a := .check_flock p) (p := p) (i := i) (x := .probed i)
          (y := .checked .locked) (by rw [hp]; rfl) (by simp)
          (fun hh => by simp only [step, hp, hh]) fun q hh => by simp only [step, hp, hh]
      exact ⟨fun ho i hp => (hi i hp).mp fun t => ho i t hp,
        fun hu i t hp => (hi i hp).mpr (hu i hp) t⟩
    | truncate_fails p => exact absurd rfl (ha p)
    | _ => exact Iff.rfl
  | poll p | is_alive p => exact Iff.rfl

theorem holdersOk_run {C : Probes → ProbeAct → Prop} {acts : List ProbeAct} {s : Probes}
    (hr : RunOf probe_step C Probes.init acts s) : HoldersOk s.base :=
  hr.inv holdersOk_init fun _ _ _ h _ hs => holdersOk_probe_step h hs

/-- In a run every refusal is owed to an owner exactly when nobody tries to lock
the file while a probe has it. -/
theorem only_a_probe_passes_for_an_owner (acts : List ProbeAct) (s : Probes)
    (hr : RunOf probe_step Truncates Probes.init acts s) :
    RunOf probe_step OwnerOnly Probes.init acts s ↔
      RunOf probe_step Unprobed Probes.init acts s := by
  induction hr with
  | nil => exact ⟨fun _ => .nil, fun _ => .nil⟩
  | @snoc acts t u a hr ha hs ih =>
    have hiff := (holdersOk_run hr).ownerOnly_iff ha
    constructor
    · intro h
      obtain ⟨t', ht', hc, -⟩ := h.last
      cases ht'.unique hr
      exact .snoc (ih.mp ht') (hiff.mp hc) hs
    · intro h
      obtain ⟨t', ht', hc, -⟩ := h.last
      cases ht'.unique hr
      exact .snoc (ih.mpr ht') (hiff.mpr hc) hs

/-- The test for `Unprobed` at processes that try to lock a file. -/
def unprobed (s : Probes) : ProbeAct → Bool
  | .base (.flock p) =>
    match s.base.proc p with
    | .truncated i => (s.base.holder i).all fun q => s.base.proc q != .probed i
    | _ => true
  | .base (.check_flock p) =>
    match s.base.proc p with
    | .checking (some i) => (s.base.holder i).all fun q => s.base.proc q != .probed i
    | _ => true
  | .base (.truncate_fails _) => false
  | _ => true

theorem unprobed_of_test (s : Probes) (a : ProbeAct) (h : unprobed s a = true) :
    Truncates s a ∧ Unprobed s a := by
  have hfree : ∀ i, ((s.base.holder i).all fun q => s.base.proc q != .probed i) = true →
      NoProbe s.base i := by
    intro i hall q hq
    rw [hq] at hall
    simpa using hall
  refine ⟨?_, ?_⟩
  · rintro p rfl
    cases h
  · cases a with
    | base a =>
      cases a with
      | flock p =>
        intro i hp
        simp only [unprobed, hp] at h
        exact hfree i h
      | check_flock p =>
        intro i hp
        simp only [unprobed, hp] at h
        exact hfree i h
      | _ => trivial
    | poll p | is_alive p => trivial

/-- Server 0 locks the file, process 1 polls it twice, server 2 is refused, and
process 3 asks whether the server is alive. -/
def watchedServer : List ProbeAct :=
  [.base (.construct 0), .base (.truncate 0), .base (.probe 1), .base (.check_exists 1),
    .base (.check_flock 1), .base (.check_unlock 1), .base (.flock 0), .poll 1,
    .base (.check_exists 1), .base (.check_flock 1), .base (.construct 2), .base (.truncate 2),
    .base (.flock 2), .is_alive 3, .base (.check_open 3), .base (.check_flock 3)]

theorem only_a_probe_passes_for_an_owner_of_a_watched_server :
    ∃ s, RunOf probe_step Truncates Probes.init watchedServer s ∧
      (s.base.proc 0 = .owner 0 false ∧ s.base.proc 1 = .checked .locked ∧
        s.base.proc 2 = .failed 0 ∧ s.base.proc 3 = .checked .locked) ∧
      RunOf probe_step OwnerOnly Probes.init watchedServer s := by
  obtain ⟨s, hr, hp⟩ := RunOf.exists_of_exec (s := Probes.init) unprobed_of_test
    (p := fun s => s.base.proc 0 = .owner 0 false ∧ s.base.proc 1 = .checked .locked ∧
      s.base.proc 2 = .failed 0 ∧ s.base.proc 3 = .checked .locked)
    (by decide : (exec (guarded probe_step unprobed) _ watchedServer).any _ = true)
  have ht := hr.mono fun _ _ hc => hc.1
  refine ⟨s, ht, by simpa using hp, ?_⟩
  exact (only_a_probe_passes_for_an_owner _ s ht).mpr (hr.mono fun _ _ hc => hc.2)

/-- Server 0 has opened the file, and process 1 is in `check` with the lock. -/
def probedFile : List ProbeAct :=
  [.base (.construct 0), .base (.truncate 0), .base (.probe 1), .base (.check_exists 1),
    .base (.check_flock 1)]

/-- A step that is refused by a probe breaks the run. -/
theorem refused_by_a_probe {acts : List ProbeAct} {s t : Probes} {a : ProbeAct}
    (hr : RunOf probe_step Truncates Probes.init acts s) (ha : Truncates s a)
    (hs : probe_step s a = some t) (hn : ¬ Unprobed s a) :
    RunOf probe_step Truncates Probes.init (acts ++ [a]) t ∧
      ¬ RunOf probe_step OwnerOnly Probes.init (acts ++ [a]) t := by
  refine ⟨.snoc hr ha hs, ?_⟩
  intro h
  obtain ⟨t', ht', hc, -⟩ := h.last
  cases ht'.unique hr
  exact hn (((holdersOk_run hr).ownerOnly_iff ha).mp hc)

/-- There the server is refused, and a second probe and `is_alive` report a server,
though nobody has locked the file. -/
theorem a_probe_passes_for_an_owner :
    (∃ t, RunOf probe_step Truncates Probes.init (probedFile ++ [ProbeAct.base (.flock 0)]) t ∧
      t.base.proc 0 = .failed 0 ∧
      ¬ RunOf probe_step OwnerOnly Probes.init (probedFile ++ [ProbeAct.base (.flock 0)]) t) ∧
    (∃ t, RunOf probe_step Truncates Probes.init
        (probedFile ++ [ProbeAct.base (.probe 2), .base (.check_exists 2)] ++
          [ProbeAct.base (.check_flock 2)]) t ∧
      t.base.proc 2 = .checked .locked ∧
      ¬ RunOf probe_step OwnerOnly Probes.init
        (probedFile ++ [ProbeAct.base (.probe 2), .base (.check_exists 2)] ++
          [ProbeAct.base (.check_flock 2)]) t) ∧
    ∃ t, RunOf probe_step Truncates Probes.init
        (probedFile ++ [ProbeAct.is_alive 3, .base (.check_open 3)] ++
          [ProbeAct.base (.check_flock 3)]) t ∧
      t.base.proc 3 = .checked .locked ∧
      ¬ RunOf probe_step OwnerOnly Probes.init
        (probedFile ++ [ProbeAct.is_alive 3, .base (.check_open 3)] ++
          [ProbeAct.base (.check_flock 3)]) t := by
  have hprobe : ∀ s : Probes, s.base.holder 0 = some 1 → s.base.proc 1 = .probed 0 →
      ¬ NoProbe s.base 0 := fun s hh hp hn => hn 1 hh hp
  refine ⟨?_, ?_, ?_⟩
  · obtain ⟨s, hr, hp⟩ := RunOf.exists_of_exec (s := Probes.init) unprobed_of_test
      (p := fun s => s.base.proc 0 = .truncated 0 ∧ s.base.holder 0 = some 1 ∧
        s.base.proc 1 = .probed 0)
      (by decide : (exec (guarded probe_step unprobed) _ probedFile).any _ = true)
    obtain ⟨h0, hh, h1⟩ : s.base.proc 0 = .truncated 0 ∧ s.base.holder 0 = some 1 ∧
        s.base.proc 1 = .probed 0 := by simpa using hp
    obtain ⟨ht, hn⟩ := refused_by_a_probe (a := .base (.flock 0)) (hr.mono fun _ _ hc => hc.1)
      (by intro p he; cases he) (by simp only [probe_step, step, h0, hh]; rfl)
      fun hu => hprobe s hh h1 (hu 0 h0)
    exact ⟨_, ht, by simp [Sys.set_proc], hn⟩
  · obtain ⟨s, hr, hp⟩ := RunOf.exists_of_exec (s := Probes.init) unprobed_of_test
      (p := fun s => s.base.proc 2 = .checking (some 0) ∧ s.base.holder 0 = some 1 ∧
        s.base.proc 1 = .probed 0)
      (by decide : (exec (guarded probe_step unprobed) _
        (probedFile ++ [ProbeAct.base (.probe 2), .base (.check_exists 2)])).any _ = true)
    obtain ⟨h0, hh, h1⟩ : s.base.proc 2 = .checking (some 0) ∧ s.base.holder 0 = some 1 ∧
        s.base.proc 1 = .probed 0 := by simpa using hp
    obtain ⟨ht, hn⟩ := refused_by_a_probe (a := .base (.check_flock 2))
      (hr.mono fun _ _ hc => hc.1) (by intro p he; cases he)
      (by simp only [probe_step, step, h0, hh]; rfl) fun hu => hprobe s hh h1 (hu 0 h0)
    exact ⟨_, ht, by simp [Sys.set_proc], hn⟩
  · obtain ⟨s, hr, hp⟩ := RunOf.exists_of_exec (s := Probes.init) unprobed_of_test
      (p := fun s => s.base.proc 3 = .checking (some 0) ∧ s.base.holder 0 = some 1 ∧
        s.base.proc 1 = .probed 0)
      (by decide : (exec (guarded probe_step unprobed) _
        (probedFile ++ [ProbeAct.is_alive 3, .base (.check_open 3)])).any _ = true)
    obtain ⟨h0, hh, h1⟩ : s.base.proc 3 = .checking (some 0) ∧ s.base.holder 0 = some 1 ∧
        s.base.proc 1 = .probed 0 := by simpa using hp
    obtain ⟨ht, hn⟩ := refused_by_a_probe (a := .base (.check_flock 3))
      (hr.mono fun _ _ hc => hc.1) (by intro p he; cases he)
      (by simp only [probe_step, step, h0, hh]; rfl) fun hu => hprobe s hh h1 (hu 0 h0)
    exact ⟨_, ht, by simp [Sys.set_proc], hn⟩

end tateyama_bootstrap.proc_mutex
