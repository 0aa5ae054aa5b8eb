-- Servers of one pid directory. Two servers that are up share no lock file, neither that of
-- their configuration nor that of their database name, and what each of them tells of itself
-- follows the order of its life.
import TateyamaBootstrap.Backend

open file_locks json runs

namespace tateyama_bootstrap.backend

open configuration
open process (State)

/-! ## What a server tells of itself -/

/-- The states of a server that boots, serves and is shut down. -/
def orderly : List State := [.ready, .activated, .deactivating, .deactivated]

/-- What a server may have told that has not been shut down in order. -/
def unfinished : List (List State) :=
  [[], [.boot_error], [.ready, .boot_error], [.ready], [.ready, .activated],
    [.ready, .activated, .deactivating]]

/-- What a server has told where it stands. -/
def Pc.words : Pc → List (List State)
  | .configure | .locking _ | .setup | .fill_contents | .boot => [[]]
  | .start | .activate => [[.ready]]
  | .serve => [[.ready, .activated]]
  | .shutdown => [[.ready, .activated, .deactivating]]
  | .failed => [[], [.boot_error], [.ready, .boot_error]]
  | .leave 0 | .gone (some 0) => [orderly]
  | .leave (_ + 1) | .gone (some (_ + 1)) => unfinished
  | .gone none => unfinished ++ [orderly]

/-- The server has locked this mutex, and has not begun to destroy it. -/
def Pc.past : Lock → Pc → Bool
  | .process, .setup | .process, .fill_contents | .process, .locking .database => true
  | _, .boot | _, .start | _, .activate | _, .serve | _, .shutdown => true
  | _, _ => false

namespace Server

/-- Its last word is that it is ready, activated or deactivating, and it has not begun to
destroy its mutexes. -/
def Up (v : Server) : Prop :=
  (∀ code, v.pc ≠ .leave code) ∧ (∀ code, v.pc ≠ .gone code) ∧
  (v.whole.getLast? = some .ready ∨ v.whole.getLast? = some .activated ∨
    v.whole.getLast? = some .deactivating)

/-- What a server has told and locked where it stands. -/
structure Lawful (path : Lock → Option Text) (v : Server) : Prop where
  told : v.whole ∈ v.pc.words
  locked : ∀ l x, path l = some x → v.pc.past l = true → v.mutex l = .owner

end Server

section Words

variable {valid : Bool} {path : Lock → Option Text} {me : Proc} {files : Files Text Proc}
  {v : Server} {a : ServerAct} {next : Files Text Proc × Server}

theorem unfinished_of_pc {pc : Pc} {whole : List State} (h : whole ∈ pc.words)
    (hleave : ∀ code, pc ≠ .leave code) (hgone : ∀ code, pc ≠ .gone code) :
    whole ∈ unfinished := by
  cases pc with
  | leave code => exact absurd rfl (hleave code)
  | gone code => exact absurd rfl (hgone code)
  | failed =>
    simp only [Pc.words, List.mem_cons, List.not_mem_nil, or_false] at h
    rcases h with h | h | h <;> simp [unfinished, h]
  | _ =>
    simp only [Pc.words, List.mem_cons, List.not_mem_nil, or_false] at h
    simp [unfinished, h]

/-- A server that is killed may have told what a server tells anywhere. -/
theorem words_of_pc {pc : Pc} {whole : List State} (h : whole ∈ pc.words) :
    whole ∈ (Pc.gone none).words := by
  have horderly : whole ∈ [orderly] → whole ∈ (Pc.gone none).words :=
    List.mem_append_right unfinished
  have hunfinished : whole ∈ unfinished → whole ∈ (Pc.gone none).words :=
    List.mem_append_left [orderly]
  cases pc with
  | leave code =>
    cases code with
    | zero => exact horderly h
    | succ => exact hunfinished h
  | gone code =>
    cases code with
    | none => exact h
    | some code =>
      cases code with
      | zero => exact horderly h
      | succ => exact hunfinished h
  | _ => exact hunfinished (unfinished_of_pc h (by simp) (by simp))

theorem Server.Up.past (hup : v.Up) (htold : v.whole ∈ v.pc.words) (l : Lock) :
    v.pc.past l = true := by
  obtain ⟨hleave, hgone, hlast⟩ := hup
  cases hpc : v.pc with
  | leave code => exact absurd hpc (hleave code)
  | gone code => exact absurd hpc (hgone code)
  | start | activate | serve | shutdown => cases l <;> rfl
  | failed =>
    rw [hpc] at htold
    simp only [Pc.words, List.mem_cons, List.not_mem_nil, or_false] at htold
    rcases htold with h | h | h <;> simp [h] at hlast
  | configure | locking | setup | fill_contents | boot =>
    rw [hpc] at htold
    simp only [Pc.words, List.mem_cons, List.not_mem_nil, or_false] at htold
    simp [htold] at hlast

/-- A step of `backend_main` tells what fits where it goes, and goes past no mutex. -/
theorem main_next_lawful {named : Bool} {pc : Pc} {next : List State × Pc}
    (h : main_next valid named pc a = some next) :
    (∀ w ∈ pc.words, w ++ next.1 ∈ next.2.words) ∧
      ∀ l, (l = .database → named = true) → next.2.past l = true → pc.past l = true := by
  unfold main_next at h
  split at h <;> cases h
  all_goals
    refine ⟨?_, ?_⟩
    · cases valid <;> cases named <;> decide
    · intro l
      cases l <;> cases valid <;> cases named <;> decide

theorem lawful_main (hv : v.Lawful path) {v' : Server} (h : main_step valid path v a = some v') :
    v'.Lawful path := by
  obtain ⟨next, hnext, rfl⟩ := Option.map_eq_some_iff.mp h
  obtain ⟨htold, hpast⟩ := main_next_lawful hnext
  refine ⟨htold _ hv.told, ?_⟩
  intro l x hx hl
  refine hv.locked l x hx (hpast l ?_ hl)
  rintro rfl
  rw [hx]
  rfl

/-- A mutex that the server is not past may change. -/
theorem Server.Lawful.set_mutex (hv : v.Lawful path) {l : Lock} (hl : v.pc.past l = false)
    (m : Mutex) : (v.set_mutex l m).Lawful path := by
  refine ⟨hv.told, ?_⟩
  intro l' x hx hpast
  have hne : l' ≠ l := by
    rintro rfl
    have hp : v.pc.past l' = true := hpast
    rw [hl] at hp
    cases hp
  simp only [Server.set_mutex, Function.update_of_ne hne]
  exact hv.locked l' x hx hpast

/-- A server that is past no mutex any more. -/
theorem lawful_of_told (htold : v.whole ∈ v.pc.words) (hpast : ∀ l, v.pc.past l = false) :
    v.Lawful path := by
  refine ⟨htold, ?_⟩
  intro l x _ hl
  rw [hpast] at hl
  cases hl

theorem past_locking (l : Lock) : (Pc.locking l).past l = false := by
  cases l <;> rfl

theorem lawful_refuse {l : Lock} {x : Text} (hv : v.Lawful path) (hpc : v.pc = .locking l) :
    (refuse me files v x l).2.Lawful path := by
  have hwhole : v.whole = [] := by
    have htold := hv.told
    rw [hpc] at htold
    simpa [Pc.words] using htold
  cases l with
  | process =>
    refine lawful_of_told ?_ (fun l => by cases l <;> rfl)
    simp [refuse, hwhole, Pc.words]
  | database =>
    refine lawful_of_told ?_ (fun l => by cases l <;> rfl)
    simp [refuse, Server.tell, Server.set_mutex, hwhole, Pc.words]

theorem lawful_locked {l : Lock} (hv : v.Lawful path) (hpc : v.pc = .locking l) :
    Server.Lawful path { v.set_mutex l .owner with pc := Server.after l } := by
  refine ⟨?_, ?_⟩
  · have htold := hv.told
    rw [hpc] at htold
    cases l <;> exact htold
  · intro l' x hx hpast
    by_cases hl : l' = l
    · subst hl
      simp [Server.set_mutex]
    · simp only [Server.set_mutex, Function.update_of_ne hl]
      refine hv.locked l' x hx ?_
      rw [hpc]
      cases l <;> cases l' <;> first | exact absurd rfl hl | exact hpast

theorem lawful_lock {l : Lock} {x : Text} (hv : v.Lawful path) (hpc : v.pc = .locking l)
    (h : lock_step me files v l x a = some next) : next.2.Lawful path := by
  have hpast : v.pc.past l = false := by
    rw [hpc]
    exact past_locking l
  cases a with
  | construct | truncate =>
    obtain ⟨-, ⟨⟩⟩ := Option.ite_none_right_eq_some.mp h
    exact hv.set_mutex hpast _
  | construct_fails | truncate_fails =>
    obtain ⟨-, ⟨⟩⟩ := Option.ite_none_right_eq_some.mp h
    exact lawful_refuse hv hpc
  | flock =>
    obtain ⟨-, h⟩ := Option.ite_none_right_eq_some.mp h
    split at h
    · cases h
      exact lawful_locked hv hpc
    · cases h
      exact lawful_refuse hv hpc
  | _ => cases h

theorem lawful_leave {code : Nat} (hv : v.Lawful path) (hpc : v.pc = .leave code)
    (h : leave_step path me files v code a = some next) : next.2.Lawful path := by
  have hpast : ∀ l, v.pc.past l = false := by
    intro l
    rw [hpc]
    cases l <;> rfl
  cases a with
  | close | unlink =>
    simp only [leave_step] at h
    split at h
    · obtain ⟨-, ⟨⟩⟩ := Option.ite_none_right_eq_some.mp h
      exact hv.set_mutex (hpast _) _
    · cases h
  | leave =>
    obtain ⟨-, ⟨⟩⟩ := Option.ite_none_right_eq_some.mp h
    refine lawful_of_told ?_ (fun l => by cases l <;> rfl)
    have htold := hv.told
    rw [hpc] at htold
    cases code <;> exact htold
  | _ => cases h

/-- A server that leaves `backend_main` early has not been shut down in order. -/
theorem unfinished_of_throw (hv : v.Lawful path) (hthrow : v.may_throw = true) :
    v.whole ∈ unfinished := by
  refine unfinished_of_pc hv.told ?_ ?_
  · intro code hpc
    simp [Server.may_throw, hpc] at hthrow
  · intro code hpc
    simp [Server.may_throw, hpc] at hthrow

theorem lawful_step (hv : v.Lawful path)
    (h : server_step valid path me files v a = some next) : next.2.Lawful path := by
  unfold server_step at h
  split at h
  · split at h
    · cases h
    · cases h
      exact lawful_of_told (words_of_pc hv.told) (fun l => by cases l <;> rfl)
  · obtain ⟨hpc, ⟨⟩⟩ := Option.ite_none_right_eq_some.mp h
    refine lawful_of_told ?_ (fun l => by cases l <;> rfl)
    exact unfinished_of_pc hv.told (by simp [hpc]) (by simp [hpc])
  · obtain ⟨hthrow, ⟨⟩⟩ := Option.ite_none_right_eq_some.mp h
    have hwhole := unfinished_of_throw hv hthrow
    refine lawful_of_told ?_ (fun l => by cases l <;> rfl)
    rename_i runtime_error
    cases runtime_error <;> exact hwhole
  · split at h
    · rename_i l hpc
      split at h
      · exact lawful_lock hv hpc h
      · cases h
    · rename_i code hpc
      exact lawful_leave hv hpc h
    · obtain ⟨v', hv', rfl⟩ := Option.map_eq_some_iff.mp h
      exact lawful_main hv hv'

end Words

/-! ## The invariant of the servers -/

section Servers

variable {hash : Text → UInt64} {launch : Nat → Launch} {s t : Sys}

structure Inv (hash : Text → UInt64) (launch : Nat → Launch) (s : Sys) : Prop where
  files : s.files.Ok
  matched : ∀ p, Matched ((launch p).path hash) (.server p) s.files (s.server p).mutex
  lawful : ∀ p, (s.server p).Lawful ((launch p).path hash)
  kept : ∀ p x, s.files.Kept (.server p) x
  /-- Only the lock files of the configurations are looked at. -/
  probes : ∀ q x, s.files.Opened (.probe q) x → ∃ p, (launch p).path hash .process = some x

theorem inv_init (hash : Text → UInt64) (launch : Nat → Launch) : Inv hash launch Sys.init where
  files := Files.ok_init
  matched := by
    intro p
    refine ⟨?_, ?_, ?_⟩
    · intro l x _
      simp [Sys.init, Server.init, Files.init, Files.Opened, Mutex.is_open]
    · intro l x _
      simp [Sys.init, Server.init, Files.init, Files.Holds]
    · rintro x ⟨i, hi⟩
      cases hi
  lawful := fun p => lawful_of_told (by simp [Sys.init, Server.init, Pc.words])
    (fun l => by cases l <;> rfl)
  kept := fun p x i hi => by cases hi
  probes := by
    rintro q x ⟨i, hi⟩
    cases hi

theorem guarded_of_pathKept {p : Nat} {a : ServerAct} (h : PathKept hash launch s (.server p a)) :
    Guarded ((launch p).path hash) (.server p) s.files (s.server p) a where
  flock := by
    rintro rfl
    exact h
  unlink := by
    rintro rfl
    exact h

theorem inv_server {p : Nat} {a : ServerAct} (h : Inv hash launch s)
    (hk : PathKept hash launch s (.server p a)) (hs : step hash launch s (.server p a) = some t) :
    Inv hash launch t := by
  obtain ⟨next, hnext, rfl⟩ := Option.map_eq_some_iff.mp hs
  have hmove := server_move (guarded_of_pathKept hk) hnext
  have hinj : ∀ l l' x, (launch p).path hash l = some x → (launch p).path hash l' = some x →
      l = l' := fun _ _ _ => Launch.path_lock
  refine ⟨hmove.ok h.files (h.matched p), ?_, ?_, ?_, ?_⟩
  · intro q
    by_cases hq : q = p
    · subst hq
      simp only [Function.update_self]
      exact hmove.matched hinj h.files (h.matched q)
    · have hne : Proc.server q ≠ .server p := by
        simpa using hq
      simp only [Function.update_of_ne hq]
      exact (h.matched q).same (hmove.others h.files (h.matched p) hne)
  · intro q
    by_cases hq : q = p
    · subst hq
      simp only [Function.update_self]
      exact lawful_step (h.lawful q) hnext
    · simp only [Function.update_of_ne hq]
      exact h.lawful q
  · intro q x
    exact hmove.kept h.files (h.kept q x)
  · intro q x hx
    exact h.probes q x ((hmove.others h.files (h.matched p) (by simp) x).1.mp hx)

/-- A call of a probe, or an unlink, changes nothing for the servers. -/
theorem Inv.aside (h : Inv hash launch s) {files : Files Text Proc} (hok : files.Ok)
    (hsame : ∀ p x, (files.Opened (.server p) x ↔ s.files.Opened (.server p) x) ∧
      (files.Holds (.server p) x ↔ s.files.Holds (.server p) x))
    (hkept : ∀ p x, files.Kept (.server p) x)
    (hprobes : ∀ q x, files.Opened (.probe q) x → s.files.Opened (.probe q) x ∨
      ∃ p, (launch p).path hash .process = some x) :
    Inv hash launch { s with files } where
  files := hok
  matched := fun p => (h.matched p).same (hsame p)
  lawful := h.lawful
  kept := hkept
  probes := by
    intro q x hx
    rcases hprobes q x hx with hold | hnew
    · exact h.probes q x hold
    · exact hnew

theorem probe_step_eq_some {p : Nat} {call : Text → Option (Files Text Proc)}
    (h : probe_step hash launch s p call = some t) :
    ∃ x files, (launch p).path hash .process = some x ∧ call x = some files ∧
      t = { s with files } := by
  unfold probe_step at h
  obtain ⟨files, hfiles, rfl⟩ := Option.map_eq_some_iff.mp h
  obtain ⟨x, hx, hcall⟩ := Option.bind_eq_some_iff.mp hfiles
  exact ⟨x, files, hx, hcall, rfl⟩

theorem inv_step {a : Act} (h : Inv hash launch s) (hk : PathKept hash launch s a)
    (hs : step hash launch s a = some t) : Inv hash launch t := by
  cases a with
  | server p a => exact inv_server h hk hs
  | probe_open q p =>
    obtain ⟨x, files, hx, hcall, rfl⟩ := probe_step_eq_some hs
    obtain ⟨hclosed, hopen⟩ := Option.ite_none_right_eq_some.mp hcall
    have hopens := Files.opens_open_existing hopen
    refine h.aside (hopens.ok h.files hclosed) ?_ ?_ ?_
    · intro p' y
      exact ⟨by simp [hopens.opened_iff], hopens.holds_iff h.files hclosed⟩
    · intro p' y
      exact hopens.kept (h.kept p' y)
    · intro q' y hy
      rcases hopens.opened_iff.mp hy with hold | ⟨-, rfl⟩
      · exact .inl hold
      · exact .inr ⟨p, hx⟩
  | probe_lock q p =>
    obtain ⟨x, files, -, hlock, rfl⟩ := probe_step_eq_some hs
    have hopened : ∀ r y, files.Opened r y ↔ s.files.Opened r y := by
      intro r y
      unfold Files.Opened
      rw [Files.fd_try_lock hlock]
    refine h.aside (h.files.try_lock hlock) ?_ ?_ ?_
    · intro p' y
      exact ⟨hopened _ y, by simp [Files.holds_try_lock h.files hlock]⟩
    · intro p' y
      exact (h.kept p' y).try_lock h.files hlock (fun hc => by cases hc)
    · intro q' y hy
      exact .inl ((hopened _ y).mp hy)
  | probe_unlock q p =>
    obtain ⟨x, files, -, ⟨⟩, rfl⟩ := probe_step_eq_some hs
    refine h.aside h.files.unlock ?_ ?_ ?_
    · intro p' y
      exact ⟨Iff.rfl, by simp [Files.holds_unlock h.files]⟩
    · intro p' y
      exact (h.kept p' y).unlock
    · intro q' y hy
      exact .inl hy
  | probe_close q p =>
    obtain ⟨x, files, -, ⟨⟩, rfl⟩ := probe_step_eq_some hs
    refine h.aside h.files.close ?_ ?_ ?_
    · intro p' y
      exact ⟨by simp [Files.opened_close], by simp [Files.holds_close h.files]⟩
    · intro p' y
      exact (h.kept p' y).close
    · intro q' y hy
      exact .inl (Files.opened_close.mp hy).1
  | kill_unlink p =>
    obtain ⟨x, files, hx, ⟨⟩, rfl⟩ := probe_step_eq_some hs
    refine h.aside h.files.unlink ?_ ?_ ?_
    · intro p' y
      exact ⟨Iff.rfl, Iff.rfl⟩
    · intro p' y
      exact (h.kept p' y).unlink (hk x hx p')
    · intro q' y hy
      exact .inl hy

/-! ## Servers exclude each other -/

/-- Nobody holds the lock of a file that was made at the path. -/
def unheld (files : Files Text Proc) (x : Text) : Bool :=
  (List.range files.next_inode).all fun i => files.made i != some x || files.holder i == none

theorem not_holds_of_unheld {files : Files Text Proc} (hs : files.Ok) {x : Text}
    (h : unheld files x = true) (r : Proc) : ¬ files.Holds r x := by
  rintro ⟨i, hi, hr⟩
  have hmade := hs.fd_made hi
  have hall := List.all_eq_true.mp h i (List.mem_range.mpr (hs.made_lt hmade))
  simp [hmade, hr] at hall

/-- The test for `PathKept`. -/
def pathKept (hash : Text → UInt64) (launch : Nat → Launch) (s : Sys) : Act → Bool
  | .server p .unlink =>
    [Lock.process, .database].all fun l =>
      ((launch p).path hash l).all fun x =>
        (s.server p).mutex l != .closed || unheld s.files x
  | .server p .flock =>
    [Lock.process, .database].all fun l =>
      ((launch p).path hash l).all fun x =>
        (s.server p).pc != .locking l || s.files.entry x == s.files.fd (.server p) x
  | .kill_unlink p => ((launch p).path hash .process).all fun x => unheld s.files x
  | _ => true

theorem pathKept_of_test (s : Sys) (a : Act) (h : Inv hash launch s)
    (ha : pathKept hash launch s a = true) : PathKept hash launch s a := by
  cases a with
  | server p a =>
    cases a with
    | unlink =>
      intro l x hm hx q
      have hall : ((launch p).path hash l).all (fun x =>
          (s.server p).mutex l != .closed || unheld s.files x) = true :=
        List.all_eq_true.mp ha l (by cases l <;> simp)
      simp only [hx, hm, Option.all_some, bne_self_eq_false, Bool.false_or] at hall
      exact not_holds_of_unheld h.files hall _
    | flock =>
      intro l x hpc hx _
      have hall : ((launch p).path hash l).all (fun x =>
          (s.server p).pc != .locking l || s.files.entry x == s.files.fd (.server p) x) = true :=
        List.all_eq_true.mp ha l (by cases l <;> simp)
      simpa [hx, hpc] using hall
    | _ => trivial
  | kill_unlink p =>
    intro x hx q
    simp only [pathKept, hx, Option.all_some] at ha
    exact not_holds_of_unheld h.files ha _
  | _ => trivial

end Servers

/-- A server of this file, with the pid directory "d" and the database name "t". -/
def launched (conf : Text) : Launch where
  env :=
    { env_home := none
      env_conf := none
      file_exists := fun _ => true
      is_directory := fun _ => false
      canonical := id
      create_configuration := fun _ _ =>
        some { pid_directory := some (ascii "d"), database_name := some (ascii "t") } }
  conf := conf
  configured := true

end tateyama_bootstrap.backend
