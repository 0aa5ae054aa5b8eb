-- The instance id of a configuration (configuration/instance_id_helper.h): a given id, or the
-- name of the host, is brought to lower case and checked, and every get_configuration() of
-- bootstrap_configuration.h does so again with what the last one stored.
import TateyamaBootstrap.Errors
import TateyamaBootstrap.Json

open json

namespace tateyama_bootstrap.configuration

def MAX_INSTANCE_ID_LENGTH : Nat := 63

/-- `'-'`. -/
def hyphen : UInt8 := 0x2d

/-! ## The check of an id -/

/-- `std::tolower` in the "C" locale, the only one of the program. -/
def tolower (c : UInt8) : UInt8 := if 0x41 ≤ c ∧ c ≤ 0x5a then c + 0x20 else c

def letter_or_digit (c : UInt8) : Bool := (0x61 ≤ c && c ≤ 0x7a) || (0x30 ≤ c && c ≤ 0x39)

/-- The loop of `tolower_and_check` from one character on; `after` is its variable `hyphen`. -/
def check_characters : (after : Bool) → Text → Except Error Unit
  | _, [] => .ok ()
  | after, c :: s =>
    if letter_or_digit c then check_characters false s
    else if c = hyphen then
      if after then .error (.exception "instance_id has consecutive hyphens")
      else check_characters true s
    else .error (.exception "instance_id has illegal character")

/-- The string that the call leaves in its argument. -/
def tolower_and_check (s : Text) : Except Error Text :=
  if s = [] then .error (.exception "instance_id given is empty string")
  else if MAX_INSTANCE_ID_LENGTH < s.length then .error (.exception "instance_id is too long")
  else if s.head? = some hyphen then .error (.exception "instance_id begins with hyphen")
  else if s.getLast? = some hyphen then .error (.exception "instance_id ends with hyphen")
  else do
    check_characters false (s.map tolower)
    return s.map tolower

/-- The buffer that a successful `gethostname` leaves: the name stands in it with its NUL, or
the call would have failed. -/
structure Hostname where
  data : List UInt8
  size : data.length = MAX_INSTANCE_ID_LENGTH
  terminated : 0 ∈ data

/-- The `strlen` bytes of the buffer. -/
def Hostname.name (host : Hostname) : Text := host.data.takeWhile (· ≠ 0)

def localhost : Text := ascii "localhost"

/-- `host` is `none` when `gethostname` fails. -/
def instance_id (host : Option Hostname) (id : Text) : Except Error Text :=
  if id = [] then
    match host with
    | some hostname =>
      match tolower_and_check hostname.name with
      | .ok instance_id => .ok instance_id
      | .error _ => .ok localhost
    | none => .ok localhost
  else tolower_and_check id

/-! ## The configuration -/

/-- The section "system" of a configuration object of tateyama, by what its `get` and its `set`
do to the entries. -/
structure Section (σ : Type) where
  get : String → σ → Option Text
  set : String → Text → σ → σ
  get_set : ∀ key value name conf,
    get name (set key value conf) = if name = key then some value else get name conf

variable {σ : Type} (system : Section σ)

def setup (host : Option Hostname) (conf : σ) : Except Error σ :=
  match system.get "instance_id" conf with
  | some id => do
    let id ← instance_id host id
    return system.set "instance_id" id conf
  | none => .error (.exception "instance_id is not given in tsurugi.ini")

/-- One `get_configuration` of the object for each element of the list, which is what
`gethostname` gives in it. -/
def get_configurations (hosts : List (Option Hostname)) (conf : σ) : Except Error σ :=
  hosts.foldlM (fun conf host => setup system host conf) conf

/-! ## The grammar of an id -/

/-- Runs of letters and digits that are joined by single hyphens. -/
def Runs (s : Text) : Prop :=
  ∃ runs : List Text, runs ≠ [] ∧ (∀ run ∈ runs, run ≠ [] ∧ ∀ c ∈ run, letter_or_digit c) ∧
    s = [hyphen].intercalate runs

def Grammar (s : Text) : Prop :=
  1 ≤ s.length ∧ s.length ≤ 63 ∧ Runs s

/-- What is stored for an empty id. -/
def HostId (host : Option Hostname) (id : Text) : Prop :=
  (∃ h, host = some h ∧ Grammar (h.name.map tolower) ∧ id = h.name.map tolower) ∨
    ((∀ h, host = some h → ¬Grammar (h.name.map tolower)) ∧ id = ascii "localhost")

theorem letter_or_digit_ne_hyphen {c : UInt8} (hc : letter_or_digit c) : c ≠ hyphen := by
  intro h
  subst h
  exact absurd hc (by decide)

theorem Runs.single {c : UInt8} (hc : letter_or_digit c) : Runs [c] := by
  refine ⟨[[c]], by simp, ?_, by simp⟩
  simpa using hc

theorem Runs.cons {c : UInt8} {s : Text} (hc : letter_or_digit c) (h : Runs s) : Runs (c :: s) := by
  obtain ⟨runs, hne, hall, rfl⟩ := h
  rcases runs with _ | ⟨run, runs⟩
  · exact absurd rfl hne
  refine ⟨(c :: run) :: runs, by simp, ?_, ?_⟩
  · intro r hr
    rcases List.mem_cons.mp hr with rfl | hr
    · refine ⟨by simp, ?_⟩
      intro d hd
      rcases List.mem_cons.mp hd with rfl | hd
      · exact hc
      · exact (hall run (by simp)).2 d hd
    · exact hall r (List.mem_cons_of_mem _ hr)
  · rcases runs with _ | ⟨next, runs⟩
    · simp
    · simp [List.intercalate_cons_cons]

theorem Runs.join {c : UInt8} {s : Text} (hc : letter_or_digit c) (h : Runs s) :
    Runs (c :: hyphen :: s) := by
  obtain ⟨runs, hne, hall, rfl⟩ := h
  rcases runs with _ | ⟨run, runs⟩
  · exact absurd rfl hne
  refine ⟨[c] :: run :: runs, by simp, ?_, ?_⟩
  · intro r hr
    rcases List.mem_cons.mp hr with rfl | hr
    · simpa using hc
    · exact hall r hr
  · simp [List.intercalate_cons_cons]

/-- What the loop accepts, from any character on: nothing more, runs, or a hyphen that may stand
there with runs behind it. -/
theorem runs_of_check (s : Text) (after : Bool) (h : check_characters after s = .ok ())
    (hlast : s.getLast? ≠ some hyphen) :
    s = [] ∨ Runs s ∨ ∃ r, s = hyphen :: r ∧ after = false ∧ Runs r := by
  induction s generalizing after with
  | nil => exact Or.inl rfl
  | cons c s ih =>
    unfold check_characters at h
    have hrest : s ≠ [] → s.getLast? ≠ some hyphen := by
      intro hne hs
      exact hlast (by rw [List.getLast?_cons, hs]; rfl)
    split at h
    · rename_i hc
      refine Or.inr (Or.inl ?_)
      by_cases hs : s = []
      · subst hs
        exact Runs.single hc
      rcases ih false h (hrest hs) with h1 | h1 | ⟨r, rfl, -, h1⟩
      · exact absurd h1 hs
      · exact Runs.cons hc h1
      · exact Runs.join hc h1
    split at h
    · rename_i hc
      subst hc
      split at h
      · simp at h
      rename_i hafter
      by_cases hs : s = []
      · subst hs
        simp at hlast
      rcases ih true h (hrest hs) with h1 | h1 | ⟨r, -, hafter', -⟩
      · exact absurd h1 hs
      · exact Or.inr (Or.inr ⟨s, rfl, by simpa using hafter, h1⟩)
      · simp at hafter'
    · simp at h

theorem check_letters (run s : Text) (after : Bool) (hne : run ≠ [])
    (h : ∀ c ∈ run, letter_or_digit c) :
    check_characters after (run ++ s) = check_characters false s := by
  induction run generalizing after with
  | nil => exact absurd rfl hne
  | cons c run ih =>
    have hc := h c (by simp)
    rw [List.cons_append, check_characters, if_pos hc]
    by_cases hrun : run = []
    · simp [hrun]
    · exact ih false hrun fun d hd => h d (List.mem_cons_of_mem _ hd)

theorem check_runs (runs : List Text) (after : Bool)
    (h : ∀ run ∈ runs, run ≠ [] ∧ ∀ c ∈ run, letter_or_digit c) :
    check_characters after ([hyphen].intercalate runs) = .ok () := by
  induction runs generalizing after with
  | nil => simp [check_characters]
  | cons run runs ih =>
    obtain ⟨hne, hall⟩ := h run (by simp)
    have ih := ih true fun r hr => h r (List.mem_cons_of_mem _ hr)
    rcases runs with _ | ⟨next, runs⟩
    · have := check_letters run [] after hne hall
      simpa [check_characters] using this
    · rw [List.intercalate_cons_cons, List.append_assoc, check_letters _ _ _ hne hall,
        List.singleton_append, check_characters, if_neg (by decide), if_pos rfl]
      simpa using ih

theorem Runs.head_ne {s : Text} (h : Runs s) : s.head? ≠ some hyphen := by
  obtain ⟨runs, hne, hall, rfl⟩ := h
  rcases runs with _ | ⟨run, runs⟩
  · exact absurd rfl hne
  obtain ⟨hrun, hletters⟩ := hall run (by simp)
  rcases run with _ | ⟨c, run⟩
  · exact absurd rfl hrun
  have hc := letter_or_digit_ne_hyphen (hletters c (by simp))
  rcases runs with _ | ⟨next, runs⟩
  · simpa using hc
  · simpa [List.intercalate_cons_cons] using hc

theorem Runs.last_ne {s : Text} (h : Runs s) : s.getLast? ≠ some hyphen := by
  obtain ⟨runs, hne, hall, rfl⟩ := h
  -- the last character of the whole is the last one of the last run
  induction runs with
  | nil => exact absurd rfl hne
  | cons run runs ih =>
    rcases runs with _ | ⟨next, runs⟩
    · obtain ⟨hrun, hletters⟩ := hall run (by simp)
      intro hl
      simp only [List.intercalate_singleton] at hl
      exact letter_or_digit_ne_hyphen (hletters _ (List.mem_of_getLast? hl)) rfl
    · have ih := ih (by simp) fun r hr => hall r (List.mem_cons_of_mem _ hr)
      rw [List.intercalate_cons_cons, List.getLast?_append]
      rcases hr : ([hyphen].intercalate (next :: runs)).getLast? with _ | c
      · have hempty := List.getLast?_eq_none_iff.mp hr
        obtain ⟨hnext, -⟩ := hall next (by simp)
        rcases runs with _ | ⟨_, _⟩
        · simp at hempty
          exact absurd hempty hnext
        · simp [List.intercalate_cons_cons, hnext] at hempty
      · rw [hr] at ih
        simpa using ih

/-! ## The id that is stored -/

theorem tolower_eq_hyphen (c : UInt8) : tolower c = hyphen ↔ c = hyphen := by
  unfold tolower hyphen
  split
  · simp only [← UInt8.toNat_inj, UInt8.le_iff_toNat_le, UInt8.toNat_add] at *
    simp at *
    omega
  · rfl

theorem tolower_of_letter {c : UInt8} (hc : letter_or_digit c) : tolower c = c := by
  unfold tolower
  split
  · simp only [letter_or_digit, Bool.or_eq_true, Bool.and_eq_true, decide_eq_true_eq,
      UInt8.le_iff_toNat_le] at *
    simp at *
    omega
  · rfl

theorem Runs.characters {s : Text} (h : Runs s) : ∀ c ∈ s, letter_or_digit c ∨ c = hyphen := by
  obtain ⟨runs, -, hall, rfl⟩ := h
  induction runs with
  | nil => simp
  | cons run runs ih =>
    intro c hc
    have hrun := (hall run (by simp)).2 c
    have ih := ih fun r hr => hall r (List.mem_cons_of_mem _ hr)
    rcases runs with _ | ⟨next, runs⟩
    · exact Or.inl (hrun (by simpa using hc))
    · rw [List.intercalate_cons_cons, List.mem_append, List.mem_append] at hc
      rcases hc with (hc | hc) | hc
      · exact Or.inl (hrun hc)
      · exact Or.inr (by simpa using hc)
      · exact ih c hc

theorem map_tolower_of_runs {s : Text} (h : Runs s) : s.map tolower = s := by
  refine (List.map_congr_left fun c hc => ?_).trans (List.map_id s)
  rcases h.characters c hc with h1 | h1
  · exact tolower_of_letter h1
  · rw [h1, id, tolower_eq_hyphen]

theorem tolower_and_check_iff (s r : Text) :
    tolower_and_check s = .ok r ↔ Grammar (s.map tolower) ∧ r = s.map tolower := by
  have hhead : (s.map tolower).head? = some hyphen ↔ s.head? = some hyphen := by
    simp [tolower_eq_hyphen]
  have hlast : (s.map tolower).getLast? = some hyphen ↔ s.getLast? = some hyphen := by
    simp [tolower_eq_hyphen]
  unfold tolower_and_check Grammar
  rw [List.length_map]
  constructor
  · intro h
    by_cases h0 : s = []
    · simp [h0] at h
    by_cases h1 : MAX_INSTANCE_ID_LENGTH < s.length
    · simp [h0, h1] at h
    by_cases h2 : s.head? = some hyphen
    · simp [h0, h1, h2] at h
    by_cases h3 : s.getLast? = some hyphen
    · simp [h0, h1, h2, h3] at h
    rw [if_neg h0, if_neg h1, if_neg h2, if_neg h3] at h
    rcases hc : check_characters false (s.map tolower) with e | u
    · simp [hc, bind, Except.bind] at h
    simp only [hc, bind, Except.bind, pure, Except.pure, Except.ok.injEq] at h
    refine ⟨⟨?_, ?_, ?_⟩, h.symm⟩
    · exact List.length_pos_iff.mpr h0
    · unfold MAX_INSTANCE_ID_LENGTH at h1
      omega
    · rcases runs_of_check _ false hc (by rwa [ne_eq, hlast]) with h4 | h4 | ⟨t, h4, -, -⟩
      · exact absurd (List.map_eq_nil_iff.mp h4) h0
      · exact h4
      · exact absurd (hhead.mp (by rw [h4]; rfl)) h2
  · rintro ⟨⟨hpos, hmax, hruns⟩, rfl⟩
    have hcheck : check_characters false (s.map tolower) = .ok () := by
      obtain ⟨runs, -, hall, hs⟩ := hruns
      rw [hs]
      exact check_runs runs false hall
    rw [if_neg (List.length_pos_iff.mp hpos), if_neg (by unfold MAX_INSTANCE_ID_LENGTH; omega),
      if_neg fun h => hruns.head_ne (hhead.mpr h), if_neg fun h => hruns.last_ne (hlast.mpr h),
      hcheck]
    rfl

theorem run_of_test {run : Text} (h : run ≠ [] ∧ run.all letter_or_digit = true) :
    run ≠ [] ∧ ∀ c ∈ run, letter_or_digit c :=
  ⟨h.1, List.all_eq_true.mp h.2⟩

theorem grammar_localhost : Grammar localhost := by
  refine ⟨by decide, by decide, [localhost], by simp, ?_, by simp⟩
  simp only [List.mem_singleton, forall_eq]
  exact run_of_test (by decide)

/-- For an empty id the call never throws. -/
theorem instance_id_empty (host : Option Hostname) :
    ∃ id, instance_id host [] = .ok id ∧ HostId host id ∧ Grammar id := by
  unfold instance_id HostId
  rw [if_pos rfl]
  rcases host with _ | hostname
  · exact ⟨localhost, rfl, Or.inr ⟨by simp, rfl⟩, grammar_localhost⟩
  rcases hc : tolower_and_check hostname.name with e | id
  · refine ⟨localhost, by simp [hc], Or.inr ⟨?_, rfl⟩, grammar_localhost⟩
    intro h hh hg
    obtain rfl := Option.some.inj hh
    rw [(tolower_and_check_iff _ _).mpr ⟨hg, rfl⟩] at hc
    simp at hc
  · obtain ⟨hg, rfl⟩ := (tolower_and_check_iff _ _).mp hc
    exact ⟨_, by simp [hc], Or.inl ⟨hostname, rfl, hg, rfl⟩, hg⟩

theorem instance_id_given {id : Text} (hid : id ≠ []) (host : Option Hostname) (r : Text) :
    instance_id host id = .ok r ↔ Grammar (id.map tolower) ∧ r = id.map tolower := by
  unfold instance_id
  rw [if_neg hid, tolower_and_check_iff]

section

variable {system}

theorem setup_ok_iff {conf : σ} {s : Text} (hs : system.get "instance_id" conf = some s)
    (host : Option Hostname) (r : σ) :
    setup system host conf = .ok r ↔
      ∃ id, instance_id host s = .ok id ∧ r = system.set "instance_id" id conf := by
  simp only [setup, hs]
  rcases instance_id host s with e | id
  · simp [bind, Except.bind]
  · simp [bind, Except.bind, pure, Except.pure, eq_comm]

/-- The stored id is one that the check leaves as it is. -/
def Settled (system : Section σ) (conf : σ) : Prop :=
  ∃ id, system.get "instance_id" conf = some id ∧ Grammar id

theorem setup_settles {conf r : σ} {host : Option Hostname} (h : setup system host conf = .ok r) :
    Settled system r := by
  rcases hs : system.get "instance_id" conf with _ | s
  · simp [setup, hs] at h
  obtain ⟨id, hid, rfl⟩ := (setup_ok_iff hs host r).mp h
  refine ⟨id, by rw [system.get_set, if_pos rfl], ?_⟩
  by_cases h0 : s = []
  · subst h0
    obtain ⟨id', hid', -, hg⟩ := instance_id_empty host
    obtain rfl : id = id' := by simpa [hid] using hid'
    exact hg
  · obtain ⟨hg, rfl⟩ := (instance_id_given h0 host id).mp hid
    exact hg

/-- One more setup of a settled configuration changes no entry. -/
theorem Settled.setup {conf : σ} (h : Settled system conf) (host : Option Hostname) :
    ∃ r, setup system host conf = .ok r ∧ ∀ name, system.get name r = system.get name conf := by
  obtain ⟨id, hid, hg⟩ := h
  have h0 : id ≠ [] := List.length_pos_iff.mp hg.1
  have hlow : id.map tolower = id := map_tolower_of_runs hg.2.2
  have hok : instance_id host id = .ok id := by
    rw [instance_id_given h0, hlow]
    exact ⟨hg, rfl⟩
  refine ⟨_, (setup_ok_iff hid host _).mpr ⟨id, hok, rfl⟩, ?_⟩
  intro name
  rw [system.get_set]
  split
  · rename_i hname
    rw [hname, hid]
  · rfl

theorem Settled.get_configurations {conf : σ} (h : Settled system conf)
    (hosts : List (Option Hostname)) :
    ∃ r, get_configurations system hosts conf = .ok r ∧
      ∀ name, system.get name r = system.get name conf := by
  induction hosts generalizing conf with
  | nil => exact ⟨conf, rfl, fun _ => rfl⟩
  | cons host hosts ih =>
    obtain ⟨conf', hok, hsame⟩ := h.setup host
    obtain ⟨r, hr, hsame'⟩ := ih (setup_settles hok)
    refine ⟨r, ?_, fun name => (hsame' name).trans (hsame name)⟩
    unfold configuration.get_configurations at hr ⊢
    rw [List.foldlM_cons, hok]
    exact hr

end

/-- A given id is accepted exactly when it is of the grammar in lower case, an empty one gives
the name of the host or "localhost", and what is stored is stored for good. -/
theorem setup_stores_an_id_of_the_grammar (conf : σ) (s : Text)
    (hs : system.get "instance_id" conf = some s) (host : Option Hostname) :
    (s ≠ [] → ∀ r, setup system host conf = .ok r ↔
      Grammar (s.map tolower) ∧ r = system.set "instance_id" (s.map tolower) conf) ∧
    (s = [] → ∃ id, HostId host id ∧ Grammar id ∧
      setup system host conf = .ok (system.set "instance_id" id conf)) ∧
    (∀ r, setup system host conf = .ok r → ∀ hosts, ∃ r',
      get_configurations system hosts r = .ok r' ∧
        ∀ name, system.get name r' = system.get name r) := by
  refine ⟨?_, ?_, ?_⟩
  · intro h0 r
    rw [setup_ok_iff hs host r]
    simp only [instance_id_given h0]
    constructor
    · rintro ⟨id, ⟨hg, rfl⟩, rfl⟩
      exact ⟨hg, rfl⟩
    · rintro ⟨hg, rfl⟩
      exact ⟨_, ⟨hg, rfl⟩, rfl⟩
  · intro h0
    obtain ⟨id, hok, hid, hg⟩ := instance_id_empty host
    exact ⟨id, hid, hg, (setup_ok_iff hs host _).mpr ⟨id, by rw [h0, hok], rfl⟩⟩
  · intro r hr hosts
    exact (setup_settles hr).get_configurations hosts

/-- The entries of a section as a function. -/
def entries : Section (String → Option Text) where
  get name conf := conf name
  set key value conf := fun name => if name = key then some value else conf name
  get_set _ _ _ _ := rfl

theorem an_upper_case_id_is_stored_in_lower_case :
    setup entries none (fun _ => some (ascii "Test-1")) =
      .ok (entries.set "instance_id" (ascii "test-1") fun _ => some (ascii "Test-1")) := by
  have h := setup_stores_an_id_of_the_grammar entries (fun _ => some (ascii "Test-1"))
    (ascii "Test-1") rfl none
  refine (h.1 (by decide) _).mpr ⟨⟨by decide, by decide, ?_⟩, rfl⟩
  refine ⟨[ascii "test", ascii "1"], by decide, ?_, by decide⟩
  simp only [List.forall_mem_cons]
  exact ⟨run_of_test (by decide), run_of_test (by decide), by simp⟩

end tateyama_bootstrap.configuration
