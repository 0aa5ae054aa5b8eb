-- The server that `backup create` and `restore` start for themselves (tgctl/tgctl.cpp).
-- `backup create` always stops it. `restore` leaves it behind when it returns before the
-- shutdown for want of an operand, or when an exception of the datastore passes it by.
import TateyamaBootstrap.StartPolling
import TateyamaBootstrap.BackupExit

namespace tateyama_bootstrap.tgctl

open monitor_output process datastore Command
open server_calls hiding Server

/-- What a subcommand does to a server. -/
inductive ServerEvent
  | started (rtnv : ReturnCode)
  | stopping (force : Bool)
deriving DecidableEq, Repr

def Event.server? : Event → Option ServerEvent
  | .started rtnv => some (.started rtnv)
  | .stopping force => some (.stopping force)
  | _ => none

def ServerEvent.IsStop (e : ServerEvent) : Prop := ∃ force, e = .stopping force

/-- A server that the command has started is stopped by it, no other server is, and none is
stopped that was running before. -/
structure Bracketed (running : Prop) (events : List ServerEvent) : Prop where
  stopped : ∀ before after, events = before ++ .started .ok :: after → ∃ e ∈ after, e.IsStop
  own : Follows (· = .started .ok) ServerEvent.IsStop events
  spared : running → ∀ e ∈ events, ¬ e.IsStop

/-- The server events of a command, and how it ends. -/
abbrev Serves {α : Type} (x : Cmd α) (events : List ServerEvent) (r : Except Error α) : Prop :=
  Command.Ends Event.server? x events r

section

variable {running : Prop}

theorem not_isStop_started (rtnv : ReturnCode) : ¬ (ServerEvent.started rtnv).IsStop := nofun

theorem bracketed_nil : Bracketed running [] where
  stopped := by simp
  own := follows_of_none (by simp)
  spared := by simp

theorem bracketed_refused : Bracketed running [.started .err] where
  stopped := by
    intro before after h
    cases before with
    | nil => cases h
    | cons e before =>
      have := congrArg List.length h
      simp at this
  own := follows_of_none (by simpa using not_isStop_started .err)
  spared := by simpa using fun _ => not_isStop_started .err

/-- The stops come after the start. -/
theorem bracketed_of_stops {stops : List ServerEvent} (hne : stops ≠ [])
    (hstops : ∀ e ∈ stops, e.IsStop) (hrun : ¬ running) :
    Bracketed running (.started .ok :: stops) where
  stopped := by
    intro before after h
    cases before with
    | nil =>
      cases h
      obtain ⟨e, he⟩ := List.exists_mem_of_ne_nil stops hne
      exact ⟨e, he, hstops e he⟩
    | cons e before =>
      obtain ⟨-, rfl⟩ := List.cons.inj h
      exact absurd (hstops (.started .ok) (by simp)) (not_isStop_started .ok)
  own := (follows_cons _).mpr ⟨not_isStop_started .ok, .inl rfl⟩
  spared := fun h => absurd h hrun

theorem not_bracketed : ¬ Bracketed running [.started .ok] := by
  intro h
  obtain ⟨e, he, -⟩ := h.stopped [] [] rfl
  cases he

end

/-! ## The parts -/

theorem blank_process {α : Type} (x : process.Cmd α) : Blank Event.server? (run_process x) :=
  Blank.embed fun _ => rfl

theorem blank_datastore {α : Type} (x : datastore.Cmd α) :
    Blank Event.server? (run_datastore x) :=
  Blank.embed fun _ => rfl

theorem serves_start {flags : process.Flags} {env : StartEnv} {rtnv : ReturnCode}
    (h : (tgctl_start flags true .maintenance_server env).result = .ok rtnv) :
    Serves (start_server flags env) [.started rtnv] (.ok rtnv) := by
  have hwrite : Serves (.write (.started rtnv)) [.started rtnv] (.ok ()) := Ends.write rfl
  exact Ends.after ⟨blank_process _, h⟩ (hwrite.before Ends.pure)

theorem serves_start_error {flags : process.Flags} {env : StartEnv} {e : Error}
    (h : (tgctl_start flags true .maintenance_server env).result = .error e) :
    Serves (start_server flags env) [] (.error e) :=
  Ends.stop ⟨blank_process _, h⟩

theorem serves_call_shutdown_kill (flags : process.Flags) (force status_output : Bool)
    (env : ShutdownKillEnv) :
    ∃ rtnv, Serves (call_shutdown_kill flags force status_output env) [.stopping force]
      (.ok rtnv) := by
  obtain ⟨rtnv, hr⟩ := returns_of_raises
    (raises_tgctl_shutdown_kill (p := fun _ => False) flags force status_output env)
  have hwrite : Serves (.write (.stopping force)) [.stopping force] (.ok ()) := Ends.write rfl
  exact ⟨rtnv, hwrite.before ⟨blank_process _, hr⟩⟩

theorem serves_stop_server (flags : Flags) (env : Env) :
    ∃ stops, stops ≠ [] ∧ (∀ e ∈ stops, ServerEvent.IsStop e) ∧
      Serves (stop_server flags env) stops (.ok ()) := by
  obtain ⟨rtnv, h⟩ := serves_call_shutdown_kill flags.hushed false true env.shutdown
  cases rtnv with
  | ok =>
    refine ⟨[.stopping false], by simp, ?_, h.before Ends.pure⟩
    simpa using ⟨false, rfl⟩
  | err =>
    obtain ⟨rtnv, hkill⟩ := serves_call_shutdown_kill flags.hushed true true env.kill
    refine ⟨[.stopping false, .stopping true], by simp, ?_, h.bind (hkill.before Ends.pure)⟩
    intro e he
    rcases List.mem_cons.mp he with rfl | he
    · exact ⟨false, rfl⟩
    · obtain rfl := List.mem_singleton.mp he
      exact ⟨true, rfl⟩

/-! ## backup create -/

theorem returns_framed {x : datastore.Cmd Flow} (m : Bool) :
    Returns (framed m x) ↔ Returns x := by
  have htell : ∀ r, (tell m r : datastore.Cmd Unit).result = .ok () := by
    intro r
    cases m <;> rfl
  have hclose : ∀ flow : Flow, Returns (flow.close m : datastore.Cmd ReturnCode) := by
    intro flow
    cases flow with
    | returns rtnv => exact Returns.pure
    | goes_on rtnv reason => exact returns_bind.mpr ⟨(), htell _, Returns.pure⟩
  unfold framed
  rw [returns_bind]
  constructor
  · rintro ⟨-, -, h⟩
    obtain ⟨flow, hflow, -⟩ := returns_bind.mp h
    exact ⟨flow, hflow⟩
  · rintro ⟨flow, hflow⟩
    exact ⟨(), htell _, returns_bind.mpr ⟨flow, hflow, hclose flow⟩⟩

/-- The two handlers of `tgctl_backup_create` take every exception. -/
theorem returns_backup_create (flags : datastore.Flags) (env : datastore.Env) :
    Returns (tgctl_backup_create flags env) := by
  unfold tgctl_backup_create
  dsimp only
  rw [returns_framed, returns_handle]
  intro e _
  cases e <;> exact Returns.pure

theorem serves_directory_check (flags : Flags) (env : Env) : ∃ rtnv,
    Serves (run_datastore (tgctl_backup_directory_check flags.datastore env.datastore)) []
      (.ok rtnv) := by
  obtain ⟨rtnv, h, -⟩ := directory_check_ends flags env
  exact ⟨rtnv, blank_datastore _, h.result⟩

theorem serves_is_running (bst_conf : BootstrapConfiguration) (env : StatusEnv) :
    ∃ running, Serves (run_process (is_running bst_conf env)) [] (.ok running) ∧
      (running = true ↔ Sees bst_conf env .activated) := by
  obtain ⟨running, h, hiff⟩ := is_running_ends bst_conf env
  exact ⟨running, ⟨blank_process _, h.result⟩, hiff⟩

/-- A server was running: the subcommand sees it itself, or `tgctl_start` does. -/
def SeenRunning (args : List String) (env : Env) : Prop :=
  args.getD 1 "" = "backup" ∧ Sees env.running_conf env.running_status .activated ∨
  Running env.start

/-- `tgctl_start` starts nothing beside a server that runs. -/
theorem not_running_of_started {flags : process.Flags} {env : StartEnv}
    (h : (tgctl_start flags true .maintenance_server env).result = .ok .ok) : ¬ Running env := by
  intro hrun
  refine tgctl_start_fails ?_ h
  rintro ⟨-, -, -, hnot, -⟩
  exact hnot hrun

theorem serves_create_on_running (flags : Flags) (env : Env) :
    ∃ r, Serves (create_on_running flags env) [] r := by
  refine ⟨_, ?_, rfl⟩
  exact Blank.bind (blank_datastore _) fun _ => Quiet.pure.blank

theorem serves_create_on_started (flags : Flags) (env : Env) :
    ∃ stops r, stops ≠ [] ∧ (∀ e ∈ stops, ServerEvent.IsStop e) ∧
      Serves (create_on_started flags env) stops r := by
  obtain ⟨rv, hrv⟩ := returns_backup_create flags.datastore env.datastore
  obtain ⟨stops, hne, hstops, h⟩ := serves_stop_server flags env
  exact ⟨stops, _, hne, hstops, Ends.after ⟨blank_datastore _, hrv⟩ (h.before Ends.pure)⟩

/-- A subcommand that does so. -/
def Maintains (running : Prop) (x : Cmd Int) : Prop :=
  Bracketed running (x.log.filterMap Event.server?)

theorem maintains_of_serves {running : Prop} {x : Cmd Int} {events : List ServerEvent}
    {r : Except Error Int} (h : Serves x events r) :
    Maintains running x ↔ Bracketed running events := by
  unfold Maintains
  rw [h.log]

/-- After a part that does nothing to a server. -/
theorem maintains_after {α : Type} {running : Prop} {y : Cmd α} {f : α → Cmd Int} {a : α}
    (h : Serves y [] (.ok a)) : Maintains running (y >>= f) ↔ Maintains running (f a) := by
  have hsame : Same Event.server? (y >>= f) (f a) := Ends.same h
  unfold Maintains
  rw [hsame.log]

theorem backup_create_maintains {flags : Flags} {args : List String} {env : Env} :
    Maintains (SeenRunning args env) (backup_create flags env) := by
  unfold backup_create
  obtain ⟨rtnv, hdir⟩ := serves_directory_check flags env
  rw [maintains_after hdir]
  cases rtnv with
  | err => exact (maintains_of_serves Ends.pure).mpr bracketed_nil
  | ok =>
    obtain ⟨running, hrun, hruns⟩ := serves_is_running env.running_conf env.running_status
    obtain ⟨r, hcreate⟩ := serves_create_on_running flags env
    dsimp only
    rw [maintains_after hrun]
    cases running with
    | true => exact (maintains_of_serves hcreate).mpr bracketed_nil
    | false =>
      rw [if_neg Bool.false_ne_true]
      cases hs : (tgctl_start flags.hushed true .maintenance_server env.start).result with
      | error e => exact (maintains_of_serves (serves_start_error hs).stop).mpr bracketed_nil
      | ok rtnv =>
        cases rtnv with
        | ok =>
          obtain ⟨stops, r, hne, hstops, hstop⟩ := serves_create_on_started flags env
          refine (maintains_of_serves ((serves_start hs).bind hstop)).mpr
            (bracketed_of_stops hne hstops ?_)
          rintro (⟨-, hseen⟩ | hseen)
          · exact Bool.false_ne_true (hruns.mpr hseen)
          · exact not_running_of_started hs hseen
        | err =>
          obtain ⟨again, hrun', -⟩ :=
            serves_is_running env.running_again_conf env.running_again_status
          have hrest : ∃ r, Serves (do
              let running ← run_process
                (is_running env.running_again_conf env.running_again_status)
              if running then create_on_running flags env else return code .err) [] r := by
            cases again with
            | true => exact ⟨r, hrun'.after hcreate⟩
            | false => exact ⟨_, hrun'.after Ends.pure⟩
          obtain ⟨r', hrest⟩ := hrest
          exact (maintains_of_serves ((serves_start hs).bind hrest)).mpr bracketed_refused

/-! ## restore -/

section

variable {T : Type} [Response T]

/-- What the `try` block of a command throws is what its outcome throws. -/
theorem request_try_error_iff (m : Bool) (env : datastore.Env) (server : Server T)
    (request : Except Error Request) (e : Error) :
    (request_try m env server request).result = .error e ↔
      outcome env.connect server request = .error e := by
  have hjudge : ∀ response : Option T, Returns (judge m response) := by
    intro response
    rcases response with _ | response
    · exact Returns.pure
    · unfold judge
      dsimp only
      split
      · exact returns_bind.mpr ⟨(), by cases m <;> rfl, Returns.pure⟩
      · exact Returns.pure
  unfold request_try
  have hask := (ends_ask_records (W := datastore.Event) env.connect server request).result
  cases ho : outcome env.connect server request with
  | error e' =>
    rw [ho] at hask
    have hstop : Command.Ends Monitored.record?
        (ask env.connect server request >>= judge m) _ (.error e') := Ends.stop ⟨rfl, hask⟩
    rw [hstop.result]
    simp
  | ok response =>
    rw [ho] at hask
    obtain ⟨flow, hflow⟩ := returns_bind.mpr ⟨response, hask, hjudge response⟩
    rw [hflow]
    simp

theorem returns_request_catch_iff (env : datastore.Env) (e : Error) :
    Returns (request_catch env e) ↔
      Taken env.database_name (.error e : Except Error Unit) := by
  rcases catch_cases (W := datastore.Event) env.database_name e with
    ⟨htaken, code, what, -, hc⟩ | ⟨hnot, e', hc⟩
  · exact iff_of_true ⟨_, (hc Monitored.record?).result⟩ htaken
  · refine iff_of_false ?_ hnot
    rintro ⟨flow, hflow⟩
    cases (hc Monitored.record?).result.symm.trans hflow

theorem request_returns_iff (m : Bool) (env : datastore.Env) (server : Server T)
    (request : Except Error Request) :
    Returns (framed m ((request_try m env server request).handle (request_catch env))) ↔
      Taken env.database_name (outcome env.connect server request) := by
  rw [returns_framed, returns_handle]
  constructor
  · intro h e he
    have hcatch := h e ((request_try_error_iff m env server request e).mpr he)
    exact (returns_request_catch_iff env e).mp hcatch e rfl
  · intro h e he
    have ho := (request_try_error_iff m env server request e).mp he
    rw [ho] at h
    exact (returns_request_catch_iff env e).mpr (taken_error.mp h)

end

theorem confirmed_returns_iff {flags : datastore.Flags} {env : datastore.Env}
    {x : datastore.Cmd ReturnCode} {p : Prop} (h : Returns x ↔ p) :
    Returns (if !confirmed flags env then return .err else x) ↔ (confirmed flags env → p) := by
  cases confirmed flags env with
  | true => simpa using h
  | false => exact iff_of_true Returns.pure nofun

theorem file_list_returns_iff (flags : datastore.Flags) (env : datastore.Env) (path : String)
    (m : Bool) :
    Returns (framed m ((file_list_try flags m env path).handle (request_catch env))) ↔
      ∀ pt, env.file_list = some pt →
        Taken env.database_name
          (outcome env.connect env.restore_begin (file_list_request flags env path pt)) := by
  unfold file_list_try
  cases env.file_list with
  | none =>
    refine iff_of_true ?_ nofun
    rw [returns_framed, returns_handle]
    intro e he
    cases m with
    | true => cases he
    | false => cases he
  | some pt =>
    dsimp only
    rw [request_returns_iff]
    simp

theorem restore_backup_returns_iff (flags : datastore.Flags) (env : datastore.Env)
    (path : String) :
    Returns (tgctl_restore_backup flags env path) ↔ (confirmed flags env →
      Taken env.database_name (outcome env.connect env.restore_begin
        (.ok (.restore_begin (.backup_directory path)
          (flags.keep_backup && flags._keep_backup) flags.label)))) :=
  confirmed_returns_iff (request_returns_iff _ _ _ _)

theorem restore_file_list_returns_iff (flags : datastore.Flags) (env : datastore.Env)
    (path : String) :
    Returns (tgctl_restore_backup_use_file_list flags env path) ↔ (confirmed flags env →
      ∀ pt, env.file_list = some pt →
        Taken env.database_name
          (outcome env.connect env.restore_begin (file_list_request flags env path pt))) :=
  confirmed_returns_iff (file_list_returns_iff _ _ _ _)

theorem restore_tag_returns_iff (flags : datastore.Flags) (env : datastore.Env)
    (tag_name : String) :
    Returns (tgctl_restore_tag flags env tag_name) ↔
      Taken env.database_name (outcome env.connect env.restore_begin
        (.ok (.restore_begin (.tag_name tag_name) false ""))) :=
  request_returns_iff _ _ _ _

/-- What the datastore throws does not pass the handlers of the restore commands. -/
def RestoreCaught (flags : Flags) (args : List String) (env : datastore.Env) : Prop :=
  (args.getD 2 "" = "backup" → 3 < args.length → flags.use_file_list = "" →
    confirmed flags.datastore env → Taken env.database_name (outcome env.connect env.restore_begin
      (.ok (.restore_begin (.backup_directory (args.getD 3 ""))
        (flags.keep_backup && flags._keep_backup) flags.label)))) ∧
  (args.getD 2 "" = "backup" → 3 < args.length → flags.use_file_list ≠ "" →
    confirmed flags.datastore env → ∀ pt, env.file_list = some pt →
      Taken env.database_name (outcome env.connect env.restore_begin
        (file_list_request flags.datastore env (args.getD 3 "") pt))) ∧
  (args.getD 2 "" = "tag" → 3 < args.length →
    Taken env.database_name (outcome env.connect env.restore_begin
      (.ok (.restore_begin (.tag_name (args.getD 3 "")) false ""))))

theorem returns_run_datastore {f : datastore.Cmd ReturnCode} {p : Prop} (h : Returns f ↔ p) :
    Returns (do let rv ← run_datastore f; return code rv : Cmd Int) ↔ p := by
  rw [returns_bind, ← h]
  constructor
  · rintro ⟨rv, hrv, -⟩
    exact ⟨rv, hrv⟩
  · rintro ⟨rv, hrv⟩
    exact ⟨rv, hrv, Returns.pure⟩

theorem restore_on_started_returns_iff (flags : Flags) (args : List String) (env : Env) :
    Returns (restore_on_started flags args env) ↔ RestoreCaught flags args env.datastore := by
  unfold restore_on_started RestoreCaught
  generalize args.getD 2 "" = sub
  generalize args.getD 3 "" = operand
  by_cases hlen : 3 < args.length
  · by_cases hbackup : sub = "backup"
    · subst hbackup
      rw [if_pos rfl, if_pos hlen]
      by_cases hlist : flags.use_file_list = ""
      · rw [if_neg (by simp [hlist]), returns_run_datastore (restore_backup_returns_iff _ _ _)]
        simp [hlen, hlist, Flags.datastore]
      · rw [if_pos (by simpa using hlist),
          returns_run_datastore (restore_file_list_returns_iff _ _ _)]
        simp [hlen, hlist]
    · rw [if_neg hbackup]
      by_cases htag : sub = "tag"
      · subst htag
        rw [if_pos rfl, if_pos hlen, returns_run_datastore (restore_tag_returns_iff _ _ _)]
        simp [hlen]
      · rw [if_neg htag]
        exact iff_of_true Returns.pure (by simp [hbackup, htag])
  · refine iff_of_true ?_ (by simp [hlen])
    split
    · exact Returns.pure
    · split
      · exact Returns.pure
      · exact Returns.pure

theorem blank_restore_on_started (flags : Flags) (args : List String) (env : Env) :
    Blank Event.server? (restore_on_started flags args env) := by
  have hrun : ∀ f : datastore.Cmd ReturnCode,
      Blank Event.server? (do let rv ← run_datastore f; return code rv : Cmd Int) :=
    fun f => Blank.bind (blank_datastore f) fun _ => Quiet.pure.blank
  unfold restore_on_started
  split
  · split
    · split
      · exact hrun _
      · exact hrun _
    · exact Quiet.pure.blank
  · split
    · split
      · exact hrun _
      · exact Quiet.pure.blank
    · exact Quiet.pure.blank

theorem restore_maintains_iff {flags : Flags} {args : List String} {env : Env}
    (hrestore : args.getD 1 "" = "restore") :
    Maintains (SeenRunning args env) (restore flags args env) ↔
      (RestoreStarted flags env →
        3 ≤ args.length ∧ RestoreCaught flags args env.datastore) := by
  unfold restore RestoreStarted
  dsimp only
  cases hs : (tgctl_start { flags.toFlags with timeout := 0, quiet := true } true
      .maintenance_server env.start).result with
  | error e =>
    exact iff_of_true ((maintains_of_serves (serves_start_error hs).stop).mpr bracketed_nil) nofun
  | ok rtnv =>
    cases rtnv with
    | err =>
      refine iff_of_true ((maintains_of_serves ((serves_start hs).bind Ends.pure)).mpr ?_) nofun
      exact bracketed_refused
    | ok =>
      have hrun : ¬ SeenRunning args env := by
        rintro (⟨hbackup, -⟩ | hseen)
        · rw [hrestore] at hbackup
          exact absurd hbackup (by decide)
        · exact not_running_of_started hs hseen
      -- what the rest of the command does comes after the start
      have hrest : ∀ {f : ReturnCode → Cmd Int} {events} (r), Serves (f .ok) events r →
          (Maintains (SeenRunning args env)
            (start_server { flags.toFlags with timeout := 0, quiet := true } env.start >>= f) ↔
              Bracketed (SeenRunning args env) (.started .ok :: events)) :=
        fun r h => maintains_of_serves ((serves_start hs).bind h)
      by_cases hlen : args.length < 3
      · refine (hrest (.ok (code .err)) ?_).trans
          (iff_of_false not_bracketed fun h => absurd (h rfl).1 (by omega))
        dsimp only
        rw [if_pos hlen]
        exact Ends.pure
      · have hcaught : Returns (restore_on_started { flags with timeout := 0, quiet := true } args
            env) ↔ RestoreCaught flags args env.datastore :=
          restore_on_started_returns_iff _ args env
        have hblank := blank_restore_on_started { flags with timeout := 0, quiet := true } args env
        cases hr : (restore_on_started { flags with timeout := 0, quiet := true } args env).result
        with
        | error e =>
          refine (hrest (.error e) ?_).trans (iff_of_false not_bracketed fun h => ?_)
          · dsimp only
            rw [if_neg hlen]
            exact Ends.stop ⟨hblank, hr⟩
          · obtain ⟨rv, hrv⟩ := hcaught.mpr (h rfl).2
            rw [hr] at hrv
            cases hrv
        | ok rv =>
          obtain ⟨rtnv, hstop⟩ := serves_call_shutdown_kill
            { flags.toFlags with timeout := 0, quiet := true } false false env.shutdown
          have hbracket : Bracketed (SeenRunning args env)
              [.started .ok, .stopping false] :=
            bracketed_of_stops (by simp) (by simpa using ⟨false, rfl⟩) hrun
          refine (hrest (.ok rv) ?_).trans
            (iff_of_true hbracket fun _ => ⟨by omega, hcaught.mp ⟨rv, hr⟩⟩)
          dsimp only
          rw [if_neg hlen]
          exact Ends.after ⟨hblank, hr⟩ (hstop.before Ends.pure)

/-! ## The subcommands -/

/-- A maintenance server that `backup create` or `restore` has started is stopped by it, and
a server that was running is not, exactly when `restore` has its subcommand and nothing
that the datastore throws passes its handlers. -/
theorem the_maintenance_server_is_stopped (others : Flags → List String → Cmd Int)
    (flags : Flags) (args : List String) (env : Env)
    (hargs : args.getD 1 "" = "backup" ∧ args.getD 2 "" = "create" ∨
      args.getD 1 "" = "restore") :
    Maintains (SeenRunning args env) (tgctl_main others flags args env) ↔
      (args.getD 1 "" = "restore" → RestoreStarted flags env →
        3 ≤ args.length ∧ RestoreCaught flags args env.datastore) := by
  unfold tgctl_main
  dsimp only
  rcases hargs with ⟨hbackup, hcreate⟩ | hrestore
  · have hlen := lt_length_of_getD hbackup (by decide)
    have hne : ¬ args.getD 1 "" = "restore" := by
      rw [hbackup]
      decide
    rw [if_neg (by omega), if_pos hbackup]
    refine iff_of_true ?_ (fun h => absurd h hne)
    unfold backup
    split
    · exact (maintains_of_serves Ends.pure).mpr bracketed_nil
    · split
      · exact (maintains_of_serves Ends.pure).mpr bracketed_nil
      · exact backup_create_maintains
  · have hlen := lt_length_of_getD hrestore (by decide)
    have hne : ¬ args.getD 1 "" = "backup" := by
      rw [hrestore]
      decide
    rw [if_neg (by omega), if_neg hne, if_pos hrestore, restore_maintains_iff hrestore]
    exact ⟨fun h _ => h, fun h => h hrestore⟩

theorem the_maintenance_server_is_stopped_after_a_restore :
    Maintains (SeenRunning ["tgctl", "restore", "tag", "t"] maintained)
      (tgctl_main (fun _ _ => return 1) recorded ["tgctl", "restore", "tag", "t"] maintained) := by
  refine (the_maintenance_server_is_stopped _ _ _ _ (.inr rfl)).mpr fun _ _ => ⟨by decide, ?_⟩
  refine ⟨fun h => absurd h (by decide), fun h => absurd h (by decide), fun _ _ e he => ?_⟩
  have hok : outcome (granting none).connect (granting none).restore_begin
      (.ok (.restore_begin (.tag_name "t") false "")) = .ok (some (.success 0)) := rfl
  exact absurd (he.symm.trans hok) (by simp)

/-- A file list that is valid JSON and has no `entries` node. -/
def unlisted : Env := { maintained with datastore := granting (some (.node "" [])) }

/-- `restore` alone returns with the server left behind, and the exception for a file list
without entries passes the shutdown by. -/
theorem a_restore_leaves_the_server_behind :
    ¬ Maintains (SeenRunning ["tgctl", "restore"] maintained)
      (tgctl_main (fun _ _ => return 1) recorded ["tgctl", "restore"] maintained) ∧
    ¬ Maintains (SeenRunning ["tgctl", "restore", "backup", "d"] unlisted)
      (tgctl_main (fun _ _ => return 1) recorded ["tgctl", "restore", "backup", "d"] unlisted) := by
  have hstarted : RestoreStarted recorded maintained := by
    unfold RestoreStarted
    decide +kernel
  constructor
  · intro h
    have hrestore : Maintains (SeenRunning ["tgctl", "restore"] maintained)
        (restore { recorded with quiet := true } ["tgctl", "restore"] maintained) := h
    exact absurd ((restore_maintains_iff rfl).mp hrestore hstarted).1 (by decide)
  · intro h
    have hrestore : Maintains (SeenRunning ["tgctl", "restore", "backup", "d"] unlisted)
        (restore { recorded with quiet := true } ["tgctl", "restore", "backup", "d"] unlisted) := h
    have hcaught := ((restore_maintains_iff rfl).mp hrestore hstarted).2
    obtain ⟨⟨code, what, he⟩, -⟩ :=
      hcaught.2.1 rfl (by decide) (by decide) rfl _ rfl _ rfl
    cases he

end tateyama_bootstrap.tgctl
