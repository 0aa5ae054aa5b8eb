-- The exit code of the backup and restore subcommands is 0 exactly when the server has
-- acknowledged the operation, unless an operand of `restore` is missing or a refusal of
-- the server reads as a success.
import TateyamaBootstrap.TgctlMain
import TateyamaBootstrap.ProcessReports
import TateyamaBootstrap.BackupBracket

namespace tateyama_bootstrap.tgctl

open monitor_output process datastore Command
open server_calls hiding Server

/-- The requests that the server has acknowledged. -/
def acknowledged? : datastore.Event → Option Request
  | .acknowledged request => some request
  | _ => none

def Event.acknowledged? : Event → Option Request
  | .datastore e => tgctl.acknowledged? e
  | _ => none

inductive Operation
  | create
  | estimate
  | restore
deriving DecidableEq, Repr

/-- What the server has to acknowledge. -/
def Operation.acknowledged : Operation → List Request → Prop
  | .create, requests =>
    (∃ label, .backup_begin label ∈ requests) ∧ ∃ id, .backup_end id ∈ requests
  | .estimate, requests => .backup_estimate ∈ requests
  | .restore, requests => ∃ source keep_backup label,
    .restore_begin source keep_backup label ∈ requests

/-- The operation that the command line asks for. -/
def requested (args : List String) : Option Operation :=
  if args.getD 1 "" = "backup" then
    if args.getD 2 "" = "create" then some .create
    else if args.getD 2 "" = "estimate" then some .estimate
    else none
  else if args.getD 1 "" = "restore" then
    if args.getD 2 "" = "backup" ∨ args.getD 2 "" = "tag" then some .restore else none
  else none

/-- The exit code is 0 exactly when the server has acknowledged the operation. -/
def ExitTruthful (args : List String) (x : Cmd Int) : Prop :=
  exit_code x = 0 ↔ ∃ op, requested args = some op ∧
    op.acknowledged (x.log.filterMap Event.acknowledged?)

/-! ## The commands of the datastore -/

/-- What a command writes that the server has acknowledged, and how it ends. -/
abbrev Acks {α : Type} (x : datastore.Cmd α) (requests : List Request) (r : Except Error α) :
    Prop :=
  Command.Ends tgctl.acknowledged? x requests r

/-- The command returns `ok` exactly when the operation is acknowledged, if the server is
honest. -/
def Answers (x : datastore.Cmd ReturnCode) (op : Operation) (honest : Prop) : Prop :=
  (x.result = .ok .ok ↔ op.acknowledged (x.log.filterMap tgctl.acknowledged?)) ↔ honest

theorem answers_of_acks {x : datastore.Cmd ReturnCode} {op : Operation} {honest : Prop}
    {requests : List Request} {r : Except Error ReturnCode} (h : Acks x requests r)
    (hr : (r = .ok .ok ↔ op.acknowledged requests) ↔ honest) : Answers x op honest := by
  unfold Answers
  rw [h.log, h.result]
  exact hr

theorem not_acknowledged_nil (op : Operation) : ¬ op.acknowledged [] := by
  cases op <;> simp [Operation.acknowledged]

/-- A command that fails before the server acknowledges anything. -/
theorem answers_of_failure {x : datastore.Cmd ReturnCode} {op : Operation} {honest : Prop}
    {r : Except Error ReturnCode} (h : Acks x [] r) (hr : r ≠ .ok .ok) (hh : honest) :
    Answers x op honest :=
  answers_of_acks h (iff_of_true (iff_of_false hr (not_acknowledged_nil op)) hh)

theorem acks_tell (m : Bool) (r : monitor_output.Record) : Acks (tell m r) [] (.ok ()) :=
  ends_unrecorded (fun _ => rfl) m r

theorem acks_framed (m : Bool) {x : datastore.Cmd Flow} {requests : List Request}
    {r : Except Error Flow} (h : Acks x requests r) :
    Acks (framed m x) requests (r.map Flow.rtnv) :=
  framed_unrecorded (fun _ => rfl) m h

/-- The acknowledged requests are a part of the traffic. -/
theorem acks_of_moves {α : Type} {x : datastore.Cmd α} {vs : List datastore.Event}
    {r : Except Error α} (h : Moves x vs r) : Acks x (vs.filterMap tgctl.acknowledged?) r := by
  refine h.coarser ?_
  intro w
  cases w <;> rfl

theorem acks_send {T : Type} [Response T] (server : Server T) (request : Request) :
    Acks (send server request) (if server.acknowledges request then [request] else [])
      (server.response request) := by
  have hentries : (server.entries request).filterMap tgctl.acknowledged? =
      if server.acknowledges request then [request] else [] := by
    unfold server_calls.Server.entries
    cases (server.message request).isSome <;> cases server.acknowledges request <;> rfl
  have h := ends_send tgctl.acknowledged? server request
  rwa [hentries] at h

/-- A response that does not read as a success. -/
theorem not_acknowledges {T : Type} [Response T] {server : Server T} {request : Request}
    (h : ∀ t, server.response request = .ok (some t) → ¬ Response.success t) :
    server.acknowledges request = false := by
  rw [← Bool.not_eq_true]
  intro hack
  obtain ⟨t, ht, hs⟩ := acknowledged_reads_success hack
  exact h t ht hs

theorem acks_refused {T : Type} [Response T] {server : Server T} {request : Request}
    (h : ∀ t, server.response request = .ok (some t) → ¬ Response.success t) :
    Acks (send server request) [] (server.response request) := by
  simpa [not_acknowledges h] using acks_send server request

section

variable {T : Type} [Response T] {env : datastore.Env} {server : Server T}
variable {request : Except Error Request} {op : Operation}

/-- A response that the command takes for a success is a service result. -/
def RequestHonest (env : datastore.Env) (server : Server T) (request : Except Error Request) :
    Prop :=
  ∀ r t, env.connect = .ok () → request = .ok r → server.response r = .ok (some t) →
    Response.success t → server.acknowledges r

theorem acks_judge (m : Bool) (response : Option T) :
    ∃ flow, Acks (judge m response) [] (.ok flow) ∧
      (flow.rtnv = .ok ↔ ∃ t, response = some t ∧ Response.success t) := by
  cases response with
  | none => exact ⟨.goes_on .err .payload_broken, Ends.pure, by simp [Flow.rtnv]⟩
  | some t =>
    unfold judge
    dsimp only
    split
    · rename_i hs
      exact ⟨.returns .ok, (acks_tell m _).after Ends.pure, by simp [Flow.rtnv, hs]⟩
    · rename_i hs
      exact ⟨.goes_on .err .server, Ends.pure, by simp [Flow.rtnv, hs]⟩

/-- The handler gives up. -/
theorem acks_request_catch (env : datastore.Env) (m : Bool) {x : datastore.Cmd Flow} {e : Error}
    (h : Acks x [] (.error e)) :
    ∃ r, Acks (framed m (x.handle (request_catch env))) [] r ∧ r ≠ .ok .ok := by
  have hcatch : ∃ r, Acks (request_catch env e) [] r ∧ r.map Flow.rtnv ≠ .ok .ok := by
    rcases catch_cases (W := datastore.Event) env.database_name e with
      ⟨-, code, what, -, hc⟩ | ⟨-, e', hc⟩
    · exact ⟨.ok (.goes_on .err code), hc _, by simp [Except.map, Flow.rtnv]⟩
    · exact ⟨.error e', hc _, by simp [Except.map]⟩
  obtain ⟨r, hr, hne⟩ := hcatch
  exact ⟨_, acks_framed m (h.handle_error hr), hne⟩

theorem acks_ask (hc : env.connect = .ok ()) (server : Server T) (r : Request) :
    Acks (ask env.connect server (.ok r)) (if server.acknowledges r then [r] else [])
      (server.response r) := by
  rw [hc]
  exact Ends.pure.after (Ends.pure.after (acks_send server r))

theorem acks_request_try (m : Bool) (hc : env.connect = .ok ()) {r : Request} {o : Option T}
    (hr : server.response r = .ok o) :
    ∃ flow, Acks (request_try m env server (.ok r)) (if server.acknowledges r then [r] else [])
      (.ok flow) ∧ (flow.rtnv = .ok ↔ ∃ t, o = some t ∧ Response.success t) := by
  obtain ⟨flow, hflow, hrtnv⟩ := acks_judge m o
  refine ⟨flow, ?_, hrtnv⟩
  have hask := acks_ask hc server r
  rw [hr] at hask
  exact hask.before hflow

/-- The commands with one request. -/
theorem request_answers (m : Bool) (hop : ∀ r, request = .ok r → op.acknowledged [r]) :
    Answers (framed m ((request_try m env server request).handle (request_catch env))) op
      (RequestHonest env server request) := by
  have hfails : ∀ {e}, Acks (request_try m env server request) [] (.error e) →
      RequestHonest env server request →
      Answers (framed m ((request_try m env server request).handle (request_catch env))) op
        (RequestHonest env server request) := by
    intro e h hh
    obtain ⟨r, hr, hne⟩ := acks_request_catch env m h
    exact answers_of_failure hr hne hh
  cases hc : env.connect with
  | error e =>
    refine hfails (e := e) ?_ (fun _ _ h => by rw [hc] at h; cases h)
    unfold request_try
    rw [hc]
    exact Ends.stop (ends_ask _ (.error e) server request)
  | ok _ =>
    cases request with
    | error e =>
      refine hfails (e := e) ?_ (fun _ _ _ h => by cases h)
      unfold request_try
      rw [hc]
      exact Ends.stop (ends_ask _ (.ok ()) server (.error e))
    | ok r =>
      cases hr : server.response r with
      | error e =>
        have hask := acks_ask hc server r
        rw [hr, not_acknowledges fun t ht => by rw [hr] at ht; cases ht] at hask
        refine hfails (e := e) ?_ ?_
        · exact Ends.stop hask
        · intro r' t _ hr' ht
          cases hr'
          rw [hr] at ht
          cases ht
      | ok o =>
        obtain ⟨flow, hflow, hrtnv⟩ := acks_request_try m hc hr
        refine answers_of_acks (acks_framed m hflow.handle_ok) ?_
        have hacks : op.acknowledged (if server.acknowledges r then [r] else []) ↔
            server.acknowledges r := by
          cases server.acknowledges r with
          | true => simp [hop r rfl]
          | false => simp [not_acknowledged_nil]
        have hread : server.acknowledges r → ∃ t, o = some t ∧ Response.success t := by
          intro hack
          obtain ⟨t, ht, hs⟩ := acknowledged_reads_success hack
          rw [hr] at ht
          cases ht
          exact ⟨t, rfl, hs⟩
        rw [hacks]
        constructor
        · rintro hiff r' t - hr' ht hs
          cases hr'
          rw [hr] at ht
          cases ht
          exact hiff.mp (congrArg Except.ok (hrtnv.mpr ⟨t, rfl, hs⟩))
        · intro hh
          constructor
          · intro hok
            obtain ⟨t, rfl, hs⟩ := hrtnv.mp (Except.ok.inj hok)
            exact hh r t hc rfl hr hs
          · intro hack
            exact congrArg Except.ok (hrtnv.mpr (hread hack))

end

/-! ## backup create -/

/-- The files are copied, and nothing is acknowledged meanwhile. -/
theorem acks_backup_files (m : Bool) (env : datastore.Env) (files : List String) :
    Copied m env files ∧ Acks (backup_files m env files) [] (.ok ()) ∨
    ¬ Copied m env files ∧ ∃ e, Acks (backup_files m env files) [] (.error e) := by
  have hnone : ∀ vs : List datastore.Event, (∀ v ∈ vs, ∃ file, v = .copied file) →
      vs.filterMap tgctl.acknowledged? = [] := by
    intro vs hvs
    refine List.filterMap_eq_nil_iff.mpr fun v hv => ?_
    obtain ⟨file, rfl⟩ := hvs v hv
    rfl
  rcases copies_backup_files m env files with ⟨hc, _, h⟩ | ⟨hc, vs, e, hvs, h⟩
  · refine .inl ⟨hc, ?_⟩
    have hacks := acks_of_moves h
    rwa [hnone _ (by simp)] at hacks
  · refine .inr ⟨hc, e, ?_⟩
    have hacks := acks_of_moves h
    rwa [hnone _ hvs] at hacks

section

variable {flags : datastore.Flags} {env : datastore.Env}

/-- The two responses that the command takes for successes are service results. -/
def CreateHonest (flags : datastore.Flags) (env : datastore.Env) : Prop :=
  ∀ id files, env.connect = .ok () →
    env.backup_begin.response (.backup_begin flags.label) = .ok (some (.success id files)) →
    Copied (!flags.monitor.isEmpty) env files →
    env.backup_end.response (.backup_end id) = .ok (some .success) →
    env.backup_begin.acknowledges (.backup_begin flags.label) ∧
      env.backup_end.acknowledges (.backup_end id)

theorem acks_create_fails {x : datastore.Cmd Flow} {requests : List Request} (m : Bool)
    (h : (∃ e, Acks x requests (.error e)) ∨ ∃ rc, Acks x requests (.ok (.goes_on .err rc))) :
    Acks (framed m (x.handle backup_create_catch)) requests (.ok .err) := by
  rcases h with ⟨e, h⟩ | ⟨rc, h⟩
  · have hcatch : ∃ rc, Acks (backup_create_catch e) [] (.ok (.goes_on .err rc)) := by
      cases e <;> exact ⟨_, Ends.pure⟩
    obtain ⟨rc, hcatch⟩ := hcatch
    have hx := h.handle_error hcatch
    rw [List.append_nil] at hx
    exact acks_framed m hx
  · exact acks_framed m h.handle_ok

/-- The begin alone does not make a backup. -/
theorem not_acknowledged_begin (b : Bool) (label : String) :
    ¬ Operation.create.acknowledged (if b then [.backup_begin label] else []) := by
  cases b <;> simp [Operation.acknowledged]

theorem acknowledged_create_iff (b c : Bool) (label : String) (id : Nat) :
    Operation.create.acknowledged ((if b then [.backup_begin label] else []) ++
      (if c then [.backup_end id] else [])) ↔ b ∧ c := by
  cases b <;> cases c <;> simp [Operation.acknowledged]

/-- The end is asked for, and the server does not say success. -/
theorem acks_backup_finish_fails (m : Bool) {id : Nat}
    (h : env.backup_end.response (.backup_end id) ≠ .ok (some .success)) :
    (∃ e, Acks (backup_finish m env id) [] (.error e)) ∨
      ∃ rc, Acks (backup_finish m env id) [] (.ok (.goes_on .err rc)) := by
  have hsend : Acks (send env.backup_end (.backup_end id)) []
      (env.backup_end.response (.backup_end id)) := by
    refine acks_refused fun t ht hs => ?_
    cases t with
    | success => exact h ht
    | expired | unknown_error | not_set => cases hs
  cases hr : env.backup_end.response (.backup_end id) with
  | error e =>
    rw [hr] at hsend
    exact .inl ⟨e, hsend.stop⟩
  | ok o =>
    rw [hr] at hsend h
    refine .inr ?_
    rcases o with _ | t
    · exact ⟨_, hsend.after Ends.pure⟩
    · cases t with
      | success => exact absurd rfl h
      | expired | unknown_error | not_set => exact ⟨_, hsend.after Ends.pure⟩

/-- The command fails, with the begin acknowledged or not. -/
theorem create_fails (m b : Bool)
    (h : (∃ e, Acks (backup_create_try flags m env)
        (if b then [.backup_begin flags.label] else []) (.error e)) ∨
      ∃ rc, Acks (backup_create_try flags m env)
        (if b then [.backup_begin flags.label] else []) (.ok (.goes_on .err rc)))
    (hh : CreateHonest flags env) :
    Answers (framed m ((backup_create_try flags m env).handle backup_create_catch)) .create
      (CreateHonest flags env) := by
  refine answers_of_acks (acks_create_fails m h) (iff_of_true ?_ hh)
  exact iff_of_false (by simp) (not_acknowledged_begin b _)

/-- The begin has been answered with a success, or with what reads as one. -/
theorem create_answers_of_begin {m : Bool} (hm : (!flags.monitor.isEmpty) = m)
    (hc : env.connect = .ok ()) {id : Nat} {files : List String}
    (hb : env.backup_begin.response (.backup_begin flags.label) = .ok (some (.success id files))) :
    Answers (framed m ((backup_create_try flags m env).handle backup_create_catch)) .create
      (CreateHonest flags env) := by
  have hsend := acks_send env.backup_begin (.backup_begin flags.label)
  rw [hb] at hsend
  have htry : ∀ {requests r}, Acks (do backup_files m env files; backup_finish m env id)
      requests r → Acks (backup_create_try flags m env)
        ((if env.backup_begin.acknowledges (.backup_begin flags.label)
          then [.backup_begin flags.label] else []) ++ requests) r := by
    intro requests r h
    unfold backup_create_try
    rw [hc]
    exact Ends.pure.after (hsend.bind h)
  have hfails : ((∃ e, Acks (do backup_files m env files; backup_finish m env id) [] (.error e)) ∨
      ∃ rc, Acks (do backup_files m env files; backup_finish m env id) []
        (.ok (.goes_on .err rc))) → CreateHonest flags env →
      Answers (framed m ((backup_create_try flags m env).handle backup_create_catch)) .create
        (CreateHonest flags env) := by
    intro h hh
    have htry' : ∀ {r}, Acks (do backup_files m env files; backup_finish m env id) [] r →
        Acks (backup_create_try flags m env)
          (if env.backup_begin.acknowledges (.backup_begin flags.label)
            then [.backup_begin flags.label] else []) r := by
      intro r h
      have := htry h
      rwa [List.append_nil] at this
    exact create_fails m _
      (h.imp (fun ⟨e, he⟩ => ⟨e, htry' he⟩) fun ⟨rc, hrc⟩ => ⟨rc, htry' hrc⟩) hh
  rcases acks_backup_files m env files with ⟨hcopied, hfiles⟩ | ⟨hcopied, e, hfiles⟩
  · by_cases hend : env.backup_end.response (.backup_end id) = .ok (some .success)
    · have hsend' := acks_send env.backup_end (.backup_end id)
      rw [hend] at hsend'
      have hfinish : Acks (backup_finish m env id)
          (if env.backup_end.acknowledges (.backup_end id) then [.backup_end id] else [])
          (.ok (.returns .ok)) :=
        hsend'.before ((acks_tell m _).after Ends.pure)
      refine answers_of_acks (acks_framed m (htry (hfiles.after hfinish)).handle_ok) ?_
      rw [acknowledged_create_iff]
      constructor
      · intro h id' files' _ hb' _ _
        rw [hb] at hb'
        cases hb'
        exact h.mp rfl
      · intro hh
        exact iff_of_true rfl (hh id files hc hb (hm ▸ hcopied) hend)
    · refine hfails ?_ ?_
      · exact (acks_backup_finish_fails m hend).imp (fun ⟨e, he⟩ => ⟨e, hfiles.after he⟩)
          (fun ⟨rc, hrc⟩ => ⟨rc, hfiles.after hrc⟩)
      · intro id' files' _ hb' _ hend'
        rw [hb] at hb'
        cases hb'
        exact absurd hend' hend
  · refine hfails (.inl ⟨e, hfiles.stop⟩) ?_
    intro id' files' _ hb' hcopied' _
    rw [hb] at hb'
    cases hb'
    exact absurd (hm ▸ hcopied') hcopied

theorem create_answers : Answers (tgctl_backup_create flags env) .create
    (CreateHonest flags env) := by
  unfold tgctl_backup_create
  generalize hm : (!flags.monitor.isEmpty) = m
  dsimp only
  cases hc : env.connect with
  | error e =>
    refine create_fails m false (.inl ⟨e, ?_⟩) (fun _ _ h => by rw [hc] at h; cases h)
    unfold backup_create_try
    rw [hc]
    exact Ends.stop Ends.raise
  | ok _ =>
    have hsend := acks_send env.backup_begin (.backup_begin flags.label)
    generalize env.backup_begin.acknowledges (.backup_begin flags.label) = b at hsend
    cases hb : env.backup_begin.response (.backup_begin flags.label) with
    | error e =>
      rw [hb] at hsend
      refine create_fails m b (.inl ⟨e, ?_⟩) (fun _ _ _ h => by rw [hb] at h; cases h)
      unfold backup_create_try
      rw [hc]
      exact Ends.pure.after hsend.stop
    | ok o =>
      rw [hb] at hsend
      rcases o with _ | begin_response
      · refine create_fails m b (.inr ⟨.payload_broken, ?_⟩)
          (fun _ _ _ h => by rw [hb] at h; cases h)
        unfold backup_create_try
        rw [hc]
        exact Ends.pure.after (hsend.before Ends.pure)
      · cases begin_response with
        | unknown_error message =>
          refine create_fails m b (.inr ⟨.server, ?_⟩) (fun _ _ _ h => by rw [hb] at h; cases h)
          unfold backup_create_try
          rw [hc]
          exact Ends.pure.after (hsend.before Ends.pure)
        | not_set =>
          refine create_fails m b (.inr ⟨.payload_broken, ?_⟩)
            (fun _ _ _ h => by rw [hb] at h; cases h)
          unfold backup_create_try
          rw [hc]
          exact Ends.pure.after (hsend.before Ends.pure)
        | success id files => exact create_answers_of_begin hm hc hb

end

/-! ## restore -/

section

variable {flags : datastore.Flags} {env : datastore.Env}

/-- The prompt comes before the request. -/
theorem confirmed_answers {x : datastore.Cmd ReturnCode} {op : Operation} {honest : Prop}
    (h : Answers x op honest) :
    Answers (if !confirmed flags env then return .err else x) op
      (confirmed flags env → honest) := by
  cases confirmed flags env with
  | true => simpa using h
  | false => exact answers_of_failure Ends.pure (by simp) nofun

theorem restore_backup_answers (path : String) :
    Answers (tgctl_restore_backup flags env path) .restore
      (confirmed flags env → RequestHonest env env.restore_begin
        (.ok (.restore_begin (.backup_directory path) (flags.keep_backup && flags._keep_backup)
          flags.label))) := by
  refine confirmed_answers (request_answers _ ?_)
  rintro r hr
  cases hr
  simp [Operation.acknowledged]

theorem restore_tag_answers (tag_name : String) :
    Answers (tgctl_restore_tag flags env tag_name) .restore
      (RequestHonest env env.restore_begin
        (.ok (.restore_begin (.tag_name tag_name) false ""))) := by
  refine request_answers _ ?_
  rintro r hr
  cases hr
  simp [Operation.acknowledged]

theorem file_list_request_acknowledged {path : String} {pt : Ptree} {r : Request}
    (h : file_list_request flags env path pt = .ok r) : Operation.restore.acknowledged [r] := by
  unfold file_list_request at h
  cases hf : pt.for_each env.bool_of with
  | error e =>
    rw [hf] at h
    cases h
  | ok files =>
    rw [hf] at h
    cases h
    simp [Operation.acknowledged]

theorem file_list_answers (path : String) :
    Answers (tgctl_restore_backup_use_file_list flags env path) .restore
      (confirmed flags env → ∀ pt, env.file_list = some pt →
        RequestHonest env env.restore_begin (file_list_request flags env path pt)) := by
  refine confirmed_answers ?_
  unfold file_list_try
  cases env.file_list with
  | none =>
    refine answers_of_failure (acks_framed _ (Ends.handle_ok
      ((acks_tell _ _).after Ends.pure))) ?_ nofun
    simp [Except.map, Flow.rtnv]
  | some pt =>
    have h : Answers (framed (!flags.monitor.isEmpty) ((request_try (!flags.monitor.isEmpty) env
        env.restore_begin (file_list_request flags env path pt)).handle (request_catch env)))
        .restore (RequestHonest env env.restore_begin (file_list_request flags env path pt)) :=
      request_answers _ fun r => file_list_request_acknowledged
    simpa using h

theorem estimate_answers : Answers (tgctl_backup_estimate flags env) .estimate
    (RequestHonest env env.backup_estimate (.ok .backup_estimate)) := by
  refine request_answers _ ?_
  rintro r hr
  cases hr
  simp [Operation.acknowledged]

end

/-! ## The server around a command -/

section

variable {p : Error → Prop}

theorem raises_tell (m : Bool) (r : monitor_output.Record) :
    Raises p (tell m r : process.Cmd Unit) := by
  cases m with
  | true => exact Raises.write
  | false => exact Raises.pure

theorem raises_after_stop (m : Bool) (rtnv : ReturnCode) : Raises p (after_stop m rtnv) := by
  cases rtnv with
  | ok => exact (raises_tell m _).bind fun _ => Raises.pure
  | err => exact Raises.pure

/-- The exceptions that `tgctl_shutdown_kill` takes. -/
def Expected (e : Error) : Prop := ∃ code what, e = .runtime_error code what

theorem raises_tgctl_kill (flags : process.Flags) (env : KillEnv) :
    Raises Expected (tgctl_kill flags env) := by
  rcases tgctl_kill_ends flags env with ⟨-, -, h⟩ | ⟨-, -, h⟩ | ⟨-, h⟩
  · exact Quiet.raises ⟨_, h⟩
  · intro e he
    rw [h.result] at he
    cases he
    exact ⟨_, _, rfl⟩
  · exact Quiet.raises ⟨_, h⟩

theorem quiet_tgctl_shutdown (flags : process.Flags) (env : ShutdownEnv) :
    Quiet Monitored.record? (tgctl_shutdown flags env) := by
  rcases tgctl_shutdown_ends flags env with ⟨-, h⟩ | ⟨-, h⟩
  · exact ⟨_, h⟩
  · exact ⟨_, h⟩

theorem raises_stop (flags : process.Flags) (m force : Bool) (env : ShutdownKillEnv) :
    Raises Expected (stop flags m force env) := by
  unfold stop
  split
  · exact (raises_tgctl_kill _ _).bind fun _ => raises_after_stop _ _
  · refine Raises.bind ?_ fun _ => ?_
    · unfold attach_status_info
      split
      · exact Raises.pure
      · exact Raises.raise ⟨_, _, rfl⟩
    · split
      · exact (quiet_tgctl_shutdown _ _).raises.bind fun _ => raises_after_stop _ _
      · exact Raises.pure

theorem raises_shutdown_kill_try (flags : process.Flags) (m force : Bool)
    (env : ShutdownKillEnv) : Raises Expected (shutdown_kill_try flags m force env) := by
  refine (status_check_quiet _ _).raises.bind fun state => ?_
  split
  · exact (raises_tell _ _).bind fun _ => Raises.pure
  · refine Raises.bind ?_ fun _ => raises_stop _ _ _ _
    unfold open_lock_file
    split
    · exact Raises.pure
    · exact Raises.raise ⟨_, _, rfl⟩

theorem raises_shutdown_kill_catch (flags : process.Flags) (e : Error) (h : Expected e) :
    Raises p (shutdown_kill_catch flags e) := by
  obtain ⟨code, what, rfl⟩ := h
  unfold shutdown_kill_catch
  dsimp only
  split
  · split
    · exact Raises.pure
    · exact Raises.pure
  · exact Raises.pure

/-- Nothing leaves `tgctl_shutdown_kill`. -/
theorem raises_tgctl_shutdown_kill (flags : process.Flags) (force status_output : Bool)
    (env : ShutdownKillEnv) : Raises p (tgctl_shutdown_kill flags force status_output env) := by
  refine (raises_tell _ _).bind fun _ => Raises.bind ?_ fun flow => ?_
  · unfold shutdown_kill
    split
    · split
      · exact (raises_shutdown_kill_try _ _ _ _).handle (raises_shutdown_kill_catch flags)
      · exact Raises.pure
    · exact Raises.pure
  · cases flow with
    | returns rtnv => exact Raises.pure
    | goes_on rtnv reason => exact (raises_tell _ _).bind fun _ => Raises.pure

end

/-! ## The subcommands -/

theorem exit_congr {args : List String} {x y : Cmd Int} (h : Same Event.acknowledged? x y) :
    ExitTruthful args x ↔ ExitTruthful args y := by
  unfold ExitTruthful exit_code
  rw [h.log, h.result]

/-- A subcommand that fails before the server acknowledges anything. -/
theorem exit_of_failure {args : List String} {x : Cmd Int} {r : Except Error Int}
    (h : Command.Ends Event.acknowledged? x [] r) (hr : r ≠ .ok 0) : ExitTruthful args x := by
  unfold ExitTruthful exit_code
  rw [h.log, h.result]
  refine iff_of_false ?_ ?_
  · cases r with
    | ok n => exact fun hn => hr (congrArg Except.ok hn)
    | error e => simp
  · rintro ⟨op, -, hop⟩
    exact not_acknowledged_nil op hop

theorem blank_run_process {α : Type} (x : process.Cmd α) :
    Blank Event.acknowledged? (run_process x) :=
  Blank.embed fun _ => rfl

theorem quiet_run_process {α : Type} {x : process.Cmd α} (h : Raises (fun _ => False) x) :
    Quiet Event.acknowledged? (run_process x) := by
  cases hr : x.result with
  | ok a => exact ⟨a, blank_run_process x, hr⟩
  | error e => exact (h e hr).elim

/-- A part of a subcommand that ends without an exception. -/
theorem process_ends {α : Type} {x : process.Cmd α} {r : Except Error α} (h : x.result = r) :
    Command.Ends Event.acknowledged? (run_process x) [] r :=
  ⟨blank_run_process x, h⟩

theorem start_ends {flags : process.Flags} {env : StartEnv} {r : Except Error ReturnCode}
    (h : (tgctl_start flags true .maintenance_server env).result = r) :
    Command.Ends Event.acknowledged? (start_server flags env) [] r := by
  cases r with
  | ok rtnv => exact (process_ends h).after ((Ends.unseen rfl).after Ends.pure)
  | error e => exact (process_ends h).stop

theorem quiet_call_shutdown_kill (flags : process.Flags) (force status_output : Bool)
    (env : ShutdownKillEnv) :
    Quiet Event.acknowledged? (call_shutdown_kill flags force status_output env) :=
  (Quiet.unseen rfl).bind fun _ => quiet_run_process (raises_tgctl_shutdown_kill _ _ _ _)

section

variable {args : List String} {f : datastore.Cmd ReturnCode} {op : Operation} {honest : Prop}

theorem exit_of_answers (hreq : requested args = some op) (h : Answers f op honest) :
    ExitTruthful args (do let rv ← run_datastore f; return code rv) ↔ honest := by
  have hcode : exit_code (do let rv ← run_datastore f; return code rv) = 0 ↔
      f.result = .ok .ok := by
    obtain ⟨l, r⟩ := f
    cases r with
    | ok rv => cases rv <;> simp [exit_code, run_datastore, embed, bind, pure, code]
    | error e => simp [exit_code, run_datastore, embed, bind]
  have hlog : Command.Ends Event.acknowledged? (run_datastore f)
      (f.log.filterMap tgctl.acknowledged?) f.result :=
    Ends.embed ⟨rfl, rfl⟩ fun _ => rfl
  have hacks : (do let rv ← run_datastore f; return code rv : Cmd Int).log.filterMap
      Event.acknowledged? = f.log.filterMap tgctl.acknowledged? := by
    cases hr : f.result with
    | ok rv =>
      rw [hr] at hlog
      have hends : Command.Ends Event.acknowledged?
          (do let rv ← run_datastore f; return code rv : Cmd Int)
          (f.log.filterMap tgctl.acknowledged?) (.ok (code rv)) :=
        hlog.before Ends.pure
      exact hends.log
    | error e =>
      rw [hr] at hlog
      exact hlog.stop.log
  unfold ExitTruthful
  unfold Answers at h
  rw [hcode, hacks, hreq, ← h]
  simp

/-- The server may be stopped before the subcommand returns. -/
theorem exit_of_stopped {α : Type} {stop : Cmd α} (hstop : Quiet Event.acknowledged? stop)
    {x : Cmd Int} : ExitTruthful args (do let rv ← x; let _ ← stop; return rv) ↔
      ExitTruthful args x := by
  obtain ⟨a, ha⟩ := hstop
  refine (exit_congr (Same.then fun rv => Ends.same ha)).trans (exit_congr ?_)
  obtain ⟨l, r⟩ := x
  cases r with
  | ok rv => exact ⟨congrArg _ (List.append_nil l), rfl⟩
  | error e => exact ⟨rfl, rfl⟩

end

theorem quiet_stop_server (flags : Flags) (env : Env) :
    Quiet Event.acknowledged? (stop_server flags env) := by
  refine (quiet_call_shutdown_kill _ _ _ _).bind fun rtnv => ?_
  cases rtnv with
  | ok => exact Quiet.pure
  | err => exact (quiet_call_shutdown_kill _ _ _ _).bind fun _ => Quiet.pure

/-- `tgctl_backup_directory_check` accepts the directory. -/
def DirectoryOk (env : datastore.Env) : Prop :=
  env.directory_exists ∧ env.is_directory ∧ env.owner_write

/-- A server runs before `backup create`, or is started for it, or by somebody else. -/
def ServerUp (flags : Flags) (env : Env) : Prop :=
  Sees env.running_conf env.running_status .activated ∨
  (tgctl_start flags.hushed true .maintenance_server env.start).result = .ok .ok ∨
  (tgctl_start flags.hushed true .maintenance_server env.start).result = .ok .err ∧
    Sees env.running_again_conf env.running_again_status .activated

/-- The maintenance server of `restore` is up. -/
def RestoreStarted (flags : Flags) (env : Env) : Prop :=
  (tgctl_start { flags.toFlags with timeout := 0, quiet := true } true .maintenance_server
    env.start).result = .ok .ok

theorem is_running_ends (bst_conf : BootstrapConfiguration) (env : StatusEnv) :
    ∃ running, Command.Ends Event.acknowledged? (run_process (is_running bst_conf env)) []
      (.ok running) ∧ (running = true ↔ Sees bst_conf env .activated) := by
  obtain ⟨state, hs⟩ := status_check_quiet bst_conf env
  have hr : (is_running bst_conf env).result = .ok (decide (state = .activated)) := by
    unfold is_running
    exact (hs.after (f := fun state => pure (decide (state = .activated))) Ends.pure).result
  refine ⟨_, process_ends hr, ?_⟩
  rw [decide_eq_true_iff]
  constructor
  · rintro rfl
    exact hs.result
  · exact fun h => Sees.unique hs.result h

section

variable {flags : Flags} {env : Env} {args : List String}

theorem directory_check_ends (flags : Flags) (env : Env) : ∃ rtnv, Command.Ends Event.acknowledged?
    (run_datastore (tgctl_backup_directory_check flags.datastore env.datastore)) [] (.ok rtnv) ∧
      (rtnv = .ok ↔ DirectoryOk env.datastore) := by
  have hcheck : ∃ rtnv, Acks (tgctl_backup_directory_check flags.datastore env.datastore) []
      (.ok rtnv) ∧ (rtnv = .ok ↔ DirectoryOk env.datastore) := by
    unfold tgctl_backup_directory_check DirectoryOk
    split
    · rename_i h
      exact ⟨.ok, Ends.pure, by simpa [and_assoc] using h⟩
    · rename_i h
      refine ⟨.err, (acks_tell _ _).after ((acks_tell _ _).after Ends.pure), ?_⟩
      simpa [and_assoc] using h
  obtain ⟨rtnv, hacks, hiff⟩ := hcheck
  exact ⟨rtnv, hacks.embed fun _ => rfl, hiff⟩

theorem create_on_running_exit (hreq : requested args = some .create) :
    ExitTruthful args (create_on_running flags env) ↔
      CreateHonest flags.datastore env.datastore :=
  exit_of_answers hreq create_answers

theorem create_on_started_exit (hreq : requested args = some .create) :
    ExitTruthful args (create_on_started flags env) ↔
      CreateHonest flags.datastore env.datastore := by
  obtain ⟨u, hu⟩ := quiet_stop_server flags env
  rw [← create_on_running_exit hreq]
  exact exit_congr (Same.then fun rv => Ends.same hu)

theorem backup_create_exit (hreq : requested args = some .create) :
    ExitTruthful args (backup_create flags env) ↔
      (DirectoryOk env.datastore → ServerUp flags env →
        CreateHonest flags.datastore env.datastore) := by
  unfold backup_create
  obtain ⟨rtnv, hdir, hok⟩ := directory_check_ends flags env
  rw [exit_congr (Ends.same hdir)]
  cases rtnv with
  | err =>
    refine iff_of_true (exit_of_failure Ends.pure (by simp [code])) ?_
    exact fun h => absurd (hok.mpr h) (by simp)
  | ok =>
    have hdirectory : DirectoryOk env.datastore := hok.mp rfl
    have hup : ∀ {x : Cmd Int}, ServerUp flags env →
        (ExitTruthful args x ↔ CreateHonest flags.datastore env.datastore) →
        (ExitTruthful args x ↔ (DirectoryOk env.datastore → ServerUp flags env →
          CreateHonest flags.datastore env.datastore)) := by
      intro x hup hx
      rw [hx]
      exact ⟨fun h _ _ => h, fun h => h hdirectory hup⟩
    obtain ⟨running, hrun, hruns⟩ := is_running_ends env.running_conf env.running_status
    dsimp only
    rw [exit_congr (Ends.same hrun)]
    cases running with
    | true => exact hup (.inl (hruns.mp rfl)) (create_on_running_exit hreq)
    | false =>
      have hdown : ¬ Sees env.running_conf env.running_status .activated :=
        fun h => absurd (hruns.mpr h) (by simp)
      rw [if_neg Bool.false_ne_true]
      cases hs : (tgctl_start flags.hushed true .maintenance_server env.start).result with
      | error e =>
        refine iff_of_true (exit_of_failure (start_ends hs).stop (by simp)) ?_
        rintro - (h | h | h)
        · exact absurd h hdown
        · rw [hs] at h
          cases h
        · rw [hs] at h
          cases h.1
      | ok rtnv =>
        rw [exit_congr (Ends.same (start_ends hs))]
        cases rtnv with
        | ok => exact hup (.inr (.inl hs)) (create_on_started_exit hreq)
        | err =>
          obtain ⟨again, hrun', hruns'⟩ :=
            is_running_ends env.running_again_conf env.running_again_status
          dsimp only
          rw [exit_congr (Ends.same hrun')]
          cases again with
          | true =>
            rw [if_pos rfl]
            exact hup (.inr (.inr ⟨hs, hruns'.mp rfl⟩)) (create_on_running_exit hreq)
          | false =>
            rw [if_neg Bool.false_ne_true]
            refine iff_of_true (exit_of_failure Ends.pure (by simp [code])) ?_
            rintro - (h | h | h)
            · exact absurd h hdown
            · rw [hs] at h
              cases h
            · exact absurd (hruns'.mpr h.2) (by simp)

/-- The operands of `restore` are there, and the server is honest about the request. -/
def RestoreTold (flags : Flags) (args : List String) (env : datastore.Env) : Prop :=
  (args.getD 2 "" = "backup" ∨ args.getD 2 "" = "tag" → 3 < args.length) ∧
  (args.getD 2 "" = "backup" → flags.use_file_list = "" → confirmed flags.datastore env →
    RequestHonest env env.restore_begin (.ok (.restore_begin
      (.backup_directory (args.getD 3 "")) (flags.keep_backup && flags._keep_backup)
      flags.label))) ∧
  (args.getD 2 "" = "backup" → flags.use_file_list ≠ "" → confirmed flags.datastore env →
    ∀ pt, env.file_list = some pt → RequestHonest env env.restore_begin
      (file_list_request flags.datastore env (args.getD 3 "") pt)) ∧
  (args.getD 2 "" = "tag" → RequestHonest env env.restore_begin
    (.ok (.restore_begin (.tag_name (args.getD 3 "")) false "")))

theorem not_exit_of_missing (x : Cmd Int) (h : Command.Ends Event.acknowledged? x [] (.ok 0)) :
    ¬ ExitTruthful args x := by
  unfold ExitTruthful exit_code
  rw [h.log, h.result]
  intro hx
  obtain ⟨op, -, hop⟩ := hx.mp rfl
  exact not_acknowledged_nil op hop

theorem restore_on_started_exit (hreq : requested args = some .restore)
    (hsub : args.getD 2 "" = "backup" ∨ args.getD 2 "" = "tag") :
    ExitTruthful args (restore_on_started flags args env) ↔
      RestoreTold flags args env.datastore := by
  unfold restore_on_started RestoreTold
  generalize args.getD 2 "" = sub at hsub ⊢
  generalize args.getD 3 "" = operand
  by_cases hlen : 3 < args.length
  · rcases hsub with rfl | rfl
    · rw [if_pos rfl, if_pos hlen]
      by_cases hlist : flags.use_file_list = ""
      · rw [if_neg (by simp [hlist]), exit_of_answers hreq (restore_backup_answers _)]
        simp [hlen, hlist, Flags.datastore]
      · rw [if_pos (by simpa using hlist), exit_of_answers hreq (file_list_answers _)]
        simp [hlen, hlist]
    · rw [if_neg (by decide), if_pos rfl, if_pos hlen,
        exit_of_answers hreq (restore_tag_answers _)]
      simp [hlen]
  · refine iff_of_false ?_ (fun h => hlen (h.1 hsub))
    rcases hsub with rfl | rfl
    · rw [if_pos rfl, if_neg hlen]
      exact not_exit_of_missing _ Ends.pure
    · rw [if_neg (by decide), if_pos rfl, if_neg hlen]
      exact not_exit_of_missing _ Ends.pure

/-- What `restore` does with its operands goes through to the exit code. -/
theorem restore_exit {honest : Prop} (hlen : 3 ≤ args.length)
    (h : ExitTruthful args
      (restore_on_started { flags with timeout := 0, quiet := true } args env) ↔ honest) :
    ExitTruthful args (restore flags args env) ↔ (RestoreStarted flags env → honest) := by
  unfold restore
  dsimp only
  cases hs : (tgctl_start { flags.toFlags with timeout := 0, quiet := true } true
      .maintenance_server env.start).result with
  | error e =>
    refine iff_of_true (exit_of_failure (start_ends hs).stop (by simp)) ?_
    intro hstarted
    rw [RestoreStarted, hs] at hstarted
    cases hstarted
  | ok rtnv =>
    rw [exit_congr (Ends.same (start_ends hs))]
    cases rtnv with
    | err =>
      refine iff_of_true (exit_of_failure Ends.pure (by simp)) ?_
      intro hstarted
      rw [RestoreStarted, hs] at hstarted
      cases hstarted
    | ok =>
      dsimp only
      rw [if_neg (by omega), exit_of_stopped (quiet_call_shutdown_kill _ _ _ _),
        h]
      exact ⟨fun h _ => h, fun h => h hs⟩

/-- When the exit code can be trusted. -/
def ExitTold (flags : Flags) (args : List String) (env : Env) : Prop :=
  (args.getD 1 "" = "backup" → args.getD 2 "" = "create" → 3 < args.length →
    DirectoryOk env.datastore → ServerUp flags env →
    CreateHonest flags.datastore env.datastore) ∧
  (args.getD 1 "" = "backup" → args.getD 2 "" = "estimate" →
    RequestHonest env.datastore env.datastore.backup_estimate (.ok .backup_estimate)) ∧
  (args.getD 1 "" = "restore" → args.getD 2 "" = "backup" ∨ args.getD 2 "" = "tag" →
    RestoreStarted flags env → RestoreTold flags args env.datastore)

theorem lt_length_of_getD {n : Nat} {a : String} (h : args.getD n "" = a) (ha : a ≠ "") :
    n < args.length := by
  by_contra hlen
  rw [List.getD_eq_getElem?_getD, List.getElem?_eq_none (by omega)] at h
  exact ha h.symm

theorem backup_exit (hbackup : args.getD 1 "" = "backup") :
    ExitTruthful args (backup flags args env) ↔ ExitTold flags args env := by
  have hreq : requested args = if args.getD 2 "" = "create" then some .create
      else if args.getD 2 "" = "estimate" then some .estimate else none := by
    rw [requested, if_pos hbackup]
  have hlen : args.getD 2 "" ≠ "" → 3 ≤ args.length := lt_length_of_getD rfl
  unfold backup ExitTold
  rw [hbackup]
  generalize args.getD 2 "" = sub at hreq hlen ⊢
  by_cases hcreate : sub = "create"
  · subst hcreate
    have hthree := hlen (by decide)
    rw [if_neg (by omega), if_pos rfl]
    by_cases hoperand : args.length < 4
    · rw [if_pos hoperand]
      refine iff_of_true (exit_of_failure Ends.pure (by simp [code])) ?_
      simp [show ¬ 3 < args.length by omega]
    · rw [if_neg hoperand, backup_create_exit hreq]
      simp [show 3 < args.length by omega]
  · by_cases hestimate : sub = "estimate"
    · subst hestimate
      have hthree := hlen (by decide)
      rw [if_neg (by omega), if_neg hcreate, if_pos rfl, exit_of_answers hreq estimate_answers]
      simp
    · refine iff_of_true ?_ (by simp [hcreate, hestimate])
      by_cases hthree : args.length < 3
      · rw [if_pos hthree]
        exact exit_of_failure Ends.pure (by simp [code])
      · rw [if_neg hthree, if_neg hcreate, if_neg hestimate]
        exact exit_of_failure Ends.pure (by simp [code])

/-- Another word than `backup` and `tag` after `restore`. -/
theorem restore_unknown_exit (hsub : ¬ (args.getD 2 "" = "backup" ∨ args.getD 2 "" = "tag")) :
    ExitTruthful args (restore flags args env) := by
  have hquiet : ∀ rtnv, rtnv ≠ 0 → ExitTruthful args (pure rtnv) :=
    fun rtnv h => exit_of_failure Ends.pure (by simp [h])
  unfold restore
  dsimp only
  cases hs : (tgctl_start { flags.toFlags with timeout := 0, quiet := true } true
      .maintenance_server env.start).result with
  | error e => exact exit_of_failure (start_ends hs).stop (by simp)
  | ok rtnv =>
    rw [exit_congr (Ends.same (start_ends hs))]
    cases rtnv with
    | err => exact hquiet (-1) (by decide)
    | ok =>
      dsimp only
      by_cases hlen : args.length < 3
      · rw [if_pos hlen]
        exact hquiet _ (by decide)
      · rw [if_neg hlen,
          exit_of_stopped (quiet_call_shutdown_kill _ _ _ _)]
        unfold restore_on_started
        rw [if_neg (fun h => hsub (.inl h)), if_neg (fun h => hsub (.inr h))]
        exact hquiet (-1) (by decide)

theorem restore_told (hrestore : args.getD 1 "" = "restore") :
    ExitTruthful args (restore flags args env) ↔ ExitTold flags args env := by
  have hne : ¬ args.getD 1 "" = "backup" := by
    rw [hrestore]
    decide
  by_cases hsub : args.getD 2 "" = "backup" ∨ args.getD 2 "" = "tag"
  · have hlen : 3 ≤ args.length := by
      rcases hsub with h | h
      · exact lt_length_of_getD h (by decide)
      · exact lt_length_of_getD h (by decide)
    have hreq : requested args = some .restore := by
      rw [requested, if_neg hne, if_pos hrestore, if_pos hsub]
    rw [restore_exit hlen (restore_on_started_exit hreq hsub)]
    constructor
    · intro h
      exact ⟨fun hb => absurd hb hne, fun hb => absurd hb hne, fun _ _ => h⟩
    · intro h
      exact h.2.2 hrestore hsub
  · refine iff_of_true (restore_unknown_exit hsub) ?_
    exact ⟨fun hb => absurd hb hne, fun hb => absurd hb hne, fun _ h => absurd h hsub⟩

/-- The exit code is 0 exactly when the server has acknowledged the operation, if and only
if `ExitTold` holds. -/
theorem tgctl_main_exit (others : Flags → List String → Cmd Int)
    (hargs : args.getD 1 "" = "backup" ∨ args.getD 1 "" = "restore") :
    ExitTruthful args (tgctl_main others flags args env) ↔ ExitTold flags args env := by
  unfold tgctl_main
  dsimp only
  rcases hargs with h | h
  · have hlen := lt_length_of_getD h (by decide)
    rw [if_neg (by omega), if_pos h, backup_exit h]
    rfl
  · have hlen := lt_length_of_getD h (by decide)
    have hne : ¬ args.getD 1 "" = "backup" := by
      rw [h]
      decide
    rw [if_neg (by omega), if_neg hne, if_pos h, restore_told h]
    rfl

end

/-- The exit code is right exactly when `ExitTold` holds, and the monitor is told what the
command returns unless an exception passes its handler or the file list cannot be read. -/
theorem backups_are_reported_truthfully (others : Flags → List String → Cmd Int) (flags : Flags)
    (args : List String) (env : Env)
    (hargs : args.getD 1 "" = "backup" ∨ args.getD 1 "" = "restore")
    (fl : datastore.Flags) (ds : datastore.Env) (operand : String) :
    (ExitTruthful args (tgctl_main others flags args env) ↔ ExitTold flags args env) ∧
    Reported (tgctl_backup_create fl ds) ∧
    Reported (tgctl_backup_directory_check fl ds) ∧
    (Reported (tgctl_backup_estimate fl ds) ↔ (fl.monitor ≠ "" →
      Taken ds.database_name (outcome ds.connect ds.backup_estimate (.ok .backup_estimate)))) ∧
    (Reported (tgctl_restore_backup fl ds operand) ↔ (confirmed fl ds → fl.monitor ≠ "" →
      Taken ds.database_name (outcome ds.connect ds.restore_begin
        (.ok (.restore_begin (.backup_directory operand)
          (fl.keep_backup && fl._keep_backup) fl.label))))) ∧
    (Reported (tgctl_restore_backup_use_file_list fl ds operand) ↔
      (confirmed fl ds → fl.monitor ≠ "" → FileListTold fl ds operand)) ∧
    (Reported (tgctl_restore_tag fl ds operand) ↔ (fl.monitor ≠ "" →
      Taken ds.database_name (outcome ds.connect ds.restore_begin
        (.ok (.restore_begin (.tag_name operand) false ""))))) := by
  refine ⟨tgctl_main_exit others hargs, ?_⟩
  exact ⟨tgctl_backup_create_reported fl ds,
    tgctl_backup_directory_check_reported fl ds,
    tgctl_backup_estimate_reported_iff fl ds,
    tgctl_restore_backup_reported_iff fl ds operand,
    tgctl_restore_backup_use_file_list_reported_iff fl ds operand,
    tgctl_restore_tag_reported_iff fl ds operand⟩

/-- The server starts for the command, and goes after it. -/
def maintained : Env where
  running_conf := ⟨true, true⟩
  running_status := ⟨.no_file, fun _ => none⟩
  running_again_conf := ⟨true, true⟩
  running_again_status := ⟨.no_file, fun _ => none⟩
  start := restarted
  shutdown := served
  kill := served
  datastore := granting none

def recorded : Flags where
  toFlags := monitored "" false false false
  q := false
  label := ""
  force := true
  keep_backup := true
  _keep_backup := true
  use_file_list := "files.json"

theorem backups_are_reported_truthfully_for_a_tag :
    ExitTruthful ["tgctl", "restore", "tag", "t"]
      (tgctl_main (fun _ _ => return 1) recorded ["tgctl", "restore", "tag", "t"] maintained) ∧
    Reported (tgctl_restore_tag recorded.datastore (granting none) "t") := by
  obtain ⟨hexit, -, -, -, -, -, htag⟩ :=
    backups_are_reported_truthfully (fun _ _ => return 1) recorded ["tgctl", "restore", "tag", "t"]
      maintained (.inr rfl) recorded.datastore (granting none) "t"
  refine ⟨hexit.mpr ?_, htag.mpr fun _ e he => ?_⟩
  · refine ⟨fun h => absurd h (by decide), fun h => absurd h (by decide), fun _ _ _ => ?_⟩
    refine ⟨fun _ => by decide, fun h => absurd h (by decide), fun h => absurd h (by decide), ?_⟩
    rintro - r t - hr - -
    cases hr
    rfl
  · have hok : outcome (granting none).connect (granting none).restore_begin
        (.ok (.restore_begin (.tag_name "t") false "")) = .ok (some (.success 0)) := rfl
    rw [hok] at he
    cases he

/-- A restore without its operand exits with 0, a file list that cannot be read is told as a
success, and after one without entries there is no finish record. -/
theorem a_restore_of_nothing_exits_with_zero :
    (exit_code (tgctl_main (fun _ _ => return 1) recorded ["tgctl", "restore", "backup"]
        maintained) = 0 ∧
      ¬ ExitTruthful ["tgctl", "restore", "backup"] (tgctl_main (fun _ _ => return 1) recorded
        ["tgctl", "restore", "backup"] maintained)) ∧
    ¬ Reported (tgctl_restore_backup_use_file_list recorded.datastore (granting none) "d") ∧
    ¬ Reported (tgctl_restore_backup_use_file_list recorded.datastore
      (granting (some (.node "" []))) "d") := by
  refine ⟨⟨by decide +kernel, ?_⟩, ?_, ?_⟩
  · have hstarted : RestoreStarted recorded maintained := by
      unfold RestoreStarted
      decide +kernel
    rw [tgctl_main_exit _ (.inr rfl)]
    intro h
    exact absurd ((h.2.2 rfl (.inl rfl) hstarted).1 (.inl rfl)) (by decide)
  · rw [tgctl_restore_backup_use_file_list_reported_iff]
    intro h
    obtain ⟨pt, hpt, -⟩ := h rfl (by decide)
    cases hpt
  · rw [tgctl_restore_backup_use_file_list_reported_iff]
    intro h
    obtain ⟨pt, hpt, hcaught⟩ := h rfl (by decide)
    cases hpt
    obtain ⟨⟨code, what, he⟩, -⟩ := hcaught _ rfl
    cases he

end tateyama_bootstrap.tgctl
