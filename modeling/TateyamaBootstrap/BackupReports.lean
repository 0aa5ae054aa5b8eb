-- What the backup and restore commands tell the monitor agrees with what they return,
-- except for a file list that cannot be used and for exceptions that no handler takes.
import TateyamaBootstrap.BackupCommands

namespace tateyama_bootstrap.datastore

open monitor_output server_calls Command

/-! ## What the monitor is told -/

section

variable {T : Type} [Response T] {env : Env} {server : Server T} {request : Except Error Request}

theorem judge_agrees (response : Option T) : Agrees (judge true response) := by
  cases response with
  | none => exact agrees_goes_on (by decide)
  | some t =>
    unfold judge
    dsimp only
    split
    · exact ⟨.absent, .ok, tells_returns, by simp⟩
    · exact agrees_goes_on (by decide)

/-- For the monitor, the request is its outcome. -/
theorem request_try_same : Same Monitored.record? (request_try true env server request)
    (observe (outcome env.connect server request) >>= judge true) :=
  Same.bind ((ends_ask_records env.connect server request).same_ends (ends_observe _))

end

/-- What the handler of the commands with one request makes of an exception. -/
theorem thrown_reported_iff {env : Env} {x : Cmd Flow} {e : Error} (h : Ends x [] (.error e))
    (hr : Reasoned e) :
    Reported (framed true (x.handle (request_catch env))) ↔
      Taken env.database_name (.error e : Except Error Unit) := by
  unfold request_catch
  rcases catch_cases (W := Event) env.database_name e with
    ⟨htaken, code, what, rfl, hc⟩ | ⟨hnot, e', hc⟩
  · rw [(tells_of_error (by simp) h (hc _)).reported_iff]
    exact iff_of_true (by simp [hr code what rfl]) htaken
  · have hx := h.handle_error (hc Monitored.record?)
    exact iff_of_false (not_reported_of_error (ends_start.bind hx.stop)) hnot

section

variable {T : Type} [Response T] {env : Env} {server : Server T} {request : Except Error Request}

theorem request_reported_iff (hr : ThrowsReasoned request) :
    Reported (framed true ((request_try true env server request).handle (request_catch env))) ↔
      Taken env.database_name (outcome env.connect server request) := by
  rw [reported_congr (framed_same request_try_same.handle)]
  cases ho : outcome env.connect server request with
  | ok response =>
    refine iff_of_true ?_ nofun
    exact (Agrees.after ⟨_, ends_observe (.ok response)⟩ judge_agrees).handle.reported
  | error e =>
    have hends : Ends (observe (.error e) >>= (judge true : Option T → Cmd Flow)) [] (.error e) :=
      Ends.stop (ends_observe _)
    rw [thrown_reported_iff hends (outcome_reasoned env.connect_reasoned hr e ho)]
    exact taken_error

end

/-! ## backup create -/

/-- A part of the `try` block of `tgctl_backup_create` agrees, or throws after some data. -/
def Handled (x : Cmd Flow) : Prop :=
  Agrees x ∨ ∃ data e, (∀ r ∈ data, r.IsData) ∧ Ends x data (.error e) ∧ Reasoned e

theorem Handled.reported {x : Cmd Flow} (h : Handled x) :
    Reported (framed true (x.handle backup_create_catch)) := by
  rcases h with h | ⟨data, e, hd, h, hr⟩
  · exact h.handle.reported
  · cases e with
    | runtime_error code what =>
      rw [(tells_of_error hd h Ends.pure).reported_iff]
      simp [hr code what rfl]
    | out_of_range | exception =>
      rw [(tells_of_error hd h Ends.pure).reported_iff]
      simp

/-- The part writes data only, and what it throws has a reason. -/
def Part {α : Type} (x : Cmd α) : Prop :=
  ∃ data r, (∀ r ∈ data, r.IsData) ∧ Ends x data r ∧ ∀ e, r = .error e → Reasoned e

theorem Part.after {α β : Type} {x : Cmd α} {f : α → Cmd β} (hx : Part x)
    (hf : ∀ a, Part (f a)) : Part (x >>= f) := by
  obtain ⟨data, r, hd, h, hr⟩ := hx
  cases r with
  | error e =>
    refine ⟨data, .error e, hd, h.stop, ?_⟩
    intro e' he
    cases he
    exact hr e rfl
  | ok a =>
    obtain ⟨data', r', hd', h', hr'⟩ := hf a
    refine ⟨data ++ data', r', ?_, h.bind h', hr'⟩
    intro r hr
    exact (List.mem_append.mp hr).elim (hd r) (hd' r)

theorem Handled.after {α : Type} {x : Cmd α} {f : α → Cmd Flow} (hx : Part x)
    (hf : ∀ a, Handled (f a)) : Handled (x >>= f) := by
  obtain ⟨data, r, hd, h, hr⟩ := hx
  cases r with
  | error e => exact .inr ⟨data, e, hd, h.stop, hr e rfl⟩
  | ok a =>
    rcases hf a with ⟨rc, rtnv, ht, hagree⟩ | ⟨data', e, hd', h', hr'⟩
    · exact .inl ⟨rc, rtnv, ht.after_data hd h, hagree⟩
    · refine .inr ⟨data ++ data', e, ?_, h.bind h', hr'⟩
      intro r hr
      exact (List.mem_append.mp hr).elim (hd r) (hd' r)

theorem part_of_ends {α : Type} {x : Cmd α} {r : Except Error α} (h : Ends x [] r)
    (hr : ∀ e, r = .error e → Reasoned e) : Part x :=
  ⟨[], r, by simp, h, hr⟩

theorem part_pure {α : Type} (a : α) : Part (pure a) := part_of_ends Ends.pure nofun

theorem part_raise {α : Type} : Part (Command.raise filesystem_error : Cmd α) := by
  refine part_of_ends Ends.raise ?_
  intro e he code what hcode
  cases he
  cases hcode

theorem part_size (size : Option Nat) : Part (size_of size) := by
  cases size with
  | none => exact part_raise
  | some n => exact part_pure n

theorem part_progress (completed total : Nat) : Part (tell_progress true completed total) := by
  unfold tell_progress
  split
  · exact ⟨[_], .ok (), by simp [Record.IsData], ends_tell _, nofun⟩
  · exact ⟨[_], .ok (), by simp [Record.IsData], ends_tell _, nofun⟩

theorem part_copy (env : Env) (i : Nat) (file : String) : Part (copy_file env i file) := by
  unfold copy_file
  split
  · exact part_of_ends (Ends.unseen rfl) nofun
  · exact part_raise

theorem part_sum_sizes (env : Env) (files : List String) (i total : Nat) :
    Part (sum_sizes env files i total) := by
  induction files generalizing i total with
  | nil => exact part_pure total
  | cons file files ih => exact (part_size _).after fun size => ih _ _

theorem part_copy_files (env : Env) (total : Nat) (files : List String) (i completed : Nat) :
    Part (copy_files true env total files i completed) := by
  induction files generalizing i completed with
  | nil => exact part_pure ()
  | cons file files ih =>
    refine (part_copy env i file).after fun _ => (part_size _).after fun size => ?_
    exact (part_progress _ _).after fun _ => ih _ _

theorem part_send {T : Type} [Response T] (server : Server T) (request : Request) :
    Part (send server request) :=
  part_of_ends (ends_send_records server request) response_reasoned

theorem backup_finish_handled (env : Env) (id : Nat) : Handled (backup_finish true env id) := by
  refine Handled.after (part_send _ _) fun response => .inl ?_
  rcases response with _ | response
  · exact agrees_goes_on (by decide)
  · cases response with
    | success => exact ⟨.absent, .ok, tells_returns, by simp⟩
    | expired | unknown_error | not_set => exact agrees_goes_on (by decide)

theorem backup_create_handled (flags : Flags) (env : Env) :
    Handled (backup_create_try flags true env) := by
  refine Handled.after (part_of_ends (ends_observe _) env.connect_reasoned) fun _ => ?_
  refine Handled.after (part_send _ _) fun response => ?_
  rcases response with _ | response
  · exact .inl (agrees_goes_on (by decide))
  · cases response with
    | success id files =>
      refine Handled.after ?_ fun _ => backup_finish_handled env id
      exact (part_sum_sizes env files 0 0).after fun total => part_copy_files env total files 0 0
    | unknown_error | not_set => exact .inl (agrees_goes_on (by decide))

/-! ## Without a monitor -/

/-- The command writes no record. -/
abbrev Unrecorded {α : Type} (x : Cmd α) : Prop := Blank Monitored.record? x

theorem unrecorded_observe {α : Type} (r : Except Error α) : Unrecorded (observe r) :=
  (ends_observe r).log

theorem unrecorded_close (flow : Flow) : Unrecorded (flow.close false) := by
  cases flow with
  | returns rtnv => exact Quiet.pure.blank
  | goes_on rtnv reason => exact Blank.bind Quiet.pure.blank fun _ => Quiet.pure.blank

theorem unmonitored_reported {x : Cmd Flow} (h : Unrecorded x) : Reported (framed false x) :=
  reported_of_nil (Blank.bind Quiet.pure.blank fun _ => Blank.bind h unrecorded_close)

theorem unrecorded_request_try {T : Type} [Response T] (env : Env) (server : Server T)
    (request : Except Error Request) : Unrecorded (request_try false env server request) := by
  refine Blank.bind (ends_ask_records env.connect server request).log fun response => ?_
  rcases response with _ | response
  · exact Quiet.pure.blank
  · unfold judge
    dsimp only
    split
    · exact Blank.bind Quiet.pure.blank fun _ => Quiet.pure.blank
    · exact Quiet.pure.blank

theorem unrecorded_request_catch (env : Env) (e : Error) : Unrecorded (request_catch env e) := by
  rcases catch_cases (W := Event) env.database_name e with ⟨-, code, what, -, hc⟩ | ⟨-, e', hc⟩
  · exact (hc _).log
  · exact (hc _).log

theorem unrecorded_copy_files (env : Env) (total : Nat) (files : List String) (i completed : Nat) :
    Unrecorded (copy_files false env total files i completed) := by
  induction files generalizing i completed with
  | nil => exact Quiet.pure.blank
  | cons file files ih =>
    refine Blank.bind ?_ fun _ => ih _ _
    unfold copy_file
    split
    · exact (Quiet.unseen rfl).blank
    · exact Blank.raise

theorem unrecorded_backup_create_try (flags : Flags) (env : Env) :
    Unrecorded (backup_create_try flags false env) := by
  refine Blank.bind (unrecorded_observe _) fun _ => ?_
  refine Blank.bind (ends_send_records _ _).log fun response => ?_
  rcases response with _ | response
  · exact Quiet.pure.blank
  · cases response with
    | success id files =>
      refine Blank.bind (unrecorded_copy_files env 0 files 0 0) fun _ =>
        Blank.bind (ends_send_records _ _).log fun response => ?_
      rcases response with _ | response
      · exact Quiet.pure.blank
      · cases response with
        | success => exact Blank.bind Quiet.pure.blank fun _ => Quiet.pure.blank
        | expired | unknown_error | not_set => exact Quiet.pure.blank
    | unknown_error | not_set => exact Quiet.pure.blank

/-! ## The commands -/

theorem monitored_iff {flags : Flags} : (!flags.monitor.isEmpty) = true ↔ flags.monitor ≠ "" := by
  simp

theorem framed_reported_iff {x : Bool → Cmd Flow} {p : Prop} (m : Bool)
    (ht : Reported (framed true (x true)) ↔ p) (hf : Unrecorded (x false)) :
    Reported (framed m (x m)) ↔ (m = true → p) := by
  cases m with
  | true => simp [ht]
  | false => exact iff_of_true (unmonitored_reported hf) nofun

theorem tgctl_backup_create_reported (flags : Flags) (env : Env) :
    Reported (tgctl_backup_create flags env) := by
  have hcatch : ∀ e, Unrecorded (backup_create_catch e) := by
    intro e
    cases e <;> exact Quiet.pure.blank
  refine (framed_reported_iff
    (x := fun m => (backup_create_try flags m env).handle backup_create_catch) (p := True) _
    ?_ ?_).mpr fun _ => trivial
  · simp [(backup_create_handled flags env).reported]
  · exact (unrecorded_backup_create_try flags env).handle hcatch

theorem tgctl_backup_directory_check_reported (flags : Flags) (env : Env) :
    Reported (tgctl_backup_directory_check flags env) := by
  unfold tgctl_backup_directory_check
  split
  · exact reported_of_nil rfl
  · cases !flags.monitor.isEmpty with
    | false => exact reported_of_nil rfl
    | true =>
      have h : Ends (do start true; finish true .io; pure .err : Cmd ReturnCode)
          (.start :: [] ++ [.finish .io]) (.ok .err) :=
        ends_start.bind ((ends_finish .io).bind Ends.pure)
      exact (reported_iff h (by simp)).mpr (by simp)

section

variable {T : Type} [Response T]

theorem request_command_reported_iff {env : Env} {server : Server T}
    {request : Except Error Request} (hr : ThrowsReasoned request) (m : Bool) :
    Reported (framed m ((request_try m env server request).handle (request_catch env))) ↔
      (m = true → Taken env.database_name (outcome env.connect server request)) :=
  framed_reported_iff (x := fun m => (request_try m env server request).handle (request_catch env))
    m (request_reported_iff hr)
    ((unrecorded_request_try env server request).handle (unrecorded_request_catch env))

end

theorem tgctl_backup_estimate_reported_iff (flags : Flags) (env : Env) :
    Reported (tgctl_backup_estimate flags env) ↔ (flags.monitor ≠ "" →
      Taken env.database_name
        (outcome env.connect env.backup_estimate (.ok .backup_estimate))) := by
  rw [← monitored_iff]
  exact request_command_reported_iff throwsReasoned_ok _

theorem tgctl_restore_tag_reported_iff (flags : Flags) (env : Env) (tag_name : String) :
    Reported (tgctl_restore_tag flags env tag_name) ↔ (flags.monitor ≠ "" →
      Taken env.database_name (outcome env.connect env.restore_begin
        (.ok (.restore_begin (.tag_name tag_name) false "")))) := by
  rw [← monitored_iff]
  exact request_command_reported_iff throwsReasoned_ok _

/-- The prompt comes before the start record. -/
theorem confirmed_reported_iff {flags : Flags} {env : Env} {x : Cmd ReturnCode} {p : Prop}
    (h : Reported x ↔ p) :
    Reported (if !confirmed flags env then return .err else x) ↔ (confirmed flags env → p) := by
  cases confirmed flags env with
  | true => simpa using h
  | false => exact iff_of_true (reported_of_nil rfl) nofun

theorem tgctl_restore_backup_reported_iff (flags : Flags) (env : Env) (path : String) :
    Reported (tgctl_restore_backup flags env path) ↔ (confirmed flags env → flags.monitor ≠ "" →
      Taken env.database_name (outcome env.connect env.restore_begin
        (.ok (.restore_begin (.backup_directory path)
          (flags.keep_backup && flags._keep_backup) flags.label)))) := by
  rw [← monitored_iff]
  exact confirmed_reported_iff (request_command_reported_iff throwsReasoned_ok _)

theorem file_list_request_reasoned (flags : Flags) (env : Env) (path : String) (pt : Ptree) :
    ThrowsReasoned (file_list_request flags env path pt) := by
  intro e h code what he
  unfold file_list_request Ptree.for_each at h
  subst he
  cases hc : pt.get_child "entries" with
  | none =>
    rw [hc] at h
    cases h
  | some entries =>
    rw [hc] at h
    cases h

/-- The file list has been read, and what is thrown after that is caught. -/
def FileListTold (flags : Flags) (env : Env) (path : String) : Prop :=
  ∃ pt, env.file_list = some pt ∧
    Taken env.database_name
      (outcome env.connect env.restore_begin (file_list_request flags env path pt))

theorem file_list_reported_iff (flags : Flags) (env : Env) (path : String) (m : Bool) :
    Reported (framed m ((file_list_try flags m env path).handle (request_catch env))) ↔
      (m = true → FileListTold flags env path) := by
  unfold file_list_try FileListTold
  cases env.file_list with
  | none =>
    have htells : Tells (do finish true .absent; pure (.returns .err) : Cmd Flow) .absent .err :=
      tells_returns
    cases m with
    | true =>
      dsimp only
      rw [htells.handle.reported_iff]
      simp
    | false =>
      refine iff_of_true (unmonitored_reported ?_) nofun
      exact Blank.handle (Blank.bind Quiet.pure.blank fun _ => Quiet.pure.blank)
        (unrecorded_request_catch env)
  | some pt =>
    dsimp only
    rw [request_command_reported_iff (file_list_request_reasoned flags env path pt)]
    simp

theorem tgctl_restore_backup_use_file_list_reported_iff (flags : Flags) (env : Env)
    (path : String) :
    Reported (tgctl_restore_backup_use_file_list flags env path) ↔
      (confirmed flags env → flags.monitor ≠ "" → FileListTold flags env path) := by
  rw [← monitored_iff]
  exact confirmed_reported_iff (file_list_reported_iff flags env path _)

end tateyama_bootstrap.datastore
