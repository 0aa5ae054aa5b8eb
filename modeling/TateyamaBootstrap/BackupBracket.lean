-- The backup that `tgctl_backup_create` (datastore/backup.cpp) opens on the server with
-- BackupBegin and closes with BackupEnd. When the copying of a file throws, the command
-- leaves the backup open: its handlers send nothing.
import TateyamaBootstrap.BackupReports

namespace tateyama_bootstrap.datastore

open monitor_output server_calls Command

/-! ## The traffic of a command -/

/-- What a command does, less its records. -/
def Event.traffic? : Event → Option Event
  | .record _ => none
  | e => some e

abbrev Moves {α : Type} (x : Cmd α) (vs : List Event) (r : Except Error α) : Prop :=
  Command.Ends Event.traffic? x vs r

theorem moves_tell (m : Bool) (r : monitor_output.Record) : Moves (tell m r) [] (.ok ()) :=
  ends_unrecorded (fun _ => rfl) m r

theorem moves_framed (m : Bool) {x : Cmd Flow} {vs : List Event} {r : Except Error Flow}
    (h : Moves x vs r) : Moves (framed m x) vs (r.map Flow.rtnv) :=
  framed_unrecorded (fun _ => rfl) m h

theorem entries_traffic {T : Type} [Response T] (server : Server T) (request : Request) :
    (server.entries request).filterMap Event.traffic? = server.entries request := by
  unfold Server.entries
  cases (server.message request).isSome <;> cases server.acknowledges request <;> rfl

theorem moves_send {T : Type} [Response T] (server : Server T) (request : Request) :
    Moves (send server request) (server.entries request) (server.response request) := by
  have h := ends_send Event.traffic? server request
  rwa [entries_traffic] at h

/-! ## The copies -/

/-- The file system lets every file be copied, and be measured for a monitor. -/
def Copied (monitored : Bool) (env : Env) (files : List String) : Prop :=
  (monitored → Every (fun i => (env.file_size i).isSome) files.length 0) ∧
    Every (fun i => env.copy_file i ∧ (monitored → (env.copied_size i).isSome)) files.length 0

/-- The part copies the files, and `p` holds, or it throws after some copies. -/
def Copies {α : Type} (x : Cmd α) (files : List String) (p : Prop) : Prop :=
  p ∧ (∃ a, Moves x (files.map .copied) (.ok a)) ∨
  ¬ p ∧ ∃ vs e, (∀ v ∈ vs, ∃ file, v = .copied file) ∧ Moves x vs (.error e)

theorem Copies.after {α β : Type} {x : Cmd α} {f : α → Cmd β} {files files' : List String}
    {p q : Prop} (hx : Copies x files p) (hf : ∀ a, Copies (f a) files' q) :
    Copies (x >>= f) (files ++ files') (p ∧ q) := by
  rcases hx with ⟨hp, a, ha⟩ | ⟨hp, vs, e, hvs, he⟩
  · rcases hf a with ⟨hq, b, hb⟩ | ⟨hq, vs, e, hvs, he⟩
    · refine .inl ⟨⟨hp, hq⟩, b, ?_⟩
      rw [List.map_append]
      exact ha.bind hb
    · refine .inr ⟨fun h => hq h.2, files.map .copied ++ vs, e, ?_, ha.bind he⟩
      intro v hv
      rcases List.mem_append.mp hv with hv | hv
      · obtain ⟨file, -, rfl⟩ := List.mem_map.mp hv
        exact ⟨file, rfl⟩
      · exact hvs v hv
  · exact .inr ⟨fun h => hp h.1, vs, e, hvs, he.stop⟩

theorem Copies.congr {α : Type} {x : Cmd α} {files : List String} {p q : Prop}
    (h : Copies x files p) (hpq : p ↔ q) : Copies x files q := by
  rwa [← propext hpq]

theorem copies_pure {α : Type} (a : α) : Copies (pure a) [] True :=
  .inl ⟨trivial, a, Ends.pure⟩

theorem copies_size (size : Option Nat) : Copies (size_of size) [] size.isSome := by
  cases size with
  | none => exact .inr ⟨by simp, [], _, by simp, Ends.raise⟩
  | some n => exact .inl ⟨rfl, n, Ends.pure⟩

theorem copies_progress (m : Bool) (completed total : Nat) :
    Copies (tell_progress m completed total) [] True := by
  unfold tell_progress
  split
  · exact .inl ⟨trivial, (), moves_tell m _⟩
  · exact .inl ⟨trivial, (), moves_tell m _⟩

theorem copies_file (env : Env) (i : Nat) (file : String) :
    Copies (copy_file env i file) [file] (env.copy_file i) := by
  unfold copy_file
  cases env.copy_file i with
  | true => exact .inl ⟨rfl, (), Ends.write rfl⟩
  | false => exact .inr ⟨Bool.false_ne_true, [], _, by simp, Ends.raise⟩

theorem copies_sum_sizes (env : Env) (files : List String) (i total : Nat) :
    Copies (sum_sizes env files i total) []
      (Every (fun i => (env.file_size i).isSome) files.length i) := by
  induction files generalizing i total with
  | nil => exact (copies_pure total).congr (by simp [every_zero])
  | cons file files ih =>
    refine ((copies_size _).after fun size => ih (i + 1) (total + size)).congr ?_
    rw [List.length_cons, every_succ]

theorem copies_copy_files (m : Bool) (env : Env) (total : Nat) (files : List String)
    (i completed : Nat) :
    Copies (copy_files m env total files i completed) files
      (Every (fun i => env.copy_file i ∧ (m → (env.copied_size i).isSome)) files.length i) := by
  induction files generalizing i completed with
  | nil => exact (copies_pure ()).congr (by simp [every_zero])
  | cons file files ih =>
    rw [List.length_cons, every_succ]
    cases m with
    | true =>
      refine ((copies_file env i file).after fun _ => (copies_size _).after fun size =>
        (copies_progress true _ _).after fun _ => ih (i + 1) (completed + size)).congr ?_
      simp [and_assoc]
    | false =>
      refine ((copies_file env i file).after fun _ => ih (i + 1) completed).congr ?_
      simp

theorem copies_backup_files (m : Bool) (env : Env) (files : List String) :
    Copies (backup_files m env files) files (Copied m env files) := by
  unfold backup_files Copied
  cases m with
  | true =>
    refine ((copies_sum_sizes env files 0 0).after fun total =>
      copies_copy_files true env total files 0 0).congr ?_
    simp
  | false =>
    refine (copies_copy_files false env 0 files 0 0).congr ?_
    simp

/-! ## The bracket -/

/-- The requests and the copies of a command, in their order. -/
def Event.transfer? : Event → Option Event
  | .sent request => some (.sent request)
  | .copied file => some (.copied file)
  | _ => none

def transfers {α : Type} (x : Cmd α) : List Event := x.log.filterMap Event.transfer?

/-- BackupBegin succeeds with this id and these files. -/
def Begun (flags : Flags) (env : Env) (id : Nat) (files : List String) : Prop :=
  env.connect = .ok () ∧
    env.backup_begin.response (.backup_begin flags.label) = .ok (some (.success id files))

theorem begun_unique {flags : Flags} {env : Env} {id id' : Nat} {files files' : List String}
    (h : Begun flags env id files) (h' : Begun flags env id' files') :
    id = id' ∧ files = files' := by
  have heq := h.2.symm.trans h'.2
  simpa using heq

def Event.IsEnd (e : Event) : Prop := ∃ id, e = .sent (.backup_end id)

/-- The command returns `ok` only when every file has been copied between a BackupBegin and
a BackupEnd that have both succeeded; and a backup that has begun gets one BackupEnd. -/
structure Enclosed (flags : Flags) (env : Env) (x : Cmd ReturnCode) : Prop where
  whole : x.result = .ok .ok → ∃ id files, Begun flags env id files ∧
    transfers x = .sent (.backup_begin flags.label) :: files.map .copied ++
      [.sent (.backup_end id)] ∧
    env.backup_end.response (.backup_end id) = .ok (some .success)
  closed : ∀ id files, Begun flags env id files → ∃ before,
    transfers x = before ++ [.sent (.backup_end id)] ∧ ∀ e ∈ before, ¬ e.IsEnd

theorem transfers_of_moves {α : Type} {x : Cmd α} {vs : List Event} {r : Except Error α}
    (h : Moves x vs r) : transfers x = vs.filterMap Event.transfer? := by
  refine (h.coarser ?_).log
  intro w
  cases w <;> rfl

/-- A request that is not too long goes out. -/
theorem entries_transfer {T : Type} [Response T] {server : Server T} {request : Request}
    (h : (server.message request).isSome = true) :
    (server.entries request).filterMap Event.transfer? = [.sent request] := by
  unfold Server.entries
  rw [h]
  cases server.acknowledges request <;> rfl

section

variable {flags : Flags} {env : Env} {m : Bool}

/-- What the command makes of the end of its `try` block. -/
def caught : Except Error Flow → ReturnCode
  | .ok flow => flow.rtnv
  | .error _ => .err

theorem moves_caught {x : Cmd Flow} {vs : List Event} {r : Except Error Flow} (m : Bool)
    (h : Moves x vs r) :
    Moves (framed m (x.handle backup_create_catch)) vs (.ok (caught r)) := by
  cases r with
  | ok flow => exact moves_framed m h.handle_ok
  | error e =>
    have hcatch : ∃ rc, Moves (backup_create_catch e) [] (.ok (.goes_on .err rc)) := by
      cases e <;> exact ⟨_, Ends.pure⟩
    obtain ⟨rc, hcatch⟩ := hcatch
    have hx := h.handle_error hcatch
    rw [List.append_nil] at hx
    exact moves_framed m hx

/-- BackupEnd is sent, whatever comes back. -/
theorem moves_backup_finish (m : Bool) (env : Env) (id : Nat) :
    ∃ vs r, Moves (backup_finish m env id) vs r ∧
      vs.filterMap Event.transfer? = [.sent (.backup_end id)] ∧
      (caught r = .ok ↔ env.backup_end.response (.backup_end id) = .ok (some .success)) := by
  have hsend := moves_send env.backup_end (.backup_end id)
  have hvs := entries_transfer (env.backup_end_message id)
  cases hr : env.backup_end.response (.backup_end id) with
  | error e =>
    rw [hr] at hsend
    exact ⟨_, .error e, hsend.stop, hvs, by simp [caught]⟩
  | ok o =>
    rw [hr] at hsend
    rcases o with _ | t
    · exact ⟨_, .ok (.goes_on .err .payload_broken), hsend.before Ends.pure, hvs,
        by simp [caught, Flow.rtnv]⟩
    · cases t with
      | success =>
        exact ⟨_, .ok (.returns .ok), hsend.before ((moves_tell m _).after Ends.pure), hvs,
          by simp [caught, Flow.rtnv]⟩
      | unknown_error message =>
        exact ⟨_, .ok (.goes_on .err .server), hsend.before Ends.pure, hvs,
          by simp [caught, Flow.rtnv]⟩
      | expired | not_set =>
        exact ⟨_, .ok (.goes_on .err .payload_broken), hsend.before Ends.pure, hvs,
          by simp [caught, Flow.rtnv]⟩

/-- Without a success of BackupBegin there is nothing to close. -/
theorem create_not_begun (h : ∀ id files, ¬ Begun flags env id files) :
    (tgctl_backup_create flags env).result = .ok .err := by
  unfold tgctl_backup_create
  generalize (!flags.monitor.isEmpty) = m
  dsimp only
  have hend : ∀ {vs r}, Moves (backup_create_try flags m env) vs r → caught r = .err →
      (framed m ((backup_create_try flags m env).handle backup_create_catch)).result =
        .ok .err := by
    intro vs r hmoves herr
    rw [← herr]
    exact (moves_caught m hmoves).result
  unfold backup_create_try at hend ⊢
  cases hc : env.connect with
  | error e =>
    rw [hc] at hend
    exact hend (Ends.stop Ends.raise) rfl
  | ok _ =>
    rw [hc] at hend
    have hsend := moves_send env.backup_begin (.backup_begin flags.label)
    cases hb : env.backup_begin.response (.backup_begin flags.label) with
    | error e =>
      rw [hb] at hsend
      exact hend (Ends.pure.after hsend.stop) rfl
    | ok o =>
      rw [hb] at hsend
      rcases o with _ | t
      · exact hend (Ends.pure.after (hsend.before Ends.pure)) rfl
      · cases t with
        | success id files => exact absurd ⟨hc, hb⟩ (h id files)
        | unknown_error message => exact hend (Ends.pure.after (hsend.before Ends.pure)) rfl
        | not_set => exact hend (Ends.pure.after (hsend.before Ends.pure)) rfl

/-- The rest of the command after a success of BackupBegin. -/
theorem create_begun {id : Nat} {files : List String} (h : Begun flags env id files)
    {vs : List Event} {r : Except Error Flow}
    (hrest : Moves (do backup_files (!flags.monitor.isEmpty) env files
                       backup_finish (!flags.monitor.isEmpty) env id) vs r) :
    transfers (tgctl_backup_create flags env) =
      .sent (.backup_begin flags.label) :: vs.filterMap Event.transfer? ∧
    (tgctl_backup_create flags env).result = .ok (caught r) := by
  obtain ⟨hc, hb⟩ := h
  have hsend := moves_send env.backup_begin (.backup_begin flags.label)
  rw [hb] at hsend
  unfold tgctl_backup_create
  generalize (!flags.monitor.isEmpty) = m at hrest ⊢
  dsimp only
  have htry : Moves (backup_create_try flags m env)
      (env.backup_begin.entries (.backup_begin flags.label) ++ vs) r := by
    unfold backup_create_try
    rw [hc]
    exact Ends.pure.after (hsend.bind hrest)
  have hend := moves_caught m htry
  refine ⟨?_, hend.result⟩
  rw [transfers_of_moves hend, List.filterMap_append, entries_transfer (sent_of_response hb)]
  rfl

theorem transfer_copied {vs : List Event} (h : ∀ v ∈ vs, ∃ file, v = .copied file) :
    vs.filterMap Event.transfer? = vs := by
  induction vs with
  | nil => rfl
  | cons v vs ih =>
    obtain ⟨file, rfl⟩ := h v (by simp)
    have hrest := ih fun v hv => h v (by simp [hv])
    simp [Event.transfer?, hrest]

theorem enclosed_of_copied {id : Nat} {files : List String} (h : Begun flags env id files)
    (hcopied : Copied (!flags.monitor.isEmpty) env files) :
    Enclosed flags env (tgctl_backup_create flags env) := by
  rcases copies_backup_files (!flags.monitor.isEmpty) env files with ⟨-, u, hfiles⟩ | ⟨hno, -⟩
  · obtain ⟨vs, r, hfinish, hvs, hok⟩ := moves_backup_finish (!flags.monitor.isEmpty) env id
    obtain ⟨htransfers, hresult⟩ := create_begun h (hfiles.bind hfinish)
    rw [List.filterMap_append, hvs, transfer_copied (by simp)] at htransfers
    constructor
    · intro hr
      rw [hresult] at hr
      exact ⟨id, files, h, htransfers, hok.mp (Except.ok.inj hr)⟩
    · intro id' files' h'
      obtain ⟨rfl, rfl⟩ := begun_unique h h'
      refine ⟨.sent (.backup_begin flags.label) :: files.map .copied, htransfers, ?_⟩
      intro e he
      rcases List.mem_cons.mp he with rfl | he
      · rintro ⟨id, hid⟩
        cases hid
      · obtain ⟨file, -, rfl⟩ := List.mem_map.mp he
        rintro ⟨id, hid⟩
        cases hid
  · exact absurd hcopied hno

theorem not_enclosed_of_lost {id : Nat} {files : List String} (h : Begun flags env id files)
    (hcopied : ¬ Copied (!flags.monitor.isEmpty) env files) :
    (∃ copies, transfers (tgctl_backup_create flags env) =
      .sent (.backup_begin flags.label) :: copies ∧ ∀ e ∈ copies, ∃ file, e = .copied file) ∧
    ¬ Enclosed flags env (tgctl_backup_create flags env) := by
  rcases copies_backup_files (!flags.monitor.isEmpty) env files with ⟨hyes, -⟩ |
    ⟨-, vs, e, hvs, hfiles⟩
  · exact absurd hyes hcopied
  · obtain ⟨htransfers, -⟩ := create_begun h (Ends.stop hfiles)
    rw [transfer_copied hvs] at htransfers
    refine ⟨⟨vs, htransfers, hvs⟩, fun hclosed => ?_⟩
    obtain ⟨before, hbefore, -⟩ := hclosed.closed id files h
    have hmem : Event.sent (.backup_end id) ∈ .sent (.backup_begin flags.label) :: vs := by
      rw [← htransfers, hbefore]
      simp
    rcases List.mem_cons.mp hmem with hmem | hmem
    · cases hmem
    · obtain ⟨file, hfile⟩ := hvs _ hmem
      cases hfile

end

/-- A backup that has begun is closed, and is whole when the command returns `ok`, exactly
when the file system lets every file be copied. -/
theorem a_backup_is_closed_when_it_is_copied (flags : Flags) (env : Env) :
    Enclosed flags env (tgctl_backup_create flags env) ↔
      ∀ id files, Begun flags env id files → Copied (!flags.monitor.isEmpty) env files := by
  by_cases hbegun : ∃ id files, Begun flags env id files
  · obtain ⟨id, files, h⟩ := hbegun
    constructor
    · intro hclosed id' files' h'
      by_contra hno
      exact (not_enclosed_of_lost h' hno).2 hclosed
    · intro hcopied
      exact enclosed_of_copied h (hcopied id files h)
  · have hnone : ∀ id files, ¬ Begun flags env id files :=
      fun id files h => hbegun ⟨id, files, h⟩
    refine iff_of_true ⟨fun hr => ?_, fun id files h => absurd h (hnone id files)⟩
      (fun id files h => absurd h (hnone id files))
    rw [create_not_begun hnone] at hr
    cases hr

/-- A server that answers with these two bytes, which protobuf reads as `t`. -/
def answering {T : Type} (a b : UInt8) (t : T) : Server T where
  fw := ⟨1, 0⟩
  pb :=
    { serialize_header := transport.fewMessages.serialize_header
      serialize_request := fun _ _ request =>
        if request = .restore_begin (.tag_name "t") false "" then [170, 1, 3, 18, 1, 116] else []
      parse_header := transport.fewMessages.parse_header
      parse_record := transport.fewMessages.parse_record
      parse_response := fun bytes => if bytes = [a, b] then some t else none }
  header := ⟨0, 1, 2, 5⟩
  exchange := fun _ => .ok [2, 96, 2, 2, a, b]
  reasoned := nofun

/-- A datastore that grants everything, and a file list as it is read. -/
def granting (file_list : Option Ptree) : Env where
  connect := .ok ()
  connect_reasoned := nofun
  database_name := .ok ()
  backup_begin := answering 90 0 (.success 0 [])
  backup_end := answering 90 0 .success
  backup_end_message := fun _ => rfl
  backup_estimate := answering 90 0 (.success 0 0)
  restore_begin := answering 98 0 (.success 0)
  prompt := some true
  file_list := file_list
  bool_of := fun _ => none
  file_size := fun _ => none
  copied_size := fun _ => none
  copy_file := fun _ => true
  directory_exists := true
  is_directory := true
  owner_write := true

/-- Two files of the same name: the second copy finds the first in its place. -/
def colliding : Env :=
  { granting none with
    backup_begin := answering 90 0 (.success 7 ["a/f", "b/f"])
    copy_file := fun i => i = 0 }

def unmonitored : Flags := ⟨"", "", true, false, false, ""⟩

/-- The command gives up after the first copy, and the backup stays open on the server. -/
theorem a_failed_copy_leaves_the_backup_open :
    transfers (tgctl_backup_create unmonitored colliding) =
      [.sent (.backup_begin ""), .copied "a/f"] ∧
    Begun unmonitored colliding 7 ["a/f", "b/f"] ∧
    ¬ Enclosed unmonitored colliding (tgctl_backup_create unmonitored colliding) := by
  have hbegun : Begun unmonitored colliding 7 ["a/f", "b/f"] := ⟨rfl, rfl⟩
  refine ⟨by decide, hbegun, (not_enclosed_of_lost hbegun ?_).2⟩
  rintro ⟨-, hcopied⟩
  exact absurd (hcopied 1 (by omega) (by decide)).1 (by decide)

end tateyama_bootstrap.datastore
