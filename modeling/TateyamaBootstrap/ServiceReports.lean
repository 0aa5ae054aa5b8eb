-- What the commands of the services return, what they tell the monitor and what the server
-- reported: the three agree except where the altimeter succeeds, where the options of a
-- shutdown clash, where a metrics format is found unknown after the server has answered, and
-- where an exception passes the handler.
import TateyamaBootstrap.ServiceCommands

namespace tateyama_bootstrap.services

open monitor_output server_calls json Command

/-! ## What is to hold -/

/-- The server has reported success. -/
def Acknowledged (x : Cmd ReturnCode) : Prop := ∃ request, Event.acknowledged request ∈ x.log

/-- One start record and then one finish record are written; the finish record says success,
and the server has reported success, exactly when the command returns `ok`. -/
def ReportsTruthfully (x : Cmd ReturnCode) : Prop :=
  Truthful x ∧ (Acknowledged x ↔ x.result = .ok .ok)

/-! ## Exceptions -/

/-- An exception of another class than `runtime_error`. -/
def Foreign (e : Error) : Prop := ∀ code what, e ≠ .runtime_error code what

theorem Foreign.reasoned {e : Error} (h : Foreign e) : Reasoned e :=
  fun code what he => absurd he (h code what)

/-- The three ways in which `stol` and `stoul` end. -/
theorem converted_foreign {α : Type} {p q : Prop} [Decidable p] [Decidable q] {a : α} {e : Error}
    {name : String}
    (h : (if p then .error (.exception name) else if q then .error .out_of_range else .ok a :
      Except Error α) = .error e) : Foreign e := by
  intro code what hcode
  subst hcode
  split at h
  · cases h
  · split at h <;> cases h

theorem stol_foreign {str : Text} {e : Error} (h : stol str = .error e) : Foreign e := by
  unfold stol at h
  dsimp only at h
  rw [← ite_not (_ ∧ _)] at h
  exact converted_foreign h

theorem stoul_foreign {str : Text} {e : Error} (h : stoul str = .error e) : Foreign e :=
  converted_foreign h

/-! ## What counts of a log -/

/-- A record, or the report of a success by the server. -/
inductive Step
  | told (r : monitor_output.Record)
  | acknowledged
deriving DecidableEq

def trace? : Event → Option Step
  | .record r => some (.told r)
  | .acknowledged _ => some .acknowledged
  | _ => none

def Step.record? : Step → Option monitor_output.Record
  | .told r => some r
  | .acknowledged => none

theorem record_eq_bind (w : Event) :
    (Monitored.record? w : Option monitor_output.Record) = (trace? w).bind Step.record? := by
  cases w <;> rfl

theorem acknowledged_iff {x : Cmd ReturnCode} :
    Acknowledged x ↔ Step.acknowledged ∈ x.log.filterMap trace? := by
  rw [List.mem_filterMap]
  constructor
  · rintro ⟨request, hmem⟩
    exact ⟨_, hmem, rfl⟩
  · rintro ⟨w, hmem, hw⟩
    cases w with
    | acknowledged request => exact ⟨request, hmem⟩
    | record | data | out | sent => cases hw

theorem ends_tell_trace (r : monitor_output.Record) :
    Command.Ends trace? (tell true r : Cmd Unit) [.told r] (.ok ()) :=
  Ends.write rfl

/-- A command that the server has or has not confirmed, and that told the monitor. -/
theorem reports_iff {x : Cmd ReturnCode} {ss : List Step} {rc : Reason} {rtnv : ReturnCode}
    (h : Command.Ends trace? x (Step.told .start :: ss ++ [Step.told (.finish rc)]) (.ok rtnv))
    (hs : ss.filterMap Step.record? = []) :
    ReportsTruthfully x ↔
      (rc = .absent ↔ rtnv = .ok) ∧ (Step.acknowledged ∈ ss ↔ rtnv = .ok) := by
  have hrecords : monitor_output.Ends x (.start :: [] ++ [.finish rc]) (.ok rtnv) := by
    have hcoarser := h.coarser record_eq_bind
    rw [List.filterMap_append, List.filterMap_cons, hs] at hcoarser
    exact hcoarser
  have hack : Acknowledged x ↔ Step.acknowledged ∈ ss := by
    rw [acknowledged_iff, h.log]
    simp
  unfold ReportsTruthfully
  rw [truthful_iff hrecords (by simp), hack, h.result]
  simp

theorem not_reports_of_error {x : Cmd ReturnCode} {ss : List Step} {e : Error}
    (h : Command.Ends trace? x ss (.error e)) : ¬ ReportsTruthfully x := by
  rintro ⟨htruth, -⟩
  exact not_truthful_of_error (h.coarser record_eq_bind) htruth

/-! ## A request and its response -/

section

variable {T : Type} [Response T]

/-- The report of a success is in the log. -/
def acks (o : Except Error (Option T)) : List Step :=
  match o with
  | .ok (some t) => if Response.success t then [.acknowledged] else []
  | _ => []

theorem mem_acks {o : Except Error (Option T)} : Step.acknowledged ∈ acks o ↔ Succeeded o := by
  unfold acks Succeeded
  cases o with
  | error e => simp
  | ok response =>
    cases response with
    | none => simp
    | some t => cases ht : Response.success t <;> simp [ht]

theorem acks_records (o : Except Error (Option T)) : (acks o).filterMap Step.record? = [] := by
  unfold acks
  split
  · split <;> rfl
  · rfl

theorem acks_of_succeeded {o : Except Error (Option T)} (h : Succeeded o) :
    acks o = [.acknowledged] := by
  obtain ⟨t, rfl, hsuccess⟩ := h
  simp [acks, hsuccess]

theorem acks_of_not {o : Except Error (Option T)} (h : ¬ Succeeded o) : acks o = [] := by
  unfold acks
  split
  · rename_i t
    rw [if_neg fun hsuccess => h ⟨t, rfl, hsuccess⟩]
  · rfl

theorem entries_acks (server : Server T) (request : Request) :
    (server.entries request).filterMap trace? = acks (server.response request) := by
  have hs : Routed.service request ≠ .datastore := by
    cases request <;> exact nofun
  unfold server_calls.Server.entries
  cases hack : server.acknowledges request with
  | true =>
    rw [acks_of_succeeded ((acknowledges_iff hs).mp hack)]
    cases (server.message request).isSome <;> rfl
  | false =>
    have hnot : ¬ Succeeded (server.response request) := by
      rw [← acknowledges_iff hs, hack]
      exact Bool.false_ne_true
    rw [acks_of_not hnot]
    cases (server.message request).isSome <;> rfl

/-- A call shows the report of a success. -/
theorem ends_ask_acks (connect : Except Error Unit) (server : Server T)
    (request : Except Error Request) :
    Command.Ends trace? (ask connect server request) (acks (outcome connect server request))
      (outcome connect server request) := by
  have h := ends_ask trace? connect server request
  have hasked : (asked connect server request).filterMap trace? =
      acks (outcome connect server request) := by
    rcases connect with e | _
    · rfl
    rcases request with e | r
    · rfl
    · exact entries_acks server r
  rwa [hasked] at h

end

/-! ## From the response to the end -/

/-- The part after the response returns with a finish record, or leaves it to the common end. -/
def Closes (x : Cmd Flow) (rc : Reason) (rtnv : ReturnCode) : Prop :=
  Command.Ends trace? x [] (.ok (.goes_on rtnv rc)) ∨
    Command.Ends trace? x [.told (.finish rc)] (.ok (.returns rtnv))

theorem closes_goes_on {rc : Reason} {rtnv : ReturnCode} :
    Closes (pure (.goes_on rtnv rc)) rc rtnv :=
  .inl Ends.pure

theorem closes_succeeds : Closes (succeeds true) .absent .ok :=
  .inr ((ends_tell_trace _).bind Ends.pure)

/-- After a part that shows nothing. -/
theorem closes_after {α : Type} {y : Cmd α} {f : α → Cmd Flow} {a : α} {rc : Reason}
    {rtnv : ReturnCode} (hy : Command.Ends trace? y [] (.ok a)) (h : Closes (f a) rc rtnv) :
    Closes (y >>= f) rc rtnv :=
  h.imp hy.after hy.after

theorem ends_out (text : Text) : Command.Ends trace? (out text) [] (.ok ()) := Ends.unseen rfl

theorem ends_data (call : Call) : Command.Ends trace? (data true call) [] (.ok ()) :=
  Ends.unseen rfl

theorem ends_out_if (shown : Bool) (text : Text) :
    Command.Ends trace? (out_if shown text) [] (.ok ()) := by
  cases shown with
  | true => exact ends_out text
  | false => exact Ends.pure

section

variable {T : Type} [Response T] {y : Cmd (Option T)} {o : Except Error (Option T)}
variable {k : Option T → Cmd Flow} {message : Except Error Unit}

/-- There is a response. -/
theorem answered_iff {response : Option T} {rc : Reason} {rtnv : ReturnCode}
    (hy : Command.Ends trace? y (acks o) o) (ho : o = .ok response)
    (hk : Closes (k response) rc rtnv) :
    ReportsTruthfully (framed true ((y >>= k).handle (catch_runtime_error message))) ↔
      (rc = .absent ↔ rtnv = .ok) ∧ (Succeeded o ↔ rtnv = .ok) := by
  have hstart : Command.Ends trace? (start true : Cmd Unit) [.told .start] (.ok ()) :=
    ends_tell_trace _
  have hframed : Command.Ends trace?
      (framed true ((y >>= k).handle (catch_runtime_error message)))
      (Step.told .start :: acks o ++ [Step.told (.finish rc)]) (.ok rtnv) := by
    rw [ho] at hy ⊢
    rcases hk with hk | hk
    · exact hstart.bind ((hy.before hk).handle_ok.bind ((ends_tell_trace _).bind Ends.pure))
    · exact hstart.bind ((hy.bind hk).handle_ok.before Ends.pure)
  rw [reports_iff hframed (acks_records o), mem_acks]

/-- An exception that the handler does not take. -/
theorem escaped {ss : List Step} {e e' : Error} {x : Cmd Flow}
    (hx : Command.Ends trace? x ss (.error e))
    (hc : Command.Ends trace? (catch_runtime_error message e) [] (.error e')) :
    ¬ ReportsTruthfully (framed true (x.handle (catch_runtime_error message))) := by
  have hstart : Command.Ends trace? (start true : Cmd Unit) [.told .start] (.ok ()) :=
    ends_tell_trace _
  exact not_reports_of_error (hstart.bind (hx.handle_error hc).stop)

/-- There is an exception instead. -/
theorem thrown_iff {e : Error} (hy : Command.Ends trace? y (acks o) o) (ho : o = .error e)
    (hr : Reasoned e) :
    ReportsTruthfully (framed true ((y >>= k).handle (catch_runtime_error message))) ↔
      Taken message o := by
  subst ho
  have hx : Command.Ends trace? (y >>= k) [] (.error e) := Ends.stop hy
  cases e with
  | runtime_error code what =>
    cases message with
    | error e' =>
      refine iff_of_false (escaped hx (Ends.stop Ends.raise)) ?_
      intro htaken
      cases (htaken _ rfl).2
    | ok _ =>
      have hbody : Command.Ends trace? ((y >>= k).handle (catch_runtime_error (.ok ()))) []
          (.ok (.goes_on .err code)) := hx.handle_error (Ends.pure.after Ends.pure)
      have hframed : Command.Ends trace?
          (framed true ((y >>= k).handle (catch_runtime_error (.ok ()))))
          (Step.told .start :: [] ++ [Step.told (.finish code)]) (.ok .err) :=
        (ends_tell_trace .start).bind (hbody.bind ((ends_tell_trace _).bind Ends.pure))
      refine iff_of_true ?_ ?_
      · rw [reports_iff hframed rfl]
        simp [hr code what rfl]
      · intro e he
        cases he
        exact ⟨⟨code, what, rfl⟩, rfl⟩
  | out_of_range | exception =>
    refine iff_of_false (escaped hx Ends.raise) ?_
    intro htaken
    obtain ⟨⟨_, _, he⟩, -⟩ := htaken _ rfl
    cases he

end

/-- A command that closes whatever the response is. -/
theorem closed_iff {T : Type} [Response T] {y : Cmd (Option T)} {o : Except Error (Option T)}
    {k : Option T → Cmd Flow} {message : Except Error Unit} {p : Option T → Prop}
    (hy : Command.Ends trace? y (acks o) o) (hr : ThrowsReasoned o)
    (hk : ∀ response, ∃ rc rtnv, Closes (k response) rc rtnv ∧
      ((rc = .absent ↔ rtnv = .ok) ∧
        (Succeeded (.ok response : Except Error (Option T)) ↔ rtnv = .ok) ↔ p response)) :
    ReportsTruthfully (framed true ((y >>= k).handle (catch_runtime_error message))) ↔
      Taken message o ∧ ∀ response, o = .ok response → p response := by
  cases ho : o with
  | error e =>
    rw [thrown_iff hy ho (hr e ho), ho]
    exact (and_iff_left nofun).symm
  | ok response =>
    obtain ⟨rc, rtnv, hcloses, hgood⟩ := hk response
    rw [answered_iff hy ho hcloses, ho, hgood]
    constructor
    · intro hp
      refine ⟨nofun, ?_⟩
      intro response' he
      cases he
      exact hp
    · exact fun h => h.2 response rfl

/-! ## Commands that judge a result -/

theorem Foreign.passes {e : Error} (h : Foreign e) (message : Except Error Unit) :
    Command.Ends trace? (catch_runtime_error message e) [] (.error e) := by
  cases e with
  | runtime_error code what => exact absurd rfl (h code what)
  | out_of_range | exception => exact Ends.raise

section

variable {α : Type} {y : Cmd (Option (Result α))} {o : Except Error (Option (Result α))}
variable {succeed : α → Cmd Flow} {message : Except Error Unit}

/-- What a command does with a success counts, as far as there is one. -/
theorem judged_iff_of {p : Prop} (hy : Command.Ends trace? y (acks o) o)
    (hr : ThrowsReasoned o)
    (hsucceed : ∀ a, o = .ok (some (.success a)) →
      p ∧ Closes (succeed a) .absent .ok ∨
      ¬ p ∧ ∃ e, Foreign e ∧ Command.Ends trace? (succeed a) [] (.error e))
    (hp : (∀ a, o ≠ .ok (some (.success a))) → p) :
    ReportsTruthfully (framed true
      ((y >>= fun response => judge response succeed).handle (catch_runtime_error message))) ↔
      Taken message o ∧ p := by
  have hrefused : ∀ {response : Option (Result α)} {rc : Reason}, o = .ok response →
      rc ≠ .absent → ¬ Succeeded o → Closes (judge response succeed) rc .err →
      (ReportsTruthfully (framed true
        ((y >>= fun response => judge response succeed).handle
          (catch_runtime_error message))) ↔ Taken message o ∧ p) := by
    intro response rc ho hrc hnot hk
    rw [answered_iff hy ho hk]
    refine iff_of_true (by simp [hrc, hnot]) ⟨?_, hp ?_⟩
    · rw [ho]
      exact nofun
    · rintro a rfl
      exact hnot ⟨_, rfl, rfl⟩
  cases ho : o with
  | error e =>
    have hnone : p := hp (by
      rw [ho]
      exact nofun)
    rw [← ho, thrown_iff hy ho (hr e ho)]
    exact (and_iff_left hnone).symm
  | ok response =>
    rw [← ho]
    rcases response with _ | (a | message' | _)
    · exact hrefused ho (by decide) (by simp [ho, Succeeded]) closes_goes_on
    · rcases hsucceed a ho with ⟨hpos, hcloses⟩ | ⟨hneg, e, hforeign, hraises⟩
      · rw [answered_iff hy ho hcloses]
        refine iff_of_true ⟨by simp, ?_⟩ ⟨?_, hpos⟩
        · exact iff_of_true ⟨_, ho, rfl⟩ rfl
        · rw [ho]
          exact nofun
      · refine iff_of_false ?_ fun h => hneg h.2
        rw [ho] at hy
        exact escaped (hy.bind hraises) (hforeign.passes message)
    · exact hrefused ho (by decide) (by simp [ho, Succeeded, Response.success]) closes_goes_on
    · exact hrefused ho (by decide) (by simp [ho, Succeeded, Response.success]) closes_goes_on

theorem judged_iff (hy : Command.Ends trace? y (acks o) o) (hr : ThrowsReasoned o)
    (hsucceed : ∀ a, Closes (succeed a) .absent .ok) :
    ReportsTruthfully (framed true
      ((y >>= fun response => judge response succeed).handle (catch_runtime_error message))) ↔
      Taken message o := by
  refine (judged_iff_of (p := True) hy hr ?_ fun _ => trivial).trans (and_iff_left trivial)
  exact fun a _ => .inl ⟨trivial, hsucceed a⟩

end

/-! ## session -/

theorem session_number_foreign {entry : SessionInfo} {e : Error}
    (h : session_number entry = .error e) : Foreign e := by
  unfold session_number substr_1 at h
  split at h
  · cases h
    exact nofun
  · rename_i rest _
    cases hs : stol rest with
    | error e' =>
      simp only [Bind.bind, Except.bind, hs] at h
      cases h
      exact stol_foreign hs
    | ok n =>
      simp only [Bind.bind, Except.bind, hs] at h
      cases h

/-- The loop runs through, or a session id has no number. -/
theorem list_sessions_ends (flags : Flags) (env : Env) (entries rest : List SessionInfo)
    (output : List (Nat × Text)) :
    ((∀ e ∈ rest, (session_number e).isOk) ∧
      ∃ lines, Command.Ends trace? (list_sessions flags true env entries rest output) []
        (.ok lines)) ∨
    (¬ (∀ e ∈ rest, (session_number e).isOk) ∧
      ∃ e, Foreign e ∧ Command.Ends trace? (list_sessions flags true env entries rest output) []
        (.error e)) := by
  induction rest generalizing output with
  | nil => exact .inl ⟨by simp, output, Ends.pure⟩
  | cons entry rest ih =>
    unfold list_sessions
    cases hn : session_number entry with
    | error e =>
      refine .inr ⟨?_, e, session_number_foreign hn, Ends.stop Ends.raise⟩
      intro h
      have := h entry List.mem_cons_self
      rw [hn] at this
      cases this
    | ok number =>
      rcases ih (emplace number (session_line flags env entries entry) output) with
        ⟨hall, lines, hends⟩ | ⟨hnot, e, hforeign, hends⟩
      · refine .inl ⟨?_, lines, Ends.pure.after ((ends_data _).after hends)⟩
        intro e he
        rcases List.mem_cons.mp he with rfl | he
        · rw [hn]
          rfl
        · exact hall e he
      · refine .inr ⟨?_, e, hforeign, Ends.pure.after ((ends_data _).after hends)⟩
        exact fun h => hnot fun e he => h e (List.mem_cons_of_mem _ he)

section

variable {flags : Flags} (env : Env)

/-- What a request that is there throws has a reason. -/
theorem Env.reasoned {T : Type} (server : Server T) (request : Request) :
    ThrowsReasoned (outcome env.connect server (.ok request)) :=
  outcome_reasoned env.connect_reasoned throwsReasoned_ok

/-- The monitor is there. -/
theorem monitored (h : flags.monitor ≠ "") : (!flags.monitor.isEmpty) = true := by
  simpa using h

theorem session_list_reports_iff (h : flags.monitor ≠ "") :
    ReportsTruthfully (session_list flags env) ↔
      Taken (.ok ()) (outcome env.connect env.session_list (.ok .session_list)) ∧
      ∀ entries,
        outcome env.connect env.session_list (.ok .session_list) = .ok (some (.success entries)) →
        ∀ e ∈ entries, (session_number e).isOk := by
  unfold session_list
  rw [monitored h]
  refine judged_iff_of (ends_ask_acks ..) (env.reasoned _ _) ?_ ?_
  · intro entries ho
    rcases list_sessions_ends flags env entries entries [] with
      ⟨hall, lines, hends⟩ | ⟨hnot, e, hforeign, hends⟩
    · refine .inl ⟨?_, ?_⟩
      · intro entries' ho'
        rw [ho] at ho'
        cases ho'
        exact hall
      · exact closes_after (ends_out_if _ _)
          (closes_after hends (closes_after (ends_out _) closes_succeeds))
    · refine .inr ⟨fun hall => hnot (hall entries ho), e, hforeign, ?_⟩
      exact (ends_out_if _ _).after hends.stop
  · intro hnone entries ho
    exact absurd ho (hnone entries)

theorem session_show_reports_iff (h : flags.monitor ≠ "") (session_ref : Text) :
    ReportsTruthfully (session_show flags env session_ref) ↔
      Taken (.ok ()) (outcome env.connect env.session_get (.ok (.session_get session_ref))) := by
  unfold session_show
  rw [monitored h]
  refine judged_iff (ends_ask_acks ..) (env.reasoned _ _) fun e => ?_
  exact closes_after (ends_out _) (closes_after (ends_data _) closes_succeeds)

theorem session_swtch_reports_iff (h : flags.monitor ≠ "")
    (session_ref set_key set_value : Text) (set : Bool) :
    ReportsTruthfully (session_swtch flags env session_ref set_key set_value set) ↔
      Taken (.ok ()) (outcome env.connect env.session_set_variable
        (.ok (.session_set_variable session_ref set_key
          (if set then some set_value else none)))) := by
  unfold session_swtch
  rw [monitored h]
  exact judged_iff (ends_ask_acks ..) (env.reasoned _ _)
    fun _ => closes_succeeds

/-- Where the options clash, the command fails and tells the monitor of a success. -/
theorem session_shutdown_reports_iff (h : flags.monitor ≠ "") (session_ref : Text) :
    ReportsTruthfully (session_shutdown flags env session_ref) ↔
      ¬ (flags.graceful ∧ flags.forceful) ∧
      Taken (.ok ()) (outcome env.connect env.session_shutdown
        (.ok (.session_shutdown session_ref (shutdown_type flags)))) := by
  unfold session_shutdown
  rw [monitored h]
  dsimp only
  by_cases hclash : flags.graceful ∧ flags.forceful
  · rw [if_pos (by simpa using hclash)]
    have hends : Command.Ends trace? (framed true (return .goes_on .err .absent) : Cmd ReturnCode)
        (Step.told .start :: [] ++ [Step.told (.finish .absent)]) (.ok .err) :=
      (ends_tell_trace .start).bind (Ends.pure.after ((ends_tell_trace _).bind Ends.pure))
    rw [reports_iff hends rfl]
    simp [hclash]
  · rw [if_neg (by simpa using hclash), and_iff_right hclash]
    exact judged_iff (ends_ask_acks ..) (env.reasoned _ _)
      fun _ => closes_succeeds

/-! ## request -/

theorem list_requests_ends (requests : List RequestInfo) :
    Command.Ends trace? (list_requests flags true env requests) [] (.ok ()) := by
  induction requests with
  | nil => exact Ends.pure
  | cons e rest ih => exact (ends_out_if _ _).after ((ends_data _).after ih)

theorem request_list_reports_iff (h : flags.monitor ≠ "") :
    ReportsTruthfully (request_list flags env) ↔
      Taken env.database_name (outcome env.connect env.list_request (.ok .list_request)) := by
  unfold request_list
  rw [monitored h]
  refine judged_iff (ends_ask_acks ..) (env.reasoned _ _) fun _ => ?_
  exact closes_after (ends_out_if _ _)
    (closes_after (list_requests_ends env _) closes_succeeds)

theorem request_payload_reports_iff (h : flags.monitor ≠ "") (session_id request_id : Nat) :
    ReportsTruthfully (request_payload flags env session_id request_id) ↔
      Taken env.database_name
        (outcome env.connect env.get_payload (.ok (.get_payload session_id request_id))) := by
  unfold request_payload
  rw [monitored h]
  refine judged_iff (ends_ask_acks ..) (env.reasoned _ _) fun _ => ?_
  exact closes_after (ends_out_if _ _) (closes_after (ends_data _) closes_succeeds)

/-- The way to the response of the SQL service: the payload is decoded first. -/
def statement_outcome (env : Env) (session_id : Nat) (payload : Text) :
    Except Error (Option SqlResponse) := do
  let payload ← decoded env payload
  outcome env.connect env.sql (.ok (.extract_statement_info session_id payload))

theorem ends_ask_statement_info (session_id : Nat) (payload : Text) :
    Command.Ends trace? (ask_statement_info env session_id payload)
      (acks (statement_outcome env session_id payload))
      (statement_outcome env session_id payload) := by
  unfold ask_statement_info statement_outcome
  cases decoded env payload with
  | error e => exact Ends.stop Ends.raise
  | ok payload => exact Ends.pure.after (ends_ask_acks ..)

theorem decoded_reasoned (payload : Text) : ThrowsReasoned (decoded env payload) := by
  intro e h
  unfold decoded at h
  split at h
  · cases h
  · cases h
    exact nofun

theorem statement_outcome_reasoned (session_id : Nat) (payload : Text) :
    ThrowsReasoned (statement_outcome env session_id payload) :=
  (decoded_reasoned env payload).bind fun _ => env.reasoned _ _

theorem request_extract_sql_reports_iff (h : flags.monitor ≠ "") (session_id : Nat)
    (payload : Text) :
    ReportsTruthfully (request_extract_sql flags env session_id payload) ↔
      Taken env.database_name (statement_outcome env session_id payload) := by
  unfold request_extract_sql
  rw [monitored h]
  refine (closed_iff (p := fun _ => True) (ends_ask_statement_info env session_id payload)
    (statement_outcome_reasoned env session_id payload) ?_).trans (and_iff_left fun _ _ => trivial)
  intro response
  rcases response with _ | ((info | message | _) | _)
  · exact ⟨_, _, closes_goes_on, by simp [Succeeded]⟩
  · exact ⟨_, _, closes_after (ends_out_if _ _) (closes_after (ends_data _) closes_succeeds),
      by simp [Succeeded, Response.success]⟩
  · exact ⟨_, _, closes_goes_on, by simp [Succeeded, Response.success]⟩
  · exact ⟨_, _, closes_goes_on, by simp [Succeeded, Response.success]⟩
  · exact ⟨_, _, closes_goes_on, by simp [Succeeded, Response.success]⟩

/-! ## metrics -/

/-- A metrics command that prints in the formats of `p`. -/
theorem metrics_reports_iff {request : Request} {k : Option MetricsInformation → Cmd Flow}
    {p : Prop} (hnone : Closes (k none) .payload_broken .err)
    (hsome : ∀ info, p ∧ Closes (k (some info)) .absent .ok ∨
      ¬ p ∧ Closes (k (some info)) .invalid_argument .err) :
    ReportsTruthfully (framed true
      ((ask env.connect env.metrics_information (.ok request) >>= k).handle
        (service_catch env))) ↔
      Taken env.database_name (outcome env.connect env.metrics_information (.ok request)) ∧
      (Succeeded (outcome env.connect env.metrics_information (.ok request)) → p) := by
  refine (closed_iff (p := fun response => response.isSome → p) (ends_ask_acks ..)
    (env.reasoned _ _) ?_).trans (and_congr_right fun _ => ?_)
  · rintro (_ | info)
    · exact ⟨_, _, hnone, by simp [Succeeded]⟩
    · rcases hsome info with ⟨hp, hcloses⟩ | ⟨hp, hcloses⟩
      · exact ⟨_, _, hcloses, by simp [Succeeded, Response.success, hp]⟩
      · exact ⟨_, _, hcloses, by simp [Succeeded, Response.success, hp]⟩
  · constructor
    · rintro hall ⟨info, ho, -⟩
      exact hall _ ho rfl
    · intro hsucceeded response ho hresponse
      obtain ⟨info, rfl⟩ := Option.isSome_iff_exists.mp hresponse
      exact hsucceeded ⟨info, ho, rfl⟩

theorem metrics_list_reports_iff (h : flags.monitor ≠ "") :
    ReportsTruthfully (metrics_list flags env) ↔
      Taken env.database_name (outcome env.connect env.metrics_information (.ok .metrics_list)) ∧
      (Succeeded (outcome env.connect env.metrics_information (.ok .metrics_list)) →
        flags.format = "json" ∨ flags.format = "text") := by
  unfold metrics_list
  rw [monitored h]
  refine metrics_reports_iff env closes_goes_on fun info => ?_
  dsimp only
  by_cases hjson : flags.format = "json"
  · rw [if_pos hjson]
    exact .inl ⟨.inl hjson, closes_after (ends_out _) closes_succeeds⟩
  rw [if_neg hjson]
  by_cases htext : flags.format = "text"
  · rw [if_pos htext]
    exact .inl ⟨.inr htext, closes_after (ends_out _) closes_succeeds⟩
  · rw [if_neg htext]
    exact .inr ⟨by simp [hjson, htext], closes_goes_on⟩

theorem metrics_show_reports_iff (h : flags.monitor ≠ "") :
    ReportsTruthfully (metrics_show flags env) ↔
      Taken env.database_name (outcome env.connect env.metrics_information (.ok .metrics_show)) ∧
      (Succeeded (outcome env.connect env.metrics_information (.ok .metrics_show)) →
        flags.format = "json") := by
  unfold metrics_show
  rw [monitored h]
  refine metrics_reports_iff env closes_goes_on fun info => ?_
  dsimp only
  by_cases hjson : flags.format = "json"
  · rw [if_pos hjson]
    exact .inl ⟨hjson, closes_after (ends_out _) closes_succeeds⟩
  · rw [if_neg hjson]
    exact .inr ⟨hjson, closes_goes_on⟩

/-! ## altimeter -/

/-- A success of the altimeter is returned as a failure. -/
theorem altimeter_reports_iff (h : flags.monitor ≠ "") {server : Server (Result Unit)}
    {request : Except Error Request} (hr : ThrowsReasoned request) :
    ReportsTruthfully (altimeter_command flags env server request) ↔
      Taken env.database_name (outcome env.connect server request) ∧
      ¬ Succeeded (outcome env.connect server request) := by
  unfold altimeter_command
  rw [monitored h]
  refine (closed_iff (p := fun response => ¬ Succeeded (.ok response)) (ends_ask_acks ..)
    (outcome_reasoned env.connect_reasoned hr) ?_).trans (and_congr_right fun _ => ?_)
  · intro response
    have hcloses : Closes (pure (altimeter_flow (post_processing response)))
        (post_processing response) .err := by
      unfold altimeter_flow
      rw [ite_self]
      exact closes_goes_on
    refine ⟨_, _, hcloses, ?_⟩
    rcases response with _ | (_ | message | _) <;>
      simp [post_processing, Succeeded, Response.success]
  · constructor
    · rintro hall ⟨t, ho, ht⟩
      exact hall _ ho ⟨t, rfl, ht⟩
    · rintro hnot response ho ⟨t, ht, hsuccess⟩
      exact hnot ⟨t, ho.trans ht, hsuccess⟩

theorem log_category_reasoned (type what : String) : ThrowsReasoned (log_category type what) := by
  intro e h
  unfold log_category at h
  split at h
  · cases h
  split at h
  · cases h
  · cases h
    intro code what hcode
    cases hcode
    decide

theorem set_enabled_reasoned (type : String) (enabled : Bool) :
    ThrowsReasoned (set_enabled_request type enabled) :=
  (log_category_reasoned _ _).bind fun _ => throwsReasoned_ok

theorem stoul_reasoned (str : Text) : ThrowsReasoned (stoul str) :=
  fun _ h => (stoul_foreign h).reasoned

theorem set_log_level_reasoned (type : String) (level : Text) :
    ThrowsReasoned (set_log_level_request type level) :=
  (stoul_reasoned level).bind fun _ =>
    (log_category_reasoned _ _).bind fun _ => throwsReasoned_ok

theorem set_statement_duration_reasoned (value : Text) :
    ThrowsReasoned (set_statement_duration_request value) :=
  (stoul_reasoned value).bind fun _ => throwsReasoned_ok

theorem rotate_reasoned (type : String) : ThrowsReasoned (rotate_request type) :=
  (log_category_reasoned _ _).bind fun _ => throwsReasoned_ok

end

/-! ## All the commands -/

/-- Where a command reports the truth: no exception passes its handler, a session list has
session ids with a number, the options of a shutdown do not clash, a metrics command that gets
its response has a format for it, and the altimeter does not succeed. -/
def Reportable (flags : Flags) (env : Env) : Invocation → Prop
  | .session_list =>
    Taken (.ok ()) (outcome env.connect env.session_list (.ok .session_list)) ∧
    ∀ entries,
      outcome env.connect env.session_list (.ok .session_list) = .ok (some (.success entries)) →
      ∀ e ∈ entries, (session_number e).isOk
  | .session_show session_ref =>
    Taken (.ok ()) (outcome env.connect env.session_get (.ok (.session_get session_ref)))
  | .session_shutdown session_ref =>
    ¬ (flags.graceful ∧ flags.forceful) ∧
    Taken (.ok ()) (outcome env.connect env.session_shutdown
      (.ok (.session_shutdown session_ref (shutdown_type flags))))
  | .session_swtch session_ref set_key set_value set =>
    Taken (.ok ()) (outcome env.connect env.session_set_variable
      (.ok (.session_set_variable session_ref set_key (if set then some set_value else none))))
  | .metrics_list =>
    Taken env.database_name (outcome env.connect env.metrics_information (.ok .metrics_list)) ∧
    (Succeeded (outcome env.connect env.metrics_information (.ok .metrics_list)) →
      flags.format = "json" ∨ flags.format = "text")
  | .metrics_show =>
    Taken env.database_name (outcome env.connect env.metrics_information (.ok .metrics_show)) ∧
    (Succeeded (outcome env.connect env.metrics_information (.ok .metrics_show)) →
      flags.format = "json")
  | .request_list =>
    Taken env.database_name (outcome env.connect env.list_request (.ok .list_request))
  | .request_payload session_id request_id =>
    Taken env.database_name
      (outcome env.connect env.get_payload (.ok (.get_payload session_id request_id)))
  | .request_extract_sql session_id payload =>
    Taken env.database_name (statement_outcome env session_id payload)
  | .set_enabled type enabled =>
    Taken env.database_name (outcome env.connect env.configure (set_enabled_request type enabled)) ∧
    ¬ Succeeded (outcome env.connect env.configure (set_enabled_request type enabled))
  | .set_log_level type level =>
    Taken env.database_name (outcome env.connect env.configure (set_log_level_request type level)) ∧
    ¬ Succeeded (outcome env.connect env.configure (set_log_level_request type level))
  | .set_statement_duration value =>
    Taken env.database_name
      (outcome env.connect env.configure (set_statement_duration_request value)) ∧
    ¬ Succeeded (outcome env.connect env.configure (set_statement_duration_request value))
  | .rotate type =>
    Taken env.database_name (outcome env.connect env.log_rotate (rotate_request type)) ∧
    ¬ Succeeded (outcome env.connect env.log_rotate (rotate_request type))

/-- With a monitor, a command reports the truth exactly where it can. -/
theorem services_report_truthfully (flags : Flags) (env : Env) (command : Invocation)
    (h : flags.monitor ≠ "") :
    ReportsTruthfully (run flags env command) ↔ Reportable flags env command := by
  cases command with
  | session_list => exact session_list_reports_iff env h
  | session_show session_ref => exact session_show_reports_iff env h session_ref
  | session_shutdown session_ref => exact session_shutdown_reports_iff env h session_ref
  | session_swtch session_ref set_key set_value set =>
    exact session_swtch_reports_iff env h session_ref set_key set_value set
  | metrics_list => exact metrics_list_reports_iff env h
  | metrics_show => exact metrics_show_reports_iff env h
  | request_list => exact request_list_reports_iff env h
  | request_payload session_id request_id =>
    exact request_payload_reports_iff env h session_id request_id
  | request_extract_sql session_id payload =>
    exact request_extract_sql_reports_iff env h session_id payload
  | set_enabled type enabled =>
    exact altimeter_reports_iff env h (set_enabled_reasoned type enabled)
  | set_log_level type level =>
    exact altimeter_reports_iff env h (set_log_level_reasoned type level)
  | set_statement_duration value =>
    exact altimeter_reports_iff env h (set_statement_duration_reasoned value)
  | rotate type => exact altimeter_reports_iff env h (rotate_reasoned type)

/-- A server that answers each request with the payload `[10, 0]`, a message whose first field
is an empty message, and that is read as `t`. -/
def answering {T : Type} (t : T) : Server T where
  fw := ⟨1, 0⟩
  pb := {
    serialize_header := fun header => [88, UInt8.ofNat header.service_id]
    serialize_request := fun _ _ _ => []
    parse_header := fun bytes => if bytes = [96, 2] then some ⟨.service_result⟩ else none
    parse_record := fun _ => none
    parse_response := fun bytes => if bytes = [10, 0] then some t else none }
  header := ⟨0, 1, 2, 5⟩
  exchange := fun _ => .ok [2, 96, 2, 2, 10, 0]
  reasoned := nofun

/-- A server that grants every request, with nothing to list. -/
def granting : Env where
  connect := .ok ()
  connect_reasoned := throwsReasoned_ok
  database_name := .ok ()
  session_list := answering (.success [])
  session_get := answering (.success ⟨[], [], [], [], 0, [], []⟩)
  session_shutdown := answering (.success ())
  session_set_variable := answering (.success ())
  metrics_information := answering ⟨[]⟩
  list_request := answering (.success [])
  get_payload := answering (.success [])
  sql := answering (.extract_statement_info (.success ⟨none, none⟩))
  configure := answering (.success ())
  log_rotate := answering (.success ())
  to_timepoint_string := fun _ => []
  nms := 0
  encode := id
  decode := some

/-- `--monitor` with the options of a shutdown. -/
def monitoring (graceful forceful : Bool) : Flags :=
  ⟨"log", false, false, false, graceful, forceful, "json"⟩

theorem services_report_truthfully_of_a_shutdown :
    (monitoring true false).monitor ≠ "" ∧
    ReportsTruthfully
      (run (monitoring true false) granting (.session_shutdown (ascii ":5"))) := by
  refine ⟨by decide, ?_⟩
  rw [services_report_truthfully _ _ _ (by decide)]
  have ho : outcome granting.connect granting.session_shutdown
      (.ok (.session_shutdown (ascii ":5") .graceful)) = .ok (some (.success ())) := rfl
  refine ⟨by decide, ?_⟩
  intro e he
  have herr := ho.symm.trans he
  cases herr

/-- The altimeter is switched on and the command fails; the options of a shutdown clash and
the monitor is told of a success. -/
theorem a_success_is_returned_as_a_failure :
    ¬ ReportsTruthfully (run (monitoring false false) granting (.set_enabled "event" true)) ∧
    ¬ ReportsTruthfully
      (run (monitoring true true) granting (.session_shutdown (ascii ":5"))) := by
  constructor
  · intro h
    have hmonitor : (monitoring false false).monitor ≠ "" := by decide
    have hreasoned := set_enabled_reasoned "event" true
    exact ((altimeter_reports_iff granting hmonitor hreasoned).mp h).2 ⟨.success (), rfl, rfl⟩
  · intro h
    have hmonitor : (monitoring true true).monitor ≠ "" := by decide
    have hiff := session_shutdown_reports_iff granting hmonitor (ascii ":5")
    exact (hiff.mp h).1 ⟨rfl, rfl⟩

end tateyama_bootstrap.services
