-- How a command puts a request to the server. The transport is made, the request goes out
-- through its overload of `transport::send`, the response comes back or an exception is
-- thrown, and the handler of the command takes a `tgctl::runtime_error`. The commands of
-- datastore/backup.cpp, session/session.cpp, metrics/metrics.cpp, request/request.cpp and
-- altimeter/altimeter.cpp are made of this.
import TateyamaBootstrap.MonitorLog
import TateyamaBootstrap.TransportSend

open tateyama_bootstrap.transport hiding send

namespace tateyama_bootstrap.server_calls

open monitor_output Command

/-! ## A request -/

/-- The responses, and which of them report success. -/
class Response (T : Type) where
  success : T → Bool

/-- The requests, and the overload of `transport::send` that takes each. -/
class Routed (R : Type) where
  service : R → Service

/-- The entries of a log that are about requests. The monitor file has none of them. -/
class Logged (R W : Type) [Monitored W] where
  sent : R → W
  acknowledged : R → W
  record?_sent (r : R) : Monitored.record? (sent r) = none
  record?_acknowledged (r : R) : Monitored.record? (acknowledged r) = none

/-- Every `runtime_error` that the sources throw has a reason. -/
def Reasoned (e : Error) : Prop := ∀ code what, e = .runtime_error code what → code ≠ .absent

/-- The server as one request sees it. `exchange` is the way of the request to the
server and of the response back. -/
structure Server (R T : Type) where
  fw : Framework
  pb : Protobuf R T
  header : RequestHeader
  exchange : List UInt8 → Except Error (List UInt8)
  reasoned : ∀ sst e, exchange sst = .error e → Reasoned e

section

variable {R T W : Type} [Routed R]

/-- The request as it goes out, none when it is too long. -/
def Server.message (server : Server R T) (request : R) : Option (List UInt8) :=
  sent_message server.fw server.pb server.header request (Routed.service request)

/-- What `transport::send` makes of the response. -/
def Server.response (server : Server R T) (request : R) : Except Error (Option T) :=
  transport.send server.fw server.pb server.header server.exchange request
    (Routed.service request)

/-- The response is a service result that reports success. -/
def Server.acknowledges [Response T] (server : Server R T) (request : R) : Bool :=
  match server.message request with
  | none => false
  | some sst =>
    match server.exchange sst with
    | .error _ => false
    | .ok res_message =>
      match open_envelope server.pb res_message with
      | none => false
      | some (header, payload) =>
        header.payload_type = .service_result &&
          (server.pb.parse_response payload).any Response.success

/-- The way to a response: the constructor of `transport`, the request, which is made once
the transport is there, and the server. -/
def outcome (connect : Except Error Unit) (server : Server R T) (request : Except Error R) :
    Except Error (Option T) := do
  connect
  let request ← request
  server.response request

/-- An observation that is a value or an exception. -/
def observe {α : Type} : Except Error α → Command Error W α
  | .ok a => pure a
  | .error e => .raise e

/-- An entry that is only there in one case. -/
def log_if (b : Bool) (w : W) : Command Error W Unit := if b then .write w else pure ()

variable [Monitored W] [Logged R W] [Response T]

def send (server : Server R T) (request : R) : Command Error W (Option T) := do
  log_if (server.message request).isSome (Logged.sent request)
  log_if (server.acknowledges request) (Logged.acknowledged request)
  observe (server.response request)

/-- A call of the server, with its `outcome`. -/
def ask (connect : Except Error Unit) (server : Server R T) (request : Except Error R) :
    Command Error W (Option T) := do
  observe connect
  let request ← observe request
  send server request

end

/-- The handlers that take `tgctl::runtime_error` only. `message` is what the text on the
standard error needs, the name of the database for most of them. -/
def catch_runtime_error {W : Type} (message : Except Error Unit) : Error → Command Error W Flow
  | .runtime_error code _ => do
    observe message
    return .goes_on .err code
  | e => .raise e

/-! ## Exceptions -/

/-- Whatever is thrown has a reason. -/
def ThrowsReasoned {α : Type} (x : Except Error α) : Prop := ∀ e, x = .error e → Reasoned e

theorem throwsReasoned_ok {α : Type} {a : α} : ThrowsReasoned (.ok a) := nofun

theorem ThrowsReasoned.bind {α β : Type} {x : Except Error α} {f : α → Except Error β}
    (hx : ThrowsReasoned x) (hf : ∀ a, ThrowsReasoned (f a)) : ThrowsReasoned (x >>= f) := by
  intro e he
  cases x with
  | error e' =>
    cases he
    exact hx e rfl
  | ok a => exact hf a e he

theorem throwsReasoned_throw {α : Type} (record : transport.Record) :
    ThrowsReasoned (.error (throw_tgctl_runtime_error record) : Except Error α) := by
  intro e he code what hcode
  cases he
  unfold throw_tgctl_runtime_error at hcode
  split at hcode <;> cases hcode <;> decide

/-- What is thrown is a `runtime_error`, and the handler gets its message together. -/
def Taken {α : Type} (message : Except Error Unit) (o : Except Error α) : Prop :=
  ∀ e, o = .error e → (∃ code what, e = .runtime_error code what) ∧ message = .ok ()

theorem taken_error {α β : Type} {message : Except Error Unit} {e : Error} :
    Taken message (.error e : Except Error α) ↔ Taken message (.error e : Except Error β) := by
  constructor
  · intro h e' he
    cases he
    exact h e rfl
  · intro h e' he
    cases he
    exact h e rfl

/-- The handler takes an exception, or another one leaves it. -/
theorem catch_cases {W : Type} (message : Except Error Unit) (e : Error) :
    (Taken message (.error e : Except Error Unit) ∧ ∃ code what, e = .runtime_error code what ∧
      ∀ {V : Type} (view : W → Option V),
        Command.Ends view (catch_runtime_error message e) [] (.ok (.goes_on .err code))) ∨
    ¬ Taken message (.error e : Except Error Unit) ∧ ∃ e', ∀ {V : Type} (view : W → Option V),
      Command.Ends view (catch_runtime_error message e) [] (.error e') := by
  cases e with
  | runtime_error code what =>
    cases message with
    | ok _ =>
      refine .inl ⟨?_, code, what, rfl, fun view => Ends.pure.after Ends.pure⟩
      intro e he
      cases he
      exact ⟨⟨code, what, rfl⟩, rfl⟩
    | error e' =>
      refine .inr ⟨?_, e', fun view => Ends.stop Ends.raise⟩
      intro h
      cases (h _ rfl).2
  | out_of_range | exception =>
    refine .inr ⟨?_, _, fun view => Ends.raise⟩
    intro h
    obtain ⟨⟨_, _, he⟩, -⟩ := h _ rfl
    cases he

/-! ## The server -/

section

variable {R T : Type}

/-- The seven overloads of `transport::send` that look at the payload type have one body. -/
theorem send_cases (server : Server R T) (request : R) {service : Service}
    (hs : service ≠ .datastore) :
    ∃ header major minor,
      sent_message server.fw server.pb server.header request service =
        request_message server.pb header major minor request ∧
      transport.send server.fw server.pb server.header server.exchange request service =
        send_request server.pb header major minor server.exchange request := by
  cases service with
  | datastore => exact absurd rfl hs
  | _ => exact ⟨_, _, _, rfl, rfl⟩

/-- The one for datastore has its own. -/
theorem send_datastore_cases (server : Server R T) (request : R) :
    sent_message server.fw server.pb server.header request .datastore =
      request_message server.pb server.header 0 0 request ∧
    transport.send server.fw server.pb server.header server.exchange request .datastore =
      send_datastore server.pb server.header server.exchange request :=
  ⟨rfl, rfl⟩

variable [Routed R] {server : Server R T} {request : R}

theorem response_reasoned : ThrowsReasoned (server.response request) := by
  unfold Server.response
  by_cases hs : Routed.service request = .datastore
  · rw [hs, (send_datastore_cases server request).2]
    unfold send_datastore
    split
    · exact throwsReasoned_ok
    · refine ThrowsReasoned.bind (server.reasoned _) fun res_message => ?_
      split <;> exact throwsReasoned_ok
  · obtain ⟨header, major, minor, -, heq⟩ := send_cases server request hs
    rw [heq]
    unfold send_request
    split
    · exact throwsReasoned_ok
    · refine ThrowsReasoned.bind (server.reasoned _) fun res_message => ?_
      split
      · exact throwsReasoned_ok
      split
      · exact throwsReasoned_ok
      split
      · exact throwsReasoned_ok
      · exact throwsReasoned_throw _

theorem outcome_reasoned {connect : Except Error Unit} {request : Except Error R}
    (hc : ThrowsReasoned connect) (hr : ThrowsReasoned request) :
    ThrowsReasoned (outcome connect server request) :=
  hc.bind fun _ => hr.bind fun _ => response_reasoned

/-- Who has a response has sent the request. -/
theorem sent_of_response {t : T} (h : server.response request = .ok (some t)) :
    (server.message request).isSome = true := by
  unfold Server.message
  unfold Server.response at h
  by_cases hs : Routed.service request = .datastore
  · rw [hs, (send_datastore_cases server request).1]
    rw [hs, (send_datastore_cases server request).2] at h
    unfold send_datastore at h
    split at h
    · cases h
    · rename_i hm
      rw [hm]
      rfl
  · obtain ⟨header, major, minor, hsent, heq⟩ := send_cases server request hs
    rw [hsent]
    rw [heq] at h
    unfold send_request at h
    split at h
    · cases h
    · rename_i hm
      rw [hm]
      rfl

variable [Response T]

/-- The response is there, and reports success. -/
def Succeeded (o : Except Error (Option T)) : Prop :=
  ∃ t, o = .ok (some t) ∧ Response.success t

/-- Where the payload type is looked at, success is what the server has acknowledged. -/
theorem acknowledges_iff (hs : Routed.service request ≠ .datastore) :
    server.acknowledges request ↔ Succeeded (server.response request) := by
  obtain ⟨header, major, minor, hsent, heq⟩ := send_cases server request hs
  unfold Server.acknowledges Server.message Server.response Succeeded
  rw [hsent, heq]
  unfold send_request
  cases request_message server.pb header major minor request with
  | none => simp
  | some sst =>
    cases hx : server.exchange sst with
    | error e => simp [hx, Bind.bind, Except.bind]
    | ok res_message =>
      cases ho : open_envelope server.pb res_message with
      | none => simp [hx, ho, Bind.bind, Except.bind]
      | some p =>
        obtain ⟨header', payload⟩ := p
        simp only [hx, ho, Bind.bind, Except.bind]
        by_cases hp : header'.payload_type = .service_result
        · cases server.pb.parse_response payload <;> simp [hp]
        · cases server.pb.parse_record payload <;> simp [hp]

/-- What the server has acknowledged reads as a success, for the datastore as well. -/
theorem acknowledged_reads_success (h : server.acknowledges request) :
    Succeeded (server.response request) := by
  by_cases hs : Routed.service request = .datastore
  · unfold Server.acknowledges Server.message at h
    unfold Server.response Succeeded
    rw [hs, (send_datastore_cases server request).1] at h
    rw [hs, (send_datastore_cases server request).2]
    unfold send_datastore
    cases hm : request_message server.pb server.header 0 0 request with
    | none => simp [hm] at h
    | some sst =>
      cases he : server.exchange sst with
      | error e => simp [hm, he] at h
      | ok res_message =>
        cases ho : open_envelope server.pb res_message with
        | none => simp [hm, he, ho] at h
        | some env =>
          cases hp : server.pb.parse_response env.2 with
          | none => simp [hm, he, ho, hp] at h
          | some t =>
            simp only [hm, he, ho, hp, Option.any_some, Bool.and_eq_true] at h
            refine ⟨t, ?_, h.2⟩
            simp [he, ho, hp, Bind.bind, Except.bind]
  · exact (acknowledges_iff hs).mp h

end

/-! ## The log of a call -/

section

variable {W V : Type} {view : W → Option V}

theorem ends_observe {α : Type} (r : Except Error α) :
    Command.Ends view (observe r) [] r := by
  cases r with
  | ok a => exact Ends.pure
  | error e => exact Ends.raise

theorem ends_log_if (b : Bool) (w : W) :
    Command.Ends view (log_if b w) ((if b then [w] else []).filterMap view) (.ok ()) := by
  cases b with
  | true => exact ⟨rfl, rfl⟩
  | false => exact Ends.pure

variable {R T : Type} [Routed R] [Response T] [Monitored W] [Logged R W]

/-- What a request leaves in the log. -/
def Server.entries (server : Server R T) (request : R) : List W :=
  (if (server.message request).isSome then [Logged.sent request] else []) ++
    if server.acknowledges request then [Logged.acknowledged request] else []

theorem ends_send (view : W → Option V) (server : Server R T) (request : R) :
    Command.Ends view (send server request) ((server.entries request).filterMap view)
      (server.response request) := by
  unfold Server.entries
  rw [List.filterMap_append]
  exact (ends_log_if _ _).bind ((ends_log_if _ _).before (ends_observe _))

/-- What a call leaves in the log. -/
def asked (connect : Except Error Unit) (server : Server R T) (request : Except Error R) :
    List W :=
  match connect, request with
  | .ok _, .ok r => server.entries r
  | _, _ => []

theorem ends_ask (view : W → Option V) (connect : Except Error Unit) (server : Server R T)
    (request : Except Error R) :
    Command.Ends view (ask connect server request)
      ((asked connect server request).filterMap view) (outcome connect server request) := by
  unfold ask outcome
  rcases connect with e | _
  · exact Ends.stop Ends.raise
  rcases request with e | r
  · exact Ends.pure.after (Ends.stop Ends.raise)
  · exact Ends.pure.after (Ends.pure.after (ends_send view server r))

/-- A view that shows no requests. -/
theorem entries_unseen (hs : ∀ r : R, view (Logged.sent r) = none)
    (ha : ∀ r : R, view (Logged.acknowledged r) = none) (server : Server R T) (request : R) :
    (server.entries request).filterMap view = [] := by
  refine List.filterMap_eq_nil_iff.mpr fun w hw => ?_
  unfold Server.entries at hw
  rcases List.mem_append.mp hw with hw | hw
  · split at hw
    · rw [List.mem_singleton.mp hw]
      exact hs request
    · cases hw
  · split at hw
    · rw [List.mem_singleton.mp hw]
      exact ha request
    · cases hw

theorem asked_unseen (hs : ∀ r : R, view (Logged.sent r) = none)
    (ha : ∀ r : R, view (Logged.acknowledged r) = none) (connect : Except Error Unit)
    (server : Server R T) (request : Except Error R) :
    (asked connect server request).filterMap view = [] := by
  unfold asked
  split
  · exact entries_unseen hs ha server _
  · rfl

/-- Neither a request nor a call writes to the monitor file. -/
theorem ends_send_records (server : Server R T) (request : R) :
    Ends (send server request : Command Error W _) [] (server.response request) := by
  have h := ends_send (W := W) Monitored.record? server request
  rwa [entries_unseen Logged.record?_sent Logged.record?_acknowledged] at h

theorem ends_ask_records (connect : Except Error Unit) (server : Server R T)
    (request : Except Error R) :
    Ends (ask connect server request : Command Error W _) [] (outcome connect server request) := by
  have h := ends_ask (W := W) Monitored.record? connect server request
  rwa [asked_unseen Logged.record?_sent Logged.record?_acknowledged] at h

end

end tateyama_bootstrap.server_calls
