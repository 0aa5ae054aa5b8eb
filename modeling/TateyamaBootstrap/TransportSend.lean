-- The eight overloads of `transport::send` (transport/transport.h): a request goes
-- out behind its header, and the response comes back as a header with a payload
-- that is a service result or a diagnostics record. Seven of them are one
-- function with other versions and headers, and the one for datastore is not.
import TateyamaBootstrap.DelimitedFraming
import TateyamaBootstrap.Errors

namespace tateyama_bootstrap.transport

open protobuf_utils

/-! ## The messages -/

/-- `framework.response.Header.PayloadType`; the enumeration is open. -/
inductive PayloadType
  | unknown
  | server_diagnostics
  | service_result
  | unrecognized (value : Int)
deriving DecidableEq, Repr

/-- `framework.response.Header`, as far as `send` reads it. -/
structure ResponseHeader where
  payload_type : PayloadType
deriving DecidableEq, Repr

/-- `framework.request.Header`, as far as `send` sets it. -/
structure RequestHeader where
  service_message_version_major : Nat
  service_message_version_minor : Nat
  service_id : Nat
  session_id : Nat
deriving DecidableEq, Repr

/-- `diagnostics.Code`; the enumeration is open. -/
inductive Code
  | unknown
  | system_error
  | unsupported_operation
  | illegal_state
  | authentication_error
  | permission_error
  | access_expired
  | refresh_expired
  | broken_credential
  | io_error
  | out_of_memory
  | resource_limit_reached
  | session_closed
  | session_expired
  | service_not_found
  | service_unavailable
  | invalid_request
  | operation_canceled
  | operation_denied
  | unrecognized (value : Int)
deriving DecidableEq, Repr

/-- `diagnostics.Record`. -/
structure Record where
  code : Code
  message : String
deriving DecidableEq, Repr

/-- The generated classes: requests `R` with their version set, and responses `T`. -/
structure Protobuf (R T : Type) where
  serialize_header : RequestHeader → List UInt8
  serialize_request : Nat → Nat → R → List UInt8
  parse_header : List UInt8 → Option ResponseHeader
  parse_record : List UInt8 → Option Record
  parse_response : List UInt8 → Option T

/-- The service ids of the framework that `send` names. -/
structure Framework where
  service_id_endpoint_broker : Nat
  service_id_routing : Nat

/-! ## The overloads -/

section

variable {R T : Type}

/-- `ArrayInputStream` over a message, whose length is cast to `int`. An array of
negative size has nothing to read. -/
def array_of (res_message : List UInt8) : ArrayInputStream where
  unread :=
    let size := res_message.length % 2 ^ 32
    if size ≤ int_max then res_message.take size else []
  length_le := by
    dsimp only
    split
    · exact Nat.le_trans (List.length_take_le _ _) ‹_›
    · exact Nat.zero_le _

/-- The request as it goes out, none when it is too long. -/
def request_message (pb : Protobuf R T) (header : RequestHeader) (major minor : Nat)
    (request : R) : Option (List UInt8) := do
  let h ← serialize_delimited_to_ostream (pb.serialize_header header)
  let r ← serialize_delimited_to_ostream (pb.serialize_request major minor request)
  some (h ++ r)

/-- The header and the payload of a response. -/
def open_envelope (pb : Protobuf R T) (res_message : List UInt8) :
    Option (ResponseHeader × List UInt8) := do
  let (header, ins) ← parse_delimited_from_zero_copy_stream pb.parse_header (array_of res_message)
  let (payload, _) ← get_delimited_body_from_zero_copy_stream ins
  some (header, payload)

def throw_tgctl_runtime_error (record : Record) : Error :=
  if record.code = .permission_error then .runtime_error .permission record.message
  else .runtime_error .unknown record.message

/-- The body of seven overloads. `exchange` finds a slot, sends the request on the
wire and receives the response. -/
def send_request (pb : Protobuf R T) (header : RequestHeader) (major minor : Nat)
    (exchange : List UInt8 → Except Error (List UInt8)) (request : R) :
    Except Error (Option T) :=
  match request_message pb header major minor request with
  | none => .ok none
  | some sst => do
    let res_message ← exchange sst
    match open_envelope pb res_message with
    | none => .ok none
    | some (header, payload) =>
      if header.payload_type = .service_result then .ok (pb.parse_response payload)
      else
        match pb.parse_record payload with
        | none => .ok none
        | some record => .error (throw_tgctl_runtime_error record)

/-- The header of the requests that name their service themselves. -/
def fwrq_header (service_id : Nat) : RequestHeader where
  service_message_version_major := 0
  service_message_version_minor := 1
  service_id := service_id
  session_id := 0

variable (fw : Framework) (pb : Protobuf R T) (header : RequestHeader)
variable (exchange : List UInt8 → Except Error (List UInt8)) (request : R)

/-- The payload is taken for a service result whatever the header says. -/
def send_datastore : Except Error (Option T) :=
  match request_message pb header 0 0 request with
  | none => .ok none
  | some sst => do
    let res_message ← exchange sst
    match open_envelope pb res_message with
    | none => .ok none
    | some (_, payload) => .ok (pb.parse_response payload)

def send_session : Except Error (Option T) := send_request pb header 0 0 exchange request

def send_endpoint : Except Error (Option T) :=
  send_request pb (fwrq_header fw.service_id_endpoint_broker) 0 0 exchange request

def send_core : Except Error (Option T) :=
  send_request pb (fwrq_header fw.service_id_routing) 0 0 exchange request

def send_metrics : Except Error (Option T) := send_request pb header 0 0 exchange request

def send_altimeter : Except Error (Option T) := send_request pb header 0 0 exchange request

def send_for_request : Except Error (Option T) := send_request pb header 0 0 exchange request

def send_sql : Except Error (Option T) := send_request pb header 1 6 exchange request

end

/-- The type of the request, by which the overload is chosen. -/
inductive Service
  | datastore
  | session
  | endpoint
  | core
  | metrics
  | altimeter
  | request
  | sql
deriving DecidableEq, Repr

section

variable {R T : Type} (fw : Framework) (pb : Protobuf R T) (header : RequestHeader)

def send (exchange : List UInt8 → Except Error (List UInt8)) (request : R) :
    Service → Except Error (Option T)
  | .datastore => send_datastore pb header exchange request
  | .session => send_session pb header exchange request
  | .endpoint => send_endpoint fw pb exchange request
  | .core => send_core fw pb exchange request
  | .metrics => send_metrics pb header exchange request
  | .altimeter => send_altimeter pb header exchange request
  | .request => send_for_request pb header exchange request
  | .sql => send_sql pb header exchange request

/-- The request that an overload sends. -/
def sent_message (request : R) : Service → Option (List UInt8)
  | .endpoint => request_message pb (fwrq_header fw.service_id_endpoint_broker) 0 0 request
  | .core => request_message pb (fwrq_header fw.service_id_routing) 0 0 request
  | .sql => request_message pb header 1 6 request
  | _ => request_message pb header 0 0 request

/-! ## The response envelope -/

/-- Header, framing and payload of the response parse, the payload as what the
header says it is. -/
def Parses (res_message : List UInt8) : Prop :=
  ∃ header payload, open_envelope pb res_message = some (header, payload) ∧
    if header.payload_type = .service_result then (pb.parse_response payload).isSome
    else (pb.parse_record payload).isSome

/-- How a call is to treat a response. -/
structure Treats (res_message : List UInt8) (result : Except Error (Option T)) : Prop where
  returns : ∀ t, result = .ok (some t) → ∃ header payload,
    open_envelope pb res_message = some (header, payload) ∧
      header.payload_type = .service_result ∧ pb.parse_response payload = some t
  throws : ∀ header payload record, open_envelope pb res_message = some (header, payload) →
    header.payload_type ≠ .service_result → pb.parse_record payload = some record →
    result = .error (.runtime_error
      (if record.code = .permission_error then .permission else .unknown) record.message)
  nullopt : result = .ok none ↔ ¬ Parses pb res_message

/-- The response does not frame a payload, or its header says that the payload is a
service result, or the payload is neither that nor a record. -/
def NotMistaken (res_message : List UInt8) : Prop :=
  ∀ header payload, open_envelope pb res_message = some (header, payload) →
    header.payload_type = .service_result ∨
      pb.parse_response payload = none ∧ pb.parse_record payload = none

variable {pb} {header} {res_message : List UInt8}

theorem not_parses (h : open_envelope pb res_message = none) : ¬ Parses pb res_message := by
  rintro ⟨header, payload, he, -⟩
  rw [h] at he
  cases he

theorem parses_iff {header : ResponseHeader} {payload : List UInt8}
    (h : open_envelope pb res_message = some (header, payload)) :
    Parses pb res_message ↔
      if header.payload_type = .service_result then (pb.parse_response payload).isSome
      else (pb.parse_record payload).isSome := by
  constructor
  · rintro ⟨header', payload', he, hp⟩
    rw [h] at he
    cases he
    exact hp
  · intro hp
    exact ⟨header, payload, h, hp⟩

/-- A response without header or framing is answered with nothing. -/
theorem treats_none (h : open_envelope pb res_message = none) :
    Treats pb res_message (.ok none) := by
  refine ⟨?_, ?_, ?_⟩
  · intro t ht
    cases ht
  · intro header payload record he
    rw [h] at he
    cases he
  · exact ⟨fun _ => not_parses h, fun _ => rfl⟩

/-- A payload that is to be a service result is parsed as one. -/
theorem treats_result {header : ResponseHeader} {payload : List UInt8}
    (h : open_envelope pb res_message = some (header, payload))
    (hs : header.payload_type = .service_result) :
    Treats pb res_message (.ok (pb.parse_response payload)) := by
  refine ⟨?_, ?_, ?_⟩
  · intro t ht
    exact ⟨header, payload, h, hs, Except.ok.inj ht⟩
  · intro header' payload' record he hn
    rw [h] at he
    cases he
    exact absurd hs hn
  · rw [parses_iff h, if_pos hs]
    cases hp : pb.parse_response payload with
    | none => simp
    | some t => simp

/-- A payload that is a record is thrown. -/
theorem treats_record {header : ResponseHeader} {payload : List UInt8}
    (h : open_envelope pb res_message = some (header, payload))
    (hn : header.payload_type ≠ .service_result) :
    Treats pb res_message (match pb.parse_record payload with
      | none => .ok none
      | some record => .error (throw_tgctl_runtime_error record)) := by
  cases hp : pb.parse_record payload with
  | none =>
    refine ⟨?_, ?_, ?_⟩
    · intro t ht
      cases ht
    · intro header' payload' record he _ hr
      rw [h] at he
      cases he
      rw [hp] at hr
      cases hr
    · rw [parses_iff h, if_neg hn, hp]
      simp
  | some record =>
    refine ⟨?_, ?_, ?_⟩
    · intro t ht
      cases ht
    · intro header' payload' record' he _ hr
      rw [h] at he
      cases he
      rw [hp] at hr
      cases hr
      show Except.error (throw_tgctl_runtime_error record) = _
      unfold throw_tgctl_runtime_error
      split <;> rfl
    · rw [parses_iff h, if_neg hn, hp]
      simp

/-- The seven overloads treat every response as they should. -/
theorem send_request_treats {request : R} {major minor : Nat} {sst : List UInt8}
    {exchange : List UInt8 → Except Error (List UInt8)}
    (hs : request_message pb header major minor request = some sst)
    (hx : exchange sst = .ok res_message) :
    Treats pb res_message (send_request pb header major minor exchange request) := by
  unfold send_request
  rw [hs]
  simp only [hx, Bind.bind, Except.bind]
  cases he : open_envelope pb res_message with
  | none => exact treats_none he
  | some p =>
    obtain ⟨header', payload⟩ := p
    dsimp only
    split
    · rename_i hsr
      exact treats_result he hsr
    · rename_i hn
      exact treats_record he hn

/-- The one for datastore does so unless it takes a payload of another type for a
service result, or a record for nothing. -/
theorem send_datastore_treats_iff {request : R} {sst : List UInt8}
    {exchange : List UInt8 → Except Error (List UInt8)}
    (hs : request_message pb header 0 0 request = some sst)
    (hx : exchange sst = .ok res_message) :
    Treats pb res_message (send_datastore pb header exchange request) ↔
      NotMistaken pb res_message := by
  unfold send_datastore
  rw [hs]
  simp only [hx, Bind.bind, Except.bind]
  cases he : open_envelope pb res_message with
  | none =>
    refine ⟨fun _ header' payload hp => ?_, fun _ => treats_none he⟩
    rw [he] at hp
    cases hp
  | some p =>
    obtain ⟨header', payload⟩ := p
    dsimp only
    constructor
    · intro h header'' payload'' hp
      rw [he] at hp
      cases hp
      by_cases hsr : header'.payload_type = .service_result
      · exact .inl hsr
      · right
        refine ⟨?_, ?_⟩
        · cases hr : pb.parse_response payload with
          | none => rfl
          | some t =>
            obtain ⟨_, _, hp, hsr', -⟩ := h.returns t (by rw [hr])
            rw [he] at hp
            cases hp
            exact absurd hsr' hsr
        · cases hr : pb.parse_record payload with
          | none => rfl
          | some record => cases h.throws header' payload record he hsr hr
    · intro h
      rcases h header' payload he with hsr | ⟨hr, hrec⟩
      · exact treats_result he hsr
      · by_cases hsr : header'.payload_type = .service_result
        · exact treats_result he hsr
        · have ht := treats_record he hsr
          rw [hrec] at ht
          rw [hr]
          exact ht

end

/-- The overloads treat every response alike, except that the one for datastore
does so exactly for the responses that it does not mistake. -/
theorem only_datastore_mistakes_a_response {R T : Type} (fw : Framework) (pb : Protobuf R T)
    (header : RequestHeader) (exchange : List UInt8 → Except Error (List UInt8)) (request : R)
    (service : Service) (sst res_message : List UInt8)
    (hs : sent_message fw pb header request service = some sst)
    (hx : exchange sst = .ok res_message) :
    Treats pb res_message (send fw pb header exchange request service) ↔
      (service = .datastore → NotMistaken pb res_message) := by
  cases service with
  | datastore =>
    rw [show send fw pb header exchange request .datastore =
      send_datastore pb header exchange request from rfl, send_datastore_treats_iff hs hx]
    simp
  | _ =>
    refine ⟨fun _ h => (by cases h), fun _ => ?_⟩
    exact send_request_treats hs hx

/-- Messages of a few bytes as protobuf reads them: a response header with payload
type 1 or 2, a record with code 12, and any bytes as a response. -/
def fewMessages : Protobuf Unit (List UInt8) where
  serialize_header := fun header => [88, UInt8.ofNat header.service_id]
  serialize_request := fun _ _ _ => []
  parse_header := fun bytes =>
    if bytes = [96, 1] then some ⟨.server_diagnostics⟩
    else if bytes = [96, 2] then some ⟨.service_result⟩
    else none
  parse_record := fun bytes =>
    if bytes = [88, 12, 98, 2, 110, 111] then some ⟨.permission_error, "no"⟩ else none
  parse_response := some

/-- A response with a diagnostics record. -/
def refusal : List UInt8 := [2, 96, 1, 6, 88, 12, 98, 2, 110, 111]

/-- A response with a service result. -/
def result : List UInt8 := [2, 96, 2, 2, 8, 1]

theorem only_datastore_mistakes_a_response_of_few_bytes :
    Treats fewMessages refusal
      (send ⟨1, 0⟩ fewMessages ⟨0, 1, 2, 5⟩ (fun _ => .ok refusal) () .session) ∧
    Treats fewMessages result
      (send ⟨1, 0⟩ fewMessages ⟨0, 1, 2, 5⟩ (fun _ => .ok result) () .datastore) := by
  refine ⟨?_, ?_⟩
  · refine (only_datastore_mistakes_a_response _ _ _ _ _ _ [2, 88, 2, 0] refusal rfl rfl).mpr ?_
    intro h
    cases h
  · refine (only_datastore_mistakes_a_response _ _ _ _ _ _ [2, 88, 2, 0] result rfl rfl).mpr ?_
    intro _ header payload he
    have hr : open_envelope fewMessages result = some (⟨.service_result⟩, [8, 1]) := rfl
    rw [hr] at he
    cases he
    exact .inl rfl

/-- A refusal comes back from datastore as a result, and is thrown by the others. -/
theorem datastore_takes_a_refusal_for_a_result :
    send ⟨1, 0⟩ fewMessages ⟨0, 1, 2, 5⟩ (fun _ => .ok refusal) () .datastore =
      .ok (some [88, 12, 98, 2, 110, 111]) ∧
    send ⟨1, 0⟩ fewMessages ⟨0, 1, 2, 5⟩ (fun _ => .ok refusal) () .session =
      .error (.runtime_error .permission "no") ∧
    ¬ Treats fewMessages refusal
      (send ⟨1, 0⟩ fewMessages ⟨0, 1, 2, 5⟩ (fun _ => .ok refusal) () .datastore) := by
  have hr : send ⟨1, 0⟩ fewMessages ⟨0, 1, 2, 5⟩ (fun _ => .ok refusal) () .datastore =
      .ok (some [88, 12, 98, 2, 110, 111]) := rfl
  refine ⟨hr, rfl, ?_⟩
  rw [hr]
  intro h
  obtain ⟨header, payload, he, hs, -⟩ := h.returns _ rfl
  have ho : open_envelope fewMessages refusal =
      some (⟨.server_diagnostics⟩, [88, 12, 98, 2, 110, 111]) := rfl
  rw [ho] at he
  cases he
  cases hs

end tateyama_bootstrap.transport
