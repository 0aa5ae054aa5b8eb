-- A call of `transport::send` from end to end (transport/transport.h). The request is
-- framed and goes over the request wire, the server takes it apart, answers it and frames
-- the answer (worker of test_utils/endpoint.h), which comes back over the response wire,
-- among the requests and the answers of the other threads.
import TateyamaBootstrap.SessionExchange
import TateyamaBootstrap.TransportSend

open runs

namespace tateyama_bootstrap.transport

open protobuf_utils

/-! ## The server -/

/-- The generated classes as the server uses them. -/
structure ServerProtobuf (R T : Type) where
  parse_request_header : List UInt8 → Option RequestHeader
  parse_request : List UInt8 → Option R
  serialize_response_header : ResponseHeader → List UInt8
  serialize_response : T → List UInt8
  serialize_record : Record → List UInt8

section Server

variable {R T : Type}

def payload_type : Except Record T → PayloadType
  | .ok _ => .service_result
  | .error _ => .server_diagnostics

def payload (sp : ServerProtobuf R T) : Except Record T → List UInt8
  | .ok response => sp.serialize_response response
  | .error record => sp.serialize_record record

/-- What `worker` writes as its reply, none when it throws. `handle` is the service. -/
def reply_message (sp : ServerProtobuf R T) (handle : RequestHeader → R → Except Record T)
    (message : List UInt8) : Option (List UInt8) := do
  let (req_header, ins) ←
    parse_delimited_from_zero_copy_stream sp.parse_request_header (array_of message)
  let (body, _) ← get_delimited_body_from_zero_copy_stream ins
  let rq ← sp.parse_request body
  let reply := handle req_header rq
  let h ← serialize_delimited_to_ostream (sp.serialize_response_header ⟨payload_type reply⟩)
  let b ← put_delimited_body_to_ostream (payload sp reply)
  some (h ++ b)

end Server

/-! ## Both ends of the framing -/

theorem array_of_unread {message : List UInt8} (h : message.length ≤ int_max) :
    (array_of message).unread = message := by
  unfold array_of
  dsimp only
  rw [size_mod h, if_pos h, List.take_length]

/-- Where the decoders give a header and a body, these are what was framed. -/
theorem decoders_give_what_was_framed {M : Type} {merge : List UInt8 → Option M} {header m : M}
    {content body h f out : List UInt8} {input i i' : ArrayInputStream}
    (hmerge : merge content = some header) (hh : serialize_delimited_to_ostream content = some h)
    (hf : put_delimited_body_to_ostream body = some f) (hi : input.unread = h ++ f)
    (hm : parse_delimited_from_zero_copy_stream merge input = some (m, i))
    (hout : get_delimited_body_from_zero_copy_stream i = some (out, i')) :
    m = header ∧ out = body := by
  obtain ⟨hlen, hd⟩ := delimited_some hh f
  obtain ⟨hlen', hd'⟩ := delimited_some hf []
  rw [List.append_nil, List.append_nil] at hd'
  obtain ⟨n, rest, hn, -, hparsed, hrest⟩ := parse_delimited_iff.mp hm
  rw [hi, hd] at hn
  cases hn
  rw [size_mod hlen, List.take_left, hmerge] at hparsed
  rw [size_mod hlen, List.drop_left] at hrest
  obtain ⟨n', rest', hn', -, -, htaken, -⟩ := get_delimited_body_iff.mp hout
  rw [hrest, hd'] at hn'
  cases hn'
  rw [size_mod hlen', List.take_length] at htaken
  exact ⟨(Option.some.inj hparsed).symm, htaken⟩

section Framing

variable {R T : Type} {pb : Protobuf R T} {sp : ServerProtobuf R T}

/-- A reply is the framed answer to the request that was sent. -/
theorem reply_to_request {handle : RequestHeader → R → Except Record T} {header : RequestHeader}
    {major minor : Nat} {request : R} {sst reply : List UInt8}
    (hs : request_message pb header major minor request = some sst) (hlen : sst.length ≤ int_max)
    (hheader : sp.parse_request_header (pb.serialize_header header) = some header)
    (hrequest : sp.parse_request (pb.serialize_request major minor request) = some request)
    (hreply : reply_message sp handle sst = some reply) :
    ∃ h b, serialize_delimited_to_ostream
        (sp.serialize_response_header ⟨payload_type (handle header request)⟩) = some h ∧
      put_delimited_body_to_ostream (payload sp (handle header request)) = some b ∧
      reply = h ++ b := by
  obtain ⟨h, hh, hs'⟩ := Option.bind_eq_some_iff.mp hs
  obtain ⟨r, hr, hsst⟩ := Option.bind_eq_some_iff.mp hs'
  obtain rfl := Option.some.inj hsst
  obtain ⟨⟨req_header, ins⟩, hparse, hparsed⟩ := Option.bind_eq_some_iff.mp hreply
  obtain ⟨⟨body, ins'⟩, hbody, hframed⟩ := Option.bind_eq_some_iff.mp hparsed
  obtain ⟨rq, hrq, hanswer⟩ := Option.bind_eq_some_iff.mp hframed
  obtain ⟨rfl, rfl⟩ :=
    decoders_give_what_was_framed hheader hh hr (array_of_unread hlen) hparse hbody
  obtain rfl : request = rq := Option.some.inj (hrequest.symm.trans hrq)
  obtain ⟨h', hh', hrest⟩ := Option.bind_eq_some_iff.mp hanswer
  obtain ⟨b', hb', hwhole⟩ := Option.bind_eq_some_iff.mp hrest
  exact ⟨h', b', hh', hb', (Option.some.inj hwhole).symm⟩

theorem open_envelope_of_framed {header : ResponseHeader} {content body h b : List UInt8}
    (hh : serialize_delimited_to_ostream content = some h)
    (hb : put_delimited_body_to_ostream body = some b) (hlen : (h ++ b).length ≤ int_max)
    (hparse : pb.parse_header content = some header) (hne : body ≠ []) :
    open_envelope pb (h ++ b) = some (header, body) := by
  obtain ⟨i, i', hp, hg⟩ := (roundTrip_iff hparse hh hb (array_of_unread hlen)).mpr hne
  unfold open_envelope
  rw [hp]
  simp only [Option.bind_eq_bind, Option.bind_some, hg]

end Framing

/-! ## A call -/

section Call

variable {R T : Type} (fw : Framework) (pb : Protobuf R T) (sp : ServerProtobuf R T)

/-- The header of a request, by its service. -/
def sent_header (header : RequestHeader) : Service → RequestHeader
  | .endpoint => fwrq_header fw.service_id_endpoint_broker
  | .core => fwrq_header fw.service_id_routing
  | _ => header

/-- The version of the messages of a service. -/
def message_version : Service → Nat × Nat
  | .sql => (1, 6)
  | _ => (0, 0)

/-- What the caller is to get. -/
def outcome : Except Record T → Except Error (Option T)
  | .ok response => .ok (some response)
  | .error record => .error (throw_tgctl_runtime_error record)

/-- Each side reads what the other side writes of a call, and an answer is not empty. -/
structure Agree (header : RequestHeader) (version : Nat × Nat) (request : R)
    (answer : Except Record T) : Prop where
  request_header : sp.parse_request_header (pb.serialize_header header) = some header
  request : sp.parse_request (pb.serialize_request version.1 version.2 request) = some request
  response_header : pb.parse_header (sp.serialize_response_header ⟨payload_type answer⟩) =
    some ⟨payload_type answer⟩
  response : ∀ response, answer = .ok response →
    pb.parse_response (sp.serialize_response response) = some response
  record : ∀ record, answer = .error record →
    pb.parse_record (sp.serialize_record record) = some record
  not_empty : payload sp answer ≠ []

variable {fw pb sp} {header : RequestHeader} {request : R} {service : Service}
  {exchange : List UInt8 → Except Error (List UInt8)} {sst : List UInt8}

theorem sent_message_eq (header : RequestHeader) (request : R) (service : Service) :
    sent_message fw pb header request service =
      request_message pb (sent_header fw header service) (message_version service).1
        (message_version service).2 request := by
  cases service <;> rfl

theorem send_request_of_envelope {header : RequestHeader} {major minor : Nat}
    {res_message body : List UInt8} {answer : Except Record T}
    (hs : request_message pb header major minor request = some sst)
    (hx : exchange sst = .ok res_message)
    (he : open_envelope pb res_message = some (⟨payload_type answer⟩, body))
    (hok : ∀ response, answer = .ok response → pb.parse_response body = some response)
    (herr : ∀ record, answer = .error record → pb.parse_record body = some record) :
    send_request pb header major minor exchange request = outcome answer := by
  unfold send_request
  rw [hs]
  simp only [hx, Bind.bind, Except.bind, he]
  cases answer with
  | ok response => simp [payload_type, hok response rfl, outcome]
  | error record => simp [payload_type, herr record rfl, outcome]

/-- `send` gives the answer that the envelope has. The overload for datastore does so for
a service result. -/
theorem send_of_envelope {res_message body : List UInt8} {answer : Except Record T}
    (hs : sent_message fw pb header request service = some sst)
    (hx : exchange sst = .ok res_message)
    (he : open_envelope pb res_message = some (⟨payload_type answer⟩, body))
    (hok : ∀ response, answer = .ok response → pb.parse_response body = some response)
    (herr : ∀ record, answer = .error record → pb.parse_record body = some record)
    (hdatastore : service = .datastore → ∃ response, answer = .ok response) :
    send fw pb header exchange request service = outcome answer := by
  cases service with
  | datastore =>
    obtain ⟨response, rfl⟩ := hdatastore rfl
    show send_datastore pb header exchange request = _
    unfold send_datastore
    rw [show request_message pb header 0 0 request = some sst from hs]
    simp only [hx, Bind.bind, Except.bind, he, hok response rfl]
    rfl
  | _ => exact send_request_of_envelope hs hx he hok herr

end Call

/-! ## Over every run of a session -/

section Session

open simple_wire session_exchange

variable {R T : Type}

/-- The server answers the k-th request by `handle k`, and its messages have a size. -/
def Serves (sp : ServerProtobuf R T) (handle : Nat → RequestHeader → R → Except Record T)
    (k : Nat) (message reply : List UInt8) : Prop :=
  reply_message sp (handle k) message = some reply ∧ reply.length ≤ int_max

theorem take_size {message : List UInt8} (h : message.length ≤ int_max) :
    message.take (message.length % 2 ^ 32) = message := by
  rw [size_mod h, List.take_length]

/-- In every run of a session, where the server answers the k-th request that it reads by
`handle k`, a call of `send` that has its response returns what `handle` has made of the
very header and request of this call. -/
theorem a_send_is_a_remote_call (fw : Framework) (pb : Protobuf R T) (sp : ServerProtobuf R T)
    (handle : Nat → RequestHeader → R → Except Record T)
    (request_capacity response_capacity : Nat) (request_buffer response_buffer : Nat → UInt8)
    (empty : MessageHeader) (acts : List session_exchange.Act) (s : session_exchange.Sys)
    (hreq : WireHeader.size MessageHeader < request_capacity) (hreq' : request_capacity < 2 ^ 64)
    (hres : WireHeader.size simple_wire.ResponseHeader < response_capacity)
    (hres' : response_capacity < 2 ^ 64)
    (hr : RunOf session_exchange.step (ServedBy (Serves sp handle))
      (init request_capacity request_buffer empty response_capacity response_buffer) acts s)
    (hw : Counted s) (header : RequestHeader) (request : R) (service : Service)
    (c : session_send.Call) (hc : c ∈ s.requests.calls)
    (hsent : sent_message fw pb header request service = some c.request.req_message)
    (hsize : c.request.req_message.length ≤ int_max)
    (hreturned : s.responses.results c.thread ≠ []) :
    ∃ (k : Nat) (res_message : List UInt8), s.requests.entered[k]? = some c ∧
      s.responses.results c.thread = [res_message] ∧
      let answer := handle k (sent_header fw header service) request
      Agree pb sp (sent_header fw header service) (message_version service) request answer →
      (service = .datastore → ∃ response, answer = .ok response) →
      ∀ exchange, exchange c.request.req_message = .ok res_message →
        send fw pb header exchange request service = outcome answer := by
  obtain ⟨k, reply, hk, ⟨hreply, hlen⟩, hresult⟩ :=
    a_response_follows_from_its_request request_capacity response_capacity request_buffer
      response_buffer empty acts s hreq hreq' hres hres' hr hw c hc hreturned
  refine ⟨k, reply, hk, hresult.trans (congrArg (fun r => [r]) (take_size hlen)), ?_⟩
  intro answer hagree hdatastore exchange hx
  rw [show c.request.message.payload = c.request.req_message from take_size hsize] at hreply
  have hframed := hsent
  rw [sent_message_eq] at hframed
  obtain ⟨h, b, hh, hb, rfl⟩ :=
    reply_to_request hframed hsize hagree.request_header hagree.request hreply
  have he := open_envelope_of_framed hh hb hlen hagree.response_header hagree.not_empty
  refine send_of_envelope hsent hx he ?_ ?_ hdatastore
  · intro response hanswer
    have hread := hagree.response response hanswer
    show pb.parse_response (payload sp answer) = some response
    rwa [hanswer]
  · intro record hanswer
    have hread := hagree.record record hanswer
    show pb.parse_record (payload sp answer) = some record
    rwa [hanswer]

/-- The bytes of a request for the encryption key, and of a short key. -/
def keyMessages : Protobuf Unit (List UInt8) where
  serialize_header := fun header => [16, 1, 88, UInt8.ofNat header.service_id]
  serialize_request := fun _ _ _ => [106, 0]
  parse_header := fewMessages.parse_header
  parse_record := fewMessages.parse_record
  parse_response := fun bytes => if bytes.take 2 = [90, 3] then some (bytes.drop 4) else none

def keyService : ServerProtobuf Unit (List UInt8) where
  parse_request_header := fun bytes =>
    if bytes = [16, 1, 88, 1] then some (fwrq_header 1) else none
  parse_request := fun bytes => if bytes = [106, 0] then some () else none
  serialize_response_header := fun header =>
    if header.payload_type = .service_result then [96, 2] else [96, 1]
  serialize_response := fun encryption_key => [90, 3, 90, 1] ++ encryption_key
  serialize_record := fun _ => [88, 12, 98, 2, 110, 111]

/-- The first request is answered with the key K, and the second with the key L. -/
def keys (k : Nat) (_ : RequestHeader) (_ : Unit) : Except Record (List UInt8) :=
  .ok [75 + UInt8.ofNat k]

def keyRequest : List UInt8 := [4, 16, 1, 88, 1, 2, 106, 0]

def keyReply (key : UInt8) : List UInt8 := [2, 96, 2, 5, 90, 3, 90, 1, key]

/-- A test for `ServedBy`. -/
def served (s : session_exchange.Sys) : session_exchange.Act → Bool
  | .reply k reply =>
    match s.requests.wire.received[k]? with
    | some (_, message) =>
      reply_message keyService (keys k) message == some reply && decide (reply.length ≤ int_max)
    | none => true
  | _ => true

theorem servedBy_of_test (s : session_exchange.Sys) (a : session_exchange.Act)
    (h : served s a = true) : ServedBy (Serves keyService keys) s a := by
  cases a with
  | reply k reply =>
    intro header message hrec
    simp only [served, hrec, Bool.and_eq_true, beq_iff_eq, decide_eq_true_eq] at h
    exact h
  | _ => trivial

/-- Two threads ask for the key, and the second one is answered first. -/
def crossedKeys : List session_exchange.Act :=
  crossed keyRequest keyRequest (keyReply 75) (keyReply 76)

theorem a_send_is_a_remote_call_for_a_key :
    ∃ s, RunOf session_exchange.step (ServedBy (Serves keyService keys))
        (init 64 (fun _ => 0) ⟨0, 0⟩ 64 fun _ => 0) crossedKeys s ∧
      s.responses.results 1 = [keyReply 76] ∧
      ∀ exchange, exchange keyRequest = .ok (keyReply 76) →
        send ⟨1, 0⟩ keyMessages ⟨0, 1, 2, 5⟩ exchange () .endpoint = .ok (some [76]) := by
  obtain ⟨s, hr, hp⟩ := RunOf.exists_of_exec
    (s := init 64 (fun _ => 0) ⟨0, 0⟩ 64 fun _ => 0) (c := served) servedBy_of_test
    (p := fun s => s.responses.results 1 = [keyReply 76] ∧
      s.requests.calls = [⟨0, keyRequest, 0⟩, ⟨1, keyRequest, 1⟩] ∧
      s.requests.entered = [⟨0, keyRequest, 0⟩, ⟨1, keyRequest, 1⟩] ∧
      (stream s.responses.wire.sent).length = 34)
    (by decide +kernel : (exec (guarded session_exchange.step served) _ crossedKeys).any _ = true)
  obtain ⟨h1, hcalls, hentered, hlen⟩ : s.responses.results 1 = [keyReply 76] ∧
      s.requests.calls = [⟨0, keyRequest, 0⟩, ⟨1, keyRequest, 1⟩] ∧
      s.requests.entered = [⟨0, keyRequest, 0⟩, ⟨1, keyRequest, 1⟩] ∧
      (stream s.responses.wire.sent).length = 34 := by simpa using hp
  refine ⟨s, hr, h1, ?_⟩
  obtain ⟨k, res_message, hk, hres, hcall⟩ :=
    a_send_is_a_remote_call ⟨1, 0⟩ keyMessages keyService keys 64 64 _ _ _ _ s (by decide)
      (by decide) (by decide) (by decide) hr ⟨by rw [hcalls]; decide, by omega⟩ ⟨0, 1, 2, 5⟩ ()
      .endpoint ⟨1, keyRequest, 1⟩ (by rw [hcalls]; simp) (by decide) (by decide)
      (by rw [h1]; simp)
  obtain rfl : res_message = keyReply 76 := List.singleton_inj.mp (hres.symm.trans h1)
  obtain rfl : k = 1 := by
    rw [hentered] at hk
    match k with
    | 0 => simp at hk
    | 1 => rfl
    | k + 2 => simp at hk
  refine hcall ⟨by decide, by decide, by decide, ?_, ?_, by decide⟩ (fun h => by cases h)
  · intro response hanswer
    cases hanswer
    decide
  · intro record hanswer
    cases hanswer

end Session

end tateyama_bootstrap.transport
