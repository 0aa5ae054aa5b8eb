-- The lines that `monitor` writes for data (monitor/monitor.cpp, monitor/monitor_request.cpp):
-- each is put together from the prefixes of monitor/constants.h and the arguments, of which
-- nothing is escaped.
import TateyamaBootstrap.JsonTexts

open json

namespace tateyama_bootstrap.monitor_output

/-! ## The prefixes -/

def TIME_STAMP : Text := ascii "\"timestamp\": "
def KIND_DATA : Text := ascii "\"kind\": \"data\""
def FORMAT_SESSION_INFO : Text := ascii "\"format\": \"session-info\""
def SESSION_ID : Text := ascii "\"session_id\": "
def LABEL : Text := ascii "\"label\": \""
def APPLICATION : Text := ascii "\"application\": \""
def USER : Text := ascii "\"user\": \""
def START_AT : Text := ascii "\"start_at\": \""
def CONNECTION_TYPE : Text := ascii "\"connection_type\": \""
def CONNECTION_INFO : Text := ascii "\"connection_info\": \""
def FORMAT_DBSTATS_DESCRIPTION : Text := ascii "\"format\": \"dbstats_description\""
def FORMAT_DBSTATS : Text := ascii "\"format\": \"dbstats\""
def METRICS : Text := ascii "\"metrics\": \""
def FORMAT_CONFIG : Text := ascii "\"format\": \"config\""
def SECTION : Text := ascii "\"section\": \""
def KEY : Text := ascii "\"key\": \""
def VALUE : Text := ascii "\"value\": \""
def FORMAT_REQUEST_LIST : Text := ascii "\"format\": \"request_list\""
def REQUEST_ID : Text := ascii "\"request_id\": "
def SERVICE_ID : Text := ascii "\"service_id\": "
def PAYLOAD_SIZE : Text := ascii "\"payload_size\": "
def ELAPSED_TIME : Text := ascii "\"elapsed_time\": "
def FORMAT_REQUEST_PAYLOAD : Text := ascii "\"format\": \"request_payload\""
def PAYLOAD : Text := ascii "\"payload\": \""
def FORMAT_REQUEST_EXTRACT_SQL : Text := ascii "\"format\": \"request_extract-sql\""
def TYPE : Text := ascii "\"type\": \""
def TRANSACTION_ID : Text := ascii "\"transaction_id\": \""
def SQL : Text := ascii "\"sql\": \""

/-! ## The type of an SQL text -/

inductive TypeOfSql
  | begin
  | commit
  | rollback
  | prepare
  | query
  | statement
  | explain
  | dump
  | load
  | others
  | unknown
deriving DecidableEq, Repr

def TypeOfSql.to_string_view : TypeOfSql → Text
  | .begin => ascii "begin"
  | .commit => ascii "commit"
  | .rollback => ascii "rollback"
  | .prepare => ascii "prepare"
  | .query => ascii "query"
  | .statement => ascii "statement"
  | .explain => ascii "explain"
  | .dump => ascii "dump"
  | .load => ascii "load"
  | .others => ascii "others"
  | .unknown => ascii "unknown"

def isspace (b : UInt8) : Bool := b = 0x20 || (0x09 ≤ b && b ≤ 0x0d)

def tolower (b : UInt8) : UInt8 := if 0x41 ≤ b ∧ b ≤ 0x5a then b + 0x20 else b

/-- The blanks at the front are taken away, and the case is ignored. -/
def begins_with (sql pattern : Text) : Bool :=
  ((sql.dropWhile isspace).take pattern.length).map tolower = pattern.map tolower

def identify_sql_type (sql : Text) : TypeOfSql :=
  if begins_with sql (ascii "begin") then .begin
  else if begins_with sql (ascii "commit") then .commit
  else if begins_with sql (ascii "rollback") then .rollback
  else if begins_with sql (ascii "prepare") then .prepare
  else if begins_with sql (ascii "select") then .query
  else if begins_with sql (ascii "insert") || begins_with sql (ascii "update") ||
      begins_with sql (ascii "delete") then .statement
  else if begins_with sql (ascii "explain") then .explain
  else if begins_with sql (ascii "dump") then .dump
  else if begins_with sql (ascii "load") then .load
  else .others

/-! ## The lines -/

/-- A call of `monitor` that writes data. -/
inductive Call
  | session_info (session_id label application user start_at connection_type
      connection_info : Text)
  | dbstats_description (data : Text)
  | dbstats (data : Text)
  | config_item («section» key value : Text)
  | request_list (session_id request_id service_id payload_size elapsed_time : Nat)
  | request_payload (payload : Text)
  | request_extract_sql (transaction_id sql : Option Text)

/-- What the calls begin with. `now` is the answer of `time`. -/
def begin_data (now : Int) (format : Text) : Text :=
  List.flatten [ascii "\x7b ", TIME_STAMP, int_text now, ascii ", ", KIND_DATA, ascii ", ", format]

namespace Call

/-- What the call writes to the stream. -/
def emit (now : Int) : Call → Text
  | .session_info session_id label application user start_at connection_type connection_info =>
    List.flatten [begin_data now FORMAT_SESSION_INFO, ascii ", ",
      SESSION_ID, ascii "\":", session_id, ascii "\" , ",
      LABEL, label, ascii "\", ",
      APPLICATION, application, ascii "\", ",
      USER, user, ascii "\", ",
      START_AT, start_at, ascii "\", ",
      CONNECTION_TYPE, connection_type, ascii "\", ",
      CONNECTION_INFO, connection_info, ascii "\" \x7d\n"]
  | .dbstats_description data =>
    List.flatten [begin_data now FORMAT_DBSTATS_DESCRIPTION, ascii ", ",
      METRICS, data, ascii "\" \x7d\n"]
  | .dbstats data =>
    List.flatten [begin_data now FORMAT_DBSTATS, ascii ", ", METRICS, data, ascii "\" \x7d\n"]
  | .config_item «section» key value =>
    List.flatten [begin_data now FORMAT_CONFIG, ascii ", ",
      SECTION, «section», ascii "\", ",
      KEY, key, ascii "\", ",
      VALUE, value, ascii "\" \x7d\n"]
  | .request_list session_id request_id service_id payload_size elapsed_time =>
    List.flatten [begin_data now FORMAT_REQUEST_LIST, ascii ", ",
      SESSION_ID, nat_text session_id, ascii ", ",
      REQUEST_ID, nat_text request_id, ascii ", ",
      SERVICE_ID, nat_text service_id, ascii ", ",
      PAYLOAD_SIZE, nat_text payload_size, ascii ", ",
      ELAPSED_TIME, nat_text elapsed_time, ascii " \x7d\n"]
  | .request_payload payload =>
    List.flatten [begin_data now FORMAT_REQUEST_PAYLOAD, ascii ", ",
      PAYLOAD, payload, ascii "\" \x7d\n"]
  | .request_extract_sql transaction_id sql =>
    List.flatten [begin_data now FORMAT_REQUEST_EXTRACT_SQL,
      match transaction_id with
      | some id => List.flatten [ascii ", ", TRANSACTION_ID, id, ascii "\""]
      | none => [],
      match sql with
      | some sql => List.flatten [ascii ", ", SQL, sql, ascii "\", ",
          TYPE, (identify_sql_type sql).to_string_view, ascii "\""]
      | none => [],
      ascii " \x7d\n"]

/-! ## Faithful lines -/

/-- The arguments under the names of their fields. An argument that is not given has no field. -/
def arguments : Call → List (Text × Option Raw)
  | .session_info session_id label application user start_at connection_type connection_info =>
    [(ascii "session_id", some (.quoted session_id)), (ascii "label", some (.quoted label)),
      (ascii "application", some (.quoted application)), (ascii "user", some (.quoted user)),
      (ascii "start_at", some (.quoted start_at)),
      (ascii "connection_type", some (.quoted connection_type)),
      (ascii "connection_info", some (.quoted connection_info))]
  | .dbstats_description data | .dbstats data => [(ascii "metrics", some (.quoted data))]
  | .config_item «section» key value =>
    [(ascii "section", some (.quoted «section»)), (ascii "key", some (.quoted key)),
      (ascii "value", some (.quoted value))]
  | .request_list session_id request_id service_id payload_size elapsed_time =>
    [(ascii "session_id", some (.number session_id)),
      (ascii "request_id", some (.number request_id)),
      (ascii "service_id", some (.number service_id)),
      (ascii "payload_size", some (.number payload_size)),
      (ascii "elapsed_time", some (.number elapsed_time))]
  | .request_payload payload => [(ascii "payload", some (.quoted payload))]
  | .request_extract_sql transaction_id sql =>
    [(ascii "transaction_id", transaction_id.map .quoted), (ascii "sql", sql.map .quoted)]

/-- The text is one line, the line is a JSON object, and every argument is read back from its
field. -/
def Faithful (now : Int) (call : Call) : Prop :=
  ∃ line ms, call.emit now = line ++ [0x0a] ∧ 0x0a ∉ line ∧ parse line = some (.object ms) ∧
    ∀ a ∈ call.arguments,
      match a.2 with
      | some raw => Field ms a.1 raw.denotes
      | none => ms.filter (fun m => m.1 = a.1) = []

/-- `session_info` aside, every argument is a string of characters that stand for themselves
in JSON, or a number. -/
def Clean : Call → Prop
  | .session_info .. => False
  | call => ∀ a ∈ call.arguments, ∀ raw, a.2 = some raw → raw.Clean

/-! ## The members of a line -/

/-- The members that each line has behind the time stamp, and then `fields`. -/
def members_of (format : Text) (fields : List (Text × Raw)) : List (Text × Raw) :=
  (ascii "kind", .quoted (ascii "data")) :: (ascii "format", .quoted format) :: fields

/-- The fields of an SQL text: the text, and its type. -/
def sql_fields : Option Text → List (Text × Raw)
  | none => []
  | some sql => [(ascii "sql", .quoted sql),
      (ascii "type", .quoted (identify_sql_type sql).to_string_view)]

/-- The members of a line behind the time stamp. What `session_info` writes is not of this
kind. -/
def items : Call → List (Text × Raw)
  | .session_info .. => []
  | .dbstats_description data =>
    members_of (ascii "dbstats_description") [(ascii "metrics", .quoted data)]
  | .dbstats data => members_of (ascii "dbstats") [(ascii "metrics", .quoted data)]
  | .config_item «section» key value =>
    members_of (ascii "config") [(ascii "section", .quoted «section»), (ascii "key", .quoted key),
      (ascii "value", .quoted value)]
  | .request_list session_id request_id service_id payload_size elapsed_time =>
    members_of (ascii "request_list") [(ascii "session_id", .number session_id),
      (ascii "request_id", .number request_id), (ascii "service_id", .number service_id),
      (ascii "payload_size", .number payload_size),
      (ascii "elapsed_time", .number elapsed_time)]
  | .request_payload payload =>
    members_of (ascii "request_payload") [(ascii "payload", .quoted payload)]
  | .request_extract_sql none sql => members_of (ascii "request_extract-sql") (sql_fields sql)
  | .request_extract_sql (some id) sql =>
    members_of (ascii "request_extract-sql")
      ((ascii "transaction_id", .quoted id) :: sql_fields sql)

def IsSessionInfo : Call → Prop
  | .session_info .. => True
  | _ => False

theorem int_text_of_nat (n : Nat) : int_text n = nat_text n := by
  unfold int_text
  rw [if_neg (by omega), Int.natAbs_natCast]

/-- The first members of a line. -/
theorem begin_data_append (now : Int) (format t : Text) :
    begin_data now (pair (ascii "format", .quoted format)) ++ t =
      0x7b :: 0x20 :: (pair (ascii "timestamp", .number now) ++
        0x2c :: 0x20 :: (pair (ascii "kind", .quoted (ascii "data")) ++
          0x2c :: 0x20 :: (pair (ascii "format", .quoted format) ++ t))) := by
  simp only [begin_data, pair, Raw.text, List.flatten_cons, List.flatten_nil, List.append_assoc,
    List.append_nil, List.cons_append, List.nil_append]
  rfl

/-- A line that ends in `fields` is the text of an object. -/
theorem object_text_members (now : Int) (format : Text) (fields : List (Text × Raw)) :
    object_text (ascii "timestamp", .number now) (members_of format fields) =
      begin_data now (pair (ascii "format", .quoted format)) ++ rest fields := by
  rw [begin_data_append]
  rfl

/-- The pieces of a line, put together, are the text of an object. -/
theorem emit_eq (now : Int) {call : Call} (h : ¬ call.IsSessionInfo) :
    call.emit now = object_text (ascii "timestamp", .number now) call.items ++ [0x0a] := by
  have hline : ∀ {head format t : Text} {fields : List (Text × Raw)},
      head = pair (ascii "format", .quoted format) → t = rest fields ++ [0x0a] →
      begin_data now head ++ t =
        object_text (ascii "timestamp", .number now) (members_of format fields) ++ [0x0a] := by
    rintro _ format _ fields rfl rfl
    rw [object_text_members, List.append_assoc]
  cases call with
  | session_info => exact absurd trivial h
  | request_extract_sql transaction_id sql =>
    cases transaction_id <;> cases sql <;>
      refine hline (by decide +kernel) ?_ <;>
      simp only [sql_fields, pair, rest, Raw.text, List.flatten_cons, List.flatten_nil,
        List.append_assoc, List.append_nil, List.cons_append, List.nil_append] <;>
      rfl
  | _ =>
    refine hline (by decide +kernel) ?_
    simp only [pair, rest, Raw.text, int_text_of_nat, List.flatten_cons, List.flatten_nil,
      List.append_assoc, List.append_nil, List.cons_append, List.nil_append]
    rfl

theorem named_items {call : Call} (h : ¬ call.IsSessionInfo) :
    Named (ascii "timestamp" :: call.items.map Prod.fst) := by
  cases call with
  | session_info => exact absurd trivial h
  | dbstats_description data | dbstats data =>
    exact (by decide +kernel : Named [ascii "timestamp", ascii "kind", ascii "format",
      ascii "metrics"])
  | config_item =>
    exact (by decide +kernel : Named [ascii "timestamp", ascii "kind", ascii "format",
      ascii "section", ascii "key", ascii "value"])
  | request_list =>
    exact (by decide +kernel : Named [ascii "timestamp", ascii "kind", ascii "format",
      ascii "session_id", ascii "request_id", ascii "service_id", ascii "payload_size",
      ascii "elapsed_time"])
  | request_payload =>
    exact (by decide +kernel : Named [ascii "timestamp", ascii "kind", ascii "format",
      ascii "payload"])
  | request_extract_sql transaction_id sql =>
    cases transaction_id with
    | none =>
      cases sql with
      | none => exact (by decide +kernel : Named [ascii "timestamp", ascii "kind", ascii "format"])
      | some sql =>
        exact (by decide +kernel : Named [ascii "timestamp", ascii "kind", ascii "format",
          ascii "sql", ascii "type"])
    | some id =>
      cases sql with
      | none =>
        exact (by decide +kernel : Named [ascii "timestamp", ascii "kind", ascii "format",
          ascii "transaction_id"])
      | some sql =>
        exact (by decide +kernel : Named [ascii "timestamp", ascii "kind", ascii "format",
          ascii "transaction_id", ascii "sql", ascii "type"])

theorem clean_type (sql : Text) :
    (Raw.quoted (identify_sql_type sql).to_string_view).Clean := by
  cases identify_sql_type sql <;> decide +kernel

/-- A member is an argument, or it is one of the words that the code puts in. -/
theorem item_cases {call : Call} :
    ∀ q ∈ call.items, q.2.Clean ∨ (q.1, some q.2) ∈ call.arguments := by
  have hkind : (Raw.quoted (ascii "data")).Clean := by decide +kernel
  have hmembers : ∀ {format : Text} {fields : List (Text × Raw)}, (Raw.quoted format).Clean →
      (∀ q ∈ fields, q.2.Clean ∨ (q.1, some q.2) ∈ call.arguments) →
      ∀ q ∈ members_of format fields, q.2.Clean ∨ (q.1, some q.2) ∈ call.arguments := by
    intro format fields hformat hfields q hq
    rcases List.mem_cons.mp hq with rfl | hq
    · exact Or.inl hkind
    rcases List.mem_cons.mp hq with rfl | hq
    · exact Or.inl hformat
    · exact hfields q hq
  have hsql : ∀ {sql : Option Text}, (∀ y, sql = some y →
      (ascii "sql", some (.quoted y)) ∈ call.arguments) →
      ∀ q ∈ sql_fields sql, q.2.Clean ∨ (q.1, some q.2) ∈ call.arguments := by
    intro sql hmem q hq
    cases sql with
    | none => cases hq
    | some y =>
      simp only [sql_fields, List.mem_cons, List.not_mem_nil, or_false] at hq
      rcases hq with rfl | rfl
      · exact Or.inr (hmem y rfl)
      · exact Or.inl (clean_type y)
  cases call with
  | session_info =>
    intro q hq
    cases hq
  | request_extract_sql transaction_id sql =>
    cases transaction_id with
    | none =>
      refine hmembers (by decide +kernel) (hsql ?_)
      rintro y rfl
      simp [arguments]
    | some id =>
      refine hmembers (by decide +kernel) ?_
      intro q hq
      rcases List.mem_cons.mp hq with rfl | hq
      · exact Or.inr (by simp [arguments])
      · refine hsql ?_ q hq
        rintro y rfl
        simp [arguments]
  | _ =>
    refine hmembers (by decide +kernel) ?_
    intro q hq
    right
    simpa [arguments, Prod.ext_iff] using hq

/-- An argument is a member, or it was not given and has none. -/
theorem argument_cases {call : Call} (h : ¬ call.IsSessionInfo) :
    ∀ a ∈ call.arguments,
      match a.2 with
      | some raw => (a.1, raw) ∈ call.items
      | none => a.1 ∉ ascii "timestamp" :: call.items.map Prod.fst := by
  intro a ha
  cases call with
  | session_info => exact absurd trivial h
  | dbstats_description data | dbstats data | request_payload data =>
    obtain rfl := List.mem_singleton.mp ha
    simp [items, members_of]
  | config_item | request_list =>
    simp only [arguments, List.mem_cons, List.not_mem_nil, or_false] at ha
    rcases ha with rfl | rfl | rfl | rfl | rfl <;> simp [items, members_of]
  | request_extract_sql transaction_id sql =>
    simp only [arguments, List.mem_cons, List.not_mem_nil, or_false] at ha
    rcases ha with rfl | rfl
    · cases transaction_id with
      | some id => simp [items, members_of]
      | none =>
        cases sql with
        | none =>
          exact (by decide +kernel : ascii "transaction_id" ∉ [ascii "timestamp", ascii "kind",
            ascii "format"])
        | some sql =>
          exact (by decide +kernel : ascii "transaction_id" ∉ [ascii "timestamp", ascii "kind",
            ascii "format", ascii "sql", ascii "type"])
    · cases sql with
      | some sql => cases transaction_id <;> simp [items, members_of, sql_fields]
      | none =>
        cases transaction_id with
        | none =>
          exact (by decide +kernel : ascii "sql" ∉ [ascii "timestamp", ascii "kind",
            ascii "format"])
        | some id =>
          exact (by decide +kernel : ascii "sql" ∉ [ascii "timestamp", ascii "kind",
            ascii "format", ascii "transaction_id"])

/-! ## When a line is faithful -/

theorem clean_items_iff {call : Call} (h : ¬ call.IsSessionInfo) :
    (∀ q ∈ call.items, q.2.Clean) ↔ call.Clean := by
  have hclean : call.Clean ↔ ∀ a ∈ call.arguments, ∀ raw, a.2 = some raw → raw.Clean := by
    cases call with
    | session_info => exact absurd trivial h
    | _ => rfl
  rw [hclean]
  constructor
  · intro hitems a ha raw hraw
    have hmem := argument_cases h a ha
    rw [hraw] at hmem
    exact hitems _ hmem
  · intro hargs q hq
    rcases item_cases q hq with hq | hq
    · exact hq
    · exact hargs _ hq _ rfl

theorem faithful_iff (now : Int) {call : Call} (h : ¬ call.IsSessionInfo) :
    call.Faithful now ↔ call.Clean := by
  obtain ⟨hdistinct, hnames⟩ := named_items h
  have hnodup : (((ascii "timestamp", Raw.number now) :: call.items).map Prod.fst).Nodup :=
    hdistinct
  have hname : ∀ q ∈ (ascii "timestamp", Raw.number now) :: call.items,
      (Raw.quoted q.1).Clean := by
    intro q hq
    exact hnames _ (List.mem_map_of_mem (f := Prod.fst) hq)
  rw [← clean_items_iff h]
  constructor
  · rintro ⟨line, ms, hemit, -, hparse, hfields⟩
    rw [emit_eq now h] at hemit
    obtain rfl := (List.append_inj' hemit rfl).1
    have hclean := clean_of_parse hname hnodup hparse (by
      intro q hq
      rcases List.mem_cons.mp hq with rfl | hq
      · exact Or.inl trivial
      · exact (item_cases q hq).imp_right fun ha => hfields _ ha)
    exact fun q hq => hclean q (List.mem_cons_of_mem _ hq)
  · intro hitems
    have hclean : ∀ q ∈ (ascii "timestamp", Raw.number now) :: call.items, q.2.Clean := by
      intro q hq
      rcases List.mem_cons.mp hq with rfl | hq
      · trivial
      · exact hitems q hq
    refine ⟨_, _, emit_eq now h, newline_not_mem hname hclean,
      parse_object_text hname hclean, ?_⟩
    intro a ha
    have hmem := argument_cases h a ha
    split at hmem
    · exact field_meant hnodup _ (List.mem_cons_of_mem _ hmem)
    · rw [List.filter_eq_nil_iff]
      intro m hm
      obtain ⟨q, hq, rfl⟩ := List.mem_map.mp hm
      have hne : q.1 ≠ a.1 := fun heq => hmem (heq ▸ List.mem_map_of_mem (f := Prod.fst) hq)
      simpa using hne

/-- `session_info` puts a quote and a colon before the session id: whatever the id is, the
field does not read as it. -/
theorem not_faithful_session_info (now : Int)
    {session_id label application user start_at connection_type connection_info : Text} :
    ¬ Faithful now (.session_info session_id label application user start_at connection_type
      connection_info) := by
  rintro ⟨line, ms, hemit, -, hparse, hfields⟩
  obtain ⟨t, ht⟩ : ∃ t, emit now (.session_info session_id label application user start_at
      connection_type connection_info) =
      (0x7b :: 0x20 :: (pair (ascii "timestamp", .number now) ++
        0x2c :: 0x20 :: (pair (ascii "kind", .quoted (ascii "data")) ++
          0x2c :: 0x20 :: (pair (ascii "format", .quoted (ascii "session-info")) ++
            0x2c :: 0x20 :: (pair (ascii "session_id", .quoted (0x3a :: session_id)) ++
              t))))) ++ [0x0a] := by
    have hformat : FORMAT_SESSION_INFO =
        pair (ascii "format", .quoted (ascii "session-info")) := by decide +kernel
    refine ⟨List.flatten [ascii " , ", LABEL, label, ascii "\", ", APPLICATION, application,
      ascii "\", ", USER, user, ascii "\", ", START_AT, start_at, ascii "\", ", CONNECTION_TYPE,
      connection_type, ascii "\", ", CONNECTION_INFO, connection_info, ascii "\" \x7d"], ?_⟩
    rw [← begin_data_append, ← hformat]
    simp only [emit, pair, Raw.text, List.flatten_cons, List.flatten_nil, List.append_assoc,
      List.append_nil, List.cons_append, List.nil_append]
    rfl
  rw [ht] at hemit
  obtain rfl := (List.append_inj' hemit rfl).1
  have htime : (Raw.quoted (ascii "timestamp")).Clean := by decide +kernel
  have hkind : (Raw.quoted (ascii "kind")).Clean := by decide +kernel
  have hformat : (Raw.quoted (ascii "format")).Clean := by decide +kernel
  have hid : (Raw.quoted (ascii "session_id")).Clean := by decide +kernel
  -- the three members before the session id are read as they are meant
  obtain ⟨-, k, r, hms⟩ := members_of_parse hparse
  obtain ⟨k1, ms1, hms1, rfl⟩ := members_skip htime (p := (ascii "timestamp", .number now))
    trivial hms
  obtain ⟨k2, ms2, hms2, rfl⟩ := members_skip hkind
    (p := (ascii "kind", .quoted (ascii "data"))) (by decide +kernel) hms1
  obtain ⟨k3, ms3, hms3, rfl⟩ := members_skip hformat
    (p := (ascii "format", .quoted (ascii "session-info"))) (by decide +kernel) hms2
  obtain ⟨v, ms4, rfl, hne⟩ := members_with_prefix hid (by decide) hms3
  have hfield : Field _ (ascii "session_id") (.string session_id) :=
    hfields (ascii "session_id", some (.quoted session_id)) (by simp [arguments])
  have htime_ne : ascii "timestamp" ≠ ascii "session_id" := by decide +kernel
  have hkind_ne : ascii "kind" ≠ ascii "session_id" := by decide +kernel
  have hformat_ne : ascii "format" ≠ ascii "session_id" := by decide +kernel
  have hread := (((hfield.tail htime_ne).tail hkind_ne).tail hformat_ne).head
  exact hne (Json.string.inj hread)

end Call

/-- A line of data is faithful exactly when it is none of `session_info` and all its string
arguments are of characters that stand for themselves in JSON. -/
theorem lines_are_faithful (now : Int) (call : Call) : call.Faithful now ↔ call.Clean := by
  by_cases h : call.IsSessionInfo
  · cases call with
    | session_info => exact iff_of_false (Call.not_faithful_session_info now) id
    | _ => exact absurd h id
  · exact Call.faithful_iff now h

/-- A value with a quote in it, and a session without anything peculiar. -/
theorem lines_are_not_faithful :
    ¬ Call.Faithful 0 (.config_item (ascii "a") (ascii "b") (ascii "say \"no\"")) ∧
    ¬ Call.Faithful 0 (.session_info (ascii "7") (ascii "l") (ascii "a") (ascii "u") (ascii "s")
      (ascii "ipc") (ascii "1")) := by
  refine ⟨?_, Call.not_faithful_session_info 0⟩
  rw [Call.faithful_iff 0 id]
  intro h
  have hclean := h (ascii "value", some (.quoted (ascii "say \"no\"")))
    (by simp [Call.arguments]) _ rfl
  exact absurd hclean (by decide +kernel)

end tateyama_bootstrap.monitor_output
