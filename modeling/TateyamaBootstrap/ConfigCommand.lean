-- `tgctl config` (configuration/config.cpp): the settings of the configuration file and
-- those of the default configuration, for a user whom `authenticate` lets pass.
import TateyamaBootstrap.Authenticate
import TateyamaBootstrap.MonitorLog
import TateyamaBootstrap.OrderedMaps

open json ordered_maps

namespace tateyama_bootstrap.configuration

open authentication

/-! ## The command -/

def to_string_view : Reason → Text
  | .absent => ascii "absent"
  | .connection => ascii "connection"
  | .server => ascii "server"
  | .not_found => ascii "not_found"
  | .ambiguous => ascii "ambiguous"
  | .permission => ascii "permission"
  | .variable_not_defined => ascii "variable_not_defined"
  | .variable_invalid_value => ascii "variable_invalid_value"
  | .authentication_failure => ascii "authentication_failure"
  | .connection_timeout => ascii "connection_timeout"
  | .connection_failure => ascii "connection_failure"
  | .io => ascii "io"
  | .interrupted => ascii "interrupted"
  | .internal => ascii "internal"
  | .request_missing => ascii "request_missing"
  | .payload_broken => ascii "payload_broken"
  | .sql_missing => ascii "sql_missing"
  | .sql_unresolved => ascii "sql_unresolved"
  | .initialization => ascii "initialization"
  | .another_process => ascii "another_process"
  | .invalid_status => ascii "invalid_status"
  | .invalid_argument => ascii "invalid_argument"
  | .timeout => ascii "timeout"
  | .unknown => ascii "unknown"

/-- What the command writes: to the standard output, to the standard error, and to the file
that `--monitor` gives. -/
inductive Event
  | out (text : Text)
  | err (text : Text)
  | start
  | config_item («section» key value : Text)
  | finish (rc : Reason)
deriving DecidableEq, Repr

/-- What ends the command before it returns. -/
inductive Stop
  | throws (e : Thrown)
  /-- A prompt waits for ever. -/
  | waits
  /-- A null pointer to a section is dereferenced, or a response read past its end. -/
  | undefined
deriving DecidableEq, Repr

abbrev Cmd := Command Stop Event

/-- A tree that `read_ini` makes: the sections with the names in them. -/
abbrev Tree := List (Text × List Text)

structure ConfigEnv where
  flags : Flags
  quiet : Bool
  show_dev : Bool
  monitor_output : Bool
  /-- `bootstrap_configuration.valid()`. -/
  valid : Bool
  auth : AuthEnv
  /-- The default configuration. -/
  default_tree : Except Thrown Tree
  /-- The configuration file exists. -/
  file_exists : Except Thrown Bool
  /-- The configuration file, or the text of a `ptree_error`. -/
  config_tree : Except Text Tree
  /-- A section has what `get` gives or throws for a name; none for a null pointer. -/
  get_section : Text → Option (Text → Except Thrown (Option Text))

/-- The sections with the names to be shown, `std::map<std::string, std::set<std::string>>`. -/
abbrev Attributes := List (Text × List Text)

def emplace_names (shown : Text → Bool) (tree : Tree) (attributes : Attributes) : Attributes :=
  tree.foldl (fun attributes v1 => upsert v1.1 [] (emplaceAll (v1.2.filter shown)) attributes)
    attributes

/-- The names for developers are left out. -/
def shown_default (show_dev : Bool) (name : Text) : Bool :=
  show_dev || name.take 4 ≠ ascii "dev_"

variable (env : ConfigEnv)

def out (text : Text) : Cmd Unit := if env.quiet then pure () else Command.write (.out text)

def monitored (event : Event) : Cmd Unit :=
  if env.monitor_output then Command.write event else pure ()

def observe {α : Type} : Except Thrown α → Cmd α
  | .ok a => pure a
  | .error e => Command.raise (.throws e)

def section_line («section» : Text) : Text := ascii "[" ++ «section» ++ ascii "]\n"

def item_line (key value : Text) : Text := ascii "    " ++ key ++ ascii "=" ++ value ++ ascii "\n"

/-- A turn of the inner loop. -/
def show_item («section» name : Text) : Cmd Unit :=
  match env.get_section «section» with
  | none => Command.raise .undefined
  | some get => do
    match ← observe (get name) with
    | none => pure ()
    | some value =>
      out env (item_line name value)
      monitored env (.config_item «section» name value)

def show_items («section» : Text) : List Text → Cmd Unit
  | [] => pure ()
  | name :: names => do
    show_item env «section» name
    show_items «section» names

def show_sections : Attributes → Cmd Unit
  | [] => pure ()
  | (name, names) :: attributes => do
    out env (section_line name)
    show_items env name names
    show_sections attributes

/-- What follows the collection of the names. -/
def show_all (attributes : Attributes) : Cmd ReturnCode := do
  show_sections env attributes
  monitored env (.finish .absent)
  return .ok

/-- What follows the authentication. The handler of a `ptree_error` writes no finish record. -/
def settings : Cmd ReturnCode := do
  let default_tree ← observe env.default_tree
  let attributes := emplace_names (shown_default env.show_dev) default_tree []
  if ← observe env.file_exists then
    match env.config_tree with
    | .error what => do
      Command.write (.err (what ++ ascii "\n"))
      return .err
    | .ok config_tree => show_all env (emplace_names (fun _ => true) config_tree attributes)
  else show_all env attributes

/-- An error is told on the standard error and in the finish record. -/
def refuse (reason : Reason) (what : Text) : Cmd ReturnCode := do
  Command.write (.err (ascii "error: reason = " ++ to_string_view reason ++
    ascii ", detail = '" ++ what ++ ascii "'\n"))
  monitored env (.finish reason)
  return .err

/-- What `get_configuration()` throws reaches the caller as an exception of `enabled`, which is
read first. -/
def config (world : World) : Cmd ReturnCode := do
  monitored env .start
  if env.valid then
    match authenticate env.flags env.auth world with
    | none => Command.raise .waits
    | some (.error e, _) => Command.raise (.throws e)
    | some (.ok .undefined, _) => Command.raise .undefined
    | some (.ok (.refused reason what), _) => refuse env reason what
    | some (.ok .accepted, _) => settings env
  else refuse env .not_found (ascii "cannot find the configuration file")

/-! ## The names -/

section

variable {shown : Text → Bool} {tree : Tree} {attributes : Attributes} {«section» key : Text}

theorem emplace_names_cons {x : Text × List Text} :
    emplace_names shown (x :: tree) attributes =
      emplace_names shown tree (upsert x.1 [] (emplaceAll (x.2.filter shown)) attributes) := rfl

theorem emplace_names_ordered (h : Ordered attributes) :
    Ordered (emplace_names shown tree attributes) := by
  induction tree generalizing attributes with
  | nil => exact h
  | cons x tree ih => exact ih (upsert_ordered h)

theorem emplace_names_sets (h : ∀ x ∈ attributes, x.2.Pairwise (· < ·)) :
    ∀ x ∈ emplace_names shown tree attributes, x.2.Pairwise (· < ·) := by
  induction tree generalizing attributes with
  | nil => exact h
  | cons x tree ih =>
    refine ih (forall_upsert (Q := fun set : List Text => set.Pairwise (· < ·)) ?_ ?_ h)
    · exact emplaceAll_pairwise List.Pairwise.nil
    · intro set hset
      exact emplaceAll_pairwise hset

theorem mem_emplace_names_keys :
    «section» ∈ (emplace_names shown tree attributes).map (·.1) ↔
      «section» ∈ tree.map (·.1) ∨ «section» ∈ attributes.map (·.1) := by
  induction tree generalizing attributes with
  | nil => simp [emplace_names]
  | cons x tree ih =>
    rw [emplace_names_cons, ih, mem_keys_upsert, List.map_cons, List.mem_cons, or_left_comm,
      or_assoc]

theorem mem_emplace_names :
    (∃ set, («section», set) ∈ emplace_names shown tree attributes ∧ key ∈ set) ↔
      (∃ names, («section», names) ∈ tree ∧ key ∈ names ∧ shown key = true) ∨
        ∃ set, («section», set) ∈ attributes ∧ key ∈ set := by
  induction tree generalizing attributes with
  | nil => simp [emplace_names]
  | cons x tree ih =>
    have hadd : ∀ set, key ∈ emplaceAll (x.2.filter shown) set ↔
        (key ∈ x.2 ∧ shown key = true) ∨ key ∈ set := by
      intro set
      rw [mem_emplaceAll, List.mem_filter]
    rw [emplace_names_cons, ih,
      exists_upsert (P := fun set : List Text => key ∈ set) (by simp) hadd]
    obtain ⟨name, names⟩ := x
    simp only [List.mem_cons, Prod.mk.injEq, or_and_right, exists_or, and_assoc,
      exists_and_left, exists_eq_left, or_assoc]
    exact or_left_comm

end

/-! ## What the command shows -/

/-- The default configuration and the configuration file can be read; a file that does not
exist has no sections. -/
def Reads (default_tree config_tree : Tree) : Prop :=
  env.default_tree = .ok default_tree ∧
    (env.file_exists = .ok false ∧ config_tree = [] ∨
      env.file_exists = .ok true ∧ env.config_tree = .ok config_tree)

/-- The name is one of the file, or one of the default configuration that is shown. -/
def Named (default_tree config_tree : Tree) («section» key : Text) : Prop :=
  (∃ names, («section», names) ∈ config_tree ∧ key ∈ names) ∨
    ∃ names, («section», names) ∈ default_tree ∧ key ∈ names ∧
      shown_default env.show_dev key = true

/-- `get` returns. -/
def Readable («section» key : Text) : Prop :=
  ∃ get opt, env.get_section «section» = some get ∧ get key = .ok opt

/-- The setting that is in force. -/
def value («section» key : Text) : Option Text :=
  (env.get_section «section»).bind fun get => (get key).toOption.join

/-- The sections with their settings, in order and each once. -/
structure Lists (default_tree config_tree : Tree)
    (listing : List (Text × List (Text × Text))) : Prop where
  sections_ordered : Ordered listing
  keys_ordered : ∀ x ∈ listing, Ordered x.2
  sections : ∀ name, name ∈ listing.map (·.1) ↔
    name ∈ config_tree.map (·.1) ∨ name ∈ default_tree.map (·.1)
  items : ∀ name key v, (∃ items, (name, items) ∈ listing ∧ (key, v) ∈ items) ↔
    Named env default_tree config_tree name key ∧ value env name key = some v

def listing_text (listing : List (Text × List (Text × Text))) : Text :=
  listing.flatMap fun x => section_line x.1 ++ x.2.flatMap fun item => item_line item.1 item.2

def listing_records (listing : List (Text × List (Text × Text))) : List Event :=
  listing.flatMap fun x => x.2.map fun item => .config_item x.1 item.1 item.2

def out? : Event → Option Text
  | .out text => some text
  | _ => none

def record? : Event → Option Event
  | .out _ => none
  | .err _ => none
  | e => some e

/-- A setting on the standard output or in the file of the monitor. -/
def setting? : Event → Option Event
  | .out text => some (.out text)
  | .config_item name key v => some (.config_item name key v)
  | _ => none

/-! ## Commands that come to their end -/

theorem bind_result_ok {α β : Type} {x : Cmd α} {f : α → Cmd β} {b : β} :
    (x >>= f).result = .ok b ↔ ∃ a, x.result = .ok a ∧ (f a).result = .ok b := by
  obtain ⟨l, r⟩ := x
  cases r with
  | ok a =>
    change (f a).result = .ok b ↔ _
    simp
  | error e =>
    change (Except.error e : Except Stop β) = .ok b ↔ _
    simp

theorem seq_result_ok {β : Type} {x : Cmd Unit} {y : Cmd β} {b : β} :
    (x >>= fun _ => y).result = .ok b ↔ x.result = .ok () ∧ y.result = .ok b :=
  bind_result_ok.trans ⟨fun h => h.choose_spec, fun h => ⟨(), h⟩⟩

theorem ends_observe {α V : Type} {view : Event → Option V} {r : Except Thrown α} {a : α}
    (h : r = .ok a) : Command.Ends view (observe r) [] (.ok a) := by
  rw [h]
  exact Command.Ends.pure

theorem observe_result_ok {α : Type} {r : Except Thrown α} {a : α} :
    (observe r).result = .ok a ↔ r = .ok a := by
  cases r with
  | ok b =>
    change (Except.ok b : Except Stop α) = .ok a ↔ _
    simp
  | error e =>
    change (Except.error (.throws e) : Except Stop α) = .ok a ↔ _
    simp

theorem out_result (text : Text) : (out env text).result = .ok () := by
  unfold out
  split <;> rfl

theorem monitored_result (event : Event) : (monitored env event).result = .ok () := by
  unfold monitored
  split <;> rfl

section

variable {env}

theorem show_item_result {«section» key : Text} :
    (show_item env «section» key).result = .ok () ↔ Readable env «section» key := by
  unfold show_item Readable
  rcases env.get_section «section» with _ | get
  · change (Except.error .undefined : Except Stop Unit) = .ok () ↔ _
    simp
  · dsimp only
    rw [bind_result_ok]
    simp only [observe_result_ok, Option.some.injEq, exists_and_left, exists_eq_left']
    refine exists_congr fun opt => and_iff_left_of_imp fun _ => ?_
    cases opt with
    | none => rfl
    | some v => exact seq_result_ok.mpr ⟨out_result env _, monitored_result env _⟩

theorem show_items_result {«section» : Text} {names : List Text} :
    (show_items env «section» names).result = .ok () ↔
      ∀ key ∈ names, Readable env «section» key := by
  induction names with
  | nil =>
    simp only [List.not_mem_nil, false_implies, implies_true, iff_true]
    rfl
  | cons name names ih =>
    rw [show_items, seq_result_ok, List.forall_mem_cons, ih, show_item_result]

theorem show_sections_result {attributes : Attributes} :
    (show_sections env attributes).result = .ok () ↔
      ∀ x ∈ attributes, ∀ key ∈ x.2, Readable env x.1 key := by
  induction attributes with
  | nil =>
    simp only [List.not_mem_nil, false_implies, implies_true, iff_true]
    rfl
  | cons x attributes ih =>
    obtain ⟨name, names⟩ := x
    rw [show_sections, seq_result_ok, seq_result_ok, List.forall_mem_cons, ih, show_items_result]
    exact and_iff_right (out_result env _)

/-! ## What is shown -/

/-- The settings of a section, with the names in the order of `names`. -/
def section_items (env : ConfigEnv) («section» : Text) (names : List Text) : List (Text × Text) :=
  names.filterMap fun key => (value env «section» key).map (key, ·)

def listing (env : ConfigEnv) (attributes : Attributes) : List (Text × List (Text × Text)) :=
  attributes.map fun x => (x.1, section_items env x.1 x.2)

/-- What one setting adds to the two outputs. -/
def item_events (env : ConfigEnv) («section» : Text) (item : Text × Text) : List Event :=
  (if env.quiet then [] else [.out (item_line item.1 item.2)]) ++
    if env.monitor_output then [.config_item «section» item.1 item.2] else []

theorem ends_out (text : Text) :
    Command.Ends some (out env text) (if env.quiet then [] else [.out text]) (.ok ()) := by
  unfold out
  split
  · exact Command.Ends.pure
  · exact Command.Ends.write rfl

theorem ends_monitored (event : Event) :
    Command.Ends some (monitored env event) (if env.monitor_output then [event] else [])
      (.ok ()) := by
  unfold monitored
  split
  · exact Command.Ends.write rfl
  · exact Command.Ends.pure

theorem ends_show_item {«section» key : Text} (h : Readable env «section» key) :
    Command.Ends some (show_item env «section» key)
      ((section_items env «section» [key]).flatMap (item_events env «section»)) (.ok ()) := by
  obtain ⟨get, opt, hsection, hget⟩ := h
  have hvalue : value env «section» key = opt := by
    unfold value
    rw [hsection, Option.bind_some, hget]
    rfl
  unfold show_item section_items
  rw [hsection, List.filterMap_cons, List.filterMap_nil, hvalue]
  refine (ends_observe hget).after ?_
  cases opt with
  | none => exact Command.Ends.pure
  | some v =>
    rw [Option.map_some, List.flatMap_singleton]
    exact (ends_out _).bind (ends_monitored _)

theorem ends_show_items {«section» : Text} {names : List Text}
    (h : ∀ key ∈ names, Readable env «section» key) :
    Command.Ends some (show_items env «section» names)
      ((section_items env «section» names).flatMap (item_events env «section»)) (.ok ()) := by
  induction names with
  | nil => exact Command.Ends.pure
  | cons name names ih =>
    obtain ⟨hname, hnames⟩ := List.forall_mem_cons.mp h
    have hsplit : section_items env «section» (name :: names) =
        section_items env «section» [name] ++ section_items env «section» names := by
      unfold section_items
      rw [← List.filterMap_append]
      rfl
    rw [hsplit, List.flatMap_append]
    exact (ends_show_item hname).bind (ih hnames)

/-- What one section adds to the two outputs. -/
def section_events (env : ConfigEnv) (x : Text × List (Text × Text)) : List Event :=
  (if env.quiet then [] else [.out (section_line x.1)]) ++ x.2.flatMap (item_events env x.1)

theorem ends_show_sections {attributes : Attributes}
    (h : ∀ x ∈ attributes, ∀ key ∈ x.2, Readable env x.1 key) :
    Command.Ends some (show_sections env attributes)
      ((listing env attributes).flatMap (section_events env)) (.ok ()) := by
  induction attributes with
  | nil => exact Command.Ends.pure
  | cons x attributes ih =>
    obtain ⟨hx, hrest⟩ := List.forall_mem_cons.mp h
    rw [listing, List.map_cons, List.flatMap_cons, section_events, List.append_assoc]
    exact (ends_out _).bind ((ends_show_items hx).bind (ih hrest))

/-- All that a command prints. -/
def stdout {α : Type} (x : Cmd α) : Text := (x.log.filterMap out?).flatten

/-- The records of the monitor. -/
def records {α : Type} (x : Cmd α) : List Event := x.log.filterMap record?

theorem section_events_out (x : Text × List (Text × Text)) :
    ((section_events env x).filterMap out?).flatten =
      if env.quiet then [] else section_line x.1 ++ x.2.flatMap fun i => item_line i.1 i.2 := by
  have hitems : ((x.2.flatMap (item_events env x.1)).filterMap out?).flatten =
      if env.quiet then [] else x.2.flatMap fun i => item_line i.1 i.2 := by
    induction x.2 with
    | nil => cases env.quiet <;> rfl
    | cons item items ih =>
      rw [List.flatMap_cons, List.filterMap_append, List.flatten_append, ih, item_events]
      cases env.quiet <;> cases env.monitor_output <;> simp [out?]
  rw [section_events, List.filterMap_append, List.flatten_append, hitems]
  cases env.quiet <;> simp [out?]

theorem section_events_records (x : Text × List (Text × Text)) :
    (section_events env x).filterMap record? =
      if env.monitor_output then x.2.map (fun i => .config_item x.1 i.1 i.2) else [] := by
  have hitems : (x.2.flatMap (item_events env x.1)).filterMap record? =
      if env.monitor_output then x.2.map (fun i => .config_item x.1 i.1 i.2) else [] := by
    induction x.2 with
    | nil => cases env.monitor_output <;> rfl
    | cons item items ih =>
      rw [List.flatMap_cons, List.filterMap_append, ih, item_events]
      cases env.quiet <;> cases env.monitor_output <;> rfl
  rw [section_events, List.filterMap_append, hitems]
  cases env.quiet <;> simp [record?]

theorem listing_out (sections : List (Text × List (Text × Text))) :
    ((sections.flatMap (section_events env)).filterMap out?).flatten =
      if env.quiet then [] else listing_text sections := by
  induction sections with
  | nil => cases env.quiet <;> rfl
  | cons x sections ih =>
    rw [List.flatMap_cons, List.filterMap_append, List.flatten_append, section_events_out, ih]
    cases env.quiet <;> simp [listing_text]

theorem listing_recorded (sections : List (Text × List (Text × Text))) :
    (sections.flatMap (section_events env)).filterMap record? =
      if env.monitor_output then listing_records sections else [] := by
  induction sections with
  | nil => cases env.monitor_output <;> rfl
  | cons x sections ih =>
    rw [List.flatMap_cons, List.filterMap_append, section_events_records, ih]
    cases env.monitor_output <;> simp [listing_records]

/-! ## The listing -/

/-- The names of both trees. -/
def all_names (env : ConfigEnv) (default_tree config_tree : Tree) : Attributes :=
  emplace_names (fun _ => true) config_tree
    (emplace_names (shown_default env.show_dev) default_tree [])

theorem mem_all_names {default_tree config_tree : Tree} {«section» key : Text} :
    (∃ set, («section», set) ∈ all_names env default_tree config_tree ∧ key ∈ set) ↔
      Named env default_tree config_tree «section» key := by
  unfold all_names Named
  simp only [mem_emplace_names, and_true, List.not_mem_nil, false_and, exists_false, or_false]

theorem section_items_ordered {«section» : Text} {names : List Text}
    (h : names.Pairwise (· < ·)) : Ordered (section_items env «section» names) := by
  unfold section_items Ordered
  rw [List.pairwise_filterMap]
  refine h.imp ?_
  intro a b hab x hx y hy
  obtain ⟨v, -, rfl⟩ := Option.map_eq_some_iff.mp hx
  obtain ⟨w, -, rfl⟩ := Option.map_eq_some_iff.mp hy
  exact hab

theorem mem_section_items {«section» key v : Text} {names : List Text} :
    (key, v) ∈ section_items env «section» names ↔
      key ∈ names ∧ value env «section» key = some v := by
  unfold section_items
  simp [List.mem_filterMap]

theorem lists_all_names (default_tree config_tree : Tree) :
    Lists env default_tree config_tree (listing env (all_names env default_tree config_tree)) where
  sections_ordered := by
    have hordered : Ordered (all_names env default_tree config_tree) :=
      emplace_names_ordered (emplace_names_ordered List.Pairwise.nil)
    unfold listing Ordered
    rw [List.pairwise_map]
    exact hordered
  keys_ordered := by
    intro x hx
    obtain ⟨y, hy, rfl⟩ := List.mem_map.mp hx
    exact section_items_ordered (emplace_names_sets (emplace_names_sets (by simp)) y hy)
  sections := by
    intro name
    unfold listing
    rw [List.map_map]
    change name ∈ (all_names env default_tree config_tree).map (·.1) ↔ _
    unfold all_names
    rw [mem_emplace_names_keys, mem_emplace_names_keys]
    simp
  items := by
    intro name key v
    rw [← mem_all_names]
    constructor
    · rintro ⟨items, hlisted, hitem⟩
      obtain ⟨y, hy, heq⟩ := List.mem_map.mp hlisted
      obtain ⟨rfl, rfl⟩ := Prod.mk.inj heq
      obtain ⟨hkey, hvalue⟩ := mem_section_items.mp hitem
      exact ⟨⟨y.2, hy, hkey⟩, hvalue⟩
    · rintro ⟨⟨set, hset, hkey⟩, hvalue⟩
      exact ⟨_, List.mem_map_of_mem hset, mem_section_items.mpr ⟨hkey, hvalue⟩⟩

/-! ## The whole command -/

theorem settings_eq {default_tree config_tree : Tree} (h : Reads env default_tree config_tree) :
    settings env = show_all env (all_names env default_tree config_tree) := by
  obtain ⟨hdefault, ⟨hno, rfl⟩ | ⟨hfile, hconfig⟩⟩ := h
  · unfold settings
    rw [hdefault, hno]
    rfl
  · unfold settings
    rw [hdefault, hfile, hconfig]
    rfl

theorem reads_of_settings (h : (settings env).result = .ok .ok) :
    ∃ default_tree config_tree, Reads env default_tree config_tree := by
  unfold settings at h
  obtain ⟨default_tree, hdefault, h⟩ := bind_result_ok.mp h
  obtain ⟨there, hthere, h⟩ := bind_result_ok.mp h
  have hdefault := observe_result_ok.mp hdefault
  have hthere := observe_result_ok.mp hthere
  cases there with
  | false => exact ⟨default_tree, [], hdefault, .inl ⟨hthere, rfl⟩⟩
  | true =>
    rcases hconfig : env.config_tree with what | config_tree
    · rw [hconfig] at h
      obtain ⟨-, hreturn⟩ := seq_result_ok.mp h
      cases hreturn
    · exact ⟨default_tree, config_tree, hdefault, .inr ⟨hthere, hconfig⟩⟩

theorem show_all_result {attributes : Attributes} :
    (show_all env attributes).result = .ok .ok ↔
      ∀ x ∈ attributes, ∀ key ∈ x.2, Readable env x.1 key := by
  unfold show_all
  rw [seq_result_ok, seq_result_ok, show_sections_result]
  exact and_iff_left ⟨monitored_result env _, rfl⟩

theorem settings_result {default_tree config_tree : Tree}
    (h : Reads env default_tree config_tree) :
    (settings env).result = .ok .ok ↔
      ∀ name key, Named env default_tree config_tree name key → Readable env name key := by
  rw [settings_eq h, show_all_result]
  simp only [← mem_all_names]
  constructor
  · rintro hall name key ⟨set, hset, hkey⟩
    exact hall _ hset key hkey
  · intro hall x hx key hkey
    exact hall x.1 key ⟨x.2, hx, hkey⟩

theorem blank_refuse (reason : Reason) (what : Text) :
    Command.Blank setting? (refuse env reason what) := by
  refine Command.Blank.bind rfl fun _ => Command.Blank.bind ?_ fun _ => rfl
  unfold monitored
  split <;> rfl

theorem refuse_result (reason : Reason) (what : Text) :
    (refuse env reason what).result = .ok .err := by
  exact seq_result_ok.mpr ⟨rfl, seq_result_ok.mpr ⟨monitored_result env _, rfl⟩⟩

theorem config_of_passes {world : World} (hvalid : env.valid = true)
    (h : Passes (authenticate env.flags env.auth) world) :
    config env world = monitored env .start >>= fun _ => settings env := by
  obtain ⟨world', h⟩ := h
  unfold config
  rw [if_pos hvalid, h]

/-- The log of a command that succeeds. -/
theorem config_log {world : World} {default_tree config_tree : Tree} (hvalid : env.valid = true)
    (hpass : Passes (authenticate env.flags env.auth) world)
    (hreads : Reads env default_tree config_tree)
    (h : (settings env).result = .ok .ok) :
    (config env world).log =
      (if env.monitor_output then [.start] else []) ++
        ((listing env (all_names env default_tree config_tree)).flatMap (section_events env) ++
          if env.monitor_output then [.finish .absent] else []) := by
  rw [settings_eq hreads, show_all_result] at h
  have hall : Command.Ends some (show_all env (all_names env default_tree config_tree)) _
      (.ok .ok) :=
    (ends_show_sections h).bind ((ends_monitored (.finish .absent)).before Command.Ends.pure)
  have hstart : Command.Ends some (monitored env .start) _ (.ok ()) := ends_monitored _
  have hlog := (hstart.bind (f := fun _ => settings env) (settings_eq hreads ▸ hall)).log
  rw [List.filterMap_some] at hlog
  rw [config_of_passes hvalid hpass, hlog]

/-- Without a pass the command shows no setting and does not succeed. -/
theorem config_of_not_passes {world : World}
    (h : ¬ (env.valid = true ∧ Passes (authenticate env.flags env.auth) world)) :
    Command.Blank setting? (config env world) ∧ (config env world).result ≠ .ok .ok := by
  have hstart : Command.Blank setting? (monitored env .start) := by
    unfold monitored
    split <;> rfl
  have hends : ∀ x : Cmd ReturnCode, Command.Blank setting? x → x.result ≠ .ok .ok →
      Command.Blank setting? (monitored env .start >>= fun _ => x) ∧
        (monitored env .start >>= fun _ => x).result ≠ .ok .ok := by
    intro x hblank hne
    refine ⟨hstart.bind fun _ => hblank, ?_⟩
    rw [Ne, seq_result_ok, monitored_result]
    exact fun hok => hne hok.2
  have hrefuse : ∀ reason what, (refuse env reason what).result ≠ .ok .ok := by
    intro reason what hok
    rw [refuse_result] at hok
    cases hok
  unfold config
  by_cases hvalid : env.valid = true
  · rw [if_pos hvalid]
    rcases hauth : authenticate env.flags env.auth world with _ | ⟨e | verdict, world'⟩
    · exact hends _ Command.Blank.raise (by simp [Command.raise])
    · exact hends _ Command.Blank.raise (by simp [Command.raise])
    cases verdict with
    | accepted => exact absurd ⟨hvalid, world', hauth⟩ h
    | refused reason what => exact hends _ (blank_refuse reason what) (hrefuse reason what)
    | undefined => exact hends _ Command.Blank.raise (by simp [Command.raise])
  · rw [if_neg hvalid]
    exact hends _ (blank_refuse _ _) (hrefuse _ _)

end

/-- The command shows a setting only to a user who passes. It succeeds when the user passes,
both configurations can be read and so can every setting in them; it then shows the sections
and the settings in force in order, each once and the same on the standard output and in the
file of the monitor, without those for developers that only the default configuration has
(unless they are asked for). -/
theorem the_settings_are_listed_for_a_user_who_passes (world : World) :
    ((config env world).log.filterMap setting? ≠ [] →
      env.valid = true ∧ Passes (authenticate env.flags env.auth) world) ∧
    ((config env world).result = .ok .ok ↔
      env.valid = true ∧ Passes (authenticate env.flags env.auth) world ∧
        ∃ default_tree config_tree, Reads env default_tree config_tree ∧
          ∀ name key, Named env default_tree config_tree name key → Readable env name key) ∧
    ((config env world).result = .ok .ok → ∀ default_tree config_tree,
      Reads env default_tree config_tree → ∃ sections, Lists env default_tree config_tree sections ∧
        stdout (config env world) = (if env.quiet then [] else listing_text sections) ∧
        records (config env world) =
          if env.monitor_output then .start :: listing_records sections ++ [.finish .absent]
          else []) := by
  by_cases hpass : env.valid = true ∧ Passes (authenticate env.flags env.auth) world
  · obtain ⟨hvalid, hpasses⟩ := hpass
    have hresult : (config env world).result = .ok .ok ↔ (settings env).result = .ok .ok := by
      rw [config_of_passes hvalid hpasses, seq_result_ok]
      exact and_iff_right (monitored_result env _)
    refine ⟨fun _ => ⟨hvalid, hpasses⟩, ?_, ?_⟩
    · rw [hresult]
      constructor
      · intro h
        obtain ⟨default_tree, config_tree, hreads⟩ := reads_of_settings h
        exact ⟨hvalid, hpasses, default_tree, config_tree, hreads, (settings_result hreads).mp h⟩
      · rintro ⟨-, -, default_tree, config_tree, hreads, hall⟩
        exact (settings_result hreads).mpr hall
    · intro h default_tree config_tree hreads
      have hlog := config_log hvalid hpasses hreads (hresult.mp h)
      refine ⟨_, lists_all_names default_tree config_tree, ?_, ?_⟩
      · have hframe : ∀ e, out? e = none →
            (if env.monitor_output then [e] else []).filterMap out? = [] := by
          intro e he
          cases env.monitor_output <;> simp [he]
        unfold stdout
        rw [hlog, List.filterMap_append, List.filterMap_append, hframe _ rfl, hframe _ rfl,
          List.nil_append, List.append_nil, listing_out]
      · unfold records
        rw [hlog, List.filterMap_append, List.filterMap_append, listing_recorded]
        cases env.monitor_output <;> simp [record?]
  · obtain ⟨hblank, hne⟩ := config_of_not_passes hpass
    refine ⟨fun hshown => absurd hblank hshown, ?_, fun h => absurd h hne⟩
    constructor
    · exact fun h => absurd h hne
    · rintro ⟨hvalid, hpasses, -⟩
      exact absurd ⟨hvalid, hpasses⟩ hpass

end tateyama_bootstrap.configuration
