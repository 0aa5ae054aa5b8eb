-- The JSON texts of `dbstats list` and `dbstats show` (metrics/metrics.cpp). Commas and brackets
-- are printed by hand at three levels, and the strings of the server stand in the text as they
-- are.
import TateyamaBootstrap.JsonLayout
import TateyamaBootstrap.ServiceOutput

namespace tateyama_bootstrap.services

open server_calls json

/-! ## What the texts stand for -/

/-- The number that a token stands for. -/
def token_value (token : Text) : Json :=
  match number token with
  | some (v, _) => v
  | none => .null

def list_meant (info_list : MetricsInformation) : Json :=
  .object (info_list.items.map fun item => (item.key, .string item.description))

def element_meant (element : MetricsElement) : Json :=
  .object (element.attributes.map (fun a => (a.1, .string a.2)) ++
    [(ascii "value", token_value element.value)])

def value_meant : MetricsValue → Json
  | .value value => token_value value
  | .array elements => .array (elements.map element_meant)
  | .not_set => token_value (ascii "0")

def show_meant (info_show : MetricsInformation) : Json :=
  .object (info_show.items.map fun item => (item.key, value_meant item.value))

/-- The bytes of a string stand for themselves. -/
def Clean (s : Text) : Prop := (Raw.quoted s).Clean

instance (s : Text) : Decidable (Clean s) := inferInstanceAs (Decidable (Raw.quoted s).Clean)

def CleanAttributes (element : MetricsElement) : Prop :=
  ∀ a ∈ element.attributes, Clean a.1 ∧ Clean a.2

def CleanValue : MetricsValue → Prop
  | .array elements => ∀ element ∈ elements, CleanAttributes element
  | _ => True

def CleanList (info_list : MetricsInformation) : Prop :=
  ∀ item ∈ info_list.items, Clean item.key ∧ Clean item.description

def CleanShow (info_show : MetricsInformation) : Prop :=
  ∀ item ∈ info_show.items, Clean item.key ∧ CleanValue item.value

/-- The values are printed as numbers. -/
def Numbers (info_show : MetricsInformation) : Prop :=
  ∀ item ∈ info_show.items,
    match item.value with
    | .value value => ∃ v, NumberToken value v
    | .array elements => ∀ element ∈ elements, ∃ v, NumberToken element.value v
    | .not_set => True

theorem token_value_eq {token : Text} {v : Json} (h : NumberToken token v) :
    token_value token = v := by
  unfold NumberToken at h
  simp only [token_value, h]

theorem numberToken {token : Text} (h : ∃ v, NumberToken token v) :
    NumberToken token (token_value token) := by
  obtain ⟨v, hv⟩ := h
  rw [token_value_eq hv]
  exact hv

/-! ## The list -/

theorem string_member_clean (name y : Text) :
    (string_member name y).Holds ∧ (string_member name y).Utf8 ↔ Clean name ∧ Clean y := by
  simp only [Member.Holds, Member.Utf8, string_member, Clean, Raw.Clean]
  tauto

def list_members (items : List MetricsItem) : List Member :=
  items.map fun item => string_member item.key item.description

/-- The items are the members, each on a line of its own. -/
theorem list_json_items_eq (item : MetricsItem) (items : List MetricsItem) :
    list_json_items (item :: items) ++ [0x7d] =
      ascii "  " ++
        members_text (ascii " ") (ascii "\n  ") (ascii "\n") (list_members (item :: items)) := by
  induction items generalizing item with
  | nil =>
    simp [list_json_items, list_json_item, members_text, list_members, Member.layout,
      string_member, quoted, more_layout, ascii]
  | cons next items ih =>
    have hnext := ih next
    have hne : list_members (next :: items) ≠ [] := by simp [list_members]
    have hitems : list_json_items (item :: next :: items) =
        list_json_item item ++ ascii ",\n" ++ list_json_items (next :: items) := rfl
    have hmembers : members_text (ascii " ") (ascii "\n  ") (ascii "\n")
        (list_members (item :: next :: items)) =
      (string_member item.key item.description).layout (ascii " ") ++
        more_layout (ascii " ") (ascii "\n  ") (ascii "\n") (list_members (next :: items)) := rfl
    rw [hitems, List.append_assoc, hnext, hmembers, more_layout_of_ne _ _ _ hne]
    simp [list_json_item, Member.layout, string_member, quoted, ascii]

theorem list_json_eq (info_list : MetricsInformation) :
    ∃ first, Blank first ∧ list_json info_list = 0x7b :: (first ++
      members_text (ascii " ") (ascii "\n  ") (ascii "\n") (list_members info_list.items)) ++
        ascii "\n" := by
  unfold list_json
  rcases info_list.items with _ | ⟨item, items⟩
  · exact ⟨[], by decide, by decide⟩
  · refine ⟨ascii "\n  ", by decide, ?_⟩
    have hitems := list_json_items_eq item items
    have hbrace : ascii "\x7d\n" = [0x7d] ++ ascii "\n" := by decide
    have hopen : ascii "\x7b\n" = 0x7b :: ascii "\n" := by decide
    have hline : ascii "\n  " = ascii "\n" ++ ascii "  " := by decide
    rw [hbrace, ← List.append_assoc, List.append_assoc _ _ [0x7d], hitems, hopen, hline]
    simp

/-- The text of the list reads back exactly when its strings are clean. -/
theorem parse_list_json_iff (info_list : MetricsInformation) :
    parse (list_json info_list) = some (list_meant info_list) ↔ CleanList info_list := by
  obtain ⟨first, hfirst, htext⟩ := list_json_eq info_list
  have hgood : ∀ m ∈ list_members info_list.items, m.Good := by
    intro m hm
    obtain ⟨item, -, rfl⟩ := List.mem_map.mp hm
    exact string_member_good _ _
  have hpiece := piece_members hfirst (by decide : Blank (ascii " "))
    (by decide : Blank (ascii "\n  ")) (by decide : Blank (ascii "\n")) hgood
  have hmeant : list_meant info_list =
      .object ((list_members info_list.items).map Member.meant) := by
    simp only [list_meant, list_members, List.map_map]
    rfl
  rw [htext, hmeant, parse_piece hpiece (by decide)]
  unfold CleanList
  simp only [list_members, List.forall_mem_map, ← forall_and, string_member_clean]

/-! ## The elements of an array -/

def value_member (value : Text) : Member :=
  ⟨ascii "value", value, token_value value, True, True⟩

/-- The attributes, and the value behind them. -/
def element_members (element : MetricsElement) : List Member :=
  element.attributes.map (fun a => string_member a.1 a.2) ++ [value_member element.value]

def element_text (element : MetricsElement) : Text :=
  0x7b :: (ascii "\n      " ++
    members_text (ascii " ") (ascii "\n      ") (ascii "\n    ") (element_members element))

/-- Each attribute has its comma, as the value always follows. -/
theorem attributes_eq (attributes : List (Text × Text)) (value : Text) :
    attributes.flatMap
        (fun a => ascii "      \"" ++ a.1 ++ ascii "\": \"" ++ a.2 ++ ascii "\",\n") ++
      (ascii "      \"value\": " ++ value ++ ascii "\n    \x7d") =
    ascii "      " ++ members_text (ascii " ") (ascii "\n      ") (ascii "\n    ")
      (element_members ⟨attributes, value⟩) := by
  induction attributes with
  | nil =>
    simp [element_members, members_text, Member.layout, value_member, more_layout, ascii]
  | cons a attributes ih =>
    have hne : element_members ⟨attributes, value⟩ ≠ [] := by simp [element_members]
    have hmembers : members_text (ascii " ") (ascii "\n      ") (ascii "\n    ")
        (element_members ⟨a :: attributes, value⟩) =
      (string_member a.1 a.2).layout (ascii " ") ++
        more_layout (ascii " ") (ascii "\n      ") (ascii "\n    ")
          (element_members ⟨attributes, value⟩) := rfl
    rw [List.flatMap_cons, List.append_assoc, ih, hmembers, more_layout_of_ne _ _ _ hne]
    simp [Member.layout, string_member, quoted, ascii]

theorem show_element_eq (element : MetricsElement) :
    show_element element ++ ascii "    \x7d" = ascii "    " ++ element_text element := by
  have hattributes := attributes_eq element.attributes element.value
  have hopen : ascii "    \x7b\n" = ascii "    " ++ 0x7b :: ascii "\n" := by decide
  have hline (t : Text) : ascii "\n      " ++ t = ascii "\n" ++ (ascii "      " ++ t) := rfl
  have hclose : ascii "\n    \x7d" = ascii "\n" ++ ascii "    \x7d" := by decide
  rw [hclose] at hattributes
  unfold show_element element_text
  rw [hopen, hline]
  simp only [List.append_assoc, List.cons_append] at hattributes ⊢
  rw [hattributes]

theorem piece_element {element : MetricsElement} (h : ∃ v, NumberToken element.value v) :
    Piece (element_text element) (element_meant element)
      (∀ m ∈ element_members element, m.Holds) (∀ m ∈ element_members element, m.Utf8) := by
  have hgood : ∀ m ∈ element_members element, m.Good := by
    intro m hm
    rcases List.mem_append.mp hm with hm | hm
    · obtain ⟨a, -, rfl⟩ := List.mem_map.mp hm
      exact string_member_good _ _
    · obtain rfl := List.mem_singleton.mp hm
      exact piece_number (numberToken h)
  have hmeant : element_meant element =
      .object ((element_members element).map Member.meant) := by
    simp only [element_meant, element_members, List.map_append, List.map_map]
    rfl
  rw [hmeant]
  exact piece_members (by decide) (by decide) (by decide) (by decide) hgood

theorem element_clean (element : MetricsElement) :
    ((∀ m ∈ element_members element, m.Holds) ∧ ∀ m ∈ element_members element, m.Utf8) ↔
      CleanAttributes element := by
  have hname : Clean (ascii "value") := by decide
  have hvalue : (value_member element.value).Holds ∧ (value_member element.value).Utf8 :=
    ⟨⟨hname.1, trivial⟩, hname.2, trivial⟩
  unfold CleanAttributes element_members
  simp only [List.forall_mem_append, List.forall_mem_map, List.forall_mem_singleton, hvalue,
    and_true, ← forall_and, string_member_clean]

/-! ## The values -/

def array_element (element : MetricsElement) : Element :=
  ⟨element_text element, element_meant element, ∀ m ∈ element_members element, m.Holds,
    ∀ m ∈ element_members element, m.Utf8⟩

/-- The elements are printed with a comma behind all but the last. -/
theorem show_elements_eq (element : MetricsElement) (elements : List MetricsElement) :
    show_elements (element :: elements) ++ ascii "  ]" =
      ascii "    " ++ elements_text (ascii "\n    ") (ascii "\n  ")
        ((element :: elements).map array_element) := by
  induction elements generalizing element with
  | nil =>
    have hend : ascii "    \x7d\n" = ascii "    \x7d" ++ ascii "\n" := by decide
    have hclose : ascii "\n  " ++ [0x5d] = ascii "\n" ++ ascii "  ]" := by decide
    have helements : elements_text (ascii "\n    ") (ascii "\n  ") ([element].map array_element) =
      element_text element ++ (ascii "\n  " ++ [0x5d]) := rfl
    rw [show_elements, hend, ← List.append_assoc, show_element_eq, helements, hclose]
    simp only [List.append_assoc]
  | cons next elements ih =>
    have hnext := ih next
    have hne : (next :: elements).map array_element ≠ [] := by simp
    have hitems : show_elements (element :: next :: elements) =
        show_element element ++ ascii "    \x7d,\n" ++ show_elements (next :: elements) := rfl
    have hcomma : ascii "    \x7d,\n" = ascii "    \x7d" ++ ascii ",\n" := by decide
    have hsep (t : Text) : ascii ",\n" ++ (ascii "    " ++ t) = 0x2c :: (ascii "\n    " ++ t) := rfl
    have helements : elements_text (ascii "\n    ") (ascii "\n  ")
        ((element :: next :: elements).map array_element) =
      element_text element ++ more_elements (ascii "\n    ") (ascii "\n  ")
        ((next :: elements).map array_element) := rfl
    rw [hitems, List.append_assoc, hnext, hcomma, ← List.append_assoc (show_element element),
      show_element_eq, helements, more_elements_of_ne _ _ hne, List.append_assoc, List.append_assoc,
      hsep]

/-- The text behind the key of an item. -/
def value_text : MetricsValue → Text
  | .value value => value
  | .array elements => ascii "[\n" ++ show_elements elements ++ ascii "  ]"
  | .not_set => ascii "0"

def ValueHolds : MetricsValue → Prop
  | .array elements => ∀ e ∈ elements.map array_element, e.p
  | _ => True

def ValueUtf8 : MetricsValue → Prop
  | .array elements => ∀ e ∈ elements.map array_element, e.u
  | _ => True

theorem array_text_eq (elements : List MetricsElement) :
    ∃ first, Blank first ∧ value_text (.array elements) = 0x5b :: (first ++
      elements_text (ascii "\n    ") (ascii "\n  ") (elements.map array_element)) := by
  rcases elements with _ | ⟨element, elements⟩
  · exact ⟨[], by decide, by decide⟩
  · refine ⟨ascii "\n    ", by decide, ?_⟩
    have hopen (t : Text) :
        ascii "[\n" ++ (ascii "    " ++ t) = 0x5b :: (ascii "\n    " ++ t) := rfl
    rw [value_text, List.append_assoc, show_elements_eq, hopen]

/-- The value of an item, when what it prints for numbers is numbers. -/
theorem piece_value {value : MetricsValue}
    (h : match value with
      | .value value => ∃ v, NumberToken value v
      | .array elements => ∀ element ∈ elements, ∃ v, NumberToken element.value v
      | .not_set => True) :
    Piece (value_text value) (value_meant value) (ValueHolds value) (ValueUtf8 value) := by
  rcases value with value | elements | _
  · exact piece_number (numberToken h)
  · obtain ⟨first, hfirst, htext⟩ := array_text_eq elements
    have hgood : ∀ e ∈ elements.map array_element, e.Good := by
      intro e he
      obtain ⟨element, hmem, rfl⟩ := List.mem_map.mp he
      exact piece_element (h element hmem)
    have hmeant : value_meant (.array elements) =
        .array ((elements.map array_element).map Element.v) := by
      simp only [value_meant, List.map_map]
      rfl
    rw [htext, hmeant]
    exact piece_elements hfirst (by decide) (by decide) hgood
  · have hzero : NumberToken (ascii "0") (token_value (ascii "0")) := by
      apply numberToken
      exact ⟨_, rfl⟩
    exact piece_number hzero

theorem value_clean (value : MetricsValue) :
    ValueHolds value ∧ ValueUtf8 value ↔ CleanValue value := by
  rcases value with value | elements | _
  · simp [ValueHolds, ValueUtf8, CleanValue]
  · simp only [ValueHolds, ValueUtf8, CleanValue, List.forall_mem_map, ← forall_and]
    simp only [array_element, element_clean]
  · simp [ValueHolds, ValueUtf8, CleanValue]

/-! ## The values by their keys -/

def show_member (item : MetricsItem) : Member :=
  ⟨item.key, value_text item.value, value_meant item.value, ValueHolds item.value,
    ValueUtf8 item.value⟩

theorem show_item_eq (item : MetricsItem) :
    show_item item = ascii "  " ++ (show_member item).layout (ascii " ") := by
  unfold show_item
  split
  · rename_i heq
    simp [Member.layout, show_member, heq, value_text, ascii]
  · rename_i heq
    simp [Member.layout, show_member, heq, value_text, ascii]
  · rename_i heq
    simp [Member.layout, show_member, heq, value_text, ascii]

theorem show_items_eq (item : MetricsItem) (items : List MetricsItem) :
    show_items (item :: items) ++ (ascii "\n" ++ [0x7d]) =
      ascii "  " ++ members_text (ascii " ") (ascii "\n  ") (ascii "\n")
        ((item :: items).map show_member) := by
  induction items generalizing item with
  | nil =>
    rw [show_items, show_item_eq, List.append_assoc]
    rfl
  | cons next items ih =>
    have hnext := ih next
    have hne : (next :: items).map show_member ≠ [] := by simp
    have hitems : show_items (item :: next :: items) =
        show_item item ++ ascii ",\n" ++ show_items (next :: items) := rfl
    have hsep (t : Text) : ascii ",\n" ++ (ascii "  " ++ t) = 0x2c :: (ascii "\n  " ++ t) := rfl
    have hmembers : members_text (ascii " ") (ascii "\n  ") (ascii "\n")
        ((item :: next :: items).map show_member) =
      (show_member item).layout (ascii " ") ++ more_layout (ascii " ") (ascii "\n  ") (ascii "\n")
        ((next :: items).map show_member) := rfl
    rw [hitems, List.append_assoc, hnext, hmembers, more_layout_of_ne _ _ _ hne, show_item_eq,
      List.append_assoc, List.append_assoc, hsep]

theorem show_json_eq (info_show : MetricsInformation) :
    ∃ first, Blank first ∧ show_json info_show = 0x7b :: (first ++
      members_text (ascii " ") (ascii "\n  ") (ascii "\n") (info_show.items.map show_member)) ++
        ascii "\n" := by
  unfold show_json
  rcases info_show.items with _ | ⟨item, items⟩
  · exact ⟨ascii "\n", by decide, by decide⟩
  · refine ⟨ascii "\n  ", by decide, ?_⟩
    have hitems := show_items_eq item items
    have hbrace : ascii "\n\x7d\n" = ascii "\n" ++ [0x7d] ++ ascii "\n" := by decide
    have hopen (t : Text) :
        ascii "\x7b\n" ++ (ascii "  " ++ t) = 0x7b :: (ascii "\n  " ++ t) := rfl
    rw [hbrace, ← List.append_assoc, List.append_assoc _ (show_items _), hitems, hopen]

/-- The text of the values reads back exactly when their strings are clean. -/
theorem parse_show_json_iff {info_show : MetricsInformation} (h : Numbers info_show) :
    parse (show_json info_show) = some (show_meant info_show) ↔ CleanShow info_show := by
  obtain ⟨first, hfirst, htext⟩ := show_json_eq info_show
  have hgood : ∀ m ∈ info_show.items.map show_member, m.Good := by
    intro m hm
    obtain ⟨item, hmem, rfl⟩ := List.mem_map.mp hm
    exact piece_value (h item hmem)
  have hpiece := piece_members hfirst (by decide : Blank (ascii " "))
    (by decide : Blank (ascii "\n  ")) (by decide : Blank (ascii "\n")) hgood
  have hmeant : show_meant info_show =
      .object ((info_show.items.map show_member).map Member.meant) := by
    simp only [show_meant, List.map_map]
    rfl
  have hclean (item : MetricsItem) : (show_member item).Holds ∧ (show_member item).Utf8 ↔
      Clean item.key ∧ CleanValue item.value := by
    rw [← value_clean]
    simp only [Member.Holds, Member.Utf8, show_member, Clean, Raw.Clean]
    tauto
  rw [htext, hmeant, parse_piece hpiece (by decide)]
  unfold CleanShow
  simp only [List.forall_mem_map, ← forall_and, hclean]

/-! ## The commands -/

theorem metrics_list_prints {flags : Flags} {env : Env} {info_list : MetricsInformation}
    (hformat : flags.format = "json")
    (ho : outcome env.connect env.metrics_information (.ok .metrics_list) = .ok (some info_list)) :
    stdout (metrics_list flags env) = list_json info_list := by
  unfold metrics_list
  refine (stdout_answered _ ho ?_).trans List.flatten_singleton
  dsimp only
  rw [if_pos hformat]
  exact (ends_out_text _).before (ends_succeeds_text _)

theorem metrics_show_prints {flags : Flags} {env : Env} {info_show : MetricsInformation}
    (hformat : flags.format = "json")
    (ho : outcome env.connect env.metrics_information (.ok .metrics_show) = .ok (some info_show)) :
    stdout (metrics_show flags env) = show_json info_show := by
  unfold metrics_show
  refine (stdout_answered _ ho ?_).trans List.flatten_singleton
  dsimp only
  rw [if_pos hformat]
  exact (ends_out_text _).before (ends_succeeds_text _)

/-- What `dbstats` prints reads back as the items that the server has sent exactly when the
strings among them stand for themselves between quotes. -/
theorem dbstats_reads_back_when_clean (flags : Flags) (env : Env) (info : MetricsInformation)
    (hformat : flags.format = "json") (hnumbers : Numbers info) :
    (outcome env.connect env.metrics_information (.ok .metrics_list) = .ok (some info) →
      (parse (stdout (metrics_list flags env)) = some (list_meant info) ↔ CleanList info)) ∧
    (outcome env.connect env.metrics_information (.ok .metrics_show) = .ok (some info) →
      (parse (stdout (metrics_show flags env)) = some (show_meant info) ↔ CleanShow info)) := by
  constructor
  · intro ho
    rw [metrics_list_prints hformat ho]
    exact parse_list_json_iff info
  · intro ho
    rw [metrics_show_prints hformat ho]
    exact parse_show_json_iff hnumbers

/-- An index with its table as an attribute, an array without elements and a plain value. -/
def table_sizes (table_name : Text) : MetricsInformation :=
  ⟨[⟨ascii "index_size", ascii "estimated size of an index",
      .array [⟨[(ascii "table_name", table_name)], ascii "65536"⟩, ⟨[], ascii "0.500000"⟩]⟩,
    ⟨ascii "ipc_buffer_size", ascii "allocated buffer size", .array []⟩,
    ⟨ascii "session_count", ascii "number of active sessions", .value (ascii "100")⟩]⟩

def serving (info : MetricsInformation) : Env :=
  { granting with metrics_information := answering info }

theorem table_sizes_numbers (table_name : Text) : Numbers (table_sizes table_name) := by
  intro item hitem
  simp only [table_sizes, List.mem_cons, List.not_mem_nil, or_false] at hitem
  rcases hitem with rfl | rfl | rfl
  · intro element helement
    simp only [List.mem_cons, List.not_mem_nil, or_false] at helement
    rcases helement with rfl | rfl
    · exact ⟨_, rfl⟩
    · exact ⟨_, rfl⟩
  · intro element helement
    simp at helement
  · exact ⟨_, rfl⟩

theorem dbstats_reads_back_for_a_table :
    Numbers (table_sizes (ascii "orders")) ∧
    parse (stdout
        (metrics_show (monitoring false false) (serving (table_sizes (ascii "orders"))))) =
      some (show_meant (table_sizes (ascii "orders"))) := by
  refine ⟨table_sizes_numbers _, ?_⟩
  have hreads := dbstats_reads_back_when_clean (monitoring false false)
    (serving (table_sizes (ascii "orders"))) _ rfl (table_sizes_numbers (ascii "orders"))
  refine (hreads.2 rfl).mpr ?_
  intro item hitem
  simp only [table_sizes, List.mem_cons, List.not_mem_nil, or_false] at hitem
  rcases hitem with rfl | rfl | rfl
  · refine ⟨by decide, ?_⟩
    simp only [CleanValue, CleanAttributes, List.mem_cons, List.not_mem_nil, or_false]
    rintro element (rfl | rfl) a ha
    · obtain rfl := List.mem_singleton.mp ha
      decide
    · simp at ha
  · exact ⟨by decide, by simp [CleanValue]⟩
  · exact ⟨by decide, trivial⟩

/-- A table whose name has a quote in it. -/
theorem a_quote_breaks_the_json :
    ¬ (∀ (flags : Flags) (env : Env) (info : MetricsInformation), flags.format = "json" →
      Numbers info →
      (outcome env.connect env.metrics_information (.ok .metrics_list) = .ok (some info) →
        parse (stdout (metrics_list flags env)) = some (list_meant info)) ∧
      (outcome env.connect env.metrics_information (.ok .metrics_show) = .ok (some info) →
        parse (stdout (metrics_show flags env)) = some (show_meant info))) := by
  intro h
  have hread := (h (monitoring false false) (serving (table_sizes (ascii "a\"b"))) _ rfl
    (table_sizes_numbers _)).2 rfl
  rw [metrics_show_prints rfl rfl, parse_show_json_iff (table_sizes_numbers _)] at hread
  have hclean := (hread _ (List.mem_cons_self ..)).2 _ (List.mem_cons_self ..) _
    (List.mem_cons_self ..)
  exact absurd hclean.2 (by decide)

end tateyama_bootstrap.services
