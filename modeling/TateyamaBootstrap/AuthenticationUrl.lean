-- `url_parser` of the authentication (authentication/authenticator.cpp). It takes the
-- address of the authentication service apart with a regular expression, and leaves
-- all its fields empty where the expression does not match.
import TateyamaBootstrap.Patterns
import TateyamaBootstrap.TextLines

open json patterns

namespace tateyama_bootstrap.authentication

/-! ## The parser -/

/-- `[^...]`. -/
def none_of (cs : Text) (c : UInt8) : Bool := !cs.contains c

/-- `(http|https)://([^/ :]+):?([^/ ]*)(/?[^ #?]*)\x3f?([^ #]*)#?([^ ]*)`, where the two
pieces of the path make one group. -/
def url_pattern : List (Piece UInt8) :=
  [.words [ascii "http", ascii "https"], .words [ascii "://"],
    .many 1 (none_of (ascii "/ :")),
    .optional (· == 0x3a), .many 0 (none_of (ascii "/ ")),
    .optional (· == 0x2f), .many 0 (none_of (ascii " #?")),
    .optional (· == 0x3f), .many 0 (none_of (ascii " #")),
    .optional (· == 0x23), .many 0 (none_of (ascii " "))]

structure UrlParser where
  protocol : Text := []
  domain : Text := []
  port : Text := []
  path : Text := []
  query : Text := []
deriving DecidableEq, Repr

/-- `regex_match` gets the text as a C string. -/
def c_str (text : Text) : Text := text.takeWhile (· ≠ 0)

/-- The constructor. -/
def UrlParser.new (url : Text) : UrlParser :=
  match find url_pattern (c_str url) with
  | some [protocol, _, domain, _, port, slash, path, _, query, _, _] =>
    { protocol, domain, port, path := slash ++ path, query }
  | _ => {}

/-! ## Addresses -/

/-- A part of an address that is introduced by a character of its own. -/
def part (c : UInt8) (o : Option Text) : Text := o.elim [] (c :: ·)

theorem part_eq_nil {c : UInt8} {o : Option Text} : part c o = [] ↔ o = none := by
  cases o <;> simp [part]

/-- What the parser is for: an address of the authentication service. Without a path
there is neither a query nor a fragment, as their signs may stand in a domain and in a
port. -/
structure Address where
  protocol : Text
  domain : Text
  port : Option Text
  path : Option Text
  query : Option Text
  fragment : Option Text
  protocol_ok : protocol = ascii "http" ∨ protocol = ascii "https"
  domain_ne : 1 ≤ domain.length
  domain_ok : ∀ c ∈ domain, none_of (ascii "/ :") c = true
  port_ok : ∀ t ∈ port, ∀ c ∈ t, none_of (ascii "/ ") c = true
  path_ok : ∀ t ∈ path, ∀ c ∈ t, none_of (ascii " #?") c = true
  query_ok : ∀ t ∈ query, ∀ c ∈ t, none_of (ascii " #") c = true
  fragment_ok : ∀ t ∈ fragment, ∀ c ∈ t, none_of (ascii " ") c = true
  no_path : path = none → query = none ∧ fragment = none

namespace Address

/-- The text of an address from its domain on. -/
def authority (a : Address) : Text :=
  a.domain ++ (part 0x3a a.port ++ (part 0x2f a.path ++ (part 0x3f a.query ++
    (part 0x23 a.fragment ++ []))))

def text (a : Address) : Text := a.protocol ++ (ascii "://" ++ a.authority)

/-- The fields that the parser keeps of an address. -/
def url (a : Address) : UrlParser where
  protocol := a.protocol
  domain := a.domain
  port := a.port.getD []
  path := part 0x2f a.path
  query := a.query.getD []

end Address

/-! ## An address is read back -/

/-- A run of the class ends before `s`. -/
def Ends (p : UInt8 → Bool) (s : Text) : Prop := s.head?.any p = false

theorem ends_nil (p : UInt8 → Bool) : Ends p [] := rfl

theorem ends_part {p : UInt8 → Bool} {c : UInt8} {o : Option Text} {s : Text} (hc : p c = false)
    (hs : Ends p s) : Ends p (part c o ++ s) := by
  cases o with
  | none => exact hs
  | some t =>
    unfold Ends part
    simpa using hc

section Find

variable {pieces : List (Piece UInt8)} {parts : List Text} {s : Text} {p : UInt8 → Bool}

theorem find_part {c : UInt8} {o : Option Text} (ho : ∀ t ∈ o, ∀ b ∈ t, p b = true)
    (hp : Ends p s) (hc : Ends (· == c) s) (h : find pieces s = some parts) :
    find (.optional (· == c) :: .many 0 p :: pieces) (part c o ++ s) =
      some (o.elim [] (fun _ => [c]) :: o.getD [] :: parts) := by
  cases o with
  | none => exact find_optional_none hc (find_many [] (by simp) (by simp) hp h)
  | some t =>
    exact find_optional_some (by simp)
      (find_many t (Nat.zero_le _) (ho t rfl) hp h)

end Find

theorem find_address (a : Address) :
    find url_pattern a.text = some [a.protocol, ascii "://", a.domain,
      a.port.elim [] (fun _ => [0x3a]), a.port.getD [], a.path.elim [] (fun _ => [0x2f]),
      a.path.getD [], a.query.elim [] (fun _ => [0x3f]), a.query.getD [],
      a.fragment.elim [] (fun _ => [0x23]), a.fragment.getD []] := by
  have hfragment := find_part (c := 0x23) a.fragment_ok (ends_nil _) (ends_nil _)
    (rfl : find [] ([] : Text) = some [])
  have hquery := find_part (c := 0x3f) a.query_ok (ends_part (by decide) (ends_nil _))
    (ends_part (by decide) (ends_nil _)) hfragment
  have hpath := find_part (c := 0x2f) a.path_ok
    (ends_part (by decide) (ends_part (by decide) (ends_nil _)))
    (ends_part (by decide) (ends_part (by decide) (ends_nil _))) hquery
  -- a port runs up to the path, or to the end
  have hends : Ends (none_of (ascii "/ "))
      (part 0x2f a.path ++ (part 0x3f a.query ++ (part 0x23 a.fragment ++ []))) := by
    cases hp : a.path with
    | some t => rfl
    | none =>
      obtain ⟨hq, hf⟩ := a.no_path hp
      rw [hq, hf]
      exact ends_nil _
  have hport := find_part (c := 0x3a) a.port_ok hends
    (ends_part (by decide) (ends_part (by decide) (ends_part (by decide) (ends_nil _)))) hpath
  have hdomain := find_many a.domain a.domain_ne a.domain_ok
    (by
      refine ends_part (p := none_of (ascii "/ :")) (by decide) ?_
      cases hp : a.path with
      | some t => rfl
      | none =>
        obtain ⟨hq, hf⟩ := a.no_path hp
        rw [hq, hf]
        exact ends_nil _) hport
  have hsep := find_words [] (ascii "://") [] (by simp) hdomain
  rcases a.protocol_ok with hp | hp
  · rw [Address.text, hp]
    exact find_words [] _ _ (by simp) hsep
  · rw [Address.text, hp]
    refine find_words [ascii "http"] _ [] ?_ hsep
    -- behind "http" the text goes on with an "s"
    intro v hv _
    obtain rfl := List.mem_singleton.mp hv
    rfl

/-! ## Only an address is read -/

theorem ends_dropWhile (p : UInt8 → Bool) (s : Text) : Ends p (s.dropWhile p) := by
  have hnot := List.head?_dropWhile_not p s
  unfold Ends
  cases hd : (s.dropWhile p).head? with
  | none => rfl
  | some d =>
    rw [hd] at hnot
    simpa using hnot

/-- The text up to the end of the part that `c` introduces. -/
theorem exists_part (c : UInt8) (p : UInt8 → Bool) (s : Text) :
    ∃ o s', s = part c o ++ s' ∧ (∀ t ∈ o, ∀ b ∈ t, p b = true) ∧
      (o = none → s' = s ∧ s.head? ≠ some c) ∧ (o ≠ none → Ends p s') := by
  cases s with
  | nil => exact ⟨none, [], rfl, by simp, by simp, by simp⟩
  | cons b s =>
    by_cases hb : b = c
    · refine ⟨some (s.takeWhile p), s.dropWhile p, ?_, ?_, by simp, fun _ => ends_dropWhile p s⟩
      · simp [part, hb]
      · intro t ht
        cases ht
        exact fun b hb => List.mem_takeWhile_imp hb
    · exact ⟨none, b :: s, rfl, by simp, by simp [hb], by simp⟩

/-- Where a run ends in a text without spaces, another sign of the class stands, or the
text ends. -/
theorem head_of_ends {cs s : Text} (h : Ends (none_of cs) s) (hspace : 0x20 ∉ s) (c : UInt8)
    (hc : s.head? = some c) : c ∈ cs ∧ c ≠ 0x20 := by
  unfold Ends at h
  rw [hc] at h
  refine ⟨by simpa [none_of] using h, ?_⟩
  rintro rfl
  exact hspace (List.mem_of_head? hc)

/-- A text without spaces that begins with a domain is the text of an address. -/
theorem exists_address {protocol rest : Text}
    (hp : protocol = ascii "http" ∨ protocol = ascii "https") (hspace : 0x20 ∉ rest)
    (hhead : rest.head?.any (none_of (ascii "/ :")) = true) :
    ∃ a : Address, a.text = protocol ++ (ascii "://" ++ rest) := by
  have hdomain : 1 ≤ (rest.takeWhile (none_of (ascii "/ :"))).length := by
    cases rest with
    | nil => simp at hhead
    | cons c rest =>
      rw [List.takeWhile_cons_of_pos (by simpa using hhead)]
      simp
  have hrest := List.takeWhile_append_dropWhile (p := none_of (ascii "/ :")) (l := rest)
  have h1 := ends_dropWhile (none_of (ascii "/ :")) rest
  generalize rest.dropWhile (none_of (ascii "/ :")) = r1 at hrest h1
  obtain ⟨port, r2, e1, hport, hport0, hport1⟩ := exists_part 0x3a (none_of (ascii "/ ")) r1
  obtain ⟨path, r3, e2, hpath, hpath0, hpath1⟩ := exists_part 0x2f (none_of (ascii " #?")) r2
  obtain ⟨query, r4, e3, hquery, hquery0, hquery1⟩ := exists_part 0x3f (none_of (ascii " #")) r3
  obtain ⟨fragment, r5, e4, hfragment, hfragment0, hfragment1⟩ :=
    exists_part 0x23 (none_of (ascii " ")) r4
  have s1 : 0x20 ∉ r1 := fun h => hspace (by rw [← hrest]; exact List.mem_append_right _ h)
  have s2 : 0x20 ∉ r2 := fun h => s1 (by rw [e1]; exact List.mem_append_right _ h)
  have s3 : 0x20 ∉ r3 := fun h => s2 (by rw [e2]; exact List.mem_append_right _ h)
  have s4 : 0x20 ∉ r4 := fun h => s3 (by rw [e3]; exact List.mem_append_right _ h)
  have s5 : 0x20 ∉ r5 := fun h => s4 (by rw [e4]; exact List.mem_append_right _ h)
  -- each part ends where the sign of a later part stands
  have t2 : ∀ c, r2.head? = some c → c = 0x2f := by
    intro c hc
    cases port with
    | none =>
      obtain ⟨rfl, hne⟩ := hport0 rfl
      obtain ⟨hmem, hsp⟩ := head_of_ends h1 s1 c hc
      have hcolon : c ≠ 0x3a := fun h => hne (h ▸ hc)
      simpa [ascii, hsp, hcolon] using hmem
    | some t =>
      obtain ⟨hmem, hsp⟩ := head_of_ends (hport1 (by simp)) s2 c hc
      simpa [ascii, hsp] using hmem
  have t3 : path = none → r3 = [] := by
    intro hnone
    obtain ⟨rfl, hne⟩ := hpath0 hnone
    rw [← List.head?_eq_none_iff, Option.eq_none_iff_forall_ne_some]
    intro c hc
    exact hne (t2 c hc ▸ hc)
  have t4 : ∀ c, r4.head? = some c → c = 0x23 := by
    intro c hc
    cases query with
    | none =>
      obtain ⟨rfl, hne⟩ := hquery0 rfl
      cases path with
      | none =>
        rw [t3 rfl] at hc
        cases hc
      | some t =>
        obtain ⟨hmem, hsp⟩ := head_of_ends (hpath1 (by simp)) s3 c hc
        have hmark : c ≠ 0x3f := fun h => hne (h ▸ hc)
        simpa [ascii, hsp, hmark] using hmem
    | some t =>
      obtain ⟨hmem, hsp⟩ := head_of_ends (hquery1 (by simp)) s4 c hc
      simpa [ascii, hsp] using hmem
  have t5 : r5 = [] := by
    rw [← List.head?_eq_none_iff, Option.eq_none_iff_forall_ne_some]
    intro c hc
    cases fragment with
    | none =>
      obtain ⟨rfl, hne⟩ := hfragment0 rfl
      exact hne (t4 c hc ▸ hc)
    | some t =>
      obtain ⟨hmem, hsp⟩ := head_of_ends (hfragment1 (by simp)) s5 c hc
      simp [ascii, hsp] at hmem
  have hno : path = none → query = none ∧ fragment = none := by
    intro hnone
    rw [t3 hnone] at e3
    obtain ⟨hq, rfl⟩ := List.append_eq_nil_iff.mp e3.symm
    obtain ⟨hf, -⟩ := List.append_eq_nil_iff.mp e4.symm
    exact ⟨part_eq_nil.mp hq, part_eq_nil.mp hf⟩
  refine ⟨⟨protocol, rest.takeWhile (none_of (ascii "/ :")), port, path, query, fragment, hp,
    hdomain, fun c hc => List.mem_takeWhile_imp hc, hport, hpath, hquery, hfragment, hno⟩, ?_⟩
  simp only [Address.text, Address.authority]
  rw [← t5, ← e4, ← e3, ← e2, ← e1, hrest]

/-- The piece takes no space. -/
def Spaceless (piece : Piece UInt8) : Prop := ∀ text, piece.Accepts text → 0x20 ∉ text

theorem spaceless_many {n : Nat} {cs : Text} (h : 0x20 ∈ cs) :
    Spaceless (.many n (none_of cs)) := by
  rintro text ⟨-, hall⟩ hmem
  have := hall 0x20 hmem
  simp [none_of, h] at this

theorem spaceless_optional {c : UInt8} (h : c ≠ 0x20) : Spaceless (.optional (· == c)) := by
  rintro text hacc hmem
  rcases hacc with rfl | ⟨a, rfl, ha⟩
  · simp at hmem
  · obtain rfl := List.mem_singleton.mp hmem
    exact h (beq_iff_eq.mp ha).symm

theorem spaceless_flatten {pieces : List (Piece UInt8)} {parts : List Text}
    (hp : ∀ piece ∈ pieces, Spaceless piece) (h : List.Forall₂ Piece.Accepts pieces parts) :
    0x20 ∉ parts.flatten := by
  induction h with
  | nil => simp
  | cons hacc _ ih =>
    rw [List.flatten_cons, List.mem_append]
    rintro (hmem | hmem)
    · exact hp _ List.mem_cons_self _ hacc hmem
    · exact ih (fun piece hm => hp piece (List.mem_cons_of_mem _ hm)) hmem

/-- What matches is the text of an address. -/
theorem exists_address_of_find {text : Text} {parts : List Text}
    (h : find url_pattern text = some parts) : ∃ a : Address, a.text = text := by
  obtain ⟨hflat, hall⟩ := find_sound h
  unfold url_pattern at hall
  cases hall with
  | @cons _ protocol _ parts hprotocol hall =>
  cases hall with
  | @cons _ sep _ parts hsep hall =>
  have hspace : 0x20 ∉ parts.flatten := by
    refine spaceless_flatten ?_ hall
    simp only [List.mem_cons, List.not_mem_nil, or_false]
    rintro piece (rfl | rfl | rfl | rfl | rfl | rfl | rfl | rfl | rfl)
    · exact spaceless_many (by decide)
    · exact spaceless_optional (by decide)
    · exact spaceless_many (by decide)
    · exact spaceless_optional (by decide)
    · exact spaceless_many (by decide)
    · exact spaceless_optional (by decide)
    · exact spaceless_many (by decide)
    · exact spaceless_optional (by decide)
    · exact spaceless_many (by decide)
  cases hall with
  | @cons _ domain _ parts hdomain hall =>
  have hhead : (domain :: parts).flatten.head?.any (none_of (ascii "/ :")) = true := by
    obtain ⟨hlen, hin⟩ := hdomain
    cases domain with
    | nil => simp at hlen
    | cons c domain => simpa using hin c List.mem_cons_self
  have hsep' : sep = ascii "://" := List.mem_singleton.mp hsep
  have hprotocol' : protocol = ascii "http" ∨ protocol = ascii "https" := by
    simpa [Piece.Accepts] using hprotocol
  obtain ⟨a, ha⟩ := exists_address hprotocol' hspace hhead
  refine ⟨a, ha.trans ?_⟩
  rw [← hflat, hsep', List.flatten_cons (l := protocol), List.flatten_cons (l := ascii "://")]

/-- The parser reads every address back, and all its fields are empty for a text that is
none. -/
theorem the_url_parser_reads_addresses (url : Text) (u : UrlParser) :
    UrlParser.new url = u ↔ (∃ a : Address, a.text = c_str url ∧ a.url = u) ∨
      ((¬ ∃ a : Address, a.text = c_str url) ∧ u = {}) := by
  have hread : ∀ a : Address, a.text = c_str url → UrlParser.new url = a.url := by
    intro a ha
    unfold UrlParser.new
    rw [← ha, find_address]
    cases hp : a.path <;> simp [Address.url, part, hp]
  by_cases h : ∃ a : Address, a.text = c_str url
  · obtain ⟨a, ha⟩ := h
    rw [hread a ha]
    constructor
    · rintro rfl
      exact .inl ⟨a, ha, rfl⟩
    · rintro (⟨b, hb, rfl⟩ | ⟨hno, -⟩)
      · rw [← hread a ha, hread b hb]
      · exact absurd ⟨a, ha⟩ hno
  · have hnone : find url_pattern (c_str url) = none := by
      cases hf : find url_pattern (c_str url) with
      | none => rfl
      | some parts => exact absurd (exists_address_of_find hf) h
    have hempty : UrlParser.new url = {} := by
      unfold UrlParser.new
      rw [hnone]
    rw [hempty]
    constructor
    · rintro rfl
      exact .inr ⟨h, rfl⟩
    · rintro (⟨a, ha, -⟩ | ⟨-, rfl⟩)
      · exact absurd ⟨a, ha⟩ h
      · rfl

-- the signs of a query and of a port go to what stands before them
example : UrlParser.new (ascii "http://auth?x:80?y/v1?z#w") =
    ⟨ascii "http", ascii "auth?x", ascii "80?y", ascii "/v1", ascii "z"⟩ := by decide

end tateyama_bootstrap.authentication
