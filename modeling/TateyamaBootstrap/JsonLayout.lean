-- Objects and arrays that are laid out by hand, with blanks of any kind between their parts and
-- with strings of which nothing is escaped. A piece of such a text is known by what it stands
-- for and by the condition under which it reads so; objects and arrays are made from pieces.
import TateyamaBootstrap.JsonTexts

namespace json

/-! ## Blanks and ends -/

def blank (b : UInt8) : Bool := b = 0x20 || b = 0x09 || b = 0x0a || b = 0x0d

/-- A text of blanks. -/
def Blank (w : Text) : Prop := ∀ b ∈ w, blank b

instance (w : Text) : Decidable (Blank w) := List.decidableBAll (fun b => blank b = true) w

theorem Blank.append {w w' : Text} (h : Blank w) (h' : Blank w') : Blank (w ++ w') := by
  intro b hb
  rcases List.mem_append.mp hb with hb | hb
  · exact h b hb
  · exact h' b hb

theorem ws_blank {w : Text} (hw : Blank w) (s : Text) : ws (w ++ s) = ws s :=
  List.dropWhile_append_of_pos hw

theorem ws_visible {b : UInt8} (hb : blank b = false) (s : Text) : ws (b :: s) = b :: s := by
  apply List.dropWhile_cons_of_neg
  rw [Bool.not_eq_true]
  exact hb

/-- What may stand behind a value. -/
def Stops (t : Text) : Prop :=
  ∀ b, t.head? = some b → blank b ∨ b = 0x2c ∨ b = 0x5d ∨ b = 0x7d

theorem stops_blank {w t : Text} (hw : Blank w) (ht : Stops t) : Stops (w ++ t) := by
  rcases w with _ | ⟨b, w⟩
  · exact ht
  · intro c hc
    obtain rfl := Option.some.inj hc
    exact Or.inl (hw b (by simp))

/-- There is no backslash before the next quote. -/
def Tidy (t : Text) : Prop := 0x5c ∉ t.takeWhile (· ≠ 0x22)

theorem tidy_quote (t : Text) : Tidy (0x22 :: t) := by
  simp [Tidy]

theorem tidy_append {a t : Text} (ha : 0x5c ∉ a) (ht : Tidy t) : Tidy (a ++ t) := by
  unfold Tidy at *
  induction a with
  | nil => exact ht
  | cons b a ih =>
    obtain ⟨hb, ha⟩ := not_or.mp (mt List.mem_cons.mpr ha)
    rw [List.cons_append, List.takeWhile_cons]
    split
    · rw [List.mem_cons, not_or]
      exact ⟨hb, ih ha⟩
    · simp

theorem tidy_blank {w t : Text} (hw : Blank w) (ht : Tidy t) : Tidy (w ++ t) := by
  apply tidy_append _ ht
  intro h
  exact absurd (hw _ h) (by decide)

/-- A string that goes on into a tidy text ends before a quote and not in a backslash. -/
theorem Tidy.endsClean {t : Text} (ht : Tidy t) : EndsClean t := by
  intro n v r h
  have hv : v = t.takeWhile (· ≠ 0x22) := by
    induction t generalizing n v r with
    | nil => cases n <;> simp [chars] at h
    | cons b t ih =>
      rcases n with _ | n
      · simp [chars] at h
      simp only [chars] at h
      split at h
      · rename_i hb
        simp only [Option.some.injEq, Prod.mk.injEq] at h
        rw [← h.1, List.takeWhile_cons_of_neg (by simp [hb])]
      rename_i hb
      have hcons : (b :: t).takeWhile (· ≠ 0x22) = b :: t.takeWhile (· ≠ 0x22) :=
        List.takeWhile_cons_of_pos (by simpa using hb)
      unfold Tidy at ht
      rw [hcons, List.mem_cons, not_or] at ht
      split at h
      · rename_i hslash
        exact absurd hslash.symm ht.1
      split at h
      · simp at h
      obtain ⟨⟨w, r'⟩, hw, hvw⟩ := Option.map_eq_some_iff.mp h
      obtain ⟨rfl, -⟩ := Prod.mk.inj hvw
      rw [hcons, ih ht.2 n w r' hw]
  intro hlast
  rw [hv] at hlast
  exact ht (List.mem_of_getLast? hlast)

/-! ## Characters -/

/-- The text is of UTF-8 exactly when `u` holds, whatever stands behind it. -/
def Encoded (text : Text) (u : Prop) : Prop := ∀ t, utf8 (text ++ t) = true ↔ u ∧ utf8 t = true

theorem encoded_ascii {a : Text} (ha : ∀ b ∈ a, b.toNat < 0x80) : Encoded a True := by
  intro t
  rw [utf8_of_ascii ha, true_and]

theorem encoded_quoted (y : Text) : Encoded (0x22 :: (y ++ [0x22])) (utf8 y = true) := by
  intro t
  rw [List.cons_append, utf8_ascii (by decide), List.append_assoc, List.singleton_append,
    utf8_append_ascii (by decide), Bool.and_eq_true]

theorem Encoded.append {a b : Text} {u v : Prop} (ha : Encoded a u) (hb : Encoded b v) :
    Encoded (a ++ b) (u ∧ v) := by
  intro t
  rw [List.append_assoc, ha, hb, and_assoc]

theorem encoded_cons {b : UInt8} (hb : b.toNat < 0x80) {a : Text} {u : Prop} (ha : Encoded a u) :
    Encoded (b :: a) u := by
  intro t
  rw [List.cons_append, utf8_ascii hb, ha]

theorem encoded_blank {w : Text} (hw : Blank w) : Encoded w True := by
  apply encoded_ascii
  intro b hb
  have hblank := hw b hb
  simp only [blank, Bool.or_eq_true, decide_eq_true_eq] at hblank
  rcases hblank with ((rfl | rfl) | rfl) | rfl <;> decide

theorem Encoded.congr {a : Text} {u v : Prop} (ha : Encoded a u) (h : u ↔ v) : Encoded a v := by
  intro t
  rw [ha, h]

/-! ## Pieces -/

/-- The text of a value: it reads as `v` when `p` holds, and only then, and is of UTF-8 when `u`
holds, and only then. -/
structure Piece (text : Text) (v : Json) (p u : Prop) : Prop where
  first : ∃ b s, text = b :: s ∧ blank b = false ∧ b ≠ 0x5d
  reads : p → ∀ n t, text.length < n → Stops t → value n (text ++ t) = some (v, t)
  back : ∀ n t r, Stops t → Tidy t → value n (text ++ t) = some (v, r) → p ∧ r = t
  tidy : ∀ t, Tidy t → Tidy (text ++ t)
  encoded : Encoded text u

theorem Piece.ws {text : Text} {v : Json} {p u : Prop} (h : Piece text v p u) (t : Text) :
    ws (text ++ t) = text ++ t := by
  obtain ⟨b, s, rfl, hb, -⟩ := h.first
  exact ws_visible hb (s ++ t)

/-- A text that is always read. -/
theorem piece_always {text : Text} {v : Json}
    (hfirst : ∃ b s, text = b :: s ∧ blank b = false ∧ b ≠ 0x5d)
    (hvalue : ∀ n t, Stops t → value (n + 1) (text ++ t) = some (v, t))
    (htidy : 0x5c ∉ text) (hencoded : Encoded text True) : Piece text v True True := by
  refine ⟨hfirst, ?_, ?_, fun t ht => tidy_append htidy ht, hencoded⟩
  · intro _ n t hn ht
    obtain ⟨n, rfl⟩ : ∃ m, n = m + 1 := ⟨n - 1, by omega⟩
    exact hvalue n t ht
  · intro n t r ht _ h
    rcases n with _ | n
    · simp [value] at h
    rw [hvalue n t ht] at h
    simp only [Option.some.injEq, Prod.mk.injEq, true_and] at h
    exact ⟨trivial, h.symm⟩

/-- Brackets around blanks. -/
theorem piece_brackets {a c : UInt8} {w : Text} {v : Json} (hw : Blank w)
    (ha : blank a = false ∧ a ≠ 0x5d) (hslash : a ≠ 0x5c ∧ c ≠ 0x5c)
    (hascii : a.toNat < 0x80 ∧ c.toNat < 0x80)
    (hvalue : ∀ n t, value (n + 1) (a :: (w ++ [c]) ++ t) = some (v, t)) :
    Piece (a :: (w ++ [c])) v True True := by
  refine piece_always ⟨a, _, rfl, ha⟩ (fun n t _ => hvalue n t) ?_ ?_
  · intro h
    simp only [List.mem_cons, List.mem_append, List.not_mem_nil, or_false] at h
    rcases h with h | h | h
    · exact hslash.1 h.symm
    · exact absurd (hw _ h) (by decide)
    · exact hslash.2 h.symm
  · have hend : Encoded [c] True := encoded_ascii (by simpa using hascii.2)
    exact encoded_cons hascii.1 (((encoded_blank hw).append hend).congr (by simp))

/-- A string reads as its own bytes when they are plain. -/
theorem chars_iff {y t r : Text} (ht : Tidy t) :
    chars (y ++ 0x22 :: t).length (y ++ 0x22 :: t) = some (y, r) ↔ (∀ b ∈ y, Plain b) ∧ r = t := by
  have hlen : y.length < (y ++ 0x22 :: t).length := by simp
  constructor
  · intro h
    obtain ⟨-, hplain⟩ := plain_of_chars ht.endsClean h (z := []) (List.nil_append y).symm
    rw [chars_plain hplain hlen] at h
    simp only [Option.some.injEq, Prod.mk.injEq, true_and] at h
    exact ⟨hplain, h.symm⟩
  · rintro ⟨hplain, rfl⟩
    exact chars_plain hplain hlen _

theorem piece_quoted (y : Text) :
    Piece (0x22 :: (y ++ [0x22])) (.string y) (∀ b ∈ y, Plain b) (utf8 y = true) := by
  have htext : 0x22 :: (y ++ [0x22]) = (Raw.quoted y).text := rfl
  refine ⟨⟨0x22, _, rfl, by decide, by decide⟩, ?_, ?_, ?_, encoded_quoted y⟩
  · intro hplain n t hn _
    obtain ⟨n, rfl⟩ : ∃ m, n = m + 1 := ⟨n - 1, by omega⟩
    rw [htext, value_quoted, chars_plain hplain (by simp)]
    rfl
  · intro n t r _ ht h
    rcases n with _ | n
    · simp [value] at h
    rw [htext, value_quoted, Option.map_eq_some_iff] at h
    obtain ⟨⟨v, s⟩, hchars, hvs⟩ := h
    simp only [Prod.mk.injEq, Json.string.injEq] at hvs
    obtain ⟨rfl, rfl⟩ := hvs
    exact (chars_iff ht).mp hchars
  · intro t _
    exact tidy_quote _

/-! ## Members -/

/-- A member of an object: its name, the text of its value, what that stands for and when. -/
structure Member where
  name : Text
  text : Text
  v : Json
  p : Prop
  u : Prop

namespace Member

/-- The text of the value is a piece. -/
def Good (m : Member) : Prop := Piece m.text m.v m.p m.u

/-- The name and the value read as they are meant. -/
def Holds (m : Member) : Prop := (∀ b ∈ m.name, Plain b) ∧ m.p

/-- The name and the value are of UTF-8. -/
def Utf8 (m : Member) : Prop := utf8 m.name = true ∧ m.u

def meant (m : Member) : Text × Json := (m.name, m.v)

/-- `"name": value`, with `gap` between the colon and the value. -/
def layout (gap : Text) (m : Member) : Text := 0x22 :: (m.name ++ 0x22 :: 0x3a :: (gap ++ m.text))

end Member

/-- What follows a member: further members behind commas, and the brace. -/
def more_layout (gap sep close : Text) : List Member → Text
  | [] => close ++ [0x7d]
  | m :: ms => 0x2c :: (sep ++ (m.layout gap ++ more_layout gap sep close ms))

theorem more_brace (n : Nat) (t : Text) : more (n + 1) (0x7d :: t) = some ([], t) := by
  rw [more, if_neg (by decide), if_pos rfl]

theorem more_comma (n : Nat) (t : Text) : more (n + 1) (0x2c :: t) = members n (ws t) := by
  rw [more, if_pos rfl]

section

variable {gap sep close : Text} (hgap : Blank gap) (hsep : Blank sep) (hclose : Blank close)

include hclose in
theorem stops_more (ms : List Member) (t : Text) : Stops (more_layout gap sep close ms ++ t) := by
  rcases ms with _ | ⟨m, ms⟩
  · rw [more_layout, List.append_assoc]
    apply stops_blank hclose
    intro b hb
    obtain rfl := Option.some.inj hb
    exact Or.inr (Or.inr (Or.inr rfl))
  · intro b hb
    obtain rfl := Option.some.inj hb
    exact Or.inr (Or.inl rfl)

include hsep hclose in
theorem tidy_more (ms : List Member) {t : Text} (ht : Tidy t) :
    Tidy (more_layout gap sep close ms ++ t) := by
  rcases ms with _ | ⟨m, ms⟩
  · rw [more_layout, List.append_assoc]
    exact tidy_blank hclose (tidy_append (by decide) ht)
  · rw [more_layout, List.cons_append, List.append_assoc, Member.layout]
    exact tidy_append (a := [0x2c]) (by decide) (tidy_blank hsep (tidy_quote _))

include hgap in
theorem encoded_layout {m : Member} (hm : m.Good) : Encoded (m.layout gap) m.Utf8 := by
  have hcolon : Encoded (0x3a :: (gap ++ m.text)) m.u :=
    encoded_cons (by decide) (((encoded_blank hgap).append hm.encoded).congr (by simp))
  intro t
  rw [Member.layout, List.cons_append, utf8_ascii (by decide), List.append_assoc,
    List.cons_append, utf8_append_ascii (by decide), Bool.and_eq_true, hcolon, Member.Utf8,
    and_assoc]

include hgap hsep hclose in
theorem encoded_more (ms : List Member) (hgood : ∀ m ∈ ms, m.Good) :
    Encoded (more_layout gap sep close ms) (∀ m ∈ ms, m.Utf8) := by
  induction ms with
  | nil =>
    have hend : Encoded [0x7d] True := encoded_ascii (by simp)
    exact ((encoded_blank hclose).append hend).congr (by simp)
  | cons m ms ih =>
    have hm := encoded_layout hgap (hgood m (by simp))
    have hms := ih fun x hx => hgood x (List.mem_cons_of_mem _ hx)
    exact encoded_cons (by decide) (((encoded_blank hsep).append (hm.append hms)).congr (by simp))

include hgap in
/-- A member whose name is plain is its name, its value, and what follows. -/
theorem members_layout {m : Member} (hm : m.Good) (hname : ∀ b ∈ m.name, Plain b) (n : Nat)
    (t : Text) :
    members (n + 1) (m.layout gap ++ t) =
      (value n (m.text ++ t)).bind fun (v, s) =>
        (more n (ws s)).map fun (ms, s) => ((m.name, v) :: ms, s) := by
  have hchars := chars_plain hname (n := (m.name ++ 0x22 :: 0x3a :: (gap ++ (m.text ++ t))).length)
    (by simp) (0x3a :: (gap ++ (m.text ++ t)))
  have hws : ws (gap ++ (m.text ++ t)) = m.text ++ t := by
    rw [ws_blank hgap, hm.ws]
  simp only [Member.layout, List.cons_append, List.append_assoc, members, if_true, hchars,
    Option.bind_eq_bind, Option.bind_some, ws_colon, colon, hws]
  rcases value n (m.text ++ t) with _ | ⟨v, s⟩
  · rfl
  dsimp only [Option.bind_some]
  rcases more n (ws s) with _ | ⟨ms, s'⟩ <;> rfl

include hgap in
/-- The first member that is read has its name. -/
theorem plain_of_members_layout {m : Member} (hm : m.Good) {n : Nat} {t r : Text} (ht : Tidy t)
    {v : Json} {ms : List (Text × Json)}
    (h : members n (m.layout gap ++ t) = some ((m.name, v) :: ms, r)) :
    ∀ b ∈ m.name, Plain b := by
  rcases n with _ | n
  · simp [members] at h
  simp only [Member.layout, List.cons_append, List.append_assoc, members, if_true,
    Option.bind_eq_bind, Option.bind_eq_some_iff] at h
  obtain ⟨⟨name, s1⟩, hchars, s2, -, ⟨v', s3⟩, -, ⟨ms', s4⟩, -, heq⟩ := h
  simp only [Option.some.injEq, Prod.mk.injEq, List.cons.injEq] at heq
  obtain ⟨⟨⟨rfl, -⟩, -⟩, -⟩ := heq
  have htidy : Tidy (0x3a :: (gap ++ (m.text ++ t))) :=
    tidy_append (a := [0x3a]) (by decide) (tidy_blank hgap (hm.tidy t ht))
  exact ((chars_iff htidy).mp hchars).1

include hclose in
theorem more_layout_nil (n : Nat) (t : Text) :
    more (n + 1) (ws (more_layout gap sep close [] ++ t)) = some ([], t) := by
  have hclosed : ws (more_layout gap sep close [] ++ t) = 0x7d :: t := by
    rw [more_layout, List.append_assoc, ws_blank hclose]
    rfl
  rw [hclosed, more_brace]

include hsep in
theorem more_layout_cons (n : Nat) (m : Member) (ms : List Member) (t : Text) :
    more (n + 1) (ws (more_layout gap sep close (m :: ms) ++ t)) =
      members n (m.layout gap ++ (more_layout gap sep close ms ++ t)) := by
  have hcomma : ws (more_layout gap sep close (m :: ms) ++ t) =
      0x2c :: (sep ++ (m.layout gap ++ (more_layout gap sep close ms ++ t))) := by
    simp only [more_layout, List.cons_append, List.append_assoc]
    rfl
  rw [hcomma, more_comma, ws_blank hsep]
  rfl

include hgap hsep hclose in
/-- Members that hold are read in order. -/
theorem members_of_holds (ms : List Member) {m : Member} (hgood : ∀ x ∈ m :: ms, x.Good)
    (hholds : ∀ x ∈ m :: ms, x.Holds) {n : Nat} (t : Text)
    (hn : (m.layout gap ++ more_layout gap sep close ms).length < n) :
    members n (m.layout gap ++ (more_layout gap sep close ms ++ t)) =
      some ((m :: ms).map Member.meant, t) := by
  induction ms generalizing m n with
  | nil =>
    have hlen : m.text.length + 2 < n := by
      simp only [Member.layout, more_layout, List.length_append, List.length_cons] at hn
      omega
    obtain ⟨n, rfl⟩ : ∃ k, n = k + 2 := ⟨n - 2, by omega⟩
    have hm := hgood m (by simp)
    obtain ⟨hname, hp⟩ := hholds m (by simp)
    rw [members_layout hgap hm hname, hm.reads hp _ _ (by omega) (stops_more hclose [] t),
      Option.bind_some]
    dsimp only
    rw [more_layout_nil hclose]
    rfl
  | cons m' ms ih =>
    have hlen : (m'.layout gap ++ more_layout gap sep close ms).length + 2 < n ∧
        m.text.length + 2 < n := by
      simp only [Member.layout, more_layout, List.length_append, List.length_cons] at hn ⊢
      omega
    obtain ⟨n, rfl⟩ : ∃ k, n = k + 2 := ⟨n - 2, by omega⟩
    have hm := hgood m (by simp)
    obtain ⟨hname, hp⟩ := hholds m (by simp)
    have hrest := ih (n := n) (fun x hx => hgood x (List.mem_cons_of_mem _ hx))
      (fun x hx => hholds x (List.mem_cons_of_mem _ hx)) (by omega)
    rw [members_layout hgap hm hname,
      hm.reads hp _ _ (by omega) (stops_more hclose (m' :: ms) t), Option.bind_some]
    dsimp only
    rw [more_layout_cons hsep, hrest]
    rfl

include hgap hsep hclose in
/-- What reads as the members that are meant holds. -/
theorem holds_of_members (ms : List Member) {m : Member} (hgood : ∀ x ∈ m :: ms, x.Good) {n : Nat}
    {t r : Text} (ht : Tidy t)
    (h : members n (m.layout gap ++ (more_layout gap sep close ms ++ t)) =
      some ((m :: ms).map Member.meant, r)) :
    (∀ x ∈ m :: ms, x.Holds) ∧ r = t := by
  induction ms generalizing m n with
  | nil =>
    have hm := hgood m (by simp)
    have htidy : Tidy (more_layout gap sep close [] ++ t) := tidy_more hsep hclose [] ht
    have hname := plain_of_members_layout hgap hm htidy h
    rcases n with _ | n
    · simp [members] at h
    rw [members_layout hgap hm hname, Option.bind_eq_some_iff] at h
    obtain ⟨⟨v, s⟩, hvalue, h⟩ := h
    obtain ⟨⟨ms', s'⟩, hmore, heq⟩ := Option.map_eq_some_iff.mp h
    simp only [Member.meant, List.map_cons, List.map_nil, Prod.mk.injEq, List.cons.injEq,
      true_and] at heq
    obtain ⟨⟨rfl, rfl⟩, rfl⟩ := heq
    obtain ⟨hp, rfl⟩ := hm.back _ _ _ (stops_more hclose [] t) htidy hvalue
    rcases n with _ | n
    · simp [more] at hmore
    rw [more_layout_nil hclose] at hmore
    simp only [Option.some.injEq, Prod.mk.injEq, true_and] at hmore
    exact ⟨by simpa using ⟨hname, hp⟩, hmore.symm⟩
  | cons m' ms ih =>
    have hm := hgood m (by simp)
    have htidy : Tidy (more_layout gap sep close (m' :: ms) ++ t) :=
      tidy_more hsep hclose (m' :: ms) ht
    have hname := plain_of_members_layout hgap hm htidy h
    rcases n with _ | n
    · simp [members] at h
    rw [members_layout hgap hm hname, Option.bind_eq_some_iff] at h
    obtain ⟨⟨v, s⟩, hvalue, h⟩ := h
    obtain ⟨⟨ms', s'⟩, hmore, heq⟩ := Option.map_eq_some_iff.mp h
    rw [List.map_cons, Prod.mk.injEq, List.cons.injEq] at heq
    obtain ⟨⟨hv, rfl⟩, rfl⟩ := heq
    obtain rfl : v = m.v := (Prod.mk.inj hv).2
    obtain ⟨hp, rfl⟩ := hm.back _ _ _ (stops_more hclose (m' :: ms) t) htidy hvalue
    rcases n with _ | n
    · simp [more] at hmore
    rw [more_layout_cons hsep] at hmore
    obtain ⟨hholds, rfl⟩ := ih (fun x hx => hgood x (List.mem_cons_of_mem _ hx)) hmore
    refine ⟨?_, rfl⟩
    intro x hx
    rcases List.mem_cons.mp hx with rfl | hx
    · exact ⟨hname, hp⟩
    · exact hholds x hx

end

/-! ## Objects -/

/-- An object without members. -/
theorem piece_empty_object {w : Text} (hw : Blank w) :
    Piece (0x7b :: (w ++ [0x7d])) (.object []) True True := by
  have hvalue : ∀ n t, value (n + 1) (0x7b :: (w ++ [0x7d]) ++ t) = some (.object [], t) := by
    intro n t
    have hws : ws (w ++ [0x7d] ++ t) = 0x7d :: t := by
      rw [List.append_assoc, ws_blank hw]
      rfl
    rw [List.cons_append, value, if_neg (by decide), if_pos rfl, hws]
    rfl
  exact piece_brackets hw (by decide) (by decide) (by decide) hvalue

/-- An object that holds is read with its members in order. -/
theorem piece_object {first gap sep close : Text} (hfirst : Blank first) (hgap : Blank gap)
    (hsep : Blank sep) (hclose : Blank close) {m : Member} {ms : List Member}
    (hgood : ∀ x ∈ m :: ms, x.Good) :
    Piece (0x7b :: (first ++ (m.layout gap ++ more_layout gap sep close ms)))
      (.object ((m :: ms).map Member.meant)) (∀ x ∈ m :: ms, x.Holds)
      (∀ x ∈ m :: ms, x.Utf8) := by
  have hvalue : ∀ n t, value (n + 1)
      (0x7b :: (first ++ (m.layout gap ++ more_layout gap sep close ms)) ++ t) =
      (members n (m.layout gap ++ (more_layout gap sep close ms ++ t))).map
        fun (ms, s) => (.object ms, s) := by
    intro n t
    have hws : ws (first ++ (m.layout gap ++ more_layout gap sep close ms) ++ t) =
        m.layout gap ++ (more_layout gap sep close ms ++ t) := by
      rw [List.append_assoc, ws_blank hfirst, List.append_assoc]
      rfl
    rw [List.cons_append, value, if_neg (by decide), if_pos rfl, hws]
    rfl
  refine ⟨⟨0x7b, _, rfl, by decide, by decide⟩, ?_, ?_, ?_, ?_⟩
  · intro hholds n t hn _
    obtain ⟨n, rfl⟩ : ∃ m, n = m + 1 := ⟨n - 1, by omega⟩
    rw [hvalue, members_of_holds hgap hsep hclose ms hgood hholds]
    · rfl
    · simp only [List.length_append, List.length_cons] at hn ⊢
      omega
  · intro n t r _ ht h
    rcases n with _ | n
    · simp [value] at h
    rw [hvalue, Option.map_eq_some_iff] at h
    obtain ⟨⟨ms', s⟩, hmembers, heq⟩ := h
    simp only [Prod.mk.injEq, Json.object.injEq] at heq
    obtain ⟨rfl, rfl⟩ := heq
    exact holds_of_members hgap hsep hclose ms hgood ht hmembers
  · intro t _
    rw [List.cons_append, List.append_assoc, List.append_assoc, Member.layout]
    exact tidy_append (a := [0x7b]) (by decide) (tidy_blank hfirst (tidy_quote _))
  · have hm := encoded_layout hgap (hgood m (by simp))
    have hms := encoded_more hgap hsep hclose ms fun x hx => hgood x (List.mem_cons_of_mem _ hx)
    exact encoded_cons (by decide)
      (((encoded_blank hfirst).append (hm.append hms)).congr (by simp))

/-- The members of an object up to its brace. -/
def members_text (gap sep close : Text) : List Member → Text
  | [] => close ++ [0x7d]
  | m :: ms => m.layout gap ++ more_layout gap sep close ms

theorem more_layout_of_ne (gap sep close : Text) {ms : List Member} (h : ms ≠ []) :
    more_layout gap sep close ms = 0x2c :: (sep ++ members_text gap sep close ms) := by
  rcases ms with _ | ⟨m, ms⟩
  · exact absurd rfl h
  · rfl

/-- A string between quotes. -/
def quoted (s : Text) : Text := 0x22 :: (s ++ [0x22])

/-- A member whose value is a string. -/
def string_member (name y : Text) : Member :=
  ⟨name, quoted y, .string y, ∀ b ∈ y, Plain b, utf8 y = true⟩

theorem string_member_good (name y : Text) : (string_member name y).Good := piece_quoted y

/-- An object by the list of its members. -/
theorem piece_members {first gap sep close : Text} (hfirst : Blank first) (hgap : Blank gap)
    (hsep : Blank sep) (hclose : Blank close) {ms : List Member} (hgood : ∀ x ∈ ms, x.Good) :
    Piece (0x7b :: (first ++ members_text gap sep close ms)) (.object (ms.map Member.meant))
      (∀ x ∈ ms, x.Holds) (∀ x ∈ ms, x.Utf8) := by
  rcases ms with _ | ⟨m, ms⟩
  · have hempty := piece_empty_object (hfirst.append hclose)
    rw [List.append_assoc] at hempty
    simpa [members_text] using hempty
  · exact piece_object hfirst hgap hsep hclose hgood

/-! ## Arrays -/

/-- An element of an array: its text, what it stands for and when. -/
structure Element where
  text : Text
  v : Json
  p : Prop
  u : Prop

def Element.Good (e : Element) : Prop := Piece e.text e.v e.p e.u

/-- What follows an element: further elements behind commas, and the bracket. -/
def more_elements (sep close : Text) : List Element → Text
  | [] => close ++ [0x5d]
  | e :: es => 0x2c :: (sep ++ (e.text ++ more_elements sep close es))

theorem elements_last {n : Nat} {s s' t : Text} {v : Json} (hv : value n s = some (v, s'))
    (hws : ws s' = 0x5d :: t) : elements (n + 1) s = some ([v], t) := by
  rw [elements, hv, Option.bind_eq_bind, Option.bind_some]
  dsimp only
  rw [hws]
  rfl

theorem elements_next {n : Nat} {s s' t : Text} {v : Json} (hv : value n s = some (v, s'))
    (hws : ws s' = 0x2c :: t) :
    elements (n + 1) s = (elements n (ws t)).map fun (vs, s) => (v :: vs, s) := by
  rw [elements, hv, Option.bind_eq_bind, Option.bind_some]
  dsimp only
  rw [hws]
  rfl

/-- The first of the elements is the first value that is read. -/
theorem value_of_elements {n : Nat} {s r : Text} {v : Json} {vs : List Json}
    (h : elements (n + 1) s = some (v :: vs, r)) : ∃ s', value n s = some (v, s') := by
  rw [elements, Option.bind_eq_bind, Option.bind_eq_some_iff] at h
  obtain ⟨⟨w, s'⟩, hvalue, h⟩ := h
  dsimp only at h
  split at h
  · obtain ⟨⟨ws, s''⟩, -, heq⟩ := Option.map_eq_some_iff.mp h
    simp only [Prod.mk.injEq, List.cons.injEq] at heq
    rw [← heq.1.1]
    exact ⟨s', hvalue⟩
  · simp only [Option.some.injEq, Prod.mk.injEq, List.cons.injEq] at h
    rw [← h.1.1]
    exact ⟨s', hvalue⟩
  · simp at h

section

variable {sep close : Text} (hsep : Blank sep) (hclose : Blank close)

include hclose in
theorem stops_elements (es : List Element) (t : Text) :
    Stops (more_elements sep close es ++ t) := by
  rcases es with _ | ⟨e, es⟩
  · rw [more_elements, List.append_assoc]
    apply stops_blank hclose
    intro b hb
    obtain rfl := Option.some.inj hb
    exact Or.inr (Or.inr (Or.inl rfl))
  · intro b hb
    obtain rfl := Option.some.inj hb
    exact Or.inr (Or.inl rfl)

include hsep hclose in
theorem tidy_elements (es : List Element) (hgood : ∀ e ∈ es, e.Good) {t : Text} (ht : Tidy t) :
    Tidy (more_elements sep close es ++ t) := by
  induction es with
  | nil =>
    rw [more_elements, List.append_assoc]
    exact tidy_blank hclose (tidy_append (by decide) ht)
  | cons e es ih =>
    have hrest := ih fun x hx => hgood x (List.mem_cons_of_mem _ hx)
    rw [more_elements, List.cons_append, List.append_assoc, List.append_assoc]
    exact tidy_append (a := [0x2c]) (by decide)
      (tidy_blank hsep ((hgood e (by simp)).tidy _ hrest))

include hsep hclose in
theorem encoded_elements (es : List Element) (hgood : ∀ e ∈ es, e.Good) :
    Encoded (more_elements sep close es) (∀ e ∈ es, e.u) := by
  induction es with
  | nil =>
    have hend : Encoded [0x5d] True := encoded_ascii (by simp)
    exact ((encoded_blank hclose).append hend).congr (by simp)
  | cons e es ih =>
    have hes := ih fun x hx => hgood x (List.mem_cons_of_mem _ hx)
    exact encoded_cons (by decide)
      (((encoded_blank hsep).append ((hgood e (by simp)).encoded.append hes)).congr (by simp))

include hclose in
theorem ws_more_elements_nil (t : Text) :
    ws (more_elements sep close [] ++ t) = 0x5d :: t := by
  rw [more_elements, List.append_assoc, ws_blank hclose]
  rfl

theorem ws_more_elements_cons (e : Element) (es : List Element) (t : Text) :
    ws (more_elements sep close (e :: es) ++ t) =
      0x2c :: (sep ++ (e.text ++ (more_elements sep close es ++ t))) := by
  simp only [more_elements, List.cons_append, List.append_assoc]
  rfl

include hsep in
theorem ws_sep_element {e : Element} (he : e.Good) (t : Text) :
    ws (sep ++ (e.text ++ t)) = e.text ++ t := by
  rw [ws_blank hsep, he.ws]

include hsep hclose in
/-- Elements that hold are read in order. -/
theorem elements_of_holds (es : List Element) {e : Element} (hgood : ∀ x ∈ e :: es, x.Good)
    (hholds : ∀ x ∈ e :: es, x.p) {n : Nat} (t : Text)
    (hn : (e.text ++ more_elements sep close es).length < n) :
    elements n (e.text ++ (more_elements sep close es ++ t)) =
      some ((e :: es).map Element.v, t) := by
  induction es generalizing e n with
  | nil =>
    obtain ⟨n, rfl⟩ : ∃ k, n = k + 1 := ⟨n - 1, by omega⟩
    have hlen : e.text.length < n := by
      simp only [more_elements, List.length_append, List.length_cons] at hn
      omega
    have hstops : Stops (more_elements sep close [] ++ t) := stops_elements hclose [] t
    have hvalue := (hgood e (by simp)).reads (hholds e (by simp)) _ _ hlen hstops
    exact elements_last hvalue (ws_more_elements_nil hclose t)
  | cons e' es ih =>
    obtain ⟨n, rfl⟩ : ∃ k, n = k + 1 := ⟨n - 1, by omega⟩
    have hlen : e.text.length < n ∧ (e'.text ++ more_elements sep close es).length < n := by
      simp only [more_elements, List.length_append, List.length_cons] at hn ⊢
      omega
    have hrest := ih (n := n) (fun x hx => hgood x (List.mem_cons_of_mem _ hx))
      (fun x hx => hholds x (List.mem_cons_of_mem _ hx)) hlen.2
    have hstops : Stops (more_elements sep close (e' :: es) ++ t) :=
      stops_elements hclose (e' :: es) t
    have hvalue := (hgood e (by simp)).reads (hholds e (by simp)) _ _ hlen.1 hstops
    rw [elements_next hvalue (ws_more_elements_cons e' es t),
      ws_sep_element hsep (hgood e' (by simp)), hrest]
    rfl

include hsep hclose in
/-- What reads as the elements that are meant holds. -/
theorem holds_of_elements (es : List Element) {e : Element} (hgood : ∀ x ∈ e :: es, x.Good)
    {n : Nat} {t r : Text} (ht : Tidy t)
    (h : elements n (e.text ++ (more_elements sep close es ++ t)) =
      some ((e :: es).map Element.v, r)) :
    (∀ x ∈ e :: es, x.p) ∧ r = t := by
  induction es generalizing e n with
  | nil =>
    rcases n with _ | n
    · simp [elements] at h
    obtain ⟨s, hvalue⟩ := value_of_elements h
    obtain ⟨hp, rfl⟩ := (hgood e (by simp)).back _ _ _ (stops_elements hclose [] t)
      (tidy_elements hsep hclose [] (by simp) ht) hvalue
    rw [elements_last hvalue (ws_more_elements_nil hclose t)] at h
    simp only [List.map_cons, List.map_nil, Option.some.injEq, Prod.mk.injEq, true_and] at h
    exact ⟨by simpa using hp, h.symm⟩
  | cons e' es ih =>
    rcases n with _ | n
    · simp [elements] at h
    have hgood' : ∀ x ∈ e' :: es, x.Good := fun x hx => hgood x (List.mem_cons_of_mem _ hx)
    obtain ⟨s, hvalue⟩ := value_of_elements h
    obtain ⟨hp, rfl⟩ := (hgood e (by simp)).back _ _ _ (stops_elements hclose (e' :: es) t)
      (tidy_elements hsep hclose (e' :: es) hgood' ht) hvalue
    rw [elements_next hvalue (ws_more_elements_cons e' es t),
      ws_sep_element hsep (hgood' e' (by simp)), Option.map_eq_some_iff] at h
    obtain ⟨⟨vs, s⟩, helements, heq⟩ := h
    simp only [List.map_cons, Prod.mk.injEq, List.cons.injEq, true_and] at heq
    obtain ⟨rfl, rfl⟩ := heq
    obtain ⟨hholds, rfl⟩ := ih hgood' helements
    refine ⟨?_, rfl⟩
    intro x hx
    rcases List.mem_cons.mp hx with rfl | hx
    · exact hp
    · exact hholds x hx

end

/-- An array without elements. -/
theorem piece_empty_array {w : Text} (hw : Blank w) :
    Piece (0x5b :: (w ++ [0x5d])) (.array []) True True := by
  have hvalue : ∀ n t, value (n + 1) (0x5b :: (w ++ [0x5d]) ++ t) = some (.array [], t) := by
    intro n t
    have hws : ws (w ++ [0x5d] ++ t) = 0x5d :: t := by
      rw [List.append_assoc, ws_blank hw]
      rfl
    rw [List.cons_append, value, if_neg (by decide), if_neg (by decide), if_pos rfl, hws]
    rfl
  exact piece_brackets hw (by decide) (by decide) (by decide) hvalue

/-- An array that holds is read with its elements in order. -/
theorem piece_array {first sep close : Text} (hfirst : Blank first) (hsep : Blank sep)
    (hclose : Blank close) {e : Element} {es : List Element} (hgood : ∀ x ∈ e :: es, x.Good) :
    Piece (0x5b :: (first ++ (e.text ++ more_elements sep close es)))
      (.array ((e :: es).map Element.v)) (∀ x ∈ e :: es, x.p) (∀ x ∈ e :: es, x.u) := by
  have hvalue : ∀ n t, value (n + 1)
      (0x5b :: (first ++ (e.text ++ more_elements sep close es)) ++ t) =
      (elements n (e.text ++ (more_elements sep close es ++ t))).map
        fun (vs, s) => (.array vs, s) := by
    intro n t
    obtain ⟨b, u, hb, hblank, hbracket⟩ := (hgood e (by simp)).first
    have hws : ws (first ++ (e.text ++ more_elements sep close es) ++ t) =
        b :: (u ++ (more_elements sep close es ++ t)) := by
      rw [List.append_assoc, ws_blank hfirst, List.append_assoc, hb]
      exact ws_visible hblank _
    rw [List.cons_append, value, if_neg (by decide), if_neg (by decide), if_pos rfl, hws, hb]
    split
    · rename_i heq
      exact absurd (List.cons.inj heq).1 hbracket
    · rfl
  refine ⟨⟨0x5b, _, rfl, by decide, by decide⟩, ?_, ?_, ?_, ?_⟩
  · intro hholds n t hn _
    obtain ⟨n, rfl⟩ : ∃ m, n = m + 1 := ⟨n - 1, by omega⟩
    rw [hvalue, elements_of_holds hsep hclose es hgood hholds]
    · rfl
    · simp only [List.length_append, List.length_cons] at hn ⊢
      omega
  · intro n t r _ ht h
    rcases n with _ | n
    · simp [value] at h
    rw [hvalue, Option.map_eq_some_iff] at h
    obtain ⟨⟨vs, s⟩, helements, heq⟩ := h
    simp only [Prod.mk.injEq, Json.array.injEq] at heq
    obtain ⟨rfl, rfl⟩ := heq
    exact holds_of_elements hsep hclose es hgood ht helements
  · intro t ht
    have hrest := tidy_elements hsep hclose es
      (fun x hx => hgood x (List.mem_cons_of_mem _ hx)) ht
    rw [List.cons_append, List.append_assoc, List.append_assoc]
    exact tidy_append (a := [0x5b]) (by decide)
      (tidy_blank hfirst ((hgood e (by simp)).tidy _ hrest))
  · have hes := encoded_elements hsep hclose es fun x hx => hgood x (List.mem_cons_of_mem _ hx)
    exact encoded_cons (by decide)
      (((encoded_blank hfirst).append ((hgood e (by simp)).encoded.append hes)).congr (by simp))

/-- The elements of an array up to its bracket. -/
def elements_text (sep close : Text) : List Element → Text
  | [] => close ++ [0x5d]
  | e :: es => e.text ++ more_elements sep close es

theorem more_elements_of_ne (sep close : Text) {es : List Element} (h : es ≠ []) :
    more_elements sep close es = 0x2c :: (sep ++ elements_text sep close es) := by
  rcases es with _ | ⟨e, es⟩
  · exact absurd rfl h
  · rfl

/-- An array by the list of its elements. -/
theorem piece_elements {first sep close : Text} (hfirst : Blank first) (hsep : Blank sep)
    (hclose : Blank close) {es : List Element} (hgood : ∀ x ∈ es, x.Good) :
    Piece (0x5b :: (first ++ elements_text sep close es)) (.array (es.map Element.v))
      (∀ x ∈ es, x.p) (∀ x ∈ es, x.u) := by
  rcases es with _ | ⟨e, es⟩
  · have hempty := piece_empty_array (hfirst.append hclose)
    rw [List.append_assoc] at hempty
    simpa [elements_text] using hempty
  · exact piece_array hfirst hsep hclose hgood

/-! ## Numbers -/

/-- The text is a number, and nothing else. -/
def NumberToken (text : Text) (v : Json) : Prop := number text = some (v, [])

/-- A part of a number that is read from a text is read as well when something stands behind the
text that cannot belong to it. -/
def Stable {α : Type} (f : Text → Option (α × Text)) : Prop :=
  ∀ s t, Stops t → f (s ++ t) = (f s).map fun (a, r) => (a, r ++ t)

theorem digit_of_stops {t : Text} (ht : Stops t) {b : UInt8} (hb : t.head? = some b) :
    digit b = false ∧ b ≠ 0x2e ∧ b ≠ 0x65 ∧ b ≠ 0x45 ∧ b ≠ 0x2b ∧ b ≠ 0x2d := by
  rcases ht b hb with h | rfl | rfl | rfl
  · simp only [blank, Bool.or_eq_true, decide_eq_true_eq] at h
    rcases h with ((rfl | rfl) | rfl) | rfl <;> decide
  all_goals decide

theorem digits_append (s : Text) {t : Text} (ht : Stops t) :
    (s ++ t).takeWhile digit = s.takeWhile digit ∧
      (s ++ t).dropWhile digit = s.dropWhile digit ++ t := by
  induction s with
  | nil =>
    rcases t with _ | ⟨b, t⟩
    · exact ⟨rfl, rfl⟩
    · have hb := (digit_of_stops ht (b := b) rfl).1
      simp [hb]
  | cons c s ih =>
    by_cases hc : digit c = true
    · simp [hc, ih.1, ih.2]
    · simp [hc]

theorem stable_int_part : Stable int_part := by
  intro s t ht
  obtain ⟨h1, h2⟩ := digits_append s ht
  unfold int_part
  simp only [h1, h2]
  split <;> rfl

theorem stable_some_digits : Stable some_digits := by
  intro s t ht
  obtain ⟨h1, h2⟩ := digits_append s ht
  unfold some_digits
  rw [h1, h2]
  split <;> rfl

theorem frac_part_of_ne {s : Text} (h : s.head? ≠ some 0x2e) : frac_part s = some ([], s) := by
  unfold frac_part
  split
  · simp at h
  · rfl

theorem stable_frac_part : Stable frac_part := by
  intro s t ht
  rcases s with _ | ⟨b, s⟩
  · rw [frac_part_of_ne (by
      intro hb
      exact (digit_of_stops ht hb).2.1 rfl), frac_part_of_ne (by simp)]
    rfl
  · by_cases hb : b = 0x2e
    · subst hb
      exact stable_some_digits s t ht
    · rw [frac_part_of_ne (by simpa using hb), frac_part_of_ne (by simpa using hb)]
      rfl

/-- What follows the letter of an exponent. -/
def exp_digits : Text → Option (Text × Text)
  | 0x2b :: s => some_digits s
  | 0x2d :: s => (some_digits s).map fun (ds, s) => (0x2d :: ds, s)
  | s => some_digits s

theorem exp_digits_of_ne {s : Text} (h : s.head? ≠ some 0x2b) (h' : s.head? ≠ some 0x2d) :
    exp_digits s = some_digits s := by
  unfold exp_digits
  split
  · simp at h
  · simp at h'
  · rfl

theorem stable_exp_digits : Stable exp_digits := by
  intro s t ht
  rcases s with _ | ⟨b, s⟩
  · rw [List.nil_append, exp_digits_of_ne (fun hb => (digit_of_stops ht hb).2.2.2.2.1 rfl)
      (fun hb => (digit_of_stops ht hb).2.2.2.2.2 rfl)]
    exact stable_some_digits [] t ht
  · by_cases hplus : b = 0x2b
    · subst hplus
      exact stable_some_digits s t ht
    by_cases hminus : b = 0x2d
    · subst hminus
      have h := stable_some_digits s t ht
      change (some_digits (s ++ t)).map _ = ((some_digits s).map _).map _
      rw [h]
      rcases some_digits s with _ | ⟨ds, r⟩ <;> rfl
    · rw [exp_digits_of_ne (by simpa using hplus) (by simpa using hminus),
        exp_digits_of_ne (by simpa using hplus) (by simpa using hminus)]
      exact stable_some_digits (b :: s) t ht

theorem exp_part_cons (b : UInt8) (s : Text) :
    exp_part (b :: s) = if b = 0x65 ∨ b = 0x45 then exp_digits s else some ([], b :: s) := rfl

theorem stable_exp_part : Stable exp_part := by
  intro s t ht
  rcases s with _ | ⟨b, s⟩
  · rcases t with _ | ⟨b, t⟩
    · rfl
    · have hb := digit_of_stops ht (b := b) rfl
      rw [List.nil_append, exp_part_cons, if_neg (by tauto)]
      rfl
  · rw [List.cons_append, exp_part_cons, exp_part_cons]
    split
    · exact stable_exp_digits s t ht
    · rfl

theorem stable_unsigned (negative : Bool) : Stable (unsigned negative) := by
  intro s t ht
  unfold unsigned
  simp only [stable_int_part s t ht, Option.bind_eq_bind]
  rcases int_part s with _ | ⟨i, s1⟩
  · rfl
  simp only [Option.map_some, Option.bind_some, stable_frac_part s1 t ht]
  rcases frac_part s1 with _ | ⟨f, s2⟩
  · rfl
  simp only [Option.map_some, Option.bind_some, stable_exp_part s2 t ht]
  rcases exp_part s2 with _ | ⟨e, s3⟩ <;> rfl

/-- The bytes of numbers. -/
def numeric (b : UInt8) : Bool :=
  digit b || b = 0x2b || b = 0x2d || b = 0x2e || b = 0x65 || b = 0x45

/-- The text `s` is made of bytes of numbers and of the text `r`. -/
def Takes (s r : Text) : Prop := ∃ u, s = u ++ r ∧ ∀ b ∈ u, numeric b

theorem Takes.refl (s : Text) : Takes s s := ⟨[], rfl, by simp⟩

theorem Takes.cons {b : UInt8} (hb : numeric b) {s r : Text} (h : Takes s r) :
    Takes (b :: s) r := by
  obtain ⟨u, rfl, hu⟩ := h
  refine ⟨b :: u, rfl, ?_⟩
  intro c hc
  rcases List.mem_cons.mp hc with rfl | hc
  · exact hb
  · exact hu c hc

theorem Takes.trans {s s' r : Text} (h : Takes s s') (h' : Takes s' r) : Takes s r := by
  obtain ⟨u, rfl, hu⟩ := h
  obtain ⟨u', rfl, hu'⟩ := h'
  refine ⟨u ++ u', by simp, ?_⟩
  intro b hb
  rcases List.mem_append.mp hb with hb | hb
  · exact hu b hb
  · exact hu' b hb

theorem takes_digits (s : Text) : Takes s (s.dropWhile digit) := by
  refine ⟨s.takeWhile digit, List.takeWhile_append_dropWhile.symm, ?_⟩
  intro b hb
  have hdigit := List.mem_takeWhile_imp hb
  simp [numeric, hdigit]

theorem takes_int_part {s r : Text} {i : Nat} (h : int_part s = some (i, r)) : Takes s r := by
  unfold int_part at h
  dsimp only at h
  split at h
  · simp at h
  · simp only [Option.some.injEq, Prod.mk.injEq] at h
    rw [← h.2]
    exact takes_digits s

theorem takes_some_digits {s r ds : Text} (h : some_digits s = some (ds, r)) : Takes s r := by
  unfold some_digits at h
  split at h
  · simp at h
  · simp only [Option.some.injEq, Prod.mk.injEq] at h
    rw [← h.2]
    exact takes_digits s

theorem takes_frac_part {s r ds : Text} (h : frac_part s = some (ds, r)) : Takes s r := by
  unfold frac_part at h
  split at h
  · exact (takes_some_digits h).cons (by decide)
  · simp only [Option.some.injEq, Prod.mk.injEq] at h
    rw [← h.2]
    exact Takes.refl _

theorem takes_exp_digits {s r ds : Text} (h : exp_digits s = some (ds, r)) : Takes s r := by
  unfold exp_digits at h
  split at h
  · exact (takes_some_digits h).cons (by decide)
  · obtain ⟨⟨ds', s'⟩, hds, heq⟩ := Option.map_eq_some_iff.mp h
    simp only [Prod.mk.injEq] at heq
    rw [← heq.2]
    exact (takes_some_digits hds).cons (by decide)
  · exact takes_some_digits h

theorem takes_exp_part {s r ds : Text} (h : exp_part s = some (ds, r)) : Takes s r := by
  rcases s with _ | ⟨b, s⟩
  · simp only [exp_part, Option.some.injEq, Prod.mk.injEq] at h
    rw [← h.2]
    exact Takes.refl _
  · rw [exp_part_cons] at h
    split at h
    · rename_i hb
      refine (takes_exp_digits h).cons ?_
      rcases hb with rfl | rfl <;> decide
    · simp only [Option.some.injEq, Prod.mk.injEq] at h
      rw [← h.2]
      exact Takes.refl _

theorem takes_unsigned {negative : Bool} {s r : Text} {v : Json}
    (h : unsigned negative s = some (v, r)) : Takes s r := by
  simp only [unsigned, Option.bind_eq_bind, Option.bind_eq_some_iff] at h
  obtain ⟨⟨i, s1⟩, hint, ⟨f, s2⟩, hfrac, ⟨e, s3⟩, hexp, heq⟩ := h
  simp only [Option.some.injEq, Prod.mk.injEq] at heq
  rw [← heq.2]
  exact (takes_int_part hint).trans ((takes_frac_part hfrac).trans (takes_exp_part hexp))

theorem number_of_ne {b : UInt8} (hb : b ≠ 0x2d) (s : Text) :
    number (b :: s) = unsigned false (b :: s) := by
  unfold number
  split
  · rename_i heq
    exact absurd (List.cons.inj heq).1 hb
  · rfl

theorem takes_number {s r : Text} {v : Json} (h : number s = some (v, r)) : Takes s r := by
  rcases s with _ | ⟨b, s⟩
  · exact takes_unsigned (show unsigned false [] = some (v, r) from h)
  by_cases hb : b = 0x2d
  · subst hb
    exact (takes_unsigned (show unsigned true s = some (v, r) from h)).cons (by decide)
  · rw [number_of_ne hb] at h
    exact takes_unsigned h

theorem NumberToken.numeric {s : Text} {v : Json} (h : NumberToken s v) : ∀ b ∈ s, numeric b := by
  obtain ⟨u, hu, hall⟩ := takes_number h
  rw [List.append_nil] at hu
  rw [hu]
  exact hall

/-- A number begins with a minus sign or a digit. -/
theorem first_of_number {s : Text} {v : Json} {r : Text} (h : number s = some (v, r)) :
    ∃ b u, s = b :: u ∧ (b = 0x2d ∨ digit b = true) := by
  rcases s with _ | ⟨b, s⟩
  · simp [number, unsigned, int_part] at h
  refine ⟨b, s, rfl, ?_⟩
  by_cases hminus : b = 0x2d
  · exact Or.inl hminus
  by_contra hno
  have hdigit : digit b ≠ true := fun hd => hno (Or.inr hd)
  rw [number_of_ne hminus] at h
  simp [unsigned, int_part, hdigit] at h

theorem number_append {s t : Text} {v : Json} (h : NumberToken s v) (ht : Stops t) :
    number (s ++ t) = some (v, t) := by
  unfold NumberToken at h
  obtain ⟨b, u, rfl, -⟩ := first_of_number h
  by_cases hminus : b = 0x2d
  · subst hminus
    have hstable := stable_unsigned true u t ht
    change unsigned true u = some (v, []) at h
    rw [h] at hstable
    exact hstable
  · have hstable := stable_unsigned false (b :: u) t ht
    rw [number_of_ne hminus] at h
    rw [h] at hstable
    rw [List.cons_append, number_of_ne hminus]
    exact hstable

theorem encoded_number {s : Text} {v : Json} (h : NumberToken s v) : Encoded s True := by
  apply encoded_ascii
  intro b hb
  have hnumeric := h.numeric b hb
  simp only [json.numeric, digit, Bool.or_eq_true, Bool.and_eq_true, decide_eq_true_eq,
    UInt8.le_iff_toNat_le] at hnumeric
  rcases hnumeric with ((((h1 | rfl) | rfl) | rfl) | rfl) | rfl
  · exact Nat.lt_of_le_of_lt h1.2 (by decide)
  all_goals decide

theorem piece_number {s : Text} {v : Json} (h : NumberToken s v) : Piece s v True True := by
  obtain ⟨b, u, rfl, hb⟩ := first_of_number h
  have hne : ∀ c : UInt8, c ≠ 0x2d → digit c = false → b ≠ c := by
    rintro c hc hdc rfl
    rcases hb with rfl | hb
    · exact hc rfl
    · rw [hdc] at hb
      simp at hb
  have hvalue : ∀ n t, Stops t → value (n + 1) (b :: u ++ t) = some (v, t) := by
    intro n t ht
    rw [List.cons_append, value, if_neg (hne 0x22 (by decide) (by decide)),
      if_neg (hne 0x7b (by decide) (by decide)), if_neg (hne 0x5b (by decide) (by decide)),
      if_neg (hne 0x74 (by decide) (by decide)), if_neg (hne 0x66 (by decide) (by decide)),
      if_neg (hne 0x6e (by decide) (by decide))]
    exact number_append h ht
  have hblank : blank b = false := by
    unfold blank
    simp [hne 0x20 (by decide) (by decide), hne 0x09 (by decide) (by decide),
      hne 0x0a (by decide) (by decide), hne 0x0d (by decide) (by decide)]
  refine piece_always ⟨b, u, rfl, hblank, hne 0x5d (by decide) (by decide)⟩ hvalue ?_
    (encoded_number h)
  intro hslash
  exact absurd (h.numeric _ hslash) (by decide)

/-! ## The whole text -/

/-- A piece with blanks behind it is one JSON text exactly when it holds and is of UTF-8. -/
theorem parse_piece {text : Text} {v : Json} {p u : Prop} (h : Piece text v p u) {w : Text}
    (hw : Blank w) : parse (text ++ w) = some v ↔ p ∧ u := by
  have hstops : Stops w := by
    have := stops_blank hw (t := []) (by simp [Stops])
    simpa using this
  have htidy : Tidy w := by
    have := tidy_blank hw (t := []) (by simp [Tidy])
    simpa using this
  have hempty : ws w = [] := by
    have := ws_blank hw []
    rw [List.append_nil] at this
    exact this
  have hutf8 : utf8 (text ++ w) = true ↔ u := by
    have := (h.encoded.append (encoded_blank hw)) []
    rw [List.append_nil] at this
    rw [this]
    simp [utf8, Utf8.reads]
  unfold parse
  split
  · rename_i hread
    rw [h.ws, Option.bind_eq_some_iff]
    constructor
    · rintro ⟨⟨v', s⟩, hvalue, hend⟩
      dsimp only at hend
      split at hend
      · obtain rfl := Option.some.inj hend
        exact ⟨(h.back _ _ _ hstops htidy hvalue).1, hutf8.mp hread⟩
      · simp at hend
    · rintro ⟨hp, -⟩
      refine ⟨(v, w), h.reads hp _ _ (by rw [List.length_append]; omega) hstops, ?_⟩
      dsimp only
      rw [hempty, if_pos rfl]
  · rename_i hread
    rw [hutf8] at hread
    simp [hread]

end json
