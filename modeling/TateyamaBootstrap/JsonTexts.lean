-- JSON texts that are put together from names and raw values without any escaping. Such a
-- text reads back as the values that were put in exactly when every string in it stands for
-- itself.
import TateyamaBootstrap.Json

namespace json

/-! ## The texts -/

/-- A value as it is put into a text: a number, or a string of which nothing is escaped. -/
inductive Raw
  | number (n : Int)
  | quoted (s : Text)
deriving DecidableEq, Repr

def nat_text (n : Nat) : Text := (Nat.toDigits 10 n).map fun c => UInt8.ofNat c.toNat

def int_text (n : Int) : Text := if n < 0 then 0x2d :: nat_text n.natAbs else nat_text n.natAbs

namespace Raw

def text : Raw → Text
  | .number n => int_text n
  | .quoted s => 0x22 :: (s ++ [0x22])

/-- The value that is meant. -/
def denotes : Raw → Json
  | .number n => .number (n < 0) n.natAbs [] []
  | .quoted s => .string s

/-- A string of characters that stand for themselves. -/
def Clean : Raw → Prop
  | .number _ => True
  | .quoted s => (∀ b ∈ s, Plain b) ∧ utf8 s = true

def utf8 : Raw → Bool
  | .number _ => true
  | .quoted s => json.utf8 s

instance : (raw : Raw) → Decidable raw.Clean
  | .number _ => inferInstanceAs (Decidable True)
  | .quoted s =>
    -- over the bytes of the string, not over all bytes
    @instDecidableAnd (∀ b ∈ s, Plain b) (json.utf8 s = true) (List.decidableBAll Plain s)
      inferInstance

end Raw

/-- `"name": value`. -/
def pair (p : Text × Raw) : Text := 0x22 :: (p.1 ++ 0x22 :: 0x3a :: 0x20 :: p.2.text)

/-- What follows a member: further members behind commas, and the brace. -/
def rest : List (Text × Raw) → Text
  | [] => [0x20, 0x7d]
  | p :: ps => 0x2c :: 0x20 :: (pair p ++ rest ps)

def object_text (p : Text × Raw) (ps : List (Text × Raw)) : Text :=
  0x7b :: 0x20 :: (pair p ++ rest ps)

/-! ## Blanks -/

@[simp] theorem ws_space (s : Text) : ws (0x20 :: s) = ws s := rfl

theorem ws_of_visible {b : UInt8} (hb : ¬ (b = 0x20 || b = 0x09 || b = 0x0a || b = 0x0d) = true)
    (s : Text) : ws (b :: s) = b :: s := List.dropWhile_cons_of_neg hb

@[simp] theorem ws_quote (s : Text) : ws (0x22 :: s) = 0x22 :: s := rfl

@[simp] theorem ws_comma (s : Text) : ws (0x2c :: s) = 0x2c :: s := rfl

@[simp] theorem ws_brace (s : Text) : ws (0x7d :: s) = 0x7d :: s := rfl

@[simp] theorem ws_colon (s : Text) : ws (0x3a :: s) = 0x3a :: s := rfl

/-! ## Numbers -/

theorem digit_of_isDigit {c : Char} (hc : c.isDigit = true) :
    digit (UInt8.ofNat c.toNat) = true ∧ (UInt8.ofNat c.toNat).toNat = c.toNat := by
  obtain ⟨hlo, hhi⟩ := Char.isDigit_iff_toNat.mp hc
  have hlo' : 0x30 ≤ c.toNat := hlo
  have hhi' : c.toNat ≤ 0x39 := hhi
  have hval : (UInt8.ofNat c.toNat).toNat = c.toNat :=
    UInt8.toNat_ofNat_of_lt' (Nat.lt_of_le_of_lt hhi' (by decide))
  refine ⟨?_, hval⟩
  unfold digit
  rw [Bool.and_eq_true, decide_eq_true_iff, decide_eq_true_iff, UInt8.le_iff_toNat_le,
    UInt8.le_iff_toNat_le, hval]
  exact ⟨hlo', hhi'⟩

theorem digit_of_mem_nat_text {n : Nat} {b : UInt8} (hb : b ∈ nat_text n) : digit b = true := by
  obtain ⟨c, hc, rfl⟩ := List.mem_map.mp hb
  exact (digit_of_isDigit (Nat.isDigit_of_mem_toDigits (by decide) (by decide) hc)).1

theorem nat_text_ne_nil (n : Nat) : nat_text n ≠ [] := by
  simp [nat_text]

theorem digits_value_nat_text (n : Nat) : digits_value (nat_text n) = n := by
  have hfold : ∀ (cs : List Char), (∀ c ∈ cs, c.isDigit = true) → ∀ init,
      (cs.map fun c => UInt8.ofNat c.toNat).foldl (fun n b => 10 * n + (b.toNat - 0x30)) init =
        Nat.ofDigitChars 10 cs init := by
    intro cs hcs
    induction cs with
    | nil => intro init; rfl
    | cons c cs ih =>
      intro init
      have hval := (digit_of_isDigit (hcs c (by simp))).2
      rw [List.map_cons, List.foldl_cons, Nat.ofDigitChars_cons, hval]
      exact ih (fun d hd => hcs d (by simp [hd])) _
  calc
    digits_value (nat_text n) = Nat.ofDigitChars 10 (Nat.toDigits 10 n) 0 :=
      hfold _ (fun c hc => Nat.isDigit_of_mem_toDigits (by decide) (by decide) hc) 0
    _ = n := Nat.ofDigitChars_ten_toDigits

theorem digitChar_byte {d : Nat} (h : d < 10) :
    UInt8.ofNat d.digitChar.toNat = UInt8.ofNat (0x30 + d) := by
  have hall : ∀ d : Fin 10, UInt8.ofNat d.val.digitChar.toNat = UInt8.ofNat (0x30 + d.val) := by
    decide
  exact hall ⟨d, h⟩

theorem nat_text_of_lt {n : Nat} (h : n < 10) : nat_text n = [UInt8.ofNat (0x30 + n)] := by
  rw [nat_text, Nat.toDigits_of_lt_base h, List.map_singleton, digitChar_byte h]

theorem nat_text_of_le {n : Nat} (h : 10 ≤ n) :
    nat_text n = nat_text (n / 10) ++ [UInt8.ofNat (0x30 + n % 10)] := by
  rw [nat_text, Nat.toDigits_of_base_le (by decide) h, List.map_append, List.map_singleton,
    digitChar_byte (Nat.mod_lt _ (by omega))]
  rfl

/-- No number but zero begins with a zero. -/
theorem nat_text_head {n : Nat} (hn : 0 < n) : (nat_text n).head? ≠ some 0x30 := by
  induction n using Nat.strongRecOn with
  | _ n ih =>
    rcases Nat.lt_or_ge n 10 with hlt | hge
    · have hall : ∀ k : Fin 10, 0 < k.val → [UInt8.ofNat (0x30 + k.val)].head? ≠ some 0x30 := by
        decide
      rw [nat_text_of_lt hlt]
      exact hall ⟨n, hlt⟩ hn
    · rw [nat_text_of_le hge, List.head?_append_of_ne_nil _ (nat_text_ne_nil _)]
      exact ih (n / 10) (by omega) (by omega)

/-- What follows a value in a text that is put together. -/
def Follows (t : Text) : Prop := ∃ b s, t = b :: s ∧ (b = 0x20 ∨ b = 0x2c)

theorem follows_rest (ps : List (Text × Raw)) : Follows (rest ps) := by
  cases ps with
  | nil => exact ⟨_, _, rfl, Or.inl rfl⟩
  | cons p ps => exact ⟨_, _, rfl, Or.inr rfl⟩

theorem unsigned_nat_text (negative : Bool) (n : Nat) {t : Text} (ht : Follows t) :
    unsigned negative (nat_text n ++ t) = some (.number negative n [] [], t) := by
  obtain ⟨b, s, rfl, hb⟩ := ht
  have hnot : digit b = false := by rcases hb with rfl | rfl <;> rfl
  have hall : ∀ c ∈ nat_text n, digit c = true := fun c hc => digit_of_mem_nat_text hc
  have htake : (nat_text n ++ b :: s).takeWhile digit = nat_text n := by
    rw [List.takeWhile_append_of_pos hall, List.takeWhile_cons_of_neg (by simp [hnot]),
      List.append_nil]
  have hdrop : (nat_text n ++ b :: s).dropWhile digit = b :: s := by
    rw [List.dropWhile_append_of_pos hall, List.dropWhile_cons_of_neg (by simp [hnot])]
  have hhead : ¬ (nat_text n = [] ∨ (nat_text n).head? = some 0x30 ∧ 1 < (nat_text n).length) := by
    rintro (hnil | ⟨hzero, hlen⟩)
    · exact nat_text_ne_nil n hnil
    · rcases Nat.eq_zero_or_pos n with rfl | hpos
      · exact absurd hlen (by decide)
      · exact nat_text_head hpos hzero
  have hint : int_part (nat_text n ++ b :: s) = some (n, b :: s) := by
    simp only [int_part, htake, hdrop, if_neg hhead, digits_value_nat_text]
  have hfrac : frac_part (b :: s) = some ([], b :: s) := by
    rcases hb with rfl | rfl <;> rfl
  have hexp : exp_part (b :: s) = some ([], b :: s) := by
    rcases hb with rfl | rfl <;> rfl
  simp only [unsigned, hint, hfrac, hexp, Option.bind_eq_bind, Option.bind_some]

/-! ## Members -/

theorem value_number (k : Nat) (n : Int) {t : Text} (ht : Follows t) :
    value (k + 1) ((Raw.number n).text ++ t) = some ((Raw.number n).denotes, t) := by
  have hnumber : number ((Raw.number n).text ++ t) = some ((Raw.number n).denotes, t) := by
    unfold Raw.text int_text Raw.denotes
    dsimp only
    split
    · rename_i hneg
      rw [decide_eq_true hneg]
      exact unsigned_nat_text true n.natAbs ht
    · rename_i hneg
      rw [decide_eq_false hneg]
      have hread := unsigned_nat_text false n.natAbs ht
      cases hs : nat_text n.natAbs with
      | nil => exact absurd hs (nat_text_ne_nil _)
      | cons b s =>
        have hb : digit b = true := digit_of_mem_nat_text (n := n.natAbs) (by simp [hs])
        rw [hs] at hread
        simp only [List.cons_append] at hread ⊢
        unfold number
        split
        · rename_i heq
          rw [(List.cons.inj heq).1] at hb
          exact absurd hb (by decide)
        · exact hread
  have hfirst : ∃ b s, (Raw.number n).text ++ t = b :: s ∧ (b = 0x2d ∨ digit b = true) := by
    unfold Raw.text int_text
    dsimp only
    split
    · exact ⟨_, _, rfl, Or.inl rfl⟩
    · cases hs : nat_text n.natAbs with
      | nil => exact absurd hs (nat_text_ne_nil _)
      | cons b s =>
        have hb : digit b = true := digit_of_mem_nat_text (n := n.natAbs) (by simp [hs])
        exact ⟨b, s ++ t, rfl, Or.inr hb⟩
  obtain ⟨b, s, hbs, hb⟩ := hfirst
  have hne : ∀ c : UInt8, c ≠ 0x2d → digit c = false → b ≠ c := by
    rintro c hc hdc rfl
    rcases hb with rfl | hb
    · exact hc rfl
    · rw [hdc] at hb
      cases hb
  rw [hbs] at hnumber ⊢
  simp only [value]
  rw [if_neg (hne 0x22 (by decide) (by decide)), if_neg (hne 0x7b (by decide) (by decide)),
    if_neg (hne 0x5b (by decide) (by decide)), if_neg (hne 0x74 (by decide) (by decide)),
    if_neg (hne 0x66 (by decide) (by decide)), if_neg (hne 0x6e (by decide) (by decide))]
  exact hnumber

theorem value_quoted (k : Nat) (y t : Text) :
    value (k + 1) ((Raw.quoted y).text ++ t) =
      (chars (y ++ 0x22 :: t).length (y ++ 0x22 :: t)).map fun (v, s) => (.string v, s) := by
  simp only [Raw.text, List.cons_append, value, if_true, List.append_assoc, List.nil_append]

/-- A member is its name, its value, and what follows. -/
theorem members_pair (k : Nat) {name : Text} (hname : ∀ b ∈ name, Plain b) (raw : Raw) (t : Text) :
    members (k + 1) (pair (name, raw) ++ t) =
      (value k (raw.text ++ t)).bind fun (v, s) =>
        (more k (ws s)).map fun (ms, s) => ((name, v) :: ms, s) := by
  have hblank : ws (raw.text ++ t) = raw.text ++ t := by
    cases raw with
    | quoted y => rfl
    | number n =>
      unfold Raw.text int_text
      dsimp only
      split
      · rfl
      · cases hs : nat_text n.natAbs with
        | nil => exact absurd hs (nat_text_ne_nil _)
        | cons b s =>
          have hb : digit b = true := digit_of_mem_nat_text (n := n.natAbs) (by simp [hs])
          apply ws_of_visible
          intro hw
          simp only [Bool.or_eq_true, decide_eq_true_eq] at hw
          rcases hw with ((rfl | rfl) | rfl) | rfl <;> exact absurd hb (by decide)
  have hlen : name.length <
      (name ++ 0x22 :: 0x3a :: 0x20 :: (raw.text ++ t)).length := by
    simp only [List.length_append, List.length_cons]
    omega
  have hchars := chars_plain hname hlen (0x3a :: 0x20 :: (raw.text ++ t))
  simp only [pair, List.cons_append, List.append_assoc, members, if_true, hchars,
    Option.bind_eq_bind, Option.bind_some, ws_colon, colon, ws_space, hblank]
  cases value k (raw.text ++ t) with
  | none => rfl
  | some p =>
    simp only [Option.bind_some]
    cases more k (ws p.2) with
    | none => rfl
    | some q => rfl

theorem more_nil (k : Nat) : more (k + 1) (ws (rest [])) = some ([], []) := by
  simp [rest, more]

theorem more_cons (k : Nat) (p : Text × Raw) (ps : List (Text × Raw)) :
    more (k + 1) (ws (rest (p :: ps))) = members k (pair p ++ rest ps) := by
  simp [rest, more, pair]

/-- Should its quote be escaped, the string before further members ends with the blank behind
the comma. -/
theorem endsClean_rest (ps : List (Text × Raw)) : EndsClean (rest ps) := by
  intro n v r h
  rcases n with _ | _ | _ | n
  · simp [chars] at h
  · cases ps <;> simp [rest, chars] at h
  · cases ps <;> simp [rest, chars] at h
  · cases ps with
    | nil =>
      cases n <;> simp [rest, chars] at h
    | cons p ps =>
      have hread : chars (n + 3) (rest (p :: ps)) = some ([0x2c, 0x20],
          p.1 ++ 0x22 :: 0x3a :: 0x20 :: p.2.text ++ rest ps) := by
        simp [rest, pair, chars]
      rw [hread] at h
      cases h
      decide

/-! ## Reading back -/

/-- The member of the name is there, once, with this value. -/
def Field (ms : List (Text × Json)) (name : Text) (v : Json) : Prop :=
  ms.filter (fun m => m.1 = name) = [(name, v)]

def meant (ps : List (Text × Raw)) : List (Text × Json) := ps.map fun p => (p.1, p.2.denotes)

theorem value_clean (k : Nat) {raw : Raw} (h : raw.Clean) {t : Text} (ht : Follows t) :
    value (k + 1) (raw.text ++ t) = some (raw.denotes, t) := by
  cases raw with
  | number n => exact value_number k n ht
  | quoted y =>
    rw [value_quoted, chars_plain h.1 (by simp) t]
    rfl

/-- Members whose strings stand for themselves are read as they are meant. -/
theorem members_clean {p : Text × Raw} {ps : List (Text × Raw)} {k : Nat}
    (hname : ∀ q ∈ p :: ps, (Raw.quoted q.1).Clean) (hclean : ∀ q ∈ p :: ps, q.2.Clean)
    (hk : 2 * (ps.length + 1) ≤ k) :
    members k (pair p ++ rest ps) = some (meant (p :: ps), []) := by
  induction ps generalizing p k with
  | nil =>
    obtain ⟨k, rfl⟩ : ∃ j, k = j + 2 := ⟨k - 2, by simp only [List.length_nil] at hk; omega⟩
    rw [members_pair _ (hname p (by simp)).1,
      value_clean k (hclean p (by simp)) (follows_rest []), Option.bind_some]
    dsimp only
    rw [more_nil]
    rfl
  | cons q ps ih =>
    simp only [List.length_cons] at hk
    obtain ⟨k, rfl⟩ : ∃ j, k = j + 2 := ⟨k - 2, by omega⟩
    have hrest := ih (p := q) (k := k) (fun r hr => hname r (List.mem_cons_of_mem _ hr))
      (fun r hr => hclean r (List.mem_cons_of_mem _ hr)) (by omega)
    rw [members_pair _ (hname p (by simp)).1,
      value_clean k (hclean p (by simp)) (follows_rest _), Option.bind_some]
    dsimp only
    rw [more_cons, hrest]
    rfl

/-- A string that is read as it was put in is plain. -/
theorem plain_of_value {k : Nat} {raw : Raw} {ps : List (Text × Raw)} {r : Text}
    (h : value k (raw.text ++ rest ps) = some (raw.denotes, r)) :
    r = rest ps ∧ ∀ y, raw = .quoted y → ∀ b ∈ y, Plain b := by
  cases k with
  | zero => simp [value] at h
  | succ k =>
    cases raw with
    | number n =>
      rw [value_number k n (follows_rest ps)] at h
      cases h
      exact ⟨rfl, nofun⟩
    | quoted y =>
      rw [value_quoted] at h
      obtain ⟨⟨v, r'⟩, hchars, hv⟩ := Option.map_eq_some_iff.mp h
      obtain ⟨hvy, rfl⟩ : v = y ∧ r' = r := by
        simpa [Raw.denotes] using hv
      obtain ⟨-, hplain⟩ := plain_of_chars (endsClean_rest ps) hchars (z := []) hvy
      rw [chars_plain hplain (by simp)] at hchars
      cases hchars
      refine ⟨rfl, ?_⟩
      rintro _ ⟨⟩
      exact hplain

/-- The first member, and the reading of what follows it. -/
theorem members_pair_some {p : Text × Raw} (hname : (Raw.quoted p.1).Clean) {k : Nat} {t r : Text}
    {ms : List (Text × Json)} (h : members k (pair p ++ t) = some (ms, r)) :
    ∃ j v s ms', k = j + 1 ∧ value j (p.2.text ++ t) = some (v, s) ∧
      more j (ws s) = some (ms', r) ∧ ms = (p.1, v) :: ms' := by
  cases k with
  | zero => simp [members] at h
  | succ j =>
    rw [members_pair j hname.1] at h
    obtain ⟨⟨v, s⟩, hv, h⟩ := Option.bind_eq_some_iff.mp h
    obtain ⟨⟨ms', r'⟩, hms, hr⟩ := Option.map_eq_some_iff.mp h
    cases hr
    exact ⟨j, v, s, ms', rfl, hv, hms, rfl⟩

theorem Field.head {ms : List (Text × Json)} {name : Text} {v w : Json}
    (h : Field ((name, v) :: ms) name w) : v = w := by
  unfold Field at h
  rw [List.filter_cons_of_pos (by simp)] at h
  exact congrArg Prod.snd (List.cons.inj h).1

theorem Field.tail {m : Text × Json} {ms : List (Text × Json)} {name : Text} {w : Json}
    (h : Field (m :: ms) name w) (hne : m.1 ≠ name) : Field ms name w := by
  unfold Field at h
  rwa [List.filter_cons_of_neg (by simpa using hne)] at h

theorem plain_of_members {p : Text × Raw} {ps : List (Text × Raw)} {k : Nat}
    {ms : List (Text × Json)} {r : Text} (hname : ∀ q ∈ p :: ps, (Raw.quoted q.1).Clean)
    (hnodup : ((p :: ps).map Prod.fst).Nodup)
    (h : members k (pair p ++ rest ps) = some (ms, r))
    (hfield : ∀ q ∈ p :: ps, q.2.Clean ∨ Field ms q.1 q.2.denotes) :
    ∀ q ∈ p :: ps, ∀ y, q.2 = .quoted y → ∀ b ∈ y, Plain b := by
  induction ps generalizing p k ms r with
  | nil =>
    obtain ⟨j, v, s, ms', -, hv, -, rfl⟩ := members_pair_some (hname p (by simp)) h
    intro q hq
    obtain rfl := List.mem_singleton.mp hq
    rcases hfield q (by simp) with hclean | hf
    · intro y hy
      rw [hy] at hclean
      exact hclean.1
    · rw [hf.head] at hv
      exact (plain_of_value hv).2
  | cons q ps ih =>
    obtain ⟨j, v, s, ms', -, hv, hms, rfl⟩ := members_pair_some (hname p (by simp)) h
    have hread : v = p.2.denotes := by
      rcases hfield p (by simp) with hclean | hf
      · cases j with
        | zero => simp [value] at hv
        | succ j =>
          rw [value_clean j hclean (follows_rest _)] at hv
          cases hv
          rfl
      · exact hf.head
    rw [hread] at hv
    obtain ⟨rfl, hplain⟩ := plain_of_value hv
    cases j with
    | zero => simp [value] at hv
    | succ j =>
      rw [more_cons] at hms
      rw [List.map_cons, List.nodup_cons] at hnodup
      have htail := ih (fun r hr => hname r (List.mem_cons_of_mem _ hr)) hnodup.2 hms (by
        intro r hr
        refine (hfield r (List.mem_cons_of_mem _ hr)).imp_right fun hf => hf.tail ?_
        rintro heq
        exact hnodup.1 (heq ▸ List.mem_map_of_mem hr))
      intro r hr
      rcases List.mem_cons.mp hr with rfl | hr
      · exact hplain
      · exact htail r hr

/-! ## UTF-8 -/

theorem utf8_of_ascii {a : Text} (ha : ∀ b ∈ a, b.toNat < 0x80) (t : Text) :
    utf8 (a ++ t) = utf8 t := by
  induction a with
  | nil => rfl
  | cons b a ih =>
    rw [List.cons_append, utf8_ascii (ha b (by simp))]
    exact ih fun c hc => ha c (by simp [hc])

theorem ascii_of_digit {b : UInt8} (hb : digit b = true) : b.toNat < 0x80 := by
  unfold digit at hb
  rw [Bool.and_eq_true, decide_eq_true_iff, decide_eq_true_iff] at hb
  have hle : b.toNat ≤ 0x39 := UInt8.le_iff_toNat_le.mp hb.2
  omega

theorem utf8_raw (raw : Raw) (t : Text) : utf8 (raw.text ++ t) = (raw.utf8 && utf8 t) := by
  cases raw with
  | number n =>
    have hdigits : ∀ b ∈ nat_text n.natAbs, b.toNat < 0x80 :=
      fun b hb => ascii_of_digit (digit_of_mem_nat_text hb)
    unfold Raw.text int_text Raw.utf8
    dsimp only
    split
    · rw [List.cons_append, utf8_ascii (by decide), utf8_of_ascii hdigits, Bool.true_and]
    · rw [utf8_of_ascii hdigits, Bool.true_and]
  | quoted y =>
    simp only [Raw.text, Raw.utf8, List.cons_append, List.append_assoc, List.nil_append]
    rw [utf8_ascii (by decide), utf8_append_ascii (by decide)]

theorem utf8_pair (p : Text × Raw) (t : Text) :
    utf8 (pair p ++ t) = (utf8 p.1 && (p.2.utf8 && utf8 t)) := by
  simp only [pair, List.cons_append, List.append_assoc]
  rw [utf8_ascii (by decide), utf8_append_ascii (by decide), utf8_ascii (by decide),
    utf8_ascii (by decide), utf8_raw]

theorem utf8_rest (ps : List (Text × Raw)) :
    utf8 (rest ps) = ps.all fun q => utf8 q.1 && q.2.utf8 := by
  induction ps with
  | nil => rfl
  | cons p ps ih =>
    rw [rest, utf8_ascii (by decide), utf8_ascii (by decide), utf8_pair, ih, List.all_cons,
      Bool.and_assoc]

theorem utf8_object_text (p : Text × Raw) (ps : List (Text × Raw)) :
    utf8 (object_text p ps) = (p :: ps).all fun q => utf8 q.1 && q.2.utf8 := by
  rw [object_text, utf8_ascii (by decide), utf8_ascii (by decide), utf8_pair, utf8_rest,
    List.all_cons, Bool.and_assoc]

/-! ## The whole text -/

theorem value_object (k : Nat) (p : Text × Raw) (t : Text) :
    value (k + 1) (0x7b :: 0x20 :: (pair p ++ t)) =
      (members k (pair p ++ t)).map fun (ms, s) => (.object ms, s) := by
  simp [value, pair]

/-- What is read as an object is UTF-8, and has its members behind the brace. -/
theorem members_of_parse {p : Text × Raw} {t : Text} {ms : List (Text × Json)}
    (h : parse (0x7b :: 0x20 :: (pair p ++ t)) = some (.object ms)) :
    utf8 (0x7b :: 0x20 :: (pair p ++ t)) = true ∧
      ∃ k r, members k (pair p ++ t) = some (ms, r) := by
  unfold parse at h
  split at h
  · rename_i hutf8
    have hws : ws (0x7b :: 0x20 :: (pair p ++ t)) = 0x7b :: 0x20 :: (pair p ++ t) := rfl
    rw [hws, value_object] at h
    obtain ⟨⟨v, s⟩, hv, h⟩ := Option.bind_eq_some_iff.mp h
    obtain ⟨⟨ms', r⟩, hms, hr⟩ := Option.map_eq_some_iff.mp hv
    cases hr
    dsimp only at h
    split at h
    · cases h
      exact ⟨hutf8, _, _, hms⟩
    · cases h
  · cases h

theorem Raw.clean_of_plain {raw : Raw} (hplain : ∀ y, raw = .quoted y → ∀ b ∈ y, Plain b)
    (hutf8 : raw.utf8 = true) : raw.Clean := by
  cases raw with
  | number n => trivial
  | quoted y => exact ⟨hplain y rfl, hutf8⟩

theorem Raw.Clean.utf8 {raw : Raw} (h : raw.Clean) : raw.utf8 = true := by
  cases raw with
  | number n => rfl
  | quoted y => exact h.2

theorem length_rest (ps : List (Text × Raw)) : 2 * ps.length ≤ (rest ps).length := by
  induction ps with
  | nil => simp [rest]
  | cons p ps ih =>
    simp only [rest, List.length_cons, List.length_append]
    omega

/-- A text whose strings stand for themselves reads as the object that is meant. -/
theorem parse_object_text {p : Text × Raw} {ps : List (Text × Raw)}
    (hname : ∀ q ∈ p :: ps, (Raw.quoted q.1).Clean) (hclean : ∀ q ∈ p :: ps, q.2.Clean) :
    parse (object_text p ps) = some (.object (meant (p :: ps))) := by
  have hutf8 : utf8 (object_text p ps) = true := by
    rw [utf8_object_text, List.all_eq_true]
    intro q hq
    rw [Bool.and_eq_true]
    exact ⟨(hname q hq).2, (hclean q hq).utf8⟩
  have hlen : 2 * (ps.length + 1) ≤ (object_text p ps).length := by
    have := length_rest ps
    simp only [object_text, List.length_cons, List.length_append]
    omega
  have hws : ws (object_text p ps) = object_text p ps := rfl
  unfold parse
  rw [if_pos hutf8, hws, object_text, value_object, ← object_text,
    members_clean hname hclean hlen]
  rfl

/-- A text in which every string either stands for itself or is read as it was put in has only
strings that stand for themselves. -/
theorem clean_of_parse {p : Text × Raw} {ps : List (Text × Raw)} {ms : List (Text × Json)}
    (hname : ∀ q ∈ p :: ps, (Raw.quoted q.1).Clean) (hnodup : ((p :: ps).map Prod.fst).Nodup)
    (h : parse (object_text p ps) = some (.object ms))
    (hfield : ∀ q ∈ p :: ps, q.2.Clean ∨ Field ms q.1 q.2.denotes) :
    ∀ q ∈ p :: ps, q.2.Clean := by
  obtain ⟨hutf8, k, r, hms⟩ := members_of_parse h
  have hplain := plain_of_members hname hnodup hms hfield
  have hall := (utf8_object_text p ps).symm.trans hutf8
  rw [List.all_eq_true] at hall
  intro q hq
  have hq8 := hall q hq
  rw [Bool.and_eq_true] at hq8
  exact Raw.clean_of_plain (hplain q hq) hq8.2

/-- Under distinct names each value is found under its own. -/
theorem field_meant {ps : List (Text × Raw)} (hnodup : (ps.map Prod.fst).Nodup) :
    ∀ q ∈ ps, Field (meant ps) q.1 q.2.denotes := by
  induction ps with
  | nil => simp
  | cons p ps ih =>
    rw [List.map_cons, List.nodup_cons] at hnodup
    intro q hq
    unfold Field meant
    rw [List.map_cons]
    rcases List.mem_cons.mp hq with rfl | hq
    · have hnone : (meant ps).filter (fun m => m.1 = q.1) = [] := by
        rw [List.filter_eq_nil_iff]
        intro m hm
        obtain ⟨r, hr, rfl⟩ := List.mem_map.mp hm
        have hne : r.1 ≠ q.1 := fun heq => hnodup.1 (heq ▸ List.mem_map_of_mem hr)
        simpa using hne
      rw [List.filter_cons_of_pos (by simp)]
      exact congrArg _ hnone
    · have hne : p.1 ≠ q.1 := fun heq => hnodup.1 (heq ▸ List.mem_map_of_mem hq)
      rw [List.filter_cons_of_neg (by simpa using hne)]
      exact ih hnodup.2 q hq

/-- Names that a text may have: distinct, and of characters that stand for themselves. -/
def Named (names : List Text) : Prop := names.Nodup ∧ ∀ n ∈ names, (Raw.quoted n).Clean

instance (names : List Text) : Decidable (Named names) := inferInstanceAs (Decidable (_ ∧ _))

/-- A text whose strings stand for themselves has no line break. -/
theorem newline_not_mem {p : Text × Raw} {ps : List (Text × Raw)}
    (hname : ∀ q ∈ p :: ps, (Raw.quoted q.1).Clean) (hclean : ∀ q ∈ p :: ps, q.2.Clean) :
    0x0a ∉ object_text p ps := by
  have hplain : ∀ {y : Text}, (Raw.quoted y).Clean → 0x0a ∉ y :=
    fun hy hmem => (hy.1 _ hmem).2.2 (by decide)
  have hraw : ∀ {raw : Raw}, raw.Clean → 0x0a ∉ raw.text := by
    intro raw h
    cases raw with
    | number n =>
      have hdigits : 0x0a ∉ nat_text n.natAbs :=
        fun hmem => absurd (digit_of_mem_nat_text hmem) (by decide)
      unfold Raw.text int_text
      dsimp only
      split <;> simp [hdigits]
    | quoted y => simp [Raw.text, hplain h]
  have hpair : ∀ {q}, q ∈ p :: ps → 0x0a ∉ pair q := by
    intro q hq
    simp [pair, hplain (hname q hq), hraw (hclean q hq)]
  have hrest : ∀ qs, (∀ q ∈ qs, q ∈ p :: ps) → 0x0a ∉ rest qs := by
    intro qs hqs
    induction qs with
    | nil => decide
    | cons q qs ih =>
      have hq := hpair (hqs q (by simp))
      have htail := ih fun r hr => hqs r (by simp [hr])
      simp [rest, hq, htail]
  simp [object_text, hpair (List.mem_cons_self ..), hrest ps fun q hq => List.mem_cons_of_mem _ hq]

/-! ## Other texts -/

/-- A member that is read as it is meant is skipped. -/
theorem members_skip {p q : Text × Raw} (hname : (Raw.quoted p.1).Clean) (hclean : p.2.Clean)
    {k : Nat} {t r : Text} {ms : List (Text × Json)}
    (h : members k (pair p ++ 0x2c :: 0x20 :: (pair q ++ t)) = some (ms, r)) :
    ∃ j ms', members j (pair q ++ t) = some (ms', r) ∧ ms = (p.1, p.2.denotes) :: ms' := by
  obtain ⟨j, v, s, ms', -, hv, hms, rfl⟩ := members_pair_some hname h
  cases j with
  | zero => simp [value] at hv
  | succ j =>
    rw [value_clean j hclean ⟨_, _, rfl, Or.inr rfl⟩] at hv
    cases hv
    have hmore : more (j + 1) (ws (0x2c :: 0x20 :: (pair q ++ t))) = members j (pair q ++ t) := by
      simp [more, pair]
    exact ⟨j, ms', hmore.symm.trans hms, rfl⟩

/-- A string with a byte put before it is not read as itself. -/
theorem members_with_prefix {name y t r : Text} {c : UInt8} (hname : (Raw.quoted name).Clean)
    (hc : Plain c) {k : Nat} {ms : List (Text × Json)}
    (h : members k (pair (name, .quoted (c :: y)) ++ t) = some (ms, r)) :
    ∃ v ms', ms = (name, .string v) :: ms' ∧ v ≠ y := by
  obtain ⟨j, v, s, ms', -, hv, -, rfl⟩ := members_pair_some hname h
  cases j with
  | zero => simp [value] at hv
  | succ j =>
    dsimp only at hv
    rw [value_quoted] at hv
    obtain ⟨⟨w, r'⟩, hchars, hw⟩ := Option.map_eq_some_iff.mp hv
    cases hw
    exact ⟨w, ms', rfl, chars_cons_ne hc hchars⟩

end json
