-- JSON text over bytes: UTF-8, and a reader after the grammar of RFC 8259. A string that
-- reads as its own bytes has no byte that means anything else, since an escape gives fewer
-- bytes than it takes.
import Mathlib.Data.List.Basic
import Mathlib.Data.List.TakeWhile

namespace json

abbrev Text := List UInt8

/-- The bytes of a literal of the source. -/
def ascii (s : String) : Text := s.toList.map fun c => UInt8.ofNat c.toNat

/-! ## UTF-8 -/

/-- Where a reader of UTF-8 stands: between two characters, or before a byte of a range that
`more` bytes follow. -/
inductive Utf8
  | start
  | owing (more low high : Nat)
deriving DecidableEq, Repr

namespace Utf8

/-- The rest of a character, `more` bytes and one. -/
def tail (more : Nat) : Utf8 := .owing more 0x80 0xbf

def first (b : Nat) : Option Utf8 :=
  if b < 0x80 then some .start
  else if b < 0xc2 then none
  else if b < 0xe0 then some (.tail 0)
  else if b = 0xe0 then some (.owing 1 0xa0 0xbf)
  else if b = 0xed then some (.owing 1 0x80 0x9f)
  else if b < 0xf0 then some (.tail 1)
  else if b = 0xf0 then some (.owing 2 0x90 0xbf)
  else if b < 0xf4 then some (.tail 2)
  else if b = 0xf4 then some (.owing 2 0x80 0x8f)
  else none

def next : Utf8 → Nat → Option Utf8
  | .start, b => first b
  | .owing 0 low high, b => if low ≤ b ∧ b ≤ high then some .start else none
  | .owing (more + 1) low high, b => if low ≤ b ∧ b ≤ high then some (.tail more) else none

/-- The text ends between two characters. -/
def reads (q : Utf8) : Text → Bool
  | [] => q = .start
  | b :: s =>
    match q.next b.toNat with
    | some q => reads q s
    | none => false

/-- No range of a second byte has ASCII in it. -/
def High : Utf8 → Prop
  | .start => True
  | .owing _ low _ => 0x80 ≤ low

theorem high_first {r : Utf8} {b : Nat} (h : first b = some r) : r.High := by
  have hite {p : Prop} [Decidable p] {q : Utf8} {o : Option Utf8} (hq : q.High)
      (ho : o = some r → r.High) (h : (if p then some q else o) = some r) : r.High := by
    split at h
    · obtain rfl := Option.some.inj h
      exact hq
    · exact ho h
  have hnone {p : Prop} [Decidable p] {o : Option Utf8} (ho : o = some r → r.High)
      (h : (if p then none else o) = some r) : r.High := by
    split at h
    · simp at h
    · exact ho h
  have htail (more : Nat) : (tail more).High := by simp [High, tail]
  unfold first at h
  refine hite (q := .start) trivial (hnone (hite (htail 0) (hite ?_ (hite ?_ (hite (htail 1)
    (hite ?_ (hite (htail 2) (hite ?_ ?_)))))))) h
  all_goals simp [High]

theorem high_next {q r : Utf8} {b : Nat} (h : q.High) (hn : q.next b = some r) : r.High := by
  cases q with
  | start => exact high_first hn
  | owing more low high =>
    cases more <;> simp only [next] at hn <;> split at hn <;> cases hn <;> simp [High, tail]

end Utf8

def utf8 (s : Text) : Bool := Utf8.start.reads s

theorem utf8_ascii {c : UInt8} (hc : c.toNat < 0x80) (s : Text) : utf8 (c :: s) = utf8 s := by
  simp [utf8, Utf8.reads, Utf8.next, Utf8.first, hc]

theorem Utf8.reads_append {c : UInt8} (hc : c.toNat < 0x80) (a s : Text) {q : Utf8} (h : q.High) :
    q.reads (a ++ c :: s) = (q.reads a && utf8 s) := by
  induction a generalizing q with
  | nil =>
    cases q with
    | start =>
      calc
        start.reads (c :: s) = utf8 s := utf8_ascii hc s
        _ = (start.reads [] && utf8 s) := by simp [reads]
    | owing more low high =>
      have hlow : ¬ low ≤ c.toNat := by
        simp only [High] at h
        omega
      cases more <;> simp [reads, next, hlow]
  | cons b a ih =>
    simp only [List.cons_append, reads]
    cases hn : q.next b.toNat with
    | none => rfl
    | some r => exact ih (high_next h hn)

/-- A character does not go on over an ASCII byte. -/
theorem utf8_append_ascii {c : UInt8} (hc : c.toNat < 0x80) (a s : Text) :
    utf8 (a ++ c :: s) = (utf8 a && utf8 s) := Utf8.reads_append hc a s trivial

/-! ## Strings -/

def hex (b : UInt8) : Option Nat :=
  if 0x30 ≤ b ∧ b ≤ 0x39 then some (b.toNat - 0x30)
  else if 0x61 ≤ b ∧ b ≤ 0x66 then some (b.toNat - 0x57)
  else if 0x41 ≤ b ∧ b ≤ 0x46 then some (b.toNat - 0x37)
  else none

def hex4 : Text → Option (Nat × Text)
  | a :: b :: c :: d :: s => do
    let a ← hex a
    let b ← hex b
    let c ← hex c
    let d ← hex d
    some (((a * 16 + b) * 16 + c) * 16 + d, s)
  | _ => none

def encode_point (n : Nat) : Text :=
  (if n < 0x80 then [n]
  else if n < 0x800 then [0xc0 + n / 0x40, 0x80 + n % 0x40]
  else if n < 0x10000 then [0xe0 + n / 0x1000, 0x80 + n / 0x40 % 0x40, 0x80 + n % 0x40]
  else [0xf0 + n / 0x40000, 0x80 + n / 0x1000 % 0x40, 0x80 + n / 0x40 % 0x40,
    0x80 + n % 0x40]).map UInt8.ofNat

/-- What follows `\u`: a code point, or the two halves of a surrogate pair. -/
def unicode (s : Text) : Option (Text × Text) := do
  let (high, s) ← hex4 s
  if 0xd800 ≤ high ∧ high < 0xdc00 then
    match s with
    | 0x5c :: 0x75 :: s => do
      let (low, s) ← hex4 s
      if 0xdc00 ≤ low ∧ low < 0xe000 then
        some (encode_point (0x10000 + (high - 0xd800) * 0x400 + (low - 0xdc00)), s)
      else none
    | _ => none
  else if 0xdc00 ≤ high ∧ high < 0xe000 then none
  else some (encode_point high, s)

/-- The escapes of one letter. -/
def escaped (b : UInt8) : Option UInt8 :=
  if b = 0x22 ∨ b = 0x5c ∨ b = 0x2f then some b
  else if b = 0x62 then some 0x08
  else if b = 0x66 then some 0x0c
  else if b = 0x6e then some 0x0a
  else if b = 0x72 then some 0x0d
  else if b = 0x74 then some 0x09
  else none

/-- What follows a backslash. -/
def escape : Text → Option (Text × Text)
  | [] => none
  | b :: s => if b = 0x75 then unicode s else (escaped b).map fun c => ([c], s)

/-- A string behind its opening quote, with what follows its closing quote. -/
def chars : Nat → Text → Option (Text × Text)
  | 0, _ => none
  | _ + 1, [] => none
  | n + 1, b :: s =>
    if b = 0x22 then some ([], s)
    else if b = 0x5c then
      (escape s).bind fun (d, s) => (chars n s).map fun (v, s) => (d ++ v, s)
    else if b < 0x20 then none
    else (chars n s).map fun (v, s) => (b :: v, s)

/-- A byte that stands for itself in a string. -/
def Plain (b : UInt8) : Prop := b ≠ 0x22 ∧ b ≠ 0x5c ∧ ¬ b < 0x20

instance (b : UInt8) : Decidable (Plain b) := inferInstanceAs (Decidable (_ ∧ _))

/-- Plain bytes read as themselves. -/
theorem chars_plain {y : Text} (hy : ∀ b ∈ y, Plain b) {n : Nat} (hn : y.length < n) (t : Text) :
    chars n (y ++ 0x22 :: t) = some (y, t) := by
  induction y generalizing n with
  | nil =>
    obtain ⟨n, rfl⟩ : ∃ m, n = m + 1 := ⟨n - 1, by omega⟩
    rfl
  | cons b y ih =>
    obtain ⟨n, rfl⟩ : ∃ m, n = m + 1 := ⟨n - 1, by omega⟩
    obtain ⟨hquote, hslash, hcontrol⟩ := hy b (by simp)
    have hrest := ih (fun c hc => hy c (by simp [hc])) (n := n)
      (by simp only [List.length_cons] at hn; omega)
    simp only [List.cons_append, chars, if_neg hquote, if_neg hslash, if_neg hcontrol, hrest]
    rfl

theorem hex4_eq_some {s r : Text} {u : Nat} (h : hex4 s = some (u, r)) :
    ∃ e, s = e ++ r ∧ e.length = 4 ∧ ∀ b ∈ e, hex b ≠ none := by
  unfold hex4 at h
  split at h
  · rename_i a b c d s
    cases ha : hex a with
    | none => simp [ha] at h
    | some => ?_
    cases hb : hex b with
    | none => simp [ha, hb] at h
    | some => ?_
    cases hc : hex c with
    | none => simp [ha, hb, hc] at h
    | some => ?_
    cases hd : hex d with
    | none => simp [ha, hb, hc, hd] at h
    | some => ?_
    simp only [ha, hb, hc, hd, Option.bind_eq_bind, Option.bind_some, Option.some.injEq,
      Prod.mk.injEq] at h
    refine ⟨[a, b, c, d], by rw [← h.2]; rfl, rfl, ?_⟩
    simp [ha, hb, hc, hd]
  · cases h

/-- Four digits do not reach over a quote. -/
theorem hex4_split {y t r : Text} {u : Nat} (h : hex4 (y ++ 0x22 :: t) = some (u, r)) :
    ∃ e z, y = e ++ z ∧ e.length = 4 ∧ r = z ++ 0x22 :: t := by
  obtain ⟨e, he, hlen, hall⟩ := hex4_eq_some h
  rcases List.append_eq_append_iff.mp he with ⟨z, rfl, hz⟩ | ⟨z, rfl, hz⟩
  · cases z with
    | nil => exact ⟨y, [], by simp, by simpa using hlen, by simpa using hz.symm⟩
    | cons b z =>
      have hb : (0x22 : UInt8) = b := (List.cons.inj hz).1
      exact absurd (by decide) (hall 0x22 (by simp [hb]))
  · exact ⟨e, z, rfl, hlen, hz⟩

theorem length_encode_point_le (n : Nat) : (encode_point n).length ≤ 4 := by
  unfold encode_point
  split_ifs <;> simp

theorem unicode_split {y t d r : Text} (h : unicode (y ++ 0x22 :: t) = some (d, r)) :
    ∃ e z, y = e ++ z ∧ d.length ≤ e.length ∧ r = z ++ 0x22 :: t := by
  simp only [unicode, Option.bind_eq_bind, Option.bind_eq_some_iff] at h
  obtain ⟨⟨high, s⟩, hhex, h⟩ := h
  obtain ⟨e, z, rfl, he, rfl⟩ := hex4_split hhex
  dsimp only at h
  split at h
  · split at h
    · rename_i s' hs
      -- the second half of a pair does not reach over the quote either
      obtain ⟨z', rfl, rfl⟩ : ∃ z', z = 0x5c :: 0x75 :: z' ∧ s' = z' ++ 0x22 :: t := by
        rcases z with _ | ⟨a, _ | ⟨b, z'⟩⟩
        · simp at hs
        · simp at hs
        · simp only [List.cons_append, List.cons.injEq] at hs
          exact ⟨z', by rw [hs.1, hs.2.1], hs.2.2.symm⟩
      simp only [Option.bind_eq_some_iff] at h
      obtain ⟨⟨low, s⟩, hhex', h⟩ := h
      have hlen := length_encode_point_le (0x10000 + (high - 0xd800) * 0x400 + (low - 0xdc00))
      obtain ⟨e', z, rfl, he', rfl⟩ := hex4_split hhex'
      dsimp only at h
      generalize encode_point (0x10000 + (high - 0xd800) * 0x400 + (low - 0xdc00)) = p at h hlen
      split at h
      · cases h
        refine ⟨e ++ 0x5c :: 0x75 :: e', z, by simp, ?_, rfl⟩
        simp only [List.length_append, List.length_cons]
        omega
      · cases h
    · cases h
  · split at h
    · cases h
    · cases h
      exact ⟨e, z, rfl, he ▸ length_encode_point_le high, rfl⟩

/-- An escape ends before the quote, or it is the quote that is escaped. It gives no more
bytes than stand behind the backslash. -/
theorem escape_split {y t d r : Text} (h : escape (y ++ 0x22 :: t) = some (d, r)) :
    (∃ e z, y = e ++ z ∧ d.length ≤ e.length ∧ r = z ++ 0x22 :: t) ∨
      y = [] ∧ d = [0x22] ∧ r = t := by
  cases y with
  | nil =>
    cases h
    exact Or.inr ⟨rfl, rfl, rfl⟩
  | cons b y =>
    left
    simp only [List.cons_append, escape] at h
    split at h
    · obtain ⟨e, z, rfl, hlen, rfl⟩ := unicode_split h
      exact ⟨b :: e, z, rfl, by simp only [List.length_cons]; omega, rfl⟩
    · obtain ⟨c, -, hc⟩ := Option.map_eq_some_iff.mp h
      cases hc
      exact ⟨[b], y, rfl, by simp, rfl⟩

/-- Should the quote before `t` be escaped, the string that ends in `t` does not end in a
backslash. -/
def EndsClean (t : Text) : Prop := ∀ n v r, chars n t = some (v, r) → v.getLast? ≠ some 0x5c

/-- A string that reads as its own bytes, with or without others before them, is plain: an
escape gives fewer bytes than it takes. -/
theorem plain_of_chars {t : Text} (ht : EndsClean t) {n : Nat} {y z v r : Text}
    (h : chars n (y ++ 0x22 :: t) = some (v, r)) (hv : v = z ++ y) :
    z = [] ∧ ∀ b ∈ y, Plain b := by
  induction n generalizing y z v r with
  | zero => simp [chars] at h
  | succ n ih =>
    cases y with
    | nil =>
      simp only [List.nil_append, chars, if_true, Option.some.injEq, Prod.mk.injEq] at h
      rw [← h.1, List.append_nil] at hv
      exact ⟨hv.symm, by simp⟩
    | cons b y =>
      simp only [List.cons_append, chars] at h
      split at h
      · cases h
        simp at hv
      rename_i hquote
      split at h
      · rename_i hslash
        exfalso
        obtain ⟨⟨d, s⟩, hesc, h⟩ := Option.bind_eq_some_iff.mp h
        obtain ⟨⟨w, r'⟩, hw, hvw⟩ := Option.map_eq_some_iff.mp h
        cases hvw
        dsimp only at hw hv
        rcases escape_split hesc with ⟨e, y, rfl, hlen, rfl⟩ | ⟨rfl, rfl, rfl⟩
        · -- the bytes that are missing after the escape stand before the rest
          have hw' : w = ((z ++ b :: e).drop d.length) ++ y := by
            have hcut := congrArg (List.drop d.length) hv
            rw [List.drop_left] at hcut
            rw [hcut, ← List.cons_append, ← List.append_assoc, List.drop_append_of_le_length]
            simp only [List.length_append, List.length_cons]
            omega
          obtain ⟨hnil, -⟩ := ih hw hw'
          rw [List.drop_eq_nil_iff] at hnil
          simp only [List.length_append, List.length_cons] at hnil
          omega
        · cases z with
          | nil =>
            simp only [List.nil_append, List.singleton_append, List.cons.injEq] at hv
            exact hquote hv.1.symm
          | cons c z =>
            simp only [List.cons_append, List.nil_append, List.cons.injEq] at hv
            have hlast : w.getLast? = some 0x5c := by
              rw [hv.2, hslash]
              simp
            exact ht n w _ hw hlast
      rename_i hslash
      split at h
      · cases h
      rename_i hcontrol
      obtain ⟨⟨w, r'⟩, hw, hvw⟩ := Option.map_eq_some_iff.mp h
      cases hvw
      cases z with
      | nil =>
        obtain ⟨-, hplain⟩ := ih hw (z := []) (List.cons.inj hv).2
        refine ⟨rfl, ?_⟩
        intro c hc
        rcases List.mem_cons.mp hc with rfl | hc
        · exact ⟨hquote, hslash, hcontrol⟩
        · exact hplain c hc
      | cons c z =>
        simp only [List.cons_append, List.cons.injEq] at hv
        have hw' : w = (z ++ [b]) ++ y := by
          rw [hv.2]
          simp
        obtain ⟨hnil, -⟩ := ih hw hw'
        simp at hnil

/-- A byte before a string keeps it from reading as itself. -/
theorem chars_cons_ne {c : UInt8} (hc : Plain c) {n : Nat} {y t v r : Text}
    (h : chars n (c :: (y ++ 0x22 :: t)) = some (v, r)) : v ≠ y := by
  obtain ⟨hquote, hslash, hcontrol⟩ := hc
  induction y generalizing n v r with
  | nil =>
    cases n with
    | zero => simp [chars] at h
    | succ n =>
      simp only [chars, if_neg hquote, if_neg hslash, if_neg hcontrol] at h
      obtain ⟨⟨w, r'⟩, -, hvw⟩ := Option.map_eq_some_iff.mp h
      cases hvw
      simp
  | cons b y ih =>
    cases n with
    | zero => simp [chars] at h
    | succ n =>
      simp only [chars, if_neg hquote, if_neg hslash, if_neg hcontrol] at h
      obtain ⟨⟨w, r'⟩, hw, hvw⟩ := Option.map_eq_some_iff.mp h
      cases hvw
      dsimp only
      intro he
      obtain ⟨rfl, hwy⟩ := List.cons.inj he
      exact ih hw hwy

/-! ## Numbers -/

def digit (b : UInt8) : Bool := 0x30 ≤ b && b ≤ 0x39

def digits_value (ds : Text) : Nat := ds.foldl (fun n b => 10 * n + (b.toNat - 0x30)) 0

/-- Digits, the first of which is no zero unless it is the only one. -/
def int_part (s : Text) : Option (Nat × Text) :=
  let ds := s.takeWhile digit
  if ds = [] ∨ ds.head? = some 0x30 ∧ 1 < ds.length then none
  else some (digits_value ds, s.dropWhile digit)

def some_digits (s : Text) : Option (Text × Text) :=
  if s.takeWhile digit = [] then none else some (s.takeWhile digit, s.dropWhile digit)

def frac_part : Text → Option (Text × Text)
  | 0x2e :: s => some_digits s
  | s => some ([], s)

def exp_part : Text → Option (Text × Text)
  | [] => some ([], [])
  | e :: s =>
    if e = 0x65 ∨ e = 0x45 then
      match s with
      | 0x2b :: s => some_digits s
      | 0x2d :: s => (some_digits s).map fun (ds, s) => (0x2d :: ds, s)
      | s => some_digits s
    else some ([], e :: s)

/-! ## The reader -/

inductive Json
  | null
  | bool (b : Bool)
  | number (negative : Bool) (int : Nat) (frac exp : Text)
  | string (s : Text)
  | array (vs : List Json)
  | object (ms : List (Text × Json))

def ws (s : Text) : Text := s.dropWhile fun b => b = 0x20 || b = 0x09 || b = 0x0a || b = 0x0d

def unsigned (negative : Bool) (s : Text) : Option (Json × Text) := do
  let (int, s) ← int_part s
  let (frac, s) ← frac_part s
  let (exp, s) ← exp_part s
  some (.number negative int frac exp, s)

def number : Text → Option (Json × Text)
  | 0x2d :: s => unsigned true s
  | s => unsigned false s

def literal (word : Text) (v : Json) (s : Text) : Option (Json × Text) :=
  if word.isPrefixOf s then some (v, s.drop word.length) else none

def colon : Text → Option Text
  | 0x3a :: s => some (ws s)
  | _ => none

mutual

def value : Nat → Text → Option (Json × Text)
  | 0, _ => none
  | _ + 1, [] => none
  | n + 1, b :: s =>
    if b = 0x22 then (chars s.length s).map fun (v, s) => (.string v, s)
    else if b = 0x7b then
      match ws s with
      | 0x7d :: s => some (.object [], s)
      | s => (members n s).map fun (ms, s) => (.object ms, s)
    else if b = 0x5b then
      match ws s with
      | 0x5d :: s => some (.array [], s)
      | s => (elements n s).map fun (vs, s) => (.array vs, s)
    else if b = 0x74 then literal (ascii "true") (.bool true) (b :: s)
    else if b = 0x66 then literal (ascii "false") (.bool false) (b :: s)
    else if b = 0x6e then literal (ascii "null") .null (b :: s)
    else number (b :: s)

def elements : Nat → Text → Option (List Json × Text)
  | 0, _ => none
  | n + 1, s => do
    let (v, s) ← value n s
    match ws s with
    | 0x2c :: s => (elements n (ws s)).map fun (vs, s) => (v :: vs, s)
    | 0x5d :: s => some ([v], s)
    | _ => none

/-- The members of an object, up to its brace. -/
def members : Nat → Text → Option (List (Text × Json) × Text)
  | 0, _ => none
  | _ + 1, [] => none
  | n + 1, b :: s =>
    if b = 0x22 then do
      let (name, s) ← chars s.length s
      let s ← colon (ws s)
      let (v, s) ← value n s
      let (ms, s) ← more n (ws s)
      some ((name, v) :: ms, s)
    else none

/-- What follows a member. -/
def more : Nat → Text → Option (List (Text × Json) × Text)
  | 0, _ => none
  | _ + 1, [] => none
  | n + 1, b :: s =>
    if b = 0x2c then members n (ws s) else if b = 0x7d then some ([], s) else none

end

/-- Reads a text that is one JSON value. -/
def parse (s : Text) : Option Json :=
  if utf8 s then
    (value (s.length + 1) (ws s)).bind fun (v, s) => if ws s = [] then some v else none
  else none

end json
