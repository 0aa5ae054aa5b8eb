-- Messages and bodies behind their length (utils/protobuf_utils.cpp), as every
-- request and every response is framed. The streams of protobuf are modelled as
-- far as the functions use them.
import TateyamaBootstrap.Varint
import Mathlib.Algebra.Group.Int.Defs

namespace tateyama_bootstrap.protobuf_utils

/-! ## The streams of protobuf -/

/-- `INT_MAX`. -/
def int_max : Nat := 2 ^ 31 - 1

/-- `static_cast<int>` of a 32-bit size. -/
def to_int (size : Nat) : Int := if size ≤ int_max then size else (size : Int) - 2 ^ 32

/-- `ArrayInputStream`, as the bytes that are not read yet. The size of the array
is an `int`. -/
@[ext]
structure ArrayInputStream where
  unread : List UInt8
  length_le : unread.length ≤ int_max

/-- `CodedInputStream` over an array. `limit` is the position of the innermost
limit, `INT_MAX` when there is none. -/
structure CodedInputStream where
  unread : List UInt8
  position : Nat
  limit : Nat
  fits : position + unread.length ≤ int_max

namespace CodedInputStream

def construct (input : ArrayInputStream) : CodedInputStream where
  unread := input.unread
  position := 0
  limit := int_max
  fits := by
    rw [Nat.zero_add]
    exact input.length_le

/-- The destructor returns the unread bytes to the array. -/
def destruct (c : CodedInputStream) : ArrayInputStream where
  unread := c.unread
  length_le := Nat.le_trans (Nat.le_add_left _ _) c.fits

/-- The bytes up to the innermost limit. -/
def available (c : CodedInputStream) : List UInt8 := c.unread.take (c.limit - c.position)

def advance (c : CodedInputStream) (n : Nat) : CodedInputStream where
  unread := c.unread.drop n
  position := c.position + min n c.unread.length
  limit := c.limit
  fits := by
    have h := c.fits
    rw [List.length_drop]
    omega

/-- A varint of at most 10 bytes, of which the low 32 bits are kept. -/
def read_varint32 (c : CodedInputStream) : Option (Nat × CodedInputStream) :=
  (varint.decode 10 c.available).map fun (n, rest) =>
    (n % 2 ^ 32, c.advance (c.available.length - rest.length))

/-- The previous limit comes with the stream. A limit that is negative, or not
before the present one, is ignored. -/
def push_limit (c : CodedInputStream) (byte_limit : Int) : Nat × CodedInputStream :=
  if 0 ≤ byte_limit ∧ byte_limit ≤ (int_max : Int) - c.position ∧
      byte_limit < (c.limit : Int) - c.position then
    (c.limit, { c with limit := c.position + byte_limit.toNat })
  else (c.limit, c)

def pop_limit (c : CodedInputStream) (limit : Nat) : CodedInputStream := { c with limit }

def get_direct_buffer_pointer (c : CodedInputStream) : Option (List UInt8) :=
  if c.available = [] then none else some c.available

def skip (c : CodedInputStream) (count : Nat) : Option CodedInputStream :=
  if count ≤ c.available.length then some (c.advance count) else none

end CodedInputStream

/-! ## The functions -/

section

variable {M : Type}

/-- `merge` is what `MergeFromCodedStream` makes of the bytes up to the limit, none
when it fails or stops before their end. -/
def parse_delimited_from_coded_stream (merge : List UInt8 → Option M) (input : CodedInputStream) :
    Option (M × CodedInputStream) := do
  let (size, input) ← input.read_varint32
  let position_after_size := input.position
  let (limit, input) := input.push_limit (to_int size)
  let message ← merge input.available
  let input := input.advance input.available.length
  if (input.position : Int) - position_after_size ≠ to_int size then none
  else some (message, input.pop_limit limit)

def parse_delimited_from_zero_copy_stream (merge : List UInt8 → Option M)
    (input : ArrayInputStream) : Option (M × ArrayInputStream) :=
  (parse_delimited_from_coded_stream merge (.construct input)).map fun (message, coded_input) =>
    (message, coded_input.destruct)

def get_delimited_body_from_coded_stream (input : CodedInputStream) :
    Option (List UInt8 × CodedInputStream) := do
  let (size, input) ← input.read_varint32
  let position_after_size := input.position
  let (limit, input) := input.push_limit (to_int size)
  let out ← input.get_direct_buffer_pointer
  let input ← input.skip out.length
  if (input.position : Int) - position_after_size ≠ to_int size then none
  else some (out, input.pop_limit limit)

def get_delimited_body_from_zero_copy_stream (input : ArrayInputStream) :
    Option (List UInt8 × ArrayInputStream) :=
  (get_delimited_body_from_coded_stream (.construct input)).map fun (out, coded_input) =>
    (out, coded_input.destruct)

/-- `WriteVarint32`. -/
def write_varint32 (size : Nat) : List UInt8 := varint.encode 5 size

/-- The length, and then the content. -/
def delimited (content : List UInt8) : Option (List UInt8) :=
  if int_max < content.length then none else some (write_varint32 content.length ++ content)

/-- `content` is the message in serialized form. -/
def serialize_delimited_to_ostream (content : List UInt8) : Option (List UInt8) := delimited content

def put_delimited_body_to_ostream (input : List UInt8) : Option (List UInt8) := delimited input

/-! ## What they do -/

/-- The stream after the size is read. -/
theorem read_size {input : ArrayInputStream} {n : Nat} {rest : List UInt8}
    (h : varint.decode 10 input.unread = some (n, rest)) :
    ∃ c : CodedInputStream, (CodedInputStream.construct input).read_varint32 =
        some (n % 2 ^ 32, c) ∧ c.unread = rest ∧ c.limit = int_max := by
  obtain ⟨pre, hpre⟩ := varint.decode_suffix h
  have hav : (CodedInputStream.construct input).available = input.unread :=
    List.take_of_length_le input.length_le
  have hlen : input.unread.length - rest.length = pre.length := by
    rw [hpre, List.length_append]
    omega
  refine ⟨(CodedInputStream.construct input).advance pre.length, ?_, ?_, rfl⟩
  · unfold CodedInputStream.read_varint32
    rw [hav, h]
    simp only [Option.map_some, hlen]
  · simp only [CodedInputStream.advance, CodedInputStream.construct, hpre, List.drop_left]

theorem read_size_none {input : ArrayInputStream} (h : varint.decode 10 input.unread = none) :
    (CodedInputStream.construct input).read_varint32 = none := by
  have hav : (CodedInputStream.construct input).available = input.unread :=
    List.take_of_length_le input.length_le
  unfold CodedInputStream.read_varint32
  rw [hav, h]
  rfl

/-- The stream after the limit is pushed. A size that is negative as an `int` leaves
all the bytes in reach. -/
theorem push_limit_window {c : CodedInputStream} (hc : c.limit = int_max) {size : Nat}
    (hs : size < 2 ^ 32) :
    ∃ w, c.push_limit (to_int size) = (int_max, w) ∧ w.position = c.position ∧
      w.unread = c.unread ∧
      w.available = if size ≤ int_max then c.unread.take size else c.unread := by
  have hfits := c.fits
  unfold CodedInputStream.push_limit
  split
  · rename_i hl
    have hsize : size ≤ int_max := by
      by_contra hn
      rw [to_int, if_neg hn] at hl
      omega
    rw [to_int, if_pos hsize, if_pos hsize, hc]
    refine ⟨_, rfl, rfl, rfl, ?_⟩
    simp only [CodedInputStream.available, Int.toNat_natCast]
    rw [Nat.add_sub_cancel_left]
  · rename_i hl
    refine ⟨c, by rw [hc], rfl, rfl, ?_⟩
    have hall : c.available = c.unread := List.take_of_length_le (by rw [hc]; omega)
    rw [hall]
    split
    · rename_i hsize
      rw [to_int, if_pos hsize, hc] at hl
      exact (List.take_of_length_le (by omega)).symm
    · rfl

/-- Both decoders read the size, push its limit, and go on with the bytes that are
then in reach. -/
structure Window (n : Nat) (c w : CodedInputStream) : Prop where
  limit : c.push_limit (to_int (n % 2 ^ 32)) = (int_max, w)
  position : w.position = c.position
  unread : w.unread = c.unread
  available : w.available =
    if n % 2 ^ 32 ≤ int_max then c.unread.take (n % 2 ^ 32) else c.unread

theorem read_window {input : ArrayInputStream} {n : Nat} {rest : List UInt8}
    (h : varint.decode 10 input.unread = some (n, rest)) :
    ∃ c w : CodedInputStream, (CodedInputStream.construct input).read_varint32 =
        some (n % 2 ^ 32, c) ∧ c.unread = rest ∧ Window n c w := by
  obtain ⟨c, hread, hrest, hlimit⟩ := read_size h
  obtain ⟨w, h1, h2, h3, h4⟩ := push_limit_window hlimit (Nat.mod_lt n (by decide : 0 < 2 ^ 32))
  exact ⟨c, w, hread, hrest, h1, h2, h3, h4⟩

section

variable {n : Nat} {c w : CodedInputStream}

/-- When all bytes in reach are read, the stream has moved by the size exactly when
the size was there. -/
theorem Window.moved_iff (h : Window n c w) :
    (((w.advance w.available.length).position : Nat) : Int) - c.position = to_int (n % 2 ^ 32) ↔
      n % 2 ^ 32 ≤ c.unread.length := by
  have hfits := c.fits
  have hlt : n % 2 ^ 32 < 2 ^ 32 := Nat.mod_lt n (by decide)
  have hlen := congrArg List.length h.available
  simp only [CodedInputStream.advance, h.position, h.unread]
  unfold to_int
  split
  · rename_i hle
    rw [if_pos hle, List.length_take] at hlen
    omega
  · rename_i hgt
    rw [if_neg hgt] at hlen
    omega

/-- Then they are as many bytes as the size says. -/
theorem Window.available_eq (h : Window n c w) (hn : n % 2 ^ 32 ≤ c.unread.length) :
    w.available = c.unread.take (n % 2 ^ 32) := by
  have hfits := c.fits
  rw [h.available, if_pos (by omega)]

theorem Window.rest_eq (h : Window n c w) (hn : n % 2 ^ 32 ≤ c.unread.length) (limit : Nat) :
    ((w.advance w.available.length).pop_limit limit).destruct.unread =
      c.unread.drop (n % 2 ^ 32) := by
  simp only [CodedInputStream.destruct, CodedInputStream.pop_limit, CodedInputStream.advance,
    h.available_eq hn, List.length_take, Nat.min_eq_left hn, h.unread]

end

/-- A message is parsed when the size is there with as many bytes, and these are
the message. -/
theorem parse_delimited_iff {merge : List UInt8 → Option M} {input input' : ArrayInputStream}
    {message : M} :
    parse_delimited_from_zero_copy_stream merge input = some (message, input') ↔
      ∃ n rest, varint.decode 10 input.unread = some (n, rest) ∧ n % 2 ^ 32 ≤ rest.length ∧
        merge (rest.take (n % 2 ^ 32)) = some message ∧
        input'.unread = rest.drop (n % 2 ^ 32) := by
  unfold parse_delimited_from_zero_copy_stream parse_delimited_from_coded_stream
  cases hd : varint.decode 10 input.unread with
  | none =>
    rw [read_size_none hd]
    simp
  | some p =>
    obtain ⟨n, rest⟩ := p
    obtain ⟨c, w, hread, rfl, hw⟩ := read_window hd
    rw [hread]
    simp only [Option.bind_eq_bind, Option.bind_some, hw.limit]
    constructor
    · intro h
      obtain ⟨⟨m, i⟩, hm, he⟩ := Option.map_eq_some_iff.mp h
      obtain ⟨m', hmerge, hif⟩ := Option.bind_eq_some_iff.mp hm
      split at hif
      · cases hif
      · rename_i hmoved
        have hn := hw.moved_iff.mp (not_not.mp hmoved)
        cases hif
        cases he
        rw [hw.available_eq hn] at hmerge
        exact ⟨n, c.unread, rfl, hn, hmerge, hw.rest_eq hn _⟩
    · rintro ⟨n', rest', he, hn, hmerge, hrest⟩
      cases he
      rw [← hw.available_eq hn] at hmerge
      rw [hmerge]
      simp only [Option.bind_some]
      rw [if_neg (not_not.mpr (hw.moved_iff.mpr hn))]
      simp only [Option.map_some, Option.some.injEq, Prod.mk.injEq, true_and]
      apply ArrayInputStream.ext
      rw [hw.rest_eq hn, hrest]

/-- A body is given when the size is there with as many bytes, and is not 0. -/
theorem get_delimited_body_iff {input input' : ArrayInputStream} {out : List UInt8} :
    get_delimited_body_from_zero_copy_stream input = some (out, input') ↔
      ∃ n rest, varint.decode 10 input.unread = some (n, rest) ∧ 0 < n % 2 ^ 32 ∧
        n % 2 ^ 32 ≤ rest.length ∧ out = rest.take (n % 2 ^ 32) ∧
        input'.unread = rest.drop (n % 2 ^ 32) := by
  unfold get_delimited_body_from_zero_copy_stream get_delimited_body_from_coded_stream
  cases hd : varint.decode 10 input.unread with
  | none =>
    rw [read_size_none hd]
    simp
  | some p =>
    obtain ⟨n, rest⟩ := p
    obtain ⟨c, w, hread, rfl, hw⟩ := read_window hd
    have hskip : w.skip w.available.length = some (w.advance w.available.length) :=
      if_pos (Nat.le_refl _)
    rw [hread]
    simp only [Option.bind_eq_bind, Option.bind_some, hw.limit,
      CodedInputStream.get_direct_buffer_pointer]
    constructor
    · intro h
      obtain ⟨⟨m, i⟩, hm, he⟩ := Option.map_eq_some_iff.mp h
      obtain ⟨o, ho, hm⟩ := Option.bind_eq_some_iff.mp hm
      split at ho
      · cases ho
      · rename_i hne
        cases ho
        rw [hskip, Option.bind_some] at hm
        split at hm
        · cases hm
        · rename_i hmoved
          have hn := hw.moved_iff.mp (not_not.mp hmoved)
          cases hm
          cases he
          refine ⟨n, c.unread, rfl, ?_, hn, hw.available_eq hn, hw.rest_eq hn _⟩
          rw [hw.available_eq hn] at hne
          by_contra hz
          rw [Nat.eq_zero_of_not_pos hz] at hne
          exact hne List.take_zero
    · rintro ⟨n', rest', he, hpos, hn, hout, hrest⟩
      cases he
      have hne : w.available ≠ [] := by
        intro hnil
        have hlen := congrArg List.length (hw.available_eq hn)
        rw [hnil, List.length_take, List.length_nil] at hlen
        omega
      rw [if_neg hne, Option.bind_some, hskip, Option.bind_some,
        if_neg (not_not.mpr (hw.moved_iff.mpr hn))]
      simp only [Option.map_some, Option.some.injEq, Prod.mk.injEq]
      refine ⟨(hw.available_eq hn).trans hout.symm, ?_⟩
      apply ArrayInputStream.ext
      rw [hw.rest_eq hn, hrest]

/-! ## The round trip -/

/-- The two decoders, one after the other, give back a header and a body. -/
def RoundTrip (merge : List UInt8 → Option M) (header : M) (body : List UInt8)
    (input : ArrayInputStream) : Prop :=
  ∃ input' input'', parse_delimited_from_zero_copy_stream merge input = some (header, input') ∧
    get_delimited_body_from_zero_copy_stream input' = some (body, input'')

/-- The body decoder gives a view exactly when the input starts with a varint `n`
and has `n` bytes after it, and the view shows these. -/
def BodyFramed (input : ArrayInputStream) : Prop :=
  ∀ view, (∃ input', get_delimited_body_from_zero_copy_stream input = some (view, input')) ↔
    ∃ n rest, varint.decode 10 input.unread = some (n, rest) ∧ n ≤ rest.length ∧
      view = rest.take n

/-- The size is not 0, and the 32 bits that are kept of it are not another size
that is there. -/
def HonestSize (input : ArrayInputStream) : Prop :=
  ∀ n rest, varint.decode 10 input.unread = some (n, rest) →
    0 < n ∧ (n < 2 ^ 32 ∨ n % 2 ^ 32 = 0 ∨ rest.length < n % 2 ^ 32)

theorem delimited_some {content bytes : List UInt8} (h : delimited content = some bytes)
    (more : List UInt8) :
    content.length ≤ int_max ∧
      varint.decode 10 (bytes ++ more) = some (content.length, content ++ more) := by
  unfold delimited at h
  split at h
  · cases h
  · rename_i hle
    cases h
    have hlt : content.length < 128 ^ (4 + 1) := by
      have hmax : int_max < 128 ^ (4 + 1) := by decide
      omega
    refine ⟨Nat.le_of_not_lt hle, ?_⟩
    rw [List.append_assoc]
    exact varint.decode_encode _ hlt (by decide)

theorem size_mod {content : List UInt8} (h : content.length ≤ int_max) :
    content.length % 2 ^ 32 = content.length := by
  have hmax : int_max < 2 ^ 32 := by decide
  exact Nat.mod_eq_of_lt (by omega)

theorem roundTrip_iff {merge : List UInt8 → Option M} {header : M}
    {content body h f : List UInt8} {input : ArrayInputStream}
    (hmerge : merge content = some header) (hh : serialize_delimited_to_ostream content = some h)
    (hf : put_delimited_body_to_ostream body = some f) (hi : input.unread = h ++ f) :
    RoundTrip merge header body input ↔ body ≠ [] := by
  obtain ⟨hlen, hd⟩ := delimited_some hh f
  obtain ⟨hlen', hd'⟩ := delimited_some hf []
  rw [List.append_nil, List.append_nil] at hd'
  have hheader : parse_delimited_from_zero_copy_stream merge input = some (header,
      ⟨f, by have := input.length_le; rw [hi, List.length_append] at this; omega⟩) := by
    refine parse_delimited_iff.mpr ⟨content.length, content ++ f, ?_, ?_, ?_, ?_⟩
    · rw [hi]
      exact hd
    · rw [size_mod hlen, List.length_append]
      exact Nat.le_add_right _ _
    · rw [size_mod hlen, List.take_left]
      exact hmerge
    · rw [size_mod hlen, List.drop_left]
  constructor
  · rintro ⟨i1, i2, h1, h2⟩ rfl
    rw [hheader] at h1
    cases h1
    obtain ⟨n, rest, hn, hpos, -⟩ := get_delimited_body_iff.mp h2
    rw [hd'] at hn
    cases hn
    exact absurd hpos (by decide)
  · intro hne
    have hpos := List.length_pos_of_ne_nil hne
    refine ⟨_, ⟨[], by decide⟩, hheader, get_delimited_body_iff.mpr ⟨_, _, hd', ?_⟩⟩
    rw [size_mod hlen']
    exact ⟨hpos, Nat.le_refl _, List.take_length.symm, List.drop_length.symm⟩

/-- What stands behind the size, or behind some of it, fits into an array. -/
theorem drop_length_le {input : ArrayInputStream} {n : Nat} {rest : List UInt8}
    (h : varint.decode 10 input.unread = some (n, rest)) (k : Nat) :
    (rest.drop k).length ≤ int_max := by
  obtain ⟨pre, hpre⟩ := varint.decode_suffix h
  have hle := input.length_le
  rw [hpre, List.length_append] at hle
  rw [List.length_drop]
  omega

/-- No input has 2^32 bytes. -/
theorem rest_length_lt {input : ArrayInputStream} {n : Nat} {rest : List UInt8}
    (h : varint.decode 10 input.unread = some (n, rest)) : rest.length < 2 ^ 32 :=
  Nat.lt_of_le_of_lt (drop_length_le h 0) (by decide)

theorem bodyFramed_iff (input : ArrayInputStream) : BodyFramed input ↔ HonestSize input := by
  constructor
  · intro h n rest hd
    refine ⟨?_, ?_⟩
    · by_contra hz
      obtain ⟨input', hi⟩ := (h []).mpr ⟨n, rest, hd, by omega, by
        rw [Nat.eq_zero_of_not_pos hz, List.take_zero]⟩
      obtain ⟨n', rest', hd', hpos, -⟩ := get_delimited_body_iff.mp hi
      rw [hd] at hd'
      cases hd'
      rw [Nat.eq_zero_of_not_pos hz] at hpos
      exact absurd hpos (by decide)
    · by_contra hn
      obtain ⟨h1, h2, h3⟩ : ¬ n < 2 ^ 32 ∧ n % 2 ^ 32 ≠ 0 ∧ ¬ rest.length < n % 2 ^ 32 :=
        ⟨fun h => hn (.inl h), fun h => hn (.inr (.inl h)), fun h => hn (.inr (.inr h))⟩
      -- the code takes the low bits for the size
      obtain ⟨n', rest', hd', hle, -⟩ := (h (rest.take (n % 2 ^ 32))).mp
        ⟨⟨rest.drop (n % 2 ^ 32), drop_length_le hd _⟩, get_delimited_body_iff.mpr
          ⟨n, rest, hd, Nat.pos_of_ne_zero h2, Nat.le_of_not_lt h3, rfl, rfl⟩⟩
      rw [hd] at hd'
      cases hd'
      exact h1 (Nat.lt_of_le_of_lt hle (rest_length_lt hd))
  · intro h view
    constructor
    · rintro ⟨input', hi⟩
      obtain ⟨n, rest, hd, hpos, hle, hv, -⟩ := get_delimited_body_iff.mp hi
      obtain ⟨-, hlt⟩ := h n rest hd
      have hmod : n % 2 ^ 32 = n := by
        rcases hlt with hlt | hz | hlong
        · exact Nat.mod_eq_of_lt hlt
        · omega
        · omega
      rw [hmod] at hle hv
      exact ⟨n, rest, hd, hle, hv⟩
    · rintro ⟨n, rest, hd, hle, hv⟩
      have hmod : n % 2 ^ 32 = n :=
        Nat.mod_eq_of_lt (Nat.lt_of_le_of_lt hle (rest_length_lt hd))
      refine ⟨⟨rest.drop n, drop_length_le hd n⟩, get_delimited_body_iff.mpr ⟨n, rest, hd, ?_⟩⟩
      rw [hmod]
      exact ⟨(h n rest hd).1, hle, hv, rfl⟩

end

/-- A header and a body go through the framing exactly when the body is not empty,
and the body decoder accepts exactly the framed bodies of an input whose size is
not 0 and does not lose bits that count. -/
theorem a_body_that_is_not_empty_goes_through {M : Type} (serialize : M → List UInt8)
    (merge : List UInt8 → Option M) (hmerge : ∀ header, merge (serialize header) = some header) :
    (∀ header body h f input, serialize_delimited_to_ostream (serialize header) = some h →
      put_delimited_body_to_ostream body = some f → ArrayInputStream.unread input = h ++ f →
      (RoundTrip merge header body input ↔ body ≠ [])) ∧
    ∀ input, BodyFramed input ↔ HonestSize input := by
  refine ⟨?_, bodyFramed_iff⟩
  intro header body h f input hh hf hi
  exact roundTrip_iff (hmerge header) hh hf hi

/-- A header with the number 1 in its first field, and a body of two bytes. -/
def framedPair : ArrayInputStream := ⟨[2, 8, 1, 2, 8, 9], by decide⟩

theorem a_body_of_two_bytes_goes_through :
    RoundTrip some [8, 1] [8, 9] framedPair ∧ BodyFramed ⟨[2, 8, 9], by decide⟩ := by
  have h := a_body_that_is_not_empty_goes_through (id : List UInt8 → List UInt8) some
    (fun _ => rfl)
  refine ⟨(h.1 [8, 1] [8, 9] [2, 8, 1] [2, 8, 9] framedPair rfl rfl rfl).mpr (by decide), ?_⟩
  refine (h.2 _).mpr ?_
  intro n rest hd
  have hn : varint.decode 10 [2, 8, 9] = some (2, [8, 9]) := rfl
  rw [hn] at hd
  cases hd
  decide

/-- An empty body is written and not read back, and a size of 2^32 + 1 passes for a
size of 1. -/
theorem an_empty_body_does_not_go_through :
    (put_delimited_body_to_ostream [] = some [0] ∧
      ¬ RoundTrip some ([8, 1] : List UInt8) [] ⟨[2, 8, 1, 0], by decide⟩) ∧
    ¬ BodyFramed ⟨[0], by decide⟩ ∧ ¬ BodyFramed ⟨[129, 128, 128, 128, 16, 9], by decide⟩ := by
  refine ⟨⟨rfl, ?_⟩, ?_, ?_⟩
  · have hh : serialize_delimited_to_ostream [8, 1] = some [2, 8, 1] := rfl
    have hf : put_delimited_body_to_ostream [] = some [0] := rfl
    rw [roundTrip_iff rfl hh hf rfl]
    exact fun h => h rfl
  · rw [bodyFramed_iff]
    intro h
    exact absurd (h 0 [] rfl).1 (by decide)
  · rw [bodyFramed_iff]
    intro h
    have hd : varint.decode 10 [129, 128, 128, 128, 16, 9] = some (4294967297, [9]) := by
      decide +kernel
    exact absurd (h 4294967297 [9] hd).2 (by decide)

end tateyama_bootstrap.protobuf_utils
