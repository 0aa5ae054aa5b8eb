-- Numbers in base 128, least significant digit first, with the high bit set on
-- every byte but the last. The decoder gives up after a number of bytes.
import Mathlib.Algebra.Group.Nat.Defs
import Mathlib.Data.List.Basic

namespace varint

/-- A number in at most `width` bytes. -/
def encode : Nat → Nat → List UInt8
  | 0, _ => []
  | width + 1, n =>
    if n < 128 then [UInt8.ofNat n]
    else UInt8.ofNat (n % 128 + 128) :: encode width (n / 128)

/-- The number at the start of the bytes, of at most `width` bytes, and the bytes
after it. -/
def decode : Nat → List UInt8 → Option (Nat × List UInt8)
  | 0, _ => none
  | _ + 1, [] => none
  | width + 1, b :: bs =>
    if b.toNat < 128 then some (b.toNat, bs)
    else (decode width bs).map fun (n, rest) => (b.toNat - 128 + 128 * n, rest)

theorem toNat_ofNat {n : Nat} (h : n < 256) : (UInt8.ofNat n).toNat = n :=
  UInt8.toNat_ofNat_of_lt' h

theorem decode_encode {width limit n : Nat} (rest : List UInt8) (hn : n < 128 ^ (width + 1))
    (hw : width + 1 ≤ limit) : decode limit (encode (width + 1) n ++ rest) = some (n, rest) := by
  induction width generalizing limit n with
  | zero =>
    obtain ⟨limit, rfl⟩ : ∃ l, limit = l + 1 := ⟨limit - 1, by omega⟩
    have hlt : n < 128 := by simpa using hn
    simp [encode, decode, hlt, toNat_ofNat (Nat.lt_trans hlt (by decide))]
  | succ width ih =>
    obtain ⟨limit, rfl⟩ : ∃ l, limit = l + 1 := ⟨limit - 1, by omega⟩
    unfold encode
    split
    · rename_i hlt
      simp [decode, hlt, toNat_ofNat (Nat.lt_trans hlt (by decide))]
    · rename_i hge
      have hb : (UInt8.ofNat (n % 128 + 128)).toNat = n % 128 + 128 := toNat_ofNat (by omega)
      have hdiv : n / 128 < 128 ^ (width + 1) := by
        rw [Nat.pow_succ] at hn
        exact Nat.div_lt_of_lt_mul (by rw [Nat.mul_comm]; exact hn)
      simp only [List.cons_append, decode, hb, ih hdiv (Nat.le_of_succ_le_succ hw)]
      rw [if_neg (by omega)]
      simp only [Option.map_some, Option.some.injEq, Prod.mk.injEq, and_true]
      omega

/-- The bytes after the number are the end of the bytes. -/
theorem decode_suffix {width n : Nat} {bs rest : List UInt8}
    (h : decode width bs = some (n, rest)) :
    ∃ pre, bs = pre ++ rest := by
  induction width generalizing bs n with
  | zero => simp [decode] at h
  | succ width ih =>
    cases bs with
    | nil => simp [decode] at h
    | cons b bs =>
      unfold decode at h
      split at h
      · cases h
        exact ⟨[b], rfl⟩
      · obtain ⟨⟨m, r⟩, hm, he⟩ := Option.map_eq_some_iff.mp h
        cases he
        obtain ⟨pre, rfl⟩ := ih hm
        exact ⟨b :: pre, rfl⟩

end varint
