-- Numbers as bytes in little-endian order, as a machine lays out its unsigned
-- integers. A number that fits its width comes back from its bytes.
import Mathlib.Algebra.Group.Nat.Defs
import Mathlib.Data.Nat.Basic

namespace bytes

/-- The low `width` bytes of a number, least significant first. -/
def encode : Nat → Nat → List UInt8
  | 0, _ => []
  | width + 1, v => UInt8.ofNat v :: encode width (v / 256)

def decode : List UInt8 → Nat
  | [] => 0
  | b :: bs => b.toNat + 256 * decode bs

@[simp] theorem length_encode (width v : Nat) : (encode width v).length = width := by
  induction width generalizing v with
  | zero => rfl
  | succ width ih => simp [encode, ih]

theorem decode_encode (width v : Nat) : decode (encode width v) = v % 256 ^ width := by
  induction width generalizing v with
  | zero => simp [encode, decode, Nat.mod_one]
  | succ width ih =>
    rw [encode, decode, ih, Nat.pow_succ', Nat.mod_mul]
    simp

theorem decode_lt (bs : List UInt8) : decode bs < 256 ^ bs.length := by
  induction bs with
  | nil => simp [decode]
  | cons b bs ih =>
    have hb := b.toNat_lt
    rw [decode, List.length_cons, Nat.pow_succ]
    omega

end bytes
