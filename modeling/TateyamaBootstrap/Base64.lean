-- The text form of a payload and of an encrypted credential (request/base64.h,
-- authentication/base64.h): the iterators of boost put the bytes into groups of six bits and
-- back. The text has no padding.
import TateyamaBootstrap.BitGroups
import TateyamaBootstrap.Json

open json bit_groups

namespace tateyama_bootstrap

/-! ## The iterators of boost -/

/-- `transform_width<_, 6, 8>`: the last six bits are filled with zeros. -/
def transform_width_6_8 (bytes : Text) : List Nat :=
  (filled 6 (bytes.flatMap fun b => bits 8 b.toNat)).map value

/-- `transform_width<_, 8, 6, char>`: bits that make no byte any more are left out. -/
def transform_width_8_6 (words : List Nat) : Text :=
  (complete 8 (words.flatMap (bits 6))).map fun row => UInt8.ofNat (value row)

/-- The table of `base64_from_binary`. -/
def base64_table : Text :=
  ascii "ABCDEFGHIJKLMNOPQRSTUVWXYZabcdefghijklmnopqrstuvwxyz0123456789+/"

def base64_from_binary (word : Nat) : UInt8 := base64_table.getD word 0

/-- `binary_from_base64` has a zero for '=' and throws `dataflow_exception` for a character
that is not in its table. -/
def binary_from_base64 (c : UInt8) : Option Nat :=
  if c = 0x3d then some 0
  else base64_table.findIdx? (· = c)

namespace request

def encode (bytes : Text) : Text := (transform_width_6_8 bytes).map base64_from_binary

def decode (text : Text) : Option Text :=
  (text.mapM binary_from_base64).map transform_width_8_6

end request

namespace authentication

def base64_encode (input : Text) : Text := (transform_width_6_8 input).map base64_from_binary

end authentication

/-! ## There and back -/

theorem binary_from_base64_from_binary {word : Nat} (h : word < 64) :
    binary_from_base64 (base64_from_binary word) = some word := by
  revert h
  revert word
  decide +kernel

theorem transform_width_6_8_lt {bytes : Text} {word : Nat} (h : word ∈ transform_width_6_8 bytes) :
    word < 64 := by
  unfold transform_width_6_8 filled at h
  simp only [List.map_map, List.mem_map, Function.comp] at h
  obtain ⟨i, -, rfl⟩ := h
  have hlt := value_lt (group 6 (bytes.flatMap fun b => bits 8 b.toNat) i)
  rw [length_group] at hlt
  exact hlt

theorem mapM_binary_from_base64 {words : List Nat} (h : ∀ word ∈ words, word < 64) :
    (words.map base64_from_binary).mapM binary_from_base64 = some words := by
  induction words with
  | nil => rfl
  | cons word words ih =>
    rw [List.map_cons, List.mapM_cons, binary_from_base64_from_binary (h word (by simp)),
      ih fun w hw => h w (List.mem_cons_of_mem _ hw)]
    rfl

/-- The bits of the words are the bits of the bytes, with the zeros of the last word. -/
theorem bits_transform_width_6_8 (bytes : Text) :
    (transform_width_6_8 bytes).flatMap (bits 6) =
      (filled 6 (bytes.flatMap fun b => bits 8 b.toNat)).flatten := by
  have hrow : ∀ row ∈ filled 6 (bytes.flatMap fun b => bits 8 b.toNat),
      bits 6 (value row) = row := by
    intro row hrow
    obtain ⟨i, -, rfl⟩ := List.mem_map.mp hrow
    conv_lhs => rw [← length_group 6 (bytes.flatMap fun b => bits 8 b.toNat) i]
    exact bits_value _
  unfold transform_width_6_8
  rw [List.flatMap_map, List.flatMap_def, List.map_congr_left hrow, List.map_id']

theorem transform_width_8_6_8 (bytes : Text) :
    transform_width_8_6 (transform_width_6_8 bytes) = bytes := by
  have hlength : 8 ∣ (bytes.flatMap fun b => bits 8 b.toNat).length := by
    refine ⟨bytes.length, ?_⟩
    simp [List.length_flatMap, Nat.mul_comm]
  unfold transform_width_8_6
  rw [bits_transform_width_6_8, complete_filled (by omega) (by omega) hlength,
    complete_flatMap (by omega) _ _ (fun _ => length_bits _ _), List.map_map]
  refine (List.map_congr_left fun b _ => ?_).trans (List.map_id bytes)
  simp [value_bits]

theorem request.decode_encode (bytes : Text) :
    request.decode (request.encode bytes) = some bytes := by
  unfold request.decode request.encode
  rw [mapM_binary_from_base64 fun word hword => transform_width_6_8_lt hword, Option.map_some,
    transform_width_8_6_8]

/-- What `encode` made of any bytes is decoded to these bytes, and both encoders make the same
text. -/
theorem a_payload_is_decoded_as_it_was_encoded (bytes : Text) :
    request.decode (request.encode bytes) = some bytes ∧
      authentication.base64_encode bytes = request.encode bytes := by
  refine ⟨request.decode_encode bytes, ?_⟩
  unfold authentication.base64_encode request.encode
  rfl

example : request.encode (ascii "ab") = ascii "YWI" := by decide +kernel

end tateyama_bootstrap
