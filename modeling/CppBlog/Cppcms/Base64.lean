import Mathlib.Tactic.Common
import Mathlib.Tactic.IntervalCases

set_option autoImplicit false

/-! # Bytes in a cookie

`b64url` writes three bytes as four letters of an alphabet of 64, without padding. What it writes, it reads. -/

namespace Cppcms

abbrev Bytes := List UInt8

namespace B64url

/-- `encode_6_to_8` -/
def alphabet : Bytes :=
  "ABCDEFGHIJKLMNOPQRSTUVWXYZabcdefghijklmnopqrstuvwxyz0123456789-_".toList.map (fun c => c.toNat.toUInt8)

/-- `encode_6_to_8[i]` -/
def encode6to8 (i : UInt8) : UInt8 := alphabet.getD i.toNat 0

/-- `encode_8_to_6(c)`, zero for what is no letter of the alphabet -/
def encode8to6 (c : UInt8) : UInt8 :=
  if 'A'.toNat ≤ c.toNat ∧ c.toNat ≤ 'Z'.toNat then c - 65
  else if 'a'.toNat ≤ c.toNat ∧ c.toNat ≤ 'z'.toNat then 26 + c - 97
  else if '0'.toNat ≤ c.toNat ∧ c.toNat ≤ '9'.toNat then 2 * 26 + c - 48
  else if c.toNat = '-'.toNat then 62
  else if c.toNat = '_'.toNat then 63
  else 0

/-- `encode`, with `bencode` of each group -/
def encode : Bytes → Bytes
  | [] => []
  | [a] => [encode6to8 (a >>> 2), encode6to8 ((a &&& 0x03) <<< 4)]
  | [a, b] =>
      [encode6to8 (a >>> 2), encode6to8 (((a &&& 0x03) <<< 4) ||| ((b &&& 0xf0) >>> 4)),
        encode6to8 ((b &&& 0x0f) <<< 2)]
  | a :: b :: c :: rest =>
      [encode6to8 (a >>> 2), encode6to8 (((a &&& 0x03) <<< 4) ||| ((b &&& 0xf0) >>> 4)),
        encode6to8 (((b &&& 0x0f) <<< 2) ||| ((c &&& 0xc0) >>> 6)), encode6to8 (c &&& 0x3f)] ++ encode rest

/-- `bdecode` of a group of four letters; fewer leave zeros behind them. -/
def bdecode (a b c d : UInt8) : Bytes :=
  [encode8to6 a <<< 2 ||| encode8to6 b >>> 4, encode8to6 b <<< 4 ||| encode8to6 c >>> 2,
    ((encode8to6 c <<< 6) &&& 0xc0) ||| encode8to6 d]

/-- The loop of `decode` -/
def decodeLoop : Bytes → Bytes
  | [] => []
  | [a] => bdecode a 0 0 0
  | [a, b] => (bdecode a b 0 0).take 1
  | [a, b, c] => (bdecode a b c 0).take 2
  | a :: b :: c :: d :: rest => bdecode a b c d ++ decodeLoop rest

/-- `decode(input,output)`: a text of one letter more than whole groups is refused. -/
def decode (input : Bytes) : Option Bytes :=
  if input.length % 4 = 1 then none else some (decodeLoop input)

theorem encode8to6_encode6to8 {i : UInt8} (hi : i.toNat < 64) : encode8to6 (encode6to8 i) = i := by
  have hall : ∀ j : Fin 64, encode8to6 (encode6to8 (UInt8.ofNat j.1)) = UInt8.ofNat j.1 := by decide +kernel
  simpa using hall ⟨i.toNat, hi⟩

/-! ## The bits of a group

Bit by bit, as none of the eight depends on another. -/

section
variable (a b c : UInt8)

theorem lt_of_shiftRight {x : UInt8} (h : x >>> 6 = 0) : x.toNat < 64 := by
  have h := congrArg UInt8.toNat h
  simp only [UInt8.toNat_shiftRight, UInt8.reduceToNat, Nat.reduceMod, Nat.shiftRight_eq_div_pow] at h
  omega

theorem index₀_lt : (a >>> 2).toNat < 64 := by
  refine lt_of_shiftRight (UInt8.toBitVec_inj.1 ?_)
  ext i hi
  interval_cases i <;> simp

theorem index₁_lt : (((a &&& 0x03) <<< 4) ||| ((b &&& 0xf0) >>> 4)).toNat < 64 := by
  refine lt_of_shiftRight (UInt8.toBitVec_inj.1 ?_)
  ext i hi
  interval_cases i <;> simp

theorem index₂_lt : (((b &&& 0x0f) <<< 2) ||| ((c &&& 0xc0) >>> 6)).toNat < 64 := by
  refine lt_of_shiftRight (UInt8.toBitVec_inj.1 ?_)
  ext i hi
  interval_cases i <;> simp

theorem index₃_lt : (c &&& 0x3f).toNat < 64 := by
  refine lt_of_shiftRight (UInt8.toBitVec_inj.1 ?_)
  ext i hi
  interval_cases i <;> simp

theorem join₀ : (a >>> 2) <<< 2 ||| (((a &&& 0x03) <<< 4) ||| ((b &&& 0xf0) >>> 4)) >>> 4 = a := by
  refine UInt8.toBitVec_inj.1 ?_
  ext i hi
  interval_cases i <;> simp

theorem join₁ : (((a &&& 0x03) <<< 4) ||| ((b &&& 0xf0) >>> 4)) <<< 4 |||
    (((b &&& 0x0f) <<< 2) ||| ((c &&& 0xc0) >>> 6)) >>> 2 = b := by
  refine UInt8.toBitVec_inj.1 ?_
  ext i hi
  interval_cases i <;> simp

theorem join₂ : ((((b &&& 0x0f) <<< 2) ||| ((c &&& 0xc0) >>> 6)) <<< 6) &&& 0xc0 ||| (c &&& 0x3f) = c := by
  refine UInt8.toBitVec_inj.1 ?_
  ext i hi
  interval_cases i <;> simp

end

/-- A whole group is read as it was written. -/
theorem bdecode_group (a b c : UInt8) :
    bdecode (encode6to8 (a >>> 2)) (encode6to8 (((a &&& 0x03) <<< 4) ||| ((b &&& 0xf0) >>> 4)))
      (encode6to8 (((b &&& 0x0f) <<< 2) ||| ((c &&& 0xc0) >>> 6))) (encode6to8 (c &&& 0x3f)) = [a, b, c] := by
  simp only [bdecode, encode8to6_encode6to8 (index₀_lt a), encode8to6_encode6to8 (index₁_lt a b),
    encode8to6_encode6to8 (index₂_lt b c), encode8to6_encode6to8 (index₃_lt c), join₀, join₁, join₂]

theorem bdecode_take_one (a b c d c' d' : UInt8) : (bdecode a b c d).take 1 = (bdecode a b c' d').take 1 := rfl

theorem bdecode_take_two (a b c d d' : UInt8) : (bdecode a b c d).take 2 = (bdecode a b c d').take 2 := rfl

theorem decodeLoop_encode (l : Bytes) : decodeLoop (encode l) = l := by
  induction l using encode.induct with
  | case1 => rfl
  | case2 a =>
    have hlast : (a &&& 0x03) <<< 4 = ((a &&& 0x03) <<< 4) ||| (((0 : UInt8) &&& 0xf0) >>> 4) := by simp
    rw [encode, decodeLoop, hlast]
    exact (bdecode_take_one _ _ _ _ _ _).trans (congrArg (List.take 1) (bdecode_group a 0 0))
  | case3 a b =>
    have hlast : (b &&& 0x0f) <<< 2 = ((b &&& 0x0f) <<< 2) ||| (((0 : UInt8) &&& 0xc0) >>> 6) := by simp
    rw [encode, decodeLoop, hlast]
    exact (bdecode_take_two _ _ _ _ _).trans (congrArg (List.take 2) (bdecode_group a b 0))
  | case4 a b c rest ih =>
    simp only [encode, List.cons_append, List.nil_append, decodeLoop, bdecode_group, ih]

theorem length_encode (l : Bytes) : (encode l).length % 4 ≠ 1 := by
  induction l using encode.induct with
  | case1 => simp [encode]
  | case2 a => simp [encode]
  | case3 a b => simp [encode]
  | case4 a b c rest ih =>
    simp only [encode, List.length_append, List.length_cons, List.length_nil]
    omega

/-- **What is written is read.** -/
theorem decode_encode (l : Bytes) : decode (encode l) = some l := by
  rw [decode, if_neg (length_encode l), decodeLoop_encode]

end B64url

end Cppcms
