import Mathlib

/-!
# ASN.1 length fields of EN50221

`asn_1.c`: a length below 0x80 is one byte, 0x81 announces one byte of length and 0x82 two.

* `asn1Decode_field` — **PROVED**: every form in which a length fits is read back, whatever follows;
* `asn1Encode_eq` — **PROVED**: with room for three bytes it writes that form of every `uint16_t`.
-/

namespace BgtDvb.En50221

/-- `asn_1_decode`: the length and the number of bytes of the field; `none` is -1. -/
def asn1Decode (arr : List UInt8) : Option (ℕ × ℕ) :=
  match arr with
  | [] => none
  | lengthField :: rest =>
    if lengthField < 0x80 then some ((lengthField &&& 0x7f).toNat, 1)
    else if lengthField = 0x81 then
      match rest with
      | [] => none
      | b :: _ => some (b.toNat, 2)
    else if lengthField = 0x82 then
      match rest with
      | b :: b' :: _ => some ((b.toNat <<< 8) ||| b'.toNat, 3)
      | _ => none
    else none

/-- The forms of a length field. -/
inductive LengthForm where
  | short | one | two
  deriving Repr, DecidableEq

def LengthForm.limit : LengthForm → ℕ
  | .short => 0x80
  | .one => 0x100
  | .two => 0x10000

def LengthForm.field (n : ℕ) : LengthForm → List UInt8
  | .short => [UInt8.ofNat n]
  | .one => [0x81, UInt8.ofNat n]
  | .two => [0x82, UInt8.ofNat (n / 256), UInt8.ofNat n]

theorem toNat_ofNat_of_lt {n : ℕ} (h : n < 256) : (UInt8.ofNat n).toNat = n := by
  rw [UInt8.toNat_ofNat']
  exact Nat.mod_eq_of_lt h

theorem or_of_bytes {n : ℕ} (h : n < 65536) :
    ((UInt8.ofNat (n / 256)).toNat <<< 8) ||| (UInt8.ofNat n).toNat = n := by
  have hhigh : n / 256 < 256 := Nat.div_lt_of_lt_mul h
  have hlow : (UInt8.ofNat n).toNat = n % 256 := UInt8.toNat_ofNat'
  have hmod : n % 256 < 2 ^ 8 := Nat.mod_lt n (by decide)
  rw [toNat_ofNat_of_lt hhigh, hlow, ← Nat.shiftLeft_add_eq_or_of_lt hmod, Nat.shiftLeft_eq]
  exact Nat.div_add_mod' n 256

/-- **Round trip of a length field**, in every form that can express the length. -/
theorem asn1Decode_field (form : LengthForm) {n : ℕ} (h : n < form.limit) (rest : List UInt8) :
    asn1Decode (form.field n ++ rest) = some (n, (form.field n).length) := by
  cases form with
  | short =>
    have hall : ∀ m : Fin 128, UInt8.ofNat m.val < 0x80 ∧ (UInt8.ofNat m.val &&& 0x7f).toNat = m.val := by
      decide +kernel
    obtain ⟨hlt, heq⟩ := hall ⟨n, h⟩
    show asn1Decode (UInt8.ofNat n :: rest) = some (n, 1)
    rw [asn1Decode.eq_def]
    dsimp only
    rw [if_pos hlt, heq]
  | one =>
    show asn1Decode (0x81 :: UInt8.ofNat n :: rest) = some (n, 2)
    rw [asn1Decode.eq_def]
    dsimp only
    rw [if_neg (by decide), if_pos rfl, toNat_ofNat_of_lt h]
  | two =>
    show asn1Decode (0x82 :: UInt8.ofNat (n / 256) :: UInt8.ofNat n :: rest) = some (n, 3)
    rw [asn1Decode.eq_def]
    dsimp only
    rw [if_neg (by decide), if_neg (by decide), if_pos rfl, or_of_bytes h]

/-! ### The encoder -/

/-- `asn_1_encode`: the bytes of the field; `none` is -1. -/
def asn1Encode (length arrayLen : ℕ) : Option (List UInt8) :=
  if length < 0x80 then
    if arrayLen < 1 then none else some [UInt8.ofNat (length &&& 0x7f)]
  else if length < 0x100 then
    if arrayLen < 2 then none else some [0x81, UInt8.ofNat length]
  else
    if arrayLen < 3 then none else some [0x82, UInt8.ofNat (length >>> 8), UInt8.ofNat length]

def LengthForm.shortest (n : ℕ) : LengthForm :=
  if n < 0x80 then .short else if n < 0x100 then .one else .two

theorem LengthForm.lt_limit_shortest {n : ℕ} (h : n < 65536) : n < (LengthForm.shortest n).limit := by
  unfold LengthForm.shortest
  by_cases hshort : n < 0x80
  · rw [if_pos hshort]
    exact hshort
  · rw [if_neg hshort]
    by_cases hone : n < 0x100
    · rw [if_pos hone]
      exact hone
    · rw [if_neg hone]
      exact h

theorem asn1Encode_eq (n : ℕ) : asn1Encode n 3 = some ((LengthForm.shortest n).field n) := by
  unfold asn1Encode LengthForm.shortest
  by_cases hshort : n < 0x80
  · have hmask : n &&& 0x7f = n := by
      rw [show (0x7f : ℕ) = 2 ^ 7 - 1 from rfl, Nat.and_two_pow_sub_one_eq_mod]
      exact Nat.mod_eq_of_lt hshort
    rw [if_pos hshort, if_neg (by decide), if_pos hshort, hmask]
    rfl
  · rw [if_neg hshort, if_neg hshort]
    by_cases hone : n < 0x100
    · rw [if_pos hone, if_neg (by decide), if_pos hone]
      rfl
    · rw [if_neg hone, if_neg (by decide), if_neg hone, Nat.shiftRight_eq_div_pow]
      rfl

end BgtDvb.En50221
