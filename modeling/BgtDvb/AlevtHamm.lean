import BgtDvb.AlevtCache

/-!
# Hamming codes and parity of teletext packets

`hamm.c` of alevt: nibbles in Hamming 8/4 code, words of 18 bits in Hamming 24/18 code, and text with odd parity.

* `hamm16_encode`, `chkParity_sent` — **PROVED**: what is sent without errors is read as it was meant.
-/

namespace BgtDvb.Alevt

def hammTable : List ℕ :=
  [0x0101, 0x100f, 0x0001, 0x0101, 0x100f, 0x0100, 0x0101, 0x100f, 0x100f, 0x0102, 0x0101, 0x100f,
    0x010a, 0x100f, 0x100f, 0x0107, 0x100f, 0x0100, 0x0101, 0x100f, 0x0100, 0x0000, 0x100f, 0x0100,
    0x0106, 0x100f, 0x100f, 0x010b, 0x100f, 0x0100, 0x0103, 0x100f, 0x100f, 0x010c, 0x0101, 0x100f,
    0x0104, 0x100f, 0x100f, 0x0107, 0x0106, 0x100f, 0x100f, 0x0107, 0x100f, 0x0107, 0x0107, 0x0007,
    0x0106, 0x100f, 0x100f, 0x0105, 0x100f, 0x0100, 0x010d, 0x100f, 0x0006, 0x0106, 0x0106, 0x100f,
    0x0106, 0x100f, 0x100f, 0x0107, 0x100f, 0x0102, 0x0101, 0x100f, 0x0104, 0x100f, 0x100f, 0x0109,
    0x0102, 0x0002, 0x100f, 0x0102, 0x100f, 0x0102, 0x0103, 0x100f, 0x0108, 0x100f, 0x100f, 0x0105,
    0x100f, 0x0100, 0x0103, 0x100f, 0x100f, 0x0102, 0x0103, 0x100f, 0x0103, 0x100f, 0x0003, 0x0103,
    0x0104, 0x100f, 0x100f, 0x0105, 0x0004, 0x0104, 0x0104, 0x100f, 0x100f, 0x0102, 0x010f, 0x100f,
    0x0104, 0x100f, 0x100f, 0x0107, 0x100f, 0x0105, 0x0105, 0x0005, 0x0104, 0x100f, 0x100f, 0x0105,
    0x0106, 0x100f, 0x100f, 0x0105, 0x100f, 0x010e, 0x0103, 0x100f, 0x100f, 0x010c, 0x0101, 0x100f,
    0x010a, 0x100f, 0x100f, 0x0109, 0x010a, 0x100f, 0x100f, 0x010b, 0x000a, 0x010a, 0x010a, 0x100f,
    0x0108, 0x100f, 0x100f, 0x010b, 0x100f, 0x0100, 0x010d, 0x100f, 0x100f, 0x010b, 0x010b, 0x000b,
    0x010a, 0x100f, 0x100f, 0x010b, 0x010c, 0x000c, 0x100f, 0x010c, 0x100f, 0x010c, 0x010d, 0x100f,
    0x100f, 0x010c, 0x010f, 0x100f, 0x010a, 0x100f, 0x100f, 0x0107, 0x100f, 0x010c, 0x010d, 0x100f,
    0x010d, 0x100f, 0x000d, 0x010d, 0x0106, 0x100f, 0x100f, 0x010b, 0x100f, 0x010e, 0x010d, 0x100f,
    0x0108, 0x100f, 0x100f, 0x0109, 0x100f, 0x0109, 0x0109, 0x0009, 0x100f, 0x0102, 0x010f, 0x100f,
    0x010a, 0x100f, 0x100f, 0x0109, 0x0008, 0x0108, 0x0108, 0x100f, 0x0108, 0x100f, 0x100f, 0x0109,
    0x0108, 0x100f, 0x100f, 0x010b, 0x100f, 0x010e, 0x0103, 0x100f, 0x100f, 0x010c, 0x010f, 0x100f,
    0x0104, 0x100f, 0x100f, 0x0109, 0x010f, 0x100f, 0x000f, 0x010f, 0x100f, 0x010e, 0x010f, 0x100f,
    0x0108, 0x100f, 0x100f, 0x0105, 0x100f, 0x010e, 0x010d, 0x100f, 0x100f, 0x010e, 0x010f, 0x100f,
    0x010e, 0x000e, 0x100f, 0x010e]

def hamm24Par0 : List ℕ :=
  [0, 33, 34, 3, 35, 2, 1, 32, 36, 5, 6, 39, 7, 38, 37, 4, 37, 4, 7, 38, 6, 39, 36, 5, 1, 32, 35, 2, 34, 3, 0, 33,
    38, 7, 4, 37, 5, 36, 39, 6, 2, 35, 32, 1, 33, 0, 3, 34, 3, 34, 33, 0, 32, 1, 2, 35, 39, 6, 5, 36, 4, 37, 38, 7,
    39, 6, 5, 36, 4, 37, 38, 7, 3, 34, 33, 0, 32, 1, 2, 35, 2, 35, 32, 1, 33, 0, 3, 34, 38, 7, 4, 37, 5, 36, 39, 6,
    1, 32, 35, 2, 34, 3, 0, 33, 37, 4, 7, 38, 6, 39, 36, 5, 36, 5, 6, 39, 7, 38, 37, 4, 0, 33, 34, 3, 35, 2, 1, 32,
    40, 9, 10, 43, 11, 42, 41, 8, 12, 45, 46, 15, 47, 14, 13, 44, 13, 44, 47, 14, 46, 15, 12, 45, 41, 8, 11, 42, 10, 43, 40, 9,
    14, 47, 44, 13, 45, 12, 15, 46, 42, 11, 8, 41, 9, 40, 43, 10, 43, 10, 9, 40, 8, 41, 42, 11, 15, 46, 45, 12, 44, 13, 14, 47,
    15, 46, 45, 12, 44, 13, 14, 47, 43, 10, 9, 40, 8, 41, 42, 11, 42, 11, 8, 41, 9, 40, 43, 10, 14, 47, 44, 13, 45, 12, 15, 46,
    41, 8, 11, 42, 10, 43, 40, 9, 13, 44, 47, 14, 46, 15, 12, 45, 12, 45, 46, 15, 47, 14, 13, 44, 40, 9, 10, 43, 11, 42, 41, 8]

def hamm24Par1 : List ℕ :=
  [0, 41, 42, 3, 43, 2, 1, 40, 44, 5, 6, 47, 7, 46, 45, 4, 45, 4, 7, 46, 6, 47, 44, 5, 1, 40, 43, 2, 42, 3, 0, 41,
    46, 7, 4, 45, 5, 44, 47, 6, 2, 43, 40, 1, 41, 0, 3, 42, 3, 42, 41, 0, 40, 1, 2, 43, 47, 6, 5, 44, 4, 45, 46, 7,
    47, 6, 5, 44, 4, 45, 46, 7, 3, 42, 41, 0, 40, 1, 2, 43, 2, 43, 40, 1, 41, 0, 3, 42, 46, 7, 4, 45, 5, 44, 47, 6,
    1, 40, 43, 2, 42, 3, 0, 41, 45, 4, 7, 46, 6, 47, 44, 5, 44, 5, 6, 47, 7, 46, 45, 4, 0, 41, 42, 3, 43, 2, 1, 40,
    48, 25, 26, 51, 27, 50, 49, 24, 28, 53, 54, 31, 55, 30, 29, 52, 29, 52, 55, 30, 54, 31, 28, 53, 49, 24, 27, 50, 26, 51, 48, 25,
    30, 55, 52, 29, 53, 28, 31, 54, 50, 27, 24, 49, 25, 48, 51, 26, 51, 26, 25, 48, 24, 49, 50, 27, 31, 54, 53, 28, 52, 29, 30, 55,
    31, 54, 53, 28, 52, 29, 30, 55, 51, 26, 25, 48, 24, 49, 50, 27, 50, 27, 24, 49, 25, 48, 51, 26, 30, 55, 52, 29, 53, 28, 31, 54,
    49, 24, 27, 50, 26, 51, 48, 25, 29, 52, 55, 30, 54, 31, 28, 53, 28, 53, 54, 31, 55, 30, 29, 52, 48, 25, 26, 51, 27, 50, 49, 24]

def hamm24Par2 : List ℕ :=
  [63, 14, 13, 60, 12, 61, 62, 15, 11, 58, 57, 8, 56, 9, 10, 59, 10, 59, 56, 9, 57, 8, 11, 58, 62, 15, 12, 61, 13, 60, 63, 14,
    9, 56, 59, 10, 58, 11, 8, 57, 61, 12, 15, 62, 14, 63, 60, 13, 60, 13, 14, 63, 15, 62, 61, 12, 8, 57, 58, 11, 59, 10, 9, 56,
    8, 57, 58, 11, 59, 10, 9, 56, 60, 13, 14, 63, 15, 62, 61, 12, 61, 12, 15, 62, 14, 63, 60, 13, 9, 56, 59, 10, 58, 11, 8, 57,
    62, 15, 12, 61, 13, 60, 63, 14, 10, 59, 56, 9, 57, 8, 11, 58, 11, 58, 57, 8, 56, 9, 10, 59, 63, 14, 13, 60, 12, 61, 62, 15,
    31, 46, 45, 28, 44, 29, 30, 47, 43, 26, 25, 40, 24, 41, 42, 27, 42, 27, 24, 41, 25, 40, 43, 26, 30, 47, 44, 29, 45, 28, 31, 46,
    41, 24, 27, 42, 26, 43, 40, 25, 29, 44, 47, 30, 46, 31, 28, 45, 28, 45, 46, 31, 47, 30, 29, 44, 40, 25, 26, 43, 27, 42, 41, 24,
    40, 25, 26, 43, 27, 42, 41, 24, 28, 45, 46, 31, 47, 30, 29, 44, 29, 44, 47, 30, 46, 31, 28, 45, 41, 24, 27, 42, 26, 43, 40, 25,
    30, 47, 44, 29, 45, 28, 31, 46, 42, 27, 24, 41, 25, 40, 43, 26, 43, 26, 25, 40, 24, 41, 42, 27, 31, 46, 45, 28, 44, 29, 30, 47]

def hamm24Val : List ℕ :=
  [0, 0, 0, 0, 1, 1, 1, 1, 0, 0, 0, 0, 1, 1, 1, 1, 2, 2, 2, 2, 3, 3, 3, 3, 2, 2, 2, 2, 3, 3, 3, 3,
    4, 4, 4, 4, 5, 5, 5, 5, 4, 4, 4, 4, 5, 5, 5, 5, 6, 6, 6, 6, 7, 7, 7, 7, 6, 6, 6, 6, 7, 7, 7, 7,
    8, 8, 8, 8, 9, 9, 9, 9, 8, 8, 8, 8, 9, 9, 9, 9, 10, 10, 10, 10, 11, 11, 11, 11, 10, 10, 10, 10, 11, 11, 11, 11,
    12, 12, 12, 12, 13, 13, 13, 13, 12, 12, 12, 12, 13, 13, 13, 13, 14, 14, 14, 14, 15, 15, 15, 15, 14, 14, 14, 14, 15, 15, 15, 15,
    0, 0, 0, 0, 1, 1, 1, 1, 0, 0, 0, 0, 1, 1, 1, 1, 2, 2, 2, 2, 3, 3, 3, 3, 2, 2, 2, 2, 3, 3, 3, 3,
    4, 4, 4, 4, 5, 5, 5, 5, 4, 4, 4, 4, 5, 5, 5, 5, 6, 6, 6, 6, 7, 7, 7, 7, 6, 6, 6, 6, 7, 7, 7, 7,
    8, 8, 8, 8, 9, 9, 9, 9, 8, 8, 8, 8, 9, 9, 9, 9, 10, 10, 10, 10, 11, 11, 11, 11, 10, 10, 10, 10, 11, 11, 11, 11,
    12, 12, 12, 12, 13, 13, 13, 13, 12, 12, 12, 12, 13, 13, 13, 13, 14, 14, 14, 14, 15, 15, 15, 15, 14, 14, 14, 14, 15, 15, 15, 15]

def hamm24Err : List ℕ :=
  [0x0000, 0x1000, 0x1000, 0x1000, 0x1000, 0x1000, 0x1000, 0x1000, 0x1000, 0x1000, 0x1000, 0x1000,
    0x1000, 0x1000, 0x1000, 0x1000, 0x1000, 0x1000, 0x1000, 0x1000, 0x1000, 0x1000, 0x1000, 0x1000,
    0x1000, 0x1000, 0x1000, 0x1000, 0x1000, 0x1000, 0x1000, 0x1000, 0x0100, 0x0100, 0x0100, 0x0100,
    0x0100, 0x0100, 0x0100, 0x0100, 0x0100, 0x0100, 0x0100, 0x0100, 0x0100, 0x0100, 0x0100, 0x0100,
    0x0100, 0x0100, 0x0100, 0x0100, 0x0100, 0x0100, 0x0100, 0x0100, 0x1000, 0x1000, 0x1000, 0x1000,
    0x1000, 0x1000, 0x1000, 0x1000]

def hamm24Cor : List ℕ :=
  [0x00000, 0x00000, 0x00000, 0x00000, 0x00000, 0x00000, 0x00000, 0x00000, 0x00000, 0x00000, 0x00000, 0x00000,
    0x00000, 0x00000, 0x00000, 0x00000, 0x00000, 0x00000, 0x00000, 0x00000, 0x00000, 0x00000, 0x00000, 0x00000,
    0x00000, 0x00000, 0x00000, 0x00000, 0x00000, 0x00000, 0x00000, 0x00000, 0x00000, 0x00000, 0x00000, 0x00001,
    0x00000, 0x00002, 0x00004, 0x00008, 0x00000, 0x00010, 0x00020, 0x00040, 0x00080, 0x00100, 0x00200, 0x00400,
    0x00000, 0x00800, 0x01000, 0x02000, 0x04000, 0x08000, 0x10000, 0x20000, 0x00000, 0x00000, 0x00000, 0x00000,
    0x00000, 0x00000, 0x00000, 0x00000]

/-- `hammtab` -/
def hammtab (b : UInt8) : ℕ := hammTable.getD b.toNat 0

/-- `hamm8`, with the errors so far. -/
def hamm8 (b : UInt8) (err : ℕ) : ℕ × ℕ := (hammtab b &&& 15, err + hammtab b)

/-- `hamm16` -/
def hamm16 (b c : UInt8) (err : ℕ) : ℕ × ℕ :=
  (hammtab b &&& 15 ||| (hammtab c &&& 15) * 16, err + hammtab b + hammtab c)

/-- `hamm24` -/
def hamm24 (b c d : UInt8) (err : ℕ) : ℕ × ℕ :=
  let e := hamm24Par0.getD b.toNat 0 ^^^ hamm24Par1.getD c.toNat 0 ^^^ hamm24Par2.getD d.toNat 0
  let x := hamm24Val.getD b.toNat 0 + c.toNat % 128 * 16 + d.toNat % 128 * 2048
  (x ^^^ hamm24Cor.getD e 0, err + hamm24Err.getD e 0)

def uncorrectable (err : ℕ) : Bool := err &&& 0xf000 ≠ 0

/-- `hamm24par[0][*p] & 32` -/
def parityOk (b : UInt8) : Bool := hamm24Par0.getD b.toNat 0 &&& 32 ≠ 0

/-- `chk_parity`: the characters, and how many were bad. -/
def chkParity (p : List UInt8) : List UInt8 × ℕ :=
  (p.map fun b => if parityOk b then b &&& 0x7f else badChar, p.countP fun b => !parityOk b)

/-! ### What is sent -/

/-- The Hamming 8/4 code of a nibble: data bits at the odd places, protection bits at the even ones. -/
def hammEncode (d : ℕ) : UInt8 :=
  let d₁ := d % 2
  let d₂ := d / 2 % 2
  let d₃ := d / 4 % 2
  let d₄ := d / 8 % 2
  let p₁ := (1 + d₁ + d₃ + d₄) % 2
  let p₂ := (1 + d₁ + d₂ + d₄) % 2
  let p₃ := (1 + d₁ + d₂ + d₃) % 2
  let p₄ := (1 + p₁ + d₁ + p₂ + d₂ + p₃ + d₃ + d₄) % 2
  UInt8.ofNat (p₁ + 2 * d₁ + 4 * p₂ + 8 * d₂ + 16 * p₃ + 32 * d₃ + 64 * p₄ + 128 * d₄)

def hammEncode16 (n : ℕ) : List UInt8 := [hammEncode (n % 16), hammEncode (n / 16 % 16)]

def oddParity (c : UInt8) : UInt8 :=
  if ((List.range 7).countP fun i => c.toNat.testBit i) % 2 = 1 then c else c ||| 0x80

section Sent

theorem hammtab_encode : ∀ d < 16, hammtab (hammEncode d) = d := by decide

theorem nibbles : ∀ a < 16, ∀ b < 16, (a &&& 15 ||| (b &&& 15) * 16) = a + b * 16 := by decide

theorem hamm16_encode {n : ℕ} (hn : n < 256) (err : ℕ) :
    hamm16 (hammEncode (n % 16)) (hammEncode (n / 16 % 16)) err = (n, err + (n % 16 + n / 16)) := by
  have hlow : n % 16 < 16 := Nat.mod_lt n (by decide)
  have hhigh : n / 16 % 16 < 16 := Nat.mod_lt _ (by decide)
  rw [hamm16, hammtab_encode _ hlow, hammtab_encode _ hhigh, nibbles _ hlow _ hhigh]
  refine Prod.ext ?_ ?_ <;> dsimp only <;> omega

set_option maxRecDepth 8000 in
theorem parity_sent : ∀ n < 128, parityOk (oddParity (UInt8.ofNat n)) = true ∧
    oddParity (UInt8.ofNat n) &&& 0x7f = UInt8.ofNat n := by decide

theorem chkParity_sent {text : List UInt8} (htext : ∀ c ∈ text, c < 0x80) : chkParity (text.map oddParity) = (text, 0) := by
  have hsent : ∀ c ∈ text, parityOk (oddParity c) = true ∧ oddParity c &&& 0x7f = c := fun c hc => by
    have hlt : c.toNat < 128 := htext c hc
    have hboth := parity_sent c.toNat hlt
    rwa [UInt8.ofNat_toNat] at hboth
  refine Prod.ext ?_ ?_
  · show (text.map oddParity).map _ = text
    rw [List.map_map]
    refine (List.map_congr_left fun c hc => ?_).trans (List.map_id text)
    rw [Function.comp_apply, if_pos (hsent c hc).1, (hsent c hc).2, id_eq]
  · show (text.map oddParity).countP _ = 0
    rw [List.countP_eq_zero]
    intro b hb
    obtain ⟨c, hc, rfl⟩ := List.mem_map.mp hb
    simp [(hsent c hc).1]

theorem uncorrectable_low {err : ℕ} (h : err < 0x1000) : uncorrectable err = false := by
  have hzero : err &&& 0xf000 = 0 := by
    refine Nat.eq_of_testBit_eq fun i => ?_
    rw [Nat.testBit_and, Nat.zero_testBit]
    by_cases hi : i < 12
    · have hmask : Nat.testBit 0xf000 i = false := by
        revert i
        decide
      rw [hmask, Bool.and_false]
    · have hpow : err < 2 ^ i := h.trans_le (Nat.pow_le_pow_right (by decide) (not_lt.mp hi) : 2 ^ 12 ≤ 2 ^ i)
      rw [Nat.testBit_lt_two_pow hpow, Bool.false_and]
  simp [uncorrectable, hzero]

end Sent

end BgtDvb.Alevt
