import BgtDvb.Lib.MsbCrc

/-!
# The CRC-32 of `libucsi`

`crc32` of `libucsi/crc32.h`, a byte at a time from the table of `libucsi/crc32.c`, against the
bitwise division register of `MsbCrc` with the generator `0x04C11DB7`:

* `crc32tbl_eq` — **PROVED**: the 256 words are eight places of division each;
* `crc32_eq_bitwise`, `crc32_append` — **PROVED**: the loop computes the division, and may be
  stopped and taken up again anywhere;
* `crc32_residue` — **PROVED**: a message followed by its CRC, most significant byte first, leaves
  nothing.
-/

namespace BgtDvb.Ucsi

open BgtDvb.MsbCrc

/-- `CRC32_INIT`. -/
def crc32Init : UInt32 := 0xffffffff

def crc32tbl : Array UInt32 :=
  #[0x00000000, 0x04c11db7, 0x09823b6e, 0x0d4326d9, 0x130476dc, 0x17c56b6b, 0x1a864db2, 0x1e475005,
    0x2608edb8, 0x22c9f00f, 0x2f8ad6d6, 0x2b4bcb61, 0x350c9b64, 0x31cd86d3, 0x3c8ea00a, 0x384fbdbd,
    0x4c11db70, 0x48d0c6c7, 0x4593e01e, 0x4152fda9, 0x5f15adac, 0x5bd4b01b, 0x569796c2, 0x52568b75,
    0x6a1936c8, 0x6ed82b7f, 0x639b0da6, 0x675a1011, 0x791d4014, 0x7ddc5da3, 0x709f7b7a, 0x745e66cd,
    0x9823b6e0, 0x9ce2ab57, 0x91a18d8e, 0x95609039, 0x8b27c03c, 0x8fe6dd8b, 0x82a5fb52, 0x8664e6e5,
    0xbe2b5b58, 0xbaea46ef, 0xb7a96036, 0xb3687d81, 0xad2f2d84, 0xa9ee3033, 0xa4ad16ea, 0xa06c0b5d,
    0xd4326d90, 0xd0f37027, 0xddb056fe, 0xd9714b49, 0xc7361b4c, 0xc3f706fb, 0xceb42022, 0xca753d95,
    0xf23a8028, 0xf6fb9d9f, 0xfbb8bb46, 0xff79a6f1, 0xe13ef6f4, 0xe5ffeb43, 0xe8bccd9a, 0xec7dd02d,
    0x34867077, 0x30476dc0, 0x3d044b19, 0x39c556ae, 0x278206ab, 0x23431b1c, 0x2e003dc5, 0x2ac12072,
    0x128e9dcf, 0x164f8078, 0x1b0ca6a1, 0x1fcdbb16, 0x018aeb13, 0x054bf6a4, 0x0808d07d, 0x0cc9cdca,
    0x7897ab07, 0x7c56b6b0, 0x71159069, 0x75d48dde, 0x6b93dddb, 0x6f52c06c, 0x6211e6b5, 0x66d0fb02,
    0x5e9f46bf, 0x5a5e5b08, 0x571d7dd1, 0x53dc6066, 0x4d9b3063, 0x495a2dd4, 0x44190b0d, 0x40d816ba,
    0xaca5c697, 0xa864db20, 0xa527fdf9, 0xa1e6e04e, 0xbfa1b04b, 0xbb60adfc, 0xb6238b25, 0xb2e29692,
    0x8aad2b2f, 0x8e6c3698, 0x832f1041, 0x87ee0df6, 0x99a95df3, 0x9d684044, 0x902b669d, 0x94ea7b2a,
    0xe0b41de7, 0xe4750050, 0xe9362689, 0xedf73b3e, 0xf3b06b3b, 0xf771768c, 0xfa325055, 0xfef34de2,
    0xc6bcf05f, 0xc27dede8, 0xcf3ecb31, 0xcbffd686, 0xd5b88683, 0xd1799b34, 0xdc3abded, 0xd8fba05a,
    0x690ce0ee, 0x6dcdfd59, 0x608edb80, 0x644fc637, 0x7a089632, 0x7ec98b85, 0x738aad5c, 0x774bb0eb,
    0x4f040d56, 0x4bc510e1, 0x46863638, 0x42472b8f, 0x5c007b8a, 0x58c1663d, 0x558240e4, 0x51435d53,
    0x251d3b9e, 0x21dc2629, 0x2c9f00f0, 0x285e1d47, 0x36194d42, 0x32d850f5, 0x3f9b762c, 0x3b5a6b9b,
    0x0315d626, 0x07d4cb91, 0x0a97ed48, 0x0e56f0ff, 0x1011a0fa, 0x14d0bd4d, 0x19939b94, 0x1d528623,
    0xf12f560e, 0xf5ee4bb9, 0xf8ad6d60, 0xfc6c70d7, 0xe22b20d2, 0xe6ea3d65, 0xeba91bbc, 0xef68060b,
    0xd727bbb6, 0xd3e6a601, 0xdea580d8, 0xda649d6f, 0xc423cd6a, 0xc0e2d0dd, 0xcda1f604, 0xc960ebb3,
    0xbd3e8d7e, 0xb9ff90c9, 0xb4bcb610, 0xb07daba7, 0xae3afba2, 0xaafbe615, 0xa7b8c0cc, 0xa379dd7b,
    0x9b3660c6, 0x9ff77d71, 0x92b45ba8, 0x9675461f, 0x8832161a, 0x8cf30bad, 0x81b02d74, 0x857130c3,
    0x5d8a9099, 0x594b8d2e, 0x5408abf7, 0x50c9b640, 0x4e8ee645, 0x4a4ffbf2, 0x470cdd2b, 0x43cdc09c,
    0x7b827d21, 0x7f436096, 0x7200464f, 0x76c15bf8, 0x68860bfd, 0x6c47164a, 0x61043093, 0x65c52d24,
    0x119b4be9, 0x155a565e, 0x18197087, 0x1cd86d30, 0x029f3d35, 0x065e2082, 0x0b1d065b, 0x0fdc1bec,
    0x3793a651, 0x3352bbe6, 0x3e119d3f, 0x3ad08088, 0x2497d08d, 0x2056cd3a, 0x2d15ebe3, 0x29d4f654,
    0xc5a92679, 0xc1683bce, 0xcc2b1d17, 0xc8ea00a0, 0xd6ad50a5, 0xd26c4d12, 0xdf2f6bcb, 0xdbee767c,
    0xe3a1cbc1, 0xe760d676, 0xea23f0af, 0xeee2ed18, 0xf0a5bd1d, 0xf464a0aa, 0xf9278673, 0xfde69bc4,
    0x89b8fd09, 0x8d79e0be, 0x803ac667, 0x84fbdbd0, 0x9abc8bd5, 0x9e7d9662, 0x933eb0bb, 0x97ffad0c,
    0xafb010b1, 0xab710d06, 0xa6322bdf, 0xa2f33668, 0xbcb4666d, 0xb8757bda, 0xb5365d03, 0xb1f740b4]

/-- The loop body: `crc = (crc << 8) ^ crc32tbl[((crc >> 24) ^ buf[i]) & 0xff]`. -/
def crc32Step (crc : UInt32) (b : UInt8) : UInt32 :=
  (crc <<< 8) ^^^ crc32tbl.getD (((crc >>> 24) ^^^ b.toUInt32) &&& 0xff).toNat 0

/-- `crc32` over the `len` bytes `buf`. -/
def crc32 (crc : UInt32) (buf : List UInt8) : UInt32 := buf.foldl crc32Step crc

/-! ### The bitwise division -/

def crc32Poly : BitVec 32 := 0x04C11DB7#32

def messageBits (buf : List UInt8) : List Bool := buf.flatMap fun b => topBits 8 b.toBitVec

def crc32Bitwise (crc : UInt32) (buf : List UInt8) : UInt32 :=
  ⟨bitRun crc32Poly crc.toBitVec (messageBits buf)⟩

theorem crc32tbl_eq : ∀ i : Fin 256,
    (crc32tbl.getD i 0).toBitVec = shifts crc32Poly 8 (BitVec.ofNat 32 i <<< 24) := by
  decide +kernel

theorem crc32Index_toBitVec (crc : UInt32) (b : UInt8) :
    (((crc >>> 24) ^^^ b.toUInt32) &&& 0xff).toBitVec
      = (crc.toBitVec >>> 24) ^^^ b.toBitVec.setWidth 32 := by
  have hlt : ((crc.toBitVec >>> 24) ^^^ b.toBitVec.setWidth 32).toNat < 2 ^ 8 := by
    rw [BitVec.toNat_xor]
    apply Nat.xor_lt_two_pow
    · rw [BitVec.toNat_ushiftRight, Nat.shiftRight_eq_div_pow]
      have := crc.toBitVec.isLt
      omega
    · rw [BitVec.toNat_setWidth]
      have := b.toBitVec.isLt
      omega
  have hsrc : (((crc >>> 24) ^^^ b.toUInt32) &&& 0xff).toBitVec
      = ((crc.toBitVec >>> 24) ^^^ b.toBitVec.setWidth 32) &&& 0xff#32 := by
    simp [UInt32.toBitVec_shiftRight]
  rw [hsrc]
  apply BitVec.eq_of_toNat_eq
  rw [BitVec.toNat_and, show (0xff#32).toNat = 2 ^ 8 - 1 by rfl, Nat.and_two_pow_sub_one_eq_mod,
    Nat.mod_eq_of_lt hlt]

theorem crc32Step_toBitVec (crc : UInt32) (b : UInt8) :
    (crc32Step crc b).toBitVec = bitRun crc32Poly crc.toBitVec (topBits 8 b.toBitVec) := by
  set i := ((crc >>> 24) ^^^ b.toUInt32) &&& 0xff with hi
  have hlt : i.toNat < 256 := by
    rw [hi, UInt32.toNat_and]
    exact Nat.lt_of_le_of_lt Nat.and_le_right (by decide)
  have hentry : (crc32tbl.getD i.toNat 0).toBitVec = shifts crc32Poly 8 (i.toBitVec <<< 24) := by
    have := crc32tbl_eq ⟨i.toNat, hlt⟩
    rw [this]
    show shifts crc32Poly 8 (BitVec.ofNat 32 i.toBitVec.toNat <<< 24) = _
    rw [BitVec.ofNat_toNat, BitVec.setWidth_eq]
  have hstep : (crc32Step crc b).toBitVec
      = (crc.toBitVec <<< 8) ^^^ (crc32tbl.getD i.toNat 0).toBitVec := by
    simp [crc32Step, UInt32.toBitVec_shiftLeft, hi]
  rw [hstep, hentry, hi, crc32Index_toBitVec, bitRun_block crc32Poly crc.toBitVec (by omega)]

theorem crc32_eq_bitwise (crc : UInt32) (buf : List UInt8) : crc32 crc buf = crc32Bitwise crc buf := by
  induction buf generalizing crc with
  | nil => rfl
  | cons b buf ih =>
    show crc32 (crc32Step crc b) buf = _
    rw [ih]
    unfold crc32Bitwise messageBits
    rw [crc32Step_toBitVec, List.flatMap_cons, bitRun_append]

theorem crc32_append (crc : UInt32) (xs ys : List UInt8) :
    crc32 crc (xs ++ ys) = crc32 (crc32 crc xs) ys := List.foldl_append

/-! ### The residue -/

def beBytes32 (x : UInt32) : List UInt8 :=
  [(x >>> 24).toUInt8, (x >>> 16).toUInt8, (x >>> 8).toUInt8, x.toUInt8]

/-- The byte at offset `k` is sent as the top byte of the word moved up by `k` bits. -/
theorem topBits_byte (x : BitVec 32) (k : ℕ) (hk : k ≤ 24) :
    topBits 8 ((x >>> (24 - k)).setWidth 8) = topBits 8 (x <<< k) := by
  apply List.map_congr_left
  intro i hi
  rw [List.mem_range] at hi
  rw [BitVec.getMsbD_setWidth, BitVec.getMsbD_ushiftRight, BitVec.getMsbD_shiftLeft]
  rw [decide_eq_true (by omega), decide_eq_true (by omega), decide_eq_false (by omega),
    show i + 32 - 8 - (24 - k) = i + k by omega]
  rfl

theorem messageBits_beBytes32 (x : UInt32) : messageBits (beBytes32 x) = topBits 32 x.toBitVec := by
  have h := topBits_byte x.toBitVec
  rw [topBits_add 8 24, topBits_add 8 16, topBits_add 8 8, ← BitVec.shiftLeft_add,
    ← BitVec.shiftLeft_add, ← h 8 (by omega), ← h 16 (by omega), ← h 24 (by omega)]
  have h0 := h 0 (by omega)
  rw [BitVec.shiftLeft_zero] at h0
  rw [← h0]
  simp [messageBits, beBytes32, UInt32.toBitVec_shiftRight]

theorem crc32_residue (crc : UInt32) (buf : List UInt8) :
    crc32 crc (buf ++ beBytes32 (crc32 crc buf)) = 0 := by
  rw [crc32_append]
  generalize crc32 crc buf = c
  rw [crc32_eq_bitwise, crc32Bitwise, messageBits_beBytes32, bitRun_self]
  rfl

end BgtDvb.Ucsi
