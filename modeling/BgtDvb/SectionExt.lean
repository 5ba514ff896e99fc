import BgtDvb.Crc32

/-!
# Extended sections with a CRC

The in-place codec of `libucsi/section.h` for extended sections, on the bytes of the section and
for a host of either byte order (`libucsi/endianops.h` swaps on a little-endian host and does
nothing on a big-endian one):

* `sectionExtEncode_spec`, `sectionCheckCrc_of_residue` — **PROVED**: what the encoder writes, and
  that the decoder's check is passed by it.
-/

namespace BgtDvb.Ucsi

/-- `__BYTE_ORDER` of the host. -/
inductive ByteOrder where
  | little
  | big
  deriving Repr, DecidableEq

/-- A store of the bytes `xs` at offset `i`, within the bounds of the buffer. -/
def storeAt (i : ℕ) (xs buf : List UInt8) : List UInt8 :=
  buf.take i ++ xs ++ buf.drop (i + xs.length)

/-- `bswap16(buf + i)`. -/
def bswap16 : ByteOrder → ℕ → List UInt8 → List UInt8
  | .big, _, buf => buf
  | .little, i, buf => storeAt i [buf.getD (i + 1) 0, buf.getD i 0] buf

/-- `bswap32(buf + i)`. -/
def bswap32 : ByteOrder → ℕ → List UInt8 → List UInt8
  | .big, _, buf => buf
  | .little, i, buf =>
    storeAt i [buf.getD (i + 3) 0, buf.getD (i + 2) 0, buf.getD (i + 1) 0, buf.getD i 0] buf

/-- `*((uint32_t*) (buf + i)) = x`: the bytes of the word in the host's order. -/
def storeWord32 : ByteOrder → ℕ → UInt32 → List UInt8 → List UInt8
  | .big, i, x, buf => storeAt i (beBytes32 x) buf
  | .little, i, x, buf => storeAt i (beBytes32 x).reverse buf

/-- The 16 bits after `table_id`, read in the host's order.  Both bit-field layouts of the source
put `syntax_indicator` at the top of this word and `length` in its twelve low bits. -/
def sectionWord : ByteOrder → List UInt8 → ℕ
  | .big, buf => (buf.getD 1 0).toNat * 256 + (buf.getD 2 0).toNat
  | .little, buf => (buf.getD 2 0).toNat * 256 + (buf.getD 1 0).toNat

def syntaxIndicator (order : ByteOrder) (buf : List UInt8) : ℕ := sectionWord order buf / 2 ^ 15

def lengthField (order : ByteOrder) (buf : List UInt8) : ℕ := sectionWord order buf % 2 ^ 12

/-- `section_length`: with the header of `sizeof(struct section)` bytes. -/
def sectionLength (order : ByteOrder) (buf : List UInt8) : ℕ := lengthField order buf + 3

/-- `section_check_crc`: the C result and the buffer, whose header word is swapped for the check
and swapped back. -/
def sectionCheckCrc (order : ByteOrder) (buf : List UInt8) : ℤ × List UInt8 :=
  let len := sectionLength order buf
  let swapped := bswap16 order 1 buf
  let crc := crc32 crc32Init (swapped.take len)
  let restored := bswap16 order 1 swapped
  if crc ≠ 0 then (-1, restored) else (0, restored)

/-- `section_ext_decode`; `none` is the `NULL` result. -/
def sectionExtDecode (order : ByteOrder) (buf : List UInt8) (checkCrc : Bool) :
    Option (List UInt8) :=
  if syntaxIndicator order buf = 0 then none
  else if checkCrc then
    let checked := sectionCheckCrc order buf
    if checked.1 ≠ 0 then none else some (bswap16 order 3 checked.2)
  else some (bswap16 order 3 buf)

/-- `section_ext_encode`; `none` is the `NULL` result. -/
def sectionExtEncode (order : ByteOrder) (buf : List UInt8) (updateCrc : Bool) :
    Option (List UInt8) :=
  if syntaxIndicator order buf = 0 then none
  else
    let buf := bswap16 order 3 buf
    if updateCrc then
      let len := 3 + lengthField order buf
      let swapped := bswap16 order 1 buf
      -- the CRC is taken over the transmitted header word
      let crc := crc32 crc32Init (swapped.take (len - 4))
      let restored := bswap16 order 1 swapped
      some (bswap32 order (len - 4) (storeWord32 order (len - 4) crc restored))
    else some buf

/-- The bytes of an extended section: `sizeof(struct section_ext)` bytes of header and the four of
the CRC at least, and as many in all as the length field says. -/
structure ExtSection (order : ByteOrder) where
  data : List UInt8
  syntaxSet : syntaxIndicator order data = 1
  consistent : data.length = sectionLength order data
  room : 8 + 4 ≤ data.length

/-- The shortest extended section, in the host order of a little-endian machine. -/
example : ExtSection .little :=
  ⟨[0x00, 0x09, 0xb0, 0x01, 0x00, 0xc1, 0x00, 0x00, 0, 0, 0, 0], by decide, by decide, by decide⟩

/-! ### Swaps -/

theorem storeAt_append (xs tail : List UInt8) (ys : List UInt8) (h : ys.length = tail.length) :
    storeAt xs.length ys (xs ++ tail) = xs ++ ys := by
  simp [storeAt, h]

theorem storeWord32_bswap32 (order : ByteOrder) (xs tail : List UInt8) (x : UInt32)
    (h : tail.length = 4) :
    bswap32 order xs.length (storeWord32 order xs.length x (xs ++ tail)) = xs ++ beBytes32 x := by
  cases order with
  | big => exact storeAt_append xs tail _ (by rw [h]; rfl)
  | little =>
    show bswap32 .little xs.length (storeAt xs.length (beBytes32 x).reverse (xs ++ tail)) = _
    rw [storeAt_append xs tail _ (by rw [h]; rfl)]
    show storeAt xs.length _ (xs ++ (beBytes32 x).reverse) = _
    rw [storeAt_append xs _ _ (by rfl)]
    simp [beBytes32]

variable {xs : List UInt8}

theorem exists_header (h : 5 ≤ xs.length) : ∃ a b c d e rest, xs = a :: b :: c :: d :: e :: rest := by
  match xs, h with
  | a :: b :: c :: d :: e :: rest, _ => exact ⟨a, b, c, d, e, rest, rfl⟩

variable (order : ByteOrder)

theorem bswap16_append {i : ℕ} (ys : List UInt8) (h : i + 2 ≤ xs.length) :
    bswap16 order i (xs ++ ys) = bswap16 order i xs ++ ys := by
  cases order with
  | big => rfl
  | little =>
    simp only [bswap16, storeAt]
    rw [List.getD_append _ _ _ _ (by omega), List.getD_append _ _ _ _ (by omega),
      List.take_append_of_le_length (by omega), List.drop_append_of_le_length (by simpa using h)]
    simp

theorem bswap16_length {i : ℕ} (h : i + 2 ≤ xs.length) : (bswap16 order i xs).length = xs.length := by
  cases order with
  | big => rfl
  | little =>
    simp [bswap16, storeAt]
    omega

theorem bswap16_one_one (h : 5 ≤ xs.length) : bswap16 order 1 (bswap16 order 1 xs) = xs := by
  obtain ⟨a, b, c, d, e, rest, rfl⟩ := exists_header h
  cases order <;> rfl

theorem bswap16_three_three (h : 5 ≤ xs.length) : bswap16 order 3 (bswap16 order 3 xs) = xs := by
  obtain ⟨a, b, c, d, e, rest, rfl⟩ := exists_header h
  cases order <;> rfl

/-- The header word is not touched by the swap of `table_id_ext`. -/
theorem sectionWord_bswap16_three (h : 5 ≤ xs.length) :
    sectionWord order (bswap16 order 3 xs) = sectionWord order xs := by
  obtain ⟨a, b, c, d, e, rest, rfl⟩ := exists_header h
  cases order <;> rfl

theorem sectionWord_append (ys : List UInt8) (h : 5 ≤ xs.length) :
    sectionWord order (xs ++ ys) = sectionWord order xs := by
  obtain ⟨a, b, c, d, e, rest, rfl⟩ := exists_header h
  cases order <;> rfl

/-! ### The codec -/

/-- What the encoder computes the CRC over: the section as it is transmitted. -/
def transmitted (body : List UInt8) : List UInt8 := bswap16 order 1 (bswap16 order 3 body)

/-- **The encoder.**  It swaps `table_id_ext` and puts the CRC of the transmitted bytes behind. -/
theorem sectionExtEncode_spec {body tail : List UInt8} (hbody : 5 ≤ body.length)
    (htail : tail.length = 4) (hsyn : syntaxIndicator order (body ++ tail) = 1)
    (hlen : (body ++ tail).length = sectionLength order (body ++ tail)) :
    sectionExtEncode order (body ++ tail) true =
      some (bswap16 order 3 body ++ beBytes32 (crc32 crc32Init (transmitted order body))) := by
  have hl3 : (bswap16 order 3 body).length = body.length := bswap16_length order hbody
  have hswap : bswap16 order 3 (body ++ tail) = bswap16 order 3 body ++ tail :=
    bswap16_append order tail hbody
  have hword : sectionWord order (bswap16 order 3 body ++ tail) = sectionWord order (body ++ tail) := by
    rw [sectionWord_append order tail (by omega), sectionWord_bswap16_three order hbody,
      sectionWord_append order tail hbody]
  have hcrc : 3 + lengthField order (bswap16 order 3 body ++ tail) - 4 = (bswap16 order 3 body).length := by
    unfold sectionLength at hlen
    unfold lengthField at hlen ⊢
    rw [List.length_append, htail] at hlen
    rw [hword, hl3]
    omega
  have htx : bswap16 order 1 (bswap16 order 3 body ++ tail) = transmitted order body ++ tail :=
    bswap16_append order tail (by omega)
  have htxlen : (transmitted order body).length = body.length := by
    rw [transmitted, bswap16_length order (by omega), hl3]
  have hback : bswap16 order 1 (transmitted order body ++ tail) = bswap16 order 3 body ++ tail := by
    rw [bswap16_append order tail (by omega), transmitted, bswap16_one_one order (by omega)]
  unfold sectionExtEncode
  rw [if_neg (by omega)]
  simp only [if_true]
  rw [hswap, hcrc, htx, hback, hl3, ← htxlen, List.take_left, htxlen, ← hl3,
    storeWord32_bswap32 order _ _ _ htail]

theorem sectionCheckCrc_of_residue {buf : List UInt8} (hbuf : 5 ≤ buf.length)
    (hlen : buf.length = sectionLength order buf)
    (hres : crc32 crc32Init (bswap16 order 1 buf) = 0) : sectionCheckCrc order buf = (0, buf) := by
  have hl : (bswap16 order 1 buf).length = sectionLength order buf := by
    rw [bswap16_length order (by omega), hlen]
  unfold sectionCheckCrc
  simp only [← hl, List.take_length]
  rw [hres, bswap16_one_one order hbuf]
  rfl

/-- **The round trip of the codec**, the section split before its CRC field. -/
theorem sectionExtDecode_encoded {body tail : List UInt8} (hbody : 5 ≤ body.length)
    (htail : tail.length = 4) (hsyn : syntaxIndicator order (body ++ tail) = 1)
    (hlen : (body ++ tail).length = sectionLength order (body ++ tail)) :
    sectionExtDecode order
        (bswap16 order 3 body ++ beBytes32 (crc32 crc32Init (transmitted order body))) true =
      some (body ++ beBytes32 (crc32 crc32Init (transmitted order body))) := by
  set crc := crc32 crc32Init (transmitted order body) with hcrc
  have hl3 : (bswap16 order 3 body).length = body.length := bswap16_length order hbody
  have hword : sectionWord order (bswap16 order 3 body ++ beBytes32 crc)
      = sectionWord order (body ++ tail) := by
    rw [sectionWord_append order _ (by omega), sectionWord_bswap16_three order hbody,
      sectionWord_append order tail hbody]
  have hsyn' : syntaxIndicator order (bswap16 order 3 body ++ beBytes32 crc) = 1 := by
    unfold syntaxIndicator at hsyn ⊢
    rw [hword, hsyn]
  have hlen' : (bswap16 order 3 body ++ beBytes32 crc).length
      = sectionLength order (bswap16 order 3 body ++ beBytes32 crc) := by
    unfold sectionLength lengthField at hlen ⊢
    rw [hword, ← hlen, List.length_append, List.length_append, hl3, htail]
    rfl
  have hres : crc32 crc32Init (bswap16 order 1 (bswap16 order 3 body ++ beBytes32 crc)) = 0 := by
    rw [bswap16_append order _ (by omega)]
    exact crc32_residue crc32Init (transmitted order body)
  have hbuf : 5 ≤ (bswap16 order 3 body ++ beBytes32 crc).length := by
    rw [List.length_append]
    omega
  unfold sectionExtDecode
  rw [if_neg (by omega), sectionCheckCrc_of_residue order hbuf hlen' hres]
  simp only [if_true]
  rw [if_neg (by simp), bswap16_append order _ (by omega), bswap16_three_three order hbody]

/-! ### The CRC-protected codec -/

/-- **The CRC-protected section codec.**  The table-driven loop is the bitwise division and may be taken in two parts,
and every extended section of consistent length is encoded, passes the check of the decoder and comes back byte for
byte up to its CRC field. -/
theorem sectionExt_codec :
    (∀ (crc : UInt32) (buf : List UInt8), crc32 crc buf = crc32Bitwise crc buf) ∧
    (∀ (crc : UInt32) (xs ys : List UInt8), crc32 crc (xs ++ ys) = crc32 (crc32 crc xs) ys) ∧
    (∀ (order : ByteOrder) (s : ExtSection order), ∃ encoded decoded,
      sectionExtEncode order s.data true = some encoded ∧
      sectionExtDecode order encoded true = some decoded ∧
      decoded.length = s.data.length ∧
      decoded.take (s.data.length - 4) = s.data.take (s.data.length - 4)) := by
  refine ⟨crc32_eq_bitwise, crc32_append, ?_⟩
  intro order s
  have hroom := s.room
  have hsplit : s.data = s.data.take (s.data.length - 4) ++ s.data.drop (s.data.length - 4) :=
    (List.take_append_drop _ _).symm
  have hbody : (s.data.take (s.data.length - 4)).length = s.data.length - 4 := by
    rw [List.length_take]
    omega
  have htail : (s.data.drop (s.data.length - 4)).length = 4 := by
    rw [List.length_drop]
    omega
  have hsyn := s.syntaxSet
  have hlen := s.consistent
  rw [hsplit] at hsyn hlen
  have henc := sectionExtEncode_spec order (by omega) htail hsyn hlen
  rw [← hsplit] at henc
  refine ⟨_, _, henc, sectionExtDecode_encoded order (by omega) htail hsyn hlen, ?_, ?_⟩
  · rw [List.length_append, hbody]
    show s.data.length - 4 + 4 = _
    omega
  · rw [List.take_append_of_le_length (by omega), List.take_take, Nat.min_self]

end BgtDvb.Ucsi
