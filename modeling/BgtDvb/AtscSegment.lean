import BgtDvb.AtscHufftree
import BgtDvb.Lib.Words

/-!
# The segments of ATSC texts

`atsc_text_segment_decode` of `libucsi/atsc/atsc_text.c` appends the text of a segment to a buffer as UTF-8.  A segment is
plain, each byte a character of the page that its mode names, or coded with the trees for titles or descriptions, with
characters that the trees do not have escaped.

* `huffmanDecodeLoop_meets` — **PROVED**: the loop appends this text, and what it returns depends on the end;
* `segment_decode_iff` — **PROVED**: the segments for which the position after the text is returned.
-/

namespace BgtDvb.Ucsi.Text

open BgtDvb.Words

/-! ### Bits -/

def byteBits (b : UInt8) : List Bool := (List.range 8).map fun i => b.toNat.testBit (7 - i)

/-- `struct huffbuff` -/
structure Huffbuff where
  buf : List UInt8
  curByte : ℕ
  curBit : ℕ
  curBit_lt : curBit < 8

/-- `huffbuff_init` -/
def huffbuffInit (buf : List UInt8) : Huffbuff := ⟨buf, 0, 0, by decide⟩

namespace Huffbuff

/-- `buf[cur_byte] & (0x80 >> cur_bit)` -/
def bit (h : Huffbuff) : Bool := h.buf.getD h.curByte 0 &&& (0x80 >>> UInt8.ofNat h.curBit) ≠ 0

def next (h : Huffbuff) : Huffbuff :=
  if hbit : h.curBit + 1 > 7 then ⟨h.buf, h.curByte + 1, 0, by decide⟩
  else ⟨h.buf, h.curByte, h.curBit + 1, by omega⟩

def bits (h : Huffbuff) : List Bool := ((h.buf.drop h.curByte).flatMap byteBits).drop h.curBit

end Huffbuff

/-- `result <<= 1`, and the bit. -/
def shiftIn (result : UInt8) (bit : Bool) : UInt8 := if bit = true then result <<< 1 ||| 1 else result <<< 1

/-- The loop of `huffbuff_bits`; `none` is -1. -/
def huffbuffBitsLoop : ℕ → UInt8 → Huffbuff → Option UInt8 × Huffbuff
  | 0, result, h => (some result, h)
  | nbits + 1, result, h =>
    if h.curByte ≥ h.buf.length then (none, h) else huffbuffBitsLoop nbits (shiftIn result h.bit) h.next

/-- `huffbuff_bits` -/
def huffbuffBits (h : Huffbuff) (nbits : ℕ) : Option UInt8 × Huffbuff :=
  if nbits > 8 then (none, h) else huffbuffBitsLoop nbits 0 h

section Bits

variable {h : Huffbuff}

theorem length_byteBits (b : UInt8) : (byteBits b).length = 8 := by
  rw [byteBits, List.length_map, List.length_range]

theorem bits_nil (hend : h.buf.length ≤ h.curByte) : h.bits = [] := by
  rw [Huffbuff.bits, List.drop_eq_nil_of_le hend]
  exact List.drop_nil

theorem and_mask_ne_zero (b : UInt8) {i : ℕ} (hi : i < 8) :
    b &&& (0x80 >>> UInt8.ofNat i) ≠ 0 ↔ b.toNat.testBit (7 - i) = true := by
  have hmask : ((0x80 : UInt8) >>> UInt8.ofNat i).toNat = 2 ^ (7 - i) := by
    interval_cases i <;> rfl
  rw [ne_eq, ← UInt8.toNat_inj, UInt8.toNat_and, hmask, Nat.and_two_pow]
  cases b.toNat.testBit (7 - i) with
  | false => simp
  | true => simp

theorem bits_cons (hlt : h.curByte < h.buf.length) : h.bits = h.bit :: h.next.bits := by
  obtain ⟨b, hb⟩ : ∃ b, b = h.buf.getD h.curByte 0 := ⟨_, rfl⟩
  have hdrop : h.buf.drop h.curByte = b :: h.buf.drop (h.curByte + 1) := by
    rw [List.drop_eq_getElem_cons hlt, hb, List.getD_eq_getElem _ _ hlt]
  have hbit : h.bit = b.toNat.testBit (7 - h.curBit) := by
    rw [Huffbuff.bit, ← hb, Bool.eq_iff_iff, decide_eq_true_iff]
    exact and_mask_ne_zero b h.curBit_lt
  have hrange : h.curBit < (byteBits b).length := by
    rw [length_byteBits]
    exact h.curBit_lt
  have hget : (byteBits b)[h.curBit] = h.bit := by
    rw [hbit]
    simp [byteBits]
  rw [Huffbuff.bits, hdrop, List.flatMap_cons, List.drop_append_of_le_length hrange.le,
    List.drop_eq_getElem_cons hrange, hget, List.cons_append]
  congr 1
  unfold Huffbuff.next
  split
  · next hlast =>
    have h7 : h.curBit + 1 = 8 := by
      have := h.curBit_lt
      omega
    rw [List.drop_eq_nil_of_le (by rw [length_byteBits, h7])]
    rfl
  · next hmore =>
    rw [Huffbuff.bits]
    dsimp only
    rw [hdrop, List.flatMap_cons, List.drop_append_of_le_length (by rw [length_byteBits]; omega)]

theorem bits_eq_nil_iff : h.bits = [] ↔ ¬h.curByte < h.buf.length := by
  constructor
  · intro hnil hlt
    rw [bits_cons hlt] at hnil
    exact absurd hnil (List.cons_ne_nil _ _)
  · intro hend
    exact bits_nil (Nat.not_lt.mp hend)

theorem huffbuffBitsLoop_some (result : UInt8) (hn : n ≤ h.bits.length) :
    ∃ h', huffbuffBitsLoop n result h = (some ((h.bits.take n).foldl shiftIn result), h') ∧
      h'.bits = h.bits.drop n := by
  induction n generalizing h result with
  | zero => exact ⟨h, rfl, rfl⟩
  | succ n ih =>
    have hlt : h.curByte < h.buf.length := by
      by_contra hend
      rw [bits_eq_nil_iff.mpr hend] at hn
      exact absurd hn (Nat.not_succ_le_zero n)
    have hbits := bits_cons hlt
    rw [hbits] at hn ⊢
    obtain ⟨h', heq, hrest⟩ := ih (h := h.next) (shiftIn result h.bit) (Nat.le_of_succ_le_succ hn)
    refine ⟨h', ?_, hrest⟩
    rw [huffbuffBitsLoop, if_neg (Nat.not_le.mpr hlt), heq]
    rfl

theorem huffbuffBitsLoop_none (result : UInt8) (hn : h.bits.length < n) : (huffbuffBitsLoop n result h).1 = none := by
  induction n generalizing h result with
  | zero => exact absurd hn (Nat.not_lt_zero _)
  | succ n ih =>
    rw [huffbuffBitsLoop]
    split
    · rfl
    · next hlt =>
      rw [bits_cons (Nat.not_le.mp hlt)] at hn
      exact ih _ (Nat.lt_of_succ_lt_succ hn)

theorem huffbuffBits_some (h8 : n ≤ 8) (hn : n ≤ h.bits.length) :
    ∃ h', huffbuffBits h n = (some ((h.bits.take n).foldl shiftIn 0), h') ∧ h'.bits = h.bits.drop n := by
  rw [huffbuffBits, if_neg (Nat.not_lt.mpr h8)]
  exact huffbuffBitsLoop_some 0 hn

theorem huffbuffBits_none (h8 : n ≤ 8) (hn : h.bits.length < n) : (huffbuffBits h n).1 = none := by
  rw [huffbuffBits, if_neg (Nat.not_lt.mpr h8)]
  exact huffbuffBitsLoop_none 0 hn

theorem huffbuffBitsLoop_le (n : ℕ) (result : UInt8) (h : Huffbuff) :
    (huffbuffBitsLoop n result h).2.bits.length ≤ h.bits.length := by
  induction n generalizing h result with
  | zero => exact le_refl _
  | succ n ih =>
    rw [huffbuffBitsLoop]
    split
    · exact le_refl _
    · next hlt =>
      rw [bits_cons (Nat.not_le.mp hlt)]
      exact le_trans (ih _ _) (Nat.le_succ _)

theorem huffbuffBits_le (h : Huffbuff) (n : ℕ) : (huffbuffBits h n).2.bits.length ≤ h.bits.length := by
  unfold huffbuffBits
  split
  · exact le_refl _
  · exact huffbuffBitsLoop_le _ _ _

theorem huffbuffBits_lt {n : ℕ} {c : UInt8} {h' : Huffbuff} (hpos : 0 < n) (hread : huffbuffBits h n = (some c, h')) :
    h'.bits.length < h.bits.length := by
  have h8 : n ≤ 8 := by
    by_contra hbig
    rw [huffbuffBits, if_pos (Nat.not_le.mp hbig)] at hread
    cases hread
  have hn : n ≤ h.bits.length := by
    by_contra hshort
    have hnone := huffbuffBits_none h8 (Nat.not_le.mp hshort)
    rw [hread] at hnone
    cases hnone
  obtain ⟨h'', heq, hrest⟩ := huffbuffBits_some h8 hn
  rw [hread] at heq
  cases heq
  rw [hrest, List.length_drop]
  omega

end Bits

/-! ### The buffer -/

/-- The destination buffer and the position in it. -/
structure Dest where
  buf : List UInt8
  pos : ℕ
  pos_le : pos ≤ buf.length

/-- `realloc`, by the size asked for: the `DEST_ALLOC_DELTA` new bytes, or `NULL`. -/
abbrev Heap := ℕ → Option (Fin 20 → UInt8)

namespace Dest

def text (d : Dest) : List UInt8 := d.buf.take d.pos

/-- The buffer after `realloc`. -/
def grow (d : Dest) (fresh : Fin 20 → UInt8) : Dest where
  buf := d.buf ++ List.ofFn fresh
  pos := d.pos
  pos_le := by
    rw [List.length_append]
    exact le_trans d.pos_le (Nat.le_add_right _ _)

/-- `memcpy` to the position, which moves behind it. -/
def put (d : Dest) (tmp : List UInt8) (_fits : d.pos + tmp.length ≤ d.buf.length) : Dest where
  buf := d.buf.take d.pos ++ tmp ++ d.buf.drop (d.pos + tmp.length)
  pos := d.pos + tmp.length
  pos_le := by
    rw [List.length_append, List.length_append, List.length_take, Nat.min_eq_left d.pos_le]
    exact Nat.le_add_right _ _

/-- The position as an `int`. -/
def ret (d : Dest) : ℤ := (d.pos : ℤ).bmod (2 ^ 32)

end Dest

def encode (c : ℕ) : Option {tmp : List UInt8 // tmp.length ≤ 3} :=
  if c < 0x80 then some ⟨[UInt8.ofNat c], Nat.le_of_ble_eq_true rfl⟩
  else if c < 0x800 then
    some ⟨[UInt8.ofNat (0xc0 ||| ((c >>> 6) &&& 0x1f)), UInt8.ofNat (0x80 ||| (c &&& 0x3f))], Nat.le_of_ble_eq_true rfl⟩
  else if c < 0x10000 then
    some ⟨[UInt8.ofNat (0xe0 ||| ((c >>> 12) &&& 0x0f)), UInt8.ofNat (0x80 ||| ((c >>> 6) &&& 0x3f)),
      UInt8.ofNat (0x80 ||| (c &&& 0x3f))], Nat.le_of_ble_eq_true rfl⟩
  else none

/-- `append_unicode_char`; `none` is an error. -/
def appendUnicodeChar (heap : Heap) (d : Dest) (c : ℕ) : Option Dest :=
  match encode c with
  | none => none
  | some tmp =>
    if hfull : d.pos + tmp.1.length ≥ d.buf.length then
      match heap (d.buf.length + 20) with
      | none => none
      | some fresh => some ((d.grow fresh).put tmp.1 (by
          have htmp := tmp.2
          have hpos := d.pos_le
          show d.pos + tmp.1.length ≤ (d.buf ++ List.ofFn fresh).length
          rw [List.length_append, List.length_ofFn]
          omega))
    else some (d.put tmp.1 (Nat.le_of_not_le hfull))

/-! ### The functions -/

section Functions

variable (heap : Heap)

/-- `unicode_decode` -/
def unicodeDecode (mode : UInt8) : List UInt8 → Dest → ℤ × Dest
  | [], d => (d.ret, d)
  | b :: src, d =>
    match appendUnicodeChar heap d ((mode.toNat <<< 8) + b.toNat) with
    | none => (-1, d)
    | some d' => unicodeDecode mode src d'

/-- `huffman_decode_uncompressed` -/
def huffmanDecodeUncompressed (h : Huffbuff) (d : Dest) : ℤ × Huffbuff × Dest :=
  if h.curByte < h.buf.length then
    match hread : huffbuffBits h 8 with
    | (none, h') => (-1, h', d)
    | (some c, h') =>
      if c = 0x00 then (0, h', d)
      else if c = 0x1b then (0x1b, h', d)
      else
        match appendUnicodeChar heap d c.toNat with
        | none => (-1, h', d)
        | some d' => if c &&& 0x80 = 0 then (c.toNat, h', d') else huffmanDecodeUncompressed h' d'
  else (0, h, d)
termination_by h.bits.length
decreasing_by exact huffbuffBits_lt (by decide) hread

theorem huffmanDecodeUncompressed_bits (h : Huffbuff) (d : Dest) :
    (huffmanDecodeUncompressed heap h d).2.1.bits.length ≤ h.bits.length := by
  have hle : ∀ (h h' : Huffbuff) (c : Option UInt8), huffbuffBits h 8 = (c, h') → h'.bits.length ≤ h.bits.length := by
    intro h h' c hread
    have hbits := huffbuffBits_le h 8
    rwa [hread] at hbits
  fun_induction huffmanDecodeUncompressed heap h d with
  | case1 h d _ h' hread => exact hle h h' _ hread
  | case2 h d _ h' hread => exact hle h h' _ hread
  | case3 h d _ h' hread => exact hle h h' _ hread
  | case4 h d _ c h' hread => exact hle h h' _ hread
  | case5 h d _ c h' hread => exact hle h h' _ hread
  | case6 h d _ c h' hread _ _ d' _ _ ih => exact le_trans ih (hle h h' _ hread)
  | case7 h d => exact le_refl _

/-- `hufftree[tree][treeidx]`, as far as the nodes are given. -/
def nodeAt (trees : Hufftree) (tree treeidx : ℕ) : Option (ℕ × ℕ) := (trees[tree]?).bind (·[treeidx]?)

/-- The loop of `huffman_decode`; `none` is a read outside the trees. -/
def huffmanDecodeLoop (trees : Hufftree) (h : Huffbuff) (tree treeidx : ℕ) (d : Dest) : Option (ℤ × Dest) :=
  if h.curByte < h.buf.length then
    match _hread : huffbuffBits h 1 with
    | (none, _) => some (d.ret, d)
    | (some bit, h') =>
      match nodeAt trees tree treeidx with
      | none => none
      | some node =>
        let treeval := if bit = 0 then node.1 else node.2
        if treeval &&& 0x80 ≠ 0 then
          if treeval &&& 0x7f = 0x00 then some (0, d)
          else if treeval &&& 0x7f = 0x1b then
            match _hescape : huffmanDecodeUncompressed heap h' d with
            | (tmp, h'', d') =>
              if tmp < 0 then some (tmp, d')
              else if tmp = 0 then some (d'.ret, d')
              else huffmanDecodeLoop trees h'' tmp.toNat 0 d'
          else
            match appendUnicodeChar heap d (treeval &&& 0x7f) with
            | none => some (-1, d)
            | some d' => huffmanDecodeLoop trees h' (treeval &&& 0x7f) 0 d'
        else huffmanDecodeLoop trees h' tree treeval d
  else some (d.ret, d)
termination_by h.bits.length
decreasing_by
  · have hle := huffmanDecodeUncompressed_bits heap h' d
    rw [_hescape] at hle
    exact lt_of_le_of_lt hle (huffbuffBits_lt (by decide) _hread)
  · exact huffbuffBits_lt (by decide) _hread
  · exact huffbuffBits_lt (by decide) _hread

/-- `huffman_decode` -/
def huffmanDecode (trees : Hufftree) (src : List UInt8) (d : Dest) : Option (ℤ × Dest) :=
  huffmanDecodeLoop heap trees (huffbuffInit src) 0 0 d

end Functions

/-- `struct atsc_text_string_segment` and its bytes. -/
structure Segment where
  compressionType : UInt8
  mode : UInt8
  bytes : List UInt8
  numberBytes_lt : bytes.length < 256

/-- `atsc_text_segment_decode` -/
def segmentDecode (heap : Heap) (s : Segment) (d : Dest) : Option (ℤ × Dest) :=
  if s.mode > 0x33 then some (-1, d)
  else if s.mode ≠ 0 ∧ s.compressionType ≠ 0 then some (-1, d)
  else if s.compressionType = 0x00 then some (unicodeDecode heap s.mode s.bytes d)
  else if s.compressionType = 0x01 then huffmanDecode heap programTitleHufftree s.bytes d
  else if s.compressionType = 0x02 then huffmanDecode heap programDescriptionHufftree s.bytes d
  else some (-1, d)

/-! ### What a segment stands for -/

/-- Where in a coded text the next bit stands: at a node of a tree, or behind some bits of an escaped character. -/
inductive Place where
  | coded (tree node : ℕ)
  | escaped (octet : List Bool)

/-- How a text ends: with its bits, or with an escaped end; with the code for the end; within an escaped character; or at a
character that has no tree. -/
inductive Ending where
  | done
  | stop
  | cut
  | missing
  deriving DecidableEq

/-- The characters that a string of bits stands for, and how it ends. -/
def text (trees : Hufftree) : Place → List Bool → List ℕ × Ending
  | .coded _ _, [] => ([], .done)
  | .escaped octet, [] => ([], if octet = [] then .done else .cut)
  | .coded tree node, b :: bits =>
    match trees[tree]? with
    | none => ([], .missing)
    | some row =>
      let value := if b = true then (row.getD node (0, 0)).2 else (row.getD node (0, 0)).1
      if value &&& 0x80 = 0 then text trees (.coded tree value) bits
      else if value &&& 0x7f = 0x00 then ([], .stop)
      else if value &&& 0x7f = 0x1b then text trees (.escaped []) bits
      else
        let rest := text trees (.coded (value &&& 0x7f) 0) bits
        ((value &&& 0x7f) :: rest.1, rest.2)
  | .escaped octet, b :: bits =>
    if octet.length < 7 then text trees (.escaped (octet ++ [b])) bits
    else
      let c := ((octet ++ [b]).foldl shiftIn 0).toNat
      if c = 0x00 then ([], .done)
      else if c = 0x1b then text trees (.coded 0x1b 0) bits
      else if c < 0x80 then
        let rest := text trees (.coded c 0) bits
        (c :: rest.1, rest.2)
      else
        let rest := text trees (.escaped []) bits
        (c :: rest.1, rest.2)

def Segment.decoded (s : Segment) : List ℕ × Ending :=
  if s.compressionType = 0x00 then (s.bytes.map fun b => s.mode.toNat * 256 + b.toNat, .done)
  else if s.compressionType = 0x01 then text programTitleHufftree (.coded 0 0) (s.bytes.flatMap byteBits)
  else text programDescriptionHufftree (.coded 0 0) (s.bytes.flatMap byteBits)

/-! ### Characters in the buffer -/

/-- The text of characters in UTF-8. -/
def utf8 (cs : List ℕ) : List UInt8 := (cs.map Char.ofNat).flatMap String.utf8EncodeChar

def appendAll (heap : Heap) : List ℕ → Dest → Option Dest
  | [], d => some d
  | c :: cs, d => (appendUnicodeChar heap d c).bind (appendAll heap cs)

section Append

variable {heap : Heap}

theorem put_text (d : Dest) (tmp : List UInt8) (h : d.pos + tmp.length ≤ d.buf.length) :
    (d.put tmp h).text = d.text ++ tmp := by
  have hlen : (d.buf.take d.pos ++ tmp).length = d.pos + tmp.length := by
    rw [List.length_append, List.length_take, Nat.min_eq_left d.pos_le]
  show (d.buf.take d.pos ++ tmp ++ d.buf.drop (d.pos + tmp.length)).take (d.pos + tmp.length) = d.buf.take d.pos ++ tmp
  rw [← hlen, List.take_left]

theorem grow_text (d : Dest) (fresh : Fin 20 → UInt8) : (d.grow fresh).text = d.text :=
  List.take_append_of_le_length d.pos_le

theorem appendUnicodeChar_some {d d' : Dest} {c : ℕ} (h : appendUnicodeChar heap d c = some d') :
    ∃ tmp, encode c = some tmp ∧ d'.text = d.text ++ tmp.1 ∧ d'.pos = d.pos + tmp.1.length := by
  unfold appendUnicodeChar at h
  split at h
  · cases h
  · next tmp htmp =>
    refine ⟨tmp, htmp, ?_⟩
    split at h
    · split at h
      · cases h
      · cases h
        rw [put_text, grow_text]
        exact ⟨rfl, rfl⟩
    · cases h
      rw [put_text]
      exact ⟨rfl, rfl⟩

theorem or_field (c j : ℕ) {k : ℕ} (hmark : 2 ^ k ∣ mark) :
    mark ||| ((c >>> j) &&& (2 ^ k - 1)) = c / 2 ^ j % 2 ^ k + mark := by
  rw [Nat.and_two_pow_sub_one_eq_mod, Nat.shiftRight_eq_div_pow,
    or_eq_add k hmark (Nat.mod_lt _ (Nat.two_pow_pos k)), Nat.add_comm]

theorem encode_utf8 {c : ℕ} (hc : c < 0xd800) :
    (encode c).map (·.1) = some (String.utf8EncodeChar (Char.ofNat c)) := by
  have hval : (Char.ofNat c).val.toNat = c := by
    have hvalid : c.isValidChar := Or.inl hc
    rw [Char.ofNat, dif_pos hvalid]
    rfl
  have hlow : 0x80 ||| (c &&& 0x3f) = c % 0x40 + 0x80 := by
    have h := or_field c 0 (show 2 ^ 6 ∣ 0x80 by decide)
    rwa [Nat.shiftRight_zero, pow_zero, Nat.div_one] at h
  have hmiddle : 0x80 ||| ((c >>> 6) &&& 0x3f) = c / 64 % 0x40 + 0x80 := or_field c 6 (show 2 ^ 6 ∣ 0x80 by decide)
  have htwo : 0xc0 ||| ((c >>> 6) &&& 0x1f) = c / 64 % 0x20 + 0xc0 := or_field c 6 (show 2 ^ 5 ∣ 0xc0 by decide)
  have hthree : 0xe0 ||| ((c >>> 12) &&& 0x0f) = c / 4096 % 0x10 + 0xe0 := 
    or_field c 12 (show 2 ^ 4 ∣ 0xe0 by decide)
  obtain ⟨ch, hch⟩ : ∃ ch, ch = Char.ofNat c := ⟨_, rfl⟩
  rw [← hch] at hval ⊢
  unfold encode String.utf8EncodeChar
  rw [hval]
  simp only [hlow, hmiddle, htwo, hthree]
  by_cases h80 : c < 0x80
  · rw [if_pos h80, if_pos (Nat.le_of_lt_succ h80)]
    rfl
  rw [if_neg h80, if_neg (fun h => h80 (Nat.lt_succ_of_le h))]
  by_cases h800 : c < 0x800
  · rw [if_pos h800, if_pos (Nat.le_of_lt_succ h800)]
    rfl
  rw [if_neg h800, if_neg (fun h => h800 (Nat.lt_succ_of_le h)), if_pos (by omega), if_pos (by omega)]
  rfl

theorem appendAll_text (hcs : ∀ c ∈ cs, c < 0xd800) {d d' : Dest} (h : appendAll heap cs d = some d') :
    d'.text = d.text ++ utf8 cs ∧ d'.pos = d.pos + (utf8 cs).length := by
  induction cs generalizing d with
  | nil =>
    cases h
    exact ⟨(List.append_nil _).symm, rfl⟩
  | cons c cs ih =>
    obtain ⟨d1, hd1, hrest⟩ := Option.bind_eq_some_iff.mp h
    obtain ⟨tmp, htmp, htext, hpos⟩ := appendUnicodeChar_some hd1
    obtain ⟨htext', hpos'⟩ := ih (fun x hx => hcs x (List.mem_cons_of_mem c hx)) hrest
    have hutf : tmp.1 = String.utf8EncodeChar (Char.ofNat c) := by
      have henc := encode_utf8 (hcs c List.mem_cons_self)
      rw [htmp] at henc
      exact Option.some.inj henc
    have hcons : utf8 (c :: cs) = tmp.1 ++ utf8 cs := by
      rw [hutf]
      rfl
    rw [htext', htext, hpos', hpos, hcons, List.append_assoc, List.length_append, Nat.add_assoc]
    exact ⟨rfl, rfl⟩

end Append

/-! ### The loop and the text -/

def endOf : Ending → Dest → Option (ℤ × Dest)
  | .done, d => some (d.ret, d)
  | .stop, d => some (0, d)
  | .cut, d => some (-1, d)
  | .missing, _ => none

/-- The characters are appended, and then what is returned depends on the end; or there is no memory for them. -/
def Meets (heap : Heap) (d : Dest) (result : Option (ℤ × Dest)) (x : List ℕ × Ending) : Prop :=
  match appendAll heap x.1 d with
  | none => ∃ d', result = some (-1, d')
  | some d' => result = endOf x.2 d'

section Loop

variable {heap : Heap} {trees : Hufftree}

variable {c tree node : ℕ} {h : Huffbuff}

theorem meets_cons {d d' : Dest} (h : appendUnicodeChar heap d c = some d') {result : Option (ℤ × Dest)}
    {x : List ℕ × Ending} : Meets heap d result (c :: x.1, x.2) ↔ Meets heap d' result x := by
  unfold Meets
  rw [appendAll, h, Option.bind_some]

theorem meets_cons_none {d d' : Dest} (h : appendUnicodeChar heap d c = none) {x : List ℕ × Ending} :
    Meets heap d (some (-1, d')) (c :: x.1, x.2) := by
  unfold Meets
  rw [appendAll, h, Option.bind_none]
  exact ⟨d', rfl⟩

def textAfter (trees : Hufftree) (c : ℕ) (bits : List Bool) : List ℕ × Ending :=
  if c = 0x00 then ([], .done)
  else if c = 0x1b then text trees (.coded 0x1b 0) bits
  else if c < 0x80 then
    let rest := text trees (.coded c 0) bits
    (c :: rest.1, rest.2)
  else
    let rest := text trees (.escaped []) bits
    (c :: rest.1, rest.2)

theorem text_escaped {octet : List Bool} (w bits : List Bool) (hw : w ≠ []) (h8 : octet.length + w.length = 8) :
    text trees (.escaped octet) (w ++ bits) = textAfter trees ((octet ++ w).foldl shiftIn 0).toNat bits := by
  induction w generalizing octet with
  | nil => exact absurd rfl hw
  | cons b w ih =>
    rw [List.length_cons] at h8
    rw [List.cons_append, text]
    cases w with
    | nil =>
      rw [if_neg (by rw [List.length_nil] at h8; omega)]
      rfl
    | cons b' w =>
      rw [List.length_cons] at h8
      have hlen : (octet ++ [b]).length + (b' :: w).length = 8 := by
        rw [List.length_append, List.length_cons, List.length_cons, List.length_nil]
        omega
      rw [if_pos (by omega), ih (List.cons_ne_nil _ _) hlen, List.append_assoc]
      rfl

theorem text_escaped_cut {octet : List Bool} (w : List Bool) (hw : octet ++ w ≠ []) (h8 : octet.length + w.length < 8) :
    text trees (.escaped octet) w = ([], .cut) := by
  induction w generalizing octet with
  | nil =>
    rw [List.append_nil] at hw
    rw [text, if_neg hw]
  | cons b w ih =>
    rw [List.length_cons] at h8
    rw [text, if_pos (by omega)]
    refine ih (by simp) ?_
    rw [List.length_append, List.length_singleton]
    omega

/-- What is known of the result of `huffman_decode_uncompressed`. -/
def EscapeMeets (heap : Heap) (trees : Hufftree) (d : Dest) (x : List ℕ × Ending) (u : ℤ × Huffbuff × Dest) : Prop :=
  (u.1 = -1 ∧ Meets heap d (some (-1, u.2.2)) x) ∨
    (u.1 = 0 ∧ Meets heap d (some (u.2.2.ret, u.2.2)) x) ∨
    ∃ c : ℕ, 0 < c ∧ u.1 = c ∧
      ∀ result, Meets heap u.2.2 result (text trees (.coded c 0) u.2.1.bits) → Meets heap d result x

theorem text_of_read {c : UInt8} (hread : huffbuffBits h 8 = (some c, h')) :
    text trees (.escaped []) h.bits = textAfter trees c.toNat h'.bits := by
  have hlen : 8 ≤ h.bits.length := by
    by_contra hshort
    have hnone := huffbuffBits_none (le_refl 8) (Nat.not_le.mp hshort)
    rw [hread] at hnone
    cases hnone
  obtain ⟨h'', heq, hrest⟩ := huffbuffBits_some (le_refl 8) hlen
  rw [hread] at heq
  obtain ⟨rfl, rfl⟩ : c = (h.bits.take 8).foldl shiftIn 0 ∧ h' = h'' := by
    cases heq
    exact ⟨rfl, rfl⟩
  have htake : (h.bits.take 8).length = 8 := List.length_take_of_le hlen
  have hne : h.bits.take 8 ≠ [] := List.ne_nil_of_length_pos (by rw [htake]; decide)
  have htext : text trees (.escaped []) (h.bits.take 8 ++ h'.bits) = _ :=
    text_escaped (h.bits.take 8) h'.bits hne (by rw [htake]; rfl)
  have hsplit : h.bits = h.bits.take 8 ++ h'.bits := by
    rw [hrest, List.take_append_drop]
  rw [← hsplit] at htext
  exact htext

theorem textAfter_char (h0 : c ≠ 0x00) (hescape : c ≠ 0x1b) (bits : List Bool) : textAfter trees c bits =
    (c :: (text trees (if c < 0x80 then .coded c 0 else .escaped []) bits).1,
      (text trees (if c < 0x80 then .coded c 0 else .escaped []) bits).2) := by
  unfold textAfter
  rw [if_neg h0, if_neg hescape]
  split <;> rfl

theorem huffmanDecodeUncompressed_meets (h : Huffbuff) (d : Dest) :
    EscapeMeets heap trees d (text trees (.escaped []) h.bits) (huffmanDecodeUncompressed heap h d) := by
  have hne : ∀ {c k : UInt8}, ¬c = k → c.toNat ≠ k.toNat := fun hc heq => hc (UInt8.toNat_inj.mp heq)
  have hlow : ∀ c : UInt8, c &&& 0x80 = 0 ↔ c.toNat < 0x80 := by
    intro c
    have hbit : c &&& 0x80 ≠ 0 ↔ c.toNat.testBit 7 = true := and_mask_ne_zero c (i := 0) (by decide)
    have hc := c.toNat_lt
    rw [← not_iff_not, ← ne_eq, hbit, Nat.testBit_eq_decide_div_mod_eq, decide_eq_true_iff]
    omega
  fun_induction huffmanDecodeUncompressed heap h d with
  | case1 h d hlt h' hread =>
    have hshort : h.bits.length < 8 := by
      by_contra hlong
      obtain ⟨h'', heq, -⟩ := huffbuffBits_some (le_refl 8) (Nat.not_lt.mp hlong)
      rw [hread] at heq
      cases heq
    have hbits : h.bits ≠ [] := fun hnil => bits_eq_nil_iff.mp hnil hlt
    rw [text_escaped_cut h.bits (by rwa [List.nil_append]) (by rw [List.length_nil, Nat.zero_add]; exact hshort)]
    exact Or.inl ⟨rfl, rfl⟩
  | case2 h d hlt h' hread =>
    rw [text_of_read hread]
    exact Or.inr (Or.inl ⟨rfl, rfl⟩)
  | case3 h d hlt h' hread =>
    rw [text_of_read hread]
    exact Or.inr (Or.inr ⟨0x1b, by decide, rfl, fun _ hmeets => hmeets⟩)
  | case4 h d hlt c h' hread h0 hescape hnone =>
    rw [text_of_read hread, textAfter_char (hne h0) (hne hescape)]
    exact Or.inl ⟨rfl, meets_cons_none hnone⟩
  | case5 h d hlt c h' hread h0 hescape d' hsome hseven =>
    rw [text_of_read hread, textAfter_char (hne h0) (hne hescape), if_pos ((hlow c).mp hseven)]
    refine Or.inr (Or.inr ⟨c.toNat, Nat.pos_of_ne_zero (hne h0), rfl, fun result hmeets => ?_⟩)
    exact (meets_cons hsome).mpr hmeets
  | case6 h d hlt c h' hread h0 hescape d' hsome height ih =>
    rw [text_of_read hread, textAfter_char (hne h0) (hne hescape), if_neg (fun hseven => height ((hlow c).mpr hseven))]
    rcases ih with ⟨hret, hmeets⟩ | ⟨hret, hmeets⟩ | ⟨c', hpos, hret, hmeets⟩
    · exact Or.inl ⟨hret, (meets_cons hsome).mpr hmeets⟩
    · exact Or.inr (Or.inl ⟨hret, (meets_cons hsome).mpr hmeets⟩)
    · exact Or.inr (Or.inr ⟨c', hpos, hret, fun result hrest => (meets_cons hsome).mpr (hmeets result hrest)⟩)
  | case7 h d hend =>
    rw [bits_eq_nil_iff.mpr hend]
    exact Or.inr (Or.inl ⟨rfl, rfl⟩)

def Inside (trees : Hufftree) (tree node : ℕ) : Prop := ∀ row, trees[tree]? = some row → node < row.length

theorem inside_root (hwf : WellFormed trees) (tree : ℕ) : Inside trees tree 0 := by
  intro row hrow
  exact List.length_pos_iff.mpr (hwf.2 row (List.mem_of_getElem? hrow)).1

theorem nodeAt_some (h : nodeAt trees tree node = some nd) :
    ∃ row, trees[tree]? = some row ∧ row[node]? = some nd := Option.bind_eq_some_iff.mp h

theorem nodeAt_none (hin : Inside trees tree node) (h : nodeAt trees tree node = none) : trees[tree]? = none := by
  cases hrow : trees[tree]? with
  | none => rfl
  | some row =>
    rw [nodeAt, hrow, Option.bind_some, List.getElem?_eq_getElem (hin row hrow)] at h
    cases h

theorem inside_branch (hwf : WellFormed trees) {value : ℕ} (h : nodeAt trees tree node = some nd)
    (hvalue : value = nd.1 ∨ value = nd.2) (hbranch : value &&& 0x80 = 0) : Inside trees tree value := by
  obtain ⟨row, hrow, hnd⟩ := nodeAt_some h
  intro row' hrow'
  obtain rfl : row = row' := Option.some.inj (hrow.symm.trans hrow')
  have hstays := (hwf.2 row (List.mem_of_getElem? hrow)).2 nd (List.mem_of_getElem? hnd)
  rcases hvalue with rfl | rfl
  · exact hstays.1 hbranch
  · exact hstays.2 hbranch

def textBranch (trees : Hufftree) (tree value : ℕ) (bits : List Bool) : List ℕ × Ending :=
  if value &&& 0x80 = 0 then text trees (.coded tree value) bits
  else if value &&& 0x7f = 0x00 then ([], .stop)
  else if value &&& 0x7f = 0x1b then text trees (.escaped []) bits
  else
    let rest := text trees (.coded (value &&& 0x7f) 0) bits
    ((value &&& 0x7f) :: rest.1, rest.2)

theorem bits_of_read {bit : UInt8} (hread : huffbuffBits h 1 = (some bit, h')) :
    ∃ b, h.bits = b :: h'.bits ∧ (bit = 0 ↔ b = false) := by
  have hlen : 1 ≤ h.bits.length := by
    by_contra hshort
    have hnone := huffbuffBits_none (by decide) (Nat.not_le.mp hshort)
    rw [hread] at hnone
    cases hnone
  obtain ⟨h'', heq, hrest⟩ := huffbuffBits_some (by decide) hlen
  rw [hread] at heq
  cases hbits : h.bits with
  | nil =>
    rw [hbits] at hlen
    exact absurd hlen (by decide)
  | cons b bits =>
    rw [hbits] at heq hrest
    cases heq
    refine ⟨b, by rw [hrest]; rfl, ?_⟩
    show shiftIn 0 b = 0 ↔ b = false
    cases b <;> decide

theorem text_of_bit {bit : UInt8} (hread : huffbuffBits h 1 = (some bit, h')) (hnd : nodeAt trees tree node = some nd)
    {treeval : ℕ} (hval : treeval = if bit = 0 then nd.1 else nd.2) :
    text trees (.coded tree node) h.bits = textBranch trees tree treeval h'.bits := by
  obtain ⟨b, hbits, hbit⟩ := bits_of_read hread
  obtain ⟨row, hrow, hget⟩ := nodeAt_some hnd
  have hvalue : (if b = true then (row.getD node (0, 0)).2 else (row.getD node (0, 0)).1) =
      if bit = 0 then nd.1 else nd.2 := by
    rw [List.getD_eq_getElem?_getD, hget, Option.getD_some]
    cases b with
    | false => rw [if_pos (hbit.mpr rfl), if_neg Bool.false_ne_true]
    | true => rw [if_neg (fun h0 => absurd (hbit.mp h0) Bool.noConfusion), if_pos rfl]
  rw [hbits, text, hrow, hval]
  dsimp only
  rw [hvalue]
  rfl

theorem huffmanDecodeLoop_meets (hwf : WellFormed trees) (h : Huffbuff) (tree node : ℕ) (d : Dest)
    (hin : Inside trees tree node) :
    Meets heap d (huffmanDecodeLoop heap trees h tree node d) (text trees (.coded tree node) h.bits) := by
  fun_induction huffmanDecodeLoop heap trees h tree node d with
  | case1 h tree node d hlt h' hread =>
    -- one bit is always there
    have hlen : 1 ≤ h.bits.length := List.length_pos_iff.mpr fun hnil => bits_eq_nil_iff.mp hnil hlt
    obtain ⟨h'', heq, -⟩ := huffbuffBits_some (by decide) hlen
    rw [hread] at heq
    cases heq
  | case2 h tree node d hlt bit h' hread hnone =>
    obtain ⟨b, hbits, -⟩ := bits_of_read hread
    rw [hbits, text, nodeAt_none hin hnone]
    rfl
  | case3 h tree node d hlt bit h' hread nd hnd treeval hliteral hstop =>
    rw [text_of_bit hread hnd (rfl : treeval = _), textBranch, if_neg hliteral, if_pos hstop]
    rfl
  | case4 h tree node d hlt bit h' hread nd hnd treeval hliteral hstop hescape tmp h'' d' huncompressed hneg =>
    rw [text_of_bit hread hnd (rfl : treeval = _), textBranch, if_neg hliteral, if_neg hstop, if_pos hescape]
    have hmeets : EscapeMeets heap trees d _ _ := huffmanDecodeUncompressed_meets h' d
    rw [huncompressed] at hmeets
    rcases hmeets with ⟨hret, hmeets⟩ | ⟨hret, -⟩ | ⟨c, -, hret, -⟩
    · rwa [show tmp = -1 from hret]
    · exact absurd hneg (by rw [show tmp = 0 from hret]; decide)
    · exact absurd hneg (by rw [show tmp = c from hret]; exact Int.not_lt.mpr (Int.natCast_nonneg c))
  | case5 h tree node d hlt bit h' hread nd hnd treeval hliteral hstop hescape h'' d' huncompressed hneg =>
    rw [text_of_bit hread hnd (rfl : treeval = _), textBranch, if_neg hliteral, if_neg hstop, if_pos hescape]
    have hmeets : EscapeMeets heap trees d _ _ := huffmanDecodeUncompressed_meets h' d
    rw [huncompressed] at hmeets
    rcases hmeets with ⟨hret, -⟩ | ⟨-, hmeets⟩ | ⟨c, hpos, hret, -⟩
    · exact absurd (show (0 : ℤ) = -1 from hret) (by decide)
    · exact hmeets
    · exact absurd (show (0 : ℤ) = c from hret) (by omega)
  | case6 h tree node d hlt bit h' hread nd hnd treeval hliteral hstop hescape tmp h'' d' huncompressed hneg hzero ih =>
    rw [text_of_bit hread hnd (rfl : treeval = _), textBranch, if_neg hliteral, if_neg hstop, if_pos hescape]
    have hmeets : EscapeMeets heap trees d _ _ := huffmanDecodeUncompressed_meets h' d
    rw [huncompressed] at hmeets
    rcases hmeets with ⟨hret, -⟩ | ⟨hret, -⟩ | ⟨c, -, hret, hmeets⟩
    · exact absurd (show tmp = -1 from hret) (by omega)
    · exact absurd (show tmp = 0 from hret) hzero
    · obtain rfl : tmp.toNat = c := by
        rw [show tmp = c from hret, Int.toNat_natCast]
      exact hmeets _ (ih (inside_root hwf _))
  | case7 h tree node d hlt bit h' hread nd hnd treeval hliteral hstop hescape hnone =>
    rw [text_of_bit hread hnd (rfl : treeval = _), textBranch, if_neg hliteral, if_neg hstop, if_neg hescape]
    exact meets_cons_none hnone
  | case8 h tree node d hlt bit h' hread nd hnd treeval hliteral hstop hescape d' hsome ih =>
    rw [text_of_bit hread hnd (rfl : treeval = _), textBranch, if_neg hliteral, if_neg hstop, if_neg hescape]
    exact (meets_cons hsome).mpr (ih (inside_root hwf _))
  | case9 h tree node d hlt bit h' hread nd hnd treeval hbranch ih =>
    have hvalue : treeval = nd.1 ∨ treeval = nd.2 := by
      by_cases hbit : bit = 0
      · exact Or.inl (dif_pos hbit)
      · exact Or.inr (dif_neg hbit)
    rw [text_of_bit hread hnd (rfl : treeval = _), textBranch, if_pos (not_not.mp hbranch)]
    exact ih (inside_branch hwf hnd hvalue (not_not.mp hbranch))
  | case10 h tree node d hend =>
    rw [bits_eq_nil_iff.mpr hend]
    rfl

end Loop

/-! ### Segments -/

theorem text_lt (trees : Hufftree) (place : Place) (bits : List Bool) : ∀ c ∈ (text trees place bits).1, c < 256 := by
  have hcons : ∀ {c : ℕ} {cs : List ℕ}, c < 256 → (∀ x ∈ cs, x < 256) → ∀ x ∈ c :: cs, x < 256 := by
    intro c cs hc hcs x hx
    rcases List.mem_cons.mp hx with rfl | hx
    · exact hc
    · exact hcs x hx
  have hnil : ∀ x ∈ ([] : List ℕ), x < 256 := fun x hx => absurd hx List.not_mem_nil
  induction bits generalizing place with
  | nil =>
    cases place with
    | coded tree node => exact hnil
    | escaped octet => exact hnil
  | cons b bits ih =>
    have hbranch : ∀ tree value, ∀ c ∈ (textBranch trees tree value bits).1, c < 256 := by
      intro tree value
      unfold textBranch
      split
      · exact ih _
      split
      · exact hnil
      split
      · exact ih _
      · exact hcons (lt_of_le_of_lt Nat.and_le_right (by decide)) (ih _)
    cases place with
    | coded tree node =>
      rw [text]
      cases trees[tree]? with
      | none => exact hnil
      | some row => exact hbranch tree _
    | escaped octet =>
      rw [text]
      split
      · exact ih _
      dsimp only
      split
      · exact hnil
      split
      · exact ih _
      split
      · exact hcons (UInt8.toNat_lt _) (ih _)
      · exact hcons (UInt8.toNat_lt _) (ih _)

/-- A segment that is decoded: a page in range, page 0 if it is coded, and a known code. -/
def Segment.Accepted (s : Segment) : Prop :=
  s.mode ≤ 0x33 ∧ (s.mode = 0 ∨ s.compressionType = 0) ∧
    (s.compressionType = 0x00 ∨ s.compressionType = 0x01 ∨ s.compressionType = 0x02)

section Segments

variable {heap : Heap}

theorem unicodeDecode_meets (mode : UInt8) (src : List UInt8) (d : Dest) :
    Meets heap d (some (unicodeDecode heap mode src d)) (src.map fun b => mode.toNat * 256 + b.toNat, .done) := by
  induction src generalizing d with
  | nil => rfl
  | cons b src ih =>
    have hshift : (mode.toNat <<< 8) + b.toNat = mode.toNat * 256 + b.toNat := by
      rw [Nat.shiftLeft_eq]
    rw [unicodeDecode, hshift, List.map_cons]
    cases happ : appendUnicodeChar heap d (mode.toNat * 256 + b.toNat) with
    | none =>
      show Meets heap d (some (-1, d)) _
      exact meets_cons_none (x := (src.map fun b => mode.toNat * 256 + b.toNat, .done)) happ
    | some d' => exact (meets_cons happ).mpr (ih d')

theorem huffmanDecode_meets {trees : Hufftree} (hwf : WellFormed trees) (src : List UInt8) (d : Dest) :
    Meets heap d (huffmanDecode heap trees src d) (text trees (.coded 0 0) (src.flatMap byteBits)) :=
  huffmanDecodeLoop_meets hwf (huffbuffInit src) 0 0 d (inside_root hwf 0)

variable {s : Segment}

theorem segmentDecode_meets (h : s.Accepted) (d : Dest) : Meets heap d (segmentDecode heap s d) s.decoded := by
  obtain ⟨hmode, hpage, htype⟩ := h
  unfold segmentDecode Segment.decoded
  rw [if_neg (UInt8.not_lt.mpr hmode), if_neg (fun hboth => hpage.elim hboth.1 hboth.2)]
  rcases htype with h0 | h1 | h2
  · rw [if_pos h0, if_pos h0]
    exact unicodeDecode_meets _ _ _
  · rw [if_neg (by rw [h1]; decide), if_pos h1, if_neg (by rw [h1]; decide), if_pos h1]
    exact huffmanDecode_meets wellFormed_title _ _
  · rw [if_neg (by rw [h2]; decide), if_neg (by rw [h2]; decide), if_pos h2, if_neg (by rw [h2]; decide),
      if_neg (by rw [h2]; decide)]
    exact huffmanDecode_meets wellFormed_description _ _

theorem segmentDecode_rejected (h : ¬s.Accepted) (d : Dest) : segmentDecode heap s d = some (-1, d) := by
  unfold segmentDecode
  split
  · rfl
  next hmode =>
  split
  · rfl
  next hboth =>
  have hpage : s.mode = 0 ∨ s.compressionType = 0 := by
    by_contra hneither
    exact hboth (not_or.mp hneither)
  have htype : ¬(s.compressionType = 0x00 ∨ s.compressionType = 0x01 ∨ s.compressionType = 0x02) :=
    fun hknown => h ⟨UInt8.not_lt.mp hmode, hpage, hknown⟩
  rw [if_neg (fun h0 => htype (Or.inl h0)), if_neg (fun h1 => htype (Or.inr (Or.inl h1))),
    if_neg (fun h2 => htype (Or.inr (Or.inr h2)))]

theorem decoded_lt (h : s.Accepted) : ∀ c ∈ s.decoded.1, c < 0xd800 := by
  intro c hc
  unfold Segment.decoded at hc
  split at hc
  · obtain ⟨b, -, rfl⟩ := List.mem_map.mp hc
    have hmode : s.mode.toNat ≤ 51 := UInt8.le_iff_toNat_le.mp h.1
    have hb := b.toNat_lt
    omega
  split at hc
  · exact lt_trans (text_lt _ _ _ c hc) (by decide)
  · exact lt_trans (text_lt _ _ _ c hc) (by decide)

/-- The call returns; what it returns, unless negative, is the position after the text, which has been appended; and a
segment that is decoded and finds memory gives the position. -/
def Sound (heap : Heap) (s : Segment) (d : Dest) : Prop :=
  ∃ ret d', segmentDecode heap s d = some (ret, d') ∧ d'.pos ≤ d'.buf.length ∧
    (0 ≤ ret → ret = d'.pos ∧ d'.text = d.text ++ utf8 s.decoded.1) ∧
    (s.Accepted → (appendAll heap s.decoded.1 d).isSome = true → ret = d'.pos)

/-- The position fits in an `int`; a code for the end comes at position 0; and no text is cut or lacks a tree. -/
def EndsWell (s : Segment) (d : Dest) : Prop :=
  match s.decoded.2 with
  | .done => d.pos + (utf8 s.decoded.1).length < 2 ^ 31
  | .stop => d.pos + (utf8 s.decoded.1).length = 0
  | .cut => False
  | .missing => False

theorem ret_eq_iff (d : Dest) : d.ret = d.pos ↔ d.pos < 2 ^ 31 := by
  constructor
  · intro heq
    have hlt : d.ret < 2 ^ 31 := Int.bmod_lt (x := d.pos) (m := 2 ^ 32) (by decide)
    rw [heq] at hlt
    exact_mod_cast hlt
  · intro hlt
    exact Int.bmod_eq_of_le (by omega) (by omega)

/-- **PROVED**: for every segment, buffer and memory the call keeps to the trees and the buffer and returns the position
after the text exactly if the text ends well. -/
theorem segment_decode_iff (heap : Heap) (s : Segment) (d : Dest) :
    Sound heap s d ↔ (s.Accepted → (appendAll heap s.decoded.1 d).isSome = true → EndsWell s d) := by
  by_cases hacc : s.Accepted
  · rw [imp_iff_right hacc]
    have hmeets : Meets heap d (segmentDecode heap s d) s.decoded := segmentDecode_meets hacc d
    unfold Meets at hmeets
    cases happ : appendAll heap s.decoded.1 d with
    | none =>
      rw [happ] at hmeets
      obtain ⟨d', hret⟩ := hmeets
      refine iff_of_true ⟨-1, d', hret, d'.pos_le, fun h => absurd h (by decide), ?_⟩ fun h => ?_
      · intro _ h
        rw [happ] at h
        exact absurd h Bool.false_ne_true
      · exact absurd h Bool.false_ne_true
    | some d' =>
      rw [happ] at hmeets
      obtain ⟨htext, hpos⟩ := appendAll_text (decoded_lt hacc) happ
      have hsome : (appendAll heap s.decoded.1 d).isSome = true := by
        rw [happ]
        rfl
      have hsound : ∀ ret, segmentDecode heap s d = some (ret, d') → (Sound heap s d ↔ ret = d'.pos) := by
        intro ret hret
        constructor
        · rintro ⟨ret', d1, hret', -, -, heq⟩
          cases hret.symm.trans hret'
          exact heq hacc hsome
        · intro heq
          exact ⟨ret, d', hret, d'.pos_le, fun _ => ⟨heq, htext⟩, fun _ _ => heq⟩
      rw [imp_iff_right Option.isSome_some, EndsWell, ← hpos]
      cases hend : s.decoded.2 with
      | done =>
        rw [hend] at hmeets
        exact (hsound _ hmeets).trans (ret_eq_iff d')
      | stop =>
        rw [hend] at hmeets
        refine (hsound _ hmeets).trans ?_
        rw [← Int.natCast_zero, Int.natCast_inj]
        exact eq_comm
      | cut =>
        rw [hend] at hmeets
        refine (hsound _ hmeets).trans (iff_of_false ?_ id)
        have hnonneg := Int.natCast_nonneg d'.pos
        omega
      | missing =>
        rw [hend] at hmeets
        refine iff_of_false ?_ id
        rintro ⟨ret, d1, hret, -⟩
        exact Option.some_ne_none _ (hret.symm.trans hmeets)
  · refine iff_of_true ⟨-1, d, segmentDecode_rejected hacc d, d.pos_le, fun h => absurd h (by decide), ?_⟩ ?_
    · exact fun h => absurd h hacc
    · exact fun h => absurd h hacc

end Segments

def plenty : Heap := fun _ => some fun _ => 0

def oneLetter : Segment := ⟨0x01, 0x00, [0xff, 0x40], by decide⟩

def noBuffer : Dest := ⟨[], 0, by decide⟩

/-- The position after the letter is 1, and the code returns 0. -/
theorem not_sound : ¬∀ (heap : Heap) (s : Segment) (d : Dest), Sound heap s d := by
  intro hall
  obtain ⟨ret, d', hret, -, -, heq⟩ := hall plenty oneLetter noBuffer
  have hacc : oneLetter.Accepted := ⟨by decide, by decide, by decide⟩
  have hdecoded : oneLetter.decoded = ([0x48], .stop) := by decide +kernel
  have hmeets : Meets plenty noBuffer (segmentDecode plenty oneLetter noBuffer) _ := segmentDecode_meets hacc noBuffer
  rw [hdecoded] at hmeets
  obtain ⟨d1, hd1⟩ : ∃ d1, appendAll plenty [0x48] noBuffer = some d1 := ⟨_, rfl⟩
  have hpos : d1.pos = 1 := (appendAll_text (by decide) hd1).2
  have hsome : (appendAll plenty oneLetter.decoded.1 noBuffer).isSome = true := by
    rw [hdecoded, hd1]
    rfl
  unfold Meets at hmeets
  rw [hd1] at hmeets
  have hpair : (ret, d') = (0, d1) := Option.some.inj (hret.symm.trans hmeets)
  obtain ⟨rfl, rfl⟩ := Prod.mk.inj hpair
  have hzero := heq hacc hsome
  rw [hpos] at hzero
  exact absurd hzero (by decide)

end BgtDvb.Ucsi.Text
