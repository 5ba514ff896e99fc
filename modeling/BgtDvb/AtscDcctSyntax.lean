import BgtDvb.AtscDcct
import BgtDvb.Lib.Layouts
import BgtDvb.Lib.Tlv

/-!
# The syntax of directed channel change tables

A table is made of tests, a test of terms, and every part may have descriptors; each part says how many of the next
ones it has, or how long they are.

* `accepted_of_isSection` — **PROVED**: the codec accepts every such section;
* `atscDcctSection_parts` — **PROVED**: and on what it accepts the iterators and accessors come to the parts where the
  codec swapped them.
-/

namespace BgtDvb.Ucsi.Table.Dcct

open BgtDvb.Walks
open BgtDvb.Words
open BgtDvb.Tlv

/-! ### The syntax -/

/-- Descriptors whose length fits ten bits. -/
structure Descriptors where
  items : List (List UInt8)
  isItem : ∀ item ∈ items, IsItem item
  short : items.flatten.length < 2 ^ 10

def Descriptors.bytes (ds : Descriptors) : List UInt8 := ds.items.flatten

/-- The word with `reserved` and `descriptors_length`. -/
def Descriptors.lengthWord (ds : Descriptors) (reserved : Fin 64) : List UInt8 :=
  beBytes 2 (reserved * 2 ^ 10 + ds.bytes.length)

def noDescriptors : Descriptors := ⟨[], fun _ h => absurd h List.not_mem_nil, by decide⟩

structure TermSyntax where
  selectionType : UInt8
  selectionId : UInt64
  reserved : Fin 64
  descriptors : Descriptors

def TermSyntax.header (t : TermSyntax) : List UInt8 :=
  t.selectionType :: (beBytes 8 t.selectionId.toNat ++ t.descriptors.lengthWord t.reserved)

def TermSyntax.bytes (t : TermSyntax) : List UInt8 := t.header ++ t.descriptors.bytes

/-- A test: the words of its two channels and its times, its terms and its descriptors. -/
structure TestSyntax where
  fromChannel : BitVec 24
  toChannel : BitVec 24
  startTime : UInt32
  endTime : UInt32
  terms : List TermSyntax
  terms_short : terms.length < 2 ^ 8
  reserved : Fin 64
  descriptors : Descriptors

def TestSyntax.words (t : TestSyntax) : List UInt8 :=
  beBytes 3 t.fromChannel.toNat ++ (beBytes 3 t.toChannel.toNat ++
    (beBytes 4 t.startTime.toNat ++ beBytes 4 t.endTime.toNat))

def TestSyntax.bytes (t : TestSyntax) : List UInt8 :=
  t.words ++ (UInt8.ofNat t.terms.length :: (t.terms.flatMap TermSyntax.bytes ++
    (t.descriptors.lengthWord t.reserved ++ t.descriptors.bytes)))

structure DcctSyntax where
  protocolVersion : UInt8
  tests : List TestSyntax
  tests_short : tests.length < 2 ^ 8
  reserved : Fin 64
  descriptors : Descriptors

/-- What stands between `struct section_ext` and the CRC. -/
def DcctSyntax.bytes (d : DcctSyntax) : List UInt8 :=
  d.protocolVersion :: UInt8.ofNat d.tests.length :: (d.tests.flatMap TestSyntax.bytes ++
    (d.descriptors.lengthWord d.reserved ++ d.descriptors.bytes))

/-- A section that holds a table, as `section_ext_decode` leaves it. -/
structure IsSection (order : ByteOrder) (d : DcctSyntax) (buf : List UInt8) : Prop where
  length_eq : buf.length = lengthField order buf + 3
  parts : ∃ head crc, head.length = 8 ∧ crc.length = 4 ∧ buf = head ++ (d.bytes ++ crc)

/-! ### It is accepted -/

variable {order : ByteOrder}

variable {buf : List UInt8} {a : ℕ}

theorem drop_of_cons (h : buf.drop a = b :: rest) : buf.drop (a + 1) = rest := by
  rw [← List.drop_drop, h, List.drop_succ_cons, List.drop_zero]

theorem descriptor_of_drop {item : List UInt8} (h : IsItem item) (hdrop : buf.drop a = item ++ rest) :
    ∃ x, Descriptor buf a (a + item.length) x := by
  obtain ⟨tag, len, payload, rfl, hlen⟩ := h
  have hbyte : be buf (a + 1) 1 = len.toNat := by
    rw [be, slice_of_drop hdrop]
    exact beNat_single len
  refine ⟨a, rfl, ?_⟩
  rw [hbyte, ← hlen, List.length_cons, List.length_cons]
  omega

variable (ds : Descriptors)

theorem Descriptors.tiles_of_drop (hdrop : buf.drop a = ds.bytes ++ rest) :
    ∃ xs, Tiles (Descriptor buf) a (a + ds.bytes.length) xs := by
  have hflat : ds.bytes = ds.items.flatMap id := List.flatMap_id.symm
  rw [hflat] at hdrop ⊢
  obtain ⟨xs, -, hxs⟩ := Walks.tiles_of_drop (fun item hitem {buf a rest} h => descriptor_of_drop (ds.isItem item hitem) h)
    hdrop
  exact ⟨xs, hxs⟩

/-- **The iterators over descriptors** come to the items where they stand, one after another. -/
theorem Descriptors.iterated (h : slice buf a ds.bytes.length = ds.bytes) :
    ∃ qs, ForEach (fun q _ => nextDescriptor buf a ds.bytes.length q) 0 (descriptorsFirst a ds.bytes.length) qs
      ∧ List.Forall₂ (fun q item => slice buf q item.length = item) qs ds.items := by
  have hdrop : buf.drop a = ds.bytes ++ (buf.drop a).drop ds.bytes.length := by
    conv_lhs => rw [← List.take_append_drop ds.bytes.length (buf.drop a)]
    exact congrArg (· ++ _) h
  have hflat : ds.bytes = ds.items.flatMap id := List.flatMap_id.symm
  rw [hflat] at hdrop ⊢
  obtain ⟨qs, hqs, hall⟩ := (tiles_written id hdrop).matched (S := Descriptor buf)
    (Q := fun q item => slice buf q item.length = item) fun i j item hitem hwritten => by
      obtain ⟨rfl, rest, hrest⟩ := hwritten
      obtain ⟨q, hq⟩ := descriptor_of_drop (ds.isItem item hitem) hrest
      refine ⟨q, hq, ?_⟩
      rw [hq.1, slice, hrest]
      exact List.take_left
  exact ⟨qs, forEach_descriptors hqs, hall⟩

theorem Descriptors.lengthWord_value (reserved : Fin 64) :
    beNat (ds.lengthWord reserved) % 2 ^ 10 = ds.bytes.length := by
  have hshort : ds.bytes.length < 2 ^ 10 := ds.short
  have hreserved := reserved.isLt
  rw [Descriptors.lengthWord, beNat_beBytes (by omega)]
  omega

theorem blockAt_of_drop {h : Header} (hsize : header.length = h.size) (hinside : h.lengthAt.1 + h.lengthAt.2 ≤ h.size)
    {ds : Descriptors}
    (hlength : beNat ((header.drop h.lengthAt.1).take h.lengthAt.2) % 2 ^ h.lengthBits = ds.bytes.length)
    (hdrop : buf.drop a = (header ++ ds.bytes) ++ rest) : ∃ x, BlockAt h buf a (a + (header ++ ds.bytes).length) x := by
  rw [List.append_assoc] at hdrop
  have hblock : blockLength h buf a = ds.bytes.length := by
    rw [blockLength, be, slice_of_drop hdrop, ← hlength, List.drop_append_of_le_length (by omega),
      List.take_append_of_le_length (by rw [List.length_drop]; omega)]
  obtain ⟨xs, hxs⟩ := ds.tiles_of_drop (drop_of_append hdrop)
  refine ⟨⟨a, xs⟩, rfl, ?_, ?_⟩
  · rw [hblock, List.length_append, hsize, Nat.add_assoc]
  · rw [hsize] at hxs
    rw [List.length_append, hsize, ← Nat.add_assoc]
    exact hxs

theorem Descriptors.length_lengthWord (reserved : Fin 64) : (ds.lengthWord reserved).length = 2 :=
  length_beBytes 2 _

theorem TermSyntax.length_header (t : TermSyntax) : t.header.length = 11 := by
  rw [TermSyntax.header, List.length_cons, List.length_append, length_beBytes, Descriptors.length_lengthWord]

theorem TestSyntax.length_words (t : TestSyntax) : t.words.length = 14 := by
  rw [TestSyntax.words, List.length_append, List.length_append, List.length_append, length_beBytes, length_beBytes,
    length_beBytes, length_beBytes]

theorem TermSyntax.at_of_drop (t : TermSyntax) (hdrop : buf.drop a = t.bytes ++ rest) :
    ∃ x, BlockAt termHeader buf a (a + t.bytes.length) x := by
  refine blockAt_of_drop t.length_header (by decide) ?_ hdrop
  have hword : (t.header.drop 9).take 2 = t.descriptors.lengthWord t.reserved := by
    have hfront : t.header.drop 9 = t.descriptors.lengthWord t.reserved := by
      rw [TermSyntax.header, List.drop_succ_cons]
      exact List.drop_left' (length_beBytes 8 _)
    rw [hfront]
    exact List.take_of_length_le (Descriptors.length_lengthWord _ _).le
  exact (congrArg (fun w => beNat w % 2 ^ 10) hword).trans (t.descriptors.lengthWord_value t.reserved)

theorem Descriptors.part2_of_drop (reserved : Fin 64)
    (hdrop : buf.drop a = (ds.lengthWord reserved ++ ds.bytes) ++ rest) :
    ∃ x, BlockAt part2Header buf a (a + (ds.lengthWord reserved ++ ds.bytes).length) x := by
  refine blockAt_of_drop (ds.length_lengthWord reserved) (by decide) ?_ hdrop
  have hword : ((ds.lengthWord reserved).drop 0).take 2 = ds.lengthWord reserved :=
    List.take_of_length_le (ds.length_lengthWord reserved).le
  exact (congrArg (fun w => beNat w % 2 ^ 10) hword).trans (ds.lengthWord_value reserved)

theorem be_of_drop {m : ℕ} (hm : m < 2 ^ 8) (hdrop : buf.drop a = UInt8.ofNat m :: rest) : be buf a 1 = m := by
  have hslice : slice buf a 1 = [UInt8.ofNat m] := by rw [slice, hdrop, List.take_succ_cons, List.take_zero]
  rw [be, hslice, beNat_single, UInt8.toNat_ofNat']
  exact Nat.mod_eq_of_lt hm

theorem TestSyntax.at_of_drop (t : TestSyntax) (hdrop : buf.drop a = t.bytes ++ rest) :
    ∃ x, TestAt buf a (a + t.bytes.length) x := by
  rw [TestSyntax.bytes, List.append_assoc] at hdrop
  have hcountDrop := drop_of_append hdrop
  rw [t.length_words, List.cons_append] at hcountDrop
  have hbehind := drop_of_cons hcountDrop
  rw [List.append_assoc] at hbehind
  obtain ⟨terms, hlength, hterms⟩ :=
    Walks.tiles_of_drop (fun term _ {buf a rest} h => TermSyntax.at_of_drop term h) hbehind
  obtain ⟨part2, hpart2⟩ := t.descriptors.part2_of_drop t.reserved (drop_of_append hbehind)
  refine ⟨⟨a, terms, part2⟩, rfl, ?_, _, hterms, ?_⟩
  · rw [hlength, be_of_drop t.terms_short hcountDrop]
  · have hend : a + t.bytes.length = a + 15 + (t.terms.flatMap TermSyntax.bytes).length +
        (t.descriptors.lengthWord t.reserved ++ t.descriptors.bytes).length := by
      rw [TestSyntax.bytes, List.length_append, t.length_words, List.length_cons, List.length_append]
      omega
    rw [hend]
    exact hpart2

theorem dcctAt_of_isSection (h : IsSection order d buf) : ∃ p, DcctAt buf (buf.length - 4) p := by
  obtain ⟨head, crc, hhead, hcrc, hbuf⟩ := h.parts
  have hdrop : buf.drop 8 = d.bytes ++ crc := by rw [hbuf, ← hhead, List.drop_left]
  rw [DcctSyntax.bytes, List.cons_append, List.cons_append] at hdrop
  have hcountDrop := drop_of_cons hdrop
  have hbehind := drop_of_cons hcountDrop
  rw [List.append_assoc] at hbehind
  obtain ⟨tests, hlength, htests⟩ :=
    Walks.tiles_of_drop (fun test _ {buf a rest} h => TestSyntax.at_of_drop test h) hbehind
  obtain ⟨part2, hpart2⟩ := d.descriptors.part2_of_drop d.reserved (drop_of_append hbehind)
  refine ⟨⟨tests, part2⟩, ?_, _, htests, ?_⟩
  · rw [hlength, be_of_drop d.tests_short hcountDrop]
  · have hend : buf.length - 4 = 10 + (d.tests.flatMap TestSyntax.bytes).length +
        (d.descriptors.lengthWord d.reserved ++ d.descriptors.bytes).length := by
      rw [hbuf, List.length_append, List.length_append, hhead, hcrc, DcctSyntax.bytes, List.length_cons,
        List.length_cons, List.length_append]
      omega
    rw [hend]
    exact hpart2

theorem IsSection.whole {d : DcctSyntax} {buf : List UInt8} (h : IsSection order d buf) : Whole order buf := by
  obtain ⟨head, crc, hhead, hcrc, hbuf⟩ := h.parts
  have hlen : buf.length = 8 + (d.bytes.length + 4) := by
    rw [hbuf, List.length_append, List.length_append, hhead, hcrc]
  have hlength := h.length_eq
  exact ⟨hlength, by omega⟩

theorem accepted_of_isSection (h : IsSection order d buf) :
    ∃ buf', (atscDcctSectionCodec order).run buf = .ok ((), buf') := by
  obtain ⟨p, hp⟩ := dcctAt_of_isSection h
  exact ⟨swappedParts order p buf, (atscDcctSectionCodec_ok_iff h.whole).mpr ⟨p, hp, rfl⟩⟩

/-- **Directed channel change tables.**  In a section that the codec accepts it has checked and swapped the tests,
terms and descriptors of a table that ends at the CRC, and iterators and accessors come to just these; and it accepts
every section written by the syntax. -/
theorem atscDcctSection_parts (order : ByteOrder) (buf : List UInt8) :
    (Whole order buf → ∀ buf', (atscDcctSectionCodec order).run buf = .ok ((), buf') →
      ∃ p, DcctAt buf (buf.length - 4) p ∧ buf' = swappedParts order p buf
        ∧ PartsIterated order buf buf' (buf.length - 4) p)
      ∧ ∀ d, IsSection order d buf → ∃ buf', (atscDcctSectionCodec order).run buf = .ok ((), buf') := by
  refine ⟨fun h buf' hrun => ?_, fun d hd => accepted_of_isSection hd⟩
  obtain ⟨p, hp, hbuf'⟩ := (atscDcctSectionCodec_ok_iff h).mp hrun
  have hswapped : buf' = swappedParts order p buf := hbuf'
  subst hswapped
  exact ⟨p, hp, rfl, partsIterated hp⟩

/-- A table with one test of one term, as `section_ext_decode` leaves it on a little-endian host. -/
def oneTerm : List UInt8 :=
  [0xd3, 0x2e, 0xf0, 0x01, 0x00, 0xc1, 0x00, 0x00, 0x00, 0x01, 0xf0, 0x04, 0x01, 0xf0, 0x08, 0x02, 0x3a, 0x00, 0x00,
    0x00, 0x3a, 0x00, 0x0e, 0x10, 0x01, 0x01, 0x00, 0x00, 0x00, 0x00, 0x00, 0x00, 0x00, 0x21, 0xfc, 0x03, 0x52, 0x01,
    0x07, 0xfc, 0x02, 0x40, 0x00, 0xfc, 0x00, 0xaa, 0xbb, 0xcc, 0xdd]

def oneTermSwapped : List UInt8 :=
  [0xd3, 0x2e, 0xf0, 0x01, 0x00, 0xc1, 0x00, 0x00, 0x00, 0x01, 0x01, 0x04, 0xf0, 0x02, 0x08, 0xf0, 0x00, 0x00, 0x00,
    0x3a, 0x10, 0x0e, 0x00, 0x3a, 0x01, 0x01, 0x21, 0x00, 0x00, 0x00, 0x00, 0x00, 0x00, 0x00, 0x03, 0xfc, 0x52, 0x01,
    0x07, 0x02, 0xfc, 0x40, 0x00, 0x00, 0xfc, 0xaa, 0xbb, 0xcc, 0xdd]

theorem atscDcctSection_parts_oneTerm :
    ∃ p, DcctAt oneTerm 45 p ∧ oneTermSwapped = swappedParts .little p oneTerm
      ∧ PartsIterated .little oneTerm oneTermSwapped 45 p :=
  (atscDcctSection_parts .little oneTerm).1 ⟨by decide, by decide⟩ oneTermSwapped (by decide +kernel)

end BgtDvb.Ucsi.Table.Dcct
