import BgtDvb.SectionWalk

/-!
# Directed channel change tables

`atsc_dcct_section_codec` of `libucsi/atsc/dcct_section.c`, and the iterators and part accessors of its header: tests
with terms with descriptors, each part behind all the earlier ones.

* `atscDcctSectionCodec_ok_iff` — **PROVED**: the codec accepts exactly these sections, and swaps the words of their
  parts;
* `dcctIterated` — **PROVED**: the iterators and accessors come to these parts.
-/

namespace BgtDvb.Ucsi.Table.Dcct

open BgtDvb.Walks
open BgtDvb.Words

/-! ### The codec -/

/-- The words of `struct atsc_dcct_test`. -/
def testFields : List (ℕ × ℕ) := [(0, 3), (3, 3), (6, 4), (10, 4)]

/-- `struct atsc_dcct_term` -/
def termHeader : Header := ⟨11, [(1, 8), (9, 2)], (9, 2), 10⟩

/-- `struct atsc_dcct_test_part2` and `struct atsc_dcct_section_part2` -/
def part2Header : Header := ⟨2, [(0, 2)], (0, 2), 10⟩

theorem termHeader_wf : termHeader.Wf := ⟨by decide, by decide, by decide⟩

theorem part2Header_wf : part2Header.Wf := ⟨by decide, by decide, by decide⟩

def test (order : ByteOrder) (len pos : ℕ) : Walk ℕ := do
  require (pos + 15 ≤ len)
  bswapAll order pos testFields
  let dccTermCount ← read (pos + 14) 1
  let pos ← times (block order termHeader len) (beNat dccTermCount) (pos + 15)
  block order part2Header len pos

/-- `atsc_dcct_section_codec`; the counts lie outside the words that the loops swap. -/
def atscDcctSectionCodec (order : ByteOrder) : Walk Unit := do
  let len ← sectionExtLength order
  require (10 ≤ len)
  let dccTestCount ← read 9 1
  let pos ← times (test order len) (beNat dccTestCount) 10
  let pos ← block order part2Header len pos
  require (pos = len)

/-! ### The iterators and accessors -/

section Iterators

variable (order : ByteOrder) (buf : List UInt8)

def dccTestCount : ℕ := be buf 9 1

def dccTermCount (test : ℕ) : ℕ := be buf (test + 14) 1

/-- `descriptors_length` of a term. -/
def termLength (term : ℕ) : ℕ := host order buf (term + 9) 2 % 2 ^ 10

/-- `descriptors_length` of a second part. -/
def part2Length (part2 : ℕ) : ℕ := host order buf part2 2 % 2 ^ 10

/-- `atsc_dcct_test_terms_first` -/
def termsFirst (test : ℕ) : Option ℕ := if dccTermCount buf test = 0 then none else some (test + 15)

/-- `atsc_dcct_test_terms_next` -/
def termsNext (test pos idx : ℕ) : Option ℕ :=
  if dccTermCount buf test ≤ idx then none else some (pos + 11 + termLength order buf pos)

/-- `atsc_dcct_test_terms_for_each`; a byte counts the terms. -/
def terms (test : ℕ) : List ℕ := forEachList (termsNext order buf test) 256 0 (termsFirst buf test)

/-- `atsc_dcct_test_part2` -/
def testPart2 (test : ℕ) : ℕ :=
  test + (terms order buf test).foldl (fun pos term => pos + 11 + termLength order buf term) 15

/-- `atsc_dcct_section_tests_first` -/
def testsFirst : Option ℕ := if dccTestCount buf = 0 then none else some 10

/-- `atsc_dcct_section_tests_next` -/
def testsNext (pos idx : ℕ) : Option ℕ :=
  if dccTestCount buf ≤ idx then none
  else some (testPart2 order buf pos + 2 + part2Length order buf (testPart2 order buf pos))

/-- `atsc_dcct_section_tests_for_each`; a byte counts the tests. -/
def tests : List ℕ := forEachList (testsNext order buf) 256 0 (testsFirst buf)

/-- `atsc_dcct_section_part2` -/
def sectionPart2 : ℕ :=
  (tests order buf).foldl
    (fun pos test => pos + (testPart2 order buf test - test) + 2 + part2Length order buf (testPart2 order buf test)) 10

/-- `atsc_dcct_term_descriptors_first` -/
def termDescriptorsFirst (term : ℕ) : Option ℕ := descriptorsFirst (term + 11) (termLength order buf term)

/-- `atsc_dcct_term_descriptors_next` -/
def termDescriptorsNext (term pos : ℕ) : Option ℕ := nextDescriptor buf (term + 11) (termLength order buf term) pos

/-- `atsc_dcct_test_part2_descriptors_first` and `atsc_dcct_section_part2_descriptors_first` -/
def part2DescriptorsFirst (part2 : ℕ) : Option ℕ := descriptorsFirst (part2 + 2) (part2Length order buf part2)

/-- `atsc_dcct_test_part2_descriptors_next` and `atsc_dcct_section_part2_descriptors_next` -/
def part2DescriptorsNext (part2 pos : ℕ) : Option ℕ :=
  nextDescriptor buf (part2 + 2) (part2Length order buf part2) pos

end Iterators

/-! ### Where the parts stand -/

/-- A test, by its position. -/
structure Test where
  pos : ℕ
  terms : List Block
  part2 : Block
  deriving DecidableEq, Repr

/-- The parts of a table. -/
structure Parts where
  tests : List Test
  part2 : Block
  deriving DecidableEq, Repr

/-- A test with its terms, as many as it says, and its second part. -/
structure TestAt (buf : List UInt8) (a b : ℕ) (x : Test) : Prop where
  pos_eq : x.pos = a
  count_eq : x.terms.length = be buf (a + 14) 1
  parts : ∃ mid, Tiles (BlockAt termHeader buf) (a + 15) mid x.terms ∧ BlockAt part2Header buf mid b x.part2

/-- A table, between the header of a section and its CRC. -/
structure DcctAt (buf : List UInt8) (stop : ℕ) (p : Parts) : Prop where
  count_eq : p.tests.length = be buf 9 1
  parts : ∃ mid, Tiles (TestAt buf) 10 mid p.tests ∧ BlockAt part2Header buf mid stop p.part2

def swappedTest (order : ByteOrder) (x : Test) (buf : List UInt8) : List UInt8 :=
  swapped order (x.part2.fields part2Header)
    (effects (fun t => swapped order (t.fields termHeader)) x.terms (swapped order (shift x.pos testFields) buf))

def swappedParts (order : ByteOrder) (p : Parts) (buf : List UInt8) : List UInt8 :=
  swapped order (p.part2.fields part2Header) (effects (swappedTest order) p.tests buf)

variable {order : ByteOrder}

theorem testFields_apart : Apart 0 14 testFields := by decide

variable {buf : List UInt8} {x : Test} {a : ℕ}

theorem swapped_testFields (order : ByteOrder) {pos : ℕ} (h : pos + 14 ≤ buf.length) :
    (swapped order (shift pos testFields) buf).length = buf.length
      ∧ (swapped order (shift pos testFields) buf).take pos = buf.take pos
      ∧ (swapped order (shift pos testFields) buf).drop (pos + 14) = buf.drop (pos + 14) :=
  swapped_keeps order (apart_shift pos testFields_apart) h

theorem swappedTest_keeps (order : ByteOrder) (hb : b ≤ buf.length) (hx : TestAt buf a b x) :
    (swappedTest order x buf).length = buf.length ∧ (swappedTest order x buf).take a = buf.take a
      ∧ (swappedTest order x buf).drop b = buf.drop b := by
  obtain ⟨mid, hterms, hpart2⟩ := hx.parts
  have hterm := takes_block order termHeader_wf hb
  have hmid : a + 15 ≤ mid := blocks_le termHeader_wf hterms
  have hend : mid < b := (blockAt_lt part2Header_wf hpart2).2
  obtain ⟨hlen₁, htake₁, hdrop₁⟩ := swapped_testFields order (show a + 14 ≤ buf.length by omega)
  have hterms₁ := blocks_ahead termHeader_wf (drop_eq_of_le hdrop₁ (Nat.le_succ (a + 14))).symm hterms
  obtain ⟨hlen₂, htake₂, hdrop₂⟩ := hterm.effects_keeps hlen₁ hend.le hterms₁
  have hmidDrop := hdrop₂.trans (drop_eq_of_le hdrop₁ (by omega : a + 14 ≤ mid))
  have hpart2₂ := blockAt_ahead part2Header_wf hmidDrop.symm hpart2
  obtain ⟨hlen₃, htake₃, hdrop₃⟩ := (takes_block order part2Header_wf hb).keeps hlen₂ le_rfl hpart2₂
  rw [swappedTest, hx.pos_eq]
  refine ⟨hlen₃, ?_, ?_⟩
  · exact ((take_eq_of_le htake₃ (by omega)).trans (take_eq_of_le htake₂ (by omega))).trans htake₁
  · exact hdrop₃.trans (drop_eq_of_le hmidDrop hend.le)

/-- **One round of the loop** takes a test exactly where one stands. -/
theorem test_ok_iff {len pos : ℕ} (hlen : len ≤ buf.length) {r : ℕ × List UInt8} :
    (test order len pos).run buf = .ok r ↔ r.1 ≤ len ∧ ∃ x, TestAt buf pos r.1 x ∧ r.2 = swappedTest order x buf := by
  have hterm := takes_block order termHeader_wf hlen
  rw [test, require_bind_ok_iff]
  constructor
  · rintro ⟨hroom, hrest⟩
    have hfields : pos + 14 ≤ buf.length := by omega
    obtain ⟨hlen₁, -, hdrop₁⟩ := swapped_testFields order hfields
    rw [run_bind_ok (bswapAll_run testFields_apart hfields)] at hrest
    obtain ⟨-, hrest⟩ := read_bind_ok_iff.mp hrest
    obtain ⟨mid, buf₂, hterms, hpart2⟩ := bind_ok_iff.mp hrest
    obtain ⟨hmid, hlen₂⟩ := hterm.times_onward _ hlen₁ hterms
    obtain ⟨hstop, part2, hpart2At, hr⟩ := (block_ok_iff part2Header_wf (hlen₂.symm ▸ hlen)).mp hpart2
    have hend : mid < r.1 := (blockAt_lt part2Header_wf hpart2At).2
    obtain ⟨ts, hcount, htsAt, hbuf₂⟩ := (hterm.times_iff _ hlen₁ (hend.le.trans hstop)).mp hterms
    dsimp only at hmid hbuf₂ htsAt
    obtain ⟨-, -, hdrop₂⟩ := hterm.effects_keeps hlen₁ (hend.le.trans hstop) htsAt
    rw [← hbuf₂] at hdrop₂
    have hcut := hdrop₂.trans (drop_eq_of_le hdrop₁ (by omega : pos + 14 ≤ mid))
    refine ⟨hstop, ⟨pos, ts, part2⟩, ⟨rfl, ?_, mid, ?_, ?_⟩, ?_⟩
    · rw [hcount]
      exact congrArg beNat (slice_eq_of_drop hdrop₁ le_rfl)
    · exact blocks_ahead termHeader_wf (drop_eq_of_le hdrop₁ (Nat.le_succ (pos + 14))) htsAt
    · exact blockAt_ahead part2Header_wf hcut hpart2At
    · rw [hr, hbuf₂, swappedTest]
  · rintro ⟨hstop, x, hx, hr⟩
    obtain ⟨mid, hterms, hpart2⟩ := hx.parts
    have hmid : pos + 15 ≤ mid := blocks_le termHeader_wf hterms
    have hend : mid < r.1 := (blockAt_lt part2Header_wf hpart2).2
    have hfields : pos + 14 ≤ buf.length := by omega
    have hcountRoom : pos + 14 + 1 ≤ buf.length := by omega
    obtain ⟨hlen₁, -, hdrop₁⟩ := swapped_testFields order hfields
    have hterms₁ := blocks_ahead termHeader_wf (drop_eq_of_le hdrop₁ (Nat.le_succ (pos + 14))).symm hterms
    obtain ⟨hlen₂, -, hdrop₂⟩ := hterm.effects_keeps hlen₁ (hend.le.trans hstop) hterms₁
    have hcut := hdrop₂.trans (drop_eq_of_le hdrop₁ (by omega : pos + 14 ≤ mid))
    have hpart2₂ := blockAt_ahead part2Header_wf hcut.symm hpart2
    have hcount : x.terms.length = beNat (slice (swapped order (shift pos testFields) buf) (pos + 14) 1) := by
      rw [hx.count_eq]
      exact congrArg beNat (slice_eq_of_drop hdrop₁ le_rfl).symm
    refine ⟨by omega, ?_⟩
    rw [run_bind_ok (bswapAll_run testFields_apart hfields),
      run_bind_ok (read_ok_iff.mpr ⟨hlen₁.symm ▸ hcountRoom, rfl⟩),
      run_bind_ok ((hterm.times_iff _ hlen₁ (hend.le.trans hstop)).mpr ⟨x.terms, hcount, hterms₁, rfl⟩)]
    refine (block_ok_iff part2Header_wf (hlen₂.symm ▸ hlen)).mpr ⟨hstop, x.part2, hpart2₂, ?_⟩
    rw [hr, swappedTest, hx.pos_eq]
    rfl

theorem TestAt.lt (hx : TestAt buf a b x) : a + 15 < b := by
  obtain ⟨mid, hterms, hpart2⟩ := hx.parts
  exact lt_of_le_of_lt (blocks_le termHeader_wf hterms) (blockAt_lt part2Header_wf hpart2).2

theorem testAt_ahead (hdrop : buf.drop a = buf'.drop a) (hx : TestAt buf a b x) : TestAt buf' a b x := by
  obtain ⟨mid, hterms, hpart2⟩ := hx.parts
  have hmid : a + 15 ≤ mid := blocks_le termHeader_wf hterms
  have hcount : be buf (a + 14) 1 = be buf' (a + 14) 1 := congrArg beNat (slice_eq_of_drop hdrop (Nat.le_add_right a 14))
  refine ⟨hx.pos_eq, hx.count_eq.trans hcount, mid, ?_, ?_⟩
  · exact blocks_ahead termHeader_wf (drop_eq_of_le hdrop (Nat.le_add_right a 15)) hterms
  · exact blockAt_ahead part2Header_wf (drop_eq_of_le hdrop (by omega)) hpart2

theorem takes_test (order : ByteOrder) {len : ℕ} (hlen : len ≤ n) :
    Takes n len (test order len) TestAt (swappedTest order) where
  run {buf} hbuf {pos r} hr := by
    rw [test_ok_iff (hbuf.symm ▸ hlen)]
    exact and_iff_right hr
  onward {buf} hbuf {pos r} hr := by
    obtain ⟨hstop, x, hx, hbuf'⟩ := (test_ok_iff (hbuf.symm ▸ hlen)).mp hr
    have hlt := hx.lt
    rw [hbuf']
    exact ⟨by omega, (swappedTest_keeps order (hbuf.symm ▸ hstop.trans hlen) hx).1.trans hbuf⟩
  forward {buf a b x} hx := by
    have hlt := hx.lt
    omega
  ahead hdrop hx := testAt_ahead hdrop hx
  keeps {buf a b x} hbuf hb hx := by
    obtain ⟨hkept, htake, hdrop⟩ := swappedTest_keeps order (hbuf.symm ▸ hb.trans hlen) hx
    exact ⟨hkept.trans hbuf, htake, hdrop⟩

theorem atscDcctSectionCodec_ok_iff (h : Whole order buf) :
    (atscDcctSectionCodec order).run buf = .ok r ↔
      ∃ p, DcctAt buf (buf.length - 4) p ∧ r.2 = swappedParts order p buf := by
  have hstop : buf.length - 4 ≤ buf.length := Nat.sub_le _ _
  have htest := takes_test order hstop
  rw [atscDcctSectionCodec, run_bind_ok h.sectionExtLength_run, require_bind_ok_iff]
  constructor
  · rintro ⟨-, hrest⟩
    obtain ⟨-, hrest⟩ := read_bind_ok_iff.mp hrest
    obtain ⟨mid, buf₁, htests, hrest⟩ := bind_ok_iff.mp hrest
    obtain ⟨pos, buf₂, hpart2, hrequire⟩ := bind_ok_iff.mp hrest
    obtain ⟨rfl, rfl⟩ := require_ok_iff.mp hrequire
    have hlen₁ : buf₁.length = buf.length := (htest.times_onward _ rfl htests).2
    obtain ⟨-, part2, hpart2At, hr⟩ := (block_ok_iff part2Header_wf (hlen₁.symm ▸ hstop)).mp hpart2
    have hend : mid < buf.length - 4 := (blockAt_lt part2Header_wf hpart2At).2
    obtain ⟨ts, hcount, htsAt, hbuf₁⟩ := (htest.times_iff _ rfl hend.le).mp htests
    dsimp only at htsAt hbuf₁ hr
    obtain ⟨-, -, hdrop⟩ := htest.effects_keeps rfl hend.le htsAt
    rw [← hbuf₁] at hdrop
    refine ⟨⟨ts, part2⟩, ⟨hcount, mid, htsAt, blockAt_ahead part2Header_wf hdrop hpart2At⟩, ?_⟩
    rw [hr, hbuf₁, swappedParts]
  · rintro ⟨p, hp, hr⟩
    obtain ⟨mid, htests, hpart2⟩ := hp.parts
    have hmid : 10 ≤ mid := htest.tiles_le htests
    have hend : mid < buf.length - 4 := (blockAt_lt part2Header_wf hpart2).2
    obtain ⟨hlen₁, -, hdrop⟩ := htest.effects_keeps rfl hend.le htests
    have hpart2₁ := blockAt_ahead part2Header_wf hdrop.symm hpart2
    refine ⟨by omega, ?_⟩
    have hcountRoom : 9 + 1 ≤ buf.length := by omega
    have hcount : p.tests.length = beNat (slice buf 9 1) := hp.count_eq
    have hlast : (block order part2Header (buf.length - 4) mid).run (effects (swappedTest order) p.tests buf) =
        .ok (buf.length - 4, swappedParts order p buf) :=
      (block_ok_iff part2Header_wf (hlen₁.symm ▸ hstop)).mpr ⟨le_rfl, p.part2, hpart2₁, rfl⟩
    have hloop : (times (test order (buf.length - 4)) (beNat (slice buf 9 1)) 10).run buf =
        .ok (mid, effects (swappedTest order) p.tests buf) :=
      (htest.times_iff _ rfl hend.le).mpr ⟨p.tests, hcount, htests, rfl⟩
    rw [run_bind_ok (read_ok_iff.mpr ⟨hcountRoom, rfl⟩), run_bind_ok hloop, run_bind_ok hlast]
    exact require_ok_iff.mpr ⟨rfl, Prod.ext rfl hr⟩

/-! ### A section that has been swapped -/

/-- A test when its words have been swapped, and the bytes that were sent. -/
structure TestDone (order : ByteOrder) (sent buf : List UInt8) (a b : ℕ) (x : Test) : Prop where
  pos_eq : x.pos = a
  count_eq : x.terms.length = dccTermCount buf a
  count_sent : dccTermCount buf a = be sent (a + 14) 1
  fields : ∀ f ∈ testFields, host order buf (a + f.1) f.2 = be sent (a + f.1) f.2
  parts : ∃ mid, Tiles (BlockDone order termHeader sent buf) (a + 15) mid x.terms
    ∧ BlockDone order part2Header sent buf mid b x.part2

theorem testDone_of_testAt (hb : b ≤ buf.length) (hsent : buf.drop a = sent.drop a) (hx : TestAt buf a b x) :
    TestDone order sent (swappedTest order x buf) a b x := by
  obtain ⟨mid, hterms, hpart2⟩ := hx.parts
  have hterm := takes_block order termHeader_wf hb
  have hmid : a + 15 ≤ mid := blocks_le termHeader_wf hterms
  have hend : mid < b := (blockAt_lt part2Header_wf hpart2).2
  have hfields : a + 14 ≤ buf.length := by omega
  obtain ⟨hlen₁, -, hdrop₁⟩ := swapped_testFields order hfields
  have hbehind := drop_eq_of_le hdrop₁ (Nat.le_succ (a + 14))
  have hterms₁ := blocks_ahead termHeader_wf hbehind.symm hterms
  obtain ⟨hlen₂, htake₂, hdrop₂⟩ := hterm.effects_keeps hlen₁ hend.le hterms₁
  have hcut := hdrop₂.trans (drop_eq_of_le hdrop₁ (by omega : a + 14 ≤ mid))
  have hpart2₂ := blockAt_ahead part2Header_wf hcut.symm hpart2
  obtain ⟨-, htake₃, -⟩ := (takes_block order part2Header_wf hb).keeps hlen₂ le_rfl hpart2₂
  have hswapped : swappedTest order x buf = swapped order (x.part2.fields part2Header)
      (effects (fun t => swapped order (t.fields termHeader)) x.terms (swapped order (shift a testFields) buf)) := by
    rw [swappedTest, hx.pos_eq]
  have hlast := htake₃
  rw [← hswapped] at hlast
  have hfront : (swappedTest order x buf).take (a + 15) = (swapped order (shift a testFields) buf).take (a + 15) :=
    (take_eq_of_le hlast hmid).trans htake₂
  have hcount : dccTermCount (swappedTest order x buf) a = be buf (a + 14) 1 :=
    congrArg beNat ((slice_eq_of_take hfront (by omega : a + 14 + 1 ≤ a + 15)).trans (slice_eq_of_drop hdrop₁ le_rfl))
  refine ⟨hx.pos_eq, hx.count_eq.trans hcount.symm, ?_, fun f hf => ?_, mid, ?_, ?_⟩
  · exact hcount.trans (congrArg beNat (slice_eq_of_drop hsent (Nat.le_add_right a 14)))
  · have hmem := (testFields_apart.mem hf).2
    have hhost : host order (swapped order (shift a testFields) buf) (a + f.1) f.2 = be buf (a + f.1) f.2 :=
      host_swapped (apart_shift a testFields_apart) hfields
        (List.mem_map.mpr ⟨f, hf, rfl⟩ : (a + f.1, f.2) ∈ shift a testFields)
    have hsame := congrArg (value order) (slice_eq_of_take hfront (by omega : a + f.1 + f.2 ≤ a + 15))
    exact (hsame.trans hhost).trans (congrArg beNat (slice_eq_of_drop hsent (Nat.le_add_right a _)))
  · have hcut₁ := hbehind.trans (drop_eq_of_le hsent (Nat.le_add_right a 15))
    exact blocksDone_sameOn termHeader_wf (sameOn_of_take hlast.symm)
      (blocksDone termHeader_wf hb hlen₁ hend.le hcut₁ hterms₁)
  · rw [hswapped]
    exact blockDone_of_blockAt part2Header_wf (hlen₂.symm ▸ hb)
      (hcut.trans (drop_eq_of_le hsent (by omega))) hpart2₂

theorem testDone_sameOn (hsame : SameOn a b buf buf') (hx : TestDone order sent buf a b x) :
    TestDone order sent buf' a b x := by
  obtain ⟨mid, hterms, hpart2⟩ := hx.parts
  have hmid : a + 15 ≤ mid := by
    refine (hterms.mono (fun _ _ _ _ _ h => h) fun i j t ht => ?_).1
    have hend := ht.stop_eq
    omega
  have hend := hpart2.stop_eq
  have hcount : dccTermCount buf a = dccTermCount buf' a :=
    be_eq_of_sameOn hsame (Nat.le_add_right a 14) (by omega)
  refine ⟨hx.pos_eq, hx.count_eq.trans hcount, hcount.symm.trans hx.count_sent, fun f hf => ?_, mid, ?_, ?_⟩
  · have hmem := (testFields_apart.mem hf).2
    rw [← host_eq_of_sameOn hsame (Nat.le_add_right a f.1) (by omega)]
    exact hx.fields f hf
  · exact blocksDone_sameOn termHeader_wf (hsame.mono (Nat.le_add_right a 15) (by omega)) hterms
  · exact blockDone_sameOn part2Header_wf (hsame.mono (by omega) le_rfl) hpart2

/-! ### What the iterators and accessors come to -/

/-- A term that an iterator comes to. -/
structure TermIterated (order : ByteOrder) (sent buf : List UInt8) (stop : ℕ) (t : Block) : Prop where
  inside : t.pos + 11 + termLength order buf t.pos ≤ stop
  selectionType_eq : be buf t.pos 1 = be sent t.pos 1
  fields : ∀ f ∈ termHeader.fields, host order buf (t.pos + f.1) f.2 = be sent (t.pos + f.1) f.2
  descriptors : Iterated sent buf (t.pos + 11) (termLength order buf t.pos) (termDescriptorsFirst order buf t.pos)
    (termDescriptorsNext order buf t.pos) t.descriptors

/-- A test that the iterator comes to, its terms and its second part. -/
structure TestIterated (order : ByteOrder) (sent buf : List UInt8) (stop : ℕ) (x : Test) : Prop where
  inside : x.part2.pos + 2 + part2Length order buf x.part2.pos ≤ stop
  fields : ∀ f ∈ testFields, host order buf (x.pos + f.1) f.2 = be sent (x.pos + f.1) f.2
  count : x.terms.length = dccTermCount buf x.pos ∧ dccTermCount buf x.pos = be sent (x.pos + 14) 1
  terms : ForEach (termsNext order buf x.pos) 0 (termsFirst buf x.pos) (x.terms.map Block.pos)
  each : ∀ t ∈ x.terms, TermIterated order sent buf stop t
  part2 : testPart2 order buf x.pos = x.part2.pos
  part2Length_eq : part2Length order buf x.part2.pos = be sent x.part2.pos 2 % 2 ^ 10
  descriptors : Iterated sent buf (x.part2.pos + 2) (part2Length order buf x.part2.pos)
    (part2DescriptorsFirst order buf x.part2.pos) (part2DescriptorsNext order buf x.part2.pos) x.part2.descriptors

/-- The parts of a table as the iterators and accessors come to them; the last one ends at the CRC. -/
structure PartsIterated (order : ByteOrder) (sent buf : List UInt8) (stop : ℕ) (p : Parts) : Prop where
  count : p.tests.length = dccTestCount buf ∧ dccTestCount buf = be sent 9 1
  tests : ForEach (testsNext order buf) 0 (testsFirst buf) (p.tests.map Test.pos)
  each : ∀ x ∈ p.tests, TestIterated order sent buf stop x
  part2 : sectionPart2 order buf = p.part2.pos
  part2Length_eq : part2Length order buf p.part2.pos = be sent p.part2.pos 2 % 2 ^ 10
  descriptors : Iterated sent buf (p.part2.pos + 2) (part2Length order buf p.part2.pos)
    (part2DescriptorsFirst order buf p.part2.pos) (part2DescriptorsNext order buf p.part2.pos) p.part2.descriptors
  ends : p.part2.pos + 2 + part2Length order buf p.part2.pos = stop

theorem termIterated_of_blockDone (hb : b ≤ stop) {t : Block} (ht : BlockDone order termHeader sent buf a b t) :
    TermIterated order sent buf stop t := by
  have hend : b = t.pos + 11 + termLength order buf t.pos := by
    rw [ht.pos_eq]
    exact ht.stop_eq
  have htype := ht.others 0 1 (by decide) (by decide)
  have hfields := ht.fields
  have hiterated := iterated_of_blockDone ht
  rw [← ht.pos_eq] at htype hfields hiterated
  exact ⟨hend ▸ hb, congrArg beNat htype, hfields, hiterated⟩

theorem dcc_count_lt (buf : List UInt8) (i : ℕ) : be buf i 1 < 256 := by
  unfold be slice
  rcases buf.drop i with _ | ⟨c, rest⟩
  · decide
  · rw [List.take_succ_cons, List.take_zero, beNat_single]
    exact c.toNat_lt

theorem forEach_terms (hx : TestDone order sent buf a b x) :
    ForEach (termsNext order buf a) 0 (termsFirst buf a) (x.terms.map Block.pos) := by
  obtain ⟨mid, hterms, -⟩ := hx.parts
  have hcount : 0 + x.terms.length = dccTermCount buf a := (Nat.zero_add _).trans hx.count_eq
  have hfor := hterms.forEach_count Block.pos (termsNext order buf a) (fun {i j t} ht => ht.pos_eq)
    (fun {i j t} idx ht => by
      rw [termsNext, ← show j = i + 11 + termLength order buf i from ht.stop_eq]) hcount
  have hfirst : (if dccTermCount buf a ≤ 0 then none else some (a + 15)) = termsFirst buf a :=
    if_congr Nat.le_zero rfl rfl
  rwa [hfirst] at hfor

theorem terms_eq (hx : TestDone order sent buf a b x) : terms order buf a = x.terms.map Block.pos := by
  refine (forEach_terms hx).list_eq ?_
  rw [List.length_map, hx.count_eq]
  exact (dcc_count_lt buf (a + 14)).le

theorem foldl_terms {i j : ℕ} (hts : Tiles (BlockDone order termHeader sent buf) i j ts) (hacc : a + acc = i) :
    a + (ts.map Block.pos).foldl (fun pos term => pos + 11 + termLength order buf term) acc = j := by
  induction hts generalizing acc with
  | nil => exact hacc
  | @cons i j k t ts first rest ih =>
    have hend : j = i + 11 + termLength order buf i := first.stop_eq
    rw [List.map_cons, List.foldl_cons, first.pos_eq]
    exact ih (by omega)

/-- **`atsc_dcct_test_part2`** comes to the second part of a test. -/
theorem testPart2_eq (hx : TestDone order sent buf a b x) : testPart2 order buf a = x.part2.pos := by
  obtain ⟨mid, hterms, hpart2⟩ := hx.parts
  rw [testPart2, terms_eq hx, foldl_terms hterms rfl, hpart2.pos_eq]

theorem TestDone.stop_eq (hx : TestDone order sent buf a b x) :
    b = testPart2 order buf a + 2 + part2Length order buf (testPart2 order buf a) ∧ a + 17 ≤ b
      ∧ a ≤ testPart2 order buf a := by
  have hpart := testPart2_eq hx
  obtain ⟨mid, hterms, hpart2⟩ := hx.parts
  have hmid : a + 15 ≤ mid := by
    refine (hterms.mono (fun _ _ _ _ _ h => h) fun i j t ht => ?_).1
    have hend := ht.stop_eq
    omega
  have hend : b = mid + 2 + part2Length order buf mid := hpart2.stop_eq
  rw [hpart, hpart2.pos_eq]
  exact ⟨hend, by omega, by omega⟩

theorem testIterated_of_testDone (hb : b ≤ stop) (hx : TestDone order sent buf a b x) :
    TestIterated order sent buf stop x := by
  have hfor := forEach_terms hx
  have hpart := testPart2_eq hx
  have hend := hx.stop_eq.1
  have hfields := hx.fields
  have hcount : x.terms.length = dccTermCount buf a ∧ dccTermCount buf a = be sent (a + 14) 1 :=
    ⟨hx.count_eq, hx.count_sent⟩
  rw [hpart] at hend
  obtain ⟨mid, hterms, hpart2⟩ := hx.parts
  have hlength := hpart2.fields (0, 2) (by decide)
  have hiterated := iterated_of_blockDone hpart2
  rw [← hpart2.pos_eq] at hlength hiterated
  have hstop : mid < b := by
    have hlast := hpart2.stop_eq
    have hsize : 0 < part2Header.size := by decide
    omega
  rw [← hx.pos_eq] at hfor hpart hfields hcount
  refine ⟨hend ▸ hb, hfields, hcount, hfor, fun t ht => ?_, hpart, congrArg (· % 2 ^ 10) hlength, hiterated⟩
  obtain ⟨i, j, -, hj, hdone⟩ := hterms.of_mem (fun {i j t} h => by
    have hlast := h.stop_eq
    omega) ht
  exact termIterated_of_blockDone (hj.trans (hstop.le.trans hb)) hdone

theorem forEach_tests (hxs : Tiles (TestDone order sent buf) 10 mid xs) (hcount : xs.length = dccTestCount buf) :
    ForEach (testsNext order buf) 0 (testsFirst buf) (xs.map Test.pos) := by
  have hfor := hxs.forEach_count Test.pos (testsNext order buf) (fun {i j x} hx => hx.pos_eq)
    (fun {i j x} idx hx => by rw [testsNext, ← hx.stop_eq.1]) ((Nat.zero_add _).trans hcount)
  have hfirst : (if dccTestCount buf ≤ 0 then none else some 10) = testsFirst buf := if_congr Nat.le_zero rfl rfl
  rwa [hfirst] at hfor

theorem foldl_tests {i j : ℕ} (hxs : Tiles (TestDone order sent buf) i j xs) :
    (xs.map Test.pos).foldl
      (fun pos test => pos + (testPart2 order buf test - test) + 2 + part2Length order buf (testPart2 order buf test)) i
        = j := by
  induction hxs with
  | nil => rfl
  | @cons i j k x xs first rest ih =>
    obtain ⟨hend, -, hle⟩ := first.stop_eq
    have hnext : i + (testPart2 order buf i - i) + 2 + part2Length order buf (testPart2 order buf i) = j := by omega
    rw [List.map_cons, List.foldl_cons, first.pos_eq, hnext]
    exact ih

/-- **`atsc_dcct_section_part2`** comes to the second part of the section. -/
theorem sectionPart2_eq (hxs : Tiles (TestDone order sent buf) 10 mid xs) (hcount : xs.length = dccTestCount buf) :
    sectionPart2 order buf = mid := by
  have hlen : (xs.map Test.pos).length ≤ 256 := by
    rw [List.length_map, hcount]
    exact (dcc_count_lt buf 9).le
  rw [sectionPart2, tests, (forEach_tests hxs hcount).list_eq hlen, foldl_tests hxs]

/-- **The iterators and accessors** on a section that the codec has accepted. -/
theorem partsIterated {p : Parts} (hp : DcctAt buf (buf.length - 4) p) :
    PartsIterated order buf (swappedParts order p buf) (buf.length - 4) p := by
  obtain ⟨mid, htests, hpart2⟩ := hp.parts
  have hstop : buf.length - 4 ≤ buf.length := Nat.sub_le _ _
  have htest := takes_test order hstop
  have hmid : 10 ≤ mid := htest.tiles_le htests
  have hend : mid < buf.length - 4 := (blockAt_lt part2Header_wf hpart2).2
  obtain ⟨hlen, htake, hdrop⟩ := htest.effects_keeps rfl hend.le htests
  have hpart2₁ := blockAt_ahead part2Header_wf hdrop.symm hpart2
  obtain ⟨-, hfront, -⟩ := (takes_block order part2Header_wf hstop).keeps hlen le_rfl hpart2₁
  set done := swappedParts order p buf with hdone
  have htestsDone : Tiles (TestDone order buf (effects (swappedTest order) p.tests buf)) 10 mid p.tests :=
    htest.settle (fun hbuf hj hcut hx => testDone_of_testAt (hbuf.symm ▸ hj.trans hstop) hcut hx)
      (fun hsame hx => testDone_sameOn hsame hx) rfl hend.le rfl htests
  have hsame : SameOn 10 mid (effects (swappedTest order) p.tests buf) done := sameOn_of_take hfront.symm
  have hxs : Tiles (TestDone order buf done) 10 mid p.tests :=
    (htestsDone.mono (fun i j x hi hj hx => testDone_sameOn (hsame.mono hi hj) hx) fun i j x hx => by
      have hlast := hx.stop_eq.2.1
      omega).2
  have hpart2Done : BlockDone order part2Header buf done mid (buf.length - 4) p.part2 :=
    blockDone_of_blockAt part2Header_wf (hlen.symm ▸ hstop) hdrop hpart2₁
  have hcountSent : dccTestCount done = be buf 9 1 := by
    have htestsFront : (effects (swappedTest order) p.tests buf).take 10 = buf.take 10 := htake
    have hlast : done.take 10 = (effects (swappedTest order) p.tests buf).take 10 := take_eq_of_le hfront hmid
    exact congrArg beNat (slice_eq_of_take (hlast.trans htestsFront) le_rfl)
  have hcount : p.tests.length = dccTestCount done := hp.count_eq.trans hcountSent.symm
  have hlength := hpart2Done.fields (0, 2) (by decide)
  have hiterated := iterated_of_blockDone hpart2Done
  have hlast : buf.length - 4 = mid + 2 + part2Length order done mid := hpart2Done.stop_eq
  have hsection := sectionPart2_eq hxs hcount
  rw [← hpart2Done.pos_eq] at hlength hiterated hlast hsection
  refine ⟨⟨hcount, hcountSent⟩, forEach_tests hxs hcount, fun x hx => ?_, hsection,
    congrArg (· % 2 ^ 10) hlength, hiterated, hlast.symm⟩
  obtain ⟨i, j, -, hj, hdoneAt⟩ := hxs.of_mem (fun {i j x} h => by
    have hx := h.stop_eq.2.1
    omega) hx
  exact testIterated_of_testDone (hj.trans hend.le) hdoneAt

end BgtDvb.Ucsi.Table.Dcct
