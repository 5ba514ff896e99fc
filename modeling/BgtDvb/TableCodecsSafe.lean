import BgtDvb.TableCodecs

/-!
# The table codecs stay inside a section

`section_codec` has seen to it that a section is as long as it says.  Behind its header of three bytes there has to be
room for the CRC, or the length that the codecs compare with wraps around; where there is, all codecs but four end
inside the section.

* `SectionTable.stays`, `ExtTable.stays`, `PsipTable.stays` — **PROVED**: the codecs do.

Sections of descriptors, IP/MAC notification sections and DCC selection code tables are not among them.
-/

namespace BgtDvb.Ucsi.Table

open BgtDvb.Walks
open BgtDvb.Words

section Safe

variable {n : ℕ}

variable {start len pos : ℕ} {h : Header}

theorem safe_textSegment (h : start + len ≤ n) : Safe n (textSegment start len pos) fun _ => True := by
  refine (safe_require _).bind fun _ hroom => ?_
  have hread : start + pos + 2 + 1 ≤ n := by omega
  refine (safe_read hread).bind fun _ _ => ?_
  exact (safe_require _).bind fun _ _ => safe_pure trivial

theorem safe_textString (h : start + len ≤ n) : Safe n (textString start len pos) fun _ => True := by
  refine (safe_require _).bind fun _ hroom => ?_
  have hread : start + pos + 3 + 1 ≤ n := by omega
  refine (safe_read hread).bind fun _ _ => ?_
  exact safe_times (fun pos _ => safe_textSegment h) _ trivial

/-- **`atsc_text_validate`** on bytes of the buffer ends, and reads no others. -/
theorem safe_atscTextValidate (h : start + len ≤ n) : Safe n (atscTextValidate start len) fun _ => True := by
  unfold atscTextValidate
  split_ifs with hlen
  · exact safe_pure trivial
  · have hread : start + 1 ≤ n := by omega
    refine (safe_read hread).bind fun _ _ => ?_
    exact (safe_times (fun pos _ => safe_textString h) _ trivial).bind fun _ _ => safe_pure trivial

theorem safe_text {textLength : ℕ} (hlen : len ≤ n) : Safe n (text len pos textLength) fun pos' => pos ≤ pos' := by
  refine (safe_require _).bind fun _ hroom => ?_
  exact (safe_atscTextValidate (hroom.trans hlen)).bind fun _ _ => safe_pure (Nat.le_add_right _ _)

theorem safe_countedText (hlen : len ≤ n) : Safe n (countedText len pos) fun _ => True := by
  refine (safe_require _).bind fun _ hroom => ?_
  exact (safe_read (hroom.trans hlen)).bind fun _ _ => (safe_text hlen).mono fun _ _ => trivial

theorem safe_plain (order : ByteOrder) {fields : List (ℕ × ℕ)} {size : ℕ} (hlen : len ≤ n)
    (hfields : ∀ f ∈ fields, f.1 + f.2 ≤ size) :
    Safe n (plain order fields size len pos) fun pos' => pos' = pos + size ∧ pos' ≤ len := by
  refine (safe_require _).bind fun _ hroom => ?_
  refine (safe_bswapAll order fun f hf => ?_).bind fun _ _ => safe_pure ⟨rfl, hroom⟩
  have hend := hfields f hf
  omega

theorem safe_last (p : Prop) [Decidable p] : Safe n (require p) fun _ => True :=
  (safe_require p).mono fun _ _ => trivial

/-! ### Headers -/

/-- The words of a header stand inside it, or in the four bytes behind it, which are there because of the CRC. -/
def Header.Near (h : Header) : Prop := 0 < h.size ∧ ∀ f ∈ h.lengthAt :: h.fields, f.1 + f.2 ≤ h.size + 4

instance (h : Header) : Decidable h.Near :=
  inferInstanceAs (Decidable (0 < h.size ∧ ∀ f ∈ h.lengthAt :: h.fields, f.1 + f.2 ≤ h.size + 4))

variable (order : ByteOrder) {len : ℕ}

theorem Header.Near.safe_block (hh : h.Near) (hlen : len + 4 ≤ n) (pos : ℕ) :
    Safe n (block order h len pos) fun pos' => pos < pos' ∧ pos' ≤ len := by
  refine Table.safe_block order hh.1 (fun hroom f hf => ?_) (by omega)
  have hend := hh.2 f hf
  omega

theorem Header.Near.safe_whileBelow (hh : h.Near) (hlen : len + 4 ≤ n) (pos : ℕ) :
    Safe n (whileBelow len (block order h len) len pos) fun _ => True := by
  refine (Walks.safe_whileBelow (I := fun _ => True) (fun pos _ _ => ?_) len trivial (Nat.sub_le _ _)).mono
    fun _ _ => trivial
  exact (hh.safe_block order hlen pos).mono fun _ hp => ⟨hp.1, trivial⟩

theorem Header.Near.safe_times (hh : h.Near) (hlen : len + 4 ≤ n) (count pos : ℕ) :
    Safe n (times (block order h len) count pos) fun _ => True :=
  Walks.safe_times (fun pos _ => (hh.safe_block order hlen pos).mono fun _ _ => trivial) count trivial

theorem Header.Near.safe_end (hh : h.Near) (hlen : len + 4 ≤ n) (pos : ℕ) :
    Safe n (block order h len pos >>= fun pos => require (pos = len)) fun _ => True :=
  (hh.safe_block order hlen pos).bind fun _ _ => safe_last _

end Safe

/-! ### The codecs -/

section Codecs

variable {order : ByteOrder} {buf : List UInt8} {body : ℕ → Walk Unit}

theorem Whole.room (h : Whole order buf) : 4 ≤ buf.length := by
  have hlen := h.length_eq
  have hpos := h.length_pos
  omega

theorem Whole.stays (h : Whole order buf)
    (hbody : ∀ len, len + 4 = buf.length → Safe buf.length (body len) fun _ => True) :
    Stays (sectionExtLength order >>= body) buf := by
  rw [stays_bind_ok h.sectionExtLength_run]
  exact (hbody _ (Nat.sub_add_cancel h.room) buf rfl).stays

theorem stays_mpegOdsmtSectionCodec (h : Whole order buf) : Stays (mpegOdsmtSectionCodec order) buf := by
  refine h.stays fun len hlen => ?_
  have hstreams (streamCount : ℕ) : Safe buf.length (odsmtStreams order len streamCount) fun _ => True := by
    unfold odsmtStreams
    split_ifs
    · refine (safe_require _).bind fun _ hroom => ?_
      refine (safe_bswap order (by omega)).bind fun _ _ => ?_
      refine (safe_read (by omega)).bind fun esInfoLength _ => ?_
      refine (safe_require _).bind fun _ hroom' => ?_
      exact (safe_verifyDescriptors (by omega)).bind fun _ _ => safe_pure trivial
    · have hodsmt : odsmtHeader.Near := by decide
      exact hodsmt.safe_times order hlen.le _ _
  refine (safe_require _).bind fun _ hsize => ?_
  refine (safe_read (by omega)).bind fun streamCount _ => ?_
  exact (hstreams _).bind fun _ _ => safe_last _

theorem stays_mpegPatSectionCodec (h : Whole order buf) : Stays (mpegPatSectionCodec order) buf := by
  refine h.stays fun len hlen => ?_
  refine (safe_require _).bind fun _ hsize => ?_
  refine (safe_whileBelow (I := fun _ => True) (fun pos _ _ => ?_) len trivial (Nat.sub_le _ _)).bind
    fun _ _ => safe_last _
  refine (safe_plain order (by omega) (by decide)).mono fun pos' hpos => ?_
  exact ⟨by omega, trivial⟩

theorem stays_mpegPmtSectionCodec (h : Whole order buf) : Stays (Pmt.mpegPmtSectionCodec order) buf :=
  (Pmt.safe_mpegPmtSectionCodec h).stays

theorem stays_transportSectionCodec (h : Whole order buf) : Stays (transportSectionCodec order) buf := by
  refine h.stays fun len hlen => ?_
  have hlength : lengthHeader.Near := by decide
  have htransport : transportHeader.Near := by decide
  refine (hlength.safe_block order hlen.le 8).bind fun pos _ => ?_
  refine (safe_plain order (by omega) (by decide)).bind fun pos _ => ?_
  exact (htransport.safe_whileBelow order hlen.le pos).bind fun _ _ => safe_last _

theorem stays_dvbEitSectionCodec (h : Whole order buf) : Stays (dvbEitSectionCodec order) buf := by
  refine h.stays fun len hlen => ?_
  have hevent : eventHeader.Near := by decide
  refine (safe_plain order (by omega) (by decide)).bind fun pos _ => ?_
  exact (hevent.safe_whileBelow order hlen.le pos).bind fun _ _ => safe_last _

theorem stays_dvbSdtSectionCodec (h : Whole order buf) : Stays (dvbSdtSectionCodec order) buf := by
  refine h.stays fun len hlen => ?_
  have hservice : serviceHeader.Near := by decide
  refine (safe_plain order (by omega) (by decide)).bind fun pos _ => ?_
  exact (hservice.safe_whileBelow order hlen.le pos).bind fun _ _ => safe_last _

theorem stays_dvbSitSectionCodec (h : Whole order buf) : Stays (dvbSitSectionCodec order) buf := by
  refine h.stays fun len hlen => ?_
  have hlength : lengthHeader.Near := by decide
  have hservice : sitServiceHeader.Near := by decide
  refine (hlength.safe_block order hlen.le 8).bind fun pos _ => ?_
  exact (hservice.safe_whileBelow order hlen.le pos).bind fun _ _ => safe_last _

theorem stays_dvbTvaContainerSectionCodec (h : Whole order buf) : Stays (dvbTvaContainerSectionCodec order) buf :=
  h.stays fun _ _ => safe_last _

theorem stays_channelSectionCodec (h : Whole order buf) : Stays (channelSectionCodec order) buf := by
  refine h.stays fun len hlen => ?_
  have hchannel : channelHeader.Near := by decide
  have hpart2 : Dcct.part2Header.Near := by decide
  refine (safe_require _).bind fun _ hsize => ?_
  refine (safe_read (by omega)).bind fun numChannels _ => ?_
  refine (hchannel.safe_times order hlen.le _ _).bind fun pos _ => ?_
  exact hpart2.safe_end order hlen.le pos

theorem stays_atscDcctSectionCodec (h : Whole order buf) : Stays (Dcct.atscDcctSectionCodec order) buf := by
  refine h.stays fun len hlen => ?_
  have hterm : Dcct.termHeader.Near := by decide
  have hpart2 : Dcct.part2Header.Near := by decide
  refine (safe_require _).bind fun _ hsize => ?_
  refine (safe_read (by omega)).bind fun dccTestCount _ => ?_
  refine (safe_times (I := fun _ => True) (fun pos _ => ?_) _ trivial).bind fun pos _ => hpart2.safe_end order hlen.le pos
  refine (safe_require _).bind fun _ hroom => ?_
  refine (safe_bswapAll order fun f hf => ?_).bind fun _ _ => ?_
  · have hinside : ∀ f ∈ Dcct.testFields, f.1 + f.2 ≤ 15 := by decide
    have hend := hinside f hf
    omega
  · refine (safe_read (by omega)).bind fun dccTermCount _ => ?_
    refine (hterm.safe_times order hlen.le _ _).bind fun pos _ => ?_
    exact (hpart2.safe_block order hlen.le pos).mono fun _ _ => trivial

theorem stays_atscEitSectionCodec (h : Whole order buf) : Stays (atscEitSectionCodec order) buf := by
  refine h.stays fun len hlen => ?_
  have hlength : lengthHeader.Near := by decide
  refine (safe_require _).bind fun _ hsize => ?_
  refine (safe_read (by omega)).bind fun numEvents _ => ?_
  refine (safe_times (I := fun _ => True) (fun pos _ => ?_) _ trivial).bind fun pos _ => safe_last _
  refine (safe_plain order (by omega) (by decide)).bind fun pos' hpos => ?_
  refine (safe_word order (by omega)).bind fun w _ => ?_
  refine (safe_text (by omega)).bind fun pos _ => ?_
  exact (hlength.safe_block order hlen.le pos).mono fun _ _ => trivial

theorem sizeSub_of_le {a b : ℕ} (h : b ≤ a) (ha : a < 2 ^ 64) : sizeSub a b = a - b := by
  unfold sizeSub
  omega

theorem Whole.length_lt (h : Whole order buf) : buf.length < 2 ^ 64 := by
  have hlt : lengthField order buf < 2 ^ 12 := Nat.mod_lt _ (by decide)
  have hlen := h.length_eq
  omega

theorem stays_atscEttSectionCodec (h : Whole order buf) : Stays (atscEttSectionCodec order) buf := by
  have hlt := h.length_lt
  refine h.stays fun len hlen => ?_
  refine (safe_require _).bind fun _ hsize => ?_
  refine (safe_bswap order (by omega)).bind fun _ _ => ?_
  rw [sizeSub_of_le hsize (by omega)]
  exact safe_atscTextValidate (by omega)

theorem stays_atscMgtSectionCodec (h : Whole order buf) : Stays (atscMgtSectionCodec order) buf := by
  refine h.stays fun len hlen => ?_
  have htable : mgtTableHeader.Near := by decide
  have hlength : lengthHeader.Near := by decide
  refine (safe_plain order (by omega) (by decide)).bind fun pos hpos => ?_
  refine (safe_word order (by omega)).bind fun tablesDefined _ => ?_
  refine (htable.safe_times order hlen.le _ _).bind fun pos _ => ?_
  exact hlength.safe_end order hlen.le pos

theorem stays_atscRrtSectionCodec (h : Whole order buf) : Stays (atscRrtSectionCodec order) buf := by
  refine h.stays fun len hlen => ?_
  have hpart3 : part3Header.Near := by decide
  have htext (pos : ℕ) : Safe buf.length (countedText len pos) fun _ => True := safe_countedText (by omega)
  refine (safe_require _).bind fun _ hsize => ?_
  refine (htext 9).bind fun pos _ => ?_
  refine (safe_require _).bind fun _ hroom => ?_
  refine (safe_read (by omega)).bind fun dimensionsDefined _ => ?_
  refine (safe_times (I := fun _ => True) (fun pos _ => ?_) _ trivial).bind fun pos _ => hpart3.safe_end order hlen.le pos
  refine (htext pos).bind fun pos _ => ?_
  refine (safe_require _).bind fun _ hroom => ?_
  refine (safe_read (by omega)).bind fun valuesDefined _ => ?_
  exact safe_times (fun pos _ => (htext pos).bind fun pos _ => htext pos) _ trivial

theorem stays_atscSttSectionCodec (h : Whole order buf) : Stays (atscSttSectionCodec order) buf := by
  have hlt := h.length_lt
  refine h.stays fun len hlen => ?_
  refine (safe_require _).bind fun _ hsize => ?_
  refine (safe_bswapAll order fun f hf => ?_).bind fun _ _ => ?_
  · have hinside : ∀ f ∈ [(0, 4), (5, 2)], f.1 + f.2 ≤ 7 := by decide
    have hend := hinside f hf
    omega
  · rw [sizeSub_of_le hsize (by omega)]
    exact safe_verifyDescriptors (by omega)

theorem Whole.sectionLength_run (h : Whole order buf) :
    (sectionLength order).run buf = .ok (buf.length, buf) := by
  have hroom : 3 ≤ buf.length := (Nat.le_succ 3).trans h.room
  rw [sectionLength, run_bind_ok ((word_ok_iff order).mpr ⟨hroom, rfl⟩), host_sectionWord hroom, h.length_eq]
  rfl

theorem stays_dvbRstSectionCodec (h : Whole order buf) : Stays (dvbRstSectionCodec order) buf := by
  rw [dvbRstSectionCodec, stays_bind_ok h.sectionLength_run]
  refine Ends.stays (n := buf.length) (Q := fun _ => True) (Safe.bind (Q := fun _ => True) ?_ (fun _ _ => safe_last _) buf rfl)
  refine (safe_whileBelow (I := fun _ => True) (fun pos _ _ => ?_) _ trivial (Nat.sub_le _ _)).mono fun _ _ => trivial
  refine (safe_plain order le_rfl (by decide)).mono fun pos' hpos => ?_
  exact ⟨by omega, trivial⟩

theorem stays_dvbTotSectionCodec (h : Whole order buf) : Stays (dvbTotSectionCodec order) buf := by
  have hlength : lengthHeader.Near := by decide
  have hlen : sizeSub buf.length 4 = buf.length - 4 := sizeSub_of_le h.room h.length_lt
  have hroom : buf.length - 4 + 4 ≤ buf.length := (Nat.sub_add_cancel h.room).le
  rw [dvbTotSectionCodec, stays_bind_ok h.sectionLength_run, hlen]
  exact (hlength.safe_end order hroom 8 buf rfl).stays

theorem SectionTable.stays (h : Whole order buf) (t : SectionTable) : Stays (t.codec order) buf := by
  cases t with
  | datagram | st => exact stays_pure ()
  | dit | tdt =>
    refine (stays_bind_ok h.sectionLength_run).mpr ?_
    exact (safe_last (n := buf.length) _ buf rfl).stays
  | rst => exact stays_dvbRstSectionCodec h
  | tot => exact stays_dvbTotSectionCodec h

/-- **The codecs that take an extended section**, but for those of plain descriptors and the one with two loops. -/
theorem ExtTable.stays (h : Whole order buf) (t : ExtTable) (hcat : t ≠ .cat) (htsdt : t ≠ .tsdt) (hint : t ≠ .int) :
    Stays (t.codec order) buf := by
  cases t with
  | cat => exact absurd rfl hcat
  | tsdt => exact absurd rfl htsdt
  | int => exact absurd rfl hint
  | metadata => exact stays_pure ()
  | odsmt => exact stays_mpegOdsmtSectionCodec h
  | pat => exact stays_mpegPatSectionCodec h
  | pmt => exact stays_mpegPmtSectionCodec h
  | bat | nit => exact stays_transportSectionCodec h
  | eit => exact stays_dvbEitSectionCodec h
  | sdt => exact stays_dvbSdtSectionCodec h
  | sit => exact stays_dvbSitSectionCodec h
  | tvaContainer => exact stays_dvbTvaContainerSectionCodec h

/-- **The codecs that take a PSIP section**, but for the one that reads a length in the wrong place. -/
theorem PsipTable.stays (h : Whole order buf) (t : PsipTable) (ht : t ≠ .dccsct) : Stays (t.codec order) buf := by
  cases t with
  | dccsct => exact absurd rfl ht
  | cvct | tvct => exact stays_channelSectionCodec h
  | dcct => exact stays_atscDcctSectionCodec h
  | eit => exact stays_atscEitSectionCodec h
  | ett => exact stays_atscEttSectionCodec h
  | mgt => exact stays_atscMgtSectionCodec h
  | rrt => exact stays_atscRrtSectionCodec h
  | stt => exact stays_atscSttSectionCodec h

theorem stays_descriptorSectionCodec (h : Whole order buf) (hnine : 12 ≤ buf.length) :
    Stays (descriptorSectionCodec order) buf := by
  have hlt := h.length_lt
  refine h.stays fun len hlen => ?_
  have hsize : 8 ≤ len := by omega
  rw [sizeSub_of_le hsize (by omega)]
  exact safe_verifyDescriptors (by omega)

end Codecs

end BgtDvb.Ucsi.Table
