import BgtDvb.TableOverruns

/-!
# From the header of a section to its table

`section_codec` takes the bytes, `section_ext_decode` what it returns, and the codec of the table what that returns.

* `sectionExtDecode_run` — **PROVED**: `section_ext_decode` on a section where it lies in memory.
-/

namespace BgtDvb.Ucsi.Table

open BgtDvb.Walks
open BgtDvb.Words

variable {order : ByteOrder} {buf : List UInt8}

/-! ### The header -/

theorem swapped_eq_bswap16 (h : i + 2 ≤ buf.length) : swapped order [(i, 2)] buf = bswap16 order i buf := by
  cases order with
  | big => rfl
  | little =>
    have hbytes : slice buf i 2 = [buf.getD i 0, buf.getD (i + 1) 0] := by
      have hfirst : i < buf.length := by omega
      have hsecond : i + 1 < buf.length := by omega
      rw [slice, List.drop_eq_getElem_cons hfirst, List.drop_eq_getElem_cons hsecond, List.getD_eq_getElem _ _ hfirst,
        List.getD_eq_getElem _ _ hsecond]
      rfl
    show reverseAt i 2 buf = storeAt i [buf.getD (i + 1) 0, buf.getD i 0] buf
    rw [reverseAt, hbytes, storeAt, List.append_assoc]
    rfl

theorem swapped_swapped (h : i + k ≤ buf.length) : swapped order [(i, k)] (swapped order [(i, k)] buf) = buf := by
  cases order with
  | big => rfl
  | little => exact reverseAt_reverseAt h

theorem lengthField_eq_of_take (order : ByteOrder) (h : 3 ≤ buf.length) (hkept : buf'.length = buf.length)
    (htake : buf'.take 3 = buf.take 3) : lengthField order buf' = lengthField order buf := by
  have hslice : slice buf' 1 2 = slice buf 1 2 := slice_eq_of_take htake le_rfl
  unfold lengthField
  rw [← host_sectionWord h, ← host_sectionWord (hkept.symm ▸ h), host, hslice, host]

/-- What `section_codec` returns: a section that is as long as it says, with its header word in the order of the host. -/
theorem sectionCodec_spec {raw : List UInt8} (h : sectionCodec order raw = some buf) :
    3 ≤ raw.length ∧ buf.length = raw.length ∧ buf.drop 3 = raw.drop 3 ∧ buf.length = lengthField order buf + 3
      ∧ lengthField order buf = be raw 1 2 % 2 ^ 12 := by
  unfold sectionCodec at h
  dsimp only at h
  split_ifs at h with hshort hlong
  cases h
  have hroom : 1 + 2 ≤ raw.length := by omega
  have hapart : Apart 1 3 [(1, 2)] := ⟨le_rfl, le_rfl⟩
  obtain ⟨hkept, -, hdrop⟩ := swapped_keeps order hapart hroom
  have hsent : host order (swapped order [(1, 2)] raw) 1 2 = be raw 1 2 :=
    host_swapped hapart hroom List.mem_cons_self
  rw [host_sectionWord (hkept.symm ▸ hroom)] at hsent
  rw [← swapped_eq_bswap16 hroom] at hlong ⊢
  exact ⟨hroom, hkept, hdrop, by omega, congrArg (· % 2 ^ 12) hsent⟩

/-- `section_check_crc` leaves a section as it found it, and compares the CRC. -/
theorem sectionCheckCrc_run (hwhole : buf.length = lengthField order buf + 3)
    (h : (Ucsi.sectionCheckCrc order buf).1 = 0) : (sectionCheckCrc order).run buf = .ok ((), buf) := by
  have hroom : 1 + 2 ≤ buf.length := by omega
  have hapart : Apart 1 3 [(1, 2)] := ⟨le_rfl, le_rfl⟩
  have hkept := (swapped_keeps order hapart hroom).1
  have hlen : (sectionLength order).run buf = .ok (buf.length, buf) := by
    rw [sectionLength, run_bind_ok ((word_ok_iff order).mpr ⟨hroom, rfl⟩), host_sectionWord hroom, hwhole]
    rfl
  have hall : 0 + buf.length ≤ (swapped order [(1, 2)] buf).length := by omega
  rw [sectionCheckCrc, run_bind_ok hlen, run_bind_ok (bswap_run hroom), run_bind_ok (read_ok_iff.mpr ⟨hall, rfl⟩),
    run_bind_ok (bswap_run (hkept.symm ▸ hroom)), swapped_swapped hroom]
  refine run_require ?_ buf
  have hcrc : crc32 crc32Init ((bswap16 order 1 buf).take buf.length) = 0 := by
    rw [hwhole]
    by_contra hbad
    unfold Ucsi.sectionCheckCrc at h
    rw [Ucsi.sectionLength, if_pos hbad] at h
    cases h
  rw [swapped_eq_bswap16 hroom]
  exact hcrc

/-- **`section_ext_decode`** on a section that it accepts comes to its last swap. -/
theorem sectionExtDecode_run {checkCrc : Bool} (hwhole : buf.length = lengthField order buf + 3)
    (h : (Ucsi.sectionExtDecode order buf checkCrc).isSome) :
    (sectionExtDecode order checkCrc).run buf = (bswap order 3 2).run buf := by
  have hroom : 3 ≤ buf.length := by omega
  unfold Ucsi.sectionExtDecode at h
  have hsyntax : syntaxIndicator order buf ≠ 0 := by
    intro hzero
    rw [if_pos hzero] at h
    cases h
  rw [if_neg hsyntax] at h
  have hset : host order buf 1 2 / 2 ^ 15 ≠ 0 := by
    rw [host_sectionWord hroom]
    exact hsyntax
  rw [sectionExtDecode, run_bind_ok ((word_ok_iff order).mpr ⟨hroom, rfl⟩), run_bind_ok (run_require hset buf)]
  cases checkCrc with
  | false => rfl
  | true =>
    have hcrc : (Ucsi.sectionCheckCrc order buf).1 = 0 := by
      by_contra hbad
      simp only [if_true, if_pos hbad] at h
      cases h
    exact run_bind_ok (sectionCheckCrc_run hwhole hcrc)

/-! ### The chain -/

/-- What `section_ext_decode` and the codecs do with a section that `section_codec` has returned: all of them end, and
read and swap nothing outside. -/
structure ChainStays (order : ByteOrder) (checkCrc : Bool) (buf : List UInt8) : Prop where
  section_codecs : ∀ t : SectionTable, Stays (t.codec order) buf
  decode : Stays (sectionExtDecode order checkCrc) buf
  ext_codecs : ∀ {ext : List UInt8}, (sectionExtDecode order checkCrc).run buf = .ok ((), ext) →
    ∀ t : ExtTable, Stays (t.codec order) ext
  psip_codecs : ∀ {ext : List UInt8}, (sectionExtDecode order checkCrc).run buf = .ok ((), ext) →
    ∀ t : PsipTable, Stays (atscSectionPsipDecode order >>= fun _ => t.codec order) ext

/-- The sections on which all is well, as they were received: there is room for the header of an extended section and
the CRC, and nothing leads one of the two codecs out that can be led out. -/
structure ChainInside (order : ByteOrder) (raw : List UInt8) : Prop where
  length : 9 ≤ be raw 1 2 % 2 ^ 12
  int : ¬ IntSectionOverrun raw
  dccsct : ¬ DccsctSectionOverrun order raw

theorem intSectionOverrun_congr (hlen : buf.length = buf'.length) (hdrop : buf.drop 8 = buf'.drop 8) :
    IntSectionOverrun buf ↔ IntSectionOverrun buf' := by
  have hahead {xs ys : List UInt8} (hlen : xs.length = ys.length) (hdrop : xs.drop 8 = ys.drop 8)
      (h : IntSectionOverrun xs) : IntSectionOverrun ys := by
    obtain ⟨pos, x, hx, hpos, hover⟩ := h
    have hstart := (blockAt_lt intHeader_wf hx).2.le
    rw [hlen] at hpos hover
    exact ⟨pos, x, blockAt_ahead intHeader_wf hdrop hx, hpos, hover.ahead hdrop hstart⟩
  exact ⟨hahead hlen hdrop, hahead hlen.symm hdrop.symm⟩

theorem dccsctSectionOverrun_congr (hlen : buf.length = buf'.length) (hdrop : buf.drop 8 = buf'.drop 8) :
    DccsctSectionOverrun order buf ↔ DccsctSectionOverrun order buf' := by
  have hcount : be buf 9 1 = be buf' 9 1 := be_eq_of_drop hdrop (by decide)
  unfold DccsctSectionOverrun
  rw [hlen, hcount]
  refine and_congr_right fun _ => ⟨fun h => h.ahead hlen hdrop (by decide), fun h => ?_⟩
  exact h.ahead hlen.symm hdrop.symm (by decide)

/-- `atsc_section_psip_decode` in front of the codec of a DCC selection code table. -/
theorem stays_psip_dccsct_iff (h : Whole order buf) :
    Stays (atscSectionPsipDecode order >>= fun _ => atscDccsctSectionCodec order) buf ↔ ¬ DccsctSectionOverrun order buf := by
  have hpsip : atscSectionPsipDecode order = sectionExtLength order >>= fun len => require (9 ≤ len) := rfl
  rw [hpsip, bind_assoc, stays_bind_ok h.sectionExtLength_run]
  by_cases hsize : 9 ≤ buf.length - 4
  · rw [stays_bind_ok (run_require hsize buf), stays_atscDccsctSectionCodec_iff h]
  · refine iff_of_true (stays_bind_refused (run_require_not hsize buf)) fun hover => hsize ?_
    exact (Nat.le_succ 9).trans hover.1

theorem stays_psip (h : Whole order buf) {t : PsipTable} (ht : t ≠ .dccsct) :
    Stays (atscSectionPsipDecode order >>= fun _ => t.codec order) buf := by
  have hpsip : atscSectionPsipDecode order = sectionExtLength order >>= fun len => require (9 ≤ len) := rfl
  rw [hpsip, bind_assoc, stays_bind_ok h.sectionExtLength_run]
  by_cases hsize : 9 ≤ buf.length - 4
  · rw [stays_bind_ok (run_require hsize buf)]
    exact t.stays h ht
  · exact stays_bind_refused (run_require_not hsize buf)

/-- **The codecs of extended sections**, where there is room for the header and the CRC. -/
theorem ext_codecs_stay_iff (h : Whole order buf) (hroom : 12 ≤ buf.length) :
    (∀ t : ExtTable, Stays (t.codec order) buf) ↔ ¬ IntSectionOverrun buf := by
  rw [← stays_dvbIntSectionCodec_iff h]
  refine ⟨fun hall => hall .int, fun hint t => ?_⟩
  by_cases hplain : t = .cat ∨ t = .tsdt
  · rcases hplain with rfl | rfl
    · exact stays_descriptorSectionCodec h hroom
    · exact stays_descriptorSectionCodec h hroom
  · by_cases ht : t = .int
    · rw [ht]
      exact hint
    · exact t.stays h (fun hcat => hplain (.inl hcat)) (fun htsdt => hplain (.inr htsdt)) ht

theorem psip_codecs_stay_iff (h : Whole order buf) :
    (∀ t : PsipTable, Stays (atscSectionPsipDecode order >>= fun _ => t.codec order) buf) ↔
      ¬ DccsctSectionOverrun order buf := by
  rw [← stays_psip_dccsct_iff h]
  refine ⟨fun hall => hall .dccsct, fun hdccsct t => ?_⟩
  by_cases ht : t = .dccsct
  · rw [ht]
    exact hdccsct
  · exact stays_psip h ht

/-- **A section that is too short** for the header and the CRC leads a codec out, if not `section_ext_decode` already. -/
theorem not_chainStays_of_short {checkCrc : Bool} (hwhole : buf.length = lengthField order buf + 3)
    (hdecode : (Ucsi.sectionExtDecode order buf checkCrc).isSome) (hshort : lengthField order buf < 9) :
    ¬ ChainStays order checkCrc buf := by
  intro hchain
  have hrun := sectionExtDecode_run hwhole hdecode
  by_cases hroom : 3 + 2 ≤ buf.length
  · have hapart : Apart 3 5 [(3, 2)] := ⟨le_rfl, le_rfl⟩
    obtain ⟨hkept, htake, -⟩ := swapped_keeps order hapart hroom
    have hfield := lengthField_eq_of_take order (by omega) hkept htake
    have hwhole' : (swapped order [(3, 2)] buf).length = lengthField order (swapped order [(3, 2)] buf) + 3 := by omega
    refine not_stays_descriptorSectionCodec hwhole' (by omega) ?_
    exact hchain.ext_codecs (hrun.trans (bswap_run hroom)) .cat
  · cases order with
    | big => exact not_stays_descriptorSectionCodec hwhole hshort (hchain.ext_codecs hrun .cat)
    | little =>
      have hfault : (bswap .little 3 2).run buf = .error .fault := if_neg hroom
      cases hchain.decode .fault (hrun.trans hfault)

/-- **The chain of the decoders** stays inside a section that they accept exactly where there is room for the header and
the CRC, no target of an IP/MAC notification section leads out, and no update of a DCC selection code table does. -/
theorem chainStays_iff (order : ByteOrder) (checkCrc : Bool) {raw buf : List UInt8}
    (hcodec : sectionCodec order raw = some buf) (hdecode : (Ucsi.sectionExtDecode order buf checkCrc).isSome) :
    ChainStays order checkCrc buf ↔ ChainInside order raw := by
  obtain ⟨-, hkept, hdrop, hwhole, hfield⟩ := sectionCodec_spec hcodec
  have hrun := sectionExtDecode_run hwhole hdecode
  rcases Nat.lt_or_ge (lengthField order buf) 9 with hshort | hlong
  · refine iff_of_false (not_chainStays_of_short hwhole hdecode hshort) fun hinside => ?_
    exact Nat.not_lt.mpr hinside.length (hfield ▸ hshort)
  · have hwell : Whole order buf := ⟨hwhole, by omega⟩
    have hroom : 3 + 2 ≤ buf.length := by omega
    have hapart : Apart 3 5 [(3, 2)] := ⟨le_rfl, le_rfl⟩
    obtain ⟨hkept', htake', hdrop'⟩ := swapped_keeps order hapart hroom
    have hdecoded := hrun.trans (bswap_run hroom)
    have hfield' := lengthField_eq_of_take order (by omega) hkept' htake'
    have hwell' : Whole order (swapped order [(3, 2)] buf) := ⟨by omega, by omega⟩
    have hlen := hkept'.trans hkept
    have hcut : (swapped order [(3, 2)] buf).drop 8 = raw.drop 8 :=
      (drop_eq_of_le hdrop' (by decide)).trans (drop_eq_of_le hdrop (by decide))
    have hint := (ext_codecs_stay_iff hwell' (by omega)).trans (not_congr (intSectionOverrun_congr hlen hcut))
    have hdccsct := (psip_codecs_stay_iff hwell').trans (not_congr (dccsctSectionOverrun_congr hlen hcut))
    constructor
    · intro hchain
      exact ⟨hfield ▸ hlong, hint.mp (hchain.ext_codecs hdecoded), hdccsct.mp (hchain.psip_codecs hdecoded)⟩
    · intro hinside
      have hunique {ext : List UInt8} (h : (sectionExtDecode order checkCrc).run buf = .ok ((), ext)) :
          ext = swapped order [(3, 2)] buf := by
        rw [hdecoded] at h
        cases h
        rfl
      refine ⟨fun t => t.stays hwell, fun s hs => ?_, fun h => ?_, fun h => ?_⟩
      · rw [hdecoded] at hs
        cases hs
      · rw [hunique h]
        exact hint.mpr hinside.int
      · rw [hunique h]
        exact hdccsct.mpr hinside.dccsct

theorem stays_of_isOk {c : Walk Unit} (h : (c.run buf).isOk = true) : Stays c buf := by
  intro s hs
  rw [hs] at h
  cases h

/-- An IP/MAC notification section with a platform descriptor, and one target with its two loops. -/
theorem chainStays_target :
    let raw : List UInt8 := [0x4c, 0xb0, 0x18, 1, 3, 0xc1, 0, 0, 0, 0, 3, 0, 0xf0, 2,
      0x53, 0, 0xf0, 3, 0x5a, 1, 7, 0xf0, 0, 0x20, 0x50, 0xd7, 0x36]
    sectionCodec .little raw = some (bswap16 .little 1 raw)
      ∧ (Ucsi.sectionExtDecode .little (bswap16 .little 1 raw) true).isSome
      ∧ ChainStays .little true (bswap16 .little 1 raw) := by
  intro raw
  have hcodec : sectionCodec .little raw = some (bswap16 .little 1 raw) := by decide
  have hdecode : (Ucsi.sectionExtDecode .little (bswap16 .little 1 raw) true).isSome := by decide +kernel
  have hrun : ((dvbIntSectionCodec .little).run (bswap16 .little 1 raw)).isOk = true := by decide +kernel
  have hstays : Stays (dvbIntSectionCodec .little) (bswap16 .little 1 raw) := stays_of_isOk hrun
  refine ⟨hcodec, hdecode, (chainStays_iff .little true hcodec hdecode).mpr ⟨by decide, fun hover => ?_, ?_⟩⟩
  · have hsame := @intSectionOverrun_congr raw (bswap16 .little 1 raw) (by decide) (by decide)
    exact (stays_dvbIntSectionCodec_iff ⟨by decide, by decide⟩).mp hstays (hsame.mp hover)
  · rintro ⟨-, hover⟩
    have hcount : be raw 9 1 = 0 := by decide
    rw [hcount] at hover
    cases hover

/-- A section of eight bytes whose last four are the CRC of the others: the header takes them for its own. -/
theorem not_chainStays_eight :
    let raw : List UInt8 := [0x01, 0xb0, 0x05, 0, 0x46, 0x9d, 0xbc, 0xa9]
    sectionCodec .little raw = some (bswap16 .little 1 raw)
      ∧ (Ucsi.sectionExtDecode .little (bswap16 .little 1 raw) true).isSome
      ∧ ¬ ChainStays .little true (bswap16 .little 1 raw) := by
  intro raw
  have hdecode : (Ucsi.sectionExtDecode .little (bswap16 .little 1 raw) true).isSome := by decide +kernel
  exact ⟨by decide, hdecode, not_chainStays_of_short (by decide) hdecode (by decide)⟩

end BgtDvb.Ucsi.Table
