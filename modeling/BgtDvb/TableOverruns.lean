import BgtDvb.TableCodecsSafe

/-!
# Where the table codecs leave a section

Four codecs do not stay inside every section that the header codecs accept.  Those of plain descriptors take the header
from a length that may be shorter than it; that of the IP/MAC notification table has no check in front of the lengths of
its two loops; and that of the DCC selection code table reads a length twice as far on as it should.

* `verifyDescriptors_fault` — **PROVED**: a length that has wrapped around leads out of every buffer;
* `stays_dvbIntSectionCodec_iff`, `stays_atscDccsctSectionCodec_iff` — **PROVED**: no others do;
* `chainStays_iff` — **PROVED**: the sections on which all is well.
-/

namespace BgtDvb.Ucsi.Table

open BgtDvb.Walks
open BgtDvb.Words

/-! ### Lengths that have wrapped around -/

theorem beNat_lt_of_length_one {bytes : List UInt8} (h : bytes.length = 1) : beNat bytes < 256 := by
  obtain ⟨b, rfl⟩ := List.length_eq_one_iff.mp h
  rw [beNat_single]
  exact b.toNat_lt

theorem run_require {p : Prop} [Decidable p] (h : p) (buf : List UInt8) : (require p).run buf = .ok ((), buf) :=
  require_ok_iff.mpr ⟨h, rfl⟩

theorem run_require_not {p : Prop} [Decidable p] (h : ¬ p) (buf : List UInt8) :
    (require p).run buf = .error .refused := by
  unfold require
  rw [if_neg h]
  rfl

variable {buf buf' : List UInt8} {pos len a part2 : ℕ} {order : ByteOrder}

theorem run_read_fault {i k : ℕ} (h : buf.length < i + k) : (read i k).run buf = .error .fault :=
  if_neg (Nat.not_le.mpr h)

theorem whileBelow_skipDescriptor_fault {stop : ℕ} (hstop : buf.length + 260 ≤ stop) (fuel : ℕ)
    (hpos : pos ≤ buf.length + 257) (hfuel : buf.length + 1 - pos < fuel) :
    (whileBelow stop (skipDescriptor stop) fuel pos).run buf = .error .fault := by
  induction fuel generalizing pos with
  | zero => exact absurd hfuel (Nat.not_lt_zero _)
  | succ fuel ih =>
    have hlt : pos < stop := by omega
    have hroom : pos + 2 ≤ stop := by omega
    rw [whileBelow, if_pos hlt]
    by_cases hin : pos + 1 + 1 ≤ buf.length
    · have hbyte : be buf (pos + 1) 1 < 256 := beNat_lt_of_length_one (length_slice hin)
      have hskip : (skipDescriptor stop pos).run buf = .ok (pos + 2 + be buf (pos + 1) 1, buf) := by
        rw [skipDescriptor, run_bind_ok (run_require hroom buf), run_bind_ok (read_ok_iff.mpr ⟨hin, rfl⟩)]
        rfl
      rw [run_bind_ok hskip]
      exact ih (by omega) (by omega)
    · refine run_bind_error ?_
      rw [skipDescriptor, run_bind_ok (run_require hroom buf)]
      exact run_bind_error (run_read_fault (Nat.not_le.mp hin))

/-- **A length that has wrapped around** leads `verify_descriptors` out of the buffer. -/
theorem verifyDescriptors_fault (hpos : pos ≤ buf.length + 257) (hlen : buf.length + 260 ≤ len) :
    (verifyDescriptors pos len).run buf = .error .fault := by
  rw [verifyDescriptors]
  exact run_bind_error (whileBelow_skipDescriptor_fault (by omega) len hpos (by omega))

theorem extLength_of_length_eq (h : buf.length = lengthField order buf + 3) :
    extLength order buf = (lengthField order buf + 3 + (2 ^ 64 - 4)) % 2 ^ 64 := by
  have hroom : 3 ≤ buf.length := by omega
  rw [extLength, host_sectionWord hroom]
  rfl

theorem not_stays_descriptorSectionCodec (h : buf.length = lengthField order buf + 3)
    (hshort : lengthField order buf < 9) : ¬ Stays (descriptorSectionCodec order) buf := by
  intro hstays
  have hroom : 3 ≤ buf.length := by omega
  have hlen : buf.length + 260 ≤ sizeSub (extLength order buf) 8 := by
    rw [extLength_of_length_eq h]
    unfold sizeSub
    omega
  rw [descriptorSectionCodec, stays_bind_ok (sectionExtLength_run hroom)] at hstays
  cases hstays .fault (verifyDescriptors_fault (by omega) hlen)

/-! ### Targets without a check -/

theorem intHeader_wf : intHeader.Wf := ⟨by decide, by decide, by decide⟩

theorem require_congr {p q : Prop} [Decidable p] [Decidable q] (h : p ↔ q) : require p = require q :=
  if_congr h rfl rfl

theorem intLoop_eq_block (order : ByteOrder) (hpos : pos ≤ len) (hlen : len < 2 ^ 64) :
    intLoop order len pos = block order lengthHeader (len + 2) pos := by
  have hroom : require (pos + lengthHeader.size ≤ len + 2) = pure () := if_pos (Nat.add_le_add_right hpos 2)
  have hlength (w : ℕ) : require (w % 2 ^ 12 ≤ sizeSub len pos) = require (pos + 2 + w % 2 ^ 12 ≤ len + 2) := by
    rw [sizeSub_of_le hpos hlen]
    exact require_congr (by omega)
  unfold intLoop block
  rw [hroom, pure_bind]
  simp only [lengthHeader, hlength, pure_bind, bswapAll, bind_assoc, Nat.add_zero]
  rfl

theorem intLoop_swapped (order : ByteOrder) (hroom : pos + 2 ≤ buf.length) {β : Type} (f : ℕ → Walk β) :
    (bswap order pos 2 >>= fun _ => word order pos 2 >>= f).run buf =
      (f (be buf pos 2)).run (swapped order [(pos, 2)] buf) := by
  have hapart : Apart pos (pos + 2) [(pos, 2)] := ⟨le_rfl, le_rfl⟩
  have hkept := (swapped_keeps order hapart hroom).1
  have hread : pos + 2 ≤ (swapped order [(pos, 2)] buf).length := hkept.symm ▸ hroom
  have hhost : host order (swapped order [(pos, 2)] buf) pos 2 = be buf pos 2 :=
    host_swapped hapart hroom List.mem_cons_self
  rw [run_bind_ok (bswap_run hroom), run_bind_ok ((word_ok_iff order).mpr ⟨hread, rfl⟩), hhost]

/-- A loop that starts behind the start of the CRC is left as soon as it has two bytes. -/
theorem intLoop_over (order : ByteOrder) (hbuf : buf.length = len + 4) (hover : len < pos) (hpos : pos ≤ len + 2)
    (hlen : len < 2 ^ 63) :
    (be buf pos 2 % 2 ^ 12 = 0 ∧ (intLoop order len pos).run buf = .ok (pos + 2, swapped order [(pos, 2)] buf))
      ∨ (be buf pos 2 % 2 ^ 12 = 1 ∧ (intLoop order len pos).run buf = .error .refused)
      ∨ (2 ≤ be buf pos 2 % 2 ^ 12 ∧ (intLoop order len pos).run buf = .error .fault) := by
  have hroom : pos + 2 ≤ buf.length := by omega
  have hapart : Apart pos (pos + 2) [(pos, 2)] := ⟨le_rfl, le_rfl⟩
  have hkept : (swapped order [(pos, 2)] buf).length = len + 4 := (swapped_keeps order hapart hroom).1.trans hbuf
  have hwrapped : be buf pos 2 % 2 ^ 12 ≤ sizeSub len pos := by
    unfold sizeSub
    omega
  have hrun : (intLoop order len pos).run buf = (verifyDescriptors (pos + 2) (be buf pos 2 % 2 ^ 12) >>= fun _ =>
      pure (pos + 2 + be buf pos 2 % 2 ^ 12)).run (swapped order [(pos, 2)] buf) := by
    rw [intLoop, intLoop_swapped order hroom, run_bind_ok (run_require hwrapped _)]
  rw [hrun]
  rcases Nat.lt_or_ge (be buf pos 2 % 2 ^ 12) 2 with hshort | hlong
  · rcases Nat.lt_or_ge (be buf pos 2 % 2 ^ 12) 1 with hzero | hone
    · have hlength : be buf pos 2 % 2 ^ 12 = 0 := Nat.lt_one_iff.mp hzero
      refine .inl ⟨hlength, ?_⟩
      rw [hlength]
      have hverify : (verifyDescriptors (pos + 2) 0).run (swapped order [(pos, 2)] buf) =
          .ok ((), swapped order [(pos, 2)] buf) :=
        (verifyDescriptors_ok_iff (by omega)).mpr ⟨⟨[], .nil⟩, rfl⟩
      rw [run_bind_ok hverify]
      rfl
    · have hlength : be buf pos 2 % 2 ^ 12 = 1 := by omega
      refine .inr (.inl ⟨hlength, ?_⟩)
      rw [hlength]
      have hnext : pos + 2 < pos + 2 + 1 := Nat.lt_succ_self _
      have hnone : ¬ pos + 2 + 2 ≤ pos + 2 + 1 := by omega
      have hverify : (verifyDescriptors (pos + 2) 1).run (swapped order [(pos, 2)] buf) = .error .refused := by
        rw [verifyDescriptors, whileBelow, if_pos hnext]
        exact run_bind_error (run_bind_error (run_bind_error (run_require_not hnone _)))
      exact run_bind_error hverify
  · refine .inr (.inr ⟨hlong, ?_⟩)
    have hverify : (verifyDescriptors (pos + 2) (be buf pos 2 % 2 ^ 12)).run (swapped order [(pos, 2)] buf) =
        .error .fault := by
      obtain ⟨k, hk⟩ := Nat.exists_eq_add_of_le' hlong
      have hnext : pos + 2 < pos + 2 + (k + 2) := by omega
      have hroom' : pos + 2 + 2 ≤ pos + 2 + (k + 2) := by omega
      have houtside : (swapped order [(pos, 2)] buf).length < pos + 2 + 1 + 1 := by omega
      rw [hk, verifyDescriptors, whileBelow, if_pos hnext]
      refine run_bind_error (run_bind_error ?_)
      rw [skipDescriptor, run_bind_ok (run_require hroom' _)]
      exact run_bind_error (run_read_fault houtside)
    exact run_bind_error hverify

theorem block_run (order : ByteOrder) {h : Header} (hw : h.Wf) (pos : ℕ) (hlen : len ≤ buf.length) :
    (∃ stop x, stop ≤ len ∧ BlockAt h buf pos stop x
        ∧ (block order h len pos).run buf = .ok (stop, swapped order (x.fields h) buf))
      ∨ ((∀ stop x, BlockAt h buf pos stop x → ¬ stop ≤ len) ∧ (block order h len pos).run buf = .error .refused) := by
  have hends : Ends buf.length (fun pos' => pos < pos' ∧ pos' ≤ len) ((block order h len pos).run buf) :=
    hw.safe_block order hlen buf rfl
  cases hrun : (block order h len pos).run buf with
  | ok r =>
    obtain ⟨hstop, x, hx, hbuf'⟩ := (block_ok_iff hw hlen).mp hrun
    exact .inl ⟨r.1, x, hstop, hx, congrArg Except.ok (Prod.ext rfl hbuf')⟩
  | error s =>
    rw [hrun] at hends
    refine .inr ⟨fun stop x hx hstop => ?_, congrArg Except.error hends⟩
    have hok : (block order h len pos).run buf = .ok (stop, swapped order (x.fields h) buf) :=
      (block_ok_iff hw hlen).mpr ⟨hstop, x, hx, rfl⟩
    rw [hrun] at hok
    cases hok

theorem BlockAt.stop_unique {h : Header} {b c : ℕ} {x y : Block} (hx : BlockAt h buf a b x) (hy : BlockAt h buf a c y) :
    b = c :=
  hx.stop_eq.trans hy.stop_eq.symm

/-- **What leads `dvb_int_section_codec` out**, from a position on: a target that ends behind the start of the CRC, or
ends with it, and two bytes of the CRC that count two descriptor bytes or more. -/
inductive IntOverrun (buf : List UInt8) (len : ℕ) : ℕ → Prop
  | here {pos loop : ℕ} {x : Block} (inside : pos < len) (target : BlockAt lengthHeader buf pos loop x)
    (behind : len < loop) (room : loop ≤ len + 2) (long : 2 ≤ blockLength lengthHeader buf loop) : IntOverrun buf len pos
  | next {pos loop stop : ℕ} {x y : Block} (inside : pos < len) (target : BlockAt lengthHeader buf pos loop x)
    (before : loop ≤ len) (operational : BlockAt lengthHeader buf loop stop y) (rest : IntOverrun buf len stop) :
    IntOverrun buf len pos

theorem lengthBlock_ahead (hdrop : buf.drop a = buf'.drop a) {i j : ℕ} {x : Block} (hi : a ≤ i)
    (hx : BlockAt lengthHeader buf i j x) : i ≤ j ∧ BlockAt lengthHeader buf' i j x :=
  ⟨(blockAt_lt lengthHeader_wf hx).2.le, blockAt_ahead lengthHeader_wf (drop_eq_of_le hdrop hi) hx⟩

theorem blockLength_ahead (hdrop : buf.drop a = buf'.drop a) {i : ℕ} (hi : a ≤ i) :
    blockLength lengthHeader buf i = blockLength lengthHeader buf' i :=
  congrArg (fun bytes => beNat bytes % 2 ^ 12) (slice_eq_of_drop hdrop (Nat.le_add_right_of_le hi))

theorem IntOverrun.ahead (hdrop : buf.drop a = buf'.drop a) (hpos : a ≤ pos) (h : IntOverrun buf len pos) :
    IntOverrun buf' len pos := by
  induction h with
  | here inside target behind room long =>
    obtain ⟨hle, target'⟩ := lengthBlock_ahead hdrop hpos target
    exact .here inside target' behind room (long.trans_eq (blockLength_ahead hdrop (hpos.trans hle)))
  | next inside target before operational rest ih =>
    obtain ⟨hle, target'⟩ := lengthBlock_ahead hdrop hpos target
    obtain ⟨hle', operational'⟩ := lengthBlock_ahead hdrop (hpos.trans hle) operational
    exact .next inside target' before operational' (ih (hpos.trans (hle.trans hle')))

theorem intOverrun_congr (hdrop : buf.drop a = buf'.drop a) (hpos : a ≤ pos) :
    IntOverrun buf len pos ↔ IntOverrun buf' len pos :=
  ⟨IntOverrun.ahead hdrop hpos, IntOverrun.ahead hdrop.symm hpos⟩

theorem IntOverrun.inside {buf : List UInt8} {len pos : ℕ} (h : IntOverrun buf len pos) : pos < len := by
  cases h with
  | here inside => exact inside
  | next inside => exact inside

theorem intOverrun_iff {loop : ℕ} {x : Block} (hinside : pos < len) (hx : BlockAt lengthHeader buf pos loop x)
    (hloop : loop ≤ len + 2) :
    IntOverrun buf len pos ↔
      len < loop ∧ 2 ≤ blockLength lengthHeader buf loop
        ∨ loop ≤ len ∧ ∃ stop y, BlockAt lengthHeader buf loop stop y ∧ IntOverrun buf len stop := by
  constructor
  · intro hover
    cases hover with
    | here _ target behind _ long =>
      rw [target.stop_unique hx] at behind long
      exact .inl ⟨behind, long⟩
    | next _ target before operational rest =>
      rw [target.stop_unique hx] at before operational
      exact .inr ⟨before, _, _, operational, rest⟩
  · rintro (⟨behind, long⟩ | ⟨before, stop, y, operational, rest⟩)
    · exact .here hinside hx behind hloop long
    · exact .next hinside hx before operational rest

section Int

variable (order : ByteOrder) {len : ℕ}

theorem intLoop_run (hbuf : buf.length = len + 4) (hlen : len < 2 ^ 63) (hpos : pos ≤ len) :
    (∃ stop x, stop ≤ len + 2 ∧ BlockAt lengthHeader buf pos stop x ∧ ∃ buf' : List UInt8,
        (intLoop order len pos).run buf = .ok (stop, buf') ∧ buf'.length = len + 4 ∧ buf'.drop stop = buf.drop stop)
      ∨ ((∀ stop x, BlockAt lengthHeader buf pos stop x → ¬ stop ≤ len + 2)
        ∧ (intLoop order len pos).run buf = .error .refused) := by
  have hroom : len + 2 ≤ buf.length := by omega
  rw [intLoop_eq_block order hpos (by omega)]
  rcases block_run order lengthHeader_wf pos hroom with ⟨stop, x, hstop, hx, hrun⟩ | hrefused
  · obtain ⟨hkept, -, hdrop⟩ := (takes_block order lengthHeader_wf hroom).keeps rfl hstop hx
    exact .inl ⟨stop, x, hstop, hx, _, hrun, hkept.trans hbuf, hdrop⟩
  · exact .inr hrefused

theorem stays_behind_iff (hbuf : buf.length = len + 4) (hlen : len < 2 ^ 63) {loop : ℕ} (hbehind : len < loop)
    (hloop : loop ≤ len + 2) (fuel : ℕ) :
    Stays (intLoop order len loop >>= whileBelow len (intTarget order len) fuel) buf ↔
      ¬ 2 ≤ blockLength lengthHeader buf loop := by
  have hdone : ¬ loop + 2 < len := by omega
  have hlength : blockLength lengthHeader buf loop = be buf loop 2 % 2 ^ 12 := rfl
  rw [hlength]
  rcases intLoop_over order hbuf hbehind hloop hlen with ⟨hzero, hrun⟩ | ⟨hone, hrun⟩ | ⟨hlong, hrun⟩
  · rw [stays_bind_ok hrun, whileBelow_of_not_lt hdone]
    exact iff_of_true (stays_pure _) (by omega)
  · exact iff_of_true (stays_bind_refused hrun) (by omega)
  · exact iff_of_false (not_stays_bind hrun) (not_not_intro hlong)

/-- **The loop of `dvb_int_section_codec`** goes outside exactly where a target leads it there. -/
theorem stays_intTargets_iff (hlen : len < 2 ^ 63) (fuel : ℕ) (hfuel : len - pos ≤ fuel) (hbuf : buf.length = len + 4) :
    Stays (whileBelow len (intTarget order len) fuel pos) buf ↔ ¬ IntOverrun buf len pos := by
  induction fuel generalizing pos buf with
  | zero =>
    have hdone : ¬ pos < len := by omega
    rw [whileBelow_of_not_lt hdone]
    exact iff_of_true (stays_pure pos) fun hover => hdone hover.inside
  | succ fuel ih =>
    by_cases hinside : pos < len
    · rw [whileBelow, if_pos hinside, intTarget, bind_assoc]
      rcases intLoop_run order hbuf hlen hinside.le with ⟨loop, x, hloop, hx, buf', hrun, hbuf', hdrop⟩ | ⟨hnone, hrun⟩
      · rw [stays_bind_ok hrun, intOverrun_iff hinside hx hloop]
        rcases Nat.lt_or_ge len loop with hbehind | hbefore
        · rw [stays_behind_iff order hbuf' hlen hbehind hloop, blockLength_ahead hdrop le_rfl]
          refine not_congr ⟨fun long => .inl ⟨hbehind, long⟩, ?_⟩
          rintro (⟨-, long⟩ | ⟨before, -⟩)
          · exact long
          · exact absurd hbehind (Nat.not_lt.mpr before)
        · -- the operational loop starts in front of the CRC as well, and the next round behind it
          have hrest : (len < loop ∧ 2 ≤ blockLength lengthHeader buf loop
                ∨ loop ≤ len ∧ ∃ stop y, BlockAt lengthHeader buf loop stop y ∧ IntOverrun buf len stop) ↔
              ∃ stop y, BlockAt lengthHeader buf' loop stop y ∧ IntOverrun buf len stop := by
            constructor
            · rintro (⟨behind, -⟩ | ⟨-, stop, y, hy, hover⟩)
              · exact absurd behind (Nat.not_lt.mpr hbefore)
              · exact ⟨stop, y, blockAt_ahead lengthHeader_wf hdrop.symm hy, hover⟩
            · rintro ⟨stop, y, hy, hover⟩
              exact .inr ⟨hbefore, stop, y, blockAt_ahead lengthHeader_wf hdrop hy, hover⟩
          rw [hrest]
          rcases intLoop_run order hbuf' hlen hbefore with ⟨stop, y, -, hy, buf'', hrun', hbuf'', hdrop'⟩ | ⟨hnone, hrun'⟩
          · have hstop := (blockAt_lt lengthHeader_wf hy).2
            have hloop' := (blockAt_lt lengthHeader_wf hx).2
            have hcut : buf''.drop stop = buf.drop stop := hdrop'.trans (drop_eq_of_le hdrop hstop.le)
            rw [stays_bind_ok hrun', ih (by omega) hbuf'', intOverrun_congr hcut le_rfl]
            refine not_congr ⟨fun hover => ⟨stop, y, hy, hover⟩, fun hmore => ?_⟩
            obtain ⟨_, _, hz, hover⟩ := hmore
            rwa [hz.stop_unique hy] at hover
          · refine iff_of_true (stays_bind_refused hrun') fun hmore => ?_
            obtain ⟨stop, y, hy, hover⟩ := hmore
            refine hnone stop y hy ?_
            exact hover.inside.le.trans (Nat.le_add_right len 2)
      · refine iff_of_true (stays_bind_refused hrun) fun hover => ?_
        cases hover with
        | here _ target _ room => exact hnone _ _ target room
        | next _ target before => exact hnone _ _ target (before.trans (Nat.le_add_right len 2))
    · rw [whileBelow_of_not_lt hinside]
      exact iff_of_true (stays_pure pos) fun hover => hinside hover.inside

end Int

def IntSectionOverrun (buf : List UInt8) : Prop :=
  ∃ pos x, BlockAt intHeader buf 8 pos x ∧ pos ≤ buf.length - 4 ∧ IntOverrun buf (buf.length - 4) pos

theorem stays_dvbIntSectionCodec_iff (h : Whole order buf) :
    Stays (dvbIntSectionCodec order) buf ↔ ¬ IntSectionOverrun buf := by
  have hroom := h.room
  have hlt : lengthField order buf < 2 ^ 12 := Nat.mod_lt _ (by decide)
  have hwhole := h.length_eq
  have hlen : buf.length - 4 ≤ buf.length := Nat.sub_le _ _
  rw [dvbIntSectionCodec, stays_bind_ok h.sectionExtLength_run]
  rcases block_run order intHeader_wf 8 hlen with ⟨pos, x, hpos, hx, hrun⟩ | ⟨hnone, hrun⟩
  · obtain ⟨hkept, -, hdrop⟩ := (takes_block order intHeader_wf hlen).keeps rfl hpos hx
    have hbuf : (swapped order (x.fields intHeader) buf).length = buf.length - 4 + 4 := by omega
    rw [stays_bind_ok hrun, stays_bind_iff fun _ _ _ => stays_pure (),
      stays_intTargets_iff order (by omega) _ (Nat.sub_le _ _) hbuf, intOverrun_congr hdrop le_rfl]
    refine not_congr ⟨fun hover => ⟨pos, x, hx, hpos, hover⟩, fun hsection => ?_⟩
    obtain ⟨_, _, hy, _, hover⟩ := hsection
    rwa [hy.stop_unique hx] at hover
  · refine iff_of_true (stays_bind_refused hrun) fun hsection => ?_
    obtain ⟨_, _, hx, hpos, _⟩ := hsection
    exact hnone _ _ hx hpos

/-- A target of two bytes, the first two of the CRC behind it, and a length in the last two. -/
example : IntSectionOverrun [0x4c, 0xb0, 0x11, 0, 0, 0xc1, 0, 0, 0, 0, 0, 0, 0xf0, 0, 0xf0, 2, 0, 0, 0xf0, 2] := by
  refine ⟨14, ⟨8, []⟩, ⟨rfl, rfl, .nil⟩, by decide, ?_⟩
  have htarget : BlockAt lengthHeader
      [0x4c, 0xb0, 0x11, 0, 0, 0xc1, 0, 0, 0, 0, 0, 0, 0xf0, 0, 0xf0, 2, 0, 0, 0xf0, 2] 14 18 ⟨14, [16]⟩ :=
    ⟨rfl, rfl, .cons (b := 18) ⟨rfl, rfl⟩ .nil⟩
  exact .here (by decide) htarget (by decide) (by decide) (by decide)

/-! ### A length in the wrong place -/

theorem peeks_atscTextValidate (start len : ℕ) : Peeks start (atscTextValidate start len) := by
  have hread (i : ℕ) : Peeks start (read (start + i) 1) := peeks_read (Nat.le_add_right start i)
  have hsegment (pos : ℕ) : Peeks start (textSegment start len pos) :=
    (peeks_require _).bind fun _ => (hread (pos + 2)).bind fun _ => (peeks_require _).bind fun _ => peeks_pure _
  have hstring (pos : ℕ) : Peeks start (textString start len pos) :=
    (peeks_require _).bind fun _ => (hread (pos + 3)).bind fun _ => peeks_times hsegment _ _
  unfold atscTextValidate
  split_ifs
  · exact peeks_pure ()
  · exact (hread 0).bind fun _ => (peeks_times hstring _ _).bind fun _ => peeks_pure ()

/-- `atsc_text_validate` finds no fault with a text. -/
def TextAt (buf : List UInt8) (start len : ℕ) : Prop := (atscTextValidate start len).run buf = .ok ((), buf)

theorem textAt_congr {start : ℕ} (len : ℕ) (hlen : buf.length = buf'.length)
    (hdrop : buf.drop start = buf'.drop start) : TextAt buf start len ↔ TextAt buf' start len :=
  (peeks_atscTextValidate start len).run_congr hlen hdrop

theorem atscTextValidate_run {start : ℕ} (hroom : start + len ≤ buf.length) :
    TextAt buf start len ∨ ¬ TextAt buf start len ∧ (atscTextValidate start len).run buf = .error .refused := by
  have hends := safe_atscTextValidate hroom buf rfl
  unfold TextAt
  cases hrun : (atscTextValidate start len).run buf with
  | ok r =>
    have hkept := (peeks_atscTextValidate start len).keeps hrun
    exact .inl (congrArg Except.ok (Prod.ext rfl hkept))
  | error s =>
    rw [hrun] at hends
    exact .inr ⟨fun hok => (by cases hok), congrArg Except.error hends⟩

def UpdateData (buf : List UInt8) (pos dataLength updateType : ℕ) : Prop :=
  if updateType = 1 ∨ updateType = 2 then 1 ≤ dataLength ∧ TextAt buf (pos + 1) (dataLength - 1)
  else if updateType = 3 then 3 ≤ dataLength ∧ TextAt buf (pos + 3) (dataLength - 3)
  else True

/-- An update of a DCC selection code table, as far as its `part2`. -/
structure UpdateAt (buf : List UInt8) (len pos part2 : ℕ) : Prop where
  header : pos + 2 ≤ len
  part2_eq : part2 = pos + 2 + be buf (pos + 1) 1
  data : UpdateData buf (pos + 2) (be buf (pos + 1) 1) (be buf pos 1)
  room : part2 + 2 ≤ len

theorem updateData_congr {dataLength updateType : ℕ} (hlen : buf.length = buf'.length)
    (hdrop : buf.drop pos = buf'.drop pos) :
    UpdateData buf pos dataLength updateType ↔ UpdateData buf' pos dataLength updateType := by
  have htext (i len : ℕ) : TextAt buf (pos + i) len ↔ TextAt buf' (pos + i) len :=
    textAt_congr len hlen (drop_eq_of_le hdrop (Nat.le_add_right pos i))
  unfold UpdateData
  rw [htext, htext]

theorem be_eq_of_drop {i k : ℕ} (hdrop : buf.drop a = buf'.drop a) (hi : a ≤ i) : be buf i k = be buf' i k :=
  congrArg beNat (slice_eq_of_drop hdrop hi)

theorem UpdateAt.ahead (hlen : buf.length = buf'.length) (hdrop : buf.drop pos = buf'.drop pos)
    (h : UpdateAt buf len pos part2) : UpdateAt buf' len pos part2 := by
  have hlength := be_eq_of_drop hdrop (i := pos + 1) (k := 1) (Nat.le_add_right pos 1)
  have htype := be_eq_of_drop hdrop (i := pos) (k := 1) le_rfl
  refine ⟨h.header, hlength ▸ h.part2_eq, ?_, h.room⟩
  rw [← hlength, ← htype, ← updateData_congr hlen (drop_eq_of_le hdrop (Nat.le_add_right pos 2))]
  exact h.data

/-- **What leads `atsc_dccsct_section_codec` out**, from the update at a position on: an update whose `part2` stands so
far on that twice its position is outside. -/
inductive DccsctOverrun (order : ByteOrder) (buf : List UInt8) (len : ℕ) : ℕ → ℕ → Prop
  | here {count pos part2 : ℕ} (update : UpdateAt buf len pos part2) (outside : buf.length < 2 * part2 + 2) :
    DccsctOverrun order buf len (count + 1) pos
  | next {count pos part2 stop : ℕ} {ds : List ℕ} (update : UpdateAt buf len pos part2)
    (inside : 2 * part2 + 2 ≤ buf.length) (stop_eq : stop = part2 + 2 + host order buf (2 * part2) 2 % 2 ^ 10)
    (before : stop ≤ len) (descriptors : Tiles (Descriptor buf) (part2 + 2) stop ds)
    (rest : DccsctOverrun order buf len count stop) : DccsctOverrun order buf len (count + 1) pos

theorem UpdateAt.lt (h : UpdateAt buf len pos part2) : pos + 2 ≤ part2 := by
  have heq := h.part2_eq
  omega

theorem UpdateAt.part2_unique {part2' : ℕ} (h : UpdateAt buf len pos part2) (h' : UpdateAt buf len pos part2') :
    part2 = part2' :=
  h.part2_eq.trans h'.part2_eq.symm

theorem DccsctOverrun.ahead {count : ℕ} (hlen : buf.length = buf'.length) (hdrop : buf.drop a = buf'.drop a)
    (hpos : a ≤ pos) (h : DccsctOverrun order buf len count pos) : DccsctOverrun order buf' len count pos := by
  induction h with
  | here update outside => exact .here (update.ahead hlen (drop_eq_of_le hdrop hpos)) (hlen ▸ outside)
  | @next count pos part2 stop ds update inside stop_eq before descriptors rest ih =>
    have hlt := update.lt
    have hhost : host order buf (2 * part2) 2 = host order buf' (2 * part2) 2 :=
      congrArg (value order) (slice_eq_of_drop hdrop (by omega))
    have hds := descriptors_ahead (drop_eq_of_le hdrop (by omega)) descriptors
    exact .next (update.ahead hlen (drop_eq_of_le hdrop hpos)) (hlen ▸ inside) (hhost ▸ stop_eq) before hds
      (ih (by omega))

theorem dccsctOverrun_iff {count stop : ℕ} (hupdate : UpdateAt buf len pos part2)
    (hinside : 2 * part2 + 2 ≤ buf.length) (hstop : stop = part2 + 2 + host order buf (2 * part2) 2 % 2 ^ 10) :
    DccsctOverrun order buf len (count + 1) pos ↔
      (stop ≤ len ∧ ∃ ds, Tiles (Descriptor buf) (part2 + 2) stop ds) ∧ DccsctOverrun order buf len count stop := by
  constructor
  · intro hover
    cases hover with
    | here hupdate' outside =>
      rw [hupdate'.part2_unique hupdate] at outside
      exact absurd outside (Nat.not_lt.mpr hinside)
    | next hupdate' _ stop_eq before descriptors rest =>
      rw [hupdate'.part2_unique hupdate] at stop_eq descriptors
      rw [stop_eq.trans hstop.symm] at before descriptors rest
      exact ⟨⟨before, _, descriptors⟩, rest⟩
  · rintro ⟨⟨before, ds, descriptors⟩, rest⟩
    exact .next hupdate hinside hstop before descriptors rest

/-- One round, as far as `part2`. -/
def updateFront (order : ByteOrder) (len pos : ℕ) : Walk ℕ := do
  require (pos + 2 ≤ len)
  let updateType ← read pos 1
  let dataLength ← read (pos + 1) 1
  require (pos + 2 + beNat dataLength ≤ len)
  updateData order (pos + 2) (beNat dataLength) (beNat updateType)
  require (pos + 2 + beNat dataLength + 2 ≤ len)
  pure (pos + 2 + beNat dataLength)

/-- One round, from `part2` on. -/
def updatePart2 (order : ByteOrder) (len part2 : ℕ) : Walk ℕ := do
  bswap order part2 2
  let w ← word order (2 * part2) 2
  require (part2 + 2 + w % 2 ^ 10 ≤ len)
  verifyDescriptors (part2 + 2) (w % 2 ^ 10)
  pure (part2 + 2 + w % 2 ^ 10)

theorem dccsctUpdate_eq (order : ByteOrder) (len pos : ℕ) :
    dccsctUpdate order len pos = updateFront order len pos >>= updatePart2 order len := by
  unfold updateFront
  simp only [bind_assoc, pure_bind]
  rfl

section Dccsct

variable (order : ByteOrder) {len : ℕ}

theorem updateData_run {dataLength : ℕ} (updateType : ℕ) (hroom : pos + dataLength ≤ buf.length) :
    (UpdateData buf pos dataLength updateType ∧ ∃ buf' : List UInt8,
        (updateData order pos dataLength updateType).run buf = .ok ((), buf')
          ∧ buf'.length = buf.length ∧ buf'.drop (pos + dataLength) = buf.drop (pos + dataLength))
      ∨ (¬ UpdateData buf pos dataLength updateType
        ∧ (updateData order pos dataLength updateType).run buf = .error .refused) := by
  unfold UpdateData updateData
  split_ifs
  · by_cases hlong : 1 ≤ dataLength
    · rw [run_bind_ok (run_require hlong buf)]
      have hname : pos + 1 + (dataLength - 1) ≤ buf.length := by omega
      rcases atscTextValidate_run hname with h | ⟨h, hrun⟩
      · exact .inl ⟨⟨hlong, h⟩, buf, h, rfl, rfl⟩
      · exact .inr ⟨fun hdata => h hdata.2, hrun⟩
    · exact .inr ⟨fun hdata => hlong hdata.1, run_bind_error (run_require_not hlong buf)⟩
  · by_cases hlong : 3 ≤ dataLength
    · have hswap : pos + 1 + 2 ≤ buf.length := by omega
      have hapart : Apart (pos + 1) (pos + 3) [(pos + 1, 2)] := ⟨le_rfl, le_rfl⟩
      obtain ⟨hkept, -, hdrop⟩ := swapped_keeps order hapart hswap
      have hcongr := textAt_congr (dataLength - 3) hkept hdrop
      have hname : pos + 3 + (dataLength - 3) ≤ (swapped order [(pos + 1, 2)] buf).length := by omega
      rw [run_bind_ok (run_require hlong buf), run_bind_ok (bswap_run hswap)]
      rcases atscTextValidate_run hname with h | ⟨h, hrun⟩
      · exact .inl ⟨⟨hlong, hcongr.mp h⟩, _, h, hkept, drop_eq_of_le hdrop (by omega)⟩
      · exact .inr ⟨fun hdata => h (hcongr.mpr hdata.2), hrun⟩
    · exact .inr ⟨fun hdata => hlong hdata.1, run_bind_error (run_require_not hlong buf)⟩
  · exact .inl ⟨trivial, buf, rfl, rfl, rfl⟩

theorem updateFront_run (pos : ℕ) (hlen : len ≤ buf.length) :
    (∃ part2, UpdateAt buf len pos part2 ∧ ∃ buf' : List UInt8, (updateFront order len pos).run buf = .ok (part2, buf')
          ∧ buf'.length = buf.length ∧ buf'.drop part2 = buf.drop part2)
      ∨ ((∀ part2, ¬ UpdateAt buf len pos part2) ∧ (updateFront order len pos).run buf = .error .refused) := by
  by_cases hheader : pos + 2 ≤ len
  · have htype : pos + 1 ≤ buf.length := by omega
    have hlength : pos + 1 + 1 ≤ buf.length := by omega
    rw [updateFront, run_bind_ok (run_require hheader buf), run_bind_ok (read_ok_iff.mpr ⟨htype, rfl⟩),
      run_bind_ok (read_ok_iff.mpr ⟨hlength, rfl⟩), ← be, ← be]
    by_cases hdata : pos + 2 + be buf (pos + 1) 1 ≤ len
    · rw [run_bind_ok (run_require hdata buf)]
      rcases updateData_run order (be buf pos 1) (hdata.trans hlen) with ⟨h, buf', hrun, hkept, hdrop⟩ | ⟨h, hrun⟩
      · rw [run_bind_ok hrun]
        by_cases hroom : pos + 2 + be buf (pos + 1) 1 + 2 ≤ len
        · rw [run_bind_ok (run_require hroom buf')]
          exact .inl ⟨_, ⟨hheader, rfl, h, hroom⟩, buf', rfl, hkept, hdrop⟩
        · refine .inr ⟨fun part2 hupdate => hroom ?_, run_bind_error (run_require_not hroom buf')⟩
          exact hupdate.part2_eq ▸ hupdate.room
      · exact .inr ⟨fun part2 hupdate => h hupdate.data, run_bind_error hrun⟩
    · refine .inr ⟨fun part2 hupdate => hdata ?_, run_bind_error (run_require_not hdata buf)⟩
      have heq := hupdate.part2_eq
      have hroom := hupdate.room
      omega
  · exact .inr ⟨fun part2 hupdate => hheader hupdate.header, run_bind_error (run_require_not hheader buf)⟩

/-- The length is read behind `part2`, where nothing is swapped yet. -/
theorem updatePart2_swapped (hpart2 : 2 ≤ part2) (hroom : part2 + 2 ≤ buf.length) :
    ∃ buf' : List UInt8, buf'.length = buf.length ∧ buf'.drop (part2 + 2) = buf.drop (part2 + 2)
      ∧ host order buf' (2 * part2) 2 = host order buf (2 * part2) 2
      ∧ (bswap order part2 2).run buf = .ok ((), buf') := by
  have hapart : Apart part2 (part2 + 2) [(part2, 2)] := ⟨le_rfl, le_rfl⟩
  obtain ⟨hkept, -, hdrop⟩ := swapped_keeps order hapart hroom
  have hfar : part2 + 2 ≤ 2 * part2 := by omega
  exact ⟨_, hkept, hdrop, congrArg (value order) (slice_eq_of_drop hdrop hfar), bswap_run hroom⟩

theorem updatePart2_fault (hpart2 : 2 ≤ part2) (hroom : part2 + 2 ≤ buf.length)
    (houtside : buf.length < 2 * part2 + 2) : (updatePart2 order len part2).run buf = .error .fault := by
  obtain ⟨buf', hkept, -, -, hrun⟩ := updatePart2_swapped order hpart2 hroom
  rw [updatePart2, run_bind_ok hrun]
  exact run_bind_error (run_bind_error (run_read_fault (hkept ▸ houtside)))

theorem updatePart2_run (hpart2 : 2 ≤ part2) (hroom : part2 + 2 ≤ len) (hlen : len ≤ buf.length)
    (hinside : 2 * part2 + 2 ≤ buf.length) :
    let stop := part2 + 2 + host order buf (2 * part2) 2 % 2 ^ 10
    (stop ≤ len ∧ (∃ ds, Tiles (Descriptor buf) (part2 + 2) stop ds) ∧ ∃ buf' : List UInt8,
        (updatePart2 order len part2).run buf = .ok (stop, buf') ∧ buf'.length = buf.length
          ∧ buf'.drop stop = buf.drop stop)
      ∨ (¬ (stop ≤ len ∧ ∃ ds, Tiles (Descriptor buf) (part2 + 2) stop ds)
        ∧ (updatePart2 order len part2).run buf = .error .refused) := by
  intro stop
  obtain ⟨buf', hkept, hdrop, hhost, hrun⟩ := updatePart2_swapped order hpart2 (hroom.trans hlen)
  rw [updatePart2, run_bind_ok hrun, run_bind_ok ((word_ok_iff order).mpr ⟨hkept.symm ▸ hinside, rfl⟩), hhost]
  by_cases hstop : stop ≤ len
  · have hend : stop ≤ buf'.length := by omega
    rw [run_bind_ok (run_require hstop buf')]
    by_cases hds : ∃ ds, Tiles (Descriptor buf) (part2 + 2) stop ds
    · obtain ⟨ds, htiles⟩ := hds
      have hverify := (verifyDescriptors_ok_iff hend (r := ((), buf'))).mpr
        ⟨⟨ds, descriptors_ahead hdrop.symm htiles⟩, rfl⟩
      rw [run_bind_ok hverify]
      exact .inl ⟨hstop, ⟨ds, htiles⟩, buf', rfl, hkept, drop_eq_of_le hdrop (Nat.le_add_right _ _)⟩
    · refine .inr ⟨fun h => hds h.2, ?_⟩
      have hends := safe_verifyDescriptors hend buf' rfl
      cases hverify : (verifyDescriptors (part2 + 2) (host order buf (2 * part2) 2 % 2 ^ 10)).run buf' with
      | ok r =>
        obtain ⟨⟨ds, htiles⟩, -⟩ := (verifyDescriptors_ok_iff hend).mp hverify
        exact absurd ⟨ds, descriptors_ahead hdrop htiles⟩ hds
      | error s =>
        rw [hverify] at hends
        cases hends
        exact run_bind_error hverify
  · exact .inr ⟨fun h => hstop h.1, run_bind_error (run_require_not hstop buf')⟩

/-- **The loop of `atsc_dccsct_section_codec`**, and what comes behind it. -/
theorem stays_dccsctUpdates_iff {f : ℕ → Walk Unit}
    (hf : ∀ (pos : ℕ) {buf : List UInt8}, buf.length = len + 4 → Stays (f pos) buf) (count : ℕ) (hpos : 2 ≤ pos)
    (hbuf : buf.length = len + 4) :
    Stays (times (dccsctUpdate order len) count pos >>= f) buf ↔ ¬ DccsctOverrun order buf len count pos := by
  induction count generalizing pos buf with
  | zero => exact iff_of_true (hf pos hbuf) fun hover => by cases hover
  | succ count ih =>
    have hlen : len ≤ buf.length := by omega
    rw [times, dccsctUpdate_eq, bind_assoc, bind_assoc]
    rcases updateFront_run order pos hlen with ⟨part2, hupdate, buf', hrun, hkept, hdrop⟩ | ⟨hnone, hrun⟩
    · have hlt := hupdate.lt
      have hroom := hupdate.room
      rw [stays_bind_ok hrun]
      rcases Nat.lt_or_ge buf.length (2 * part2 + 2) with houtside | hinside
      · have hfault : (updatePart2 order len part2).run buf' = .error .fault :=
          updatePart2_fault order (by omega) (by omega) (hkept ▸ houtside)
        exact iff_of_false (not_stays_bind hfault) (not_not_intro (.here hupdate houtside))
      · have hhost : host order buf' (2 * part2) 2 = host order buf (2 * part2) 2 :=
          congrArg (value order) (slice_eq_of_drop hdrop (by omega))
        have hcut : buf'.drop (part2 + 2) = buf.drop (part2 + 2) := drop_eq_of_le hdrop (Nat.le_add_right part2 2)
        have hlen' : len ≤ buf'.length := by omega
        have hstands := updatePart2_run order (by omega) hroom hlen' (hkept ▸ hinside)
        rw [hhost] at hstands
        rw [dccsctOverrun_iff hupdate hinside rfl]
        rcases hstands with ⟨hstop, ⟨ds, hds⟩, buf'', hrun', hkept', hdrop'⟩ | ⟨hnone, hrun'⟩
        · have hahead := hdrop'.trans (drop_eq_of_le hcut (Nat.le_add_right _ _))
          rw [stays_bind_ok hrun', ih (by omega) (by omega)]
          refine not_congr ⟨fun hover => ?_, fun hover => ?_⟩
          · exact ⟨⟨hstop, ds, descriptors_ahead hcut hds⟩, hover.ahead (hkept'.trans hkept) hahead le_rfl⟩
          · exact hover.2.ahead (hkept'.trans hkept).symm hahead.symm le_rfl
        · refine iff_of_true (stays_bind_refused hrun') fun hmore => ?_
          obtain ⟨⟨hstop, ds, hds⟩, -⟩ := hmore
          exact hnone ⟨hstop, ds, descriptors_ahead hcut.symm hds⟩
    · refine iff_of_true (stays_bind_refused hrun) fun hover => ?_
      cases hover with
      | here hupdate => exact hnone _ hupdate
      | next hupdate => exact hnone _ hupdate

end Dccsct

def DccsctSectionOverrun (order : ByteOrder) (buf : List UInt8) : Prop :=
  10 ≤ buf.length - 4 ∧ DccsctOverrun order buf (buf.length - 4) (be buf 9 1) 10

theorem stays_atscDccsctSectionCodec_iff (h : Whole order buf) :
    Stays (atscDccsctSectionCodec order) buf ↔ ¬ DccsctSectionOverrun order buf := by
  have hroom := h.room
  rw [atscDccsctSectionCodec, stays_bind_ok h.sectionExtLength_run]
  by_cases hsize : 10 ≤ buf.length - 4
  · have hread : 9 + 1 ≤ buf.length := by omega
    have hpart2 : Dcct.part2Header.Near := by decide
    rw [stays_bind_ok (run_require hsize buf), stays_bind_ok (read_ok_iff.mpr ⟨hread, rfl⟩), ← be,
      stays_dccsctUpdates_iff order (fun pos buf' hbuf' => ?_) _ (by decide) (by omega), DccsctSectionOverrun,
      and_iff_right hsize]
    exact (hpart2.safe_end order (n := buf'.length) hbuf'.symm.le pos buf' rfl).stays
  · exact iff_of_true (stays_bind_refused (run_require_not hsize buf)) fun hover => hsize hover.1

/-- One update without data: its `part2` stands at 12, and the length is read at 24, outside. -/
example : DccsctSectionOverrun .little [0xd4, 0xf0, 0x0f, 0, 0, 0xc1, 0, 0, 0, 1, 0, 0, 0, 0, 0, 0, 0, 0] := by
  have hupdate : UpdateAt [0xd4, 0xf0, 0x0f, 0, 0, 0xc1, 0, 0, 0, 1, 0, 0, 0, 0, 0, 0, 0, 0] 14 10 12 :=
    ⟨by decide, rfl, trivial, by decide⟩
  exact ⟨by decide, .here hupdate (by decide)⟩

end BgtDvb.Ucsi.Table
