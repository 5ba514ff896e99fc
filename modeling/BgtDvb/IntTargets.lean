import BgtDvb.TableOverruns

/-!
# The targets of an IP/MAC notification section

`dvb_int_section_codec` compares each of its loop lengths with what is left in front of the length, and not with what
is left behind it, nor where its loop comes to with the length of the section.  The iterators of
`libucsi/dvb/int_section.h` go over targets as long as they begin in front of the CRC.

* `intSection_run_iff` — **PROVED**: elsewhere the codec stays inside and comes to the CRC exactly, or refuses;
* `intIterated` — **PROVED**: the iterators come to the parts;
* `intSound_iff` — **PROVED**: the sections on which all is well.
-/

namespace BgtDvb.Ucsi.Table.Targets

open BgtDvb.Walks
open BgtDvb.Words

/-! ### The iterators -/

section Iterators

variable (order : ByteOrder) (buf : List UInt8)

/-- `platform_descriptors_length` -/
def platformDescriptorsLength : ℕ := host order buf 12 2 % 2 ^ 12

/-- `target_descriptors_length`, `operational_descriptors_length` -/
def loopLength (pos : ℕ) : ℕ := host order buf pos 2 % 2 ^ 12

/-- `dvb_int_section_platform_descriptors_first` -/
def platformDescriptorsFirst : Option ℕ := descriptorsFirst 14 (platformDescriptorsLength order buf)

/-- `dvb_int_section_platform_descriptors_next` -/
def platformDescriptorsNext (pos : ℕ) : Option ℕ := nextDescriptor buf 14 (platformDescriptorsLength order buf) pos

/-- `dvb_int_target_operational_loop` -/
def operationalLoop (target : ℕ) : ℕ := target + 2 + loopLength order buf target

/-- `dvb_int_section_target_loop_first` -/
def targetLoopFirst : Option ℕ :=
  if extLength order buf % 2 ^ 32 ≤ 14 + platformDescriptorsLength order buf then none
  else some (14 + platformDescriptorsLength order buf)

/-- `dvb_int_section_target_loop_next` -/
def targetLoopNext (pos : ℕ) : Option ℕ :=
  let next := operationalLoop order buf pos + 2 + loopLength order buf (operationalLoop order buf pos)
  if extLength order buf ≤ next then none else some next

/-- `dvb_int_target_target_descriptors_first`, `dvb_int_operational_loop_operational_descriptors_first` -/
def loopDescriptorsFirst (pos : ℕ) : Option ℕ := descriptorsFirst (pos + 2) (loopLength order buf pos)

/-- `dvb_int_target_target_descriptors_next`, `dvb_int_operational_loop_operational_descriptors_next` -/
def loopDescriptorsNext (loop pos : ℕ) : Option ℕ := nextDescriptor buf (loop + 2) (loopLength order buf loop) pos

end Iterators

/-! ### The grammar -/

abbrev Target : Type := Block × Block

def TargetAt (buf : List UInt8) (a b : ℕ) (x : Target) : Prop :=
  ∃ mid, BlockAt lengthHeader buf a mid x.1 ∧ BlockAt lengthHeader buf mid b x.2

/-- The parts of a section. -/
structure Parts where
  platform : Block
  targets : List Target

def IntAt (buf : List UInt8) (len : ℕ) (p : Parts) : Prop :=
  ∃ mid, mid ≤ len ∧ BlockAt intHeader buf 8 mid p.platform ∧ Tiles (TargetAt buf) mid len p.targets

/-- **What reaches into the CRC**, from a position on: target descriptors that end up to two bytes behind its start,
unless the byte or two where the operational length would stand begin a length of one, or operational descriptors that
do. -/
inductive IntPast (buf : List UInt8) (len : ℕ) : ℕ → Prop
  | target {pos loop : ℕ} {x : Block} (inside : pos < len) (target : BlockAt lengthHeader buf pos loop x)
    (behind : len < loop) (room : loop ≤ len + 2) (length : blockLength lengthHeader buf loop ≠ 1) : IntPast buf len pos
  | operational {pos loop stop : ℕ} {x y : Block} (inside : pos < len) (target : BlockAt lengthHeader buf pos loop x)
    (before : loop ≤ len) (operational : BlockAt lengthHeader buf loop stop y) (behind : len < stop)
    (room : stop ≤ len + 2) : IntPast buf len pos
  | next {pos loop stop : ℕ} {x y : Block} (inside : pos < len) (target : BlockAt lengthHeader buf pos loop x)
    (before : loop ≤ len) (operational : BlockAt lengthHeader buf loop stop y) (rest : IntPast buf len stop) :
    IntPast buf len pos

def IntSectionPast (buf : List UInt8) : Prop :=
  ∃ pos x, BlockAt intHeader buf 8 pos x ∧ pos ≤ buf.length - 4 ∧ IntPast buf (buf.length - 4) pos

/-! ### What reaches into the CRC -/

variable {buf : List UInt8} {len pos : ℕ}

theorem IntPast.ahead {buf' : List UInt8} {a : ℕ} (hdrop : buf.drop a = buf'.drop a) (hpos : a ≤ pos)
    (h : IntPast buf len pos) : IntPast buf' len pos := by
  induction h with
  | target inside target behind room length =>
    obtain ⟨hle, target'⟩ := lengthBlock_ahead hdrop hpos target
    exact .target inside target' behind room (blockLength_ahead hdrop (hpos.trans hle) ▸ length)
  | operational inside target before operational behind room =>
    obtain ⟨hle, target'⟩ := lengthBlock_ahead hdrop hpos target
    exact .operational inside target' before (lengthBlock_ahead hdrop (hpos.trans hle) operational).2 behind room
  | next inside target before operational rest ih =>
    obtain ⟨hle, target'⟩ := lengthBlock_ahead hdrop hpos target
    obtain ⟨hle', operational'⟩ := lengthBlock_ahead hdrop (hpos.trans hle) operational
    exact .next inside target' before operational' (ih (hpos.trans (hle.trans hle')))

theorem intPast_congr {buf' : List UInt8} {a : ℕ} (hdrop : buf.drop a = buf'.drop a) (hpos : a ≤ pos) :
    IntPast buf len pos ↔ IntPast buf' len pos :=
  ⟨IntPast.ahead hdrop hpos, IntPast.ahead hdrop.symm hpos⟩

theorem IntPast.inside {buf : List UInt8} {len pos : ℕ} (h : IntPast buf len pos) : pos < len := by
  cases h with
  | target inside => exact inside
  | operational inside => exact inside
  | next inside => exact inside

/-- What follows from the target in front: where its descriptors end behind the start of the CRC, the length there
decides, and where they do not, the operational loop. -/
theorem intPast_target_iff {loop : ℕ} {x : Block} (hinside : pos < len) (hx : BlockAt lengthHeader buf pos loop x)
    (hloop : loop ≤ len + 2) (hbehind : len < loop) : IntPast buf len pos ↔ blockLength lengthHeader buf loop ≠ 1 := by
  constructor
  · intro hpast
    cases hpast with
    | target _ target _ _ length =>
      rw [target.stop_unique hx] at length
      exact length
    | operational _ target before =>
      rw [target.stop_unique hx] at before
      exact absurd hbehind (Nat.not_lt.mpr before)
    | next _ target before =>
      rw [target.stop_unique hx] at before
      exact absurd hbehind (Nat.not_lt.mpr before)
  · exact fun hlength => .target hinside hx hbehind hloop hlength

theorem intPast_operational_iff {loop : ℕ} {x : Block} (hinside : pos < len)
    (hx : BlockAt lengthHeader buf pos loop x) (hbefore : loop ≤ len) :
    IntPast buf len pos ↔ ∃ stop y, BlockAt lengthHeader buf loop stop y ∧
      (len < stop ∧ stop ≤ len + 2 ∨ IntPast buf len stop) := by
  constructor
  · intro hpast
    cases hpast with
    | target _ target behind =>
      rw [target.stop_unique hx] at behind
      exact absurd behind (Nat.not_lt.mpr hbefore)
    | operational _ target _ operational behind room =>
      rw [target.stop_unique hx] at operational
      exact ⟨_, _, operational, .inl ⟨behind, room⟩⟩
    | next _ target _ operational rest =>
      rw [target.stop_unique hx] at operational
      exact ⟨_, _, operational, .inr rest⟩
  · rintro ⟨stop, y, hy, ⟨hbehind, hroom⟩ | hrest⟩
    · exact .operational hinside hx hbefore hy hbehind hroom
    · exact .next hinside hx hbefore hy hrest

/-! ### The loop over the targets -/

section Loop

variable {order : ByteOrder} {len : ℕ}

def Comes (len : ℕ) : Except Stop (ℕ × List UInt8) → Prop
  | .ok r => r.1 = len
  | .error s => s = .refused

/-- **The loop of `dvb_int_section_codec`** comes to the CRC or refuses, exactly if no part reaches into the CRC. -/
theorem comes_iff (hlen : len < 2 ^ 63) (fuel : ℕ) {pos : ℕ} (hpos : pos ≤ len) (hfuel : len - pos ≤ fuel)
    {buf : List UInt8} (hbuf : buf.length = len + 4) :
    Comes len ((whileBelow len (intTarget order len) fuel pos).run buf) ↔ ¬IntPast buf len pos := by
  induction fuel generalizing pos buf with
  | zero =>
    have hdone : ¬pos < len := by omega
    rw [whileBelow_of_not_lt hdone]
    exact iff_of_true (by show pos = len; omega) fun hpast => hdone hpast.inside
  | succ fuel ih =>
    by_cases hinside : pos < len
    · rw [whileBelow, if_pos hinside, intTarget, bind_assoc]
      rcases intLoop_run order hbuf hlen hinside.le with ⟨loop, x, hloop, hx, buf', hrun, hbuf', hdrop⟩ | ⟨hnone, hrun⟩
      · have hlt := (blockAt_lt lengthHeader_wf hx).2
        rw [run_bind_ok hrun]
        rcases Nat.lt_or_ge len loop with hbehind | hbefore
        · -- the length of the operational loop is read from the CRC
          have hlength : be buf' loop 2 % 2 ^ 12 = blockLength lengthHeader buf loop := blockLength_ahead hdrop le_rfl
          have hdone : ¬loop + 2 < len := by omega
          rw [intPast_target_iff hinside hx hloop hbehind, ← hlength, not_not]
          rcases intLoop_over order hbuf' hbehind hloop hlen with ⟨hzero, hrun'⟩ | ⟨hone, hrun'⟩ | ⟨hlong, hrun'⟩
          · rw [run_bind_ok hrun', whileBelow_of_not_lt hdone]
            exact iff_of_false (by show ¬loop + 2 = len; omega) (by omega)
          · rw [run_bind_error hrun']
            exact iff_of_true rfl hone
          · rw [run_bind_error hrun']
            exact iff_of_false (fun h => (by cases h)) (by omega)
        · rw [intPast_operational_iff hinside hx hbefore]
          rcases intLoop_run order hbuf' hlen hbefore with ⟨stop, y, hstop, hy, buf'', hrun', hbuf'', hdrop'⟩ | ⟨hnone, hrun'⟩
          · have hlt' := (blockAt_lt lengthHeader_wf hy).2
            have hcut : buf''.drop stop = buf.drop stop := hdrop'.trans (drop_eq_of_le hdrop hlt'.le)
            have hyAt := blockAt_ahead lengthHeader_wf hdrop hy
            have hunique : (∃ stop' y', BlockAt lengthHeader buf loop stop' y' ∧
                (len < stop' ∧ stop' ≤ len + 2 ∨ IntPast buf len stop')) ↔ len < stop ∨ IntPast buf len stop := by
              constructor
              · rintro ⟨stop', y', hy', hmore⟩
                rw [hy'.stop_unique hyAt] at hmore
                exact hmore.imp_left And.left
              · exact fun hmore => ⟨stop, y, hyAt, hmore.imp_left fun hlt => ⟨hlt, hstop⟩⟩
            rw [run_bind_ok hrun', hunique]
            rcases Nat.lt_or_ge len stop with hbehind | hinside'
            · have hdone : ¬stop < len := by omega
              rw [whileBelow_of_not_lt hdone]
              exact iff_of_false (by show ¬stop = len; omega) (not_not_intro (.inl hbehind))
            · rw [ih hinside' (by omega) hbuf'', intPast_congr hcut le_rfl, or_iff_right (Nat.not_lt.mpr hinside')]
          · rw [run_bind_error hrun']
            refine iff_of_true rfl fun hmore => ?_
            obtain ⟨stop, y, hy, hmore⟩ := hmore
            refine hnone stop y (blockAt_ahead lengthHeader_wf hdrop.symm hy) ?_
            rcases hmore with ⟨-, hroom⟩ | hrest
            · exact hroom
            · exact hrest.inside.le.trans (Nat.le_add_right len 2)
      · rw [run_bind_error hrun]
        refine iff_of_true rfl fun hpast => ?_
        cases hpast with
        | target _ target _ room => exact hnone _ _ target room
        | operational _ target before => exact hnone _ _ target (before.trans (Nat.le_add_right len 2))
        | next _ target before => exact hnone _ _ target (before.trans (Nat.le_add_right len 2))
    · have heq : pos = len := by omega
      rw [whileBelow_of_not_lt hinside]
      exact iff_of_true heq fun hpast => hinside hpast.inside

theorem lasting_intLoop (order : ByteOrder) (pos : ℕ) : Lasting (intLoop order len pos) := by
  have hswap : Lasting (bswap order pos 2) := by
    cases order with
    | big => exact lasting_pure ()
    | little => exact lasting_reverse pos 2
  have hskip (stop pos : ℕ) : Lasting (skipDescriptor stop pos) :=
    (lasting_require _).bind fun _ => (lasting_read _ _).bind fun _ => lasting_pure _
  refine hswap.bind fun _ => ((lasting_read _ _).bind fun _ => lasting_pure _).bind fun _ => ?_
  refine (lasting_require _).bind fun _ => Lasting.bind ?_ fun _ => lasting_pure _
  exact (lasting_whileBelow (hskip _) _ _).bind fun _ => lasting_require _

theorem intLoop_forward {pos : ℕ} {r : ℕ × List UInt8} (h : (intLoop order len pos).run buf = .ok r) :
    pos + 2 ≤ r.1 := by
  obtain ⟨_, _, -, h⟩ := bind_ok_iff.mp h
  obtain ⟨w, _, -, h⟩ := bind_ok_iff.mp h
  obtain ⟨_, _, -, h⟩ := bind_ok_iff.mp h
  obtain ⟨_, _, -, h⟩ := bind_ok_iff.mp h
  cases h
  exact Nat.le_add_right _ _

theorem takes_intLoop (order : ByteOrder) (hlen : len < 2 ^ 63) :
    Takes (len + 4) len (intLoop order len) (BlockAt lengthHeader) fun x => swapped order (x.fields lengthHeader) where
  run {buf} hbuf {pos r} hr := by
    by_cases hpos : pos ≤ len
    · rw [intLoop_eq_block order hpos (by omega), block_ok_iff lengthHeader_wf (by omega)]
      exact and_iff_right (hr.trans (Nat.le_add_right len 2))
    · refine iff_of_false (fun hrun => ?_) fun hx => ?_
      · have hforward := intLoop_forward hrun
        omega
      · obtain ⟨x, hx, -⟩ := hx
        have hlt := (blockAt_lt lengthHeader_wf hx).2
        omega
  onward {buf} hbuf {pos r} hr :=
    ⟨(Nat.le_add_right pos 2).trans (intLoop_forward hr), (lasting_intLoop order pos buf r hr).trans hbuf⟩
  forward hx := (blockAt_lt lengthHeader_wf hx).2
  ahead hdrop hx := blockAt_ahead lengthHeader_wf hdrop hx
  keeps {buf a b x} hbuf hb hx := (takes_block order lengthHeader_wf (by omega : len ≤ len + 4)).keeps hbuf hb hx

end Loop

/-! ### What the codec accepts -/

def swappedTarget (order : ByteOrder) (x : Target) (buf : List UInt8) : List UInt8 :=
  swapped order (x.2.fields lengthHeader) (swapped order (x.1.fields lengthHeader) buf)

def swappedParts (order : ByteOrder) (p : Parts) (buf : List UInt8) : List UInt8 :=
  effects (swappedTarget order) p.targets (swapped order (p.platform.fields intHeader) buf)

theorem takes_target (order : ByteOrder) (hlen : len < 2 ^ 63) :
    Takes (len + 4) len (intTarget order len) TargetAt (swappedTarget order) :=
  takes_pair (takes_intLoop order hlen) (takes_intLoop order hlen)

section Section

variable {order : ByteOrder} {buf : List UInt8}

theorem codec_run (h : Whole order buf) :
    ((dvbIntSectionCodec order).run buf = .error .refused ∧ ∀ pos x, BlockAt intHeader buf 8 pos x → ¬pos ≤ buf.length - 4) ∨
    ∃ pos x, BlockAt intHeader buf 8 pos x ∧ pos ≤ buf.length - 4 ∧
      (swapped order (x.fields intHeader) buf).length = buf.length - 4 + 4 ∧
      (swapped order (x.fields intHeader) buf).drop pos = buf.drop pos ∧
      (dvbIntSectionCodec order).run buf =
        (whileBelow (buf.length - 4) (intTarget order (buf.length - 4)) (buf.length - 4) pos >>= fun _ => pure ()).run
          (swapped order (x.fields intHeader) buf) := by
  have hwhole := h.length_eq
  have hpos := h.length_pos
  have hlen : buf.length - 4 ≤ buf.length := Nat.sub_le _ _
  rw [dvbIntSectionCodec, run_bind_ok h.sectionExtLength_run]
  rcases block_run order intHeader_wf 8 hlen with ⟨pos, x, hstop, hx, hrun⟩ | ⟨hnone, hrun⟩
  · obtain ⟨hkept, -, hdrop⟩ := (takes_block order intHeader_wf hlen).keeps rfl hstop hx
    exact .inr ⟨pos, x, hx, hstop, by omega, hdrop, run_bind_ok hrun⟩
  · exact .inl ⟨run_bind_error hrun, hnone⟩

theorem len_lt (h : Whole order buf) : buf.length - 4 < 2 ^ 63 := by
  have hlt : lengthField order buf < 2 ^ 12 := Nat.mod_lt _ (by decide)
  have hwhole := h.length_eq
  omega

/-- **Where no part reaches into the CRC** the codec stays inside, and accepts only parts that end at the CRC. -/
theorem accepted_of_fits (h : Whole order buf) (hfits : ¬IntSectionPast buf) :
    Stays (dvbIntSectionCodec order) buf ∧ ∀ buf', (dvbIntSectionCodec order).run buf = .ok ((), buf') →
      ∃ p, IntAt buf (buf.length - 4) p ∧ buf' = swappedParts order p buf := by
  have hlt := len_lt h
  rcases codec_run h with ⟨hrefused, -⟩ | ⟨pos, x, hx, hpos, hlen, hdrop, hrun⟩
  · refine ⟨fun s hs => ?_, fun buf' hok => ?_⟩
    · rw [hrefused] at hs
      cases hs
      rfl
    · rw [hrefused] at hok
      cases hok
  · have hcomes := (@comes_iff order _ hlt (buf.length - 4) pos hpos (Nat.sub_le _ _) _ hlen).mpr fun hpast =>
      hfits ⟨pos, x, hx, hpos, (intPast_congr hdrop le_rfl).mp hpast⟩
    cases hloop : (whileBelow (buf.length - 4) (intTarget order (buf.length - 4)) (buf.length - 4) pos).run
        (swapped order (x.fields intHeader) buf) with
    | error s =>
      rw [hloop] at hcomes
      have hrefused : s = .refused := hcomes
      rw [run_bind_error hloop] at hrun
      refine ⟨fun s' hs => ?_, fun buf' hok => ?_⟩
      · rw [hrun] at hs
        cases hs
        exact hrefused
      · rw [hrun] at hok
        cases hok
    | ok r =>
      rw [hloop] at hcomes
      obtain ⟨stop, done⟩ := r
      have hstop : stop = buf.length - 4 := hcomes
      subst hstop
      rw [run_bind_ok hloop] at hrun
      refine ⟨fun s hs => ?_, fun buf' hok => ?_⟩
      · rw [hrun] at hs
        cases hs
      · rw [hrun] at hok
        cases hok
        obtain ⟨ts, hts, hdone⟩ := ((takes_target order hlt).whileBelow_iff _ hpos (Nat.sub_le _ _) hlen).mp hloop
        exact ⟨⟨x, ts⟩, ⟨pos, hpos, hx, (takes_target order hlt).tiles_ahead hdrop hts⟩, hdone⟩

/-- **Where a part does** the codec leaves the section, or accepts what is no section. -/
theorem not_accepted_of_past (h : Whole order buf) (hpast : IntSectionPast buf) (hstays : Stays (dvbIntSectionCodec order) buf) :
    ∃ buf', (dvbIntSectionCodec order).run buf = .ok ((), buf') ∧ ¬∃ p, IntAt buf (buf.length - 4) p := by
  have hlt := len_lt h
  obtain ⟨pos, x, hx, hpos, hpast⟩ := hpast
  rcases codec_run h with ⟨-, hnone⟩ | ⟨pos', x', hx', hpos', hlen, hdrop, hrun⟩
  · exact absurd hpos (hnone pos x hx)
  · obtain rfl := hx.stop_unique hx'
    have hcomes : ¬Comes _ _ := mt (@comes_iff order _ hlt (buf.length - 4) pos hpos (Nat.sub_le _ _) _ hlen).mp
      (not_not_intro ((intPast_congr hdrop le_rfl).mpr hpast))
    cases hloop : (whileBelow (buf.length - 4) (intTarget order (buf.length - 4)) (buf.length - 4) pos).run
        (swapped order (x'.fields intHeader) buf) with
    | error s =>
      rw [hloop] at hcomes
      rw [run_bind_error hloop] at hrun
      exact absurd (hstays s hrun) hcomes
    | ok r =>
      rw [run_bind_ok hloop] at hrun
      refine ⟨r.2, hrun, fun hparts => ?_⟩
      obtain ⟨p, mid, hmid, hplatform, hts⟩ := hparts
      obtain rfl := hplatform.stop_unique hx'
      have hall := ((takes_target order hlt).whileBelow_iff _ hpos (Nat.sub_le _ _) hlen).mpr
        ⟨p.targets, (takes_target order hlt).tiles_ahead hdrop.symm hts, rfl⟩
      rw [hloop] at hall hcomes
      cases hall
      exact hcomes rfl

/-! ### What the iterators come to -/

/-- The two loops of a target when their words have been swapped. -/
def TargetDone (order : ByteOrder) (sent buf : List UInt8) (a b : ℕ) (x : Target) : Prop :=
  ∃ mid, BlockDone order lengthHeader sent buf a mid x.1 ∧ BlockDone order lengthHeader sent buf mid b x.2

theorem TargetDone.stop_eq {x : Target} (h : TargetDone order sent buf a b x) :
    x.1.pos = a ∧ x.2.pos = operationalLoop order buf a ∧
      b = operationalLoop order buf a + 2 + loopLength order buf (operationalLoop order buf a) := by
  obtain ⟨mid, htarget, hoperational⟩ := h
  have hmid : mid = operationalLoop order buf a := htarget.stop_eq
  subst hmid
  exact ⟨htarget.pos_eq, hoperational.pos_eq, hoperational.stop_eq⟩

theorem targetDone_of_targetAt {x : Target} (hb : b ≤ buf.length) (hsent : buf.drop a = sent.drop a)
    (hx : TargetAt buf a b x) : TargetDone order sent (swappedTarget order x buf) a b x := by
  obtain ⟨mid, htarget, hoperational⟩ := hx
  have hfirst := (blockAt_lt lengthHeader_wf htarget).2
  have hmid : mid ≤ buf.length := (blockAt_lt lengthHeader_wf hoperational).2.le.trans hb
  have htakes := takes_block order lengthHeader_wf (le_refl buf.length)
  obtain ⟨hlen, -, hdrop⟩ := htakes.keeps rfl hmid htarget
  have hahead := blockAt_ahead lengthHeader_wf hdrop.symm hoperational
  obtain ⟨-, htake, -⟩ := htakes.keeps hlen hb hahead
  refine ⟨mid, ?_, ?_⟩
  · exact blockDone_sameOn lengthHeader_wf (sameOn_of_take htake.symm)
      (blockDone_of_blockAt lengthHeader_wf hmid hsent htarget)
  · exact blockDone_of_blockAt lengthHeader_wf (hlen.symm ▸ hb) (hdrop.trans (drop_eq_of_le hsent hfirst.le)) hahead

theorem targetDone_sameOn {buf' : List UInt8} {x : Target} (hsame : SameOn a b buf buf')
    (hx : TargetDone order sent buf a b x) : TargetDone order sent buf' a b x := by
  obtain ⟨mid, htarget, hoperational⟩ := hx
  have hmid := htarget.stop_eq
  have hend := hoperational.stop_eq
  exact ⟨mid, blockDone_sameOn lengthHeader_wf (hsame.mono le_rfl (by omega)) htarget,
    blockDone_sameOn lengthHeader_wf (hsame.mono (by omega) le_rfl) hoperational⟩

/-- A length that the host reads as it was sent, and the descriptors that an iterator goes over. -/
structure LoopIterated (order : ByteOrder) (sent buf : List UInt8) (stop : ℕ) (x : Block) : Prop where
  inside : x.pos + 2 + loopLength order buf x.pos ≤ stop
  length_eq : loopLength order buf x.pos = be sent x.pos 2 % 2 ^ 12
  descriptors : Iterated sent buf (x.pos + 2) (loopLength order buf x.pos) (loopDescriptorsFirst order buf x.pos)
    (loopDescriptorsNext order buf x.pos) x.descriptors

/-- The parts as the iterators and accessors come to them. -/
structure PartsIterated (order : ByteOrder) (sent buf : List UInt8) (stop : ℕ) (p : Parts) : Prop where
  platform : Iterated sent buf 14 (platformDescriptorsLength order buf) (platformDescriptorsFirst order buf)
    (platformDescriptorsNext order buf) p.platform.descriptors
  platform_inside : 14 + platformDescriptorsLength order buf ≤ stop
  targets : ForEach (fun pos _ => targetLoopNext order buf pos) 0 (targetLoopFirst order buf)
    (p.targets.map fun x => x.1.pos)
  loops : ∀ x ∈ p.targets, LoopIterated order sent buf stop x.1 ∧ operationalLoop order buf x.1.pos = x.2.pos ∧
    LoopIterated order sent buf stop x.2

theorem loopIterated_of_blockDone {x : Block} (hb : b ≤ stop) (hx : BlockDone order lengthHeader sent buf a b x) :
    LoopIterated order sent buf stop x := by
  have hend : b = a + 2 + loopLength order buf a := hx.stop_eq
  have hlength := hx.fields (0, 2) (List.mem_singleton_self _)
  have hiterated := iterated_of_blockDone hx
  rw [hend, ← hx.pos_eq] at hb
  rw [← hx.pos_eq] at hlength hiterated
  exact ⟨hb, congrArg (· % 2 ^ 12) hlength, hiterated⟩

theorem intIterated (h : Whole order buf) {p : Parts} (hp : IntAt buf (buf.length - 4) p) :
    PartsIterated order buf (swappedParts order p buf) (buf.length - 4) p := by
  have hlt := len_lt h
  have hwhole := h.length_eq
  have hone := h.length_pos
  obtain ⟨mid, hmid, hplatform, htargets⟩ := hp
  have hlen : buf.length - 4 ≤ buf.length := Nat.sub_le _ _
  obtain ⟨hkept, htake₁, hdrop₁⟩ := (takes_block order intHeader_wf hlen).keeps rfl hmid hplatform
  have hlen₁ : (swapped order (p.platform.fields intHeader) buf).length = buf.length - 4 + 4 := by omega
  have htakes := takes_target order hlt
  have htargets₁ := htakes.tiles_ahead hdrop₁.symm htargets
  obtain ⟨hlen₂, htake₂, -⟩ := htakes.effects_keeps hlen₁ le_rfl htargets₁
  have hplatformDone : BlockDone order intHeader buf (swappedParts order p buf) 8 mid p.platform :=
    blockDone_sameOn intHeader_wf ((sameOn_of_take htake₂.symm).mono (Nat.zero_le _) le_rfl)
      (blockDone_of_blockAt intHeader_wf (hmid.trans hlen) rfl hplatform)
  have hdone : Tiles (TargetDone order buf (swappedParts order p buf)) mid (buf.length - 4) p.targets :=
    htakes.settle (fun hbuf hj hcut hx => targetDone_of_targetAt (by omega) hcut hx)
      (fun hsame hx => targetDone_sameOn hsame hx) hlen₁ le_rfl hdrop₁ htargets₁
  have hext : extLength order (swappedParts order p buf) = buf.length - 4 := by
    have hfront : (swappedParts order p buf).take 8 = buf.take 8 :=
      (take_eq_of_le htake₂ (blockAt_lt intHeader_wf hplatform).2.le).trans htake₁
    rw [extLength_eq_of_take hfront, extLength_eq hwhole hone]
  have hmidEq : mid = 14 + platformDescriptorsLength order (swappedParts order p buf) := hplatformDone.stop_eq
  have hpos : ∀ {i j : ℕ} {x : Target}, TargetDone order buf (swappedParts order p buf) i j x → x.1.pos = i ∧ i < j := by
    intro i j x hx
    obtain ⟨hpos, -, hend⟩ := hx.stop_eq
    refine ⟨hpos, ?_⟩
    rw [hend]
    unfold operationalLoop
    omega
  refine ⟨iterated_of_blockDone hplatformDone, hmidEq ▸ hmid, ?_, fun x hx => ?_⟩
  · have hfor := (hdone.forEach_below (fun x => x.1.pos) (fun pos _ => targetLoopNext order (swappedParts order p buf) pos)
      hpos (fun {i j x} idx hx => by rw [targetLoopNext, hext, ← hx.stop_eq.2.2]) 0).2
    have hfirst : targetLoopFirst order (swappedParts order p buf) =
        if buf.length - 4 ≤ mid then none else some mid := by
      have hsmall : buf.length - 4 < 2 ^ 32 := by
        have hfield : lengthField order buf < 2 ^ 12 := Nat.mod_lt _ (by decide)
        omega
      rw [targetLoopFirst, hext, Nat.mod_eq_of_lt hsmall, hmidEq]
    rw [hfirst]
    exact hfor
  · obtain ⟨i, j, -, hj, hxDone⟩ := hdone.of_mem (fun hx => (hpos hx).2.le) hx
    obtain ⟨hi, hoperational, -⟩ := hxDone.stop_eq
    obtain ⟨m, htarget, hloop⟩ := hxDone
    have hmj := hloop.stop_eq
    refine ⟨loopIterated_of_blockDone (by omega) htarget, ?_, loopIterated_of_blockDone hj hloop⟩
    rw [hi, hoperational]

/-! ### INT sections -/

/-- All is well with a section: the codec ends, and stays inside; it accepts only parts that exactly fill the section;
and then the iterators come to these. -/
structure IntSound (order : ByteOrder) (buf : List UInt8) : Prop where
  stays : Stays (dvbIntSectionCodec order) buf
  parts : ∀ buf', (dvbIntSectionCodec order).run buf = .ok ((), buf') →
    ∃ p, IntAt buf (buf.length - 4) p ∧ PartsIterated order buf buf' (buf.length - 4) p

end Section

/-- **INT sections** are read soundly exactly if no part reaches into the CRC. -/
theorem intSound_iff {order : ByteOrder} {buf : List UInt8} (hlength : buf.length = lengthField order buf + 3)
    (hnine : 9 ≤ lengthField order buf) : IntSound order buf ↔ ¬IntSectionPast buf := by
  have h : Whole order buf := ⟨hlength, by omega⟩
  constructor
  · intro hsound hpast
    obtain ⟨buf', hrun, hnone⟩ := not_accepted_of_past h hpast hsound.stays
    obtain ⟨p, hp, -⟩ := hsound.parts buf' hrun
    exact hnone ⟨p, hp⟩
  · intro hfits
    obtain ⟨hstays, haccepted⟩ := accepted_of_fits h hfits
    refine ⟨hstays, fun buf' hrun => ?_⟩
    obtain ⟨p, hp, rfl⟩ := haccepted buf' hrun
    exact ⟨p, hp, intIterated h hp⟩

/-- A target of two bytes, behind which the operational loop would stand in the CRC. -/
def targetOnly : List UInt8 := [0x4c, 0xb0, 0x11, 0, 0, 0xc1, 0, 0, 0, 0, 0, 0, 0xf0, 0, 0xf0, 0, 0xf0, 0, 0, 0]

theorem intSound_iff_targetOnly : (targetOnly.length = lengthField .big targetOnly + 3 ∧ 9 ≤ lengthField .big targetOnly) ∧
    (IntSound .big targetOnly ↔ ¬IntSectionPast targetOnly) :=
  ⟨by decide, intSound_iff (by decide) (by decide)⟩

/-- Its operational length is read from the CRC and turned round there, and the section is accepted. -/
theorem not_intSound_targetOnly :
    ¬∀ order buf, buf.length = lengthField order buf + 3 → 9 ≤ lengthField order buf → IntSound order buf := by
  intro h
  have hsound := h .big targetOnly (by decide) (by decide)
  have hpast : IntSectionPast targetOnly :=
    ⟨14, ⟨8, []⟩, ⟨rfl, rfl, .nil⟩, by decide, .operational (x := ⟨14, []⟩) (y := ⟨16, []⟩) (by decide) ⟨rfl, rfl, .nil⟩
      (by decide) ⟨rfl, rfl, .nil⟩ (by decide) (by decide)⟩
  obtain ⟨buf', hrun, hnone⟩ := not_accepted_of_past ⟨by decide, by decide⟩ hpast hsound.stays
  obtain ⟨p, hp, -⟩ := hsound.parts buf' hrun
  exact hnone ⟨p, hp⟩

end BgtDvb.Ucsi.Table.Targets
