import BgtDvb.TableCodecs

/-!
# The transport loops of NIT and BAT

`dvb_nit_section_codec` and `dvb_bat_section_codec` go over transport streams up to the end of the section.  The
iterators of `libucsi/dvb/nit_section.h` and `libucsi/dvb/bat_section.h` go over them by a length in the second part of
the section, at which neither codec looks.  The two tables differ in their names only.

* `transportSectionCodec_ok_iff` — **PROVED**: the codecs accept exactly these sections;
* `transportLoop_iff` — **PROVED**: the lengths with which they do.
-/

namespace BgtDvb.Ucsi.Table.Transports

open BgtDvb.Walks
open BgtDvb.Words

/-! ### The iterators -/

section Iterators

variable (order : ByteOrder) (buf : List UInt8)

/-- `network_descriptors_length`, `bouquet_descriptors_length` -/
def sectionDescriptorsLength : ℕ := host order buf 8 2 % 2 ^ 12

/-- `dvb_nit_section_part2`, `dvb_bat_section_part2` -/
def part2 : ℕ := 10 + sectionDescriptorsLength order buf

def transportStreamLoopLength (part2 : ℕ) : ℕ := host order buf part2 2 % 2 ^ 12

def transportDescriptorsLength (transport : ℕ) : ℕ := host order buf (transport + 4) 2 % 2 ^ 12

/-- `dvb_nit_section_transports_first`, `dvb_bat_section_transports_first` -/
def transportsFirst (part2 : ℕ) : Option ℕ :=
  if transportStreamLoopLength order buf part2 = 0 then none else some (part2 + 2)

/-- `dvb_nit_section_transports_next`, `dvb_bat_section_transports_next` -/
def transportsNext (part2 pos : ℕ) : Option ℕ :=
  let last := part2 + 2 + transportStreamLoopLength order buf part2
  let next := pos + 6 + transportDescriptorsLength order buf pos
  if last ≤ next then none else some next

/-- `dvb_nit_transport_descriptors_first`, `dvb_bat_transport_descriptors_first` -/
def transportDescriptorsFirst (transport : ℕ) : Option ℕ :=
  descriptorsFirst (transport + 6) (transportDescriptorsLength order buf transport)

/-- `dvb_nit_transport_descriptors_next`, `dvb_bat_transport_descriptors_next` -/
def transportDescriptorsNext (transport pos : ℕ) : Option ℕ :=
  nextDescriptor buf (transport + 6) (transportDescriptorsLength order buf transport) pos

end Iterators

/-! ### The grammar -/

/-- The parts of a section: the descriptors at its front, its second part, and the transport streams. -/
structure Parts where
  front : Block
  part2 : ℕ
  transports : List Block

/-- Where the parts stand between the header of a section and its CRC. -/
structure PartsAt (buf : List UInt8) (stop : ℕ) (p : Parts) : Prop where
  front : BlockAt lengthHeader buf 8 p.part2 p.front
  transports : Tiles (BlockAt transportHeader buf) (p.part2 + 2) stop p.transports

def swappedFront (order : ByteOrder) (p : Parts) (buf : List UInt8) : List UInt8 :=
  swapped order (shift p.part2 [(0, 2)]) (swapped order (p.front.fields lengthHeader) buf)

def swappedParts (order : ByteOrder) (p : Parts) (buf : List UInt8) : List UInt8 :=
  effects (fun x => swapped order (x.fields transportHeader)) p.transports (swappedFront order p buf)

variable {order : ByteOrder}

theorem plain_ok_iff {fields : List (ℕ × ℕ)} {len pos : ℕ} (hfields : Apart 0 size fields) {buf : List UInt8}
    (hlen : len ≤ buf.length) {r : ℕ × List UInt8} :
    (plain order fields size len pos).run buf = .ok r ↔
      pos + size ≤ len ∧ r = (pos + size, swapped order (shift pos fields) buf) := by
  rw [plain, require_bind_ok_iff]
  constructor
  · rintro ⟨hroom, hrest⟩
    rw [run_bind_ok (bswapAll_run hfields (hroom.trans hlen))] at hrest
    cases hrest
    exact ⟨hroom, rfl⟩
  · rintro ⟨hroom, rfl⟩
    refine ⟨hroom, ?_⟩
    rw [run_bind_ok (bswapAll_run hfields (hroom.trans hlen))]
    rfl

theorem part2_apart : Apart 0 2 [(0, 2)] := by decide

theorem swappedFront_keeps (order : ByteOrder) {buf : List UInt8} {p : Parts} (hfront : BlockAt lengthHeader buf 8 p.part2 p.front)
    (hroom : p.part2 + 2 ≤ buf.length) :
    (swappedFront order p buf).length = buf.length ∧ (swappedFront order p buf).take 8 = buf.take 8 ∧
      (swappedFront order p buf).drop (p.part2 + 2) = buf.drop (p.part2 + 2) := by
  have hpart2 : p.part2 ≤ buf.length := by omega
  obtain ⟨hlen, htake, hdrop⟩ := (takes_block order lengthHeader_wf (le_refl buf.length)).keeps rfl hpart2 hfront
  obtain ⟨hlen', htake', hdrop'⟩ := swapped_keeps order (apart_shift p.part2 part2_apart) (hlen.symm ▸ hroom)
  have hhead : 8 ≤ p.part2 := (blockAt_lt lengthHeader_wf hfront).2.le
  exact ⟨hlen'.trans hlen, (take_eq_of_le htake' hhead).trans htake,
    hdrop'.trans (drop_eq_of_le hdrop (Nat.le_add_right _ 2))⟩

theorem transportSectionCodec_ok_iff {buf : List UInt8} (h : Whole order buf) :
    (transportSectionCodec order).run buf = .ok r ↔
      ∃ p, PartsAt buf (buf.length - 4) p ∧ r.2 = swappedParts order p buf := by
  rw [transportSectionCodec, run_bind_ok h.sectionExtLength_run, bind_ok_iff]
  have hstop : buf.length - 4 ≤ buf.length := Nat.sub_le _ _
  have htakes := takes_block order transportHeader_wf hstop
  constructor
  · rintro ⟨mid, buf₁, hinfo, hrest⟩
    obtain ⟨hmid, front, hfrontAt, hbuf₁⟩ := (block_ok_iff lengthHeader_wf hstop).mp hinfo
    dsimp only at hmid hfrontAt hbuf₁
    have hlen₁ := ((takes_block order lengthHeader_wf hstop).keeps rfl hmid hfrontAt).1
    rw [← hbuf₁] at hlen₁
    obtain ⟨mid', buf₂, hplain, hrest⟩ := bind_ok_iff.mp hrest
    obtain ⟨hroom, heq⟩ := (plain_ok_iff part2_apart (hlen₁.symm ▸ hstop)).mp hplain
    cases heq
    obtain ⟨pos, buf₃, hloop, hrequire⟩ := bind_ok_iff.mp hrest
    obtain ⟨rfl, rfl⟩ := require_ok_iff.mp hrequire
    subst hbuf₁
    obtain ⟨hlen, -, hdrop⟩ := swappedFront_keeps order (p := ⟨front, mid, []⟩) hfrontAt (hroom.trans hstop)
    obtain ⟨transports, htransports, hbuf₃⟩ := (htakes.whileBelow_iff _ hroom (Nat.sub_le _ _) hlen).mp hloop
    exact ⟨⟨front, mid, transports⟩, ⟨hfrontAt, htakes.tiles_ahead hdrop htransports⟩, hbuf₃⟩
  · rintro ⟨⟨front, mid, transports⟩, ⟨hfrontAt, htransports⟩, hr⟩
    dsimp only at hfrontAt htransports
    have hroom : mid + 2 ≤ buf.length - 4 := htakes.tiles_le htransports
    have hmid : mid ≤ buf.length - 4 := (Nat.le_add_right mid 2).trans hroom
    have hlen₁ := ((takes_block order lengthHeader_wf hstop).keeps rfl hmid hfrontAt).1
    obtain ⟨hlen, -, hdrop⟩ := swappedFront_keeps order (p := ⟨front, mid, transports⟩) hfrontAt
      (hroom.trans hstop)
    refine ⟨mid, swapped order (front.fields lengthHeader) buf,
      (block_ok_iff lengthHeader_wf hstop).mpr ⟨hmid, front, hfrontAt, rfl⟩, ?_⟩
    rw [run_bind_ok ((plain_ok_iff part2_apart (hlen₁.symm ▸ hstop)).mpr ⟨hroom, rfl⟩)]
    have hloop := (htakes.whileBelow_iff (buf.length - 4) hroom (Nat.sub_le _ _) hlen).mpr
      ⟨transports, htakes.tiles_ahead hdrop.symm htransports, rfl⟩
    exact bind_ok_iff.mpr ⟨buf.length - 4, _, hloop, require_ok_iff.mpr ⟨rfl, Prod.ext rfl hr⟩⟩

theorem whole_of_accepted {buf : List UInt8} (hlength : buf.length = lengthField order buf + 3)
    (hrun : (transportSectionCodec order).run buf = .ok r) : Whole order buf := by
  refine ⟨hlength, ?_⟩
  rw [transportSectionCodec, run_bind_ok (sectionExtLength_run (by omega))] at hrun
  obtain ⟨_, _, hblock, -⟩ := bind_ok_iff.mp hrun
  obtain ⟨-, hrest⟩ := require_bind_ok_iff.mp hblock
  obtain ⟨_, buf₁, hswap, hrest⟩ := bind_ok_iff.mp hrest
  obtain ⟨_, _, hword, -⟩ := bind_ok_iff.mp hrest
  obtain ⟨hroom, -⟩ := (word_ok_iff order).mp hword
  have hkept : buf₁.length = buf.length := by
    cases order with
    | big =>
      cases hswap
      rfl
    | little =>
      obtain ⟨_, _, hreverse, hpure⟩ := bind_ok_iff.mp hswap
      obtain ⟨hrange, heq⟩ := reverse_ok_iff.mp hreverse
      cases heq
      cases hpure
      exact length_reverseAt hrange
  rw [hkept, hlength] at hroom
  have hten : 8 + (lengthHeader.lengthAt.1 + lengthHeader.lengthAt.2) = 10 := by decide
  omega

/-! ### What the iterators go over -/

/-- The transport stream at a position, its descriptors among them, is inside a section of `size` bytes. -/
structure TransportInside (order : ByteOrder) (buf : List UInt8) (size v : ℕ) : Prop where
  inside : v + 6 + transportDescriptorsLength order buf v ≤ size
  descriptors : ∃ ds, ForEach (fun d _ => transportDescriptorsNext order buf v d) 0 (transportDescriptorsFirst order buf v) ds ∧
    ∀ d ∈ ds, v + 6 ≤ d ∧ d + 2 + be buf (d + 1) 1 ≤ size

/-- The loop over the transport streams comes to an end; all that it and the loops over descriptors come to is inside
the section; and no transport stream that the codec has checked is left out. -/
def LoopSound (order : ByteOrder) (buf : List UInt8) (p : Parts) : Prop :=
  ∃ vs, ForEach (fun v _ => transportsNext order buf (part2 order buf) v) 0
      (transportsFirst order buf (part2 order buf)) vs ∧
    (∀ v ∈ vs, TransportInside order buf buf.length v) ∧ ∀ t ∈ p.transports, t.pos ∈ vs

/-- The length that was sent ends behind the first byte of the last transport stream, and not behind its last. -/
def LoopFits (sent : List UInt8) (p : Parts) : Prop :=
  (∀ t ∈ p.transports, t.pos < p.part2 + 2 + be sent p.part2 2 % 2 ^ 12) ∧
    p.part2 + 2 + be sent p.part2 2 % 2 ^ 12 ≤ sent.length - 4

theorem transportInside_of_blockDone {sent buf : List UInt8} {a : ℕ} (hb : b ≤ size)
    (ht : BlockDone order transportHeader sent buf a b t) : TransportInside order buf size a := by
  have hend : b = a + 6 + transportDescriptorsLength order buf a := ht.stop_eq
  have hds : Tiles (Descriptor buf) (a + 6) b t.descriptors := ht.descriptors
  refine ⟨hend ▸ hb, t.descriptors, (iterated_of_blockDone ht).forEach, fun d hd => ?_⟩
  obtain ⟨-, htiling⟩ := tiling_of_tiles hds
  have hin := htiling.inside d hd
  unfold descriptorSize at hin
  omega

theorem not_transportInside_stop (buf : List UInt8) (h : 4 ≤ buf.length) :
    ¬ TransportInside order buf buf.length (buf.length - 4) := by
  intro hinside
  have hle := hinside.inside
  omega

section Accepted

variable {buf : List UInt8} {p : Parts}

/-- The second part as the accessors find it. -/
structure Part2Done (order : ByteOrder) (sent buf : List UInt8) (p : Parts) : Prop where
  length_eq : buf.length = sent.length
  part2_eq : part2 order buf = p.part2
  loopLength_eq : transportStreamLoopLength order buf p.part2 = be sent p.part2 2 % 2 ^ 12
  transports : Tiles (BlockDone order transportHeader sent buf) (p.part2 + 2) (sent.length - 4) p.transports

theorem part2Done (order : ByteOrder) (hp : PartsAt buf (buf.length - 4) p) : Part2Done order buf (swappedParts order p buf) p := by
  have hstop : buf.length - 4 ≤ buf.length := Nat.sub_le _ _
  have htakes := takes_block order transportHeader_wf hstop
  have hroom : p.part2 + 2 ≤ buf.length - 4 := htakes.tiles_le hp.transports
  obtain ⟨hlen, -, hdrop⟩ := swappedFront_keeps order hp.front (hroom.trans hstop)
  have hrest := htakes.tiles_ahead hdrop.symm hp.transports
  obtain ⟨hlength, hfront, -⟩ := htakes.effects_keeps hlen le_rfl hrest
  have hpart2 : p.part2 ≤ buf.length := by omega
  obtain ⟨hlen₁, -, hdrop₁⟩ := (takes_block order lengthHeader_wf (le_refl buf.length)).keeps rfl hpart2 hp.front
  have hswap : Apart p.part2 (p.part2 + 2) (shift p.part2 [(0, 2)]) := apart_shift p.part2 part2_apart
  have hmem : (p.part2, 2) ∈ shift p.part2 [(0, 2)] := List.mem_singleton_self _
  have hword : host order (swappedFront order p buf) p.part2 2 = be buf p.part2 2 :=
    (host_swapped hswap (by omega) hmem).trans (congrArg beNat (slice_eq_of_drop hdrop₁ le_rfl))
  have hsame : SameOn 0 (p.part2 + 2) (swappedFront order p buf) (swappedParts order p buf) :=
    sameOn_of_take hfront.symm
  have hfrontDone : BlockDone order lengthHeader buf (swappedParts order p buf) 8 p.part2 p.front := by
    have hdone : BlockDone order lengthHeader buf (swapped order (p.front.fields lengthHeader) buf) 8 p.part2 p.front :=
      blockDone_of_blockAt lengthHeader_wf hpart2 rfl hp.front
    have htake : (swappedFront order p buf).take p.part2 = (swapped order (p.front.fields lengthHeader) buf).take p.part2 :=
      (swapped_keeps order hswap (by omega)).2.1
    refine blockDone_sameOn lengthHeader_wf ?_ hdone
    exact ((sameOn_of_take htake.symm).mono (Nat.zero_le _) le_rfl).trans (hsame.mono (Nat.zero_le _) (Nat.le_add_right _ 2))
  refine ⟨hlength, hfrontDone.stop_eq.symm, ?_, blocksDone transportHeader_wf hstop hlen le_rfl hdrop hrest⟩
  show host order _ p.part2 2 % 2 ^ 12 = _
  rw [← host_eq_of_sameOn hsame (Nat.zero_le _) le_rfl, hword]

/-- **The loop over the transport streams** of a section that the codec has left. -/
theorem loopSound_iff (h : Whole order buf) (hp : PartsAt buf (buf.length - 4) p) :
    LoopSound order (swappedParts order p buf) p ↔ LoopFits buf p := by
  obtain ⟨hlength, hpart2, hloop, htransports⟩ := part2Done order hp
  set buf' := swappedParts order p buf with hbuf'
  set last := p.part2 + 2 + be buf p.part2 2 % 2 ^ 12 with hlast
  have hpos : ∀ {i j : ℕ} {t : Block}, BlockDone order transportHeader buf buf' i j t → t.pos = i ∧ i < j := by
    intro i j t ht
    have hend := ht.stop_eq
    have hsize : 0 < transportHeader.size := by decide
    exact ⟨ht.pos_eq, by omega⟩
  have hnext : ∀ {i j : ℕ} {t : Block} (_ : ℕ), BlockDone order transportHeader buf buf' i j t →
      transportsNext order buf' p.part2 i = if last ≤ j then none else some j := by
    intro i j t _ ht
    have hend : j = i + 6 + transportDescriptorsLength order buf' i := ht.stop_eq
    rw [transportsNext, hloop, ← hend]
  have hfirst : transportsFirst order buf' p.part2 = if last ≤ p.part2 + 2 then none else some (p.part2 + 2) := by
    rw [transportsFirst, hloop]
    exact if_congr (by omega) rfl rfl
  rw [LoopSound, hpart2, hfirst]
  constructor
  · rintro ⟨vs, hvs, hinside, hall⟩
    refine htransports.until_of_forEach hpos hnext hvs hall fun hstop => ?_
    have hroom : 4 ≤ buf.length := by
      have hlen := h.length_eq
      have hone := h.length_pos
      omega
    rw [← hlength] at hstop hroom
    exact not_transportInside_stop buf' hroom (hinside _ hstop)
  · rintro ⟨hlt, hle⟩
    refine ⟨p.transports.map Block.pos, htransports.forEach_until hpos hnext hlt hle 0, fun v hv => ?_,
      fun t ht => List.mem_map_of_mem ht⟩
    obtain ⟨t, ht, rfl⟩ := List.mem_map.mp hv
    obtain ⟨i, j, -, hj, hdone⟩ := htransports.of_mem (fun ht => (hpos ht).2.le) ht
    rw [hdone.pos_eq, hlength]
    exact transportInside_of_blockDone (hj.trans (Nat.sub_le _ _)) hdone

end Accepted

/-- **NIT and BAT.**  A section that the codec accepts has parts up to its CRC; and the iterators come to all of its
transport streams, and to nothing outside the section, exactly if the length of the loop fits them. -/
theorem transportLoop_iff (order : ByteOrder) {buf buf' : List UInt8} (hlength : buf.length = lengthField order buf + 3)
    (hrun : (dvbNitSectionCodec order).run buf = .ok ((), buf') ∨ (dvbBatSectionCodec order).run buf = .ok ((), buf')) :
    (∃ p, PartsAt buf (buf.length - 4) p) ∧
      ∀ p, PartsAt buf (buf.length - 4) p → (LoopSound order buf' p ↔ LoopFits buf p) := by
  have haccepted : (transportSectionCodec order).run buf = .ok ((), buf') := or_self_iff.mp hrun
  have h := whole_of_accepted hlength haccepted
  obtain ⟨p, hp, -⟩ := (transportSectionCodec_ok_iff h).mp haccepted
  refine ⟨⟨p, hp⟩, fun q hq => ?_⟩
  have hleft : (transportSectionCodec order).run buf = .ok ((), swappedParts order q buf) :=
    (transportSectionCodec_ok_iff h).mpr ⟨q, hq, rfl⟩
  rw [haccepted] at hleft
  rw [(Prod.mk.inj (Except.ok.inj hleft)).2]
  exact loopSound_iff h hq

/-- A NIT with one transport stream and a loop length of 0, as `section_ext_decode` leaves it on a little-endian
host. -/
def zeroLoop : List UInt8 :=
  [0x40, 0x15, 0xb0, 0x01, 0x00, 0xc1, 0x00, 0x00, 0xf0, 0x00, 0xf0, 0x00, 0x04, 0x01, 0x00, 0x01, 0xf0, 0x02, 0x52,
    0x00, 0xaa, 0xbb, 0xcc, 0xdd]

def zeroLoopSwapped : List UInt8 :=
  [0x40, 0x15, 0xb0, 0x01, 0x00, 0xc1, 0x00, 0x00, 0x00, 0xf0, 0x00, 0xf0, 0x01, 0x04, 0x01, 0x00, 0x02, 0xf0, 0x52,
    0x00, 0xaa, 0xbb, 0xcc, 0xdd]

def zeroLoopParts : Parts := ⟨⟨8, []⟩, 10, [⟨12, [18]⟩]⟩

theorem zeroLoop_run : (dvbNitSectionCodec .little).run zeroLoop = .ok ((), zeroLoopSwapped) := by decide +kernel

theorem zeroLoop_parts : PartsAt zeroLoop 20 zeroLoopParts where
  front := ⟨rfl, by decide, .nil⟩
  transports := .cons ⟨rfl, by decide, .cons ⟨rfl, by decide⟩ .nil⟩ .nil

theorem transportLoop_iff_zeroLoop :
    (∃ p, PartsAt zeroLoop 20 p) ∧
      ∀ p, PartsAt zeroLoop 20 p → (LoopSound .little zeroLoopSwapped p ↔ LoopFits zeroLoop p) :=
  transportLoop_iff .little (by decide) (.inl zeroLoop_run)

/-- The iterator does not come to the transport stream that the codec has checked. -/
theorem not_loopSound_zeroLoop :
    (dvbNitSectionCodec .little).run zeroLoop = .ok ((), zeroLoopSwapped) ∧ PartsAt zeroLoop 20 zeroLoopParts ∧
      ¬ LoopSound .little zeroLoopSwapped zeroLoopParts := by
  refine ⟨zeroLoop_run, zeroLoop_parts, ?_⟩
  intro hsound
  obtain ⟨vs, hvs, -, hall⟩ := hsound
  have hfirst : transportsFirst .little zeroLoopSwapped (part2 .little zeroLoopSwapped) = none := by decide
  rw [hfirst] at hvs
  cases hvs
  exact absurd (hall ⟨12, [18]⟩ (List.mem_singleton_self _)) List.not_mem_nil

end BgtDvb.Ucsi.Table.Transports
