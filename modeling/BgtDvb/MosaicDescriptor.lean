import BgtDvb.DescriptorWalk

/-!
# The mosaic descriptor

`dvb_mosaic_descriptor_codec` of `libucsi/dvb/mosaic_descriptor.h`, its iterators and accessors.  An info has its
elementary cell fields behind a length, and behind them a byte that says which linkage record follows; the codec and
the iterator have the sizes of these records each on its own.

* `dvbMosaicDescriptorCodec_ok_iff` — **PROVED**: the codec accepts exactly infos that tile the descriptor;
* `mosaic_descriptor` — **PROVED**: the iterators come to what the codec accepts, and it accepts this syntax.
-/

namespace BgtDvb.Ucsi.Descriptor.Mosaic

open BgtDvb.Walks
open BgtDvb.Words
open BgtDvb.Ucsi.Table
open BgtDvb.Ucsi.Table.Dcct (be_of_drop drop_of_cons)
open BgtDvb.Ucsi.Table.Transports (plain_ok_iff)

/-! ### The codec -/

section Codec

variable (order : ByteOrder)

/-- The `switch` over `cell_linkage_info`. -/
def mosaicLinkage (stop : ℕ) : ℕ → ℕ → Walk ℕ
  | 0x01, pos => plain order [(0, 2)] 2 stop pos
  | 0x02, pos => plain order [(0, 2), (2, 2), (4, 2)] 6 stop pos
  | 0x03, pos => plain order [(0, 2), (2, 2), (4, 2)] 6 stop pos
  | 0x04, pos => plain order [(0, 2), (2, 2), (4, 2), (6, 2)] 8 stop pos
  | _, pos => pure pos

/-- `struct dvb_mosaic_info_part2` and the linkage behind it. -/
def mosaicPart2 (stop pos : ℕ) : Walk ℕ := do
  require (pos + 1 ≤ stop)
  let cellLinkageInfo ← read pos 1
  mosaicLinkage order stop (beNat cellLinkageInfo) (pos + 1)

/-- One round: `struct dvb_mosaic_info` with its elementary cell fields, and the second part. -/
def mosaicInfo (stop pos : ℕ) : Walk ℕ := do
  let part2 ← counted order [(0, 2)] 2 stop pos
  mosaicPart2 order stop part2

/-- `dvb_mosaic_descriptor_codec` -/
def dvbMosaicDescriptorCodec : Walk Unit := do
  let len ← read 1 1
  require (3 ≤ 2 + beNat len)
  let _ ← whileBelow (2 + beNat len) (mosaicInfo order (2 + beNat len)) (beNat len) 3
  pure ()

end Codec

/-! ### The iterators and accessors -/

section Iterators

variable (buf : List UInt8)

/-- `elementary_cell_field_length` -/
def elementaryCellFieldLength (info : ℕ) : ℕ := be buf (info + 2) 1

/-- `cell_linkage_info` -/
def cellLinkageInfo (part2 : ℕ) : ℕ := be buf part2 1

/-- `dvb_mosaic_info_part2` -/
def dvbMosaicInfoPart2 (info : ℕ) : ℕ := info + 3 + elementaryCellFieldLength buf info

/-- `dvb_mosaic_linkage` -/
def dvbMosaicLinkage (part2 : ℕ) : Option ℕ :=
  if cellLinkageInfo buf part2 ≠ 1 ∧ cellLinkageInfo buf part2 ≠ 2 ∧ cellLinkageInfo buf part2 ≠ 3
    ∧ cellLinkageInfo buf part2 ≠ 4 then none
  else some (part2 + 1)

/-- `dvb_mosaic_descriptor_infos_first` -/
def infosFirst : Option ℕ := if be buf 1 1 = 1 then none else some 3

/-- `dvb_mosaic_descriptor_infos_next` -/
def infosNext (pos : ℕ) : Option ℕ :=
  let info := cellLinkageInfo buf (dvbMosaicInfoPart2 buf pos)
  let part2 := pos + 3 + elementaryCellFieldLength buf pos + 1
  let next :=
    if info = 1 then part2 + 2
    else if info = 2 then part2 + 6
    else if info = 3 then part2 + 6
    else if info = 4 then part2 + 8
    else part2
  if 2 + be buf 1 1 ≤ next then none else some next

/-- `dvb_mosaic_info_fields_first` -/
def fieldsFirst (info : ℕ) : Option ℕ := if elementaryCellFieldLength buf info = 0 then none else some (info + 3)

/-- `dvb_mosaic_info_fields_next` -/
def fieldsNext (info pos : ℕ) : Option ℕ :=
  if info + 3 + elementaryCellFieldLength buf info ≤ pos + 1 then none else some (pos + 1)

end Iterators

/-! ### Where an info stands -/

def linkageWords : ℕ → List (ℕ × ℕ)
  | 1 => [(0, 2)]
  | 2 => [(0, 2), (2, 2), (4, 2)]
  | 3 => [(0, 2), (2, 2), (4, 2)]
  | 4 => [(0, 2), (2, 2), (4, 2), (6, 2)]
  | _ => []

def linkageSize (info : ℕ) : ℕ := 2 * (linkageWords info).length

/-- An info: where it begins, where its second part does, and its `cell_linkage_info`. -/
abbrev Info : Type := ℕ × ℕ × ℕ

/-- The second part, and the linkage record that its byte selects. -/
def Part2At (buf : List UInt8) (a b : ℕ) (x : ℕ × ℕ) : Prop :=
  x = (a, be buf a 1) ∧ b = a + 1 + linkageSize (be buf a 1)

def InfoAt (buf : List UInt8) (a b : ℕ) (x : Info) : Prop := ∃ part2, CountedAt 2 buf a part2 x.1 ∧ Part2At buf part2 b x.2

def Info.words (x : Info) : List (ℕ × ℕ) := shift x.1 [(0, 2)] ++ shift (x.2.1 + 1) (linkageWords x.2.2)

variable {order : ByteOrder} {n stop : ℕ}

theorem linkageWords_apart (info : ℕ) : Apart 0 (linkageSize info) (linkageWords info) := by
  match info with
  | 0 => decide
  | 1 => decide
  | 2 => decide
  | 3 => decide
  | 4 => decide
  | info + 5 => exact le_rfl

variable {pos a : ℕ} {x : Info}

theorem mosaicLinkage_eq (order : ByteOrder) {info : ℕ} (hpos : pos ≤ stop) :
    mosaicLinkage order stop info pos = plain order (linkageWords info) (linkageSize info) stop pos := by
  have hnone : (pure pos : Walk ℕ) = plain order [] 0 stop pos := by
    have hroom : pos + 0 ≤ stop := hpos
    rw [plain, require, if_pos hroom]
    rfl
  rcases info with _ | _ | _ | _ | _ | info
  · exact hnone
  · rfl
  · rfl
  · rfl
  · rfl
  · exact hnone

theorem mosaicPart2_ok_iff {buf : List UInt8} (hstop : stop ≤ buf.length) {r : ℕ × List UInt8} :
    (mosaicPart2 order stop pos).run buf = .ok r ↔
      r.1 ≤ stop ∧ Part2At buf pos r.1 (pos, be buf pos 1)
        ∧ r.2 = swapped order (shift (pos + 1) (linkageWords (be buf pos 1))) buf := by
  rw [mosaicPart2]
  by_cases hroom : pos + 1 ≤ stop
  · rw [run_bind_ok (run_require hroom buf), run_bind_ok (read_ok_iff.mpr ⟨hroom.trans hstop, rfl⟩),
      mosaicLinkage_eq order hroom, plain_ok_iff (linkageWords_apart _) hstop]
    constructor
    · intro h
      obtain ⟨hle, rfl⟩ := h
      exact ⟨hle, ⟨rfl, rfl⟩, rfl⟩
    · intro h
      obtain ⟨hle, ⟨-, hend⟩, hbuf'⟩ := h
      exact ⟨hend ▸ hle, Prod.ext hend hbuf'⟩
  · rw [run_bind_error (run_require_not hroom buf)]
    refine iff_of_false (fun heq => by cases heq) fun h => ?_
    obtain ⟨hle, ⟨-, hend⟩, -⟩ := h
    omega

theorem takes_part2 (order : ByteOrder) (hstop : stop ≤ n) :
    Takes n stop (mosaicPart2 order stop) Part2At fun x => swapped order (shift (x.1 + 1) (linkageWords x.2)) where
  run {buf} hbuf {pos r} hr := by
    rw [mosaicPart2_ok_iff (hbuf.symm ▸ hstop)]
    constructor
    · intro h
      exact ⟨_, h.2⟩
    · intro h
      obtain ⟨x, hx, hbuf'⟩ := h
      obtain rfl := hx.1
      exact ⟨hr, hx, hbuf'⟩
  onward {buf} hbuf {pos r} hr := by
    obtain ⟨hle, ⟨-, hend⟩, hbuf'⟩ := (mosaicPart2_ok_iff (hbuf.symm ▸ hstop)).mp hr
    rw [hbuf']
    exact ⟨by omega, (shift_keeps order (linkageWords_apart _) (by omega)).1.trans hbuf⟩
  forward h := by
    have hend := h.2
    omega
  ahead hdrop h := by
    have hinfo := be_eq_of_drop hdrop le_rfl (k := 1)
    exact ⟨hinfo ▸ h.1, hinfo ▸ h.2⟩
  keeps {buf a b x} hbuf hb hx := by
    obtain ⟨rfl, hend⟩ := hx
    obtain ⟨hkept, htake, hdrop⟩ := shift_keeps order (linkageWords_apart (be buf a 1)) (by omega : a + 1 + _ ≤ buf.length)
    exact ⟨hkept.trans hbuf, take_eq_of_le htake (Nat.le_add_right a 1), drop_eq_of_le hdrop hend.ge⟩

theorem cell_apart : Apart 0 2 [(0, 2)] := by decide

/-- **A round of the loop** takes an info. -/
theorem takes_info (order : ByteOrder) (hstop : stop ≤ n) :
    Takes n stop (mosaicInfo order stop) InfoAt fun x => swapped order x.words := by
  have hpair := takes_pair (takes_counted order cell_apart hstop) (takes_part2 order hstop)
  have heff : (fun (x : Info) => swapped order x.words) = fun (x : Info) (buf : List UInt8) =>
      swapped order (shift (x.2.1 + 1) (linkageWords x.2.2)) (swapped order (shift x.1 [(0, 2)]) buf) := by
    funext x buf
    exact swapped_append _ _ buf
  rw [heff]
  exact hpair

theorem safe_mosaicInfo (order : ByteOrder) (hstop : stop ≤ n) :
    Safe n (mosaicInfo order stop pos) fun pos' => pos < pos' ∧ pos' ≤ stop := by
  refine (safe_counted order cell_apart hstop).bind fun part2 hpart2 => ?_
  refine (safe_require _).bind fun _ hroom => ?_
  refine (safe_read (hroom.trans hstop)).bind fun info _ => ?_
  rw [mosaicLinkage_eq order hroom]
  refine (safe_plain order hstop fun f hf => ?_).mono fun pos' hpos' => ?_
  · exact ((linkageWords_apart _).mem hf).2
  · omega

/-! ### What the codec accepts -/

variable {buf : List UInt8}

/-- **The codec stays inside** the descriptor and comes to an end. -/
theorem stays_dvbMosaicDescriptorCodec (order : ByteOrder) (h : IsDescriptor buf) :
    Stays (dvbMosaicDescriptorCodec order) buf := by
  have hread : 1 + 1 ≤ buf.length := by
    unfold IsDescriptor at h
    omega
  unfold dvbMosaicDescriptorCodec
  rw [stays_bind_ok (read_ok_iff.mpr ⟨hread, rfl⟩)]
  have hloop : Safe buf.length (require (3 ≤ 2 + be buf 1 1) >>= fun _ =>
      whileBelow (2 + be buf 1 1) (mosaicInfo order (2 + be buf 1 1)) (be buf 1 1) 3 >>= fun _ => pure ()) fun _ => True := by
    refine (safe_require _).bind fun _ hsize => ?_
    refine (safe_whileBelow (fun pos (_ : True) _ => ?_) _ trivial (by omega)).bind fun _ _ => safe_pure trivial
    exact (safe_mosaicInfo order h.ge).mono fun pos' hpos' => ⟨hpos'.1, trivial⟩
  exact (hloop buf rfl).stays

theorem dvbMosaicDescriptorCodec_ok_iff (h : IsDescriptor buf) {buf' : List UInt8} :
    (dvbMosaicDescriptorCodec order).run buf = .ok ((), buf') ↔
      ∃ xs, Tiles (InfoAt buf) 3 buf.length xs ∧ buf' = swapped order (xs.flatMap Info.words) buf := by
  have hread : 1 + 1 ≤ buf.length := by
    unfold IsDescriptor at h
    omega
  have htakes := takes_info order (le_refl buf.length)
  rw [dvbMosaicDescriptorCodec, run_bind_ok (read_ok_iff.mpr ⟨hread, rfl⟩)]
  show (require (3 ≤ 2 + be buf 1 1) >>= fun _ => whileBelow (2 + be buf 1 1) (mosaicInfo order (2 + be buf 1 1))
    (be buf 1 1) 3 >>= fun _ => pure ()).run buf = _ ↔ _
  rw [← h]
  by_cases hsize : 3 ≤ buf.length
  · have hfuel : buf.length - 3 ≤ be buf 1 1 := by
      unfold IsDescriptor at h
      omega
    have hiff : (whileBelow buf.length (mosaicInfo order buf.length) (be buf 1 1) 3).run buf = .ok (buf.length, buf') ↔ _ :=
      htakes.whileBelow_iff (be buf 1 1) hsize hfuel rfl
    simp only [effects_swapped] at hiff
    rw [run_bind_ok (run_require hsize buf), ← hiff, bind_ok_iff]
    constructor
    · intro hrun
      obtain ⟨pos, buf₁, hloop, hpure⟩ := hrun
      cases hpure
      have hsafe := safe_whileBelow (n := buf.length) (I := (· ≤ buf.length))
        (fun pos _ _ => safe_mosaicInfo order (le_refl buf.length)) (be buf 1 1) hsize hfuel buf rfl
      rw [hloop] at hsafe
      obtain rfl : pos = buf.length := le_antisymm hsafe.2.2 hsafe.2.1
      exact hloop
    · intro hloop
      exact ⟨_, _, hloop, rfl⟩
  · rw [run_bind_error (run_require_not hsize buf)]
    refine iff_of_false (fun heq => by cases heq) fun htiles => ?_
    obtain ⟨xs, hxs, -⟩ := htiles
    have hle := htakes.tiles_le hxs
    omega

/-! ### What the iterators come to -/

/-- An info when its words have been swapped: the host reads the numbers that were sent. -/
structure InfoDone (order : ByteOrder) (sent buf : List UInt8) (a b : ℕ) (x : Info) : Prop where
  pos_eq : x.1 = a
  part2_eq : x.2.1 = dvbMosaicInfoPart2 buf a
  info_eq : x.2.2 = cellLinkageInfo buf x.2.1
  stop_eq : b = x.2.1 + 1 + linkageSize x.2.2
  apart : Apart a b x.words
  words : ∀ f ∈ x.words, host order buf f.1 f.2 = be sent f.1 f.2
  fields : SameOn (a + 2) (x.2.1 + 1) buf sent

theorem Info.apart (hx : InfoAt buf a b x) : Apart a b x.words := by
  obtain ⟨part2, hfields, hpart2⟩ := hx
  obtain ⟨i, j, info⟩ := x
  obtain ⟨hinfo, hend⟩ := hpart2
  obtain ⟨rfl, rfl⟩ := Prod.mk.inj hinfo
  have hlt := hfields.lt
  obtain rfl : i = a := hfields.1
  have hcell : Apart i j (shift i [(0, 2)]) := by
    exact (apart_shift i cell_apart).mono le_rfl hlt.le
  have hlinkage : Apart j b (shift (j + 1) (linkageWords (be buf j 1))) :=
    (apart_shift (j + 1) (linkageWords_apart _)).mono (by omega) hend.ge
  exact hcell.append hlinkage

theorem InfoDone.ends (h : InfoDone order sent buf a b x) : a + 3 ≤ x.2.1 ∧ x.2.1 + 1 ≤ b := by
  have hpart2 : x.2.1 = a + 3 + elementaryCellFieldLength buf a := h.part2_eq
  have hend := h.stop_eq
  omega

theorem infoDone_of_infoAt (hb : b ≤ buf.length) (hsent : buf.drop a = sent.drop a) (hx : InfoAt buf a b x) :
    InfoDone order sent (swapped order x.words buf) a b x := by
  have hapart := Info.apart hx
  obtain ⟨part2, hfields, hpart2⟩ := hx
  obtain ⟨i, j, info⟩ := x
  obtain ⟨hinfo, hend⟩ := hpart2
  obtain ⟨rfl, rfl⟩ := Prod.mk.inj hinfo
  obtain rfl : i = a := hfields.1
  have hj : j = i + 3 + be buf (i + 2) 1 := hfields.2
  have hroom : j + 1 + linkageSize (be buf j 1) ≤ buf.length := hend ▸ hb
  -- the bytes between the two groups of words
  have hkept : SameOn (i + 2) (j + 1) (swapped order (Info.words (i, j, be buf j 1)) buf) buf := by
    obtain ⟨hlen, -, hdrop⟩ := shift_keeps order cell_apart (by omega : i + 2 ≤ buf.length)
    have hlinkage := shift_keeps order (linkageWords_apart (be buf j 1)) (hlen.symm ▸ hroom)
    rw [Info.words, swapped_append]
    exact (sameOn_of_take hlinkage.2.1).trans (sameOn_of_drop hdrop)
  have hlength : be (swapped order (Info.words (i, j, be buf j 1)) buf) (i + 2) 1 = be buf (i + 2) 1 :=
    be_eq_of_sameOn hkept le_rfl (by omega)
  have hinfo' : be (swapped order (Info.words (i, j, be buf j 1)) buf) j 1 = be buf j 1 :=
    be_eq_of_sameOn hkept (by omega) le_rfl
  refine ⟨rfl, ?_, hinfo'.symm, hend, hapart, fun f hf => ?_, hkept.trans (sameOn_of_drop ?_)⟩
  · show j = i + 3 + be _ (i + 2) 1
    rw [hlength, hj]
  · exact (host_swapped hapart hb hf).trans (be_eq_of_drop hsent (hapart.mem hf).1)
  · exact drop_eq_of_le hsent (Nat.le_add_right i 2)

theorem infoDone_sameOn {buf' : List UInt8} (hsame : SameOn a b buf buf') (hx : InfoDone order sent buf a b x) :
    InfoDone order sent buf' a b x := by
  have hends := hx.ends
  have hlength : elementaryCellFieldLength buf a = elementaryCellFieldLength buf' a :=
    be_eq_of_sameOn hsame (Nat.le_add_right a 2) (by omega)
  have hinfo : cellLinkageInfo buf x.2.1 = cellLinkageInfo buf' x.2.1 := be_eq_of_sameOn hsame (by omega) hends.2
  refine ⟨hx.pos_eq, ?_, hinfo ▸ hx.info_eq, hx.stop_eq, hx.apart, fun f hf => ?_, ?_⟩
  · rw [hx.part2_eq, dvbMosaicInfoPart2, hlength]
    rfl
  · obtain ⟨hle, hend⟩ := hx.apart.mem hf
    exact (host_eq_of_sameOn hsame hle hend).symm.trans (hx.words f hf)
  · exact (hsame.mono (Nat.le_add_right a 2) hends.2).symm.trans hx.fields

theorem infosNext_eq (hx : InfoDone order sent buf a b x) :
    infosNext buf a = if 2 + be buf 1 1 ≤ b then none else some b := by
  have hinfo : x.2.2 = cellLinkageInfo buf (dvbMosaicInfoPart2 buf a) := by
    rw [← hx.part2_eq]
    exact hx.info_eq
  have hend : b = a + 3 + elementaryCellFieldLength buf a + 1 + linkageSize x.2.2 := by
    rw [hx.stop_eq, hx.part2_eq]
    rfl
  unfold infosNext
  rw [← hinfo, hend]
  match x.2.2 with
  | 0 => rfl
  | 1 => rfl
  | 2 => rfl
  | 3 => rfl
  | 4 => rfl
  | info + 5 => rfl

theorem dvbMosaicLinkage_eq {part2 : ℕ} : dvbMosaicLinkage buf part2 =
    if linkageSize (cellLinkageInfo buf part2) = 0 then none else some (part2 + 1) := by
  unfold dvbMosaicLinkage
  match cellLinkageInfo buf part2 with
  | 0 => rfl
  | 1 => rfl
  | 2 => rfl
  | 3 => rfl
  | 4 => rfl
  | info + 5 =>
    have hnone : info + 5 ≠ 1 ∧ info + 5 ≠ 2 ∧ info + 5 ≠ 3 ∧ info + 5 ≠ 4 := by omega
    rw [if_pos hnone]
    rfl

/-- What the accessors and the iterator over the fields come to in an info: it is inside the descriptor, its fields are
all the bytes that its length counts, and the words are read as they were sent. -/
structure InfoFound (order : ByteOrder) (sent buf : List UInt8) (x : Info) : Prop where
  fields : ForEach (fun pos _ => fieldsNext buf x.1 pos) 0 (fieldsFirst buf x.1)
    (List.range' (x.1 + 3) (be sent (x.1 + 2) 1))
  part2_eq : dvbMosaicInfoPart2 buf x.1 = x.2.1
  info_eq : cellLinkageInfo buf x.2.1 = x.2.2
  linkage_eq : dvbMosaicLinkage buf x.2.1 = if linkageSize x.2.2 = 0 then none else some (x.2.1 + 1)
  inside : x.2.1 + 1 + linkageSize x.2.2 ≤ sent.length
  words : ∀ f ∈ x.words, host order buf f.1 f.2 = be sent f.1 f.2

theorem InfoDone.found (hb : b ≤ sent.length) (hx : InfoDone order sent buf a b x) : InfoFound order sent buf x := by
  obtain rfl := hx.pos_eq
  have hends := hx.ends
  have hlength : elementaryCellFieldLength buf x.1 = be sent (x.1 + 2) 1 :=
    be_eq_of_sameOn hx.fields le_rfl (by omega)
  refine ⟨?_, hx.part2_eq.symm, hx.info_eq.symm, ?_, hx.stop_eq ▸ hb, hx.words⟩
  · rw [← hlength]
    exact forEach_bytes (x.1 + 3) _
  · rw [hx.info_eq]
    exact dvbMosaicLinkage_eq

/-! ### The syntax -/

/-- The linkage of an info: its `cell_linkage_info`, and the record that it selects. -/
inductive LinkageSyntax
  | bouquet (bouquetId : UInt16)
  | service (originalNetworkId transportStreamId serviceId : UInt16)
  | mosaic (originalNetworkId transportStreamId serviceId : UInt16)
  | event (originalNetworkId transportStreamId serviceId eventId : UInt16)
  | none (info : UInt8) (undefined : info = 0 ∨ 4 < info)

def LinkageSyntax.info : LinkageSyntax → UInt8
  | .bouquet _ => 1
  | .service _ _ _ => 2
  | .mosaic _ _ _ => 3
  | .event _ _ _ _ => 4
  | .none info _ => info

def LinkageSyntax.ids : LinkageSyntax → List UInt16
  | .bouquet bouquetId => [bouquetId]
  | .service originalNetworkId transportStreamId serviceId => [originalNetworkId, transportStreamId, serviceId]
  | .mosaic originalNetworkId transportStreamId serviceId => [originalNetworkId, transportStreamId, serviceId]
  | .event originalNetworkId transportStreamId serviceId eventId =>
    [originalNetworkId, transportStreamId, serviceId, eventId]
  | .none _ _ => []

def LinkageSyntax.bytes (l : LinkageSyntax) : List UInt8 := l.info :: l.ids.flatMap fun id => beBytes 2 id.toNat

/-- An info: the word with `logical_cell_id` and `logical_cell_presentation_info`, its elementary cell fields, and its
linkage. -/
structure InfoSyntax where
  cell : UInt16
  fields : List UInt8
  short : fields.length < 2 ^ 8
  linkage : LinkageSyntax

def InfoSyntax.bytes (s : InfoSyntax) : List UInt8 :=
  beBytes 2 s.cell.toNat ++ (UInt8.ofNat s.fields.length :: (s.fields ++ s.linkage.bytes))

/-- A descriptor: its tag, the byte with `mosaic_entry_point` and the numbers of cells, and its infos. -/
structure MosaicSyntax where
  tag : UInt8
  head : UInt8
  infos : List InfoSyntax
  short : 1 + (infos.flatMap InfoSyntax.bytes).length < 2 ^ 8

def MosaicSyntax.bytes (d : MosaicSyntax) : List UInt8 :=
  d.tag :: UInt8.ofNat (1 + (d.infos.flatMap InfoSyntax.bytes).length) :: d.head :: d.infos.flatMap InfoSyntax.bytes

theorem length_flatMap_ids (ids : List UInt16) : (ids.flatMap fun id => beBytes 2 id.toNat).length = 2 * ids.length := by
  induction ids with
  | nil => rfl
  | cons id ids ih =>
    rw [List.flatMap_cons, List.length_append, length_beBytes, ih, List.length_cons]
    omega

theorem LinkageSyntax.length_ids (l : LinkageSyntax) : l.ids.length = (linkageWords l.info.toNat).length := by
  cases l with
  | bouquet => rfl
  | service => rfl
  | mosaic => rfl
  | event => rfl
  | none info undefined =>
    show 0 = (linkageWords info.toNat).length
    have hinfo : info.toNat = 0 ∨ 4 < info.toNat := undefined.imp (fun h => congrArg UInt8.toNat h) id
    match info.toNat, hinfo with
    | 0, _ => rfl
    | n + 5, _ => rfl

/-- **An info by the syntax** is one that the codec takes. -/
theorem InfoSyntax.infoAt (s : InfoSyntax) (h : Written InfoSyntax.bytes buf a b s) : ∃ x, InfoAt buf a b x := by
  obtain ⟨hend, rest, hdrop⟩ := h
  rw [InfoSyntax.bytes, List.append_assoc] at hdrop
  have hcell := drop_of_append hdrop
  rw [length_beBytes, List.cons_append, List.append_assoc] at hcell
  have hlength := be_of_drop s.short hcell
  have hlinkage := drop_of_append (drop_of_cons hcell)
  have hpart2 : a + 2 + 1 + s.fields.length = a + (2 + 1) + be buf (a + 2) 1 := by
    rw [hlength]
  rw [hpart2, LinkageSyntax.bytes, List.cons_append, ← UInt8.ofNat_toNat (x := s.linkage.info)] at hlinkage
  have hinfo := be_of_drop s.linkage.info.toNat_lt hlinkage
  refine ⟨(a, _, _), _, ⟨rfl, rfl⟩, rfl, ?_⟩
  rw [hinfo, hend, hlength, linkageSize, ← s.linkage.length_ids, InfoSyntax.bytes, List.length_append, length_beBytes,
    List.length_cons, List.length_append, LinkageSyntax.bytes, List.length_cons, length_flatMap_ids]
  omega

theorem MosaicSyntax.isDescriptor (d : MosaicSyntax) : IsDescriptor d.bytes := by
  have hlength : be d.bytes 1 1 = 1 + (d.infos.flatMap InfoSyntax.bytes).length := be_of_drop d.short rfl
  unfold IsDescriptor
  rw [hlength, MosaicSyntax.bytes, List.length_cons, List.length_cons, List.length_cons]
  omega

theorem MosaicSyntax.tiles (d : MosaicSyntax) : ∃ xs, Tiles (InfoAt d.bytes) 3 d.bytes.length xs := by
  have hdrop : d.bytes.drop 3 = d.infos.flatMap InfoSyntax.bytes ++ [] := (List.append_nil _).symm
  have hend : 3 + (d.infos.flatMap InfoSyntax.bytes).length = d.bytes.length := by
    rw [MosaicSyntax.bytes, List.length_cons, List.length_cons, List.length_cons]
    omega
  have hwritten := tiles_written InfoSyntax.bytes hdrop
  rw [hend] at hwritten
  obtain ⟨xs, hxs, -⟩ := hwritten.matched (Q := fun _ _ => True) fun i j s _ hs => by
    obtain ⟨x, hx⟩ := s.infoAt hs
    exact ⟨x, hx, trivial⟩
  exact ⟨xs, hxs⟩

/-! ### Mosaic descriptors -/

/-- **Infos that the codec accepts** are what the iterators come to. -/
theorem infosIterated (h : IsDescriptor buf) {xs : List Info} (hxs : Tiles (InfoAt buf) 3 buf.length xs) :
    ForEach (fun pos _ => infosNext (swapped order (xs.flatMap Info.words) buf) pos) 0
        (infosFirst (swapped order (xs.flatMap Info.words) buf)) (xs.map Prod.fst)
      ∧ ∀ x ∈ xs, InfoFound order buf (swapped order (xs.flatMap Info.words) buf) x := by
  have htakes := takes_info order (le_refl buf.length)
  have hkeeps := htakes.effects_keeps rfl le_rfl hxs
  have hdone := htakes.settle (P := InfoDone order buf)
    (fun hbuf hj hcut hx => infoDone_of_infoAt (hbuf.symm ▸ hj) hcut hx) (fun hsame hx => infoDone_sameOn hsame hx) rfl
    le_rfl rfl hxs
  rw [effects_swapped] at hkeeps hdone
  have hlength : be (swapped order (xs.flatMap Info.words) buf) 1 1 = be buf 1 1 :=
    congrArg beNat (slice_eq_of_take hkeeps.2.1 (by omega))
  have hpos : ∀ {i j : ℕ} {x : Info}, InfoDone order buf (swapped order (xs.flatMap Info.words) buf) i j x →
      x.1 = i ∧ i < j := by
    intro i j x hx
    have hends := hx.ends
    exact ⟨hx.pos_eq, by omega⟩
  obtain ⟨hsize, hfor⟩ := hdone.forEach_below Prod.fst (fun pos _ => infosNext (swapped order (xs.flatMap Info.words) buf) pos)
    hpos (fun {i j x} idx hx => by rw [infosNext_eq hx, hlength, ← h]) 0
  have hfirst : infosFirst (swapped order (xs.flatMap Info.words) buf) = if buf.length ≤ 3 then none else some 3 := by
    unfold infosFirst
    rw [hlength]
    unfold IsDescriptor at h
    apply if_congr _ rfl rfl
    omega
  rw [hfirst]
  refine ⟨hfor, fun x hx => ?_⟩
  obtain ⟨i, j, -, hj, hxDone⟩ := hdone.of_mem (fun hx => (hpos hx).2.le) hx
  exact hxDone.found hj

/-- **Mosaic descriptors**: the codec ends, and stays inside; the infos that it accepts and swaps tile the descriptor
from its fourth byte to its end, iterators and accessors come to just these; and every list of infos that has room in
a descriptor is accepted. -/
theorem mosaic_descriptor (order : ByteOrder) :
    (∀ buf, IsDescriptor buf → Stays (dvbMosaicDescriptorCodec order) buf ∧
      ∀ buf', (dvbMosaicDescriptorCodec order).run buf = .ok ((), buf') →
        ∃ xs, Tiles (InfoAt buf) 3 buf.length xs ∧ buf' = swapped order (xs.flatMap Info.words) buf
          ∧ ForEach (fun pos _ => infosNext buf' pos) 0 (infosFirst buf') (xs.map Prod.fst)
          ∧ ∀ x ∈ xs, InfoFound order buf buf' x)
    ∧ ∀ d : MosaicSyntax, IsDescriptor d.bytes ∧ ∃ buf', (dvbMosaicDescriptorCodec order).run d.bytes = .ok ((), buf') := by
  constructor
  · intro buf h
    refine ⟨stays_dvbMosaicDescriptorCodec order h, fun buf' hrun => ?_⟩
    obtain ⟨xs, hxs, rfl⟩ := (dvbMosaicDescriptorCodec_ok_iff h).mp hrun
    exact ⟨xs, hxs, rfl, infosIterated h hxs⟩
  · intro d
    obtain ⟨xs, hxs⟩ := d.tiles
    exact ⟨d.isDescriptor, _, (dvbMosaicDescriptorCodec_ok_iff d.isDescriptor).mpr ⟨xs, hxs, rfl⟩⟩

/-- An info with two fields that links to a bouquet, and one without any that links to nothing. -/
example : (dvbMosaicDescriptorCodec .little).run [0x51, 13, 0x88, 0x04, 0x01, 2, 0x21, 0x22, 1, 0x12, 0x34, 0x08, 0x02, 0, 0] =
    .ok ((), [0x51, 13, 0x88, 0x01, 0x04, 2, 0x21, 0x22, 1, 0x34, 0x12, 0x02, 0x08, 0, 0]) := by decide

end BgtDvb.Ucsi.Descriptor.Mosaic
