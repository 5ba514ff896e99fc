import BgtDvb.Lib.Looks
import BgtDvb.TransportPacket

/-!
# The bytes of a transport packet that are read

`transport_packet_values_extract` once more, with every read of the packet at its place.  The lengths in a packet are
the sender's: the adaptation field, its private data and its extension announce one each.

* `TransportValue.looks` — the bytes that the decoding of a field reads; `store_congr` — **PROVED**: the values depend
  on no others;
* `lookExtract_sees` — **PROVED**: the walk comes to the same result and reads no other bytes;
* `extract_inside` — **PROVED**: and the payload it returns fills the rest of the packet.
-/

namespace BgtDvb.Ucsi

open BgtDvb.Looks

/-! ### The walk -/

def TransportValue.looks (pos : ℕ) : TransportValue → List ℕ
  | .pcr | .opcr => [pos, pos + 1, pos + 2, pos + 3, pos + 4, pos + 5]
  | .spliceCountdown | .privateData => [pos]
  | .ltw => [pos, pos + 1]
  | .piecewiseRate => [pos, pos + 1, pos + 2]
  | .seamlessSplice => [pos, pos + 1, pos + 2, pos + 3, pos + 4]

def TransportValue.width : TransportValue → ℕ
  | .pcr | .opcr => 6
  | .spliceCountdown | .privateData => 1
  | .ltw => 2
  | .piecewiseRate => 3
  | .seamlessSplice => 5

theorem looks_lt {f : TransportValue} {pos i : ℕ} (hi : i ∈ f.looks pos) : i < pos + f.width := by
  cases f <;> simp only [TransportValue.looks, TransportValue.width, List.mem_cons, List.not_mem_nil, or_false] at hi ⊢ <;>
    omega

variable (pkt : TransportPacket) (extract : BitVec 32)

/-- One optional field; what stands in `glance` is read before it is clear whether the field is decoded. -/
def lookField (adapend : ℕ) (f : TransportValue) (announced wanted : Bool) (glance : List ℕ) (size : ℕ) (c : Cursor) :
    Look TransportValues Cursor :=
  if announced = true then
    if c.pos + size > adapend then Look.fail c.out
    else do
      lookAll glance
      lookAll (if wanted = true then f.looks c.pos else [])
      let c' := if wanted = true then c.take pkt f else c
      pure { c' with pos := c.pos + size }
  else pure c

/-- Private data: the length byte is read for the check, and once more to go on. -/
def lookPrivateDataField (adapend : ℕ) (announced wanted : Bool) (c : Cursor) : Look TransportValues Cursor :=
  if announced = true ∧ c.pos + 1 > adapend then Look.fail c.out
  else do
    lookAll (if announced = true then [c.pos] else [])
    lookField pkt adapend .privateData announced wanted [c.pos] (1 + (pkt.at c.pos).toNat) c

def lookExtensionFields (adapend : ℕ) (c : Cursor) : Look TransportValues Cursor := do
  let adapextflags ← look pkt.at c.pos
  let c := { c with pos := c.pos + 1 }
  let c ← lookField pkt adapend .ltw (adapextflags &&& TransportValue.ltw.flag ≠ 0)
    (Wants extract .ltw ∧ pkt.at c.pos &&& 0x80 ≠ 0) (if Wants extract .ltw then [c.pos] else []) 2 c
  let c ← lookField pkt adapend .piecewiseRate (adapextflags &&& TransportValue.piecewiseRate.flag ≠ 0)
    (Wants extract .piecewiseRate) [] 3 c
  lookField pkt adapend .seamlessSplice (adapextflags &&& TransportValue.seamlessSplice.flag ≠ 0)
    (Wants extract .piecewiseRate) [] 5 c

def lookExtension (adapend : ℕ) (adapflags : UInt8) (c : Cursor) : Look TransportValues Cursor :=
  if adapflags &&& extensionFlag = 0 then pure c
  else if c.pos ≥ adapend then Look.fail c.out
  else do
    let adapextlength ← look pkt.at c.pos
    let c := { c with pos := c.pos + 1 }
    if c.pos + adapextlength.toNat > adapend then Look.fail c.out
    else if extract &&& 0xff00 = 0 ∨ adapextlength.toNat = 0 then pure c
    else lookExtensionFields pkt extract adapend c

def lookFields (adapend : ℕ) (adapflags : UInt8) (c : Cursor) : Look TransportValues Cursor := do
  let c ← lookField pkt adapend .pcr (adapflags &&& TransportValue.pcr.flag ≠ 0) (Wants extract .pcr) [] 6 c
  let c ← lookField pkt adapend .opcr (adapflags &&& TransportValue.opcr.flag ≠ 0) (Wants extract .opcr) [] 6 c
  let c ← lookField pkt adapend .spliceCountdown (adapflags &&& TransportValue.spliceCountdown.flag ≠ 0)
    (Wants extract .spliceCountdown) [] 1 c
  let c ← lookPrivateDataField pkt adapend (adapflags &&& TransportValue.privateData.flag ≠ 0)
    (Wants extract .privateData) c
  lookExtension pkt extract adapend adapflags c

/-- The code behind the label `extract_payload`, which reads the header again. -/
def lookPayload (adaplength : ℕ) (adapflags : UInt8) (out : TransportValues) : Look TransportValues TransportValues := do
  let _ ← look pkt.at 3
  pure (extractPayload pkt adaplength adapflags out)

/-- `transport_packet_values_extract`, read by read. -/
def lookExtract (out : TransportValues) : Look TransportValues (BitVec 32 × TransportValues) := do
  let _ ← look pkt.at 3
  if pkt.hasAdaptation = false then do
    let v ← lookPayload pkt 0 0 out
    pure (0, v)
  else do
    let adaplength ← look pkt.at 4
    if adaplength.toNat = 0 then do
      let v ← lookPayload pkt 0 0 out
      pure (0, v)
    else if 5 + adaplength.toNat > transportPacketLength then Look.fail out
    else do
      let adapflags ← look pkt.at 5
      if extract &&& 0xffff = 0 then do
        let v ← lookPayload pkt adaplength.toNat adapflags out
        pure (0, v)
      else do
        let c ← lookFields pkt extract (5 + adaplength.toNat) adapflags { pos := 6, extracted := 0, out := out }
        let v ← lookPayload pkt adaplength.toNat adapflags c.out
        pure (c.extracted, v)

/-! ### What is read -/

/-- The bytes that may be read: the header, the length of the adaptation field if there is one, and as many bytes behind
it as it says. -/
structure Allowed (i : ℕ) : Prop where
  inside : i < transportPacketLength
  adaptation : 4 ≤ i → pkt.hasAdaptation = true
  announced : 5 ≤ i → i < 5 + (pkt.at 4).toNat

section Walk

variable {P : ℕ → Prop} {adapend : ℕ} (hP : ∀ i < adapend, P i)
include hP

/-- One optional field: whatever is read of it stands in front of the end that was checked. -/
theorem sees_lookField {f : TransportValue} {announced wanted : Bool} {glance : List ℕ} {size : ℕ} {c : Cursor}
    (hglance : ∀ i ∈ glance, i < c.pos + size) (hwidth : f.width ≤ size) :
    Sees P (lookField pkt adapend f announced wanted glance size c) (field pkt adapend f announced wanted size c) := by
  refine sees_ite (fun _ => sees_ite (fun _ => sees_fail _) fun hroom => ?_) fun _ => sees_pure c
  have hin (i : ℕ) (hi : i < c.pos + size) : P i := hP i (by omega)
  refine .after_lookAll (fun i hi => hin i (hglance i hi)) (.after_lookAll (fun i hi => ?_) (sees_pure _))
  split_ifs at hi with hwanted
  · have hlt := looks_lt hi
    exact hin i (by omega)
  · cases hi

theorem sees_lookPrivateDataField {announced wanted : Bool} {c : Cursor} :
    Sees P (lookPrivateDataField pkt adapend announced wanted c) (privateDataField pkt adapend announced wanted c) := by
  refine sees_ite (fun _ => sees_fail _) fun hroom => .after_lookAll (fun i hi => ?_) (sees_lookField pkt hP ?_ ?_)
  · split_ifs at hi with hannounced
    · rw [List.mem_singleton.mp hi]
      refine hP _ ?_
      by_contra hout
      exact hroom ⟨hannounced, by omega⟩
    · cases hi
  · intro i hi
    rw [List.mem_singleton.mp hi]
    omega
  · exact Nat.le_add_right 1 _

theorem sees_lookExtensionFields {c : Cursor} (hflags : c.pos < adapend) :
    Sees P (lookExtensionFields pkt extract adapend c) (extensionFields pkt extract adapend c) := by
  have hnone {n : ℕ} : ∀ i ∈ ([] : List ℕ), i < n := fun i hi => by cases hi
  refine .after_look (hP _ hflags) ((sees_lookField pkt hP (fun i hi => ?_) le_rfl).bind fun c₁ _ => ?_)
  · split_ifs at hi
    · rw [List.mem_singleton.mp hi]
      exact Nat.lt_add_of_pos_right (by decide)
    · cases hi
  · exact (sees_lookField pkt hP hnone le_rfl).bind fun c₂ _ => sees_lookField pkt hP hnone le_rfl

theorem sees_lookExtension {adapflags : UInt8} {c : Cursor} :
    Sees P (lookExtension pkt extract adapend adapflags c) (adaptationExtension pkt extract adapend adapflags c) := by
  refine sees_ite (fun _ => sees_pure c) fun _ => sees_ite (fun _ => sees_fail _) fun hlength => ?_
  refine .after_look (hP _ (Nat.not_le.mp hlength)) ?_
  refine sees_ite (fun _ => sees_fail _) fun hroom => sees_ite (fun _ => sees_pure _) fun hlong => ?_
  have hpos : (pkt.at c.pos).toNat ≠ 0 := fun hzero => hlong (.inr hzero)
  exact sees_lookExtensionFields pkt extract hP (by dsimp only at hroom ⊢; omega)

theorem sees_lookFields {adapflags : UInt8} {c : Cursor} :
    Sees P (lookFields pkt extract adapend adapflags c) (adaptationFields pkt extract adapend adapflags c) := by
  have hnone {n : ℕ} : ∀ i ∈ ([] : List ℕ), i < n := fun i hi => by cases hi
  refine (sees_lookField pkt hP hnone le_rfl).bind fun c₁ _ => ?_
  refine (sees_lookField pkt hP hnone le_rfl).bind fun c₂ _ => ?_
  refine (sees_lookField pkt hP hnone le_rfl).bind fun c₃ _ => ?_
  exact (sees_lookPrivateDataField pkt hP).bind fun c₄ _ => sees_lookExtension pkt extract hP

end Walk

theorem sees_lookPayload {P : ℕ → Prop} (hheader : P 3) (adaplength : ℕ) (adapflags : UInt8) (out : TransportValues) :
    Sees P (lookPayload pkt adaplength adapflags out) (.ok (extractPayload pkt adaplength adapflags out)) :=
  .after_look hheader (sees_pure _)

/-- **The walk, read by read**, comes to the same result, and reads no byte that it may not. -/
theorem lookExtract_sees (out : TransportValues) :
    Sees (Allowed pkt) (lookExtract pkt extract out) (transportPacketValuesExtract pkt out extract) := by
  have hheader : Allowed pkt 3 := ⟨by decide, fun h => absurd h (by decide), fun h => absurd h (by decide)⟩
  refine .after_look hheader (sees_ite (fun _ => ?_) fun hnone => ?_)
  · exact (sees_lookPayload pkt hheader 0 0 out).bind fun _ _ => sees_pure _
  · have hadaptation : pkt.hasAdaptation = true := Bool.not_eq_false _ ▸ hnone
    have hlength : Allowed pkt 4 := ⟨by decide, fun _ => hadaptation, fun h => absurd h (by decide)⟩
    refine .after_look hlength (sees_ite (fun _ => ?_) fun hpos => sees_ite (fun _ => sees_fail _) fun hroom => ?_)
    · exact (sees_lookPayload pkt hheader 0 0 out).bind fun _ _ => sees_pure _
    · have hP (i : ℕ) (hi : i < 5 + (pkt.at 4).toNat) : Allowed pkt i := ⟨by omega, fun _ => hadaptation, fun _ => hi⟩
      refine .after_look (hP 5 (by omega)) (sees_ite (fun _ => ?_) fun _ => ?_)
      · exact (sees_lookPayload pkt hheader _ _ out).bind fun _ _ => sees_pure _
      · refine (sees_lookFields pkt extract hP).bind fun c _ => ?_
        exact (sees_lookPayload pkt hheader _ _ c.out).bind fun _ _ => sees_pure _

/-! ### The payload -/

theorem extractPayload_fills {adaplength : ℕ} {adapflags : UInt8} {out : TransportValues} {off : ℕ}
    (hroom : 5 + adaplength ≤ transportPacketLength)
    (hpayload : (extractPayload pkt adaplength adapflags out).payload = some off) :
    off + (extractPayload pkt adaplength adapflags out).payloadLength = transportPacketLength := by
  unfold extractPayload at hpayload ⊢
  by_cases hhas : pkt.hasPayload = true
  · rw [if_pos hhas] at hpayload ⊢
    cases hpayload
    have hoff : (if pkt.hasAdaptation = true then 4 + 1 else 4) ≤ 5 := by split_ifs <;> decide
    exact Nat.add_sub_cancel' (by omega)
  · rw [if_neg hhas] at hpayload
    cases hpayload

/-- **What is returned of the payload** is the rest of the packet. -/
theorem payload_fills {out : TransportValues} {mask : BitVec 32} {v : TransportValues} {off : ℕ}
    (h : transportPacketValuesExtract pkt out extract = .ok (mask, v)) (hpayload : v.payload = some off) :
    off + v.payloadLength = transportPacketLength := by
  have hempty : 5 + 0 ≤ transportPacketLength := by decide
  unfold transportPacketValuesExtract at h
  dsimp only at h
  split_ifs at h with hnone hzero hroom hother
  · cases h
    exact extractPayload_fills pkt hempty hpayload
  · cases h
    exact extractPayload_fills pkt hempty hpayload
  · cases h
    exact extractPayload_fills pkt (by omega) hpayload
  · cases hwalk : adaptationFields pkt extract (5 + (pkt.at 4).toNat) (pkt.at 5) ⟨6, 0, out⟩ with
    | error v' =>
      rw [hwalk] at h
      cases h
    | ok c =>
      rw [hwalk] at h
      cases h
      exact extractPayload_fills pkt (by omega) hpayload

/-- **Every packet, every mask**: only bytes of the header and of the adaptation field that is announced are read, the
values are those of the packet, and the payload ends with the packet. -/
theorem extract_inside (out : TransportValues) :
    (lookExtract pkt extract out []).1 = transportPacketValuesExtract pkt out extract
      ∧ (∀ i ∈ (lookExtract pkt extract out []).2, Allowed pkt i)
      ∧ ∀ mask v off, transportPacketValuesExtract pkt out extract = .ok (mask, v) → v.payload = some off →
        off + v.payloadLength = transportPacketLength := by
  obtain ⟨hresult, hreads⟩ := lookExtract_sees pkt extract out []
  refine ⟨hresult, fun i hi => ?_, fun mask v off h => payload_fills pkt extract h⟩
  rcases hreads i hi with hnone | hallowed
  · cases hnone
  · exact hallowed

end BgtDvb.Ucsi
