import BgtDvb.Lib.Mealy

/-!
# The packets of a transport stream that comes in pieces

`_dvb_dmx_swfilter` of `dvb-core/dvb_demux.c` is handed a byte stream in pieces of any length.  It hands on the packets
of 188 bytes, or the first 188 bytes of those of 204, and keeps the beginning of a packet for the next call.

* `swfilter_step` — **PROVED**: a call on any piece hands on the packets that end in it, and keeps the invariant;
* `swfilter_chunks` — **PROVED**: wherever a stream of packets is cut, with bytes in front of it that start no packet,
  the filter gets each packet once and in order.
-/

namespace BgtDvb.Dmx

open Mealy

/-! ### The calls -/

/-- The two sizes: `dvb_dmx_swfilter`, and `dvb_dmx_swfilter_204` with sixteen check bytes. -/
inductive PktSize
  | plain
  | checked
  deriving DecidableEq

def PktSize.bytes : PktSize → ℕ
  | .plain => 188
  | .checked => 204

theorem PktSize.bytes_pos (ps : PktSize) : 0 < ps.bytes := by cases ps <;> decide

/-- What a packet starts with: 0x47, and with 204 bytes also the inverted byte 0xB8. -/
def isSync (ps : PktSize) (b : UInt8) : Bool := b == 0x47 || (ps == .checked && b == 0xB8)

/-- `find_next_packet`.  Behind bytes that were skipped it goes back by one packet if there is a sync byte, also into
bytes that were handed on before. -/
def findNextPacket (ps : PktSize) (buf : List UInt8) (start : ℕ) : ℕ :=
  let pos := start + (buf.drop start).findIdx (isSync ps)
  if pos ≠ start ∧ ps.bytes ≤ pos ∧ isSync ps (buf.getD (pos - ps.bytes) 0) then pos - ps.bytes else pos

def plainSync (ps : PktSize) : List UInt8 → List UInt8
  | [] => []
  | b :: bs => (if ps = .checked ∧ b = 0xB8 then 0x47 else b) :: bs

/-- What `dvb_dmx_swfilter_packet` gets of a packet. -/
def handedOn (ps : PktSize) (packet : List UInt8) : List UInt8 := (plainSync ps packet).take 188

theorem lt_findNextPacket_add (ps : PktSize) (buf : List UInt8) (start : ℕ) :
    start < findNextPacket ps buf start + ps.bytes := by
  have := ps.bytes_pos
  unfold findNextPacket
  dsimp only
  split_ifs <;> omega

/-- `while (1)`: the packets from `p` on, and where the loop stops. -/
def filterPackets (ps : PktSize) (buf : List UInt8) (p : ℕ) : ℕ × List (List UInt8) :=
  let q := findNextPacket ps buf p
  if q < buf.length ∧ ps.bytes ≤ buf.length - q then
    let r := filterPackets ps buf (q + ps.bytes)
    (r.1, handedOn ps (buf.drop q) :: r.2)
  else (q, [])
termination_by buf.length - p
decreasing_by
  have := lt_findNextPacket_add ps buf p
  omega

/-- The loop, and what is kept of the bytes behind it. -/
def filterRest (ps : PktSize) (buf : List UInt8) (p : ℕ) : List UInt8 × List (List UInt8) :=
  let r := filterPackets ps buf p
  (plainSync ps (buf.drop r.1), r.2)

/-- `_dvb_dmx_swfilter` on one piece; `tsbuf` has the `tsbufp` bytes that were kept. -/
def swfilter (ps : PktSize) (tsbuf buf : List UInt8) : List UInt8 × List (List UInt8) :=
  if tsbuf = [] then filterRest ps buf 0
  else
    let j := ps.bytes - tsbuf.length
    if buf.length < j then (tsbuf ++ buf, [])
    else
      let packet := tsbuf ++ buf.take j
      let r := filterRest ps buf j
      (r.1, (if packet.headD 0 = 0x47 then [packet.take 188] else []) ++ r.2)

/-! ### What the stream is made of -/

structure IsPacket (ps : PktSize) (packet : List UInt8) : Prop where
  length_eq : packet.length = ps.bytes
  sync : ∀ b ∈ packet.head?, isSync ps b = true

/-- The beginning of a packet. -/
structure Begins (ps : PktSize) (part : List UInt8) : Prop where
  length_lt : part.length < ps.bytes
  sync : ∀ b ∈ part.head?, isSync ps b = true

/-- `kept` is the beginning of the first packet, or the stream has not got to the packets. -/
structure Awaits (ps : PktSize) (kept rest : List UInt8) (packets : List (List UInt8)) (part : List UInt8) : Prop where
  stands : ∃ noise begun : List UInt8, (∀ b ∈ noise, isSync ps b = false) ∧ Begins ps begun ∧ kept = plainSync ps begun ∧
    (begun ≠ [] → noise = []) ∧ begun ++ rest = noise ++ (packets.flatten ++ part)

variable {ps : PktSize} {buf rest noise part packet : List UInt8} {packets : List (List UInt8)} {p : ℕ}

theorem begins_nil (ps : PktSize) : Begins ps [] := ⟨ps.bytes_pos, fun _ h => absurd h (by simp)⟩

theorem IsPacket.ne_nil (h : IsPacket ps packet) : packet ≠ [] := by
  rintro rfl
  exact absurd h.length_eq ps.bytes_pos.ne

theorem plainSync_append {a : List UInt8} (ha : a ≠ []) (b : List UInt8) :
    plainSync ps (a ++ b) = plainSync ps a ++ b := by
  cases a with
  | nil => exact absurd rfl ha
  | cons x xs => rfl

theorem plainSync_length (ps : PktSize) (a : List UInt8) : (plainSync ps a).length = a.length := by
  cases a <;> rfl

theorem plainSync_eq_nil {a : List UInt8} : plainSync ps a = [] ↔ a = [] := by
  cases a <;> simp [plainSync]

theorem plainSync_head {a : List UInt8} (hne : a ≠ []) (h : ∀ b ∈ a.head?, isSync ps b = true) :
    (plainSync ps a).headD 0 = 0x47 := by
  cases a with
  | nil => exact absurd rfl hne
  | cons x xs =>
    have hx : isSync ps x = true := h x rfl
    simp only [isSync, Bool.or_eq_true, beq_iff_eq, Bool.and_eq_true] at hx
    show (if ps = .checked ∧ x = 0xB8 then (0x47 : UInt8) else x) = 0x47
    split_ifs with hinv
    · rfl
    · exact hx.resolve_right hinv

/-! ### The search -/

/-- Nothing is skipped at a sync byte, or at the end of the piece. -/
theorem findNextPacket_here (h : ∀ b ∈ (buf.drop p).head?, isSync ps b = true) : findNextPacket ps buf p = p := by
  have hidx : (buf.drop p).findIdx (isSync ps) = 0 := by
    cases hd : buf.drop p with
    | nil => rfl
    | cons b bs =>
      rw [hd] at h
      rw [List.findIdx_cons, h b rfl]
      rfl
  unfold findNextPacket
  rw [hidx, Nat.add_zero]
  exact if_neg fun hback => hback.1 rfl

/-- Bytes in front of the first sync byte are skipped for good: a packet further back would start among them. -/
theorem findNextPacket_noise (hnoise : ∀ b ∈ noise, isSync ps b = false) (h : ∀ b ∈ buf.head?, isSync ps b = true) :
    findNextPacket ps (noise ++ buf) 0 = noise.length := by
  have hidx : (noise ++ buf).findIdx (isSync ps) = noise.length := by
    induction noise with
    | nil =>
      cases buf with
      | nil => rfl
      | cons b bs =>
        rw [List.nil_append, List.findIdx_cons, h b rfl]
        rfl
    | cons b bs ih =>
      rw [List.cons_append, List.findIdx_cons, hnoise b List.mem_cons_self, cond_false,
        ih fun x hx => hnoise x (List.mem_cons_of_mem b hx), List.length_cons]
  unfold findNextPacket
  rw [List.drop_zero, hidx, Nat.zero_add]
  refine if_neg fun hback => ?_
  have hlt : noise.length - ps.bytes < noise.length := by
    have := ps.bytes_pos
    omega
  rw [List.getD_append _ _ _ _ hlt, List.getD_eq_getElem _ _ hlt, hnoise _ (List.getElem_mem hlt)] at hback
  exact absurd hback.2.2 Bool.false_ne_true

theorem filterPackets_congr {q : ℕ} (h : findNextPacket ps buf p = findNextPacket ps buf q) :
    filterPackets ps buf p = filterPackets ps buf q := by
  rw [filterPackets.eq_def ps buf p, filterPackets.eq_def ps buf q, h]

/-! ### One call -/

/-- The first byte of the rest of a stream is the first byte of what is still to come. -/
theorem stream_sync (hpackets : ∀ a ∈ packets, IsPacket ps a) (hpart : Begins ps part)
    (hstream : buf ++ rest = packets.flatten ++ part) : ∀ b ∈ buf.head?, isSync ps b = true := by
  have hall : ∀ b ∈ (packets.flatten ++ part).head?, isSync ps b = true := by
    cases packets with
    | nil => exact hpart.sync
    | cons packet packets =>
      have hpacket := hpackets packet List.mem_cons_self
      rw [List.flatten_cons, List.append_assoc, List.head?_append_of_ne_nil _ hpacket.ne_nil]
      exact hpacket.sync
  intro b hb
  refine hall b ?_
  rw [← hstream, List.head?_append, Option.mem_def.mp hb]
  rfl

/-- What a piece begins with is followed, in it and behind it, by the rest. -/
theorem split_piece {front behind : List UInt8} (hroom : front.length ≤ buf.length) (h : buf ++ rest = front ++ behind) :
    ∃ next, buf = front ++ next ∧ next ++ rest = behind := by
  obtain ⟨next, rfl⟩ := List.prefix_of_prefix_length_le ⟨behind, h.symm⟩ (List.prefix_append buf rest) hroom
  rw [List.append_assoc] at h
  exact ⟨next, rfl, List.append_cancel_left h⟩

theorem filterRest_short (hsync : ∀ b ∈ (buf.drop p).head?, isSync ps b = true) (hshort : buf.length - p < ps.bytes)
    (hstream : buf.drop p ++ rest = packets.flatten ++ part) :
    ∃ done left, packets = done ++ left ∧ (filterRest ps buf p).2 = done.map (handedOn ps) ∧
      Awaits ps (filterRest ps buf p).1 rest left part := by
  have hstop : filterPackets ps buf p = (p, []) := by
    rw [filterPackets, findNextPacket_here hsync]
    exact if_neg fun h => absurd h.2 (not_le.mpr hshort)
  rw [filterRest, hstop]
  exact ⟨[], packets, rfl, rfl, [], buf.drop p, by simp, ⟨by rw [List.length_drop]; exact hshort, hsync⟩, rfl,
    fun _ => rfl, hstream⟩

/-- From a packet boundary on, the loop hands on the packets that end in the piece. -/
theorem filterRest_boundary (hpackets : ∀ a ∈ packets, IsPacket ps a) (hpart : Begins ps part) :
    ∀ p ≤ buf.length, buf.drop p ++ rest = packets.flatten ++ part →
      ∃ done left, packets = done ++ left ∧ (filterRest ps buf p).2 = done.map (handedOn ps) ∧
        Awaits ps (filterRest ps buf p).1 rest left part := by
  induction packets with
  | nil =>
    intro p hp hstream
    refine filterRest_short (stream_sync hpackets hpart hstream) ?_ hstream
    have hlen := congrArg List.length hstream
    rw [List.length_append, List.length_drop, List.flatten_nil, List.nil_append] at hlen
    have := hpart.length_lt
    omega
  | cons packet packets ih =>
    intro p hp hstream
    have hsync := stream_sync hpackets hpart hstream
    by_cases hroom : ps.bytes ≤ buf.length - p
    · -- the packet ends in this piece
      have hpacket := hpackets packet List.mem_cons_self
      rw [List.flatten_cons, List.append_assoc] at hstream
      obtain ⟨next, hsplit, hnext⟩ :=
        split_piece (by rw [hpacket.length_eq, List.length_drop]; exact hroom) hstream
      have hdrop : buf.drop (p + ps.bytes) = next := by
        rw [← List.drop_drop, hsplit, ← hpacket.length_eq, List.drop_left]
      rw [← hdrop] at hnext
      have hpos := ps.bytes_pos
      obtain ⟨done, left, hpk, hout, hawait⟩ :=
        ih (fun a ha => hpackets a (List.mem_cons_of_mem packet ha)) (p + ps.bytes) (by omega) hnext
      have hgo : filterPackets ps buf p =
          ((filterPackets ps buf (p + ps.bytes)).1, handedOn ps (buf.drop p) :: (filterPackets ps buf (p + ps.bytes)).2) := by
        conv_lhs => rw [filterPackets, findNextPacket_here hsync]
        exact if_pos ⟨by omega, hroom⟩
      have hsame : handedOn ps (buf.drop p) = handedOn ps packet := by
        rw [handedOn, handedOn, hsplit, plainSync_append hpacket.ne_nil, List.take_append_of_le_length]
        rw [plainSync_length, hpacket.length_eq]
        cases ps <;> decide
      refine ⟨packet :: done, left, by rw [hpk, List.cons_append], ?_, ?_⟩
      · rw [filterRest, hgo, List.map_cons, ← hout, hsame]
        rfl
      · rw [filterRest, hgo]
        exact hawait
    · -- it goes on in the next one
      exact filterRest_short hsync (not_le.mp hroom) hstream

theorem swfilter_step {kept : List UInt8} (hpackets : ∀ a ∈ packets, IsPacket ps a) (hpart : Begins ps part)
    (h : Awaits ps kept (buf ++ rest) packets part) :
    ∃ done left, packets = done ++ left ∧ (swfilter ps kept buf).2 = done.map (handedOn ps) ∧
      Awaits ps (swfilter ps kept buf).1 rest left part := by
  obtain ⟨noise, begun, hnoise, hbegun, rfl, hfirst, hstream⟩ := h.stands
  rcases eq_or_ne begun [] with rfl | hne
  · -- nothing is kept
    have hkept : plainSync ps [] = [] := rfl
    rw [hkept, swfilter, if_pos rfl]
    rw [List.nil_append] at hstream
    obtain ⟨more, rfl, htail⟩ | ⟨from', rfl, htail⟩ := List.append_eq_append_iff.mp hstream
    · -- the piece ends among the bytes in front of the packets
      have hfind : findNextPacket ps buf 0 = buf.length := by
        have hnil : ∀ b ∈ ([] : List UInt8).head?, isSync ps b = true := by simp
        have := findNextPacket_noise (fun b hb => hnoise b (List.mem_append_left more hb)) hnil
        rwa [List.append_nil] at this
      have hstop : filterPackets ps buf 0 = (buf.length, []) := by
        rw [filterPackets, hfind]
        exact if_neg fun h => absurd h.1 (lt_irrefl _)
      refine ⟨[], packets, rfl, by rw [filterRest, hstop]; rfl,
        ⟨more, [], fun b hb => hnoise b (List.mem_append_right buf hb), begins_nil ps, ?_, fun h => absurd rfl h, htail⟩⟩
      rw [filterRest, hstop, List.drop_length]
    · -- the packets begin in it
      have hsync := stream_sync hpackets hpart htail.symm
      have hdrop : (noise ++ from').drop noise.length = from' := List.drop_left
      have hsame : filterRest ps (noise ++ from') 0 = filterRest ps (noise ++ from') noise.length := by
        rw [filterRest, filterRest, filterPackets_congr]
        rw [findNextPacket_noise hnoise hsync, findNextPacket_here (by rw [hdrop]; exact hsync)]
      rw [hsame]
      exact filterRest_boundary hpackets hpart _ (by rw [List.length_append]; omega) (by rw [hdrop]; exact htail.symm)
  · -- a packet has begun
    obtain rfl := hfirst hne
    rw [List.nil_append] at hstream
    rw [swfilter, if_neg (mt plainSync_eq_nil.mp hne), plainSync_length]
    have hlen := congrArg List.length hstream
    simp only [List.length_append] at hlen
    by_cases hshort : buf.length < ps.bytes - begun.length
    · dsimp only
      rw [if_pos hshort]
      refine ⟨[], packets, rfl, rfl, ⟨[], begun ++ buf, by simp, ⟨?_, ?_⟩, (plainSync_append hne buf).symm,
        fun _ => rfl, ?_⟩⟩
      · rw [List.length_append]
        omega
      · rw [List.head?_append_of_ne_nil _ hne]
        exact hbegun.sync
      · rw [List.append_assoc, hstream]
        rfl
    · cases packets with
      | nil =>
        have := hpart.length_lt
        rw [List.flatten_nil, List.length_nil] at hlen
        omega
      | cons packet packets =>
        have hpacket := hpackets packet List.mem_cons_self
        have hbl := hbegun.length_lt
        rw [List.flatten_cons, List.append_assoc] at hstream
        obtain ⟨more, rfl, hmore⟩ := split_piece (by rw [hpacket.length_eq]; exact hbl.le) hstream.symm
        have hj : ps.bytes - begun.length = more.length := by
          rw [← hpacket.length_eq, List.length_append, Nat.add_sub_cancel_left]
        rw [hj] at hshort ⊢
        obtain ⟨next, rfl, hnext⟩ := split_piece (not_lt.mp hshort) hmore.symm
        have hdrop : (more ++ next).drop more.length = next := List.drop_left
        obtain ⟨done, left, hpk, hout, hawait⟩ := filterRest_boundary
          (fun a ha => hpackets a (List.mem_cons_of_mem _ ha)) hpart more.length (not_lt.mp hshort)
          (by rw [hdrop]; exact hnext)
        dsimp only
        rw [if_neg hshort, List.take_left, ← plainSync_append hne, if_pos (plainSync_head hpacket.ne_nil hpacket.sync)]
        refine ⟨(begun ++ more) :: done, left, by rw [hpk, List.cons_append], ?_, hawait⟩
        rw [hout]
        rfl

/-! ### All calls -/

theorem swfilter_run (hpart : Begins ps part) (chunks : List (List UInt8)) :
    ∀ (packets : List (List UInt8)) (kept : List UInt8), (∀ a ∈ packets, IsPacket ps a) →
      Awaits ps kept chunks.flatten packets part →
      (outputs (swfilter ps) kept chunks).flatten = packets.map (handedOn ps) ∧
        finish (swfilter ps) kept chunks = plainSync ps part := by
  induction chunks with
  | nil =>
    intro packets kept hpackets h
    obtain ⟨noise, begun, _, hbegun, rfl, hfirst, hstream⟩ := h.stands
    rw [List.flatten_nil, List.append_nil] at hstream
    cases packets with
    | nil =>
      refine ⟨rfl, ?_⟩
      rcases eq_or_ne begun [] with rfl | hne
      · obtain ⟨-, hnil⟩ := List.append_eq_nil_iff.mp hstream.symm
        rw [List.flatten_nil, List.nil_append] at hnil
        rw [hnil]
        rfl
      · rw [hstream, hfirst hne]
        rfl
    | cons packet packets =>
      have hlen := congrArg List.length hstream
      simp only [List.length_append, List.flatten_cons, (hpackets packet List.mem_cons_self).length_eq] at hlen
      have := hbegun.length_lt
      omega
  | cons chunk chunks ih =>
    intro packets kept hpackets h
    rw [List.flatten_cons] at h
    obtain ⟨done, left, rfl, hout, hawait⟩ := swfilter_step hpackets hpart h
    obtain ⟨hrest, hend⟩ := ih left _ (fun a ha => hpackets a (List.mem_append_right done ha)) hawait
    refine ⟨?_, hend⟩
    rw [outputs, List.flatten_cons, hout, hrest, List.map_append]

/-- **Wherever the stream is cut, the filter gets its packets.** -/
theorem swfilter_chunks (noise : List UInt8) (hnoise : ∀ b ∈ noise, isSync ps b = false)
    (hpackets : ∀ a ∈ packets, IsPacket ps a) (hpart : Begins ps part) (chunks : List (List UInt8))
    (hstream : chunks.flatten = noise ++ (packets.flatten ++ part)) :
    (outputs (swfilter ps) [] chunks).flatten = packets.map (handedOn ps) ∧
      finish (swfilter ps) [] chunks = plainSync ps part :=
  swfilter_run hpart chunks packets [] hpackets
    ⟨noise, [], hnoise, begins_nil ps, rfl, fun h => absurd rfl h, by rw [List.nil_append, hstream]⟩

set_option maxRecDepth 4000 in
theorem swfilter_chunks_cut :
    (outputs (swfilter .plain) [] [[0, 0x47], List.replicate 187 0xff ++ [0x47]]).flatten =
        [0x47 :: List.replicate 187 0xff] ∧
      finish (swfilter .plain) [] [[0, 0x47], List.replicate 187 0xff ++ [0x47]] = [0x47] :=
  @swfilter_chunks .plain [0x47] [0x47 :: List.replicate 187 0xff] [0] (by decide)
    (by
      intro a ha
      rw [List.mem_singleton.mp ha]
      exact ⟨rfl, by decide⟩)
    ⟨by decide, by decide⟩ _ rfl

end BgtDvb.Dmx
