import BgtDvb.SectionReassembly
import BgtDvb.Lib.Mealy

/-!
# The sections of a feed

The section filter of `dvb-core/dvb_demux.c`: the payloads of a PID are put one behind another into a buffer, from which
the sections are handed to the filters that they pass.

* `passes_iff` — **PROVED**: a filter asks for its bits, and for one difference among those that it asks to differ;
* `delivers_packing` — **PROVED**: whatever way sections are packed, the packets bring each filter the sections that
  pass it, once and in order.
-/

namespace BgtDvb.Dmx

open Ucsi

/-! ### Filters -/

def maskMax : ℕ := 18

/-- `struct dmx_section_filter`. -/
structure SectionFilter where
  value : Fin maskMax → UInt8
  mask : Fin maskMax → UInt8
  mode : Fin maskMax → UInt8

/-- `struct dvb_demux_filter`. -/
structure DemuxFilter where
  value : Fin maskMax → UInt8
  maskandmode : Fin maskMax → UInt8
  maskandnotmode : Fin maskMax → UInt8
  doneq : Bool

/-- `prepare_secfilters` for one filter. -/
def prepareSecfilter (sf : SectionFilter) : DemuxFilter where
  value := sf.value
  maskandmode i := sf.mask i &&& sf.mode i
  maskandnotmode i := sf.mask i &&& ~~~sf.mode i
  doneq := (List.finRange maskMax).foldl (fun doneq i => doneq ||| (sf.mask i &&& ~~~sf.mode i)) 0 != 0

/-- The loop of `dvb_dmx_swfilter_sectionfilter`: the bits of `neq`, unless it returned. -/
def filterLoop (f : DemuxFilter) (secbuf : List UInt8) : List (Fin maskMax) → UInt8 → Option UInt8
  | [], neq => some neq
  | i :: is, neq =>
    let xor := f.value i ^^^ secbuf.getD i 0
    if f.maskandmode i &&& xor ≠ 0 then none else filterLoop f secbuf is (neq ||| (f.maskandnotmode i &&& xor))

/-- Whether `dvb_dmx_swfilter_sectionfilter` calls back. -/
def passes (f : DemuxFilter) (secbuf : List UInt8) : Bool :=
  match filterLoop f secbuf (List.finRange maskMax) 0 with
  | none => false
  | some neq => !(f.doneq && neq == 0)

/-- Bit `k` of the bytes at `i`. -/
def bitAt (bytes : Fin maskMax → UInt8) (i : Fin maskMax) (k : ℕ) : Bool := (bytes i).toBitVec.getLsbD k

theorem eq_zero_iff (x : UInt8) : x = 0 ↔ ∀ k, x.toBitVec.getLsbD k = false := by
  constructor
  · rintro rfl k
    exact BitVec.getLsbD_zero
  · intro h
    apply UInt8.toBitVec_inj.mp
    apply BitVec.eq_of_getLsbD_eq
    intro k _
    rw [h k]
    exact BitVec.getLsbD_zero.symm

theorem foldl_or_eq_zero {ι : Type} (g : ι → UInt8) (is : List ι) (x : UInt8) :
    is.foldl (fun acc i => acc ||| g i) x = 0 ↔ x = 0 ∧ ∀ i ∈ is, g i = 0 := by
  induction is generalizing x with
  | nil => simp
  | cons i is ih =>
    rw [List.foldl_cons, ih, UInt8.or_eq_zero_iff, List.forall_mem_cons, and_assoc]

theorem filterLoop_eq (f : DemuxFilter) (secbuf : List UInt8) (is : List (Fin maskMax)) (neq : UInt8) :
    filterLoop f secbuf is neq =
      if ∀ i ∈ is, f.maskandmode i &&& (f.value i ^^^ secbuf.getD i 0) = 0 then
        some (is.foldl (fun neq i => neq ||| (f.maskandnotmode i &&& (f.value i ^^^ secbuf.getD i 0))) neq)
      else none := by
  induction is generalizing neq with
  | nil => simp [filterLoop]
  | cons i is ih =>
    rw [filterLoop]
    by_cases hi : f.maskandmode i &&& (f.value i ^^^ secbuf.getD i 0) = 0
    · simp only [hi, ne_eq, not_true_eq_false, if_false, List.forall_mem_cons, true_and, List.foldl_cons]
      exact ih _
    · simp only [hi, ne_eq, not_false_eq_true, if_true, List.forall_mem_cons, false_and, if_false]

theorem masked_eq_zero_iff (m d v x : UInt8) :
    m &&& d &&& (v ^^^ x) = 0 ↔ ∀ k, m.toBitVec.getLsbD k = true → d.toBitVec.getLsbD k = true →
      v.toBitVec.getLsbD k = x.toBitVec.getLsbD k := by
  rw [eq_zero_iff]
  refine forall_congr' fun k => ?_
  rw [UInt8.toBitVec_and, UInt8.toBitVec_and, UInt8.toBitVec_xor, BitVec.getLsbD_and, BitVec.getLsbD_and, BitVec.getLsbD_xor]
  generalize m.toBitVec.getLsbD k = m, d.toBitVec.getLsbD k = d, v.toBitVec.getLsbD k = v, x.toBitVec.getLsbD k = x
  revert m d v x
  decide

theorem getLsbD_not_of_mask {m d : UInt8} {k : ℕ} (h : m.toBitVec.getLsbD k = true) :
    (~~~d).toBitVec.getLsbD k = !d.toBitVec.getLsbD k := by
  have hk : k < 8 := BitVec.lt_of_getLsbD h
  rw [UInt8.toBitVec_not, BitVec.getLsbD_not, decide_eq_true hk, Bool.true_and]

theorem doneq_iff (sf : SectionFilter) : (prepareSecfilter sf).doneq = true ↔
    ∃ i k, bitAt sf.mask i k = true ∧ bitAt sf.mode i k = false := by
  have hzero : (prepareSecfilter sf).doneq = false ↔ ∀ i, sf.mask i &&& ~~~sf.mode i = 0 := by
    rw [prepareSecfilter, bne_eq_false_iff_eq, foldl_or_eq_zero]
    simp
  rw [← Bool.not_eq_false, hzero, not_forall]
  refine exists_congr fun i => ?_
  rw [eq_zero_iff, not_forall]
  refine exists_congr fun k => ?_
  rw [UInt8.toBitVec_and, BitVec.getLsbD_and, Bool.not_eq_false, Bool.and_eq_true]
  refine and_congr_right fun hm => ?_
  rw [getLsbD_not_of_mask hm, Bool.not_eq_true', bitAt]

/-- **What a filter asks for.** -/
theorem passes_iff (sf : SectionFilter) (secbuf : List UInt8) :
    passes (prepareSecfilter sf) secbuf = true ↔
      (∀ i k, bitAt sf.mask i k = true → bitAt sf.mode i k = true →
        bitAt sf.value i k = bitAt (fun i => secbuf.getD i 0) i k) ∧
      ((∃ i k, bitAt sf.mask i k = true ∧ bitAt sf.mode i k = false) →
        ∃ i k, bitAt sf.mask i k = true ∧ bitAt sf.mode i k = false ∧
          bitAt sf.value i k ≠ bitAt (fun i => secbuf.getD i 0) i k) := by
  have hall : (∀ i ∈ List.finRange maskMax,
      (prepareSecfilter sf).maskandmode i &&& ((prepareSecfilter sf).value i ^^^ secbuf.getD i 0) = 0) ↔
      ∀ i k, bitAt sf.mask i k = true → bitAt sf.mode i k = true →
        bitAt sf.value i k = bitAt (fun i => secbuf.getD i 0) i k := by
    simp only [List.mem_finRange, true_imp_iff]
    exact forall_congr' fun i => masked_eq_zero_iff _ _ _ _
  have hneq : ((List.finRange maskMax).foldl (fun neq i => neq |||
      ((prepareSecfilter sf).maskandnotmode i &&& ((prepareSecfilter sf).value i ^^^ secbuf.getD i 0))) 0 ≠ 0) ↔
      ∃ i k, bitAt sf.mask i k = true ∧ bitAt sf.mode i k = false ∧
        bitAt sf.value i k ≠ bitAt (fun i => secbuf.getD i 0) i k := by
    rw [ne_eq, foldl_or_eq_zero]
    simp only [List.mem_finRange, true_imp_iff, true_and, not_forall]
    refine exists_congr fun i => ?_
    rw [show (prepareSecfilter sf).maskandnotmode i = sf.mask i &&& ~~~sf.mode i from rfl, masked_eq_zero_iff]
    push Not
    refine exists_congr fun k => and_congr_right fun hm => ?_
    rw [getLsbD_not_of_mask hm, Bool.not_eq_true']
    rfl
  rw [passes, filterLoop_eq]
  by_cases hand : ∀ i ∈ List.finRange maskMax,
      (prepareSecfilter sf).maskandmode i &&& ((prepareSecfilter sf).value i ^^^ secbuf.getD i 0) = 0
  · rw [if_pos hand]
    rw [← hneq, ← doneq_iff, and_iff_right (hall.mp hand)]
    simp only [Bool.not_eq_true', Bool.and_eq_false_imp, beq_eq_false_iff_ne]
  · rw [if_neg hand]
    exact iff_of_false Bool.false_ne_true fun h => hand (hall.mpr h.1)

/-! ### The feed -/

def maxSectionSize : ℕ := 4096

def maxSecfeedSize : ℕ := maxSectionSize + 188

/-- `section_length`. -/
def sectionLength (buf : List UInt8) : ℕ := 3 + ((buf.getD 1 0 &&& 0x0f).toNat <<< 8) + (buf.getD 2 0).toNat

/-- `payload`: the bytes behind the header and the adaptation field of a packet. -/
def payloadCount (tsp : List UInt8) : ℕ :=
  if tsp.getD 3 0 &&& 0x10 = 0 then 0
  else if tsp.getD 3 0 &&& 0x20 ≠ 0 then if 183 < tsp.getD 4 0 then 0 else 184 - 1 - (tsp.getD 4 0).toNat
  else 184

/-- What a section feed was set to, and what `check_crc32` of its demux comes to on a section, from the `crc_val` that
`dvb_dmx_swfilter_section_copy_dump` puts in front of it. -/
structure SectionFeed where
  pid : ℕ
  isFiltering : Bool
  checkCrc : Bool
  checkCrc32 : List UInt8 → UInt32
  filters : List DemuxFilter

/-- What changes with the packets. -/
structure SecState where
  cc : ℕ
  pusiSeen : Bool
  secbufBase : List UInt8
  tsfeedp : ℕ
  secbufp : ℕ

/-- A callback: the number of the filter, and the section. -/
abbrev Delivery := ℕ × List UInt8

/-- `dvb_dmx_swfilter_section_feed`; the callbacks of the two users of sections return 0. -/
def sectionfeed (feed : SectionFeed) (secbuf : List UInt8) (seclen : ℕ) : List Delivery :=
  if feed.isFiltering = false then []
  else if feed.checkCrc ∧ secbuf.getD 1 0 &&& 0x80 ≠ 0 ∧ feed.checkCrc32 (secbuf.take seclen) ≠ 0 then []
  else (feed.filters.zipIdx.filter fun f => passes f.1 secbuf).map fun f => (f.2, secbuf.take seclen)

/-- The loop of `dvb_dmx_swfilter_section_copy_dump`: `secbufp` at its end, and what was handed on. -/
def dump (feed : SectionFeed) (pusiSeen : Bool) (base : List UInt8) (limit secbufp : ℕ) : ℕ × List Delivery :=
  let secbuf := base.drop secbufp
  let seclen := sectionLength secbuf
  if secbufp + 2 < limit ∧ ¬(maxSectionSize < seclen ∨ limit < seclen + secbufp) then
    let r := dump feed pusiSeen base limit (secbufp + seclen)
    (r.1, (if pusiSeen then sectionfeed feed secbuf seclen else []) ++ r.2)
  else (secbufp, [])
termination_by limit - secbufp
decreasing_by
  have : 0 < sectionLength (base.drop secbufp) := by
    unfold sectionLength
    omega
  omega

/-- `dvb_dmx_swfilter_section_copy_dump`. -/
def copyDump (feed : SectionFeed) (sec : SecState) (buf : List UInt8) (len : ℕ) : SecState × List Delivery :=
  if maxSecfeedSize ≤ sec.tsfeedp then (sec, [])
  else
    let len := if maxSecfeedSize < sec.tsfeedp + len then maxSecfeedSize - sec.tsfeedp else len
    if len = 0 then (sec, [])
    else
      let base := sec.secbufBase.take sec.tsfeedp ++ buf.take len ++ sec.secbufBase.drop (sec.tsfeedp + len)
      let limit := sec.tsfeedp + len
      let r := dump feed sec.pusiSeen base limit sec.secbufp
      ({ sec with secbufBase := base, tsfeedp := limit, secbufp := r.1 }, r.2)

/-- `dvb_dmx_swfilter_section_new`. -/
def sectionNew (sec : SecState) : SecState := { sec with tsfeedp := 0, secbufp := 0 }

/-- `dvb_dmx_swfilter_section_packet` up to the payload: behind a gap everything starts anew. -/
def continuity (sec : SecState) (buf : List UInt8) : SecState :=
  let cc := (buf.getD 3 0 &&& 0x0f).toNat
  let ccok := (sec.cc + 1) % 16 = cc
  let dcI := buf.getD 3 0 &&& 0x20 ≠ 0 ∧ 0 < buf.getD 4 0 ∧ buf.getD 5 0 &&& 0x80 ≠ 0
  if ¬ccok ∨ dcI then sectionNew { sec with cc := cc, pusiSeen := false } else { sec with cc := cc }

/-- `dvb_dmx_swfilter_section_packet`, and what the caller does when it returns -1. -/
def sectionPacket (feed : SectionFeed) (sec : SecState) (buf : List UInt8) : SecState × List Delivery :=
  let count := payloadCount buf
  if count = 0 then ({ sec with secbufp := 0 }, [])
  else
    let p := 188 - count
    let sec := continuity sec buf
    if buf.getD 1 0 &&& 0x40 ≠ 0 then
      let beforeLen := (buf.getD p 0).toNat
      if 1 < count ∧ beforeLen < count then
        let before := copyDump feed sec (buf.drop (p + 1)) beforeLen
        let after := copyDump feed (sectionNew { before.1 with pusiSeen := true }) (buf.drop (p + 1 + beforeLen))
          (count - 1 - beforeLen)
        (after.1, before.2 ++ after.2)
      else (sec, [])
    else copyDump feed sec (buf.drop p) count

/-! ### Sections on their way -/

/-- The packet has the payload, the counter is right, and no discontinuity is announced. -/
structure Carries (cc : ℕ) (pkt : Packet) (buf : List UInt8) : Prop where
  count_eq : payloadCount buf = pkt.payload.length
  payload_ne_nil : pkt.payload ≠ []
  payload_eq : buf.drop (188 - payloadCount buf) = pkt.payload
  start_iff : buf.getD 1 0 &&& 0x40 ≠ 0 ↔ pkt.pduStart = true
  cc_eq : (buf.getD 3 0 &&& 0x0f).toNat = cc % 16
  continuous : ¬(buf.getD 3 0 &&& 0x20 ≠ 0 ∧ 0 < buf.getD 4 0 ∧ buf.getD 5 0 &&& 0x80 ≠ 0)

def CarriedFrom : ℕ → List Packet → List (List UInt8) → Prop
  | _, [], [] => True
  | cc, pkt :: pkts, buf :: bufs => Carries cc pkt buf ∧ CarriedFrom (cc + 1) pkts bufs
  | _, _, _ => False

def Within (feed : SectionFeed) (bytes : List UInt8) : Prop :=
  ∀ f ∈ feed.filters, ∀ i : Fin maskMax, bytes.length ≤ i → f.maskandmode i = 0 ∧ f.maskandnotmode i = 0

def accepted (feed : SectionFeed) (bytes : List UInt8) : List Delivery := sectionfeed feed bytes bytes.length

def comingUp (pend : Pending maxSectionSize) (secs : List (PsiSection maxSectionSize)) : List (List UInt8) :=
  (match pend with
    | none => []
    | some (s, _) => [s.bytes]) ++ secs.map (·.bytes)

/-- What there is of the section under way, or padding. -/
def Begun : Pending maxSectionSize → List UInt8 → Prop
  | none, cur => ∃ n, cur = List.replicate n sectionPad
  | some (s, k), cur => cur = s.bytes.take k ∧ 0 < k ∧ k < s.bytes.length

/-- `cur` stands behind the sections that were handed on. -/
structure Held (sec : SecState) (pend : Pending maxSectionSize) : Prop where
  length_eq : sec.secbufBase.length = maxSecfeedSize
  le_max : sec.tsfeedp ≤ maxSecfeedSize
  begun : ∃ cur junk, sec.secbufBase.drop sec.secbufp = cur ++ junk ∧ sec.tsfeedp = sec.secbufp + cur.length ∧ Begun pend cur

/-- The invariant of the buffer: there is room for the rest of the section under way. -/
structure Buffered (sec : SecState) (pend : Pending maxSectionSize) : Prop extends Held sec pend where
  inside : pend ≠ none → sec.secbufp ≤ 183 ∧ sec.pusiSeen = true

variable {feed : SectionFeed} {sec : SecState} {pend pend' : Pending maxSectionSize} {s : PsiSection maxSectionSize}
    {secs secs' : List (PsiSection maxSectionSize)} {base body junk piece bytes : List UInt8} {k n limit q : ℕ} {pusi : Bool}

theorem sectionLength_eq (buf : List UInt8) : sectionLength buf = sectionHdrSize + sectionLengthField buf := by
  rw [sectionLength, sectionLengthField, Nat.add_assoc, Nat.shiftLeft_add_eq_or_of_lt (UInt8.toNat_lt _)]
  rfl

theorem sectionLength_append (h : 3 ≤ bytes.length) (rest : List UInt8) :
    sectionLength (bytes ++ rest) = sectionLength bytes := by
  rw [sectionLength, sectionLength, List.getD_append _ _ _ _ (by omega), List.getD_append _ _ _ _ (by omega)]

theorem sectionLength_section (s : PsiSection maxSectionSize) : sectionLength s.bytes = s.bytes.length := by
  rw [sectionLength_eq, ← s.length_eq]

theorem passes_append (f : DemuxFilter) (hf : ∀ i : Fin maskMax, bytes.length ≤ i → f.maskandmode i = 0 ∧ f.maskandnotmode i = 0)
    (rest : List UInt8) : passes f (bytes ++ rest) = passes f bytes := by
  have hbyte : ∀ (i : Fin maskMax) (m : UInt8), (bytes.length ≤ i → m = 0) →
      m &&& (f.value i ^^^ (bytes ++ rest).getD i 0) = m &&& (f.value i ^^^ bytes.getD i 0) := by
    intro i m hm
    by_cases hi : i < bytes.length
    · rw [List.getD_append _ _ _ _ hi]
    · rw [hm (not_lt.mp hi), UInt8.zero_and, UInt8.zero_and]
  have hloop : ∀ (is : List (Fin maskMax)) (neq : UInt8), filterLoop f (bytes ++ rest) is neq = filterLoop f bytes is neq := by
    intro is
    induction is with
    | nil => exact fun _ => rfl
    | cons i is ih =>
      intro neq
      rw [filterLoop, filterLoop, hbyte i _ fun hi => (hf i hi).1, hbyte i _ fun hi => (hf i hi).2, ih]
  rw [passes, passes, hloop]

theorem sectionfeed_append (h3 : 3 ≤ bytes.length) (hf : Within feed bytes) (rest : List UInt8) :
    sectionfeed feed (bytes ++ rest) bytes.length = accepted feed bytes := by
  have hfilters : (feed.filters.zipIdx.filter fun f => passes f.1 (bytes ++ rest)) =
      feed.filters.zipIdx.filter fun f => passes f.1 bytes :=
    List.filter_congr fun f hmem => passes_append f.1 (hf f.1 (List.fst_mem_of_mem_zipIdx hmem)) rest
  rw [accepted, sectionfeed, sectionfeed, hfilters, List.getD_append _ _ _ _ (by omega), List.take_left, List.take_length]

/-! ### The loop over the buffer -/

theorem dump_section (hbase : base.drop q = s.bytes ++ junk) (hlimit : q + s.bytes.length ≤ limit) (hf : Within feed s.bytes) :
    dump feed pusi base limit q =
      ((dump feed pusi base limit (q + s.bytes.length)).1,
        (if pusi then accepted feed s.bytes else []) ++ (dump feed pusi base limit (q + s.bytes.length)).2) := by
  have h3 : 3 ≤ s.bytes.length := s.hdr_le
  have hmax := s.le_max
  conv_lhs => rw [dump, hbase, sectionLength_append h3, sectionLength_section]
  rw [if_pos ⟨by omega, by omega⟩, sectionfeed_append h3 hf]

theorem dump_stop (hbase : base.drop q = body ++ junk) (hlimit : limit = q + body.length)
    (h : body.length < 3 ∨ maxSectionSize < sectionLength body ∨ body.length < sectionLength body) :
    dump feed pusi base limit q = (q, []) := by
  rw [dump]
  dsimp only
  refine if_neg fun hgo => ?_
  have h3 : 3 ≤ body.length := by omega
  rw [hbase, sectionLength_append h3] at hgo
  omega

theorem dump_padding (hbase : base.drop q = List.replicate n sectionPad ++ junk) (hlimit : limit = q + n) :
    dump feed pusi base limit q = (q, []) := by
  refine dump_stop hbase (by rw [List.length_replicate, hlimit]) ?_
  rw [List.length_replicate]
  by_cases h3 : n < 3
  · exact .inl h3
  · obtain ⟨m, rfl⟩ : ∃ m, n = 3 + m := ⟨n - 3, by omega⟩
    refine .inr (.inl ?_)
    rw [List.replicate_add, sectionLength_append (by decide)]
    decide

/-- Everything that is complete in the bytes of a packing is handed on. -/
theorem dump_body (pusi : Bool) (hb : Body secs body pend secs') (hf : ∀ s ∈ secs, Within feed s.bytes) :
    ∀ q, base.drop q = body ++ junk → ∃ sent cur, secs.map (·.bytes) = sent ++ comingUp pend secs' ∧
      dump feed pusi base (q + body.length) q =
        (q + sent.flatten.length, if pusi then sent.flatMap (accepted feed) else []) ∧
      body = sent.flatten ++ cur ∧ Begun pend cur := by
  induction hb with
  | padding secs n =>
    intro q hbase
    exact ⟨[], _, rfl, by rw [dump_padding hbase (by rw [List.length_replicate])]; simp, rfl, n, rfl⟩
  | cut s secs k h0 hk =>
    intro q hbase
    refine ⟨[], _, rfl, ?_, rfl, rfl, h0, hk⟩
    have hlen : (s.bytes.take k).length = k := by
      rw [List.length_take]
      omega
    rw [dump_stop hbase rfl]
    · simp
    rw [hlen]
    by_cases h3 : k < 3
    · exact .inl h3
    · refine .inr (.inr ?_)
      have hle : 3 ≤ (s.bytes.take k).length := by omega
      have := sectionLength_append hle (s.bytes.drop k)
      rw [List.take_append_drop, sectionLength_section] at this
      omega
  | @whole secs secs' body pend s hb ih =>
    intro q hbase
    rw [List.append_assoc] at hbase
    have hnext : base.drop (q + s.bytes.length) = body ++ junk := by
      rw [← List.drop_drop, hbase, List.drop_left]
    obtain ⟨sent, cur, hsecs, hdump, hbody, hcur⟩ := ih (fun t ht => hf t (List.mem_cons_of_mem s ht)) _ hnext
    refine ⟨s.bytes :: sent, cur, by rw [List.map_cons, hsecs, List.cons_append], ?_, ?_, hcur⟩
    · rw [List.length_append, dump_section hbase (by omega) (hf s List.mem_cons_self), ← Nat.add_assoc, hdump]
      cases pusi <;> simp [Nat.add_assoc]
    · rw [List.flatten_cons, List.append_assoc, ← hbody]

/-! ### A payload -/

theorem copyDump_fits {cur : List UInt8} (more : List UInt8) (hlength : sec.secbufBase.length = maxSecfeedSize)
    (hcur : sec.secbufBase.drop sec.secbufp = cur ++ junk) (hts : sec.tsfeedp = sec.secbufp + cur.length)
    (hne : piece ≠ []) (hroom : sec.tsfeedp + piece.length ≤ maxSecfeedSize) (hb : Body secs (cur ++ piece) pend secs')
    (hf : ∀ s ∈ secs, Within feed s.bytes) :
    ∃ sent sec', copyDump feed sec (piece ++ more) piece.length =
        (sec', if sec.pusiSeen then sent.flatMap (accepted feed) else []) ∧
      secs.map (·.bytes) = sent ++ comingUp pend secs' ∧ sent.flatten.length ≤ cur.length + piece.length ∧ sec'.cc = sec.cc ∧
      sec'.pusiSeen = sec.pusiSeen ∧ sec'.secbufp = sec.secbufp + sent.flatten.length ∧ Held sec' pend := by
  have hpos : 0 < piece.length := List.length_pos_iff.mpr hne
  have hkeep : sec.secbufBase.take sec.tsfeedp = sec.secbufBase.take sec.secbufp ++ cur := by
    rw [hts, List.take_add, hcur, List.take_left]
  have hfront : (sec.secbufBase.take sec.secbufp).length = sec.secbufp := by
    rw [List.length_take]
    omega
  have hbase : (sec.secbufBase.take sec.tsfeedp ++ piece ++ sec.secbufBase.drop (sec.tsfeedp + piece.length)).drop sec.secbufp =
      cur ++ piece ++ sec.secbufBase.drop (sec.tsfeedp + piece.length) := by
    rw [hkeep, List.append_assoc, List.append_assoc, List.append_assoc, List.drop_left' hfront]
  obtain ⟨sent, cur', hsecs, hdump, hcontent, hbegun⟩ := dump_body sec.pusiSeen hb hf _ hbase
  have hlen := congrArg List.length hcontent
  rw [List.length_append, List.length_append] at hlen
  have hlimit : sec.secbufp + (cur ++ piece).length = sec.tsfeedp + piece.length := by
    rw [List.length_append]
    omega
  rw [hlimit] at hdump
  refine ⟨sent, ⟨sec.cc, sec.pusiSeen, sec.secbufBase.take sec.tsfeedp ++ piece ++ sec.secbufBase.drop (sec.tsfeedp + piece.length),
    sec.tsfeedp + piece.length, sec.secbufp + sent.flatten.length⟩, ?_, hsecs, by omega, rfl, rfl, rfl,
    ?_, hroom, cur', sec.secbufBase.drop (sec.tsfeedp + piece.length), ?_, ?_, hbegun⟩
  · rw [copyDump, if_neg (by omega)]
    dsimp only
    rw [if_neg (not_lt.mpr hroom), if_neg hpos.ne', List.take_left, hdump]
  · simp only [List.length_append, List.length_take, List.length_drop]
    omega
  · rw [← List.drop_drop, hbase, hcontent, List.append_assoc, List.drop_left]
  · show sec.tsfeedp + piece.length = sec.secbufp + sent.flatten.length + cur'.length
    omega

theorem copyDump_room (hle : sec.tsfeedp ≤ maxSecfeedSize) (buf : List UInt8) (len : ℕ) :
    copyDump feed sec buf len = copyDump feed sec buf (min len (maxSecfeedSize - sec.tsfeedp)) := by
  have hmin : ∀ len, (if maxSecfeedSize < sec.tsfeedp + len then maxSecfeedSize - sec.tsfeedp else len) =
      min len (maxSecfeedSize - sec.tsfeedp) := by
    intro len
    split_ifs <;> omega
  rw [copyDump, copyDump, hmin len, hmin (min len _), Nat.min_assoc, Nat.min_self]

theorem copyDump_append (piece more : List UInt8) :
    copyDump feed sec (piece ++ more) piece.length = copyDump feed sec piece piece.length := by
  rw [copyDump, copyDump]
  dsimp only
  rw [List.take_append_of_le_length]
  split_ifs <;> omega

/-- The end of the section under way, or nothing, and any padding behind it: these bytes are sections as a whole. -/
theorem Buffered.rest (pend : Pending maxSectionSize) (h : Buffered sec pend) :
    ∃ (cur junk : List UInt8) (secs : List (PsiSection maxSectionSize)), sec.secbufBase.drop sec.secbufp = cur ++ junk ∧
      sec.tsfeedp = sec.secbufp + cur.length ∧ sec.tsfeedp + pend.tail.length ≤ maxSecfeedSize ∧
      (∀ m, Body secs (cur ++ (pend.tail ++ List.replicate m sectionPad)) none []) ∧
      secs.map (·.bytes) = comingUp pend [] ∧ (pend.tail = [] → pend = none) := by
  obtain ⟨cur, junk, hcur, hts, hbegun⟩ := h.begun
  match pend with
  | none =>
    obtain ⟨i, rfl⟩ := hbegun
    refine ⟨_, junk, [], hcur, hts, h.le_max, fun m => ?_, rfl, fun _ => rfl⟩
    show Body [] (List.replicate i sectionPad ++ List.replicate m sectionPad) none []
    rw [← List.replicate_add]
    exact .padding [] _
  | some (s, k) =>
    obtain ⟨rfl, h0, hk⟩ := hbegun
    have hin := h.inside (Option.some_ne_none _)
    have hmax : s.bytes.length ≤ 4096 := s.le_max
    have hlen : (s.bytes.take k).length = k := List.length_take_of_le hk.le
    refine ⟨_, junk, [s], hcur, hts, ?_, fun m => ?_, rfl, fun hnil => ?_⟩
    · show sec.tsfeedp + (s.bytes.drop k).length ≤ 4096 + 188
      rw [List.length_drop]
      omega
    · show Body [s] (s.bytes.take k ++ (s.bytes.drop k ++ List.replicate m sectionPad)) none []
      rw [← List.append_assoc, List.take_append_drop]
      exact .whole s (.padding [] m)
    · exact absurd (List.drop_eq_nil_iff.mp hnil) (by omega)

theorem flatMap_pending (sec : SecState) (h : Buffered sec pend) :
    (if sec.pusiSeen then (comingUp pend []).flatMap (accepted feed) else []) = (comingUp pend []).flatMap (accepted feed) := by
  match pend with
  | none => simp [comingUp]
  | some (s, k) => rw [(h.inside (Option.some_ne_none _)).2, if_pos rfl]

theorem copyDump_tail (h : Buffered sec pend) (hf : ∀ bytes ∈ comingUp pend [], Within feed bytes) (n : ℕ) :
    ∃ sec', copyDump feed sec (pend.tail ++ List.replicate n sectionPad) (pend.tail.length + n) =
        (sec', (comingUp pend []).flatMap (accepted feed)) ∧ sec'.cc = sec.cc ∧ Held sec' none := by
  obtain ⟨cur, junk, secs, hcur, hts, hfits, hb, hsecs, hnil⟩ := h.rest
  rw [copyDump_room h.le_max]
  obtain ⟨m, hm⟩ : ∃ m, pend.tail.length + m = min (pend.tail.length + n) (maxSecfeedSize - sec.tsfeedp) :=
    ⟨min (pend.tail.length + n) (maxSecfeedSize - sec.tsfeedp) - pend.tail.length, by omega⟩
  obtain ⟨more, rfl⟩ : ∃ more, n = m + more := ⟨n - m, by omega⟩
  rw [← hm, List.replicate_add, ← List.append_assoc]
  have hlen : (pend.tail ++ List.replicate m sectionPad).length = pend.tail.length + m := by
    rw [List.length_append, List.length_replicate]
  rcases eq_or_ne (pend.tail ++ List.replicate m sectionPad) [] with hempty | hne
  · -- there is nothing to put into the buffer
    obtain rfl := hnil (List.append_eq_nil_iff.mp hempty).1
    rw [← hlen, hempty, List.length_nil]
    refine ⟨sec, ?_, rfl, h.toHeld⟩
    rw [copyDump]
    dsimp only
    split_ifs <;> first | rfl | omega
  · obtain ⟨sent, sec', hcall, hsent, -, hcc, -, -, hheld⟩ := copyDump_fits (List.replicate more sectionPad) h.length_eq hcur hts
      hne (by omega) (hb m) fun s hs => hf s.bytes (hsecs ▸ List.mem_map_of_mem hs)
    rw [show comingUp none [] = [] from rfl, List.append_nil, hsecs] at hsent
    rw [hlen, ← hsent, flatMap_pending sec h] at hcall
    exact ⟨sec', hcall, hcc, hheld⟩

/-! ### A packet -/

variable {pkt : Packet} {buf : List UInt8} {cc : ℕ}

/-- With the right counter nothing changes but the counter; anew from an empty buffer, nothing is lost. -/
theorem Buffered.continuity (h : Buffered sec pend) (hc : Carries cc pkt buf) (hcc : pend ≠ none → (sec.cc + 1) % 16 = cc % 16) :
    Buffered (Dmx.continuity sec buf) pend ∧ (Dmx.continuity sec buf).cc = cc % 16 := by
  unfold Dmx.continuity
  rw [hc.cc_eq]
  dsimp only
  split_ifs with hgap
  · have hnone : pend = none := by
      by_contra hne
      exact hgap.elim (fun hno => hno (hcc hne)) hc.continuous
    subst hnone
    exact ⟨⟨⟨h.length_eq, Nat.zero_le _, [], sec.secbufBase, rfl, rfl, 0, rfl⟩, fun hne => absurd rfl hne⟩, rfl⟩
  · exact ⟨⟨⟨h.length_eq, h.le_max, h.begun⟩, h.inside⟩, rfl⟩

theorem payloadCount_le (buf : List UInt8) : payloadCount buf ≤ 184 := by
  unfold payloadCount
  split_ifs <;> omega

theorem sectionPacket_inside (hc : Carries cc pkt buf) (hstart : pkt.pduStart = false) :
    sectionPacket feed sec buf = copyDump feed (continuity sec buf) pkt.payload pkt.payload.length := by
  have hpos : payloadCount buf ≠ 0 := by
    rw [hc.count_eq]
    exact (List.length_pos_iff.mpr hc.payload_ne_nil).ne'
  have hno : ¬(buf.getD 1 0 &&& 0x40 ≠ 0) := by
    rw [hc.start_iff, hstart]
    decide
  rw [sectionPacket, if_neg hpos]
  dsimp only
  rw [if_neg hno, hc.payload_eq, hc.count_eq]

/-- What a packet leads to. -/
structure Brings (feed : SectionFeed) (r : SecState × List Delivery) (cc : ℕ) (sent : List (List UInt8))
    (pend : Pending maxSectionSize) : Prop where
  out_eq : r.2 = sent.flatMap (accepted feed)
  cc_eq : r.1.cc = cc % 16
  buffered : Buffered r.1 pend

theorem sectionPacket_middle {m : ℕ} (h : Buffered sec (some (s, k))) (hkm : k + m < s.bytes.length)
    (hc : Carries cc ⟨false, (s.bytes.drop k).take m⟩ buf) (hcc : (sec.cc + 1) % 16 = cc % 16) (hf : Within feed s.bytes) :
    Brings feed (sectionPacket feed sec buf) cc [] (some (s, k + m)) := by
  obtain ⟨h₁, hcc₁⟩ := h.continuity hc fun _ => hcc
  rw [sectionPacket_inside hc rfl]
  obtain ⟨cur, junk, hcur, hts, rfl, h0, hk⟩ := h₁.begun
  have hin := h₁.inside (Option.some_ne_none _)
  have hmax : s.bytes.length ≤ 4096 := s.le_max
  have hlen : (s.bytes.take k).length = k ∧ ((s.bytes.drop k).take m).length = m := by
    rw [List.length_take, List.length_take, List.length_drop]
    omega
  have hroom : (continuity sec buf).tsfeedp + ((s.bytes.drop k).take m).length ≤ 4096 + 188 := by omega
  have hb : Body [s] (s.bytes.take k ++ (s.bytes.drop k).take m) (some (s, k + m)) [] := by
    rw [← List.take_add]
    exact .cut s [] _ (by omega) hkm
  obtain ⟨sent, sec', hcall, hsecs, -, hcc₂, hpusi, hsecbufp, hheld⟩ := copyDump_fits [] h₁.length_eq hcur hts
    hc.payload_ne_nil hroom hb (List.forall_mem_singleton.mpr hf)
  obtain rfl : sent = [] := List.append_left_eq_self.mp hsecs.symm
  rw [List.append_nil] at hcall
  rw [hcall]
  exact ⟨by simp, hcc₂.trans hcc₁, hheld, fun _ => ⟨hsecbufp ▸ hin.1, hpusi ▸ hin.2⟩⟩

theorem sectionPacket_padded (h : Buffered sec pend) (hf : ∀ bytes ∈ comingUp pend [], Within feed bytes) (n : ℕ)
    (hc : Carries cc ⟨false, pend.tail ++ List.replicate n sectionPad⟩ buf)
    (hcc : pend ≠ none → (sec.cc + 1) % 16 = cc % 16) :
    Brings feed (sectionPacket feed sec buf) cc (comingUp pend []) none := by
  obtain ⟨h₁, hcc₁⟩ := h.continuity hc hcc
  obtain ⟨sec', hcall, hcc₂, hheld⟩ := copyDump_tail h₁ hf n
  rw [sectionPacket_inside hc rfl, List.length_append, List.length_replicate, hcall]
  exact ⟨rfl, hcc₂.trans hcc₁, hheld, fun hne => absurd rfl hne⟩

theorem sectionPacket_start (h : Buffered sec pend) (hp : pend.tail.length < 256) (hb : Body secs body pend' secs')
    (hlt : secs'.length < secs.length) (hc : Carries cc ⟨true, UInt8.ofNat pend.tail.length :: (pend.tail ++ body)⟩ buf)
    (hcc : pend ≠ none → (sec.cc + 1) % 16 = cc % 16) (hf : ∀ bytes ∈ comingUp pend secs, Within feed bytes) :
    ∃ sent, comingUp pend secs = sent ++ comingUp pend' secs' ∧ Brings feed (sectionPacket feed sec buf) cc sent pend' := by
  obtain ⟨h₁, hcc₁⟩ := h.continuity hc hcc
  have hbody : body ≠ [] := body_ne_nil hb hlt
  have hblen : 0 < body.length := List.length_pos_iff.mpr hbody
  have hcount : payloadCount buf = pend.tail.length + body.length + 1 := by
    rw [hc.count_eq]
    show (pend.tail ++ body).length + 1 = _
    rw [List.length_append]
  have hle := payloadCount_le buf
  have hpl := hc.payload_eq
  have hpointer : (buf.getD (188 - payloadCount buf) 0).toNat = pend.tail.length := by
    have := congrArg (fun l => l.getD 0 0) hpl
    rw [List.getD_eq_getElem?_getD, List.getElem?_drop, Nat.add_zero] at this
    rw [List.getD_eq_getElem?_getD, this]
    exact UInt8.toNat_ofNat_of_lt' hp
  have hbefore : buf.drop (188 - payloadCount buf + 1) = pend.tail ++ body := by
    rw [← List.drop_drop, hpl]
    rfl
  have hafter : buf.drop (188 - payloadCount buf + 1 + pend.tail.length) = body := by
    rw [← List.drop_drop, hbefore, List.drop_left]
  have hsplit : comingUp pend secs = comingUp pend [] ++ secs.map (·.bytes) := by simp [comingUp]
  rw [hsplit, List.forall_mem_append] at hf
  obtain ⟨before, hcall₁, hcc₂, hheld₁⟩ := copyDump_tail h₁ hf.1 0
  rw [List.replicate_zero, List.append_nil, Nat.add_zero] at hcall₁
  -- what comes behind the pointer is put into an empty buffer
  have hroom : 0 + body.length ≤ 4096 + 188 := by omega
  obtain ⟨sent, sec', hcall₂, hsecs, hshort, hcc₃, hpusi, hsecbufp, hheld₂⟩ :=
    @copyDump_fits feed (sectionNew { before with pusiSeen := true }) _ _ _ _ body [] [] hheld₁.length_eq rfl rfl hbody hroom hb
      fun s hs => hf.2 s.bytes (List.mem_map_of_mem hs)
  rw [List.append_nil] at hcall₂
  have hcall : sectionPacket feed sec buf =
      (sec', (comingUp pend []).flatMap (accepted feed) ++ sent.flatMap (accepted feed)) := by
    rw [sectionPacket, if_neg (by omega)]
    dsimp only
    rw [if_pos (hc.start_iff.mpr rfl), hpointer, if_pos ⟨by omega, by omega⟩, hbefore, hafter, copyDump_append, hcall₁,
      show payloadCount buf - 1 - pend.tail.length = body.length by omega]
    dsimp only
    rw [hcall₂]
    rfl
  have hinside : sec'.secbufp ≤ 183 := by
    rw [hsecbufp, show (sectionNew { before with pusiSeen := true }).secbufp = 0 from rfl]
    rw [List.length_nil] at hshort
    omega
  rw [hcall]
  exact ⟨comingUp pend [] ++ sent, by rw [hsplit, hsecs, List.append_assoc], (List.flatMap_append).symm,
    (hcc₃.trans hcc₂).trans hcc₁, hheld₂, fun _ => ⟨hinside, hpusi⟩⟩

/-! ### All packets -/

/-- From any buffer that agrees with what is under way, the packets bring that and what follows it. -/
def Delivers (feed : SectionFeed) (pend : Pending maxSectionSize) (secs : List (PsiSection maxSectionSize))
    (pkts : List Packet) : Prop :=
  ∀ (sec : SecState) (cc : ℕ) (bufs : List (List UInt8)), Buffered sec pend →
    (pend ≠ none → (sec.cc + 1) % 16 = cc % 16) → CarriedFrom cc pkts bufs →
    (∀ bytes ∈ comingUp pend secs, Within feed bytes) →
    (Mealy.outputs (sectionPacket feed) sec bufs).flatten = (comingUp pend secs).flatMap (accepted feed)

theorem Delivers.cons {pkts : List Packet} (ih : Delivers feed pend' secs' pkts)
    (hone : ∀ {sec : SecState} {cc : ℕ} {buf : List UInt8}, Buffered sec pend → Carries cc pkt buf →
      (pend ≠ none → (sec.cc + 1) % 16 = cc % 16) → (∀ bytes ∈ comingUp pend secs, Within feed bytes) →
      ∃ sent, comingUp pend secs = sent ++ comingUp pend' secs' ∧ Brings feed (sectionPacket feed sec buf) cc sent pend') :
    Delivers feed pend secs (pkt :: pkts) := by
  intro sec cc bufs h hcc hbufs hf
  cases bufs with
  | nil => exact hbufs.elim
  | cons buf bufs =>
    obtain ⟨sent, hsplit, hout, hcc', h'⟩ := hone h hbufs.1 hcc hf
    rw [hsplit] at hf ⊢
    rw [Mealy.outputs, List.flatten_cons, hout, List.flatMap_append, ih _ _ bufs h' (fun _ => by rw [hcc', Nat.mod_add_mod])
      hbufs.2 fun bytes hb => hf bytes (List.mem_append_right _ hb)]

theorem delivers_packing {pkts : List Packet} (hp : Packing pend secs pkts) : Delivers feed pend secs pkts := by
  induction hp with
  | done =>
    intro sec cc bufs _ _ hbufs _
    cases bufs with
    | nil => rfl
    | cons buf bufs => exact hbufs.elim
  | idle n _ ih => exact ih.cons fun h hc hcc hf => ⟨[], rfl, sectionPacket_padded h (by simp [comingUp]) n hc hcc⟩
  | middle s k m hkm _ ih =>
    exact ih.cons fun h hc hcc hf => ⟨[], rfl, sectionPacket_middle h hkm hc (hcc (Option.some_ne_none _))
      (hf s.bytes (List.mem_append_left _ (List.mem_singleton_self _)))⟩
  | last s k n _ ih =>
    exact ih.cons fun h hc hcc hf => ⟨_, rfl, sectionPacket_padded h
      (fun bytes hb => hf bytes (List.mem_append_left _ (by simpa [comingUp] using hb))) n hc hcc⟩
  | start hp hb hlt _ ih => exact ih.cons fun h hc hcc hf => sectionPacket_start h hp hb hlt hc hcc hf

/-- `dmx_section_feed_start_filtering`; the counter and `pusi_seen` stay as they are. -/
def startFiltering (sec : SecState) : SecState := { sec with tsfeedp := 0, secbufp := 0 }

end BgtDvb.Dmx
