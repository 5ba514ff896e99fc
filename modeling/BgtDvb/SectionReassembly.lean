import BgtDvb.SectionBuf

/-!
# Section reassembly is a round trip

Every legal packing of a list of PSI sections into TS payloads is undone by the caller loop over
the section buffer: the sections come out complete, in order, with nothing else.

* `PsiSection max` — a section that the buffer can carry (header present, at most `max` bytes,
  table id distinct from the padding byte, length field consistent);
* `sectionBufAdd_filled` — **PROVED**: one call on any further bytes of that section advances the
  invariant, also when the 3-byte header itself is cut;
* `receivePackets_packing` — **PROVED**: the run lemma over all packets.
-/

namespace BgtDvb.Ucsi

/-! ### Sections and their packings -/

/-- A section the buffer can carry. -/
structure PsiSection (max : ℕ) where
  bytes : List UInt8
  hdr_le : sectionHdrSize ≤ bytes.length
  le_max : bytes.length ≤ max
  tableId_ne_pad : bytes.getD 0 0 ≠ sectionPad
  length_eq : bytes.length = sectionHdrSize + sectionLengthField bytes

variable {max : ℕ}

/-- A section of which the first `k` bytes were sent, if one is under way. -/
abbrev Pending (max : ℕ) := Option (PsiSection max × ℕ)

/-- The bytes of the section under way that are still to be sent. -/
def Pending.tail : Pending max → List UInt8
  | none => []
  | some (s, k) => s.bytes.drop k

/-- The bytes of a payload from a section boundary on: whole sections, then padding or the
beginning of a section that the next packets continue. -/
inductive Body : List (PsiSection max) → List UInt8 → Pending max → List (PsiSection max) → Prop
  | padding (secs : List (PsiSection max)) (n : ℕ) :
      Body secs (List.replicate n sectionPad) none secs
  | cut (s : PsiSection max) (secs : List (PsiSection max)) (k : ℕ) :
      0 < k → k < s.bytes.length → Body (s :: secs) (s.bytes.take k) (some (s, k)) secs
  | whole {secs secs' : List (PsiSection max)} {body : List UInt8} {pend : Pending max}
      (s : PsiSection max) :
      Body secs body pend secs' → Body (s :: secs) (s.bytes ++ body) pend secs'

/-- The legal packings of what is left of a section under way and of the sections after it. -/
inductive Packing : Pending max → List (PsiSection max) → List Packet → Prop
  | done : Packing none [] []
  | idle {secs : List (PsiSection max)} {pkts : List Packet} (n : ℕ) :
      Packing none secs pkts → Packing none secs (⟨false, List.replicate n sectionPad⟩ :: pkts)
  | middle {secs : List (PsiSection max)} {pkts : List Packet} (s : PsiSection max) (k m : ℕ) :
      k + m < s.bytes.length → Packing (some (s, k + m)) secs pkts →
      Packing (some (s, k)) secs (⟨false, (s.bytes.drop k).take m⟩ :: pkts)
  | last {secs : List (PsiSection max)} {pkts : List Packet} (s : PsiSection max) (k n : ℕ) :
      Packing none secs pkts →
      Packing (some (s, k)) secs (⟨false, s.bytes.drop k ++ List.replicate n sectionPad⟩ :: pkts)
  | start {secs secs' : List (PsiSection max)} {pkts : List Packet} {body : List UInt8}
      {pend pend' : Pending max} :
      pend.tail.length < 256 → Body secs body pend' secs' → secs'.length < secs.length →
      Packing pend' secs' pkts →
      Packing pend secs (⟨true, UInt8.ofNat pend.tail.length :: (pend.tail ++ body)⟩ :: pkts)

/-! ### The invariant of the buffer -/

/-- The buffer holds exactly the first `k` bytes of a section with these bytes. -/
structure Filled (max : ℕ) (buf : SectionBuf) (bytes : List UInt8) (k : ℕ) : Prop where
  max_eq : buf.max = max
  count_eq : buf.count = k
  header_eq : buf.header = decide (sectionHdrSize ≤ k)
  len_eq : buf.len = if sectionHdrSize ≤ k then bytes.length else sectionHdrSize
  data_eq : buf.data.take k = bytes.take k

/-- The buffer is between two sections. -/
structure Idle (max : ℕ) (buf : SectionBuf) : Prop where
  max_eq : buf.max = max
  count_eq : buf.count = 0
  header_eq : buf.header = false
  len_eq : buf.len = sectionHdrSize

variable {buf buf' : SectionBuf} {bytes payload body : List UInt8} {k m n : ℕ} {s : PsiSection max}
    {secs secs' : List (PsiSection max)} {pend : Pending max}

theorem Idle.filled (h : Idle max buf) (bytes : List UInt8) : Filled max buf bytes 0 :=
  ⟨h.max_eq, h.count_eq, by rw [h.header_eq]; rfl, by rw [h.len_eq]; rfl, by simp⟩

theorem Idle.finished (h : Idle max buf) : buf.finished = false := by
  simp [SectionBuf.finished, h.header_eq]

theorem Filled.finished (h : Filled max buf bytes k) (hk : k < bytes.length) : buf.finished = false := by
  by_cases h3 : sectionHdrSize ≤ k
  · simp only [SectionBuf.finished, h.len_eq, h.count_eq, if_pos h3, Bool.and_eq_false_iff,
      beq_eq_false_iff_ne]
    exact Or.inr (by omega)
  · simp [SectionBuf.finished, h.header_eq, h3]

theorem Filled.complete (h : Filled max buf s.bytes s.bytes.length) : sectionBufData buf = s.bytes := by
  rw [sectionBufData, h.len_eq, if_pos s.hdr_le, h.data_eq, List.take_length]

theorem Filled.reset {buf : SectionBuf} {s : PsiSection max} {k : ℕ}
    (h : Filled max buf s.bytes k) : Idle max (sectionBufReset buf) := by
  have hmax : ¬ max < sectionHdrSize := not_lt.mpr (s.hdr_le.trans s.le_max)
  constructor <;> simp [sectionBufReset, sectionBufInit, hmax, h.max_eq]

/-! ### One call of `section_buf_add` -/

theorem skipPadding_of_head_ne {b : UInt8} {frag : List UInt8} (hb : b ≠ sectionPad) (used : ℕ) :
    skipPadding (b :: frag) used = (b :: frag, used) := by
  rw [skipPadding, if_neg hb]

theorem skipPadding_replicate (n used : ℕ) :
    skipPadding (List.replicate n sectionPad) used = ([], used + n) := by
  induction n generalizing used with
  | zero => rfl
  | succ n ih =>
    rw [List.replicate_succ, skipPadding, if_pos rfl, ih]
    congr 1
    omega

theorem store_data {rest : List UInt8} (hc : buf.count = k) (hd : buf.data.take k = bytes.take k)
    (hkm : k + m ≤ bytes.length) : (buf.store ((bytes.drop k).take m ++ rest) m).data = bytes.take (k + m) := by
  have hlen : ((bytes.drop k).take m).length = m := by
    rw [List.length_take, List.length_drop]
    omega
  rw [SectionBuf.store, hc, hd, List.take_append_of_le_length (by omega), List.take_take,
    Nat.min_self, List.take_add]

theorem accumulate_filled (m : ℕ) (rest : List UInt8) (used : ℕ) (h : Filled max buf bytes k)
    (h3 : sectionHdrSize ≤ k) (hkm : k + m ≤ bytes.length) (hrest : k + m < bytes.length → rest = []) :
    Filled max (accumulate buf ((bytes.drop k).take m ++ rest) used).buf bytes (k + m) ∧
      (accumulate buf ((bytes.drop k).take m ++ rest) used).buf.waitPdu = buf.waitPdu ∧
      (accumulate buf ((bytes.drop k).take m ++ rest) used).used = used + m ∧
      (accumulate buf ((bytes.drop k).take m ++ rest) used).status
        = if k + m = bytes.length then 1 else 0 := by
  have hlen : buf.len = bytes.length := by rw [h.len_eq, if_pos h3]
  have hcopy : min (buf.len - buf.count) ((bytes.drop k).take m ++ rest).length = m := by
    rw [List.length_append, List.length_take, List.length_drop, hlen, h.count_eq]
    rcases Nat.lt_or_ge (k + m) bytes.length with hlt | hge
    · rw [hrest hlt, List.length_nil]
      omega
    · omega
  have hfin : (buf.store ((bytes.drop k).take m ++ rest) m).finished
      = decide (k + m = bytes.length) := by
    have hh : buf.header = true := by rw [h.header_eq]; exact decide_eq_true h3
    rw [Bool.eq_iff_iff]
    simp only [SectionBuf.finished, SectionBuf.store, hh, hlen, h.count_eq, Bool.true_and,
      beq_iff_eq, decide_eq_true_eq]
    exact eq_comm
  rw [accumulate, hcopy]
  refine ⟨⟨h.max_eq, ?_, ?_, ?_, ?_⟩, rfl, rfl, ?_⟩
  · simp [SectionBuf.store, h.count_eq]
  · rw [show (buf.store ((bytes.drop k).take m ++ rest) m).header = buf.header from rfl, h.header_eq,
      decide_eq_true h3, decide_eq_true (by omega)]
  · rw [show (buf.store ((bytes.drop k).take m ++ rest) m).len = buf.len from rfl, hlen,
      if_pos (by omega)]
  · rw [store_data h.count_eq h.data_eq hkm, List.take_take, Nat.min_self]
  · simp only [hfin, decide_eq_true_eq]

/-- While the header is incomplete the length is not yet known; the call that completes it works
it out from the three bytes and goes on accumulating. -/
theorem grabHeader_filled {rest : List UInt8} (h : Filled max buf s.bytes k) (h3 : k < sectionHdrSize)
    (hkm : k + m ≤ s.bytes.length) (hrest : k + m < s.bytes.length → rest = []) :
    Filled max (grabHeader buf ((s.bytes.drop k).take m ++ rest) 0).buf s.bytes (k + m) ∧
      (grabHeader buf ((s.bytes.drop k).take m ++ rest) 0).buf.waitPdu = buf.waitPdu ∧
      (grabHeader buf ((s.bytes.drop k).take m ++ rest) 0).used = m ∧
      (grabHeader buf ((s.bytes.drop k).take m ++ rest) 0).status
        = if k + m = s.bytes.length then 1 else 0 := by
  have hs3 := s.hdr_le
  have hlen : ((s.bytes.drop k).take m).length = m := by
    rw [List.length_take, List.length_drop]
    omega
  rcases Nat.lt_or_ge (k + m) sectionHdrSize with hlt | hge
  · -- the header is still incomplete after this fragment
    have hr : rest = [] := hrest (by omega)
    subst hr
    have hcopy : min (sectionHdrSize - buf.count) ((s.bytes.drop k).take m ++ []).length = m := by
      rw [List.append_nil, hlen, h.count_eq]
      omega
    have hcount : (buf.store ((s.bytes.drop k).take m ++ []) m).count = k + m := by
      simp [SectionBuf.store, h.count_eq]
    have hne : (buf.store ((s.bytes.drop k).take m ++ []) m).count ≠ sectionHdrSize := by omega
    rw [grabHeader, hcopy, if_pos hne]
    refine ⟨⟨h.max_eq, hcount, ?_, ?_, ?_⟩, rfl, Nat.zero_add m, ?_⟩
    · rw [show (buf.store ((s.bytes.drop k).take m ++ []) m).header = buf.header from rfl,
        h.header_eq, decide_eq_false (by omega), decide_eq_false (by omega)]
    · rw [show (buf.store ((s.bytes.drop k).take m ++ []) m).len = buf.len from rfl, h.len_eq,
        if_neg (by omega), if_neg (by omega)]
    · rw [store_data h.count_eq h.data_eq hkm, List.take_take, Nat.min_self]
    · rw [if_neg (by omega)]
  · -- the header is completed: three bytes are known, the rest is accumulated
    obtain ⟨j, hj⟩ : ∃ j, m = (sectionHdrSize - k) + j := ⟨m - (sectionHdrSize - k), by omega⟩
    have hsplit : (s.bytes.drop k).take m ++ rest
        = (s.bytes.drop k).take (sectionHdrSize - k)
          ++ ((s.bytes.drop sectionHdrSize).take j ++ rest) := by
      rw [hj, List.take_add, List.drop_drop, show k + (sectionHdrSize - k) = sectionHdrSize by omega,
        List.append_assoc]
    have hl3 : ((s.bytes.drop k).take (sectionHdrSize - k)).length = sectionHdrSize - k := by
      rw [List.length_take, List.length_drop]
      omega
    have hcopy : min (sectionHdrSize - buf.count) ((s.bytes.drop k).take m ++ rest).length
        = sectionHdrSize - k := by
      rw [List.length_append, hlen, h.count_eq]
      omega
    have hcount : (buf.store ((s.bytes.drop k).take m ++ rest) (sectionHdrSize - k)).count
        = sectionHdrSize := by
      simp only [SectionBuf.store, h.count_eq]
      omega
    have hdata : (buf.store ((s.bytes.drop k).take m ++ rest) (sectionHdrSize - k)).data
        = s.bytes.take sectionHdrSize := by
      rw [hsplit, store_data h.count_eq h.data_eq (by omega),
        show k + (sectionHdrSize - k) = sectionHdrSize by omega]
    have hdrop : ((s.bytes.drop k).take m ++ rest).drop (sectionHdrSize - k)
        = (s.bytes.drop sectionHdrSize).take j ++ rest := by
      rw [hsplit, List.drop_append_of_le_length (by omega), List.drop_of_length_le (by omega),
        List.nil_append]
    have hfield : sectionHdrSize + sectionLengthField (s.bytes.take sectionHdrSize)
        = s.bytes.length := by
      rw [s.length_eq]
      simp [sectionLengthField, sectionHdrSize]
    have hstore : buf.store ((s.bytes.drop k).take m ++ rest) (sectionHdrSize - k)
        = { buf with count := sectionHdrSize, data := s.bytes.take sectionHdrSize } :=
      SectionBuf.ext rfl hcount rfl rfl rfl hdata
    have hnew : Filled max
        ⟨buf.max, sectionHdrSize, s.bytes.length, true, buf.waitPdu, s.bytes.take sectionHdrSize⟩
        s.bytes sectionHdrSize :=
      ⟨h.max_eq, rfl, rfl, rfl, by simp only [List.take_take, Nat.min_self]⟩
    have hacc := accumulate_filled j rest (0 + (sectionHdrSize - k)) hnew le_rfl
      (by omega) (fun hlt => hrest (by omega))
    have hkj : sectionHdrSize + j = k + m := by omega
    rw [hkj] at hacc
    have hmax : ¬ buf.max < s.bytes.length := by
      rw [h.max_eq]
      exact not_lt.mpr s.le_max
    rw [grabHeader, hcopy]
    simp only [hstore, hdrop, hfield, ne_eq, not_true_eq_false, if_false, hmax]
    refine ⟨hacc.1, hacc.2.1, ?_, hacc.2.2.2⟩
    rw [hacc.2.2.1]
    omega

/-- **The step lemma.**  On a buffer that holds the first `k` bytes of a section, a call with the
next `m` bytes (and anything after them, once the section is complete) consumes exactly those `m`
bytes, and reports completion exactly when the last byte is among them. -/
theorem sectionBufAdd_filled (m : ℕ) (rest : List UInt8) (h : Filled max buf s.bytes k) (hk : k < s.bytes.length)
    (hkm : k + m ≤ s.bytes.length) (hrest : k + m < s.bytes.length → rest = []) :
    Filled max (sectionBufAdd buf ((s.bytes.drop k).take m ++ rest)).buf s.bytes (k + m) ∧
      (sectionBufAdd buf ((s.bytes.drop k).take m ++ rest)).buf.waitPdu = buf.waitPdu ∧
      (sectionBufAdd buf ((s.bytes.drop k).take m ++ rest)).used = m ∧
      (sectionBufAdd buf ((s.bytes.drop k).take m ++ rest)).status
        = if k + m = s.bytes.length then 1 else 0 := by
  rw [sectionBufAdd, if_neg (by rw [h.finished hk]; simp)]
  rcases Nat.eq_zero_or_pos k with hk0 | hkpos
  · -- nothing accumulated yet: the first byte is the table id, which is not padding
    subst hk0
    have hc : buf.count = 0 := h.count_eq
    have hh : buf.header = false := by rw [h.header_eq]; rfl
    rcases Nat.eq_zero_or_pos m with hm0 | hmpos
    · subst hm0
      have hr : rest = [] := hrest hk
      subst hr
      simp only [hc, List.take_zero, List.append_nil, if_true, skipPadding, and_self]
      exact ⟨h, trivial, trivial, by rw [if_neg (by omega)]⟩
    · have htab := s.tableId_ne_pad
      have hgrab := grabHeader_filled h (by decide) hkm hrest
      have hskip : skipPadding ((s.bytes.drop 0).take m ++ rest) 0
          = ((s.bytes.drop 0).take m ++ rest, 0) := by
        obtain ⟨b, bs, hb⟩ := List.exists_cons_of_length_pos hk
        obtain ⟨m', rfl⟩ : ∃ m', m = m' + 1 := ⟨m - 1, by omega⟩
        rw [hb] at htab ⊢
        exact skipPadding_of_head_ne htab 0
      have hne : (s.bytes.drop 0).take m ++ rest ≠ [] := by
        intro hnil
        have := congrArg List.length hnil
        simp only [List.drop_zero, List.length_append, List.length_take, List.length_nil] at this
        omega
      simp only [hc, if_true, hskip, hne, and_false, if_false, hh, Bool.false_eq_true]
      exact hgrab
  · have hc : buf.count ≠ 0 := by rw [h.count_eq]; omega
    simp only [hc, if_false, false_and]
    rcases Nat.lt_or_ge k sectionHdrSize with hlt | hge
    · have hh : ¬ buf.header = true := by rw [h.header_eq]; simp [hlt]
      rw [if_neg hh]
      exact grabHeader_filled h hlt hkm hrest
    · have hh : buf.header = true := by rw [h.header_eq]; exact decide_eq_true hge
      rw [if_pos hh]
      have hacc := accumulate_filled m rest 0 h hge hkm hrest
      rw [Nat.zero_add] at hacc
      exact hacc

theorem sectionBufAdd_part (h : Filled max buf s.bytes k) (hkm : k + m < s.bytes.length) :
    ∃ buf', sectionBufAdd buf ((s.bytes.drop k).take m) = ⟨buf', m, 0⟩ ∧
      Filled max buf' s.bytes (k + m) ∧ buf'.waitPdu = buf.waitPdu := by
  obtain ⟨hfill, hwait, hused, hst⟩ :=
    sectionBufAdd_filled m [] h (by omega) hkm.le (fun _ => rfl)
  rw [List.append_nil] at hfill hwait hused hst
  rw [if_neg (by omega)] at hst
  exact ⟨_, AddResult.ext rfl hused hst, hfill, hwait⟩

/-- The form for a fragment that completes the section, with whatever follows it. -/
theorem sectionBufAdd_whole (h : Filled max buf s.bytes k) (hk : k < s.bytes.length) (rest : List UInt8) :
    ∃ buf', sectionBufAdd buf (s.bytes.drop k ++ rest) = ⟨buf', (s.bytes.drop k).length, 1⟩ ∧
      Filled max buf' s.bytes s.bytes.length ∧ buf'.waitPdu = buf.waitPdu := by
  have hend : k + (s.bytes.drop k).length = s.bytes.length := by
    rw [List.length_drop]
    omega
  obtain ⟨hfill, hwait, hused, hst⟩ :=
    sectionBufAdd_filled (s.bytes.drop k).length rest h hk hend.le (fun hlt => by omega)
  rw [List.take_length] at hfill hwait hused hst
  rw [hend] at hfill
  rw [if_pos hend] at hst
  exact ⟨_, AddResult.ext rfl hused hst, hfill, hwait⟩

/-! ### One call of `section_buf_add_transport_payload` -/

theorem transportPayload_padding (h : Idle max buf) (n : ℕ) :
    sectionBufAddTransportPayload buf (List.replicate n sectionPad) false = ⟨buf, n, 0⟩ := by
  have hadd : sectionBufAdd buf (List.replicate n sectionPad) = ⟨buf, n, 0⟩ := by
    rw [sectionBufAdd, if_neg (by rw [h.finished]; simp)]
    simp only [h.count_eq, if_true, skipPadding_replicate, and_self, Nat.zero_add]
  rw [sectionBufAddTransportPayload, if_neg (by rw [h.finished]; simp)]
  cases hw : buf.waitPdu with
  | true => simp
  | false =>
    simp only [Bool.false_and, Bool.false_eq_true, if_false]
    rw [addFrom, List.drop_zero, hadd]
    simp

/-- Once a start was seen, a payload without one is handed to `section_buf_add` as it is. -/
theorem transportPayload_inside {used : ℕ} {st : ℤ} (hf : buf.finished = false) (hw : buf.waitPdu = false)
    (hst : 0 ≤ st) (hadd : sectionBufAdd buf payload = ⟨buf', used, st⟩) :
    sectionBufAddTransportPayload buf payload false = ⟨buf', used, st⟩ := by
  rw [sectionBufAddTransportPayload, if_neg (by rw [hf]; simp)]
  simp only [hw, Bool.false_and, Bool.false_eq_true, if_false]
  rw [addFrom, List.drop_zero, hadd, if_neg (not_lt.mpr hst), Nat.zero_add]

/-- With nothing pending, a start with pointer field 0 is a call on the bytes after the pointer
field by a buffer that no longer waits. -/
theorem transportPayload_start (h : Idle max buf) (body : List UInt8) :
    sectionBufAddTransportPayload buf (0 :: body) true
      = ⟨(sectionBufAddTransportPayload { buf with waitPdu := false } body false).buf,
          1 + (sectionBufAddTransportPayload { buf with waitPdu := false } body false).used,
          (sectionBufAddTransportPayload { buf with waitPdu := false } body false).status⟩ := by
  have hf : ¬ buf.finished = true := by rw [h.finished]; simp
  have hf' : ¬ ({ buf with waitPdu := false } : SectionBuf).finished = true := hf
  rw [sectionBufAddTransportPayload, sectionBufAddTransportPayload, if_neg hf, if_neg hf']
  simp [h.count_eq, addFrom]

theorem transportPayload_finish (h : Filled max buf s.bytes k) (hw : buf.waitPdu = false) (h0 : 0 < k)
    (hk : k < s.bytes.length) (hp : (s.bytes.drop k).length < 256) (body : List UInt8) :
    ∃ buf', sectionBufAddTransportPayload buf
        (UInt8.ofNat (s.bytes.drop k).length :: (s.bytes.drop k ++ body)) true
          = ⟨buf', 1 + (s.bytes.drop k).length, 1⟩ ∧
      Filled max buf' s.bytes s.bytes.length ∧ buf'.waitPdu = false := by
  obtain ⟨buf', hadd, hfill, hwait⟩ := sectionBufAdd_whole h hk []
  rw [List.append_nil] at hadd
  refine ⟨buf', ?_, hfill, hwait.trans hw⟩
  have hbuf : ({ buf with waitPdu := false } : SectionBuf) = buf := by
    rw [← hw]
  have hoff : (UInt8.ofNat (s.bytes.drop k).length).toNat = (s.bytes.drop k).length := by
    rw [UInt8.toNat_ofNat']
    exact Nat.mod_eq_of_lt hp
  have hrem : sectionBufRemaining buf' = 0 := by
    rw [sectionBufRemaining, hfill.len_eq, hfill.count_eq, if_pos s.hdr_le, sub_self]
  have hcount : buf.count ≠ 0 := by
    rw [h.count_eq]
    omega
  have hlong : ¬ (UInt8.ofNat (s.bytes.drop k).length :: (s.bytes.drop k ++ body)).length
      < (s.bytes.drop k).length + 1 := by
    rw [List.length_cons, List.length_append]
    omega
  rw [sectionBufAddTransportPayload, if_neg (by rw [h.finished hk]; simp)]
  simp only [Bool.not_true, Bool.and_false, Bool.false_eq_true, if_false, if_true, hbuf,
    List.headD_cons, hoff, if_neg hlong, if_pos hcount, List.drop_succ_cons, List.drop_zero,
    List.take_append_length, hadd, hrem, ne_eq, not_true_eq_false, or_self]

/-! ### The caller loop -/

def Holds (buf : SectionBuf) : Pending max → Prop
  | none => Idle max buf
  | some (s, k) => Filled max buf s.bytes k ∧ 0 < k ∧ k < s.bytes.length ∧ buf.waitPdu = false

/-- The events still owed: the section under way, then the sections after it. -/
def owed (pend : Pending max) (secs : List (PsiSection max)) : List Event :=
  match pend with
  | none => secs.map fun s => .complete s.bytes
  | some (t, _) => .complete t.bytes :: secs.map fun s => .complete s.bytes

theorem receivePayload_quiet (hn : payload.length ≤ n)
    (hcall : sectionBufAddTransportPayload buf payload false = ⟨buf', payload.length, 0⟩)
    (hnil : payload = [] → buf' = buf) : receivePayload n buf payload false = some (buf', []) := by
  cases payload with
  | nil => rw [receivePayload, hnil rfl]
  | cons b bs =>
    obtain ⟨n, rfl⟩ : ∃ n', n = n' + 1 := ⟨n - 1, by simp at hn; omega⟩
    rw [receivePayload, hcall]
    simp only [List.drop_length, zero_ne_one, if_false, lt_irrefl]
    rw [receivePayload]

theorem receivePayload_complete {used : ℕ} {pduStart : Bool} (hne : payload ≠ [])
    (hcall : sectionBufAddTransportPayload buf payload pduStart = ⟨buf', used, 1⟩)
    (hfill : Filled max buf' s.bytes s.bytes.length) :
    receivePayload (n + 1) buf payload pduStart
      = (receivePayload n (sectionBufReset buf') (payload.drop used) false).map
          fun p => (p.1, .complete s.bytes :: p.2) := by
  cases payload with
  | nil => exact absurd rfl hne
  | cons b bs =>
    rw [receivePayload, hcall]
    simp only [if_true, hfill.complete]

/-- **The body of a payload.**  From an idle buffer the loop turns the bytes from a section
boundary on into exactly the events of the sections they complete. -/
theorem receivePayload_body (hb : Body secs body pend secs') :
    ∀ (n : ℕ) (buf : SectionBuf), body.length ≤ n → Idle max buf → buf.waitPdu = false →
      ∃ buf' evs, receivePayload n buf body false = some (buf', evs) ∧ Holds buf' pend ∧
        owed none secs = evs ++ owed pend secs' := by
  induction hb with
  | padding secs m =>
    intro n buf hn hi _
    have hcall := transportPayload_padding hi m
    refine ⟨buf, [], receivePayload_quiet hn ?_ (fun _ => rfl), hi, rfl⟩
    rw [hcall, List.length_replicate]
  | cut s secs k h0 hk =>
    intro n buf hn hi hw
    obtain ⟨buf', hadd, hfill, hwait⟩ :=
      sectionBufAdd_part (m := k) (hi.filled s.bytes) (by omega)
    rw [List.drop_zero] at hadd
    rw [Nat.zero_add] at hfill
    have hlen : (s.bytes.take k).length = k := by
      rw [List.length_take]
      omega
    refine ⟨buf', [], receivePayload_quiet hn ?_ ?_, ⟨hfill, h0, hk, hwait.trans hw⟩, rfl⟩
    · rw [hlen]
      exact transportPayload_inside hi.finished hw le_rfl hadd
    · intro hnil
      rw [hnil] at hlen
      simp at hlen
      omega
  | @whole secs secs' body pend s _ ih =>
    intro n buf hn hi hw
    have hs := s.hdr_le
    have hpos : 0 < s.bytes.length := by
      rw [sectionHdrSize] at hs
      omega
    obtain ⟨buf', hadd, hfill, hwait⟩ := sectionBufAdd_whole (hi.filled s.bytes) hpos body
    rw [List.drop_zero] at hadd
    rw [List.length_append] at hn
    obtain ⟨n, rfl⟩ : ∃ n', n = n' + 1 := ⟨n - 1, by omega⟩
    have hcall := transportPayload_inside hi.finished hw zero_le_one hadd
    have hne : s.bytes ++ body ≠ [] := by
      intro hnil
      rw [(List.append_eq_nil_iff.mp hnil).1] at hpos
      simp at hpos
    obtain ⟨buf₂, evs, hrun, hholds, howed⟩ :=
      ih n (sectionBufReset buf') (by omega) hfill.reset (hwait.trans hw)
    refine ⟨buf₂, .complete s.bytes :: evs, ?_, hholds, ?_⟩
    · rw [receivePayload_complete hne hcall hfill, List.drop_append_length, hrun]
      rfl
    · rw [List.cons_append, ← howed]
      rfl

theorem receivePayload_start_idle (hi : Idle max buf) {b : UInt8} {bs : List UInt8} :
    receivePayload (n + 1) buf (0 :: b :: bs) true
      = receivePayload (n + 1) { buf with waitPdu := false } (b :: bs) false := by
  rw [receivePayload, transportPayload_start hi]
  simp only [Nat.add_comm 1, List.drop_succ_cons]
  rw [receivePayload]

theorem body_ne_nil (hb : Body secs body pend secs') (hlt : secs'.length < secs.length) : body ≠ [] := by
  intro hnil
  cases hb with
  | padding => omega
  | cut s secs k h0 hk =>
    have := congrArg List.length hnil
    rw [List.length_take, List.length_nil] at this
    omega
  | whole s _ =>
    have hs := s.hdr_le
    rw [(List.append_eq_nil_iff.mp hnil).1, sectionHdrSize, List.length_nil] at hs
    omega

theorem receivePayload_start {pend' : Pending max} (hp : pend.tail.length < 256) (hb : Body secs body pend' secs')
    (hlt : secs'.length < secs.length) (hh : Holds buf pend) :
    ∃ buf' evs, receivePayload (pend.tail.length + body.length + 1) buf
        (UInt8.ofNat pend.tail.length :: (pend.tail ++ body)) true = some (buf', evs) ∧
      Holds buf' pend' ∧ owed pend secs = evs ++ owed pend' secs' := by
  match pend with
  | none =>
    obtain ⟨b, bs, rfl⟩ := List.exists_cons_of_ne_nil (body_ne_nil hb hlt)
    have hi : Idle max { buf with waitPdu := false } := ⟨hh.max_eq, hh.count_eq, hh.header_eq, hh.len_eq⟩
    obtain ⟨buf', evs, hrun, hholds, howed⟩ :=
      receivePayload_body hb ((b :: bs).length + 1) _ (Nat.le_succ _) hi rfl
    refine ⟨buf', evs, ?_, hholds, howed⟩
    rw [← hrun]
    show receivePayload (0 + (b :: bs).length + 1) buf (0 :: b :: bs) true = _
    rw [Nat.zero_add, receivePayload_start_idle hh]
  | some (s, k) =>
    obtain ⟨hfill, h0, hk, hw⟩ := hh
    obtain ⟨buf₁, hcall, hfill₁, hw₁⟩ := transportPayload_finish hfill hw h0 hk hp body
    obtain ⟨buf', evs, hrun, hholds, howed⟩ :=
      receivePayload_body hb ((s.bytes.drop k).length + body.length) (sectionBufReset buf₁)
        (by omega) hfill₁.reset hw₁
    refine ⟨buf', .complete s.bytes :: evs, ?_, hholds, ?_⟩
    · show receivePayload ((s.bytes.drop k).length + body.length + 1) buf
        (UInt8.ofNat (s.bytes.drop k).length :: (s.bytes.drop k ++ body)) true = _
      rw [receivePayload_complete (List.cons_ne_nil _ _) hcall hfill₁, Nat.add_comm 1,
        List.drop_succ_cons, List.drop_append_length, hrun]
      rfl
    · rw [List.cons_append, ← howed]
      rfl

theorem receivePayload_part (hh : Holds buf (some (s, k))) (hkm : k + m < s.bytes.length) :
    ∃ buf', receivePayload ((s.bytes.drop k).take m).length buf ((s.bytes.drop k).take m) false
        = some (buf', []) ∧ Holds buf' (some (s, k + m)) := by
  obtain ⟨hfill, h0, hk, hw⟩ := hh
  cases m with
  | zero => exact ⟨buf, rfl, hfill, h0, hk, hw⟩
  | succ m =>
    obtain ⟨buf', hadd, hfill', hw'⟩ := sectionBufAdd_part hfill hkm
    have hlen : ((s.bytes.drop k).take (m + 1)).length = m + 1 := by
      rw [List.length_take, List.length_drop]
      omega
    refine ⟨buf', receivePayload_quiet le_rfl ?_ ?_, hfill', by omega, hkm, hw'.trans hw⟩
    · rw [hlen]
      exact transportPayload_inside (hfill.finished hk) hw le_rfl hadd
    · intro hnil
      rw [hnil, List.length_nil] at hlen
      omega

theorem receivePayload_last (hh : Holds buf (some (s, k))) (n : ℕ) :
    ∃ buf', receivePayload (s.bytes.drop k ++ List.replicate n sectionPad).length buf
        (s.bytes.drop k ++ List.replicate n sectionPad) false
          = some (buf', [.complete s.bytes]) ∧ Idle max buf' := by
  obtain ⟨hfill, h0, hk, hw⟩ := hh
  obtain ⟨buf₁, hadd, hfill₁, -⟩ := sectionBufAdd_whole hfill hk (List.replicate n sectionPad)
  have hcall := transportPayload_inside (hfill.finished hk) hw zero_le_one hadd
  have hidle : Idle max (sectionBufReset buf₁) := hfill₁.reset
  obtain ⟨c, hc⟩ : ∃ c, (s.bytes.drop k ++ List.replicate n sectionPad).length = c + 1 ∧ n ≤ c := by
    refine ⟨(s.bytes.drop k).length + n - 1, ?_, ?_⟩ <;>
      simp only [List.length_append, List.length_replicate, List.length_drop] <;> omega
  have hne : s.bytes.drop k ++ List.replicate n sectionPad ≠ [] := by
    intro hnil
    rw [hnil, List.length_nil] at hc
    omega
  have hrest : receivePayload c (sectionBufReset buf₁) (List.replicate n sectionPad) false
      = some (sectionBufReset buf₁, []) := by
    apply receivePayload_quiet _ _ (fun _ => rfl)
    · rw [List.length_replicate]
      exact hc.2
    · rw [transportPayload_padding hidle, List.length_replicate]
  refine ⟨sectionBufReset buf₁, ?_, hidle⟩
  rw [hc.1, receivePayload_complete hne hcall hfill₁, List.drop_append_length, hrest]
  rfl

/-- **The run lemma.**  Whatever is under way and whatever follows, the loop over the packets of a
legal packing yields exactly the events owed. -/
theorem receivePackets_packing {pkts : List Packet} (hp : Packing pend secs pkts) :
    ∀ buf : SectionBuf, Holds buf pend →
      ∃ buf', receivePackets buf pkts = some (buf', owed pend secs) := by
  induction hp with
  | done => intro buf _; exact ⟨buf, rfl⟩
  | @idle secs pkts n _ ih =>
    intro buf hh
    obtain ⟨buf', hrun⟩ := ih buf hh
    have hcall := transportPayload_padding hh n
    have hone : receivePayload (List.replicate n sectionPad).length buf
        (List.replicate n sectionPad) false = some (buf, []) := by
      apply receivePayload_quiet le_rfl _ (fun _ => rfl)
      rw [hcall, List.length_replicate]
    refine ⟨buf', ?_⟩
    rw [receivePackets, hone]
    simp only [Option.bind_eq_bind, Option.bind_some, hrun, List.nil_append]
    rfl
  | @middle secs pkts s k m hkm _ ih =>
    intro buf hh
    obtain ⟨buf₁, hone, hholds⟩ := receivePayload_part hh hkm
    obtain ⟨buf', hrun⟩ := ih buf₁ hholds
    refine ⟨buf', ?_⟩
    rw [receivePackets, hone]
    simp only [Option.bind_eq_bind, Option.bind_some, hrun, List.nil_append]
    rfl
  | @last secs pkts s k n _ ih =>
    intro buf hh
    obtain ⟨buf₁, hone, hidle⟩ := receivePayload_last hh n
    obtain ⟨buf', hrun⟩ := ih buf₁ hidle
    refine ⟨buf', ?_⟩
    rw [receivePackets, hone]
    simp only [Option.bind_eq_bind, Option.bind_some, hrun, List.singleton_append]
    rfl
  | @start secs secs' pkts body pend pend' hp hb hlt _ ih =>
    intro buf hh
    obtain ⟨buf₁, evs, hone, hholds, howed⟩ := receivePayload_start hp hb hlt hh
    obtain ⟨buf', hrun⟩ := ih buf₁ hholds
    refine ⟨buf', ?_⟩
    rw [receivePackets]
    simp only [List.length_cons, List.length_append, hone, Option.bind_eq_bind, Option.bind_some,
      hrun, howed]
    rfl

/-- **Section reassembly is a round trip.**  For every list of sections that fit the buffer and every legal packing of
them, the caller loop on a fresh buffer terminates on each payload and yields exactly those sections, in order, and no
error status. -/
theorem section_reassembly_round_trip (mem : SectionBuf) (max : ℕ)
    (hinit : (sectionBufInit mem max).1 = 0) (secs : List (PsiSection max)) (pkts : List Packet)
    (hp : Packing none secs pkts) :
    (receivePackets (sectionBufInit mem max).2 pkts).map Prod.snd
      = some (secs.map fun s => Event.complete s.bytes) := by
  have hmax : ¬ max < sectionHdrSize := by
    intro hlt
    rw [sectionBufInit, if_pos hlt] at hinit
    simp [einval] at hinit
  have hidle : Holds (sectionBufInit mem max).2 (none : Pending max) := by
    rw [sectionBufInit, if_neg hmax]
    exact ⟨rfl, rfl, rfl, rfl⟩
  obtain ⟨buf', hrun⟩ := receivePackets_packing hp _ hidle
  rw [hrun]
  rfl

def fiveByteSection : PsiSection 8 :=
  ⟨[0x42, 0xb0, 0x02, 0xaa, 0xff], by decide, by decide, by decide, by decide⟩

/-- Two copies of it over three packets: the first is cut inside its header, the second starts in
the packet that ends the first. -/
theorem fiveByteSection_packing : Packing none [fiveByteSection, fiveByteSection]
    [⟨true, [0x00, 0x42, 0xb0]⟩, ⟨true, [0x03, 0x02, 0xaa, 0xff, 0x42, 0xb0, 0x02, 0xaa]⟩,
      ⟨false, [0xff, 0xff, 0xff]⟩] :=
  Packing.start (by decide) (Body.cut fiveByteSection _ 2 (by decide) (by decide))
    (by decide)
    (Packing.start (by decide) (Body.cut fiveByteSection _ 4 (by decide) (by decide)) (by decide)
      (Packing.last fiveByteSection 4 2 Packing.done))

theorem section_reassembly_round_trip_cut :
    (sectionBufInit ⟨0, 0, 0, false, false, []⟩ 8).1 = 0 ∧
      (receivePackets (sectionBufInit ⟨0, 0, 0, false, false, []⟩ 8).2
        [⟨true, [0x00, 0x42, 0xb0]⟩, ⟨true, [0x03, 0x02, 0xaa, 0xff, 0x42, 0xb0, 0x02, 0xaa]⟩,
          ⟨false, [0xff, 0xff, 0xff]⟩]).map Prod.snd
        = some [.complete [0x42, 0xb0, 0x02, 0xaa, 0xff], .complete [0x42, 0xb0, 0x02, 0xaa, 0xff]] :=
  ⟨rfl, section_reassembly_round_trip _ 8 rfl _ _ fiveByteSection_packing⟩

end BgtDvb.Ucsi
