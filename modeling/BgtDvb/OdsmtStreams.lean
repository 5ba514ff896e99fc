import BgtDvb.AtscDcctSyntax
import BgtDvb.TableOverruns

/-!
# The streams of an object descriptor table

`mpeg_odsmt_section_codec` of `libucsi/mpeg/odsmt_section.c`, and the iterator over the streams and the accessor of the
object descriptors of its header.  A count of 0 stands for one stream without `fmc`; behind the streams the layout has
the object descriptors, up to the CRC.

* `odsmt_iff` — **PROVED**: this is so exactly for several streams with nothing behind them.
-/

namespace BgtDvb.Ucsi.Table.Odsmt

open BgtDvb.Walks
open BgtDvb.Words
open BgtDvb.Ucsi.Table.Dcct (Descriptors noDescriptors be_of_drop blockAt_of_drop dcc_count_lt)

/-! ### The layout -/

/-- A stream: what stands between its `esid` and its length, and its descriptors. -/
structure Entry where
  esid : UInt16
  front : List UInt8
  descriptors : Descriptors
  short : descriptors.bytes.length < 2 ^ 8

def Entry.header (e : Entry) : List UInt8 :=
  beBytes 2 e.esid.toNat ++ (e.front ++ [UInt8.ofNat e.descriptors.bytes.length])

def Entry.bytes (e : Entry) : List UInt8 := e.header ++ e.descriptors.bytes

/-- `struct mpeg_odsmt_stream_single` -/
structure SingleSyntax where
  esid : UInt16
  descriptors : Descriptors
  short : descriptors.bytes.length < 2 ^ 8

def SingleSyntax.entry (s : SingleSyntax) : Entry := ⟨s.esid, [], s.descriptors, s.short⟩

/-- `struct mpeg_odsmt_stream_multi` -/
structure MultiSyntax where
  esid : UInt16
  fmc : UInt8
  descriptors : Descriptors
  short : descriptors.bytes.length < 2 ^ 8

def MultiSyntax.entry (s : MultiSyntax) : Entry := ⟨s.esid, [s.fmc], s.descriptors, s.short⟩

/-- The streams: one without a count, or as many as a byte counts. -/
inductive StreamsSyntax
  | single (stream : SingleSyntax)
  | multi (streams : List MultiSyntax) (counted : 0 < streams.length ∧ streams.length < 2 ^ 8)

/-- `stream_count` -/
def StreamsSyntax.count : StreamsSyntax → ℕ
  | .single _ => 0
  | .multi streams _ => streams.length

def StreamsSyntax.entries : StreamsSyntax → List Entry
  | .single stream => [stream.entry]
  | .multi streams _ => streams.map MultiSyntax.entry

structure OdsmtSyntax where
  streams : StreamsSyntax
  objectDescriptors : List UInt8

/-- What stands between `struct section_ext` and the CRC. -/
def OdsmtSyntax.bytes (d : OdsmtSyntax) : List UInt8 :=
  UInt8.ofNat d.streams.count :: (d.streams.entries.flatMap Entry.bytes ++ d.objectDescriptors)

/-- A section that holds a table, as `section_ext_decode` leaves it. -/
structure IsSection (order : ByteOrder) (d : OdsmtSyntax) (buf : List UInt8) : Prop where
  length_eq : buf.length = lengthField order buf + 3
  parts : ∃ head crc, head.length = 8 ∧ crc.length = 4 ∧ buf = head ++ (d.bytes ++ crc)

/-! ### The iterator and the accessor -/

section Iterators

variable (order : ByteOrder) (buf : List UInt8)

def streamCount : ℕ := be buf 8 1

def streamSize : ℕ := if streamCount buf = 0 then 3 else 4

/-- `es_info_length`, the last byte in front of the descriptors. -/
def esInfoLength (stream : ℕ) : ℕ := if streamCount buf = 0 then be buf (stream + 2) 1 else be buf (stream + 3) 1

/-- `mpeg_odsmt_section_streams_first` -/
def streamsFirst : Option ℕ := if extLength order buf ≤ 9 then none else some 9

/-- `mpeg_odsmt_section_streams_next`, which always takes `pos` for one of several streams. -/
def streamsNext (pos idx : ℕ) : Option ℕ :=
  if streamCount buf < idx then none
  else if extLength order buf ≤ pos + 4 + be buf (pos + 3) 1 then none
  else some (pos + 4 + be buf (pos + 3) 1)

/-- `mpeg_odsmt_section_streams_for_each`; a byte counts the streams, and one more may come. -/
def streams : List ℕ := forEachList (streamsNext order buf) 257 0 (streamsFirst order buf)

/-- `mpeg_odsmt_stream_descriptors_first` -/
def streamDescriptorsFirst (stream : ℕ) : Option ℕ := descriptorsFirst (stream + streamSize buf) (esInfoLength buf stream)

/-- `mpeg_odsmt_stream_descriptors_next` -/
def streamDescriptorsNext (stream pos : ℕ) : Option ℕ :=
  nextDescriptor buf (stream + streamSize buf) (esInfoLength buf stream) pos

/-- The `size` of `mpeg_odsmt_section_object_descriptors`, where they start. -/
def objectDescriptorsAt : ℕ :=
  (streams order buf).foldl (fun size pos => size + (streamSize buf + esInfoLength buf pos)) 9

/-- `mpeg_odsmt_section_object_descriptors`: the position, and the length. -/
def objectDescriptors : ℕ × ℕ :=
  (objectDescriptorsAt order buf, sizeSub (extLength order buf) (objectDescriptorsAt order buf))

end Iterators

/-! ### A table that is parsed -/

/-- The stream at a position, as the host reads it, is inside the section. -/
structure EntryAt (order : ByteOrder) (buf : List UInt8) (pos : ℕ) (e : Entry) : Prop where
  esid_eq : host order buf pos 2 = e.esid.toNat
  front_eq : slice buf (pos + 2) e.front.length = e.front
  length_eq : esInfoLength buf pos = e.descriptors.bytes.length
  inside : pos + e.bytes.length ≤ extLength order buf
  descriptors : ∃ qs, ForEach (fun q _ => streamDescriptorsNext buf pos q) 0 (streamDescriptorsFirst buf pos) qs
    ∧ List.Forall₂ (fun q item => slice buf q item.length = item) qs e.descriptors.items

/-- **What a table should come to**: it is accepted, the iterator goes over its streams, and the accessor gives its
object descriptors and their length. -/
def Parsed (order : ByteOrder) (d : OdsmtSyntax) (buf : List UInt8) : Prop :=
  ∃ buf', (mpegOdsmtSectionCodec order).run buf = .ok ((), buf')
    ∧ (∃ ps, ForEach (streamsNext order buf') 0 (streamsFirst order buf') ps
        ∧ List.Forall₂ (EntryAt order buf') ps d.streams.entries)
    ∧ (objectDescriptors order buf').2 = d.objectDescriptors.length
    ∧ slice buf' (objectDescriptors order buf').1 d.objectDescriptors.length = d.objectDescriptors

def OdsmtSyntax.Closed (d : OdsmtSyntax) : Prop := 0 < d.streams.count ∧ d.objectDescriptors = []

/-! ### A byte among the words that are swapped -/

variable {buf : List UInt8} {d : OdsmtSyntax} {xs : List Block}

theorem reverseAt_byte {i : ℕ} (h : i + 1 ≤ buf.length) : reverseAt i 1 buf = buf := by
  obtain ⟨b, hb⟩ := List.length_eq_one_iff.mp (length_slice h)
  have hsplit : slice buf i 1 ++ buf.drop (i + 1) = buf.drop i := by
    rw [slice, ← List.drop_drop, List.take_append_drop]
  rw [reverseAt, hb, List.reverse_singleton, ← hb, hsplit, List.take_append_drop]

variable {order : ByteOrder}

theorem host_byte (order : ByteOrder) (buf : List UInt8) (i : ℕ) : host order buf i 1 = be buf i 1 := by
  cases order with
  | big => rfl
  | little =>
    unfold host be value slice
    rcases buf.drop i with _ | ⟨b, rest⟩
    · rfl
    · rfl

/-- `struct mpeg_odsmt_stream_multi`, its length among the words that are swapped. -/
def streamHeader : Header := ⟨4, [(0, 2), (3, 1)], (3, 1), 8⟩

theorem streamHeader_wf : streamHeader.Wf := ⟨by decide, by decide, by decide⟩

theorem swapped_streamHeader (order : ByteOrder) {pos : ℕ} (h : pos + 4 ≤ buf.length) :
    swapped order (shift pos streamHeader.fields) buf = swapped order (shift pos odsmtHeader.fields) buf := by
  have hword : pos + 0 + 2 ≤ buf.length := by omega
  have hapart : Apart (pos + 0) (pos + 0 + 2) (shift pos odsmtHeader.fields) := ⟨le_rfl, le_rfl⟩
  have hlen := (swapped_keeps order hapart hword).1
  have hfields : shift pos streamHeader.fields = shift pos odsmtHeader.fields ++ [(pos + 3, 1)] := rfl
  rw [hfields, swapped_append]
  cases order with
  | big => rfl
  | little => exact reverseAt_byte (by omega)

theorem block_streamHeader (order : ByteOrder) {len : ℕ} (pos : ℕ) (hlen : len ≤ buf.length) :
    (block order odsmtHeader len pos).run buf = (block order streamHeader len pos).run buf := by
  unfold block
  by_cases hroom : pos + odsmtHeader.size ≤ len
  · have hroom' : pos + streamHeader.size ≤ len := hroom
    have hapart : Apart 0 odsmtHeader.size odsmtHeader.fields := by decide
    have hrun : (bswapAll order pos odsmtHeader.fields).run buf = _ := bswapAll_run hapart (hroom.trans hlen)
    have hrun' : (bswapAll order pos streamHeader.fields).run buf = _ :=
      bswapAll_run streamHeader_wf.apart (hroom'.trans hlen)
    rw [swapped_streamHeader order (hroom.trans hlen)] at hrun'
    rw [run_bind_ok (run_require hroom buf), run_bind_ok (run_require hroom' buf), run_bind_ok hrun, run_bind_ok hrun']
    rfl
  · have hroom' : ¬ pos + streamHeader.size ≤ len := hroom
    rw [run_bind_error (run_require_not hroom buf), run_bind_error (run_require_not hroom' buf)]

/-- **The loop over several streams.** -/
theorem takes_stream (order : ByteOrder) {n len : ℕ} (hlen : len ≤ n) :
    Takes n len (block order odsmtHeader len) (BlockAt streamHeader) fun x => swapped order (x.fields streamHeader) :=
  (takes_block order streamHeader_wf hlen).congr fun hbuf pos => block_streamHeader order pos (hbuf.symm ▸ hlen)

/-! ### What stands in a section -/

theorem Entry.length_header (e : Entry) : e.header.length = 3 + e.front.length := by
  rw [Entry.header, List.length_append, List.length_append, length_beBytes, List.length_singleton]
  omega

theorem Entry.at_of_drop (e : Entry) (hfront : e.front.length = 1) {rest : List UInt8} {a : ℕ}
    (hdrop : buf.drop a = e.bytes ++ rest) : ∃ x, BlockAt streamHeader buf a (a + e.bytes.length) x := by
  refine blockAt_of_drop (by rw [e.length_header, hfront]; rfl) (by decide) ?_ hdrop
  have hfirst : (beBytes 2 e.esid.toNat ++ e.front).length = 3 := by
    rw [List.length_append, length_beBytes, hfront]
  have hbehind : e.header.drop 3 = [UInt8.ofNat e.descriptors.bytes.length] := by
    rw [Entry.header, ← List.append_assoc]
    exact List.drop_left' hfirst
  show beNat ((e.header.drop 3).take 1) % 2 ^ 8 = e.descriptors.bytes.length
  rw [hbehind, List.take_succ_cons, List.take_zero, beNat_single, UInt8.toNat_ofNat', Nat.mod_mod]
  exact Nat.mod_eq_of_lt e.short

theorem StreamsSyntax.count_lt (s : StreamsSyntax) : s.count < 2 ^ 8 := by
  cases s with
  | single stream => exact Nat.two_pow_pos 8
  | multi streams counted => exact counted.2

/-- Where the parts of a section stand. -/
structure Layout (order : ByteOrder) (d : OdsmtSyntax) (buf : List UInt8) : Prop where
  whole : Whole order buf
  count_eq : be buf 8 1 = d.streams.count
  parts : ∃ crc, buf.drop 9 = d.streams.entries.flatMap Entry.bytes ++ (d.objectDescriptors ++ crc)
  length_eq : buf.length = 9 + (d.streams.entries.flatMap Entry.bytes).length + d.objectDescriptors.length + 4

theorem layout_of_isSection (h : IsSection order d buf) : Layout order d buf := by
  obtain ⟨head, crc, hhead, hcrc, hbuf⟩ := h.parts
  have hdrop : buf.drop 8 = d.bytes ++ crc := by rw [hbuf, ← hhead, List.drop_left]
  have hlen : buf.length = 9 + (d.streams.entries.flatMap Entry.bytes).length + d.objectDescriptors.length + 4 := by
    rw [hbuf, List.length_append, List.length_append, hhead, hcrc, OdsmtSyntax.bytes, List.length_cons,
      List.length_append]
    omega
  have hfield := h.length_eq
  rw [OdsmtSyntax.bytes, List.cons_append, List.append_assoc] at hdrop
  exact ⟨⟨hfield, by omega⟩, be_of_drop d.streams.count_lt hdrop, ⟨crc, Dcct.drop_of_cons hdrop⟩, hlen⟩

/-- **The single form is never accepted**: its end must stand in front of the CRC, and then at it. -/
theorem single_not_accepted (h : Whole order buf) (hcount : be buf 8 1 = 0) {r : Unit × List UInt8} :
    (mpegOdsmtSectionCodec order).run buf ≠ .ok r := by
  intro hrun
  rw [mpegOdsmtSectionCodec, run_bind_ok h.sectionExtLength_run] at hrun
  obtain ⟨-, hrest⟩ := require_bind_ok_iff.mp hrun
  obtain ⟨-, hrest⟩ := read_bind_ok_iff.mp hrest
  obtain ⟨pos, buf₁, hstreams, hrequire⟩ := bind_ok_iff.mp hrest
  obtain ⟨hend, -⟩ := require_ok_iff.mp hrequire
  have hzero : beNat (slice buf 8 1) = 0 := hcount
  rw [odsmtStreams, if_pos hzero] at hstreams
  obtain ⟨_, _, -, hstreams⟩ := bind_ok_iff.mp hstreams
  obtain ⟨_, _, -, hstreams⟩ := bind_ok_iff.mp hstreams
  obtain ⟨_, _, -, hstreams⟩ := bind_ok_iff.mp hstreams
  obtain ⟨_, _, hrequire, hstreams⟩ := bind_ok_iff.mp hstreams
  obtain ⟨hbefore, -⟩ := require_ok_iff.mp hrequire
  obtain ⟨_, _, -, hpure⟩ := bind_ok_iff.mp hstreams
  cases hpure
  omega

/-- The entry of one of several streams stands behind the front of a record. -/
def Stands (sent : List UInt8) (x : Block) (e : Entry) : Prop :=
  e.front.length = 1 ∧ ∃ rest, sent.drop x.pos = e.bytes ++ rest

/-- **Several streams** where they stand. -/
theorem Layout.blocks (h : Layout order d buf) (hfront : ∀ e ∈ d.streams.entries, e.front.length = 1) :
    ∃ xs, Tiles (BlockAt streamHeader buf) 9 (9 + (d.streams.entries.flatMap Entry.bytes).length) xs
      ∧ List.Forall₂ (Stands buf) xs d.streams.entries := by
  obtain ⟨crc, hdrop⟩ := h.parts
  refine (tiles_written Entry.bytes hdrop).matched fun i j e he hwritten => ?_
  obtain ⟨rfl, rest, hrest⟩ := hwritten
  obtain ⟨x, hx⟩ := e.at_of_drop (hfront e he) hrest
  exact ⟨x, hx, hfront e he, rest, hx.pos_eq.symm ▸ hrest⟩

/-- **Several streams are accepted** exactly if nothing stands behind them. -/
theorem Layout.multi_ok_iff (h : Layout order d buf) (hsome : 0 < d.streams.count)
    (hcount : d.streams.entries.length = d.streams.count)
    (hxs : Tiles (BlockAt streamHeader buf) 9 (9 + (d.streams.entries.flatMap Entry.bytes).length) xs)
    (hlength : xs.length = d.streams.entries.length) {buf' : List UInt8} :
    (mpegOdsmtSectionCodec order).run buf = .ok ((), buf') ↔
      d.objectDescriptors = [] ∧ buf' = effects (fun x => swapped order (x.fields streamHeader)) xs buf := by
  have hlen := h.length_eq
  have hsize : 9 ≤ buf.length - 4 := by omega
  have hread : 8 + 1 ≤ buf.length := by omega
  have hstop : buf.length - 4 ≤ buf.length := Nat.sub_le _ _
  have hmany : ¬ beNat (slice buf 8 1) = 0 := by
    rw [← be, h.count_eq]
    exact Nat.ne_of_gt hsome
  have hinside : 9 + (d.streams.entries.flatMap Entry.bytes).length ≤ buf.length - 4 := by omega
  have hloop := ((takes_stream order hstop).times_iff (beNat (slice buf 8 1)) rfl hinside
    (r := (_, effects (fun x => swapped order (x.fields streamHeader)) xs buf))).mpr
      ⟨xs, hlength.trans (hcount.trans h.count_eq.symm), hxs, rfl⟩
  rw [mpegOdsmtSectionCodec, run_bind_ok h.whole.sectionExtLength_run, run_bind_ok (run_require hsize buf),
    run_bind_ok (read_ok_iff.mpr ⟨hread, rfl⟩), odsmtStreams, if_neg hmany, run_bind_ok hloop, require_ok_iff]
  constructor
  · rintro ⟨hend, heq⟩
    refine ⟨List.eq_nil_of_length_eq_zero ?_, (Prod.mk.inj heq).2⟩
    omega
  · rintro ⟨hnone, rfl⟩
    rw [hnone, List.length_nil] at hlen
    exact ⟨by omega, rfl⟩

/-! ### What the iterator and the accessor come to -/

/-- A section of several streams when the codec has left it. -/
structure Left (order : ByteOrder) (sent buf : List UInt8) (xs : List Block) : Prop where
  length_eq : extLength order buf = sent.length - 4
  count_eq : streamCount buf = xs.length
  nonempty : 0 < xs.length
  tiles : Tiles (BlockDone order streamHeader sent buf) 9 (sent.length - 4) xs

section Left

variable {sent buf : List UInt8} {xs : List Block}

theorem blockDone_stop {a b : ℕ} {x : Block} (hx : BlockDone order streamHeader sent buf a b x) :
    b = x.pos + 4 + be buf (x.pos + 3) 1 := by
  have hend := hx.stop_eq
  have hbyte := host_byte order buf (a + 3)
  have hlt : be buf (a + 3) 1 < 2 ^ 8 := dcc_count_lt buf (a + 3)
  rw [hx.pos_eq]
  show b = a + 4 + be buf (a + 3) 1
  rw [hend]
  show a + 4 + host order buf (a + 3) 1 % 2 ^ 8 = _
  rw [hbyte, Nat.mod_eq_of_lt hlt]

theorem Left.streamSize_eq (h : Left order sent buf xs) : streamSize buf = 4 := by
  have hcount := h.count_eq
  have hsome := h.nonempty
  exact if_neg (by omega)

theorem Left.esInfoLength_eq (h : Left order sent buf xs) (stream : ℕ) :
    esInfoLength buf stream = be buf (stream + 3) 1 := by
  have hcount := h.count_eq
  have hsome := h.nonempty
  exact if_neg (by omega)

/-- **The iterator** goes over the streams. -/
theorem Left.forEach (h : Left order sent buf xs) :
    ForEach (streamsNext order buf) 0 (streamsFirst order buf) (xs.map Block.pos) := by
  have hforward : ∀ {i j : ℕ} {x : Block}, BlockDone order streamHeader sent buf i j x → x.pos = i ∧ i < j := by
    intro i j x hx
    have hend := blockDone_stop hx
    have hpos := hx.pos_eq
    exact ⟨hpos, by omega⟩
  have hnext : ∀ {i j : ℕ} {x : Block} (_ : ℕ), BlockDone order streamHeader sent buf i j x →
      (fun pos (_ : ℕ) => if sent.length - 4 ≤ pos + 4 + be buf (pos + 3) 1 then none
        else some (pos + 4 + be buf (pos + 3) 1)) i 0 = if sent.length - 4 ≤ j then none else some j := by
    intro i j x _ hx
    have hend := blockDone_stop hx
    rw [hx.pos_eq] at hend
    rw [hend]
  have hfor := (h.tiles.forEach_below Block.pos _ hforward (fun idx hx => hnext idx hx) 0).2
  have hfirst : streamsFirst order buf = if sent.length - 4 ≤ 9 then none else some 9 := by
    rw [streamsFirst, h.length_eq]
  rw [hfirst]
  refine @ForEach.congr_upto _ _ _ xs.length _ _ hfor ?_ fun pos k hk => ?_
  · rw [List.length_map, Nat.zero_add]
  · have hcounted : ¬ streamCount buf < k := by
      rw [h.count_eq]
      exact Nat.not_lt.mpr hk
    rw [streamsNext, if_neg hcounted, h.length_eq]

/-- **The accessor** finds nothing behind the streams. -/
theorem Left.objectDescriptors_eq (h : Left order sent buf xs) (hsize : sent.length - 4 < 2 ^ 64) :
    objectDescriptors order buf = (sent.length - 4, 0) := by
  have hshort : (xs.map Block.pos).length ≤ 257 := by
    have hlt := dcc_count_lt buf 8
    rw [List.length_map, ← h.count_eq]
    exact hlt.le.trans (by decide)
  have hstreams : streams order buf = xs.map Block.pos := h.forEach.list_eq hshort
  have hend : objectDescriptorsAt order buf = sent.length - 4 := by
    rw [objectDescriptorsAt, hstreams]
    have hfold : 0 + (xs.map Block.pos).foldl (fun size pos => size + (streamSize buf + esInfoLength buf pos)) 9
        = sent.length - 4 :=
      h.tiles.foldl_eq (fun {i j k x} hx hk => by
        have hstop := blockDone_stop hx
        have hpos := hx.pos_eq
        rw [h.streamSize_eq, h.esInfoLength_eq, hstop]
        omega) rfl
    rwa [Nat.zero_add] at hfold
  rw [objectDescriptors, hend, h.length_eq, sizeSub]
  exact Prod.ext rfl (by show (sent.length - 4 + (2 ^ 64 - (sent.length - 4))) % 2 ^ 64 = 0; omega)

theorem Entry.drops (e : Entry) (hfront : e.front.length = 1) {rest : List UInt8} {a : ℕ}
    (hdrop : sent.drop a = e.bytes ++ rest) :
    slice sent a 2 = beBytes 2 e.esid.toNat ∧ slice sent (a + 2) 1 = e.front
      ∧ be sent (a + 3) 1 = e.descriptors.bytes.length
      ∧ slice sent (a + 4) e.descriptors.bytes.length = e.descriptors.bytes := by
  rw [Entry.bytes, Entry.header, List.append_assoc, List.append_assoc, List.append_assoc] at hdrop
  have hfrontDrop := drop_of_append hdrop
  rw [length_beBytes] at hfrontDrop
  have hlengthDrop := drop_of_append hfrontDrop
  rw [hfront] at hlengthDrop
  have hbehind := Dcct.drop_of_cons hlengthDrop
  refine ⟨?_, ?_, be_of_drop e.short hlengthDrop, ?_⟩
  · rw [slice, hdrop]
    exact List.take_left' (length_beBytes 2 _)
  · rw [slice, hfrontDrop]
    exact List.take_left' hfront
  · rw [slice, hbehind]
    exact List.take_left

/-- **A stream that the iterator comes to** is one that was written. -/
theorem Left.entryAt (h : Left order sent buf xs) {x : Block} {e : Entry} {j : ℕ} (hj : j ≤ sent.length - 4)
    (hx : BlockDone order streamHeader sent buf x.pos j x) (he : Stands sent x e) : EntryAt order buf x.pos e := by
  obtain ⟨hfront, rest, hdrop⟩ := he
  obtain ⟨hesid, hfrontAt, hlength, hbytes⟩ := e.drops hfront hdrop
  have hesidAt : host order buf (x.pos + 0) 2 = be sent (x.pos + 0) 2 := hx.fields (0, 2) (by decide)
  have hlengthAt : host order buf (x.pos + 3) 1 = be sent (x.pos + 3) 1 := hx.fields (3, 1) (by decide)
  rw [host_byte, hlength] at hlengthAt
  have hend := blockDone_stop hx
  rw [hlengthAt] at hend
  have hsize : e.bytes.length = 4 + e.descriptors.bytes.length := by
    rw [Entry.bytes, List.length_append, e.length_header, hfront]
  have hinfo : esInfoLength buf x.pos = e.descriptors.bytes.length := (h.esInfoLength_eq x.pos).trans hlengthAt
  refine ⟨?_, ?_, hinfo, ?_, ?_⟩
  · refine hesidAt.trans ?_
    show beNat (slice sent x.pos 2) = e.esid.toNat
    rw [hesid]
    exact beNat_beBytes e.esid.toNat_lt
  · rw [hfront, hx.others 2 1 (by decide) (by decide)]
    exact hfrontAt
  · rw [h.length_eq]
    omega
  · have hpayload : slice buf (x.pos + 4) e.descriptors.bytes.length = e.descriptors.bytes :=
      (hx.payload (x.pos + 4) _ le_rfl hend.ge).trans hbytes
    obtain ⟨qs, hqs, hall⟩ := e.descriptors.iterated hpayload
    refine ⟨qs, ?_, hall⟩
    unfold streamDescriptorsNext streamDescriptorsFirst
    rw [hinfo, h.streamSize_eq]
    exact hqs

end Left

theorem Layout.left (h : Layout order d buf) (hnone : d.objectDescriptors = []) (hsome : 0 < d.streams.count)
    (hcount : d.streams.entries.length = d.streams.count)
    (hxs : Tiles (BlockAt streamHeader buf) 9 (9 + (d.streams.entries.flatMap Entry.bytes).length) xs)
    (hlength : xs.length = d.streams.entries.length) :
    Left order buf (effects (fun x => swapped order (x.fields streamHeader)) xs buf) xs := by
  have hlen := h.length_eq
  rw [hnone, List.length_nil] at hlen
  have hend : 9 + (d.streams.entries.flatMap Entry.bytes).length = buf.length - 4 := by omega
  have hstop : buf.length - 4 ≤ buf.length := Nat.sub_le _ _
  rw [hend] at hxs
  obtain ⟨-, hfront, -⟩ := (takes_block order streamHeader_wf hstop).effects_keeps rfl le_rfl hxs
  refine ⟨?_, ?_, ?_, blocksDone streamHeader_wf hstop rfl le_rfl rfl hxs⟩
  · rw [extLength_eq_of_take (take_eq_of_le hfront (by decide)), extLength_eq h.whole.length_eq h.whole.length_pos]
  · have hsame : be (effects (fun x => swapped order (x.fields streamHeader)) xs buf) 8 1 = be buf 8 1 :=
      congrArg beNat (slice_eq_of_take hfront le_rfl)
    exact hsame.trans (h.count_eq.trans (hcount.symm.trans hlength.symm))
  · rw [hlength, hcount]
    exact hsome

theorem Left.parsed {sent : List UInt8} (h : Left order sent buf xs) (hwhole : Whole order sent)
    (hnone : d.objectDescriptors = []) (hstands : List.Forall₂ (Stands sent) xs d.streams.entries) :
    (∃ ps, ForEach (streamsNext order buf) 0 (streamsFirst order buf) ps
        ∧ List.Forall₂ (EntryAt order buf) ps d.streams.entries)
      ∧ (objectDescriptors order buf).2 = d.objectDescriptors.length
      ∧ slice buf (objectDescriptors order buf).1 d.objectDescriptors.length = d.objectDescriptors := by
  have hsize : sent.length - 4 < 2 ^ 64 := by
    have hlen := hwhole.length_eq
    have hlt : lengthField order sent < 2 ^ 12 := Nat.mod_lt _ (by decide)
    omega
  have hdone : ∀ x ∈ xs, ∃ j, j ≤ sent.length - 4 ∧ BlockDone order streamHeader sent buf x.pos j x := by
    intro x hx
    have hforward : ∀ {i j : ℕ} {x : Block}, BlockDone order streamHeader sent buf i j x → i ≤ j := by
      intro i j x hx
      have hend := blockDone_stop hx
      have hpos := hx.pos_eq
      omega
    obtain ⟨i, j, -, hj, hblock⟩ := h.tiles.of_mem hforward hx
    exact ⟨j, hj, hblock.pos_eq ▸ hblock⟩
  rw [h.objectDescriptors_eq hsize, hnone]
  refine ⟨⟨xs.map Block.pos, h.forEach, ?_⟩, rfl, rfl⟩
  rw [List.forall₂_map_left_iff]
  refine ((List.forall₂_and_left _ _).mpr ⟨hdone, hstands⟩).imp fun {x e} hboth => ?_
  obtain ⟨⟨j, hj, hx⟩, he⟩ := hboth
  exact h.entryAt hj hx he

theorem OdsmtSyntax.entries_of_count (hsome : 0 < d.streams.count) :
    (∀ e ∈ d.streams.entries, e.front.length = 1) ∧ d.streams.entries.length = d.streams.count := by
  obtain ⟨streams, objectDescriptors⟩ := d
  cases streams with
  | single stream => exact absurd hsome (lt_irrefl 0)
  | multi streams counted =>
    refine ⟨fun e he => ?_, List.length_map _⟩
    obtain ⟨s, -, rfl⟩ := List.mem_map.mp he
    rfl

/-- **ODSMT.**  A section made by the layout is accepted, and the iterator and the accessor come to its streams and
its object descriptors, exactly if it has several streams and no object descriptors. -/
theorem odsmt_iff (order : ByteOrder) (d : OdsmtSyntax) {buf : List UInt8} (h : IsSection order d buf) :
    Parsed order d buf ↔ d.Closed := by
  have hlayout := layout_of_isSection h
  constructor
  · rintro ⟨buf', hrun, -⟩
    rcases Nat.eq_zero_or_pos d.streams.count with hzero | hsome
    · exact absurd hrun (single_not_accepted hlayout.whole (hlayout.count_eq.trans hzero))
    · obtain ⟨hfront, hcount⟩ := OdsmtSyntax.entries_of_count hsome
      obtain ⟨xs, hxs, hstands⟩ := hlayout.blocks hfront
      exact ⟨hsome, ((hlayout.multi_ok_iff hsome hcount hxs hstands.length_eq).mp hrun).1⟩
  · rintro ⟨hsome, hnone⟩
    obtain ⟨hfront, hcount⟩ := OdsmtSyntax.entries_of_count hsome
    obtain ⟨xs, hxs, hstands⟩ := hlayout.blocks hfront
    have hleft := hlayout.left hnone hsome hcount hxs hstands.length_eq
    refine ⟨_, (hlayout.multi_ok_iff hsome hcount hxs hstands.length_eq).mpr ⟨hnone, rfl⟩, ?_⟩
    exact hleft.parsed hlayout.whole hnone hstands

def plainStream : MultiSyntax := ⟨0x0101, 0x02, noDescriptors, by decide⟩

/-- A table of two streams, as `section_ext_decode` leaves it on a little-endian host. -/
def twoStreams : List UInt8 :=
  [0x05, 0x12, 0xb0, 0x01, 0x00, 0xc1, 0x00, 0x00, 0x02, 0x01, 0x01, 0x02, 0x00, 0x01, 0x01, 0x02, 0x00, 0xaa, 0xbb,
    0xcc, 0xdd]

def twoStreamsSyntax : OdsmtSyntax := ⟨.multi [plainStream, plainStream] (by decide), []⟩

theorem odsmt_iff_twoStreams : IsSection .little twoStreamsSyntax twoStreams ∧
    (Parsed .little twoStreamsSyntax twoStreams ↔ twoStreamsSyntax.Closed) :=
  have h : IsSection .little twoStreamsSyntax twoStreams :=
    ⟨by decide, [0x05, 0x12, 0xb0, 0x01, 0x00, 0xc1, 0x00, 0x00], [0xaa, 0xbb, 0xcc, 0xdd], rfl, rfl, by decide⟩
  ⟨h, odsmt_iff .little twoStreamsSyntax h⟩

/-- A table of one stream with an object descriptor of two bytes. -/
def trailing : List UInt8 :=
  [0x05, 0x10, 0xb0, 0x01, 0x00, 0xc1, 0x00, 0x00, 0x01, 0x01, 0x01, 0x02, 0x00, 0x07, 0x00, 0xaa, 0xbb, 0xcc, 0xdd]

def trailingSyntax : OdsmtSyntax := ⟨.multi [plainStream] (by decide), [0x07, 0x00]⟩

def single : List UInt8 :=
  [0x05, 0x0d, 0xb0, 0x01, 0x00, 0xc1, 0x00, 0x00, 0x00, 0x01, 0x01, 0x00, 0xaa, 0xbb, 0xcc, 0xdd]

def singleSyntax : OdsmtSyntax := ⟨.single ⟨0x0101, noDescriptors, by decide⟩, []⟩

theorem refused_of_run (h : (mpegOdsmtSectionCodec order).run buf = .error .refused) : ¬ Parsed order d buf := by
  rintro ⟨buf', hrun, -⟩
  rw [h] at hrun
  cases hrun

/-- The object descriptors of the layout make the codec give the section up, and so does the single form. -/
theorem not_parsed_trailing :
    (IsSection .little trailingSyntax trailing ∧ ¬ Parsed .little trailingSyntax trailing)
      ∧ IsSection .little singleSyntax single ∧ ¬ Parsed .little singleSyntax single := by
  refine ⟨⟨⟨by decide, ?_⟩, refused_of_run (by decide +kernel)⟩, ⟨by decide, ?_⟩, refused_of_run (by decide +kernel)⟩
  · exact ⟨[0x05, 0x10, 0xb0, 0x01, 0x00, 0xc1, 0x00, 0x00], [0xaa, 0xbb, 0xcc, 0xdd], rfl, rfl, by decide⟩
  · exact ⟨[0x05, 0x0d, 0xb0, 0x01, 0x00, 0xc1, 0x00, 0x00], [0xaa, 0xbb, 0xcc, 0xdd], rfl, rfl, by decide⟩

end BgtDvb.Ucsi.Table.Odsmt
