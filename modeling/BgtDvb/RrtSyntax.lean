import BgtDvb.AtscTextSyntax

/-!
# Rating region tables

`atsc_rrt_section_codec` of `libucsi/atsc/rrt_section.c`, and the iterators and part accessors of its header: dimensions
of values with their texts, and descriptors behind all of them.  The codec checks everything and swaps nothing, so that
the host reads the length of the descriptors as it was sent.

* `rrt_iff` — **PROVED**: this is so exactly where the length of the descriptors is the same with its bytes turned
  round.
-/

namespace BgtDvb.Ucsi.Table.Rrt

open BgtDvb.Walks
open BgtDvb.Words
open BgtDvb.Ucsi.Table.Dcct (Descriptors be_of_drop drop_of_cons dcc_count_lt)

/-! ### The syntax -/

/-- `struct atsc_rrt_dimension_value` and its second part -/
structure ValueSyntax where
  abbrevRatingValue : Name
  ratingValue : Name

def ValueSyntax.bytes (v : ValueSyntax) : List UInt8 := v.abbrevRatingValue.counted ++ v.ratingValue.counted

/-- `struct atsc_rrt_dimension` and its second part -/
structure DimensionSyntax where
  dimensionName : Name
  reserved : Fin 8
  graduatedScale : Fin 2
  values : List ValueSyntax
  short : values.length < 2 ^ 4

/-- The byte with `values_defined`. -/
def DimensionSyntax.scale (d : DimensionSyntax) : ℕ := d.reserved * 2 ^ 5 + d.graduatedScale * 2 ^ 4 + d.values.length

def DimensionSyntax.bytes (d : DimensionSyntax) : List UInt8 :=
  d.dimensionName.counted ++ (UInt8.ofNat d.scale :: d.values.flatMap ValueSyntax.bytes)

structure RrtSyntax where
  protocolVersion : UInt8
  ratingRegionName : Name
  dimensions : List DimensionSyntax
  short : dimensions.length < 2 ^ 8
  descriptors : Descriptors

/-- What stands between `struct section_ext` and the CRC; the bits in front of the last length are set. -/
def RrtSyntax.bytes (d : RrtSyntax) : List UInt8 :=
  d.protocolVersion :: (d.ratingRegionName.counted ++ (UInt8.ofNat d.dimensions.length ::
    (d.dimensions.flatMap DimensionSyntax.bytes ++ (d.descriptors.lengthWord (Fin.last 63) ++ d.descriptors.bytes))))

/-- A section that holds a table, as `section_ext_decode` leaves it on a little-endian host. -/
structure IsSection (d : RrtSyntax) (buf : List UInt8) : Prop where
  length_eq : buf.length = lengthField .little buf + 3
  parts : ∃ head crc, head.length = 8 ∧ crc.length = 4 ∧ buf = head ++ (d.bytes ++ crc)

/-! ### The iterators and accessors -/

section Iterators

variable (buf : List UInt8)

/-- `atsc_rrt_section_part2` -/
def part2 : ℕ := 10 + be buf 9 1

def dimensionsDefined (part2 : ℕ) : ℕ := be buf part2 1

/-- `atsc_rrt_dimension_part2` -/
def dimensionPart2 (dimension : ℕ) : ℕ := dimension + 1 + be buf dimension 1

/-- `values_defined`, four bits. -/
def valuesDefined (part2 : ℕ) : ℕ := be buf part2 1 % 2 ^ 4

/-- `atsc_rrt_dimension_value_part2` -/
def valuePart2 (value : ℕ) : ℕ := value + 1 + be buf value 1

/-- `atsc_rrt_dimension_part2_values_first` -/
def valuesFirst (part2 : ℕ) : Option ℕ := if valuesDefined buf part2 = 0 then none else some (part2 + 1)

/-- `atsc_rrt_dimension_part2_values_next` -/
def valuesNext (part2 pos idx : ℕ) : Option ℕ :=
  if valuesDefined buf part2 ≤ idx then none else some (valuePart2 buf pos + (1 + be buf (valuePart2 buf pos) 1))

/-- `atsc_rrt_dimension_part2_values_for_each`; four bits count the values. -/
def values (part2 : ℕ) : List ℕ := forEachList (valuesNext buf part2) 16 0 (valuesFirst buf part2)

/-- The loops over the values in `atsc_rrt_section_dimensions_next` and `atsc_rrt_section_part3`. -/
def skipValues (part2 len : ℕ) : ℕ :=
  (values buf part2).foldl (fun len value => len + 1 + be buf value 1 + 1 + be buf (valuePart2 buf value) 1) len

/-- `atsc_rrt_section_dimensions_first` -/
def dimensionsFirst (part2 : ℕ) : Option ℕ := if dimensionsDefined buf part2 = 0 then none else some (part2 + 1)

/-- `atsc_rrt_section_dimensions_next` -/
def dimensionsNext (part2 pos idx : ℕ) : Option ℕ :=
  if dimensionsDefined buf part2 ≤ idx then none
  else some (dimensionPart2 buf pos + skipValues buf (dimensionPart2 buf pos) 1)

/-- `atsc_rrt_section_dimensions_for_each`; a byte counts the dimensions. -/
def dimensions (part2 : ℕ) : List ℕ := forEachList (dimensionsNext buf part2) 256 0 (dimensionsFirst buf part2)

/-- `atsc_rrt_section_part3` -/
def part3 (part2 : ℕ) : ℕ :=
  part2 + (dimensions buf part2).foldl
    (fun pos dimension => skipValues buf (dimensionPart2 buf dimension) (pos + 1 + be buf dimension 1 + 1)) 1

/-- `descriptors_length` as the host reads it. -/
def part3Length (part3 : ℕ) : ℕ := host .little buf part3 2 % 2 ^ 10

/-- `atsc_rrt_section_part3_descriptors_first` -/
def part3DescriptorsFirst (part3 : ℕ) : Option ℕ := descriptorsFirst (part3 + 2) (part3Length buf part3)

/-- `atsc_rrt_section_part3_descriptors_next` -/
def part3DescriptorsNext (part3 pos : ℕ) : Option ℕ := nextDescriptor buf (part3 + 2) (part3Length buf part3) pos

end Iterators

/-! ### A table that is parsed -/

/-- The third part of a section: its descriptors are the given ones, up to the CRC. -/
structure Part3At (buf : List UInt8) (ds : Descriptors) (part3 : ℕ) : Prop where
  ends : part3 + 2 + ds.bytes.length = buf.length - 4
  descriptors : ∃ qs, ForEach (fun q _ => part3DescriptorsNext buf part3 q) 0 (part3DescriptorsFirst buf part3) qs
    ∧ List.Forall₂ (fun q item => slice buf q item.length = item) qs ds.items

/-- **What a table should come to**: it is accepted, and the accessor and the iterator find its descriptors. -/
def Parsed (d : RrtSyntax) (buf : List UInt8) : Prop :=
  ∃ buf', (atscRrtSectionCodec .little).run buf = .ok ((), buf') ∧ Part3At buf' d.descriptors (part3 buf' (part2 buf'))

/-- The lengths whose word, with the bits in front of it set, has two equal bytes. -/
def RrtSyntax.Turnable (d : RrtSyntax) : Prop := d.descriptors.bytes.length ∈ [252, 509, 766, 1023]

/-! ### What the codec steps over -/

section Steps

variable {buf : List UInt8} {len : ℕ}

theorem DimensionSyntax.scale_lt (d : DimensionSyntax) : d.scale < 2 ^ 8 := by
  have hreserved := d.reserved.isLt
  have hscale := d.graduatedScale.isLt
  have hshort := d.short
  unfold DimensionSyntax.scale
  omega

theorem DimensionSyntax.scale_mod (d : DimensionSyntax) : d.scale % 2 ^ 4 = d.values.length := by
  have hshort := d.short
  unfold DimensionSyntax.scale
  omega

theorem ValueSyntax.run (v : ValueSyntax) {i j : ℕ} (h : Written ValueSyntax.bytes buf i j v) (hj : j ≤ len) :
    (rrtValue len i).run buf = .ok (j, buf) := by
  obtain ⟨rfl, rest, hdrop⟩ := h
  rw [ValueSyntax.bytes, List.length_append] at hj
  rw [ValueSyntax.bytes, List.append_assoc] at hdrop
  have hfirst : i + v.abbrevRatingValue.counted.length ≤ len := by omega
  have hsecond : i + v.abbrevRatingValue.counted.length + v.ratingValue.counted.length ≤ len := by omega
  rw [rrtValue, run_bind_ok (v.abbrevRatingValue.countedText_run hdrop hfirst),
    v.ratingValue.countedText_run (drop_of_append hdrop) hsecond, ValueSyntax.bytes, List.length_append, Nat.add_assoc]

theorem DimensionSyntax.parts (d : DimensionSyntax) {i j : ℕ} (h : Written DimensionSyntax.bytes buf i j d) :
    be buf i 1 = d.dimensionName.bytes.length ∧ be buf (i + d.dimensionName.counted.length) 1 = d.scale
      ∧ (∃ rest, buf.drop i = d.dimensionName.counted ++ rest)
      ∧ Tiles (Written ValueSyntax.bytes buf) (i + d.dimensionName.counted.length + 1) j d.values := by
  obtain ⟨rfl, rest, hdrop⟩ := h
  have hsize : d.bytes.length = d.dimensionName.counted.length + 1 + (d.values.flatMap ValueSyntax.bytes).length := by
    rw [DimensionSyntax.bytes, List.length_append, List.length_cons]
    omega
  rw [DimensionSyntax.bytes, List.append_assoc, List.cons_append] at hdrop
  have hscale := drop_of_append hdrop
  have hvalues := tiles_written ValueSyntax.bytes (drop_of_cons hscale)
  have hend : i + d.dimensionName.counted.length + 1 + (d.values.flatMap ValueSyntax.bytes).length
      = i + d.bytes.length := by omega
  rw [hend] at hvalues
  exact ⟨d.dimensionName.length_of_drop hdrop, be_of_drop d.scale_lt hscale, ⟨_, hdrop⟩, hvalues⟩

theorem DimensionSyntax.run (d : DimensionSyntax) {i j : ℕ} (h : Written DimensionSyntax.bytes buf i j d)
    (hj : j ≤ len) (hlen : len ≤ buf.length) : (rrtDimension len i).run buf = .ok (j, buf) := by
  obtain ⟨-, hscale, ⟨rest, hname⟩, hvalues⟩ := d.parts h
  have hle : i + d.dimensionName.counted.length + 1 ≤ j :=
    (hvalues.mono (fun _ _ _ _ _ h => h) fun _ _ _ h => h.le).1
  have hroom : i + d.dimensionName.counted.length ≤ len := by omega
  have hbyte : i + d.dimensionName.counted.length + 1 ≤ len := hle.trans hj
  have hcount : beNat (slice buf (i + d.dimensionName.counted.length) 1) % 2 ^ 4 = d.values.length :=
    (congrArg (· % 2 ^ 4) hscale).trans d.scale_mod
  rw [rrtDimension, run_bind_ok (d.dimensionName.countedText_run hname hroom), run_bind_ok (run_require hbyte buf),
    run_bind_ok (read_ok_iff.mpr ⟨hbyte.trans hlen, rfl⟩), hcount]
  exact times_run hvalues Written.le (fun _ _ value _ hwritten hstop => value.run hwritten hstop) hj

end Steps

/-! ### What the iterators go over -/

section Iterate

variable {buf : List UInt8}

def ValueAt (buf : List UInt8) (i j x : ℕ) : Prop := x = i ∧ j = valuePart2 buf i + (1 + be buf (valuePart2 buf i) 1)

/-- A dimension, by its position: it ends where going over its values does, from wherever they are counted. -/
def DimensionAt (buf : List UInt8) (i j x : ℕ) : Prop :=
  x = i ∧ ∀ base acc, base + acc = dimensionPart2 buf i + 1 → base + skipValues buf (dimensionPart2 buf i) acc = j

theorem valueAt_of_written {i j : ℕ} {v : ValueSyntax} (h : Written ValueSyntax.bytes buf i j v) : ValueAt buf i j i := by
  obtain ⟨rfl, rest, hdrop⟩ := h
  rw [ValueSyntax.bytes, List.append_assoc] at hdrop
  have hfirst := v.abbrevRatingValue.length_of_drop hdrop
  have hpart : valuePart2 buf i = i + v.abbrevRatingValue.counted.length := by
    rw [valuePart2, hfirst, v.abbrevRatingValue.length_counted, Nat.add_assoc]
  have hsecond := v.ratingValue.length_of_drop (drop_of_append hdrop)
  refine ⟨rfl, ?_⟩
  rw [hpart, hsecond, ValueSyntax.bytes, List.length_append, v.ratingValue.length_counted, Nat.add_assoc]

/-- **Going over the values** of a dimension ends where they do. -/
theorem skipValues_eq {part2 j : ℕ} {vs : List ValueSyntax}
    (h : Tiles (Written ValueSyntax.bytes buf) (part2 + 1) j vs) (hcount : valuesDefined buf part2 = vs.length)
    {base acc : ℕ} (hacc : base + acc = part2 + 1) : base + skipValues buf part2 acc = j := by
  obtain ⟨xs, hxs, hall⟩ := h.matched (S := ValueAt buf) (Q := fun _ _ => True) fun i j v _ hwritten =>
    ⟨i, valueAt_of_written hwritten, trivial⟩
  have hlength : xs.length = valuesDefined buf part2 := hall.length_eq.trans hcount.symm
  have hfor := hxs.forEach_count id (valuesNext buf part2) (fun {i j x} hx => hx.1)
    (fun {i j x} idx hx => by rw [valuesNext, ← hx.2]) ((Nat.zero_add _).trans hlength)
  have hfirst : (if valuesDefined buf part2 ≤ 0 then none else some (part2 + 1)) = valuesFirst buf part2 :=
    if_congr Nat.le_zero rfl rfl
  rw [hfirst] at hfor
  have hshort : (xs.map id).length ≤ 16 := by
    have hlt : valuesDefined buf part2 < 16 := Nat.mod_lt _ (by decide)
    rw [List.length_map]
    omega
  rw [skipValues, values, hfor.list_eq hshort]
  refine hxs.foldl_eq (fun {i j k x} hx hk => ?_) hacc
  obtain ⟨rfl, hend⟩ := hx
  rw [hend, id]
  unfold valuePart2
  omega

theorem dimensionAt_of_written {i j : ℕ} {d : DimensionSyntax} (h : Written DimensionSyntax.bytes buf i j d) :
    DimensionAt buf i j i := by
  obtain ⟨hname, hscale, -, hvalues⟩ := d.parts h
  have hpart : dimensionPart2 buf i = i + d.dimensionName.counted.length := by
    rw [dimensionPart2, hname, d.dimensionName.length_counted, Nat.add_assoc]
  have hcount : valuesDefined buf (dimensionPart2 buf i) = d.values.length := by
    rw [hpart, valuesDefined, hscale]
    exact d.scale_mod
  rw [← hpart] at hvalues
  exact ⟨rfl, fun base acc hacc => skipValues_eq hvalues hcount hacc⟩

/-- **`atsc_rrt_section_part3`** comes to the end of the dimensions. -/
theorem part3_eq {part2 j : ℕ} {ds : List DimensionSyntax}
    (h : Tiles (Written DimensionSyntax.bytes buf) (part2 + 1) j ds) (hcount : dimensionsDefined buf part2 = ds.length) :
    part3 buf part2 = j := by
  obtain ⟨xs, hxs, hall⟩ := h.matched (S := DimensionAt buf) (Q := fun _ _ => True) fun i j d _ hwritten =>
    ⟨i, dimensionAt_of_written hwritten, trivial⟩
  have hlength : xs.length = dimensionsDefined buf part2 := hall.length_eq.trans hcount.symm
  have hfor := hxs.forEach_count id (dimensionsNext buf part2) (fun {i j x} hx => hx.1)
    (fun {i j x} idx hx => by rw [dimensionsNext, hx.2 (dimensionPart2 buf i) 1 rfl])
    ((Nat.zero_add _).trans hlength)
  have hfirst : (if dimensionsDefined buf part2 ≤ 0 then none else some (part2 + 1)) = dimensionsFirst buf part2 :=
    if_congr Nat.le_zero rfl rfl
  rw [hfirst] at hfor
  have hshort : (xs.map id).length ≤ 256 := by
    rw [List.length_map, hlength]
    exact (dcc_count_lt buf part2).le
  rw [part3, dimensions, hfor.list_eq hshort]
  refine hxs.foldl_eq (fun {i j k x} hx hk => ?_) rfl
  obtain ⟨rfl, hend⟩ := hx
  apply hend
  rw [dimensionPart2, id]
  omega

end Iterate

/-! ### A section -/

/-- Where the parts of a section stand. -/
structure Layout (d : RrtSyntax) (buf : List UInt8) (part3 : ℕ) : Prop where
  whole : Whole .little buf
  region : ∃ rest, buf.drop 9 = d.ratingRegionName.counted ++ rest
  count_eq : be buf (9 + d.ratingRegionName.counted.length) 1 = d.dimensions.length
  dimensions : Tiles (Written DimensionSyntax.bytes buf) (9 + d.ratingRegionName.counted.length + 1) part3 d.dimensions
  third : ∃ crc, buf.drop part3 = d.descriptors.lengthWord (Fin.last 63) ++ (d.descriptors.bytes ++ crc)
  ends : part3 + 2 + d.descriptors.bytes.length + 4 = buf.length

theorem layout_of_isSection {d : RrtSyntax} {buf : List UInt8} (h : IsSection d buf) : ∃ part3, Layout d buf part3 := by
  obtain ⟨head, crc, hhead, hcrc, hbuf⟩ := h.parts
  have hdrop : buf.drop 8 = d.bytes ++ crc := by rw [hbuf, ← hhead, List.drop_left]
  have hlen : buf.length = 9 + d.ratingRegionName.counted.length + 1 + (d.dimensions.flatMap DimensionSyntax.bytes).length
      + 2 + d.descriptors.bytes.length + 4 := by
    rw [hbuf, List.length_append, List.length_append, hhead, hcrc, RrtSyntax.bytes, List.length_cons, List.length_append,
      List.length_cons, List.length_append, List.length_append, d.descriptors.length_lengthWord]
    omega
  have hfield := h.length_eq
  rw [RrtSyntax.bytes, List.cons_append, List.append_assoc, List.cons_append, List.append_assoc, List.append_assoc]
    at hdrop
  have hregion := drop_of_cons hdrop
  have hcount := drop_of_append hregion
  have hbehind := drop_of_cons hcount
  refine ⟨_, ⟨hfield, by omega⟩, ⟨_, hregion⟩, be_of_drop d.short hcount, tiles_written DimensionSyntax.bytes hbehind,
    ⟨crc, drop_of_append hbehind⟩, hlen.symm⟩

/-- **A length word read as it was sent** gives the length that it stands for if its bytes are equal. -/
theorem lengthWord_turned (ds : Descriptors) :
    value .little (ds.lengthWord (Fin.last 63)) % 2 ^ 10 = ds.bytes.length ↔ ds.bytes.length ∈ [252, 509, 766, 1023] := by
  have hshort : ds.bytes.length < 2 ^ 10 := ds.short
  have hbytes (x : ℕ) : value .little (beBytes 2 x) = x % 256 * 256 + x / 256 % 256 := by
    show (0 * 256 + (UInt8.ofNat (x / 256 ^ 0)).toNat) * 256 + (UInt8.ofNat (x / 256 ^ 1)).toNat = _
    rw [UInt8.toNat_ofNat', UInt8.toNat_ofNat', Nat.zero_mul, Nat.zero_add, pow_zero, Nat.div_one, pow_one]
  have hword : value .little (ds.lengthWord (Fin.last 63)) = value .little (beBytes 2 (63 * 2 ^ 10 + ds.bytes.length)) := rfl
  rw [hword, hbytes]
  simp only [List.mem_cons, List.not_mem_nil, or_false]
  omega

section Layout

variable {d : RrtSyntax} {buf : List UInt8} {p : ℕ}

theorem Layout.part3Length_eq (h : Layout d buf p) : part3Length buf p = value .little (d.descriptors.lengthWord (Fin.last 63)) % 2 ^ 10 := by
  obtain ⟨crc, hthird⟩ := h.third
  have hslice : slice buf p 2 = d.descriptors.lengthWord (Fin.last 63) := by
    rw [slice, hthird]
    exact List.take_left' (d.descriptors.length_lengthWord (Fin.last 63))
  rw [part3Length, host, hslice]

/-- **The codec** comes to the third part, and nothing has changed. -/
theorem Layout.run_eq (h : Layout d buf p) :
    (atscRrtSectionCodec .little).run buf =
      (block .little part3Header (buf.length - 4) p >>= fun pos => require (pos = buf.length - 4)).run buf := by
  obtain ⟨rest, hregion⟩ := h.region
  have hends := h.ends
  have hcounted := d.ratingRegionName.length_counted
  have hle : 9 + d.ratingRegionName.counted.length + 1 ≤ p :=
    (h.dimensions.mono (fun _ _ _ _ _ h => h) fun _ _ _ h => h.le).1
  have hsize : 10 ≤ buf.length - 4 := by omega
  have hname : 9 + d.ratingRegionName.counted.length ≤ buf.length - 4 := by omega
  have hbyte : 9 + d.ratingRegionName.counted.length + 1 ≤ buf.length - 4 := by omega
  have hstop : buf.length - 4 ≤ buf.length := Nat.sub_le _ _
  have hcount : beNat (slice buf (9 + d.ratingRegionName.counted.length) 1) = d.dimensions.length := h.count_eq
  have hloop : (times (rrtDimension (buf.length - 4)) d.dimensions.length
      (9 + d.ratingRegionName.counted.length + 1)).run buf = .ok (p, buf) :=
    times_run h.dimensions Written.le (fun _ _ dimension _ hwritten hj => dimension.run hwritten hj hstop) (by omega)
  rw [atscRrtSectionCodec, run_bind_ok h.whole.sectionExtLength_run, run_bind_ok (run_require hsize buf),
    run_bind_ok (d.ratingRegionName.countedText_run hregion hname), run_bind_ok (run_require hbyte buf),
    run_bind_ok (read_ok_iff.mpr ⟨hbyte.trans hstop, rfl⟩), hcount, run_bind_ok hloop]

/-- **The third part is taken** exactly if the host reads its length as it was meant. -/
theorem Layout.ok_iff (h : Layout d buf p) {buf' : List UInt8} :
    (atscRrtSectionCodec .little).run buf = .ok ((), buf') ↔
      part3Length buf p = d.descriptors.bytes.length ∧ buf' = buf := by
  have hends := h.ends
  obtain ⟨crc, hthird⟩ := h.third
  have hroom : p + part3Header.size ≤ buf.length - 4 := by
    show p + 2 ≤ buf.length - 4
    omega
  have hread : p + 0 + 2 ≤ buf.length := by omega
  have hend : p + 2 + part3Length buf p = buf.length - 4 ↔ part3Length buf p = d.descriptors.bytes.length := by omega
  have hword : (word .little (p + 0) 2).run buf = .ok (host .little buf (p + 0) 2, buf) :=
    (word_ok_iff .little).mpr ⟨hread, rfl⟩
  have hblock : (block .little part3Header (buf.length - 4) p).run buf = (do
      require (p + 2 + part3Length buf p ≤ buf.length - 4)
      verifyDescriptors (p + 2) (part3Length buf p)
      pure (p + 2 + part3Length buf p) : Walk ℕ).run buf := by
    have hswaps : (bswapAll .little p part3Header.fields).run buf = .ok ((), buf) := rfl
    rw [block, run_bind_ok (run_require hroom buf), run_bind_ok hswaps]
    exact run_bind_ok hword
  have hbehind := drop_of_append hthird
  rw [d.descriptors.length_lengthWord] at hbehind
  obtain ⟨xs, hxs⟩ := d.descriptors.tiles_of_drop hbehind
  rw [h.run_eq, bind_ok_iff]
  constructor
  · rintro ⟨pos, buf₁, hrun, hrequire⟩
    rw [hblock] at hrun
    obtain ⟨hinside, hrest⟩ := require_bind_ok_iff.mp hrun
    obtain ⟨_, _, hverify, hpure⟩ := bind_ok_iff.mp hrest
    obtain ⟨-, heq⟩ := (verifyDescriptors_ok_iff (hinside.trans (Nat.sub_le _ _))).mp hverify
    cases heq
    cases hpure
    obtain ⟨hlast, heq⟩ := require_ok_iff.mp hrequire
    exact ⟨hend.mp hlast, (Prod.mk.inj heq).2⟩
  · rintro ⟨hlength, rfl⟩
    have hlast := hend.mpr hlength
    refine ⟨buf'.length - 4, buf', ?_, run_require rfl buf'⟩
    have hinside : p + 2 + part3Length buf' p ≤ buf'.length := hlast.le.trans (Nat.sub_le _ _)
    rw [hblock, run_bind_ok (run_require hlast.le buf'),
      run_bind_ok ((verifyDescriptors_ok_iff hinside).mpr ⟨⟨xs, hlength ▸ hxs⟩, rfl⟩), hlast]
    rfl

/-- **The accessors** come to the third part. -/
theorem Layout.part3_eq (h : Layout d buf p) : part3 buf (part2 buf) = p := by
  obtain ⟨rest, hregion⟩ := h.region
  have hpart : part2 buf = 9 + d.ratingRegionName.counted.length := by
    rw [part2, d.ratingRegionName.length_of_drop hregion, d.ratingRegionName.length_counted]
    omega
  rw [hpart]
  exact Rrt.part3_eq h.dimensions h.count_eq

theorem Layout.part3At (h : Layout d buf p) (hlength : part3Length buf p = d.descriptors.bytes.length) :
    Part3At buf d.descriptors p := by
  obtain ⟨crc, hthird⟩ := h.third
  have hbehind := drop_of_append hthird
  rw [d.descriptors.length_lengthWord] at hbehind
  have hbytes : slice buf (p + 2) d.descriptors.bytes.length = d.descriptors.bytes := by
    rw [slice, hbehind]
    exact List.take_left
  obtain ⟨qs, hqs, hall⟩ := d.descriptors.iterated hbytes
  have hends := h.ends
  refine ⟨by omega, qs, ?_, hall⟩
  unfold part3DescriptorsNext part3DescriptorsFirst
  rw [hlength]
  exact hqs

end Layout

/-- **RRT.**  On a little-endian host a section made by the syntax is accepted, and its descriptors are found, exactly
if the length of the descriptors has a word of two equal bytes. -/
theorem rrt_iff (d : RrtSyntax) {buf : List UInt8} (h : IsSection d buf) : Parsed d buf ↔ d.Turnable := by
  obtain ⟨p, hlayout⟩ := layout_of_isSection h
  have hturned : part3Length buf p = d.descriptors.bytes.length ↔ d.Turnable := by
    rw [hlayout.part3Length_eq]
    exact lengthWord_turned d.descriptors
  constructor
  · rintro ⟨buf', hrun, -⟩
    exact hturned.mp (hlayout.ok_iff.mp hrun).1
  · intro hturnable
    have hlength := hturned.mpr hturnable
    refine ⟨buf, hlayout.ok_iff.mpr ⟨hlength, rfl⟩, ?_⟩
    rw [hlayout.part3_eq]
    exact hlayout.part3At hlength

/-- A table of one dimension with one value, and one descriptor, as `section_ext_decode` leaves it. -/
def oneDimension : List UInt8 :=
  [0xca, 0x1e, 0xf0, 0x01, 0x00, 0xc1, 0x00, 0x00, 0x00, 0x09, 0x01, 0x65, 0x6e, 0x67, 0x01, 0x00, 0x00, 0x01, 0x55,
    0x01, 0x00, 0xe1, 0x00, 0x00, 0xfc, 0x03, 0x52, 0x01, 0x07, 0xaa, 0xbb, 0xcc, 0xdd]

def oneDimensionSyntax : RrtSyntax where
  protocolVersion := 0
  ratingRegionName := ⟨some ⟨[⟨0x656e67, [⟨0, 0, [0x55], by decide⟩], by decide⟩], by decide⟩, by decide⟩
  dimensions := [⟨.absent, Fin.last 7, ⟨0, Nat.zero_lt_succ _⟩, [⟨.absent, .absent⟩], by decide⟩]
  short := by decide
  descriptors := ⟨[[0x52, 0x01, 0x07]], fun _ h => ⟨0x52, 1, [7], List.mem_singleton.mp h, rfl⟩, by decide⟩

theorem isSection_oneDimension : IsSection oneDimensionSyntax oneDimension :=
  ⟨by decide, [0xca, 0x1e, 0xf0, 0x01, 0x00, 0xc1, 0x00, 0x00], [0xaa, 0xbb, 0xcc, 0xdd], rfl, rfl, by decide⟩

theorem rrt_iff_oneDimension : Parsed oneDimensionSyntax oneDimension ↔ oneDimensionSyntax.Turnable :=
  rrt_iff oneDimensionSyntax isSection_oneDimension

/-- The host reads the length 3 as 1020, and the codec gives the section up. -/
theorem not_parsed_oneDimension :
    IsSection oneDimensionSyntax oneDimension ∧ part3Length oneDimension 24 = 1020
      ∧ ¬ Parsed oneDimensionSyntax oneDimension := by
  refine ⟨isSection_oneDimension, by decide, ?_⟩
  have hrefused : (atscRrtSectionCodec .little).run oneDimension = .error .refused := by decide +kernel
  rintro ⟨buf', hrun, -⟩
  rw [hrefused] at hrun
  cases hrun

end BgtDvb.Ucsi.Table.Rrt
