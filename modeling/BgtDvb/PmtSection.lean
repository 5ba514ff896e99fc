import BgtDvb.Lib.Tlv
import BgtDvb.SectionExt

/-!
# Program map sections

The codec of `libucsi/mpeg/pmt_section.c` and the loops of its header over descriptors and streams.  The
codec is handed a section whose header is in the host's order; it checks the nested lengths and swaps the
16-bit words of the bit-fields.

* `mpegPmtSectionCodec_spec` — **PROVED**: an accepted section is the layout of a program map, and the
  loops find its descriptors and streams.
-/

namespace BgtDvb.Ucsi

open BgtDvb.Tlv

variable (order : ByteOrder)

/-! ### The codec -/

/-- A 16-bit word in the host's order. -/
def hostWord : ByteOrder → UInt8 → UInt8 → ℕ
  | .big, a, b => a.toNat * 256 + b.toNat
  | .little, a, b => b.toNat * 256 + a.toNat

def wordAt (buf : List UInt8) (i : ℕ) : ℕ := hostWord order (buf.getD i 0) (buf.getD (i + 1) 0)

/-- `section_ext_length`: all but the CRC. -/
def sectionExtLength (buf : List UInt8) : ℕ := lengthField order buf + 3 - 4

/-- `verify_descriptors` from a position on, which is where the bytes begin. -/
def verifyDescriptorsFuel : ℕ → List UInt8 → Bool
  | _, [] => true
  | fuel + 1, _ :: len :: rest =>
    if rest.length < len.toNat then false else verifyDescriptorsFuel fuel (rest.drop len.toNat)
  | _, _ => false

def verifyDescriptors (buf : List UInt8) : Bool := verifyDescriptorsFuel buf.length buf

/-- The loop of the codec over the streams: the bytes from a position on, swapped.  A stream takes at least
five bytes, so the length is fuel enough. -/
def codecStreams : ℕ → List UInt8 → Option (List UInt8)
  | _, [] => some []
  | 0, _ => none
  | fuel + 1, rest =>
    if rest.length < 5 then none
    else
      let rest := bswap16 order 3 (bswap16 order 1 rest)
      let esInfoLength := wordAt order rest 3 % 2 ^ 12
      if rest.length < 5 + esInfoLength then none
      else if verifyDescriptors ((rest.drop 5).take esInfoLength) then
        (codecStreams fuel (rest.drop (5 + esInfoLength))).map (rest.take (5 + esInfoLength) ++ ·)
      else none

/-- `mpeg_pmt_section_codec`; `none` is the `NULL` result.  It is also the result for a section that is not
all there, and for the length 0: the length without the CRC wraps around, and the loops leave every buffer. -/
def mpegPmtSectionCodec (buf : List UInt8) : Option (List UInt8) :=
  let len := sectionExtLength order buf
  if lengthField order buf = 0 ∨ len < 12 ∨ buf.length < len then none
  else
    let buf := bswap16 order 10 (bswap16 order 8 buf)
    let pos := 12 + wordAt order buf 10 % 2 ^ 12
    if len < pos then none
    else if verifyDescriptors ((buf.take pos).drop 12) then
      (codecStreams order len ((buf.take len).drop pos)).map fun streams =>
        buf.take pos ++ streams ++ buf.drop len
    else none

/-! ### The loops over an accepted section -/

/-- `descriptor_first` and `next_descriptor` on a block of descriptors. -/
def descriptorsForEachFuel : ℕ → List UInt8 → List (List UInt8)
  | fuel + 1, tag :: len :: rest =>
    (tag :: len :: rest.take len.toNat) :: descriptorsForEachFuel fuel (rest.drop len.toNat)
  | _, _ => []

def descriptorsForEach (block : List UInt8) : List (List UInt8) :=
  descriptorsForEachFuel block.length block

/-- `mpeg_pmt_stream`, with the block of its descriptors. -/
structure StreamView where
  streamType : UInt8
  pid : ℕ
  block : List UInt8
  deriving DecidableEq, Repr

def streamsForEachFuel : ℕ → List UInt8 → List StreamView
  | fuel + 1, streamType :: a :: b :: c :: d :: rest =>
    let esInfoLength := hostWord order c d % 2 ^ 12
    ⟨streamType, hostWord order a b % 2 ^ 13, rest.take esInfoLength⟩
      :: streamsForEachFuel fuel (rest.drop esInfoLength)
  | _, _ => []

def programInfoLength (buf : List UInt8) : ℕ := wordAt order buf 10 % 2 ^ 12

/-- The block that `mpeg_pmt_section_descriptors_for_each` goes over. -/
def programInfo (buf : List UInt8) : List UInt8 := (buf.take (12 + programInfoLength order buf)).drop 12

/-- `mpeg_pmt_section_streams_for_each` -/
def streamsForEach (buf : List UInt8) : List StreamView :=
  streamsForEachFuel order buf.length
    ((buf.take (sectionExtLength order buf)).drop (12 + programInfoLength order buf))

/-- `mpeg_pmt_section_program_number` -/
def programNumber (buf : List UInt8) : ℕ := wordAt order buf 3

def versionNumber (buf : List UInt8) : UInt8 := (buf.getD 5 0 >>> 1) &&& 0x1f

def currentNextIndicator (buf : List UInt8) : UInt8 := buf.getD 5 0 &&& 1

/-! ### Program maps -/

structure PmtStream where
  streamType : UInt8
  pid : ℕ
  descriptors : List (List UInt8)

structure Pmt where
  programNumber : ℕ
  versionNumber : UInt8
  currentNext : UInt8
  descriptors : List (List UInt8)
  streams : List PmtStream

/-- The bytes of the streams, as they are sent. -/
inductive StreamsLayout : List UInt8 → List PmtStream → Prop
  | nil : StreamsLayout [] []
  | cons {streamType a b c d : UInt8} {descriptors : List (List UInt8)} {rest : List UInt8}
      {streams : List PmtStream} (items : ∀ item ∈ descriptors, IsItem item)
      (length : (c.toNat * 256 + d.toNat) % 2 ^ 12 = descriptors.flatten.length)
      (tail : StreamsLayout rest streams) :
      StreamsLayout (streamType :: a :: b :: c :: d :: (descriptors.flatten ++ rest))
        (⟨streamType, (a.toNat * 256 + b.toNat) % 2 ^ 13, descriptors⟩ :: streams)

/-- The bytes of a section behind `section_ext_decode`: the words of the section header are in the host's
order, those of the program map as they were sent. -/
def PmtLayout (buf : List UInt8) (pmt : Pmt) : Prop :=
  ∃ tableId h₁ h₂ n₁ n₂ version number last r₁ r₂ l₁ l₂ streams behind,
    buf = tableId :: h₁ :: h₂ :: n₁ :: n₂ :: version :: number :: last :: r₁ :: r₂ :: l₁ :: l₂ ::
      (pmt.descriptors.flatten ++ (streams ++ behind))
    ∧ 12 + (pmt.descriptors.flatten.length + streams.length) + 1 = lengthField order buf
    ∧ (l₁.toNat * 256 + l₂.toNat) % 2 ^ 12 = pmt.descriptors.flatten.length
    ∧ (∀ item ∈ pmt.descriptors, IsItem item) ∧ StreamsLayout streams pmt.streams
    ∧ pmt.programNumber = hostWord order n₁ n₂
    ∧ pmt.versionNumber = (version >>> 1) &&& 0x1f ∧ pmt.currentNext = version &&& 1

/-! ### Blocks of descriptors -/

theorem verifyDescriptorsFuel_eq (fuel : ℕ) (block : List UInt8) :
    verifyDescriptorsFuel fuel block = (splitFuel fuel block).isSome := by
  induction fuel generalizing block with
  | zero => rcases block with - | ⟨a, - | ⟨b, rest⟩⟩ <;> rfl
  | succ fuel ih =>
    match block with
    | [] => rfl
    | [_] => rfl
    | tag :: len :: rest =>
      rw [verifyDescriptorsFuel, splitFuel]
      split
      · rfl
      · rw [ih, Option.isSome_map]

theorem descriptorsForEachFuel_of_split {block : List UInt8} (h : splitFuel fuel block = some items) :
    descriptorsForEachFuel fuel block = items := by
  induction fuel generalizing block items with
  | zero =>
    cases block with
    | nil => exact Option.some.inj h
    | cons => exact absurd h (by simp [splitFuel])
  | succ fuel ih =>
    rcases block with - | ⟨tag, - | ⟨len, rest⟩⟩
    · exact Option.some.inj h
    · exact absurd h (by simp [splitFuel])
    · rw [splitFuel] at h
      split at h
      · exact absurd h (by simp)
      · obtain ⟨tail, htail, rfl⟩ := Option.map_eq_some_iff.mp h
        rw [descriptorsForEachFuel, ih htail]

/-- **A verified block** is a sequence of descriptors, and the loop finds them. -/
theorem exists_of_verifyDescriptors {block : List UInt8} (h : verifyDescriptors block = true) :
    ∃ descriptors : List (List UInt8), (∀ item ∈ descriptors, IsItem item)
      ∧ descriptors.flatten = block := by
  rw [verifyDescriptors, verifyDescriptorsFuel_eq, Option.isSome_iff_exists] at h
  obtain ⟨descriptors, hsplit⟩ := h
  exact ⟨descriptors, split_eq_some hsplit⟩

theorem descriptorsForEach_flatten (h : ∀ item ∈ descriptors, IsItem item) :
    descriptorsForEach descriptors.flatten = descriptors :=
  descriptorsForEachFuel_of_split (split_flatten h)

/-! ### Streams -/

theorem bswap16_stream (t a b c d : UInt8) (rest : List UInt8) :
    ∃ a' b' c' d', bswap16 order 3 (bswap16 order 1 (t :: a :: b :: c :: d :: rest))
        = t :: a' :: b' :: c' :: d' :: rest
      ∧ hostWord order a' b' = a.toNat * 256 + b.toNat ∧ hostWord order c' d' = c.toNat * 256 + d.toNat := by
  cases order with
  | big => exact ⟨a, b, c, d, rfl, rfl, rfl⟩
  | little => exact ⟨b, a, d, c, rfl, rfl, rfl⟩

/-- What one round of the codec does: it finds a stream and swaps its header. -/
theorem codecStreams_round {swapped : List UInt8} (h : codecStreams order (fuel + 1) (first :: more) = some swapped) :
    ∃ t a b c d a' b' c' d' block rest swappedRest,
      first :: more = t :: a :: b :: c :: d :: (block ++ rest)
      ∧ swapped = t :: a' :: b' :: c' :: d' :: (block ++ swappedRest)
      ∧ (c.toNat * 256 + d.toNat) % 2 ^ 12 = block.length ∧ verifyDescriptors block = true
      ∧ codecStreams order fuel rest = some swappedRest
      ∧ hostWord order a' b' = a.toNat * 256 + b.toNat
      ∧ hostWord order c' d' = c.toNat * 256 + d.toNat := by
  rw [codecStreams] at h
  · split at h
    · exact absurd h (by simp)
    next hheader =>
      obtain ⟨t, a, b, c, d, tail, hrest⟩ := exists_header (Nat.not_lt.mp hheader)
      obtain ⟨a', b', c', d', hswap, hpid, hes⟩ := bswap16_stream order t a b c d tail
      rw [hrest, hswap] at h
      have hword : wordAt order (t :: a' :: b' :: c' :: d' :: tail) 3 = c.toNat * 256 + d.toNat := hes
      simp only [hword] at h
      set es := (c.toNat * 256 + d.toNat) % 2 ^ 12 with hesdef
      split at h
      · exact absurd h (by simp)
      next hroom =>
        simp only [List.length_cons] at hroom
        have htake : (t :: a' :: b' :: c' :: d' :: tail).take (5 + es)
            = t :: a' :: b' :: c' :: d' :: tail.take es := by
          rw [Nat.add_comm]
          rfl
        have hdrop : (t :: a' :: b' :: c' :: d' :: tail).drop (5 + es) = tail.drop es := by
          rw [Nat.add_comm]
          rfl
        split at h
        next hverify =>
          rw [htake, hdrop] at h
          obtain ⟨swappedRest, hswapped, rfl⟩ := Option.map_eq_some_iff.mp h
          refine ⟨t, a, b, c, d, a', b', c', d', tail.take es, tail.drop es, swappedRest, ?_, rfl, ?_,
            hverify, hswapped, hpid, hes⟩
          · rw [hrest, List.take_append_drop]
          · rw [List.length_take]
            omega
        · exact absurd h (by simp)
  · intro hnil
    exact absurd hnil (List.cons_ne_nil _ _)

def PmtStream.view (s : PmtStream) : StreamView := ⟨s.streamType, s.pid, s.descriptors.flatten⟩

/-- **The streams of an accepted section.** -/
theorem codecStreams_spec {rest swapped : List UInt8} (h : codecStreams order fuel rest = some swapped) :
    swapped.length = rest.length ∧ ∃ streams, StreamsLayout rest streams
      ∧ ∀ fuel', swapped.length ≤ fuel' →
        streamsForEachFuel order fuel' swapped = streams.map PmtStream.view := by
  have hnil : ∀ fuel', ([] : List UInt8).length ≤ fuel' →
      streamsForEachFuel order fuel' [] = ([] : List PmtStream).map PmtStream.view :=
    fun fuel' _ => by cases fuel' <;> rfl
  induction fuel generalizing rest swapped with
  | zero =>
    match rest, h with
    | [], h =>
      obtain rfl := Option.some.inj h
      exact ⟨rfl, [], .nil, hnil⟩
  | succ fuel ih =>
    match rest, h with
    | [], h =>
      obtain rfl := Option.some.inj h
      exact ⟨rfl, [], .nil, hnil⟩
    | first :: more, h =>
      obtain ⟨t, a, b, c, d, a', b', c', d', block, tail, swappedTail, hrest, rfl, hlength, hverify, hswapped,
        hpid, hes⟩ := codecStreams_round order h
      obtain ⟨hlen, streams, hlayout, hloop⟩ := ih hswapped
      obtain ⟨descriptors, hitems, rfl⟩ := exists_of_verifyDescriptors hverify
      rw [hrest]
      refine ⟨by simp [hlen], _, .cons hitems hlength hlayout, fun fuel' hfuel => ?_⟩
      cases fuel' with
      | zero => simp at hfuel
      | succ fuel' =>
        simp only [List.length_cons, List.length_append] at hfuel
        rw [streamsForEachFuel, hpid, hes, hlength, List.take_left, List.drop_left,
          hloop fuel' (by omega)]
        rfl

/-! ### Accepted sections -/

theorem bswap16_pmt (t h₁ h₂ n₁ n₂ v s l r₁ r₂ a b : UInt8) (rest : List UInt8) :
    ∃ r₁' r₂' a' b', bswap16 order 10 (bswap16 order 8
        (t :: h₁ :: h₂ :: n₁ :: n₂ :: v :: s :: l :: r₁ :: r₂ :: a :: b :: rest))
        = t :: h₁ :: h₂ :: n₁ :: n₂ :: v :: s :: l :: r₁' :: r₂' :: a' :: b' :: rest
      ∧ hostWord order a' b' = a.toNat * 256 + b.toNat := by
  cases order with
  | big => exact ⟨r₁, r₂, a, b, rfl, rfl⟩
  | little => exact ⟨r₂, r₁, b, a, rfl, rfl⟩

theorem exists_pmt_header (h : 12 ≤ buf.length) :
    ∃ t h₁ h₂ n₁ n₂ v s l r₁ r₂ a b rest,
      buf = t :: h₁ :: h₂ :: n₁ :: n₂ :: v :: s :: l :: r₁ :: r₂ :: a :: b :: rest := by
  match buf, h with
  | t :: h₁ :: h₂ :: n₁ :: n₂ :: v :: s :: l :: r₁ :: r₂ :: a :: b :: rest, _ =>
    exact ⟨t, h₁, h₂, n₁, n₂, v, s, l, r₁, r₂, a, b, rest, rfl⟩

theorem take_pmt (t h₁ h₂ n₁ n₂ v s l r₁ r₂ a b : UInt8) (xs : List UInt8) (x : ℕ) :
    (t :: h₁ :: h₂ :: n₁ :: n₂ :: v :: s :: l :: r₁ :: r₂ :: a :: b :: xs).take (12 + x)
      = t :: h₁ :: h₂ :: n₁ :: n₂ :: v :: s :: l :: r₁ :: r₂ :: a :: b :: xs.take x := by
  rw [Nat.add_comm]
  rfl

theorem drop_pmt (t h₁ h₂ n₁ n₂ v s l r₁ r₂ a b : UInt8) (xs : List UInt8) (x : ℕ) :
    (t :: h₁ :: h₂ :: n₁ :: n₂ :: v :: s :: l :: r₁ :: r₂ :: a :: b :: xs).drop (12 + x) = xs.drop x := by
  rw [Nat.add_comm]
  rfl

/-- What the codec finds: the block of the descriptors and the bytes of the streams, which it swaps. -/
theorem mpegPmtSectionCodec_parts {swapped : List UInt8} (h : mpegPmtSectionCodec order buf = some swapped) :
    ∃ t h₁ h₂ n₁ n₂ v s l r₁ r₂ a b r₁' r₂' a' b' block streams swappedStreams behind,
      buf = t :: h₁ :: h₂ :: n₁ :: n₂ :: v :: s :: l :: r₁ :: r₂ :: a :: b :: (block ++ (streams ++ behind))
      ∧ swapped = t :: h₁ :: h₂ :: n₁ :: n₂ :: v :: s :: l :: r₁' :: r₂' :: a' :: b' ::
        (block ++ (swappedStreams ++ behind))
      ∧ 12 + (block.length + streams.length) + 1 = lengthField order buf
      ∧ (a.toNat * 256 + b.toNat) % 2 ^ 12 = block.length ∧ verifyDescriptors block = true
      ∧ codecStreams order (sectionExtLength order buf) streams = some swappedStreams
      ∧ hostWord order a' b' = a.toNat * 256 + b.toNat := by
  rw [mpegPmtSectionCodec] at h
  split at h
  · exact absurd h (by simp)
  next hguard =>
    rw [not_or, not_or, Nat.not_lt, Nat.not_lt] at hguard
    obtain ⟨hzero, htwelve, hroom⟩ := hguard
    obtain ⟨t, h₁, h₂, n₁, n₂, v, s, l, r₁, r₂, a, b, rest, hbuf⟩ :=
      exists_pmt_header (htwelve.trans hroom)
    obtain ⟨r₁', r₂', a', b', hswap, hinfo⟩ := bswap16_pmt order t h₁ h₂ n₁ n₂ v s l r₁ r₂ a b rest
    have hlenfield : sectionExtLength order buf + 1 = lengthField order buf := by
      unfold sectionExtLength at htwelve ⊢
      omega
    set len := sectionExtLength order buf with hlen
    rw [hbuf, hswap] at h
    have hword : wordAt order
        (t :: h₁ :: h₂ :: n₁ :: n₂ :: v :: s :: l :: r₁' :: r₂' :: a' :: b' :: rest) 10
          = a.toNat * 256 + b.toNat := hinfo
    simp only [hword] at h
    set n := (a.toNat * 256 + b.toNat) % 2 ^ 12 with hn
    obtain ⟨m, hm⟩ := Nat.exists_eq_add_of_le htwelve
    have hmroom : m ≤ rest.length := by
      rw [hbuf] at hroom
      simp only [List.length_cons] at hroom
      omega
    split at h
    · exact absurd h (by simp)
    next hpos =>
      have hnm : n ≤ m := by omega
      have hfront : (rest.take m).take n = rest.take n := by rw [List.take_take, Nat.min_eq_left hnm]
      have hrest : rest = rest.take n ++ ((rest.take m).drop n ++ rest.drop m) := by
        rw [← List.append_assoc, ← hfront, List.take_append_drop, List.take_append_drop]
      have hblock : (rest.take n).length = n := by
        rw [List.length_take]
        omega
      have hstreams : ((rest.take m).drop n).length = m - n := by
        rw [List.length_drop, List.length_take, Nat.min_eq_left hmroom]
      split at h
      next hverify =>
        rw [hm, take_pmt, take_pmt, drop_pmt, drop_pmt, ← hm] at h
        rw [take_pmt] at hverify
        obtain ⟨swappedStreams, hswapped, rfl⟩ := Option.map_eq_some_iff.mp h
        refine ⟨t, h₁, h₂, n₁, n₂, v, s, l, r₁, r₂, a, b, r₁', r₂', a', b', rest.take n, (rest.take m).drop n,
          swappedStreams, rest.drop m, ?_, ?_, ?_, hblock.symm, hverify, hswapped, hinfo⟩
        · rw [← hrest, hbuf]
        · simp only [List.cons_append, List.append_assoc]
        · rw [hblock, hstreams]
          omega
      · exact absurd h (by simp)

/-- **An accepted section** is the layout of a program map, and the loops find what it is made of. -/
theorem mpegPmtSectionCodec_spec {swapped : List UInt8} (h : mpegPmtSectionCodec order buf = some swapped) :
    ∃ pmt, PmtLayout order buf pmt
      ∧ programNumber order swapped = pmt.programNumber
      ∧ versionNumber swapped = pmt.versionNumber ∧ currentNextIndicator swapped = pmt.currentNext
      ∧ descriptorsForEach (programInfo order swapped) = pmt.descriptors
      ∧ streamsForEach order swapped = pmt.streams.map PmtStream.view := by
  obtain ⟨t, h₁, h₂, n₁, n₂, v, s, l, r₁, r₂, a, b, r₁', r₂', a', b', block, streams, swappedStreams, behind,
    hbuf, hswapped, hlength, hinfo, hverify, hstreams, hword⟩ := mpegPmtSectionCodec_parts order h
  obtain ⟨descriptors, hitems, rfl⟩ := exists_of_verifyDescriptors hverify
  obtain ⟨hlen, parts, hlayout, hloop⟩ := codecStreams_spec order hstreams
  have hinfoLength : programInfoLength order swapped = descriptors.flatten.length := by
    rw [← hinfo, ← hword, hswapped]
    rfl
  have hextLength : sectionExtLength order swapped
      = 12 + (descriptors.flatten.length + swappedStreams.length) := by
    have hsame : lengthField order swapped = lengthField order buf := by
      rw [hswapped, hbuf]
      cases order <;> rfl
    rw [sectionExtLength, hsame, hlen]
    omega
  have htake (x : ℕ) : swapped.take (12 + x)
      = t :: h₁ :: h₂ :: n₁ :: n₂ :: v :: s :: l :: r₁' :: r₂' :: a' :: b' ::
      (descriptors.flatten ++ (swappedStreams ++ behind)).take x := by
    rw [hswapped, take_pmt]
  refine ⟨⟨hostWord order n₁ n₂, (v >>> 1) &&& 0x1f, v &&& 1, descriptors, parts⟩, ?_, ?_, ?_, ?_, ?_, ?_⟩
  · exact ⟨t, h₁, h₂, n₁, n₂, v, s, l, r₁, r₂, a, b, streams, behind, hbuf, hlength, hinfo, hitems, hlayout, rfl,
      rfl, rfl⟩
  · rw [hswapped]
    rfl
  · rw [hswapped]
    rfl
  · rw [hswapped]
    rfl
  · rw [programInfo, hinfoLength, htake, List.take_left]
    exact descriptorsForEach_flatten hitems
  · rw [streamsForEach, hinfoLength, hextLength, htake, List.take_length_add_append, List.take_left,
      Nat.add_comm 12]
    show streamsForEachFuel order swapped.length
      ((descriptors.flatten ++ swappedStreams).drop descriptors.flatten.length) = _
    rw [List.drop_left]
    refine hloop swapped.length ?_
    rw [hswapped]
    simp only [List.length_cons, List.length_append]
    omega

theorem StreamsLayout.stream (h : StreamsLayout bytes streams) :
    ∀ s ∈ streams, (∀ item ∈ s.descriptors, IsItem item) ∧ s.pid < 2 ^ 13
      ∧ s.descriptors.flatten.length + 5 ≤ bytes.length := by
  induction h with
  | nil => exact fun s hs => absurd hs List.not_mem_nil
  | @cons streamType a b c d descriptors rest streams items length tail ih =>
    intro s hs
    simp only [List.length_cons, List.length_append]
    rcases List.mem_cons.mp hs with rfl | hs
    · have hroom : descriptors.flatten.length + 5
          ≤ descriptors.flatten.length + rest.length + 1 + 1 + 1 + 1 + 1 := by
        omega
      exact ⟨items, Nat.mod_lt _ (by decide), hroom⟩
    · obtain ⟨hitems, hpid, hlen⟩ := ih s hs
      exact ⟨hitems, hpid, by omega⟩

theorem PmtLayout.items (h : PmtLayout order buf pmt) :
    (∀ item ∈ pmt.descriptors, IsItem item)
      ∧ ∀ s ∈ pmt.streams, (∀ item ∈ s.descriptors, IsItem item) ∧ s.pid < 2 ^ 13 := by
  obtain ⟨-, -, -, -, -, -, -, -, -, -, -, -, streams, -, -, -, -, hitems, hstreams, -⟩ := h
  exact ⟨hitems, fun s hs => ⟨(hstreams.stream s hs).1, (hstreams.stream s hs).2.1⟩⟩

theorem PmtLayout.short (h : PmtLayout order buf pmt) :
    pmt.descriptors.flatten.length + 1 < 2 ^ 12
      ∧ ∀ s ∈ pmt.streams, s.descriptors.flatten.length + 1 < 2 ^ 12 := by
  obtain ⟨-, -, -, -, -, -, -, -, -, -, -, -, streams, -, -, hlength, -, -, hstreams, -⟩ := h
  have hfield : lengthField order buf < 2 ^ 12 := Nat.mod_lt _ (by decide)
  refine ⟨by omega, fun s hs => ?_⟩
  have hstream := (hstreams.stream s hs).2.2
  omega

end BgtDvb.Ucsi
