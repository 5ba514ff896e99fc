import BgtDvb.PmtSection

/-!
# CA PMT objects

A host tells a CAM which programs to descramble with a CA PMT: what remains of a program map when all but
its conditional access descriptors are taken out.

* `extractPmtDescriptors`, `extractStreams`, `tryMovePmtDescriptors`, `caFormatPmt` —
  `en50221_ca_extract_pmt_descriptors`, `en50221_ca_extract_streams`,
  `en50221_ca_try_move_pmt_descriptors`, `en50221_ca_format_pmt`;
* `caFormatPmt_spec` — **PROVED**: what is formatted is read as such an object.

The lengths are computed from the lists of descriptors, and the bytes are written from the same lists.
-/

namespace BgtDvb.En50221

open BgtDvb.Tlv
open BgtDvb.Ucsi

/-! ### Taking the descriptors out -/

/-- `dtag_mpeg_ca` -/
def isCa (descriptor : List UInt8) : Bool := descriptor.head? = some 0x09

/-- The loop over a block of descriptors; `malloc n` tells whether the `n`-th allocation of the call
succeeds, and the number of the next one is handed on. -/
def extractDescriptors (malloc : ℕ → Bool) : ℕ → List (List UInt8) → Option (List (List UInt8) × ℕ)
  | n, [] => some ([], n)
  | n, descriptor :: descriptors =>
    if isCa descriptor then
      if malloc n then
        (extractDescriptors malloc (n + 1) descriptors).map fun (out, n) => (descriptor :: out, n)
      else none
    else extractDescriptors malloc n descriptors

/-- `ca_pmt_stream` -/
structure CaPmtStream where
  streamType : UInt8
  pid : ℕ
  descriptors : List (List UInt8)
  deriving DecidableEq, Repr

def extractStreams (malloc : ℕ → Bool) : ℕ → List StreamView → Option (List CaPmtStream × ℕ)
  | n, [] => some ([], n)
  | n, s :: streams =>
    if malloc n then
      match extractDescriptors malloc (n + 1) (descriptorsForEach s.block) with
      | none => none
      | some (descriptors, n) =>
        (extractStreams malloc n streams).map fun (out, n) => (⟨s.streamType, s.pid, descriptors⟩ :: out, n)
    else none

/-- The comparison of a stream's descriptors with those of the first one. -/
def sameDescriptors : List (List UInt8) → List (List UInt8) → Bool
  | [], _ => true
  | cur :: curs, first :: firsts =>
    if cur.length ≠ first.length then false
    else if cur ≠ first then false
    else sameDescriptors curs firsts
  -- not reached: the numbers of descriptors were compared
  | _ :: _, [] => false

def CaPmtStream.clear (s : CaPmtStream) : CaPmtStream := { s with descriptors := [] }

/-- `en50221_ca_try_move_pmt_descriptors` -/
def tryMovePmtDescriptors (pmtDescriptors : List (List UInt8)) :
    List CaPmtStream → List (List UInt8) × List CaPmtStream
  | [] => (pmtDescriptors, [])
  | first :: streams =>
    if streams.all fun cur =>
        cur.descriptors.length = first.descriptors.length && sameDescriptors cur.descriptors first.descriptors
    then (first.descriptors, first.clear :: streams.map CaPmtStream.clear)
    else (pmtDescriptors, first :: streams)

/-! ### Writing -/

/-- The length of a block: one byte more for `ca_pmt_cmd_id` if there are descriptors. -/
def infoLength (descriptors : List (List UInt8)) : ℕ :=
  let length := (descriptors.map List.length).sum
  if length ≠ 0 then length + 1 else length

/-- `en50221_ca_calculate_length` -/
def calculateLength (pmtDescriptors : List (List UInt8)) (pmtStreams : List CaPmtStream) : ℕ :=
  6 + infoLength pmtDescriptors + (pmtStreams.map fun s => 5 + infoLength s.descriptors).sum

def lengthBytes (length : ℕ) : List UInt8 := [UInt8.ofNat (length / 256 % 16), UInt8.ofNat length]

def infoBytes (cmdId : UInt8) (descriptors : List (List UInt8)) : List UInt8 :=
  if infoLength descriptors ≠ 0 then cmdId :: descriptors.flatten else []

def streamBytes (cmdId : UInt8) (s : CaPmtStream) : List UInt8 :=
  s.streamType :: UInt8.ofNat (s.pid / 256 % 32) :: UInt8.ofNat s.pid ::
    (lengthBytes (infoLength s.descriptors) ++ infoBytes cmdId s.descriptors)

/-- The bytes that are written to `data`. -/
def caPmtBytes (order : ByteOrder) (pmt : List UInt8) (pmtDescriptors : List (List UInt8))
    (pmtStreams : List CaPmtStream) (listManagement cmdId : UInt8) : List UInt8 :=
  listManagement :: UInt8.ofNat (programNumber order pmt / 256) :: UInt8.ofNat (programNumber order pmt) ::
    ((versionNumber pmt <<< 1) ||| currentNextIndicator pmt) ::
    (lengthBytes (infoLength pmtDescriptors) ++ infoBytes cmdId pmtDescriptors
      ++ pmtStreams.flatMap (streamBytes cmdId))

/-- `en50221_ca_format_pmt`: the result, and the buffer of `data_length` bytes after the call. -/
def caFormatPmt (order : ByteOrder) (malloc : ℕ → Bool) (pmt data : List UInt8) (moveCaDescriptors : Bool)
    (listManagement cmdId : UInt8) : ℤ × List UInt8 :=
  match extractDescriptors malloc 0 (descriptorsForEach (programInfo order pmt)) with
  | none => (-1, data)
  | some (pmtDescriptors, n) =>
    match extractStreams malloc n (streamsForEach order pmt) with
    | none => (-1, data)
    | some (pmtStreams, _) =>
      let (pmtDescriptors, pmtStreams) :=
        if pmtDescriptors = [] ∧ moveCaDescriptors then tryMovePmtDescriptors pmtDescriptors pmtStreams
        else (pmtDescriptors, pmtStreams)
      if data.length < calculateLength pmtDescriptors pmtStreams then (-1, data)
      else
        let out := caPmtBytes order pmt pmtDescriptors pmtStreams listManagement cmdId
        (out.length, storeAt 0 out data)

/-! ### The syntax of the object -/

structure CaStream where
  streamType : UInt8
  pid : ℕ
  cmdId : Option UInt8
  descriptors : List (List UInt8)
  deriving DecidableEq, Repr

structure CaPmt where
  listManagement : UInt8
  programNumber : ℕ
  versionNumber : UInt8
  currentNext : UInt8
  cmdId : Option UInt8
  descriptors : List (List UInt8)
  streams : List CaStream
  deriving DecidableEq, Repr

/-- A length and what it counts: nothing, or a command and descriptors; and the bytes behind. -/
def readInfo : List UInt8 → Option ((Option UInt8 × List (List UInt8)) × List UInt8)
  | a :: b :: rest =>
    let length := (a.toNat * 256 + b.toNat) % 2 ^ 12
    if length = 0 then some ((none, []), rest)
    else if rest.length < length then none
    else
      match rest.take length with
      | cmdId :: block => (split block).map fun descriptors => ((some cmdId, descriptors), rest.drop length)
      | [] => none
  | _ => none

/-- Streams up to the end, with fuel for as many as there may be. -/
def readStreams : ℕ → List UInt8 → Option (List CaStream)
  | _, [] => some []
  | fuel + 1, streamType :: a :: b :: rest =>
    match readInfo rest with
    | some ((cmdId, descriptors), rest) =>
      (readStreams fuel rest).map
        (⟨streamType, (a.toNat * 256 + b.toNat) % 2 ^ 13, cmdId, descriptors⟩ :: ·)
    | none => none
  | _, _ => none

def readCaPmt : List UInt8 → Option CaPmt
  | listManagement :: a :: b :: version :: rest =>
    match readInfo rest with
    | some ((cmdId, descriptors), rest) =>
      (readStreams rest.length rest).map
        (⟨listManagement, a.toNat * 256 + b.toNat, (version >>> 1) &&& 0x1f, version &&& 1, cmdId,
          descriptors, ·⟩)
    | none => none
  | _ => none

/-! ### What it is for -/

def caOf (descriptors : List (List UInt8)) : List (List UInt8) := descriptors.filter isCa

/-- The object tells of a program map what a CAM needs: the program, its streams, and for every stream the
conditional access descriptors of the program and its own. -/
structure Preserves (pmt : Pmt) (listManagement cmdId : UInt8) (ca : CaPmt) : Prop where
  listManagement : ca.listManagement = listManagement
  programNumber : ca.programNumber = pmt.programNumber
  versionNumber : ca.versionNumber = pmt.versionNumber
  currentNext : ca.currentNext = pmt.currentNext
  streams : (ca.streams.map fun s => (s.streamType, s.pid)) = pmt.streams.map fun s => (s.streamType, s.pid)
  descriptors : (ca.streams.map fun s => ca.descriptors ++ s.descriptors)
    = pmt.streams.map fun s => caOf pmt.descriptors ++ caOf s.descriptors
  noStreams : ca.streams = [] → ca.descriptors = caOf pmt.descriptors
  onlyCa : (∀ d ∈ ca.descriptors, isCa d = true) ∧ ∀ s ∈ ca.streams, ∀ d ∈ s.descriptors, isCa d = true
  commands : ca.cmdId = (if ca.descriptors = [] then none else some cmdId)
    ∧ ∀ s ∈ ca.streams, s.cmdId = if s.descriptors = [] then none else some cmdId

def allocations (pmt : Pmt) : ℕ :=
  (caOf pmt.descriptors).length + (pmt.streams.map fun s => 1 + (caOf s.descriptors).length).sum

/-- The `n`-th allocation and those behind it, `k` in all, succeed. -/
def Allocated (malloc : ℕ → Bool) (n k : ℕ) : Prop := ∀ i < k, malloc (n + i) = true

instance (malloc : ℕ → Bool) (n k : ℕ) : Decidable (Allocated malloc n k) :=
  inferInstanceAs (Decidable (∀ i < k, malloc (n + i) = true))

theorem allocated_add (malloc : ℕ → Bool) (n a b : ℕ) :
    Allocated malloc n (a + b) ↔ Allocated malloc n a ∧ Allocated malloc (n + a) b := by
  constructor
  · intro h
    exact ⟨fun i hi => h i (by omega), fun i hi => by rw [Nat.add_assoc]; exact h (a + i) (by omega)⟩
  · rintro ⟨ha, hb⟩ i hi
    by_cases hia : i < a
    · exact ha i hia
    · have hb := hb (i - a) (by omega)
      rwa [Nat.add_assoc, Nat.add_sub_cancel' (Nat.le_of_not_lt hia)] at hb

theorem allocated_one (malloc : ℕ → Bool) (n : ℕ) : Allocated malloc n 1 ↔ malloc n = true := by
  simp [Allocated]

/-! ### Taking the descriptors out -/

theorem extractDescriptors_eq (malloc : ℕ → Bool) (n : ℕ) (descriptors : List (List UInt8)) :
    extractDescriptors malloc n descriptors
      = if Allocated malloc n (caOf descriptors).length
        then some (caOf descriptors, n + (caOf descriptors).length) else none := by
  induction descriptors generalizing n with
  | nil => simp [extractDescriptors, caOf, Allocated]
  | cons descriptor descriptors ih =>
    rw [extractDescriptors]
    by_cases hca : isCa descriptor = true
    · have hcons : caOf (descriptor :: descriptors) = descriptor :: caOf descriptors := List.filter_cons_of_pos hca
      have hsplit : Allocated malloc n (1 + (caOf descriptors).length)
          ↔ malloc n = true ∧ Allocated malloc (n + 1) (caOf descriptors).length := by
        rw [allocated_add, allocated_one]
      rw [if_pos hca, hcons, List.length_cons, Nat.add_comm (caOf descriptors).length 1, ih]
      by_cases hmalloc : malloc n = true
      · rw [if_pos hmalloc]
        by_cases hrest : Allocated malloc (n + 1) (caOf descriptors).length
        · rw [if_pos hrest, if_pos (hsplit.mpr ⟨hmalloc, hrest⟩), Option.map_some, Nat.add_assoc]
        · rw [if_neg hrest, if_neg fun h => hrest (hsplit.mp h).2, Option.map_none]
      · rw [if_neg hmalloc, if_neg fun h => hmalloc (hsplit.mp h).1]
    · have hcons : caOf (descriptor :: descriptors) = caOf descriptors := List.filter_cons_of_neg hca
      rw [if_neg hca, hcons, ih]

def caStream (s : PmtStream) : CaPmtStream := ⟨s.streamType, s.pid, caOf s.descriptors⟩

theorem extractStreams_eq (malloc : ℕ → Bool) (n : ℕ) {streams : List PmtStream}
    (h : ∀ s ∈ streams, ∀ item ∈ s.descriptors, IsItem item) :
    extractStreams malloc n (streams.map PmtStream.view)
      = if Allocated malloc n (streams.map fun s => 1 + (caOf s.descriptors).length).sum
        then some (streams.map caStream, n + (streams.map fun s => 1 + (caOf s.descriptors).length).sum)
        else none := by
  induction streams generalizing n with
  | nil => simp [extractStreams, Allocated]
  | cons s streams ih =>
    have hsplit : Allocated malloc n (1 + ((caOf s.descriptors).length
          + (streams.map fun s => 1 + (caOf s.descriptors).length).sum))
        ↔ malloc n = true ∧ Allocated malloc (n + 1) (caOf s.descriptors).length
          ∧ Allocated malloc (n + 1 + (caOf s.descriptors).length)
            (streams.map fun s => 1 + (caOf s.descriptors).length).sum := by
      rw [allocated_add, allocated_one, allocated_add]
    rw [List.map_cons, List.map_cons, List.sum_cons, Nat.add_assoc, extractStreams]
    have hblock : descriptorsForEach s.view.block = s.descriptors :=
      descriptorsForEach_flatten (h s List.mem_cons_self)
    rw [hblock, extractDescriptors_eq]
    by_cases hmalloc : malloc n = true
    · rw [if_pos hmalloc]
      by_cases hds : Allocated malloc (n + 1) (caOf s.descriptors).length
      · rw [if_pos hds]
        show (extractStreams malloc (n + 1 + (caOf s.descriptors).length) (streams.map PmtStream.view)).map _ = _
        rw [ih _ fun t ht => h t (List.mem_cons_of_mem s ht)]
        by_cases hrest : Allocated malloc (n + 1 + (caOf s.descriptors).length)
            (streams.map fun s => 1 + (caOf s.descriptors).length).sum
        · rw [if_pos hrest, if_pos (hsplit.mpr ⟨hmalloc, hds, hrest⟩), Option.map_some, Nat.add_assoc,
            Nat.add_assoc]
          rfl
        · rw [if_neg hrest, if_neg fun h => hrest (hsplit.mp h).2.2, Option.map_none]
      · rw [if_neg hds, if_neg fun h => hds (hsplit.mp h).2.1]
    · rw [if_neg hmalloc, if_neg fun h => hmalloc (hsplit.mp h).1]

/-! ### Moving the descriptors -/

theorem eq_of_sameDescriptors {curs firsts : List (List UInt8)} (hlength : curs.length = firsts.length)
    (h : sameDescriptors curs firsts = true) : curs = firsts := by
  induction curs generalizing firsts with
  | nil => exact (List.length_eq_zero_iff.mp hlength.symm).symm
  | cons cur curs ih =>
    cases firsts with
    | nil => exact absurd hlength (by simp)
    | cons first firsts =>
      rw [sameDescriptors] at h
      split at h
      · exact absurd h (by simp)
      · split at h
        · exact absurd h (by simp)
        next hsame =>
          rw [Classical.not_not.mp hsame, ih (Nat.succ.inj hlength) h]

/-- What is written in place of the lists that were taken out. -/
structure Replaces (pmtDescriptors : List (List UInt8)) (pmtStreams : List CaPmtStream)
    (descriptors : List (List UInt8)) (streams : List CaPmtStream) : Prop where
  keys : (streams.map fun s => (s.streamType, s.pid)) = pmtStreams.map fun s => (s.streamType, s.pid)
  lists : (streams.map fun s => descriptors ++ s.descriptors)
    = pmtStreams.map fun s => pmtDescriptors ++ s.descriptors
  noStreams : streams = [] → descriptors = pmtDescriptors
  /-- No list is new. -/
  old : (descriptors = pmtDescriptors ∨ ∃ s ∈ pmtStreams, descriptors = s.descriptors)
    ∧ ∀ s ∈ streams, s.descriptors = [] ∨ s ∈ pmtStreams

theorem Replaces.refl (pmtDescriptors : List (List UInt8)) (pmtStreams : List CaPmtStream) :
    Replaces pmtDescriptors pmtStreams pmtDescriptors pmtStreams :=
  ⟨rfl, rfl, fun _ => rfl, .inl rfl, fun _ hs => .inr hs⟩

/-- **Moving changes no stream's list.** -/
theorem tryMovePmtDescriptors_replaces (pmtStreams : List CaPmtStream) :
    Replaces [] pmtStreams (tryMovePmtDescriptors [] pmtStreams).1 (tryMovePmtDescriptors [] pmtStreams).2 := by
  cases pmtStreams with
  | nil => exact .refl [] []
  | cons first streams =>
    rw [tryMovePmtDescriptors]
    split
    next hall =>
      have hsame : ∀ cur ∈ streams, cur.descriptors = first.descriptors := by
        intro cur hcur
        have hcond := List.all_eq_true.mp hall cur hcur
        rw [Bool.and_eq_true, decide_eq_true_eq] at hcond
        exact eq_of_sameDescriptors hcond.1 hcond.2
      refine ⟨?_, ?_, fun h => absurd h (List.cons_ne_nil _ _), .inr ⟨first, List.mem_cons_self, rfl⟩, ?_⟩
      · simp [CaPmtStream.clear]
      · simp only [List.map_cons, List.map_map, CaPmtStream.clear, List.append_nil, List.nil_append,
          Function.comp_def]
        rw [List.map_congr_left fun cur hcur => (hsame cur hcur).symm]
      · intro s hs
        rcases List.mem_cons.mp hs with rfl | hs
        · exact .inl rfl
        · obtain ⟨cur, -, rfl⟩ := List.mem_map.mp hs
          exact .inl rfl
    · exact .refl [] _

/-! ### What is written is read -/

def Fits (descriptors : List (List UInt8)) : Prop :=
  (∀ item ∈ descriptors, IsItem item) ∧ descriptors.flatten.length + 1 < 2 ^ 12

def commandOf (cmdId : UInt8) (descriptors : List (List UInt8)) : Option UInt8 :=
  if descriptors = [] then none else some cmdId

theorem infoLength_nil : infoLength [] = 0 := rfl

variable {descriptors : List (List UInt8)} {streams : List CaPmtStream}

theorem infoLength_of_ne_nil (h : ∀ item ∈ descriptors, IsItem item) (hne : descriptors ≠ []) :
    infoLength descriptors = descriptors.flatten.length + 1 := by
  obtain ⟨item, rest, rfl⟩ := List.exists_cons_of_ne_nil hne
  have htwo := (h item List.mem_cons_self).two_le
  have hsum : ((item :: rest).map List.length).sum ≠ 0 := by
    rw [List.map_cons, List.sum_cons]
    omega
  rw [infoLength, List.length_flatten]
  exact if_pos hsum

theorem lengthBytes_value {n : ℕ} (h : n < 2 ^ 12) :
    ((UInt8.ofNat (n / 256 % 16)).toNat * 256 + (UInt8.ofNat n).toNat) % 2 ^ 12 = n := by
  rw [UInt8.toNat_ofNat', UInt8.toNat_ofNat']
  omega

variable (cmdId : UInt8) (order : ByteOrder)

/-- **A block is read back.** -/
theorem readInfo_bytes (h : Fits descriptors) (rest : List UInt8) :
    readInfo (lengthBytes (infoLength descriptors) ++ (infoBytes cmdId descriptors ++ rest))
      = some ((commandOf cmdId descriptors, descriptors), rest) := by
  obtain ⟨hitems, hshort⟩ := h
  by_cases hne : descriptors = []
  · subst hne
    have hvalue := lengthBytes_value (n := 0) (by decide)
    have hbytes : infoBytes cmdId [] ++ rest = rest := rfl
    rw [hbytes, infoLength_nil, lengthBytes, List.cons_append, List.cons_append, List.nil_append, readInfo]
    simp only [hvalue, if_true]
    rfl
  · have hlen := infoLength_of_ne_nil hitems hne
    have hvalue := lengthBytes_value (n := infoLength descriptors) (by omega)
    have hroom : ¬ (cmdId :: (descriptors.flatten ++ rest)).length < infoLength descriptors := by
      rw [List.length_cons, List.length_append]
      omega
    have hbytes : infoBytes cmdId descriptors ++ rest = cmdId :: (descriptors.flatten ++ rest) := by
      rw [infoBytes, if_pos (by omega)]
      rfl
    rw [hbytes, lengthBytes, List.cons_append, List.cons_append, List.nil_append, readInfo]
    simp only [hvalue]
    rw [if_neg (by omega), if_neg hroom, hlen, List.take_succ_cons, List.take_left, List.drop_succ_cons,
      List.drop_left]
    show (split descriptors.flatten).map _ = _
    rw [split_flatten hitems, Option.map_some, commandOf, if_neg hne]

def readBack (cmdId : UInt8) (s : CaPmtStream) : CaStream :=
  ⟨s.streamType, s.pid, commandOf cmdId s.descriptors, s.descriptors⟩

theorem readStreams_bytes (h : ∀ s ∈ streams, Fits s.descriptors ∧ s.pid < 2 ^ 13) {fuel : ℕ}
    (hfuel : streams.length ≤ fuel) :
    readStreams fuel (streams.flatMap (streamBytes cmdId)) = some (streams.map (readBack cmdId)) := by
  induction streams generalizing fuel with
  | nil => cases fuel <;> rfl
  | cons s streams ih =>
    cases fuel with
    | zero => exact absurd hfuel (by simp)
    | succ fuel =>
      obtain ⟨hfits, hpid⟩ := h s List.mem_cons_self
      have hvalue : ((UInt8.ofNat (s.pid / 256 % 32)).toNat * 256 + (UInt8.ofNat s.pid).toNat) % 2 ^ 13
          = s.pid := by
        rw [UInt8.toNat_ofNat', UInt8.toNat_ofNat']
        omega
      rw [List.flatMap_cons, streamBytes, List.cons_append, List.cons_append, List.cons_append,
        List.append_assoc, readStreams, readInfo_bytes cmdId hfits, hvalue]
      show (readStreams fuel _).map _ = _
      rw [ih (fun t ht => h t (List.mem_cons_of_mem s ht)) (Nat.le_of_succ_le_succ hfuel)]
      rfl

theorem hostWord_lt (a b : UInt8) : hostWord order a b < 2 ^ 16 := by
  have ha := a.toNat_lt
  have hb := b.toNat_lt
  cases order <;> simp only [hostWord] <;> omega

theorem version_byte (x : UInt8) :
    (((((x >>> 1) &&& (0x1f : UInt8)) <<< 1) ||| (x &&& 1)) >>> 1) &&& (0x1f : UInt8)
        = (x >>> 1) &&& (0x1f : UInt8)
      ∧ ((((x >>> 1) &&& (0x1f : UInt8)) <<< 1) ||| (x &&& 1)) &&& 1 = x &&& 1 := by
  revert x
  decide +kernel

theorem length_le_streamBytes (streams : List CaPmtStream) :
    streams.length ≤ (streams.flatMap (streamBytes cmdId)).length := by
  induction streams with
  | nil => exact le_rfl
  | cons s streams ih =>
    rw [List.flatMap_cons, List.length_append, List.length_cons, streamBytes, List.length_cons]
    omega

/-- **The object is read back.** -/
theorem readCaPmt_bytes (pmt : List UInt8) (hfits : Fits descriptors)
    (h : ∀ s ∈ streams, Fits s.descriptors ∧ s.pid < 2 ^ 13) (listManagement cmdId : UInt8) :
    readCaPmt (caPmtBytes order pmt descriptors streams listManagement cmdId)
      = some ⟨listManagement, programNumber order pmt, versionNumber pmt, currentNextIndicator pmt,
          commandOf cmdId descriptors, descriptors, streams.map (readBack cmdId)⟩ := by
  have hnumber : (UInt8.ofNat (programNumber order pmt / 256)).toNat * 256
      + (UInt8.ofNat (programNumber order pmt)).toNat = programNumber order pmt := by
    have hlt : programNumber order pmt < 2 ^ 16 := hostWord_lt order _ _
    rw [UInt8.toNat_ofNat', UInt8.toNat_ofNat']
    omega
  obtain ⟨hversion, hcurrent⟩ := version_byte (pmt.getD 5 0)
  rw [caPmtBytes, List.append_assoc, readCaPmt, readInfo_bytes cmdId hfits, hnumber]
  show (readStreams _ _).map _ = _
  rw [readStreams_bytes cmdId h (length_le_streamBytes cmdId streams), Option.map_some, versionNumber,
    currentNextIndicator, hversion, hcurrent]

theorem infoBytes_length (h : ∀ item ∈ descriptors, IsItem item) :
    (infoBytes cmdId descriptors).length = infoLength descriptors := by
  by_cases hne : descriptors = []
  · subst hne
    rfl
  · have hlen := infoLength_of_ne_nil h hne
    rw [infoBytes, if_pos (by omega), List.length_cons, hlen]

theorem caPmtBytes_length (pmt : List UInt8) (hitems : ∀ item ∈ descriptors, IsItem item)
    (h : ∀ s ∈ streams, ∀ item ∈ s.descriptors, IsItem item) (listManagement cmdId : UInt8) :
    (caPmtBytes order pmt descriptors streams listManagement cmdId).length
      = calculateLength descriptors streams := by
  have hstreams : (streams.flatMap (streamBytes cmdId)).length
      = (streams.map fun s => 5 + infoLength s.descriptors).sum := by
    rw [List.length_flatMap]
    congr 1
    refine List.map_congr_left fun s hs => ?_
    rw [streamBytes, List.length_cons, List.length_cons, List.length_cons, List.length_append,
      infoBytes_length cmdId (h s hs), lengthBytes]
    simp only [List.length_cons, List.length_nil]
    omega
  rw [caPmtBytes, calculateLength]
  simp only [List.length_cons, List.length_append, List.length_nil, lengthBytes, hstreams,
    infoBytes_length cmdId hitems]
  omega

/-! ### The whole call -/

def chosen (pmt : Pmt) (moveCaDescriptors : Bool) : List (List UInt8) × List CaPmtStream :=
  if caOf pmt.descriptors = [] ∧ moveCaDescriptors then
    tryMovePmtDescriptors (caOf pmt.descriptors) (pmt.streams.map caStream)
  else (caOf pmt.descriptors, pmt.streams.map caStream)

theorem chosen_replaces (pmt : Pmt) (moveCaDescriptors : Bool) :
    Replaces (caOf pmt.descriptors) (pmt.streams.map caStream) (chosen pmt moveCaDescriptors).1
      (chosen pmt moveCaDescriptors).2 := by
  rw [chosen]
  split
  next h =>
    rw [h.1]
    exact tryMovePmtDescriptors_replaces _
  · exact .refl _ _

theorem fits_caOf (hitems : ∀ item ∈ descriptors, IsItem item) (hshort : descriptors.flatten.length + 1 < 2 ^ 12) :
    Fits (caOf descriptors) := by
  have hle := filter_flatten_length isCa descriptors
  exact ⟨fun item hitem => hitems item (List.mem_of_mem_filter hitem), by unfold caOf; omega⟩

theorem isCa_of_mem_caOf : ∀ d ∈ caOf descriptors, isCa d = true :=
  fun _ hd => (List.mem_filter.mp hd).2

/-- **No stream's list is lost.** -/
theorem Replaces.preserves {pmt : Pmt}
    (h : Replaces (caOf pmt.descriptors) (pmt.streams.map caStream) descriptors streams)
    (listManagement cmdId : UInt8) :
    Preserves pmt listManagement cmdId ⟨listManagement, pmt.programNumber, pmt.versionNumber,
      pmt.currentNext, commandOf cmdId descriptors, descriptors, streams.map (readBack cmdId)⟩ where
  listManagement := rfl
  programNumber := rfl
  versionNumber := rfl
  currentNext := rfl
  streams := by
    have hkeys := h.keys
    simpa [List.map_map, Function.comp_def, readBack, caStream] using hkeys
  descriptors := by
    have hlists := h.lists
    simpa [List.map_map, Function.comp_def, readBack, caStream] using hlists
  noStreams := fun hnil => h.noStreams (List.map_eq_nil_iff.mp hnil)
  onlyCa := by
    have hstream : ∀ s ∈ pmt.streams.map caStream, ∀ d ∈ s.descriptors, isCa d = true := by
      intro s hs
      obtain ⟨t, -, rfl⟩ := List.mem_map.mp hs
      exact isCa_of_mem_caOf
    constructor
    · rcases h.old.1 with heq | ⟨s, hs, heq⟩
      · exact heq ▸ isCa_of_mem_caOf
      · exact heq ▸ hstream s hs
    · intro s hs d hd
      obtain ⟨t, ht, rfl⟩ := List.mem_map.mp hs
      rcases h.old.2 t ht with hnil | hold
      · exact absurd hd (by simp [readBack, hnil])
      · exact hstream t hold d hd
  commands := by
    refine ⟨rfl, fun s hs => ?_⟩
    obtain ⟨t, -, rfl⟩ := List.mem_map.mp hs
    rfl

theorem Replaces.fits {pmt : Pmt} (h : Replaces (caOf pmt.descriptors) (pmt.streams.map caStream) descriptors streams)
    (hpmt : Fits (caOf pmt.descriptors)) (hstreams : ∀ s ∈ pmt.streams, Fits (caOf s.descriptors) ∧ s.pid < 2 ^ 13) :
    Fits descriptors ∧ ∀ s ∈ streams, Fits s.descriptors ∧ s.pid < 2 ^ 13 := by
  have hold : ∀ s ∈ pmt.streams.map caStream, Fits s.descriptors := by
    intro s hs
    obtain ⟨t, ht, rfl⟩ := List.mem_map.mp hs
    exact (hstreams t ht).1
  constructor
  · rcases h.old.1 with heq | ⟨s, hs, heq⟩
    · exact heq ▸ hpmt
    · exact heq ▸ hold s hs
  · intro s hs
    constructor
    · rcases h.old.2 s hs with hnil | hmem
      · rw [hnil]
        exact ⟨fun _ hmem => absurd hmem List.not_mem_nil, by decide⟩
      · exact hold s hmem
    · have hkey : (s.streamType, s.pid) ∈ streams.map fun s => (s.streamType, s.pid) :=
        List.mem_map_of_mem hs
      rw [h.keys, List.map_map] at hkey
      obtain ⟨t, ht, heq⟩ := List.mem_map.mp hkey
      have hpid : s.pid = t.pid := (congrArg Prod.snd heq).symm
      rw [hpid]
      exact (hstreams t ht).2

/-- **The call**, on the lists of an accepted section. -/
theorem caFormatPmt_eq {order : ByteOrder} {pmt : List UInt8} {view : Pmt}
    (hdescriptors : descriptorsForEach (programInfo order pmt) = view.descriptors)
    (hstreams : streamsForEach order pmt = view.streams.map PmtStream.view)
    (hitems : ∀ s ∈ view.streams, ∀ item ∈ s.descriptors, IsItem item) (malloc : ℕ → Bool)
    (data : List UInt8) (moveCaDescriptors : Bool) (listManagement cmdId : UInt8) :
    caFormatPmt order malloc pmt data moveCaDescriptors listManagement cmdId
      = if Allocated malloc 0 (allocations view)
          ∧ calculateLength (chosen view moveCaDescriptors).1 (chosen view moveCaDescriptors).2 ≤ data.length
        then
          (((caPmtBytes order pmt (chosen view moveCaDescriptors).1 (chosen view moveCaDescriptors).2
              listManagement cmdId).length : ℤ),
            storeAt 0 (caPmtBytes order pmt (chosen view moveCaDescriptors).1
              (chosen view moveCaDescriptors).2 listManagement cmdId) data)
        else (-1, data) := by
  have hsplit : Allocated malloc 0 (allocations view)
      ↔ Allocated malloc 0 (caOf view.descriptors).length
        ∧ Allocated malloc (0 + (caOf view.descriptors).length)
          (view.streams.map fun s => 1 + (caOf s.descriptors).length).sum := by
    rw [allocations, allocated_add]
  rw [caFormatPmt, hdescriptors, hstreams, extractDescriptors_eq]
  by_cases hpmt : Allocated malloc 0 (caOf view.descriptors).length
  · rw [if_pos hpmt]
    simp only [extractStreams_eq malloc _ hitems]
    by_cases hrest : Allocated malloc (0 + (caOf view.descriptors).length)
        (view.streams.map fun s => 1 + (caOf s.descriptors).length).sum
    · rw [if_pos hrest]
      show (if data.length < calculateLength (chosen view moveCaDescriptors).1
        (chosen view moveCaDescriptors).2 then _ else _) = _
      by_cases hroom : data.length
          < calculateLength (chosen view moveCaDescriptors).1 (chosen view moveCaDescriptors).2
      · rw [if_pos hroom, if_neg fun h => absurd h.2 (Nat.not_le.mpr hroom)]
      · have hok : Allocated malloc 0 (allocations view)
            ∧ calculateLength (chosen view moveCaDescriptors).1 (chosen view moveCaDescriptors).2 ≤ data.length :=
          ⟨hsplit.mpr ⟨hpmt, hrest⟩, Nat.not_lt.mp hroom⟩
        rw [if_neg hroom, if_pos hok]
        rfl
    · rw [if_neg hrest, if_neg fun h => hrest (hsplit.mp h.1).2]
  · rw [if_neg hpmt, if_neg fun h => hpmt (hsplit.mp h.1).1]

/-- An object of the conditional access of a program map is written, or nothing: `ok` tells when the call
may fail for another reason than the size of the buffer. -/
def Formats (order : ByteOrder) (buf pmt : List UInt8) (moveCaDescriptors : Bool)
    (listManagement cmdId : UInt8) (ok : Pmt → (ℕ → Bool) → Prop) : Prop :=
  ∃ view, PmtLayout order buf view ∧ ∃ out ca, readCaPmt out = some ca
    ∧ Preserves view listManagement cmdId ca
    ∧ ∀ (malloc : ℕ → Bool) (data : List UInt8),
      (ok view malloc ∧ out.length ≤ data.length →
        caFormatPmt order malloc pmt data moveCaDescriptors listManagement cmdId
          = ((out.length : ℤ), out ++ data.drop out.length))
      ∧ (¬ (ok view malloc ∧ out.length ≤ data.length) →
        caFormatPmt order malloc pmt data moveCaDescriptors listManagement cmdId = (-1, data))

/-- **A CA PMT preserves the conditional access information**, if the call can allocate its lists. -/
theorem caFormatPmt_spec {order : ByteOrder} {buf pmt : List UInt8}
    (h : mpegPmtSectionCodec order buf = some pmt) (moveCaDescriptors : Bool) (listManagement cmdId : UInt8) :
    Formats order buf pmt moveCaDescriptors listManagement cmdId
      fun view malloc => Allocated malloc 0 (allocations view) := by
  obtain ⟨view, hlayout, hnumber, hversion, hcurrent, hdescriptors, hstreams⟩ := mpegPmtSectionCodec_spec order h
  obtain ⟨hshort, hshorts⟩ := hlayout.short
  obtain ⟨hitems, hstreamItems⟩ := hlayout.items
  have hfits := (chosen_replaces view moveCaDescriptors).fits (fits_caOf hitems hshort) fun s hs =>
    ⟨fits_caOf (hstreamItems s hs).1 (hshorts s hs), (hstreamItems s hs).2⟩
  have hread := readCaPmt_bytes order pmt hfits.1 hfits.2 listManagement cmdId
  rw [hnumber, hversion, hcurrent] at hread
  have hlength := caPmtBytes_length order pmt hfits.1.1 (fun s hs => (hfits.2 s hs).1.1) listManagement cmdId
  refine ⟨view, hlayout, _, _, hread, (chosen_replaces view moveCaDescriptors).preserves listManagement cmdId,
    fun malloc data => ?_⟩
  rw [caFormatPmt_eq hdescriptors hstreams (fun s hs => (hstreamItems s hs).1), hlength]
  exact ⟨fun hok => by rw [if_pos hok, storeAt, List.take_zero, List.nil_append, Nat.zero_add, hlength],
    fun hnot => if_neg hnot⟩

/-- A program map with a conditional access descriptor on its only stream. -/
def oneStream : List UInt8 :=
  [0x02, 0xb0, 0x18, 0x00, 0x01, 0xc3, 0x00, 0x00, 0xe1, 0x00, 0xf0, 0x00,
    0x02, 0xe1, 0x00, 0xf0, 0x06, 0x09, 0x04, 0x0b, 0x00, 0xe1, 0x23, 0, 0, 0, 0]

theorem oneStream_accepted : mpegPmtSectionCodec .big oneStream = some oneStream := by decide

theorem caFormatPmt_spec_oneStream :
    Formats .big oneStream oneStream true 3 1 fun view malloc => Allocated malloc 0 (allocations view) :=
  caFormatPmt_spec oneStream_accepted true 3 1

/-- Without memory nothing is written, however large the buffer. -/
theorem not_formats_no_memory :
    ¬ ∀ (order : ByteOrder) (buf pmt : List UInt8), mpegPmtSectionCodec order buf = some pmt →
      ∀ (moveCaDescriptors : Bool) (listManagement cmdId : UInt8),
        Formats order buf pmt moveCaDescriptors listManagement cmdId fun _ _ => True := by
  intro hall
  obtain ⟨view, -, out, ca, -, -, hcall⟩ := hall .big oneStream oneStream oneStream_accepted true 3 1
  have hdescriptors : extractDescriptors (fun _ => false) 0
      (descriptorsForEach (programInfo .big oneStream)) = some ([], 0) := by decide
  have hstreams : extractStreams (fun _ => false) 0 (streamsForEach .big oneStream) = none := by
    decide
  have hfails : caFormatPmt .big (fun _ => false) oneStream out true 3 1 = (-1, out) := by
    rw [caFormatPmt, hdescriptors]
    simp only [hstreams]
  have hsucceeds := (hcall (fun _ => false) out).1 ⟨trivial, le_rfl⟩
  have hresult := congrArg Prod.fst (hfails.symm.trans hsucceeds)
  have hnonneg : (0 : ℤ) ≤ out.length := Int.natCast_nonneg _
  simp only at hresult
  omega

end BgtDvb.En50221
