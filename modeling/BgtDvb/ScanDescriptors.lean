import Mathlib

/-!
# Descriptor loops of the scan utility

`parse_descriptors` and `find_descriptor` of `util/scan/scan.c` go over a descriptor loop with a step that is
kept in an `unsigned char`.

* `parseDescriptors_iff` — **PROVED**: the descriptors are dispatched on exactly if no step wraps, but for a last
  one that stops the loop;
* `loops_iff` — **PROVED**: and so for both.
-/

namespace BgtDvb.Dvbscan.Loops

/-! ### The loops -/

/-- `table_type` -/
inductive TableType
  | pat | pmt | sdt | nit
  deriving DecidableEq, Repr

/-- The functions that the switch calls. -/
inductive Handler
  | iso639Language | networkName | satelliteDelivery | cableDelivery | service | caIdentifier
  | terrestrialDelivery | frequencyList | terrestrialUkChannelNumber
  deriving DecidableEq, Repr

/-- The switch of `parse_descriptors`; `none` parses nothing. -/
def dispatchOn (t : TableType) (vdrDumpChannum : Bool) (tag : UInt8) : Option Handler :=
  if tag = 0x0a ∧ t = .pmt then some .iso639Language
  else if tag = 0x40 ∧ t = .nit then some .networkName
  else if tag = 0x43 ∧ t = .nit then some .satelliteDelivery
  else if tag = 0x44 ∧ t = .nit then some .cableDelivery
  else if tag = 0x48 ∧ t = .sdt then some .service
  else if tag = 0x53 ∧ t = .sdt then some .caIdentifier
  else if tag = 0x5a ∧ t = .nit then some .terrestrialDelivery
  else if tag = 0x62 ∧ t = .nit then some .frequencyList
  else if tag = 0x83 ∧ t = .nit ∧ vdrDumpChannum then some .terrestrialUkChannelNumber
  else none

/-- One round of `parse_descriptors`: the pointer, as the bytes of the loop from it on, and what is called. -/
structure Dispatch where
  buf : List UInt8
  handler : Option Handler
  deriving DecidableEq

/-- `descriptor_len` -/
def descriptorLen (len : UInt8) : UInt8 := len + 2

theorem drop_descriptorLen_length {tag len : UInt8} (rest : List UInt8) (h : descriptorLen len ≠ 0) :
    ((tag :: len :: rest).drop (descriptorLen len).toNat).length < (tag :: len :: rest).length := by
  have hpos : (descriptorLen len).toNat ≠ 0 := fun h0 => h (UInt8.toNat_inj.mp h0)
  rw [List.length_drop, List.length_cons, List.length_cons]
  omega

/-- `parse_descriptors` on the bytes of the loop; `none` is a read behind them. -/
def parseDescriptors (t : TableType) (vdrDumpChannum : Bool) : List UInt8 → Option (List Dispatch)
  | [] => some []
  | [_] => none
  | tag :: len :: rest =>
    if _h : descriptorLen len = 0 then some []
    else
      (parseDescriptors t vdrDumpChannum ((tag :: len :: rest).drop (descriptorLen len).toNat)).map
        (⟨tag :: len :: rest, dispatchOn t vdrDumpChannum tag⟩ :: ·)
termination_by buf => buf.length
decreasing_by exact drop_descriptorLen_length rest _h

/-- `find_descriptor`: the pointer and the length that it stores if it returns 1. -/
def findDescriptor (tag : UInt8) : List UInt8 → Option (Option (List UInt8 × ℕ))
  | [] => some none
  | [_] => none
  | descriptorTag :: len :: rest =>
    if _h : descriptorLen len = 0 then some none
    else if tag = descriptorTag then some (some (descriptorTag :: len :: rest, (descriptorLen len).toNat))
    else findDescriptor tag ((descriptorTag :: len :: rest).drop (descriptorLen len).toNat)
termination_by buf => buf.length
decreasing_by exact drop_descriptorLen_length rest _h

/-! ### Loops of descriptors -/

/-- A descriptor. -/
structure Descriptor where
  tag : UInt8
  payload : List UInt8
  fits : payload.length ≤ 255

def Descriptor.bytes (d : Descriptor) : List UInt8 := d.tag :: UInt8.ofNat d.payload.length :: d.payload

def loopBytes (ds : List Descriptor) : List UInt8 := ds.flatMap Descriptor.bytes

def dispatches (t : TableType) (vdrDumpChannum : Bool) : List Descriptor → List Dispatch
  | [] => []
  | d :: ds => ⟨loopBytes (d :: ds), dispatchOn t vdrDumpChannum d.tag⟩ :: dispatches t vdrDumpChannum ds

def firstWith (tag : UInt8) : List Descriptor → Option (List UInt8 × ℕ)
  | [] => none
  | d :: ds => if tag = d.tag then some (loopBytes (d :: ds), d.payload.length + 2) else firstWith tag ds

/-- Every descriptor is dispatched on, once and in order, and nothing else; the loop ends, and reads inside. -/
def Dispatches (t : TableType) (vdrDumpChannum : Bool) (ds : List Descriptor) : Prop :=
  parseDescriptors t vdrDumpChannum (loopBytes ds) = some (dispatches t vdrDumpChannum ds)

def Finds (tag : UInt8) (ds : List Descriptor) : Prop := findDescriptor tag (loopBytes ds) = some (firstWith tag ds)

def Descriptor.Steps (d : Descriptor) : Prop := d.payload.length ≤ 253

/-- The step wraps to 1, and what stands there has a step that wraps to 0. -/
def Descriptor.StopsBehind (d : Descriptor) : Prop := d.payload.length = 255 ∧ d.payload.head? = some 254

/-! ### One round -/

theorem loopBytes_cons (d : Descriptor) (ds : List Descriptor) :
    loopBytes (d :: ds) = d.tag :: UInt8.ofNat d.payload.length :: (d.payload ++ loopBytes ds) := rfl

theorem descriptorLen_toNat {n : ℕ} (h : n ≤ 253) : (descriptorLen (UInt8.ofNat n)).toNat = n + 2 := by
  rw [descriptorLen, UInt8.toNat_add, UInt8.toNat_ofNat', show (2 : UInt8).toNat = 2 from rfl]
  omega

theorem descriptorLen_ne_zero {n : ℕ} (h : n ≤ 253) : descriptorLen (UInt8.ofNat n) ≠ 0 := by
  intro h0
  have := descriptorLen_toNat h
  rw [h0] at this
  cases this

variable (t : TableType) (vdr : Bool)

variable {d : Descriptor}

theorem parseDescriptors_steps (h : d.Steps) (ds : List Descriptor) :
    parseDescriptors t vdr (loopBytes (d :: ds)) =
      (parseDescriptors t vdr (loopBytes ds)).map (⟨loopBytes (d :: ds), dispatchOn t vdr d.tag⟩ :: ·) := by
  rw [loopBytes_cons, parseDescriptors, dif_neg (descriptorLen_ne_zero h), descriptorLen_toNat h]
  rw [List.drop_succ_cons, List.drop_succ_cons, List.drop_left]

theorem parseDescriptors_254 (h : d.payload.length = 254) (ds : List Descriptor) :
    parseDescriptors t vdr (loopBytes (d :: ds)) = some [] := by
  rw [loopBytes_cons, parseDescriptors, h]
  rfl

theorem parseDescriptors_255 (h : d.payload.length = 255) (ds : List Descriptor) :
    parseDescriptors t vdr (loopBytes (d :: ds)) =
      (parseDescriptors t vdr (255 :: (d.payload ++ loopBytes ds))).map
        (⟨loopBytes (d :: ds), dispatchOn t vdr d.tag⟩ :: ·) := by
  rw [loopBytes_cons, parseDescriptors, h]
  rfl

theorem findDescriptor_steps (tag : UInt8) (h : d.Steps) (ds : List Descriptor) :
    findDescriptor tag (loopBytes (d :: ds)) =
      if tag = d.tag then some (some (loopBytes (d :: ds), d.payload.length + 2))
      else findDescriptor tag (loopBytes ds) := by
  rw [loopBytes_cons, findDescriptor, dif_neg (descriptorLen_ne_zero h), descriptorLen_toNat h]
  rw [List.drop_succ_cons, List.drop_succ_cons, List.drop_left]

theorem findDescriptor_255 (tag : UInt8) (h : d.payload.length = 255) (ds : List Descriptor) :
    findDescriptor tag (loopBytes (d :: ds)) =
      if tag = d.tag then some (some (loopBytes (d :: ds), 1))
      else findDescriptor tag (255 :: (d.payload ++ loopBytes ds)) := by
  rw [loopBytes_cons, findDescriptor, h]
  rfl

theorem payload_of_stopsBehind (h : d.StopsBehind) : ∃ rest, d.payload = 254 :: rest := by
  obtain ⟨-, hhead⟩ := h
  exact List.head?_eq_some_iff.mp hhead

/-! ### Whole loops -/

def AllStep (ds : List Descriptor) : Prop :=
  ∀ pre d post, ds = pre ++ d :: post → d.Steps ∨ post = [] ∧ d.StopsBehind

theorem allStep_nil : AllStep [] := by
  intro pre d post h
  cases pre <;> cases h

theorem allStep_cons_iff (d : Descriptor) (ds : List Descriptor) :
    AllStep (d :: ds) ↔ (d.Steps ∨ ds = [] ∧ d.StopsBehind) ∧ AllStep ds := by
  constructor
  · intro h
    exact ⟨h [] d ds rfl, fun pre e post heq => h (d :: pre) e post (by rw [heq, List.cons_append])⟩
  · rintro ⟨hd, hds⟩ pre e post heq
    cases pre with
    | nil =>
      cases heq
      exact hd
    | cons d' pre =>
      cases heq
      exact hds pre e post rfl

theorem map_cons_eq_some_iff {x : α} {o : Option (List α)} {xs : List α} :
    o.map (x :: ·) = some (x :: xs) ↔ o = some xs := by
  rw [Option.map_eq_some_iff]
  constructor
  · rintro ⟨xs', rfl, heq⟩
    cases heq
    rfl
  · rintro rfl
    exact ⟨xs, rfl, rfl⟩

theorem parseDescriptors_cons {tag : UInt8} (h : parseDescriptors t vdr (tag :: len :: rest) = some (x :: xs)) :
    x.buf = tag :: len :: rest := by
  rw [parseDescriptors] at h
  split at h
  · cases h
  · obtain ⟨xs', -, heq⟩ := Option.map_eq_some_iff.mp h
    cases heq
    rfl

/-- Behind a descriptor of 255 bytes nothing more is dispatched on only if the loop stops. -/
theorem parseDescriptors_behind_iff (h : d.payload.length = 255) (ds : List Descriptor) :
    parseDescriptors t vdr (255 :: (d.payload ++ loopBytes ds)) = some (dispatches t vdr ds) ↔
      ds = [] ∧ d.StopsBehind := by
  obtain ⟨p, payload, hp⟩ := List.exists_cons_of_ne_nil (fun hnil => by simp [hnil] at h : d.payload ≠ [])
  rw [hp, List.cons_append]
  constructor
  · intro heq
    cases ds with
    | nil =>
      refine ⟨rfl, h, ?_⟩
      rw [parseDescriptors] at heq
      split at heq
      · next hzero =>
        have : p = 254 := by
          rw [descriptorLen] at hzero
          have hp0 := congrArg UInt8.toNat hzero
          rw [UInt8.toNat_add, show (2 : UInt8).toNat = 2 from rfl, show (0 : UInt8).toNat = 0 from rfl] at hp0
          have hlt := p.toNat_lt
          apply UInt8.toNat_inj.mp
          rw [show (254 : UInt8).toNat = 254 from rfl]
          omega
        rw [hp, this]
        rfl
      · obtain ⟨xs, -, hnil⟩ := Option.map_eq_some_iff.mp heq
        cases hnil
    | cons e es =>
      -- the next round would start behind this descriptor
      have hbuf := congrArg List.length (parseDescriptors_cons t vdr heq)
      rw [loopBytes_cons] at hbuf
      rw [loopBytes_cons, hp] at *
      simp only [List.length_cons, List.length_append] at hbuf h
      omega
  · rintro ⟨rfl, hstops⟩
    obtain ⟨rest, hrest⟩ := payload_of_stopsBehind hstops
    cases hp.symm.trans hrest
    rw [parseDescriptors]
    rfl

/-- **`parse_descriptors`** dispatches on exactly the descriptors if no step wraps, but for a last one that stops
the loop. -/
theorem parseDescriptors_iff (ds : List Descriptor) : Dispatches t vdr ds ↔ AllStep ds := by
  induction ds with
  | nil =>
    refine iff_of_true ?_ allStep_nil
    show parseDescriptors t vdr [] = some []
    rw [parseDescriptors]
  | cons d ds ih =>
    rw [allStep_cons_iff, ← ih, Dispatches, dispatches]
    have hfits := d.fits
    by_cases hsteps : d.Steps
    · rw [parseDescriptors_steps t vdr hsteps, map_cons_eq_some_iff]
      exact (and_iff_right (.inl hsteps)).symm
    · rw [or_iff_right hsteps]
      have hlen : d.payload.length = 254 ∨ d.payload.length = 255 := by
        rw [Descriptor.Steps] at hsteps
        omega
      obtain h254 | h255 := hlen
      · rw [parseDescriptors_254 t vdr h254]
        refine iff_of_false (fun h => (by cases h)) ?_
        rintro ⟨⟨-, h255, -⟩, -⟩
        omega
      · rw [parseDescriptors_255 t vdr h255, map_cons_eq_some_iff, parseDescriptors_behind_iff t vdr h255]
        refine ⟨fun h => ⟨h, ?_⟩, fun h => h.1⟩
        rw [h.1, Dispatches]
        show parseDescriptors t vdr [] = some []
        rw [parseDescriptors]

theorem finds_of_mem {tag : UInt8} {pre : List Descriptor} (hsteps : ∀ d ∈ pre, d.Steps)
    (hmem : ∃ e ∈ pre, e.tag = tag) (ds : List Descriptor) : Finds tag (pre ++ ds) := by
  induction pre with
  | nil =>
    obtain ⟨e, he, -⟩ := hmem
    cases he
  | cons d pre ih =>
    rw [List.cons_append, Finds, findDescriptor_steps tag (hsteps d List.mem_cons_self), firstWith]
    by_cases htag : tag = d.tag
    · rw [if_pos htag, if_pos htag]
    · rw [if_neg htag, if_neg htag]
      refine ih (fun e he => hsteps e (List.mem_cons_of_mem d he)) ?_
      obtain ⟨e, he, heq⟩ := hmem
      obtain rfl | he := List.mem_cons.mp he
      · exact absurd heq.symm htag
      · exact ⟨e, he, heq⟩

theorem finds_append_iff {tag : UInt8} {pre : List Descriptor} (hsteps : ∀ d ∈ pre, d.Steps)
    (hother : ∀ e ∈ pre, e.tag ≠ tag) (ds : List Descriptor) : Finds tag (pre ++ ds) ↔ Finds tag ds := by
  induction pre with
  | nil => exact Iff.rfl
  | cons d pre ih =>
    have htag : tag ≠ d.tag := (hother d List.mem_cons_self).symm
    rw [List.cons_append, Finds, findDescriptor_steps tag (hsteps d List.mem_cons_self), firstWith, if_neg htag,
      if_neg htag]
    exact ih (fun e he => hsteps e (List.mem_cons_of_mem d he)) fun e he => hother e (List.mem_cons_of_mem d he)

theorem finds_nil (tag : UInt8) : Finds tag [] := by
  show findDescriptor tag [] = some none
  rw [findDescriptor]

theorem finds_stopsBehind_iff (tag : UInt8) (h : d.StopsBehind) : Finds tag [d] ↔ d.tag ≠ tag := by
  obtain ⟨rest, hrest⟩ := payload_of_stopsBehind h
  rw [Finds, findDescriptor_255 tag h.1, firstWith]
  by_cases htag : tag = d.tag
  · rw [if_pos htag, if_pos htag]
    refine iff_of_false (fun heq => ?_) fun hne => hne htag.symm
    have hlen : 1 = d.payload.length + 2 := congrArg Prod.snd (Option.some.inj (Option.some.inj heq))
    omega
  · rw [if_neg htag, if_neg htag, hrest, List.cons_append, findDescriptor]
    exact iff_of_true rfl fun heq => htag heq.symm

/-- No step wraps, but for a last descriptor that stops the loop, and whose tag is found in front of it. -/
def Walks (ds : List Descriptor) : Prop :=
  ∀ pre d post, ds = pre ++ d :: post →
    d.Steps ∨ post = [] ∧ d.StopsBehind ∧ ∃ e ∈ pre, e.tag = d.tag

theorem Walks.allStep {ds : List Descriptor} (h : Walks ds) : AllStep ds := by
  intro pre d post heq
  obtain hsteps | ⟨hpost, hstops, -⟩ := h pre d post heq
  · exact .inl hsteps
  · exact .inr ⟨hpost, hstops⟩

theorem AllStep.steps_of_append {ds : List Descriptor} (h : AllStep (pre ++ ds)) (hds : ds ≠ []) :
    ∀ d ∈ pre, d.Steps := by
  intro d hd
  obtain ⟨pre₁, pre₂, rfl⟩ := List.append_of_mem hd
  obtain hsteps | ⟨hpost, -⟩ := h pre₁ d (pre₂ ++ ds) (by simp)
  · exact hsteps
  · exact absurd (List.append_eq_nil_iff.mp hpost).2 hds

/-- **Descriptor loops**: both functions do what the loop asks for exactly if no step wraps, but for a last
descriptor that stops the loop, and whose tag is found in front of it. -/
theorem loops_iff (ds : List Descriptor) : (Dispatches t vdr ds ∧ ∀ tag, Finds tag ds) ↔ Walks ds := by
  rw [parseDescriptors_iff]
  constructor
  · rintro ⟨hall, hfinds⟩ pre d post rfl
    obtain hsteps | ⟨rfl, hstops⟩ := hall pre d post rfl
    · exact .inl hsteps
    · refine .inr ⟨rfl, hstops, ?_⟩
      by_contra hnone
      have hother : ∀ e ∈ pre, e.tag ≠ d.tag := fun e he htag => hnone ⟨e, he, htag⟩
      have hfind := (finds_append_iff (hall.steps_of_append (List.cons_ne_nil d [])) hother [d]).mp (hfinds d.tag)
      exact (finds_stopsBehind_iff d.tag hstops).mp hfind rfl
  · intro hwalks
    refine ⟨hwalks.allStep, fun tag => ?_⟩
    obtain rfl | ⟨pre, d, rfl⟩ := List.eq_nil_or_concat' ds
    · exact finds_nil tag
    · have hpre := hwalks.allStep.steps_of_append (List.cons_ne_nil d [])
      by_cases hmem : ∃ e ∈ pre, e.tag = tag
      · exact finds_of_mem hpre hmem [d]
      · have hother : ∀ e ∈ pre, e.tag ≠ tag := fun e he htag => hmem ⟨e, he, htag⟩
        rw [finds_append_iff hpre hother]
        obtain hsteps | ⟨-, hstops, e, he, htag⟩ := hwalks pre d [] rfl
        · by_cases htag : d.tag = tag
          · exact @finds_of_mem _ [d] (by simpa using hsteps) ⟨d, List.mem_singleton_self d, htag⟩ []
          · exact (@finds_append_iff _ [d] (by simpa using hsteps) (by simpa using htag) []).mpr (finds_nil tag)
        · exact (finds_stopsBehind_iff tag hstops).mpr fun hd => hother e he (htag.trans hd)

/-- A descriptor of 254 bytes, and one behind it. -/
def longLoop : List Descriptor :=
  [⟨0x48, List.replicate 254 0, (List.length_replicate ..).le.trans (Nat.le_succ 254)⟩, ⟨0x53, [], Nat.zero_le 255⟩]

/-- Neither is dispatched on. -/
theorem not_walks_longLoop : ¬∀ (t : TableType) (vdr : Bool) (ds : List Descriptor),
    Dispatches t vdr ds ∧ ∀ tag, Finds tag ds := by
  intro h
  have hd := (h .sdt false longLoop).1
  rw [Dispatches, longLoop, parseDescriptors_254 .sdt false (List.length_replicate ..)] at hd
  cases hd

end BgtDvb.Dvbscan.Loops
