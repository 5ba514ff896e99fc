import BgtDvb.Lib.Walks
import BgtDvb.SectionExt

/-!
# The pieces of the table codecs

The codecs of `libucsi` for the sections of the MPEG, DVB and ATSC tables go over a section where it lies in
memory: they check lengths against the end of the section, swap the words of the bit-fields, and leave the rest.

* `verifyDescriptors_ok_iff`, `takes_block` — **PROVED**: the code gets through exactly there;
* `verifyDescriptors_tiling` — **PROVED**: the iterator over descriptors goes over what the check accepts.

A position is the number of bytes from the start of the section; sums of positions stay far below `SIZE_MAX` inside
a buffer.
-/

namespace BgtDvb.Ucsi.Table

open BgtDvb.Walks
open BgtDvb.Words

variable (order : ByteOrder)

/-! ### Fields -/

def value : ByteOrder → List UInt8 → ℕ
  | .big, bytes => beNat bytes
  | .little, bytes => beNat bytes.reverse

def be (buf : List UInt8) (i k : ℕ) : ℕ := beNat (slice buf i k)

def host (buf : List UInt8) (i k : ℕ) : ℕ := value order (slice buf i k)

/-- `bswap16`, `bswap24`, `bswap32` and `bswap64`, by the number of bytes. -/
def bswap (i k : ℕ) : Walk Unit :=
  match order with
  | .big => pure ()
  | .little => reverse i k

/-- A field of `k` bytes. -/
def word (i k : ℕ) : Walk ℕ := do
  let bytes ← read i k
  pure (value order bytes)

def bswapAll (pos : ℕ) : List (ℕ × ℕ) → Walk Unit
  | [] => pure ()
  | f :: fields => do
    bswap order (pos + f.1) f.2
    bswapAll pos fields

def shift (pos : ℕ) (fields : List (ℕ × ℕ)) : List (ℕ × ℕ) := fields.map fun f => (pos + f.1, f.2)

def swapped (fields : List (ℕ × ℕ)) (buf : List UInt8) : List UInt8 :=
  match order with
  | .big => buf
  | .little => turnAll fields buf

theorem beNat_single (b : UInt8) : beNat [b] = b.toNat := by
  rw [beNat, List.foldl_cons, List.foldl_nil, Nat.zero_mul, Nat.zero_add]

variable {buf buf' sent : List UInt8} {i k a b pos n len : ℕ} {r : ℕ × List UInt8} {ds : List ℕ}

theorem word_ok_iff : (word order i k).run buf = .ok r ↔ i + k ≤ buf.length ∧ r = (host order buf i k, buf) := by
  rw [word, bind_ok_iff]
  constructor
  · rintro ⟨bytes, buf', hread, hpure⟩
    obtain ⟨hroom, heq⟩ := read_ok_iff.mp hread
    cases heq
    cases hpure
    exact ⟨hroom, rfl⟩
  · rintro ⟨hroom, rfl⟩
    exact ⟨slice buf i k, buf, read_ok_iff.mpr ⟨hroom, rfl⟩, rfl⟩

variable {order}

theorem swapped_keeps (order : ByteOrder) {fields : List (ℕ × ℕ)} (h : Apart a b fields) (hb : b ≤ buf.length) :
    (swapped order fields buf).length = buf.length ∧ (swapped order fields buf).take a = buf.take a
      ∧ (swapped order fields buf).drop b = buf.drop b := by
  cases order with
  | big => exact ⟨rfl, rfl, rfl⟩
  | little => exact turnAll_keeps h hb

theorem swapped_append (fields fields' : List (ℕ × ℕ)) (buf : List UInt8) :
    swapped order (fields ++ fields') buf = swapped order fields' (swapped order fields buf) := by
  cases order with
  | big => rfl
  | little => exact turnAll_append fields fields' buf

/-- **A word that was swapped** is read as the number that was sent. -/
theorem host_swapped {fields : List (ℕ × ℕ)} (h : Apart a b fields) (hb : b ≤ buf.length) (hf : (i, k) ∈ fields) :
    host order (swapped order fields buf) i k = be buf i k := by
  cases order with
  | big => rfl
  | little =>
    show beNat (slice (turnAll fields buf) i k).reverse = beNat (slice buf i k)
    rw [slice_turnAll_mem h hb hf, List.reverse_reverse]

theorem apart_shift (pos : ℕ) {fields : List (ℕ × ℕ)} (h : Apart a b fields) :
    Apart (pos + a) (pos + b) (shift pos fields) := by
  induction fields generalizing a with
  | nil => exact Nat.add_le_add_left h pos
  | cons f fields ih =>
    refine ⟨Nat.add_le_add_left h.1 pos, ?_⟩
    rw [Nat.add_assoc]
    exact ih h.2

theorem bswap_run (h : i + k ≤ buf.length) : (bswap order i k).run buf = .ok ((), swapped order [(i, k)] buf) := by
  cases order with
  | big => rfl
  | little => exact reverse_ok_iff.mpr ⟨h, rfl⟩

theorem bswapAll_run {fields : List (ℕ × ℕ)} (h : Apart a b fields) (hb : pos + b ≤ buf.length) :
    (bswapAll order pos fields).run buf = .ok ((), swapped order (shift pos fields) buf) := by
  induction fields generalizing a buf with
  | nil => cases order <;> rfl
  | cons f fields ih =>
    have hend := Apart.le h.2
    have hroom : pos + f.1 + f.2 ≤ buf.length := by omega
    have hapart : Apart (pos + f.1) (pos + f.1 + f.2) [(pos + f.1, f.2)] := ⟨le_rfl, le_rfl⟩
    have hlen := (swapped_keeps order hapart hroom).1
    rw [bswapAll, run_bind_ok (bswap_run hroom), ih h.2 (hlen.symm ▸ hb), ← swapped_append]
    rfl

/-! ### Descriptors -/

/-- One round of the loop of `verify_descriptors`. -/
def skipDescriptor (stop pos : ℕ) : Walk ℕ := do
  require (pos + 2 ≤ stop)
  let len ← read (pos + 1) 1
  pure (pos + 2 + beNat len)

/-- `verify_descriptors` on `len` bytes; the caller gives the section up if it fails. -/
def verifyDescriptors (pos len : ℕ) : Walk Unit := do
  let pos' ← whileBelow (pos + len) (skipDescriptor (pos + len)) len pos
  require (pos' = pos + len)

def Descriptor (buf : List UInt8) (a b x : ℕ) : Prop := x = a ∧ b = a + 2 + be buf (a + 1) 1

theorem skipDescriptor_ok_iff {stop : ℕ} (hstop : stop ≤ buf.length) :
    (skipDescriptor stop pos).run buf = .ok r ↔ pos + 2 ≤ stop ∧ r = (pos + 2 + be buf (pos + 1) 1, buf) := by
  rw [skipDescriptor, require_bind_ok_iff]
  constructor
  · rintro ⟨hroom, hrest⟩
    obtain ⟨-, hpure⟩ := read_bind_ok_iff.mp hrest
    cases hpure
    exact ⟨hroom, rfl⟩
  · rintro ⟨hroom, rfl⟩
    refine ⟨hroom, ?_⟩
    have hread : pos + 1 + 1 ≤ buf.length := by omega
    rw [run_bind_ok (read_ok_iff.mpr ⟨hread, rfl⟩)]
    rfl

theorem takes_descriptor {stop : ℕ} (hstop : stop ≤ n) :
    Takes n stop (skipDescriptor stop) Descriptor fun _ buf => buf where
  run {buf} hbuf {pos r} hr := by
    rw [skipDescriptor_ok_iff (hbuf.symm ▸ hstop)]
    constructor
    · rintro ⟨hroom, rfl⟩
      exact ⟨pos, ⟨rfl, rfl⟩, rfl⟩
    · rintro ⟨x, ⟨rfl, hend⟩, hbuf'⟩
      exact ⟨by omega, Prod.ext hend hbuf'⟩
  onward {buf} hbuf {pos r} hr := by
    obtain ⟨hroom, rfl⟩ := (skipDescriptor_ok_iff (hbuf.symm ▸ hstop)).mp hr
    exact ⟨by omega, hbuf⟩
  forward h := by
    obtain ⟨-, hend⟩ := h
    omega
  ahead {buf buf' a b x} hdrop h := by
    have hlen : be buf (a + 1) 1 = be buf' (a + 1) 1 := congrArg beNat (slice_eq_of_drop hdrop (Nat.le_add_right a 1))
    exact ⟨h.1, hlen ▸ h.2⟩
  keeps hbuf _ _ := ⟨hbuf, rfl, rfl⟩

theorem descriptors_ahead (hdrop : buf.drop a = buf'.drop a) (h : Tiles (Descriptor buf) a b ds) :
    Tiles (Descriptor buf') a b ds :=
  (takes_descriptor (le_refl 0)).tiles_ahead hdrop h

theorem effects_id {τ : Type} (xs : List τ) (buf : List UInt8) : effects (fun _ buf => buf) xs buf = buf := by
  induction xs with
  | nil => rfl
  | cons x xs ih => exact ih

theorem verifyDescriptors_ok_iff (hroom : pos + len ≤ buf.length) {r : Unit × List UInt8} :
    (verifyDescriptors pos len).run buf = .ok r ↔
      (∃ ds, Tiles (Descriptor buf) pos (pos + len) ds) ∧ r = ((), buf) := by
  have htakes := takes_descriptor hroom
  have hle : pos ≤ pos + len := Nat.le_add_right pos len
  have hfuel : pos + len - pos ≤ len := by omega
  rw [verifyDescriptors, bind_ok_iff]
  constructor
  · rintro ⟨pos', buf', hloop, hrequire⟩
    obtain ⟨rfl, rfl⟩ := require_ok_iff.mp hrequire
    obtain ⟨ds, hds, heff⟩ := (htakes.whileBelow_iff len hle hfuel rfl).mp hloop
    rw [effects_id] at heff
    exact ⟨⟨ds, hds⟩, by rw [heff]⟩
  · rintro ⟨⟨ds, hds⟩, rfl⟩
    refine ⟨pos + len, buf, (htakes.whileBelow_iff len hle hfuel rfl).mpr ⟨ds, hds, ?_⟩, ?_⟩
    · rw [effects_id]
    · exact require_ok_iff.mpr ⟨rfl, rfl⟩

/-! ### Headers with a block of descriptors -/

/-- A header: its size, the words that are swapped, and where it has the length of the block behind it. -/
structure Header where
  size : ℕ
  fields : List (ℕ × ℕ)
  lengthAt : ℕ × ℕ
  lengthBits : ℕ

/-- The words stand inside the header, and the length is one of them. -/
structure Header.Wf (h : Header) : Prop where
  apart : Apart 0 h.size h.fields
  length_mem : h.lengthAt ∈ h.fields
  size_pos : 0 < h.size

/-- A header and its block in a section whose part in front of the CRC is `len` long. -/
def block (order : ByteOrder) (h : Header) (len pos : ℕ) : Walk ℕ := do
  require (pos + h.size ≤ len)
  bswapAll order pos h.fields
  let w ← word order (pos + h.lengthAt.1) h.lengthAt.2
  require (pos + h.size + w % 2 ^ h.lengthBits ≤ len)
  verifyDescriptors (pos + h.size) (w % 2 ^ h.lengthBits)
  pure (pos + h.size + w % 2 ^ h.lengthBits)

/-- A header by its position, and the positions of the descriptors behind it. -/
structure Block where
  pos : ℕ
  descriptors : List ℕ
  deriving DecidableEq, Repr

def blockLength (h : Header) (buf : List UInt8) (pos : ℕ) : ℕ :=
  be buf (pos + h.lengthAt.1) h.lengthAt.2 % 2 ^ h.lengthBits

/-- A header with its block. -/
structure BlockAt (h : Header) (buf : List UInt8) (a b : ℕ) (x : Block) : Prop where
  pos_eq : x.pos = a
  stop_eq : b = a + h.size + blockLength h buf a
  descriptors : Tiles (Descriptor buf) (a + h.size) b x.descriptors

def Block.fields (h : Header) (x : Block) : List (ℕ × ℕ) := shift x.pos h.fields

variable {h : Header}

theorem Header.Wf.fields_mem (hw : h.Wf) (pos : ℕ) : (pos + h.lengthAt.1, h.lengthAt.2) ∈ shift pos h.fields :=
  List.mem_map.mpr ⟨h.lengthAt, hw.length_mem, rfl⟩

theorem drop_swapped_shift (order : ByteOrder) (hw : h.Wf) (hroom : pos + h.size ≤ buf.length) :
    (swapped order (shift pos h.fields) buf).length = buf.length
      ∧ (swapped order (shift pos h.fields) buf).take pos = buf.take pos
      ∧ (swapped order (shift pos h.fields) buf).drop (pos + h.size) = buf.drop (pos + h.size) :=
  swapped_keeps order (apart_shift pos hw.apart) hroom

/-- **A header and its block** are taken exactly where they stand. -/
theorem block_ok_iff (hw : h.Wf) (hlen : len ≤ buf.length) :
    (block order h len pos).run buf = .ok r ↔
      r.1 ≤ len ∧ ∃ x, BlockAt h buf pos r.1 x ∧ r.2 = swapped order (x.fields h) buf := by
  rw [block, require_bind_ok_iff]
  constructor
  · rintro ⟨hroom, hrest⟩
    rw [run_bind_ok (bswapAll_run hw.apart (hroom.trans hlen))] at hrest
    obtain ⟨w, _, hword, hrest⟩ := bind_ok_iff.mp hrest
    obtain ⟨-, heq⟩ := (word_ok_iff order).mp hword
    cases heq
    rw [host_swapped (apart_shift pos hw.apart) (hroom.trans hlen) (hw.fields_mem pos)] at hrest
    obtain ⟨hroom', hrest⟩ := require_bind_ok_iff.mp hrest
    obtain ⟨hkept, -, hdrop⟩ := drop_swapped_shift order hw (hroom.trans hlen)
    obtain ⟨_, _, hverify, hpure⟩ := bind_ok_iff.mp hrest
    obtain ⟨⟨ds, hds⟩, heq⟩ := (verifyDescriptors_ok_iff (hkept.symm ▸ hroom'.trans hlen)).mp hverify
    cases heq
    cases hpure
    exact ⟨hroom', ⟨pos, ds⟩, ⟨rfl, rfl, descriptors_ahead hdrop hds⟩, rfl⟩
  · rintro ⟨hstop, x, hx, hbuf'⟩
    have hend := hx.stop_eq
    have hroom : pos + h.size ≤ len := by omega
    obtain ⟨hkept, -, hdrop⟩ := drop_swapped_shift order hw (hroom.trans hlen)
    refine ⟨hroom, ?_⟩
    have hword : pos + h.lengthAt.1 + h.lengthAt.2 ≤ (swapped order (shift pos h.fields) buf).length := by
      have hmem := (hw.apart.mem hw.length_mem).2
      omega
    rw [run_bind_ok (bswapAll_run hw.apart (hroom.trans hlen)), run_bind_ok ((word_ok_iff order).mpr ⟨hword, rfl⟩),
      host_swapped (apart_shift pos hw.apart) (hroom.trans hlen) (hw.fields_mem pos), ← blockLength]
    have hds : Tiles (Descriptor (swapped order (shift pos h.fields) buf)) (pos + h.size)
        (pos + h.size + blockLength h buf pos) x.descriptors :=
      descriptors_ahead hdrop.symm (hend ▸ hx.descriptors)
    have hroom' : pos + h.size + blockLength h buf pos ≤ len := by omega
    rw [run_bind_ok (require_ok_iff.mpr ⟨hroom', rfl⟩),
      run_bind_ok ((verifyDescriptors_ok_iff (hkept.symm ▸ hroom'.trans hlen)).mpr ⟨⟨_, hds⟩, rfl⟩)]
    have hfields : x.fields h = shift pos h.fields := by rw [Block.fields, hx.pos_eq]
    exact congrArg Except.ok (Prod.ext hend.symm (by rw [hbuf', hfields]))

theorem takes_block (order : ByteOrder) (hw : h.Wf) (hlen : len ≤ n) :
    Takes n len (block order h len) (BlockAt h) fun x => swapped order (x.fields h) where
  run {buf} hbuf {pos r} hr := by
    rw [block_ok_iff hw (hbuf.symm ▸ hlen)]
    exact and_iff_right hr
  onward {buf} hbuf {pos r} hr := by
    obtain ⟨hstop, x, hx, hbuf'⟩ := (block_ok_iff hw (hbuf.symm ▸ hlen)).mp hr
    have hend := hx.stop_eq
    have hroom : pos + h.size ≤ buf.length := by omega
    rw [hbuf', Block.fields, hx.pos_eq]
    exact ⟨by omega, (drop_swapped_shift order hw hroom).1.trans hbuf⟩
  forward {buf a b x} hx := by
    have hend := hx.stop_eq
    have hpos := hw.size_pos
    omega
  ahead {buf buf' a b x} hdrop hx := by
    have hlength : blockLength h buf a = blockLength h buf' a :=
      congrArg (fun bytes => beNat bytes % 2 ^ h.lengthBits) (slice_eq_of_drop hdrop (Nat.le_add_right a _))
    have hblock := drop_eq_of_le hdrop (Nat.le_add_right a h.size)
    exact ⟨hx.pos_eq, hlength ▸ hx.stop_eq, descriptors_ahead hblock hx.descriptors⟩
  keeps {buf a b x} hbuf hb hx := by
    have hend := hx.stop_eq
    have hroom : a + h.size ≤ buf.length := by omega
    obtain ⟨hkept, htake, hdrop⟩ := drop_swapped_shift order hw hroom
    rw [Block.fields, hx.pos_eq]
    exact ⟨hkept.trans hbuf, htake, drop_eq_of_le hdrop (by omega)⟩

section Standing

variable {h : Header} (hw : h.Wf) {buf buf' : List UInt8} {a b : ℕ}
include hw

theorem blockAt_lt {x : Block} (hx : BlockAt h buf a b x) : a + h.size ≤ b ∧ a < b := by
  have hend := hx.stop_eq
  have hpos := hw.size_pos
  omega

theorem blockAt_ahead {x : Block} (hdrop : buf.drop a = buf'.drop a) (hx : BlockAt h buf a b x) :
    BlockAt h buf' a b x :=
  (takes_block .big hw (le_refl 0)).ahead hdrop hx

theorem blocks_le {xs : List Block} (hxs : Tiles (BlockAt h buf) a b xs) : a ≤ b :=
  (takes_block .big hw (le_refl 0)).tiles_le hxs

theorem blocks_ahead {xs : List Block} (hdrop : buf.drop a = buf'.drop a) (hxs : Tiles (BlockAt h buf) a b xs) :
    Tiles (BlockAt h buf') a b xs :=
  (takes_block .big hw (le_refl 0)).tiles_ahead hdrop hxs

end Standing

/-! ### A section that has been swapped -/

theorem be_eq_of_sameOn (h : SameOn a b buf buf') (hi : a ≤ i) (hk : i + k ≤ b) : be buf i k = be buf' i k :=
  congrArg beNat (h i k hi hk)

theorem host_eq_of_sameOn (h : SameOn a b buf buf') (hi : a ≤ i) (hk : i + k ≤ b) :
    host order buf i k = host order buf' i k :=
  congrArg (value order) (h i k hi hk)

theorem descriptors_sameOn (hsame : SameOn a b buf buf') (h : Tiles (Descriptor buf) a b ds) :
    Tiles (Descriptor buf') a b ds := by
  refine (h.mono (fun i j x hi hj hx => ?_) fun i j x hx => ?_).2
  · have hend := hx.2
    have hlen := be_eq_of_sameOn hsame (Nat.le_add_right_of_le hi : a ≤ i + 1) (show i + 1 + 1 ≤ b by omega)
    exact ⟨hx.1, hlen ▸ hend⟩
  · have hend := hx.2
    omega

/-- A header with its block when its words have been swapped, and the bytes that were sent: the host reads the
numbers that were sent, and all other bytes are as they were. -/
structure BlockDone (order : ByteOrder) (h : Header) (sent buf : List UInt8) (a b : ℕ) (x : Block) : Prop where
  pos_eq : x.pos = a
  stop_eq : b = a + h.size + host order buf (a + h.lengthAt.1) h.lengthAt.2 % 2 ^ h.lengthBits
  fields : ∀ f ∈ h.fields, host order buf (a + f.1) f.2 = be sent (a + f.1) f.2
  others : ∀ i k, i + k ≤ h.size → (∀ f ∈ h.fields, i + k ≤ f.1 ∨ f.1 + f.2 ≤ i) →
    slice buf (a + i) k = slice sent (a + i) k
  descriptors : Tiles (Descriptor buf) (a + h.size) b x.descriptors
  payload : SameOn (a + h.size) b buf sent

theorem blockDone_of_blockAt (hw : h.Wf) {x : Block} (hb : b ≤ buf.length) (hsent : buf.drop a = sent.drop a)
    (hx : BlockAt h buf a b x) : BlockDone order h sent (swapped order (x.fields h) buf) a b x := by
  have hend := hx.stop_eq
  have hroom : a + h.size ≤ buf.length := by omega
  have hapart := apart_shift a hw.apart
  obtain ⟨-, -, hdrop⟩ := drop_swapped_shift order hw hroom
  have hfields : ∀ f ∈ h.fields, host order (swapped order (shift a h.fields) buf) (a + f.1) f.2
      = be sent (a + f.1) f.2 := fun f hf => by
    rw [host_swapped hapart hroom (List.mem_map.mpr ⟨f, hf, rfl⟩)]
    exact congrArg beNat (slice_eq_of_drop hsent (Nat.le_add_right a _))
  rw [Block.fields, hx.pos_eq]
  refine ⟨hx.pos_eq, ?_, hfields, fun i k hik hclear => ?_, descriptors_ahead hdrop.symm hx.descriptors, ?_⟩
  · rw [hfields h.lengthAt hw.length_mem, hend, blockLength]
    have hlength : be buf (a + h.lengthAt.1) h.lengthAt.2 = be sent (a + h.lengthAt.1) h.lengthAt.2 :=
      congrArg beNat (slice_eq_of_drop hsent (Nat.le_add_right a _))
    rw [hlength]
  · have hkept : slice (swapped order (shift a h.fields) buf) (a + i) k = slice buf (a + i) k := by
      cases order with
      | big => rfl
      | little =>
        refine slice_turnAll_other (fun f hf => ?_) fun f hf => ?_
        · have hmem := (hapart.mem hf).2
          omega
        · obtain ⟨g, hg, rfl⟩ := List.mem_map.mp hf
          have hgi := hclear g hg
          dsimp only
          omega
    exact hkept.trans (slice_eq_of_drop hsent (Nat.le_add_right a i))
  · exact (sameOn_of_drop hdrop).trans (sameOn_of_drop (drop_eq_of_le hsent (Nat.le_add_right a h.size)))

theorem blockDone_sameOn (hw : h.Wf) {x : Block} (hsame : SameOn a b buf buf') (hx : BlockDone order h sent buf a b x) :
    BlockDone order h sent buf' a b x := by
  have hend := hx.stop_eq
  have hfield : ∀ f ∈ h.fields, host order buf (a + f.1) f.2 = host order buf' (a + f.1) f.2 := fun f hf => by
    have hmem := (hw.apart.mem hf).2
    exact host_eq_of_sameOn hsame (Nat.le_add_right a _) (by omega)
  refine ⟨hx.pos_eq, ?_, fun f hf => (hfield f hf).symm.trans (hx.fields f hf), fun i k hik hclear => ?_, ?_, ?_⟩
  · rw [← hfield h.lengthAt hw.length_mem]
    exact hend
  · exact (hsame (a + i) k (Nat.le_add_right a i) (by omega)).symm.trans (hx.others i k hik hclear)
  · exact descriptors_sameOn (hsame.mono (Nat.le_add_right a _) le_rfl) hx.descriptors
  · exact (hsame.mono (Nat.le_add_right a _) le_rfl).symm.trans hx.payload

/-- **The blocks of a loop** at its end. -/
theorem blocksDone (hw : h.Wf) (hlen : len ≤ n) (hbuf : buf.length = n) (hb : b ≤ len)
    (hsent : buf.drop a = sent.drop a) {xs : List Block} (hxs : Tiles (BlockAt h buf) a b xs) :
    Tiles (BlockDone order h sent (effects (fun x => swapped order (x.fields h)) xs buf)) a b xs :=
  (takes_block order hw hlen).settle
    (fun hbuf hj hcut hx => blockDone_of_blockAt hw (hbuf.symm ▸ hj.trans hlen) hcut hx)
    (fun hsame hx => blockDone_sameOn hw hsame hx) hbuf hb hsent hxs

/-! ### Iterators over descriptors -/

/-- The `_descriptors_first` functions: a block of `len` bytes from `pos` on. -/
def descriptorsFirst (pos len : ℕ) : Option ℕ := if len = 0 then none else some pos

/-- `next_descriptor` -/
def nextDescriptor (buf : List UInt8) (start len pos : ℕ) : Option ℕ :=
  if start + len ≤ pos + 2 + be buf (pos + 1) 1 then none else some (pos + 2 + be buf (pos + 1) 1)

/-- **The iterators over descriptors** go over the descriptors of a block. -/
theorem forEach_descriptors (h : Tiles (Descriptor buf) pos (pos + len) ds) :
    ForEach (fun p _ => nextDescriptor buf pos len p) 0 (descriptorsFirst pos len) ds := by
  have hfor := (h.forEach_below id (fun p _ => nextDescriptor buf pos len p)
    (fun {i j x} hx => ⟨hx.1, by have hend := hx.2; omega⟩) (fun {i j x} idx hx => by rw [hx.2]; rfl) 0).2
  have hstart : (if pos + len ≤ pos then none else some pos) = descriptorsFirst pos len := by
    unfold descriptorsFirst
    have hzero : pos + len ≤ pos ↔ len = 0 := by omega
    exact if_congr hzero rfl rfl
  rwa [hstart, List.map_id] at hfor

/-- Descriptors that an iterator goes over: they fill the block as it was sent. -/
structure Iterated (sent buf : List UInt8) (start len : ℕ) (first : Option ℕ) (next : ℕ → Option ℕ) (ds : List ℕ) :
    Prop where
  forEach : ForEach (fun pos _ => next pos) 0 first ds
  tiles : Tiles (Descriptor sent) start (start + len) ds
  bytes : SameOn start (start + len) buf sent

theorem iterated_of_blockDone {x : Block} (hx : BlockDone order h sent buf a b x) :
    let len := host order buf (a + h.lengthAt.1) h.lengthAt.2 % 2 ^ h.lengthBits
    Iterated sent buf (a + h.size) len (descriptorsFirst (a + h.size) len) (nextDescriptor buf (a + h.size) len)
      x.descriptors := by
  have hds := hx.descriptors
  have hbytes := hx.payload
  rw [hx.stop_eq] at hds hbytes
  exact ⟨forEach_descriptors hds, descriptors_sameOn hbytes hds, hbytes⟩

theorem blocksDone_sameOn (hw : h.Wf) {xs : List Block} (hsame : SameOn a b buf buf')
    (hxs : Tiles (BlockDone order h sent buf) a b xs) : Tiles (BlockDone order h sent buf') a b xs := by
  refine (hxs.mono (fun i j x hi hj hx => ?_) fun i j x hx => ?_).2
  · exact blockDone_sameOn hw (hsame.mono hi hj) hx
  · have hend := hx.stop_eq
    omega

/-! ### No access outside the section -/

section Safe

variable {n : ℕ}

theorem safe_bswap (order : ByteOrder) {i k : ℕ} (h : i + k ≤ n) : Safe n (bswap order i k) fun _ => True := by
  cases order with
  | big => exact safe_pure trivial
  | little => exact safe_reverse h

variable {pos len : ℕ} {h : Header}

theorem safe_bswapAll (order : ByteOrder) {fields : List (ℕ × ℕ)} (h : ∀ f ∈ fields, pos + f.1 + f.2 ≤ n) :
    Safe n (bswapAll order pos fields) fun _ => True := by
  induction fields with
  | nil => exact safe_pure trivial
  | cons f fields ih =>
    refine (safe_bswap order (h f List.mem_cons_self)).bind fun _ _ => ?_
    exact ih fun g hg => h g (List.mem_cons_of_mem f hg)

theorem safe_word (order : ByteOrder) {i k : ℕ} (h : i + k ≤ n) : Safe n (word order i k) fun _ => True :=
  (safe_read h).bind fun _ _ => safe_pure trivial

/-- **`verify_descriptors`** on bytes of the buffer ends, and reads no others. -/
theorem safe_verifyDescriptors (h : pos + len ≤ n) : Safe n (verifyDescriptors pos len) fun _ => True := by
  have hbody : ∀ p, True → p < pos + len →
      Safe n (skipDescriptor (pos + len) p) fun p' => p < p' ∧ True := by
    intro p _ hp
    refine (safe_require _).bind fun _ hroom => ?_
    have hread : p + 1 + 1 ≤ n := by omega
    exact (safe_read hread).bind fun _ _ => safe_pure ⟨by omega, trivial⟩
  have hfuel : pos + len - pos ≤ len := by omega
  exact (safe_whileBelow hbody len trivial hfuel).bind fun _ _ => (safe_require _).mono fun _ _ => trivial

/-- **A header and its block** leave the walk inside the section, and go forward. -/
theorem safe_block (order : ByteOrder) (hsize : 0 < h.size)
    (hfields : pos + h.size ≤ len → ∀ f ∈ h.lengthAt :: h.fields, pos + f.1 + f.2 ≤ n) (hlen : len ≤ n) :
    Safe n (block order h len pos) fun pos' => pos < pos' ∧ pos' ≤ len := by
  refine (safe_require _).bind fun _ hroom => ?_
  have hmem := hfields hroom
  refine (safe_bswapAll order fun f hf => hmem f (List.mem_cons_of_mem _ hf)).bind fun _ _ => ?_
  refine (safe_word order (hmem h.lengthAt List.mem_cons_self)).bind fun w _ => ?_
  refine (safe_require _).bind fun _ hroom' => ?_
  refine (safe_verifyDescriptors (hroom'.trans hlen)).bind fun _ _ => ?_
  exact safe_pure ⟨by omega, hroom'⟩

theorem Header.Wf.inside (hw : h.Wf) (hlen : len ≤ n) (hroom : pos + h.size ≤ len) :
    ∀ f ∈ h.lengthAt :: h.fields, pos + f.1 + f.2 ≤ n := by
  intro f hf
  have hmem : f ∈ h.fields := by
    rcases List.mem_cons.mp hf with rfl | hf
    · exact hw.length_mem
    · exact hf
  have hend := (hw.apart.mem hmem).2
  omega

theorem Header.Wf.safe_block (order : ByteOrder) (hw : h.Wf) (hlen : len ≤ n) :
    Safe n (block order h len pos) fun pos' => pos < pos' ∧ pos' ≤ len :=
  Table.safe_block order hw.size_pos (hw.inside hlen) hlen

end Safe

/-! ### The tiling of a block -/

/-- The bytes of a descriptor, its tag and its length among them. -/
def descriptorSize (buf : List UInt8) (pos : ℕ) : ℕ := 2 + be buf (pos + 1) 1

/-- Descriptors, by their positions, that fill the `len` bytes from `pos` on. -/
structure Tiling (buf : List UInt8) (pos len : ℕ) (ds : List ℕ) : Prop where
  first : ds.head? = descriptorsFirst pos len
  adjacent : ds.IsChain fun p q => q = p + descriptorSize buf p
  inside : ∀ p ∈ ds, pos ≤ p ∧ p + descriptorSize buf p ≤ pos + len
  total : (ds.map (descriptorSize buf)).sum = len

theorem descriptorsFirst_of_pos (h : 0 < len) : descriptorsFirst pos len = some pos :=
  if_neg h.ne'

theorem tiling_of_tiles (h : Tiles (Descriptor buf) a b ds) : a ≤ b ∧ Tiling buf a (b - a) ds := by
  induction h with
  | @nil a =>
    rw [Nat.sub_self]
    exact ⟨le_rfl, rfl, List.IsChain.nil, fun p hp => absurd hp List.not_mem_nil, rfl⟩
  | @cons a b c x xs first rest ih =>
    obtain ⟨rfl, hend⟩ := first
    obtain ⟨hle, htail⟩ := ih
    have hsize : b = x + descriptorSize buf x := by
      show b = x + (2 + be buf (x + 1) 1)
      omega
    have hroom : x + descriptorSize buf x ≤ x + (c - x) := by omega
    refine ⟨by omega, (descriptorsFirst_of_pos (by omega)).symm, ?_, fun p hp => ?_, ?_⟩
    · refine List.IsChain.cons htail.adjacent fun q hq => ?_
      rw [htail.first] at hq
      unfold descriptorsFirst at hq
      split_ifs at hq
      · cases hq
      · cases hq
        exact hsize
    · rcases List.mem_cons.mp hp with rfl | hp
      · exact ⟨le_rfl, hroom⟩
      · have hin := htail.inside p hp
        omega
    · rw [List.map_cons, List.sum_cons, htail.total]
      omega

theorem tiles_of_tiling (hfirst : ds.head? = descriptorsFirst pos len)
    (hadjacent : ds.IsChain fun p q => q = p + descriptorSize buf p)
    (htotal : (ds.map (descriptorSize buf)).sum = len) : Tiles (Descriptor buf) pos (pos + len) ds := by
  induction ds generalizing pos len with
  | nil =>
    obtain rfl : 0 = len := htotal
    exact .nil
  | cons d ds ih =>
    rw [List.map_cons, List.sum_cons] at htotal
    have hlen : 0 < len := by
      unfold descriptorSize at htotal
      omega
    rw [descriptorsFirst_of_pos hlen] at hfirst
    obtain rfl : d = pos := Option.some.inj hfirst
    have hrest : Tiles (Descriptor buf) (d + descriptorSize buf d)
        (d + descriptorSize buf d + (ds.map (descriptorSize buf)).sum) ds := by
      apply ih _ hadjacent.tail rfl
      cases ds with
      | nil => rfl
      | cons e ds =>
        obtain rfl : e = d + descriptorSize buf d := (List.isChain_cons_cons.mp hadjacent).1
        refine (descriptorsFirst_of_pos ?_).symm
        rw [List.map_cons, List.sum_cons, descriptorSize]
        omega
    have hend : d + descriptorSize buf d + (ds.map (descriptorSize buf)).sum = d + len := by omega
    rw [hend] at hrest
    refine .cons ⟨rfl, ?_⟩ hrest
    show d + (2 + be buf (d + 1) 1) = d + 2 + be buf (d + 1) 1
    omega

/-- **`verify_descriptors` and `next_descriptor` agree**: what is accepted is a tiling, which the iterator goes over
and comes to the end of; what has no tiling is refused. -/
theorem verifyDescriptors_tiling (buf : List UInt8) (pos len : ℕ) (hroom : pos + len ≤ buf.length) :
    ((∃ ds, Tiling buf pos len ds) ∧ (verifyDescriptors pos len).run buf = .ok ((), buf) ∨
      (¬ ∃ ds, Tiling buf pos len ds) ∧ (verifyDescriptors pos len).run buf = .error .refused) ∧
    ((verifyDescriptors pos len).run buf = .ok ((), buf) → ∃ ds, Tiling buf pos len ds ∧
      ForEach (fun p _ => nextDescriptor buf pos len p) 0 (descriptorsFirst pos len) ds) := by
  have hiff := verifyDescriptors_ok_iff hroom (r := ((), buf))
  have htiles : (verifyDescriptors pos len).run buf = .ok ((), buf) → ∃ ds, Tiling buf pos len ds ∧
      ForEach (fun p _ => nextDescriptor buf pos len p) 0 (descriptorsFirst pos len) ds := by
    intro hok
    obtain ⟨⟨ds, hds⟩, -⟩ := hiff.mp hok
    have htiling := (tiling_of_tiles hds).2
    rw [Nat.add_sub_cancel_left] at htiling
    exact ⟨ds, htiling, forEach_descriptors hds⟩
  refine ⟨?_, htiles⟩
  have hends := safe_verifyDescriptors hroom buf rfl
  cases hrun : (verifyDescriptors pos len).run buf with
  | ok r =>
    obtain ⟨-, rfl⟩ := (verifyDescriptors_ok_iff hroom).mp hrun
    obtain ⟨ds, hds, -⟩ := htiles hrun
    exact .inl ⟨⟨ds, hds⟩, rfl⟩
  | error s =>
    rw [hrun] at hends
    obtain rfl : s = .refused := hends
    refine .inr ⟨fun ⟨ds, hds⟩ => ?_, rfl⟩
    have hok := hiff.mpr ⟨⟨ds, tiles_of_tiling hds.first hds.adjacent hds.total⟩, rfl⟩
    rw [hrun] at hok
    cases hok

theorem verifyDescriptors_tiling_two :
    4 + 5 ≤ [0, 0, 0, 0, 0x52, 1, 7, 0x0a, 0, 9].length ∧
      ((∃ ds, Tiling [0, 0, 0, 0, 0x52, 1, 7, 0x0a, 0, 9] 4 5 ds) ∧
          (verifyDescriptors 4 5).run [0, 0, 0, 0, 0x52, 1, 7, 0x0a, 0, 9] =
            .ok ((), [0, 0, 0, 0, 0x52, 1, 7, 0x0a, 0, 9]) ∨
        (¬ ∃ ds, Tiling [0, 0, 0, 0, 0x52, 1, 7, 0x0a, 0, 9] 4 5 ds) ∧
          (verifyDescriptors 4 5).run [0, 0, 0, 0, 0x52, 1, 7, 0x0a, 0, 9] = .error .refused) :=
  ⟨by decide, (verifyDescriptors_tiling _ 4 5 (by decide)).1⟩

/-! ### The length of a section -/

/-- `section_ext_length`: a `size_t`, which wraps around below the size of the CRC. -/
def extLength (order : ByteOrder) (buf : List UInt8) : ℕ := (host order buf 1 2 % 2 ^ 12 + 3 + (2 ^ 64 - 4)) % 2 ^ 64

def sectionExtLength (order : ByteOrder) : Walk ℕ := do
  let w ← word order 1 2
  pure ((w % 2 ^ 12 + 3 + (2 ^ 64 - 4)) % 2 ^ 64)

theorem slice_one_two (h : 3 ≤ buf.length) : slice buf 1 2 = [buf.getD 1 0, buf.getD 2 0] := by
  match buf, h with
  | a :: b :: c :: rest, _ => rfl

theorem host_sectionWord (h : 3 ≤ buf.length) : host order buf 1 2 = sectionWord order buf := by
  rw [host, slice_one_two h]
  cases order with
  | big =>
    show beNat [_, _] = _
    rw [beNat, List.foldl_cons, List.foldl_cons, List.foldl_nil, Nat.zero_mul, Nat.zero_add]
    rfl
  | little =>
    show beNat [_, _] = _
    rw [beNat, List.foldl_cons, List.foldl_cons, List.foldl_nil, Nat.zero_mul, Nat.zero_add]
    rfl

theorem extLength_eq (h : buf.length = lengthField order buf + 3) (hpos : 1 ≤ lengthField order buf) :
    extLength order buf = buf.length - 4 := by
  have hlt : lengthField order buf < 2 ^ 12 := Nat.mod_lt _ (by decide)
  have hroom : 3 ≤ buf.length := by omega
  have hfield : host order buf 1 2 % 2 ^ 12 = lengthField order buf := by
    rw [host_sectionWord hroom]
    rfl
  rw [extLength, hfield]
  omega

theorem sectionExtLength_run (h : 3 ≤ buf.length) :
    (sectionExtLength order).run buf = .ok (extLength order buf, buf) := by
  rw [sectionExtLength, run_bind_ok ((word_ok_iff order).mpr ⟨h, rfl⟩)]
  rfl

theorem extLength_eq_of_take (h : buf'.take 8 = buf.take 8) : extLength order buf' = extLength order buf := by
  have hsame : slice buf' 1 2 = slice buf 1 2 := slice_eq_of_take h (by decide)
  unfold extLength host
  rw [hsame]

/-- A section whose length field is not 0: the codec sees the bytes in front of the CRC. -/
structure Whole (order : ByteOrder) (buf : List UInt8) : Prop where
  length_eq : buf.length = lengthField order buf + 3
  length_pos : 1 ≤ lengthField order buf

theorem Whole.sectionExtLength_run (h : Whole order buf) :
    (sectionExtLength order).run buf = .ok (buf.length - 4, buf) := by
  have hroom : 3 ≤ buf.length := by
    have hlen := h.length_eq
    omega
  rw [Table.sectionExtLength_run hroom, extLength_eq h.length_eq h.length_pos]

end BgtDvb.Ucsi.Table
