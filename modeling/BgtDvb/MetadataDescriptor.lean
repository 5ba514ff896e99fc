import BgtDvb.DescriptorWalk

/-!
# The metadata descriptor

`mpeg_metadata_descriptor_codec` of `libucsi/mpeg/metadata_descriptor.h` and its accessors.  Which parts a descriptor
has is said by the parts in front of them, and the accessors find the positions again, each on its own.

* `mpegMetadataDescriptorCodec_ok_iff` — **PROVED**: the codec accepts exactly what has room for these;
* `metadata_never` — **PROVED**: they never do, and which of them do.
-/

namespace BgtDvb.Ucsi.Descriptor.Metadata

open BgtDvb.Walks
open BgtDvb.Words
open BgtDvb.Ucsi.Table
open BgtDvb.Ucsi.Table.Transports (plain_ok_iff)

/-! ### The codec -/

/-- `dsm_cc_flag`, in the second byte of `struct mpeg_metadata_descriptor_flags`. -/
def dsmCcFlag (bits : ℕ) : ℕ := bits / 2 ^ 4 % 2

/-- `decoder_config_flags` -/
def decoderConfigFlags (bits : ℕ) : ℕ := bits / 2 ^ 5

section Codec

variable (order : ByteOrder)

/-- A format identifier of four bytes that is there under a condition. -/
def identifierIf (p : Prop) [Decidable p] (stop pos : ℕ) : Walk ℕ := if p then plain order [(0, 4)] 4 stop pos else pure pos

/-- A length byte and as many bytes that are there under a condition. -/
def countedIf (p : Prop) [Decidable p] (stop pos : ℕ) : Walk ℕ := if p then counted order [] 0 stop pos else pure pos

def byteIf (p : Prop) [Decidable p] (stop pos : ℕ) : Walk ℕ := if p then plain order [] 1 stop pos else pure pos

def metadataParts (stop bits pos : ℕ) : Walk Unit := do
  let pos ← countedIf order (dsmCcFlag bits = 1) stop pos
  let pos ← countedIf order (decoderConfigFlags bits = 1) stop pos
  let pos ← countedIf order (decoderConfigFlags bits = 3) stop pos
  let pos ← byteIf order (decoderConfigFlags bits = 4) stop pos
  let pos ← countedIf order (decoderConfigFlags bits = 5 ∨ decoderConfigFlags bits = 6) stop pos
  require (pos ≤ stop)

def metadataFields (stop : ℕ) : Walk Unit := do
  require (4 ≤ stop)
  bswap order 2 2
  let id ← word order 2 2
  let pos ← identifierIf order (id = 0xffff) stop 4
  require (pos + 1 ≤ stop)
  let id ← read pos 1
  let pos ← identifierIf order (beNat id = 0xff) stop (pos + 1)
  require (pos + 2 ≤ stop)
  let bits ← read (pos + 1) 1
  metadataParts order stop (beNat bits) (pos + 2)

/-- `mpeg_metadata_descriptor_codec` -/
def mpegMetadataDescriptorCodec : Walk Unit := do
  let len ← read 1 1
  metadataFields order (beNat len + 2)

end Codec

/-! ### The accessors -/

section Accessors

variable (order : ByteOrder)

/-- Where the accessors have `metadata_format`. -/
def formatPos : Walk ℕ := do
  let w ← word order 2 2
  pure (if w = 0xffff then 4 + 4 else 4)

/-- `mpeg_metadata_descriptor_metadata_format` -/
def metadataFormat : Walk ℕ := do
  let pos ← formatPos order
  let format ← read pos 1
  pure (beNat format)

/-- `mpeg_metadata_descriptor_formid` -/
def formid : Walk (Option ℕ) := do
  let pos ← formatPos order
  let format ← read pos 1
  pure (if beNat format ≠ 0xff then none else some (pos + 1))

/-- `mpeg_metadata_descriptor_flags` -/
def flags : Walk ℕ := do
  let pos ← formatPos order
  let format ← read pos 1
  pure (if beNat format = 0xff then pos + 4 else pos)

/-- `mpeg_metadata_descriptor_sevice_identifier` -/
def serviceIdentifier (flags : ℕ) : Walk (Option ℕ) := do
  let bits ← read (flags + 1) 1
  pure (if dsmCcFlag (beNat bits) ≠ 1 then none else some (flags + 2))

/-- `buf += 1 + buf[1]`, under a condition. -/
def stepIf (p : Prop) [Decidable p] (pos : ℕ) : Walk ℕ :=
  if p then do
    let byte ← read (pos + 1) 1
    pure (pos + (1 + beNat byte))
  else pure pos

/-- The accessors of the parts that `decoder_config_flags` selects. -/
def decoderPart (wanted : ℕ → Prop) [DecidablePred wanted] (flags : ℕ) : Walk (Option ℕ) := do
  let bits ← read (flags + 1) 1
  if ¬wanted (decoderConfigFlags (beNat bits)) then pure none
  else do
    let pos ← stepIf (dsmCcFlag (beNat bits) = 1) (flags + 2)
    pure (some pos)

/-- `mpeg_metadata_descriptor_decoder_config` -/
def decoderConfig : ℕ → Walk (Option ℕ) := decoderPart (· = 1)

/-- `mpeg_metadata_descriptor_decoder_config_id_record` -/
def decoderConfigIdRecord : ℕ → Walk (Option ℕ) := decoderPart (· = 3)

/-- `mpeg_metadata_descriptor_decoder_config_service_id` -/
def decoderConfigServiceId : ℕ → Walk (Option ℕ) := decoderPart (· = 4)

/-- `mpeg_metadata_descriptor_decoder_config_reserved` -/
def decoderConfigReserved : ℕ → Walk (Option ℕ) := decoderPart fun config => config = 5 ∨ config = 6

/-- What is stepped over for `decoder_config_flags`. -/
def configSteps (config pos : ℕ) : Walk ℕ := do
  let pos ← stepIf (config = 1) pos
  let pos ← stepIf (config = 3) pos
  stepIf (config = 5 ∨ config = 6) (if config = 4 then pos + 1 else pos)

/-- `mpeg_metadata_descriptor_private_data`: the pointer, and the length. -/
def privateData (flags : ℕ) : Walk (ℕ × ℤ) := do
  let len ← read 1 1
  let bits ← read (flags + 1) 1
  let pos ← stepIf (dsmCcFlag (beNat bits) = 1) (flags + 2)
  let pos ← configSteps (decoderConfigFlags (beNat bits)) pos
  pure (pos, ((beNat len + 2 : ℕ) : ℤ) - pos)

end Accessors

/-! ### Where the codec has its parts -/

section Positions

variable (buf : List UInt8)

def formatAt : ℕ := if be buf 2 2 = 0xffff then 8 else 4

def formidAt : Option ℕ := if be buf (formatAt buf) 1 = 0xff then some (formatAt buf + 1) else none

def flagsAt : ℕ := if be buf (formatAt buf) 1 = 0xff then formatAt buf + 5 else formatAt buf + 1

/-- What is behind a length byte and its bytes, if they are there. -/
def behind (p : Prop) [Decidable p] (pos : ℕ) : ℕ := if p then pos + 1 + be buf pos 1 else pos

/-- What is behind the part that `decoder_config_flags` selects. -/
def configEnd (config pos : ℕ) : ℕ :=
  let pos := behind buf (config = 3) (behind buf (config = 1) pos)
  behind buf (config = 5 ∨ config = 6) (if config = 4 then pos + 1 else pos)

/-- `dsm_cc_flag` and `decoder_config_flags` of the flags at a position. -/
def dsmAt (flags : ℕ) : ℕ := dsmCcFlag (be buf (flags + 1) 1)

def configFlagsAt (flags : ℕ) : ℕ := decoderConfigFlags (be buf (flags + 1) 1)

def serviceIdentifierAt (flags : ℕ) : Option ℕ := if dsmAt buf flags = 1 then some (flags + 2) else none

/-- Where the part that `decoder_config_flags` selects begins. -/
def configAt (flags : ℕ) : ℕ := behind buf (dsmAt buf flags = 1) (flags + 2)

def decoderPartAt (wanted : ℕ → Prop) [DecidablePred wanted] (flags : ℕ) : Option ℕ :=
  if wanted (configFlagsAt buf flags) then some (configAt buf flags) else none

def privateAt (flags : ℕ) : ℕ := configEnd buf (configFlagsAt buf flags) (configAt buf flags)

def words : List (ℕ × ℕ) :=
  [(2, 2)] ++ ((if be buf 2 2 = 0xffff then [(4, 4)] else [])
    ++ if be buf (formatAt buf) 1 = 0xff then [(formatAt buf + 1, 4)] else [])

end Positions

/-! ### What the codec accepts -/

section Accepted

variable {order : ByteOrder} {β : Type} {buf : List UInt8} {stop pos : ℕ} {r : β × List UInt8}

variable {p : Prop} {f : ℕ → Walk β} {buf' : List UInt8}

theorem identifierIf_bind_ok_iff [Decidable p] (hstop : stop ≤ buf.length) (hpos : pos ≤ stop) :
    (identifierIf order p stop pos >>= f).run buf = .ok r ↔ (if p then pos + 4 else pos) ≤ stop
      ∧ (f (if p then pos + 4 else pos)).run (swapped order (if p then [(pos, 4)] else []) buf) = .ok r := by
  unfold identifierIf
  have hword : Apart 0 4 [(0, 4)] := by decide
  split_ifs with h
  · by_cases hroom : pos + 4 ≤ stop
    · rw [run_bind_ok ((plain_ok_iff hword hstop).mpr ⟨hroom, rfl⟩), and_iff_right hroom]
      rfl
    · have herror : (plain order [(0, 4)] 4 stop pos).run buf = .error .refused := run_bind_error (run_require_not hroom buf)
      rw [run_bind_error herror]
      exact iff_of_false (fun heq => by cases heq) fun hp => hroom hp.1
  · rw [run_bind_ok (run_pure pos), and_iff_right hpos]
    cases order <;> rfl

theorem countedIf_bind_ok_iff [Decidable p] (hstop : stop ≤ buf.length) (hpos : pos ≤ stop) :
    (countedIf order p stop pos >>= f).run buf = .ok r ↔ behind buf p pos ≤ stop ∧ (f (behind buf p pos)).run buf = .ok r := by
  unfold countedIf behind
  have hnone : Apart 0 0 [] := le_rfl
  have hsame : swapped order (shift pos []) buf = buf := by cases order <;> rfl
  split_ifs with h
  · rw [bind_ok_iff]
    constructor
    · intro hrun
      obtain ⟨pos', buf', hcounted, hrest⟩ := hrun
      obtain ⟨hle, ⟨-, hend⟩, hbuf'⟩ := (counted_ok_iff hnone hstop).mp hcounted
      dsimp only at hle hend hbuf'
      rw [hbuf', hsame, hend] at hrest
      exact ⟨hend ▸ hle, hrest⟩
    · intro hrun
      exact ⟨_, _, (counted_ok_iff hnone hstop).mpr ⟨hrun.1, ⟨rfl, rfl⟩, hsame.symm⟩, hrun.2⟩
  · rw [run_bind_ok (run_pure pos), and_iff_right hpos]

theorem byteIf_bind_ok_iff [Decidable p] (hstop : stop ≤ buf.length) (hpos : pos ≤ stop) :
    (byteIf order p stop pos >>= f).run buf = .ok r ↔ (if p then pos + 1 else pos) ≤ stop
      ∧ (f (if p then pos + 1 else pos)).run buf = .ok r := by
  unfold byteIf
  have hnone : Apart 0 1 [] := Nat.zero_le 1
  have hsame : swapped order (shift pos []) buf = buf := by cases order <;> rfl
  split_ifs with h
  · by_cases hroom : pos + 1 ≤ stop
    · rw [run_bind_ok ((plain_ok_iff hnone hstop).mpr ⟨hroom, rfl⟩), hsame, and_iff_right hroom]
    · have herror : (plain order [] 1 stop pos).run buf = .error .refused := run_bind_error (run_require_not hroom buf)
      rw [run_bind_error herror]
      exact iff_of_false (fun heq => by cases heq) fun hp => hroom hp.1
  · rw [run_bind_ok (run_pure pos), and_iff_right hpos]

theorem behind_congr [Decidable p] {a : ℕ} (hdrop : buf.drop a = buf'.drop a) (hpos : a ≤ pos) :
    behind buf p pos = behind buf' p pos := by
  rw [behind, behind, be_eq_of_drop hdrop hpos]

theorem le_behind [Decidable p] (buf : List UInt8) (pos : ℕ) : pos ≤ behind buf p pos := by
  unfold behind
  split_ifs
  · omega
  · exact le_rfl

theorem le_configEnd (buf : List UInt8) (config pos : ℕ) : pos ≤ configEnd buf config pos := by
  have hone := le_behind (p := config = 1) buf pos
  have hthree := le_behind (p := config = 3) buf (behind buf (config = 1) pos)
  have hlast := le_behind (p := config = 5 ∨ config = 6) buf (if config = 4 then behind buf (config = 3)
    (behind buf (config = 1) pos) + 1 else behind buf (config = 3) (behind buf (config = 1) pos))
  unfold configEnd
  refine hone.trans (hthree.trans (le_trans ?_ hlast))
  split_ifs
  · exact Nat.le_succ _
  · exact le_rfl

theorem configEnd_congr {a config : ℕ} (hdrop : buf.drop a = buf'.drop a) (hpos : a ≤ pos) :
    configEnd buf config pos = configEnd buf' config pos := by
  have hone := hpos.trans (le_behind (p := config = 1) buf pos)
  have hthree := hone.trans (le_behind (p := config = 3) buf (behind buf (config = 1) pos))
  have hfour : a ≤ if config = 4 then behind buf (config = 3) (behind buf (config = 1) pos) + 1
      else behind buf (config = 3) (behind buf (config = 1) pos) := by
    split_ifs
    · exact hthree.trans (Nat.le_succ _)
    · exact hthree
  unfold configEnd
  rw [behind_congr hdrop hfour, behind_congr hdrop hone, behind_congr hdrop hpos]

theorem metadataParts_ok_iff {bits : ℕ} (hstop : stop ≤ buf.length) (hpos : pos ≤ stop) :
    (metadataParts order stop bits pos).run buf = .ok ((), buf') ↔
      configEnd buf (decoderConfigFlags bits) (behind buf (dsmCcFlag bits = 1) pos) ≤ stop ∧ buf' = buf := by
  have hdsm := le_configEnd buf (decoderConfigFlags bits) (behind buf (dsmCcFlag bits = 1) pos)
  unfold metadataParts
  rw [countedIf_bind_ok_iff hstop hpos]
  generalize hstart : behind buf (dsmCcFlag bits = 1) pos = start at hdsm ⊢
  generalize decoderConfigFlags bits = config at hdsm ⊢
  have hone := le_behind (p := config = 1) buf start
  have hthree := le_behind (p := config = 3) buf (behind buf (config = 1) start)
  have hfour : behind buf (config = 3) (behind buf (config = 1) start) ≤
      if config = 4 then behind buf (config = 3) (behind buf (config = 1) start) + 1
      else behind buf (config = 3) (behind buf (config = 1) start) := by
    split_ifs
    · exact Nat.le_succ _
    · exact le_rfl
  have hlast := le_behind (p := config = 5 ∨ config = 6) buf
    (if config = 4 then behind buf (config = 3) (behind buf (config = 1) start) + 1
      else behind buf (config = 3) (behind buf (config = 1) start))
  constructor
  · intro h
    obtain ⟨hle, h⟩ := h
    obtain ⟨hle₁, h⟩ := (countedIf_bind_ok_iff hstop hle).mp h
    obtain ⟨hle₃, h⟩ := (countedIf_bind_ok_iff hstop hle₁).mp h
    obtain ⟨hle₄, h⟩ := (byteIf_bind_ok_iff hstop hle₃).mp h
    obtain ⟨hle₅, h⟩ := (countedIf_bind_ok_iff hstop hle₄).mp h
    obtain ⟨-, heq⟩ := require_ok_iff.mp h
    exact ⟨hle₅, (Prod.mk.inj heq).2⟩
  · intro h
    obtain ⟨hend, rfl⟩ := h
    have hle₄ := hlast.trans hend
    have hle₃ := hfour.trans hle₄
    have hle₁ := hthree.trans hle₃
    refine ⟨hdsm.trans hend, (countedIf_bind_ok_iff hstop (hdsm.trans hend)).mpr ⟨hle₁, ?_⟩⟩
    refine (countedIf_bind_ok_iff hstop hle₁).mpr ⟨hle₃, (byteIf_bind_ok_iff hstop hle₃).mpr ⟨hle₄, ?_⟩⟩
    exact (countedIf_bind_ok_iff hstop hle₄).mpr ⟨hend, require_ok_iff.mpr ⟨hend, rfl⟩⟩

theorem front_apart (buf : List UInt8) :
    Apart 2 (formatAt buf) ([(2, 2)] ++ if be buf 2 2 = 0xffff then [(4, 4)] else []) := by
  unfold formatAt
  split_ifs
  · decide
  · decide

theorem words_apart (buf : List UInt8) : Apart 2 (flagsAt buf) (words buf) := by
  have hformat : Apart (formatAt buf) (flagsAt buf)
      (if be buf (formatAt buf) 1 = 0xff then [(formatAt buf + 1, 4)] else []) := by
    unfold flagsAt
    split_ifs
    · exact ⟨Nat.le_add_right _ 1, le_rfl⟩
    · exact Nat.le_add_right _ 1
  rw [words, ← List.append_assoc]
  exact (front_apart buf).append hformat

theorem mpegMetadataDescriptorCodec_ok_iff (h : IsDescriptor buf) :
    (mpegMetadataDescriptorCodec order).run buf = .ok ((), buf') ↔
      (4 ≤ buf.length ∧ formatAt buf + 1 ≤ buf.length ∧ flagsAt buf + 2 ≤ buf.length
        ∧ privateAt buf (flagsAt buf) ≤ buf.length) ∧ buf' = swapped order (words buf) buf := by
  have hread : 1 + 1 ≤ buf.length := by
    unfold IsDescriptor at h
    omega
  have hlen : beNat (slice buf 1 1) + 2 = buf.length := (Nat.add_comm _ 2).trans h.symm
  rw [mpegMetadataDescriptorCodec, run_bind_ok (read_ok_iff.mpr ⟨hread, rfl⟩), hlen, metadataFields, require_bind_ok_iff]
  by_cases hsize : 4 ≤ buf.length
  · have hword : Apart 2 4 [(2, 2)] := by decide
    obtain ⟨hlen₁, -, -⟩ := swapped_keeps order hword hsize
    have hid : (word order 2 2).run (swapped order [(2, 2)] buf) = .ok (be buf 2 2, swapped order [(2, 2)] buf) := by
      rw [word_ok_iff, host_swapped hword hsize List.mem_cons_self]
      exact ⟨hlen₁.symm ▸ hsize, rfl⟩
    have hformatAt : (if be buf 2 2 = 0xffff then 4 + 4 else 4) = formatAt buf := rfl
    have hflagsAt : (if be buf (formatAt buf) 1 = 0xff then formatAt buf + 1 + 4 else formatAt buf + 1) = flagsAt buf := rfl
    rw [and_iff_right hsize, run_bind_ok (bswap_run hsize), run_bind_ok hid, identifierIf_bind_ok_iff hlen₁.ge hsize,
      ← swapped_append, hformatAt]
    by_cases hformat : formatAt buf + 1 ≤ buf.length
    · obtain ⟨hlen₂, -, hdrop₂⟩ := swapped_keeps order (front_apart buf) (Nat.le_of_succ_le hformat)
      have hread₂ := hformat.trans hlen₂.ge
      have hbyte : beNat (slice _ (formatAt buf) 1) = be buf (formatAt buf) 1 := be_eq_of_drop hdrop₂ le_rfl
      rw [require_bind_ok_iff, run_bind_ok (read_ok_iff.mpr ⟨hread₂, rfl⟩), identifierIf_bind_ok_iff hlen₂.ge hformat,
        ← swapped_append, hbyte, hflagsAt, List.append_assoc, ← words]
      by_cases hflags : flagsAt buf + 2 ≤ buf.length
      · obtain ⟨hlen₃, -, hdrop₃⟩ := swapped_keeps order (words_apart buf) ((Nat.le_add_right _ 2).trans hflags)
        have hread₃ : flagsAt buf + 1 + 1 ≤ (swapped order (words buf) buf).length := hflags.trans hlen₃.ge
        have hbits : beNat (slice (swapped order (words buf) buf) (flagsAt buf + 1) 1) = be buf (flagsAt buf + 1) 1 :=
          be_eq_of_drop hdrop₃ (Nat.le_add_right _ 1)
        have hend : configEnd (swapped order (words buf) buf) (configFlagsAt buf (flagsAt buf))
            (behind (swapped order (words buf) buf) (dsmAt buf (flagsAt buf) = 1) (flagsAt buf + 2)) =
              privateAt buf (flagsAt buf) := by
          have hbehind := behind_congr (p := dsmAt buf (flagsAt buf) = 1) hdrop₃ (Nat.le_add_right (flagsAt buf) 2)
          rw [hbehind, configEnd_congr hdrop₃ ((Nat.le_add_right _ 2).trans (le_behind buf _))]
          rfl
        rw [require_bind_ok_iff, run_bind_ok (read_ok_iff.mpr ⟨hread₃, rfl⟩), hbits,
          metadataParts_ok_iff hlen₃.ge hflags]
        show _ ∧ _ ∧ _ ∧ _ ∧ configEnd _ (configFlagsAt buf (flagsAt buf)) (behind _ (dsmAt buf (flagsAt buf) = 1) _) ≤ _ ∧ _ ↔ _
        rw [hend]
        constructor
        · intro hrun
          exact ⟨⟨hsize, hformat, hflags, hrun.2.2.2.2.1⟩, hrun.2.2.2.2.2⟩
        · intro hfits
          exact ⟨Nat.le_of_succ_le hformat, hformat, (Nat.le_add_right _ 2).trans hflags, hflags, hfits.1.2.2.2, hfits.2⟩
      · rw [require_bind_ok_iff]
        exact iff_of_false (fun hrun => hflags hrun.2.2.2.1) fun hfits => hflags hfits.1.2.2.1
    · rw [require_bind_ok_iff]
      exact iff_of_false (fun hrun => hformat hrun.2.1) fun hfits => hformat hfits.1.2.1
  · exact iff_of_false (fun hrun => hsize hrun.1) fun hfits => hsize hfits.1.1

end Accepted

/-! ### What the accessors come to -/

/-- The accessors that are given a position of the flags come to the parts, and to the bytes behind the last one. -/
structure PartsFound (sent buf : List UInt8) (flags : ℕ) : Prop where
  serviceIdentifier : (serviceIdentifier flags).run buf = .ok (serviceIdentifierAt sent (flagsAt sent), buf)
  decoderConfig : (decoderConfig flags).run buf = .ok (decoderPartAt sent (· = 1) (flagsAt sent), buf)
  decoderConfigIdRecord : (decoderConfigIdRecord flags).run buf = .ok (decoderPartAt sent (· = 3) (flagsAt sent), buf)
  decoderConfigServiceId : (decoderConfigServiceId flags).run buf = .ok (decoderPartAt sent (· = 4) (flagsAt sent), buf)
  decoderConfigReserved : (decoderConfigReserved flags).run buf =
    .ok (decoderPartAt sent (fun config => config = 5 ∨ config = 6) (flagsAt sent), buf)
  privateData : (privateData flags).run buf =
    .ok ((privateAt sent (flagsAt sent), (sent.length : ℤ) - privateAt sent (flagsAt sent)), buf)

/-- The accessors come to what the codec has checked. -/
structure AccessorsSound (order : ByteOrder) (sent buf : List UInt8) : Prop where
  metadataFormat : (metadataFormat order).run buf = .ok (be sent (formatAt sent) 1, buf)
  formid : (formid order).run buf = .ok (formidAt sent, buf)
  flags : (flags order).run buf = .ok (flagsAt sent, buf)
  parts : ∀ flags, (Metadata.flags order).run buf = .ok (flags, buf) → PartsFound sent buf flags

def DoubledAt (buf : List UInt8) (pos : ℕ) : Prop := pos + 2 ≤ buf.length ∧ be buf (pos + 1) 1 = be buf pos 1

/-- The parts of `decoder_config_flags` that have a length. -/
def Counted (config : ℕ) : Prop := config = 1 ∨ config = 3 ∨ config = 5 ∨ config = 6

instance (config : ℕ) : Decidable (Counted config) := inferInstanceAs (Decidable (_ ∨ _ ∨ _ ∨ _))

def PartsDoubled (buf : List UInt8) (flags : ℕ) : Prop :=
  (dsmAt buf flags = 1 → DoubledAt buf (flags + 2)) ∧ (Counted (configFlagsAt buf flags) → DoubledAt buf (configAt buf flags))

section Found

variable {buf : List UInt8} {pos f : ℕ}

theorem stepIf_ok_iff {p : Prop} [Decidable p] {r : ℕ × List UInt8} :
    (stepIf p pos).run buf = .ok r ↔
      (p → pos + 2 ≤ buf.length) ∧ r = (if p then pos + (1 + be buf (pos + 1) 1) else pos, buf) := by
  unfold stepIf
  split_ifs with h
  · rw [bind_ok_iff]
    constructor
    · intro hrun
      obtain ⟨byte, buf', hread, hpure⟩ := hrun
      obtain ⟨hroom, heq⟩ := read_ok_iff.mp hread
      cases heq
      cases hpure
      exact ⟨fun _ => hroom, rfl⟩
    · intro hrun
      exact ⟨_, _, read_ok_iff.mpr ⟨hrun.1 h, rfl⟩, congrArg Except.ok hrun.2.symm⟩
  · rw [run_pure]
    constructor
    · intro heq
      exact ⟨fun hp => absurd hp h, (Except.ok.inj heq).symm⟩
    · exact fun heq => congrArg Except.ok heq.2.symm

theorem stepIf_behind_iff {p : Prop} [Decidable p] :
    (stepIf p pos).run buf = .ok (behind buf p pos, buf) ↔ (p → DoubledAt buf pos) := by
  rw [stepIf_ok_iff]
  unfold behind DoubledAt
  split_ifs with h
  · constructor
    · intro hrun hp
      have heq := (Prod.mk.inj hrun.2).1
      exact ⟨hrun.1 hp, by omega⟩
    · intro hp
      obtain ⟨hroom, heq⟩ := hp h
      refine ⟨fun _ => hroom, Prod.ext ?_ rfl⟩
      show pos + 1 + be buf pos 1 = pos + (1 + be buf (pos + 1) 1)
      omega
  · exact iff_of_true ⟨fun hp => absurd hp h, rfl⟩ fun hp => absurd hp h

theorem decoderPart_iff {wanted : ℕ → Prop} [DecidablePred wanted] (hroom : f + 2 ≤ buf.length) :
    (decoderPart wanted f).run buf = .ok (decoderPartAt buf wanted f, buf) ↔
      (wanted (configFlagsAt buf f) → dsmAt buf f = 1 → DoubledAt buf (f + 2)) := by
  have hread : f + 1 + 1 ≤ buf.length := hroom
  rw [decoderPart, run_bind_ok (read_ok_iff.mpr ⟨hread, rfl⟩), decoderPartAt]
  show (if ¬wanted (configFlagsAt buf f) then (pure none : Walk (Option ℕ)) else
    stepIf (dsmAt buf f = 1) (f + 2) >>= fun pos => pure (some pos)).run buf = _ ↔ _
  by_cases h : wanted (configFlagsAt buf f)
  · rw [if_neg (not_not_intro h), if_pos h, ← stepIf_behind_iff]
    constructor
    · intro hrun _
      obtain ⟨pos, buf', hstep, hpure⟩ := bind_ok_iff.mp hrun
      cases hpure
      exact hstep
    · intro hstep
      rw [run_bind_ok (hstep h)]
      rfl
  · rw [if_pos h, if_neg h]
    exact iff_of_true rfl fun hp => absurd hp h

theorem configSteps_eq (config pos : ℕ) : configSteps config pos =
    if Counted config then stepIf True pos else pure (if config = 4 then pos + 1 else pos) := by
  by_cases h : Counted config
  · rw [if_pos h]
    rcases h with rfl | rfl | rfl | rfl
    · simp [configSteps, stepIf]
    · simp [configSteps, stepIf]
    · simp [configSteps, stepIf]
    · simp [configSteps, stepIf]
  · rw [if_neg h]
    simp only [Counted, not_or] at h
    simp [configSteps, stepIf, h]

theorem configEnd_eq (buf : List UInt8) (config pos : ℕ) : configEnd buf config pos =
    if Counted config then behind buf True pos else if config = 4 then pos + 1 else pos := by
  by_cases h : Counted config
  · rw [if_pos h]
    rcases h with rfl | rfl | rfl | rfl
    · simp [configEnd, behind]
    · simp [configEnd, behind]
    · simp [configEnd, behind]
    · simp [configEnd, behind]
  · rw [if_neg h]
    simp only [Counted, not_or] at h
    simp [configEnd, behind, h]

theorem configSteps_iff {config : ℕ} :
    (configSteps config pos).run buf = .ok (configEnd buf config pos, buf) ↔ (Counted config → DoubledAt buf pos) := by
  rw [configSteps_eq, configEnd_eq]
  by_cases h : Counted config
  · rw [if_pos h, if_pos h, stepIf_behind_iff]
    exact ⟨fun hd _ => hd trivial, fun hd _ => hd h⟩
  · rw [if_neg h, if_neg h]
    exact iff_of_true rfl fun hp => absurd hp h

theorem privateData_iff (hroom : f + 2 ≤ buf.length) (hlen : be buf 1 1 + 2 = buf.length) :
    (privateData f).run buf = .ok ((privateAt buf f, (buf.length : ℤ) - privateAt buf f), buf) ↔
      ∃ pos, (stepIf (dsmAt buf f = 1) (f + 2)).run buf = .ok (pos, buf)
        ∧ (configSteps (configFlagsAt buf f) pos).run buf = .ok (privateAt buf f, buf) := by
  have hread : f + 1 + 1 ≤ buf.length := hroom
  have hread' : 1 + 1 ≤ buf.length := by omega
  rw [privateData, run_bind_ok (read_ok_iff.mpr ⟨hread', rfl⟩), run_bind_ok (read_ok_iff.mpr ⟨hread, rfl⟩), bind_ok_iff]
  have hsame : ∀ {p : Prop} [Decidable p] {pos : ℕ} {r : ℕ × List UInt8}, (stepIf p pos).run buf = .ok r → r.2 = buf := by
    intro p _ pos r hr
    rw [(stepIf_ok_iff.mp hr).2]
  constructor
  · intro hrun
    obtain ⟨pos, buf', hstep, hrest⟩ := hrun
    obtain rfl : buf' = buf := hsame hstep
    obtain ⟨pos', buf'', hsteps, hpure⟩ := bind_ok_iff.mp hrest
    have heq := Except.ok.inj hpure
    have hpos : pos' = privateAt buf' f := congrArg (fun r => r.1.1) heq
    have hbuf : buf'' = buf' := congrArg Prod.snd heq
    rw [hpos, hbuf] at hsteps
    exact ⟨pos, hstep, hsteps⟩
  · intro hrun
    obtain ⟨pos, hstep, hsteps⟩ := hrun
    refine ⟨pos, buf, hstep, ?_⟩
    rw [show decoderConfigFlags (beNat (slice buf (f + 1) 1)) = configFlagsAt buf f from rfl, run_bind_ok hsteps,
      show beNat (slice buf 1 1) + 2 = buf.length from hlen]
    rfl

theorem serviceIdentifier_run (hroom : f + 2 ≤ buf.length) :
    (serviceIdentifier f).run buf = .ok (serviceIdentifierAt buf f, buf) := by
  have hread : f + 1 + 1 ≤ buf.length := hroom
  rw [serviceIdentifier, run_bind_ok (read_ok_iff.mpr ⟨hread, rfl⟩), serviceIdentifierAt]
  show Except.ok (if dsmAt buf f ≠ 1 then none else some (f + 2), buf) = _
  rw [ite_not]

/-! ### The positions in the bytes as they were sent -/

section Congr

variable {sent : List UInt8} (hdrop : buf.drop f = sent.drop f)
include hdrop

theorem bits_congr : dsmAt buf f = dsmAt sent f ∧ configFlagsAt buf f = configFlagsAt sent f := by
  have hbits := be_eq_of_drop hdrop (Nat.le_add_right f 1) (k := 1)
  exact ⟨congrArg dsmCcFlag hbits, congrArg decoderConfigFlags hbits⟩

theorem configAt_congr : configAt buf f = configAt sent f := by
  unfold configAt
  rw [behind_congr hdrop (Nat.le_add_right f 2)]
  exact congrArg (fun dsm => behind sent (dsm = 1) (f + 2)) (bits_congr hdrop).1

theorem privateAt_congr : privateAt buf f = privateAt sent f := by
  have hle : f ≤ configAt sent f := (Nat.le_add_right f 2).trans (le_behind sent _)
  rw [privateAt, configAt_congr hdrop, (bits_congr hdrop).2, configEnd_congr hdrop hle]
  rfl

theorem decoderPartAt_congr (wanted : ℕ → Prop) [DecidablePred wanted] :
    decoderPartAt buf wanted f = decoderPartAt sent wanted f := by
  unfold decoderPartAt
  rw [configAt_congr hdrop, (bits_congr hdrop).2]

theorem serviceIdentifierAt_congr : serviceIdentifierAt buf f = serviceIdentifierAt sent f := by
  unfold serviceIdentifierAt
  rw [(bits_congr hdrop).1]

theorem doubledAt_congr (hlen : buf.length = sent.length) (hpos : f ≤ pos) : DoubledAt buf pos ↔ DoubledAt sent pos := by
  unfold DoubledAt
  rw [hlen, be_eq_of_drop hdrop hpos, be_eq_of_drop hdrop (hpos.trans (Nat.le_succ pos))]

theorem partsDoubled_congr (hlen : buf.length = sent.length) : PartsDoubled buf f ↔ PartsDoubled sent f := by
  have hle : f ≤ configAt sent f := (Nat.le_add_right f 2).trans (le_behind sent _)
  unfold PartsDoubled
  rw [(bits_congr hdrop).1, (bits_congr hdrop).2, configAt_congr hdrop, doubledAt_congr hdrop hlen (Nat.le_add_right f 2),
    doubledAt_congr hdrop hlen hle]

end Congr

/-- The part that `decoder_config_flags` selects is found where the first length has the same number behind it. -/
theorem selected_iff (hroom : f + 2 ≤ buf.length) :
    ((decoderConfig f).run buf = .ok (decoderPartAt buf (· = 1) f, buf)
        ∧ (decoderConfigIdRecord f).run buf = .ok (decoderPartAt buf (· = 3) f, buf)
        ∧ (decoderConfigServiceId f).run buf = .ok (decoderPartAt buf (· = 4) f, buf)
        ∧ (decoderConfigReserved f).run buf = .ok (decoderPartAt buf (fun config => config = 5 ∨ config = 6) f, buf)) ↔
      (Counted (configFlagsAt buf f) ∨ configFlagsAt buf f = 4 → dsmAt buf f = 1 → DoubledAt buf (f + 2)) := by
  unfold decoderConfig decoderConfigIdRecord decoderConfigServiceId decoderConfigReserved
  rw [decoderPart_iff hroom, decoderPart_iff hroom, decoderPart_iff hroom, decoderPart_iff hroom]
  unfold Counted
  constructor
  · intro h hconfig
    obtain ⟨hone, hthree, hfour, hlast⟩ := h
    rcases hconfig with (hc | hc | hc) | hc
    · exact hone hc
    · exact hthree hc
    · exact hlast hc
    · exact hfour hc
  · intro h
    exact ⟨fun hc => h (.inl (.inl hc)), fun hc => h (.inl (.inr (.inl hc))), fun hc => h (.inr hc),
      fun hc => h (.inl (.inr (.inr hc)))⟩

theorem privateData_doubled_iff (hroom : f + 2 ≤ buf.length) (hlen : be buf 1 1 + 2 = buf.length)
    (hselected : Counted (configFlagsAt buf f) ∨ configFlagsAt buf f = 4 → dsmAt buf f = 1 → DoubledAt buf (f + 2)) :
    (privateData f).run buf = .ok ((privateAt buf f, (buf.length : ℤ) - privateAt buf f), buf) ↔ PartsDoubled buf f := by
  rw [privateData_iff hroom hlen]
  have hfirst : (dsmAt buf f = 1 → DoubledAt buf (f + 2)) → ∀ {pos : ℕ},
      (stepIf (dsmAt buf f = 1) (f + 2)).run buf = .ok (pos, buf) → pos = configAt buf f := by
    intro hd pos hrun
    rw [stepIf_behind_iff.mpr hd] at hrun
    exact (congrArg Prod.fst (Except.ok.inj hrun)).symm
  constructor
  · intro h
    obtain ⟨pos, hstep, hsteps⟩ := h
    by_cases hconfig : Counted (configFlagsAt buf f) ∨ configFlagsAt buf f = 4
    · have hd := hselected hconfig
      obtain rfl := hfirst hd hstep
      exact ⟨hd, configSteps_iff.mp hsteps⟩
    · -- nothing behind the first length: the two positions are the same
      obtain ⟨hnone, hfour⟩ := not_or.mp hconfig
      rw [configSteps_eq, if_neg hnone, if_neg hfour] at hsteps
      have hpos : pos = privateAt buf f := congrArg Prod.fst (Except.ok.inj hsteps)
      have hend : privateAt buf f = configAt buf f := by rw [privateAt, configEnd_eq, if_neg hnone, if_neg hfour]
      rw [hpos, hend] at hstep
      exact ⟨stepIf_behind_iff.mp hstep, fun hc => absurd hc hnone⟩
  · intro h
    exact ⟨_, stepIf_behind_iff.mpr h.1, configSteps_iff.mpr h.2⟩

/-- **From the right flags** the accessors come to the parts exactly if every length has the same number behind it. -/
theorem partsFound_iff {sent : List UInt8} (hdrop : buf.drop (flagsAt sent) = sent.drop (flagsAt sent))
    (hlength : buf.length = sent.length) (hroom : flagsAt sent + 2 ≤ sent.length) (hlen : be buf 1 1 + 2 = sent.length) :
    PartsFound sent buf (flagsAt sent) ↔ PartsDoubled sent (flagsAt sent) := by
  rw [← hlength] at hroom hlen
  have hselected := selected_iff hroom
  have hservice := serviceIdentifier_run hroom
  rw [← partsDoubled_congr hdrop hlength]
  constructor
  · intro h
    obtain ⟨-, hone, hthree, hfour, hlast, hprivate⟩ := h
    rw [← decoderPartAt_congr hdrop] at hone hthree hfour hlast
    rw [← privateAt_congr hdrop, ← hlength] at hprivate
    exact (privateData_doubled_iff hroom hlen (hselected.mp ⟨hone, hthree, hfour, hlast⟩)).mp hprivate
  · intro h
    obtain ⟨hone, hthree, hfour, hlast⟩ := hselected.mpr fun _ => h.1
    have hprivate := (privateData_doubled_iff hroom hlen fun _ => h.1).mpr h
    rw [decoderPartAt_congr hdrop] at hone hthree hfour hlast
    rw [privateAt_congr hdrop, hlength] at hprivate
    rw [serviceIdentifierAt_congr hdrop] at hservice
    exact ⟨hservice, hone, hthree, hfour, hlast, hprivate⟩

end Found

/-! ### Metadata descriptors -/

section Sound

variable {order : ByteOrder} {buf : List UInt8}

theorem format_kept (order : ByteOrder) (hflags : flagsAt buf ≤ buf.length) :
    be (swapped order (words buf) buf) (formatAt buf) 1 = be buf (formatAt buf) 1 := by
  refine congrArg beNat (slice_swapped_other order (fun w hw => ((words_apart buf).mem hw).2.trans hflags) fun w hw => ?_)
  rw [words, ← List.append_assoc] at hw
  rcases List.mem_append.mp hw with hw | hw
  · exact .inr ((front_apart buf).mem hw).2
  · split_ifs at hw with hformat
    · rw [List.mem_singleton.mp hw]
      exact .inl le_rfl
    · exact absurd hw List.not_mem_nil

theorem formatPos_run (order : ByteOrder) (hflags : flagsAt buf ≤ buf.length) :
    (formatPos order).run (swapped order (words buf) buf) = .ok (formatAt buf, swapped order (words buf) buf) := by
  have hmem : (2, 2) ∈ words buf := List.mem_cons_self
  have hroom : 2 + 2 ≤ (swapped order (words buf) buf).length := by
    rw [(swapped_keeps order (words_apart buf) hflags).1]
    exact ((words_apart buf).mem hmem).2.trans hflags
  rw [formatPos, run_bind_ok ((word_ok_iff order).mpr ⟨hroom, rfl⟩), host_swapped (words_apart buf) hflags hmem]
  rfl

theorem format_run {β : Type} {g : ℕ → List UInt8 → β} (order : ByteOrder) (hformat : formatAt buf + 1 ≤ buf.length)
    (hflags : flagsAt buf ≤ buf.length) :
    (do
      let pos ← formatPos order
      let format ← read pos 1
      pure (g pos format)).run (swapped order (words buf) buf) =
      .ok (g (formatAt buf) (slice (swapped order (words buf) buf) (formatAt buf) 1), swapped order (words buf) buf) := by
  have hread := hformat.trans (swapped_keeps order (words_apart buf) hflags).1.ge
  rw [run_bind_ok (formatPos_run order hflags), run_bind_ok (read_ok_iff.mpr ⟨hread, rfl⟩)]
  rfl

/-- **Metadata descriptors**: on no accepted descriptor are all accessors right, since that of the flags comes a byte
too early.  Those in front of it are right, and those behind it, from the right flags, exactly if every length byte
has the same number behind it. -/
theorem metadata_never {buf' : List UInt8} (h : IsDescriptor buf)
    (hok : (mpegMetadataDescriptorCodec order).run buf = .ok ((), buf')) :
    ¬AccessorsSound order buf buf' ∧ (metadataFormat order).run buf' = .ok (be buf (formatAt buf) 1, buf')
      ∧ (formid order).run buf' = .ok (formidAt buf, buf') ∧ (flags order).run buf' = .ok (flagsAt buf - 1, buf')
      ∧ (PartsFound buf buf' (flagsAt buf) ↔ PartsDoubled buf (flagsAt buf)) := by
  obtain ⟨⟨hsize, hformat, hflags, hprivate⟩, rfl⟩ := (mpegMetadataDescriptorCodec_ok_iff h).mp hok
  have hflagsAt : flagsAt buf ≤ buf.length := (Nat.le_add_right _ 2).trans hflags
  obtain ⟨hlen, htake, hdrop⟩ := swapped_keeps order (words_apart buf) hflagsAt
  have hkept : beNat (slice _ (formatAt buf) 1) = be buf (formatAt buf) 1 := format_kept order hflagsAt
  have hearly : (flags order).run (swapped order (words buf) buf) = .ok (flagsAt buf - 1, swapped order (words buf) buf) := by
    rw [flags, format_run order hformat hflagsAt, hkept]
    unfold flagsAt
    split_ifs
    · rfl
    · rfl
  refine ⟨fun hsound => ?_, ?_, ?_, hearly, ?_⟩
  · have hpos : 1 ≤ flagsAt buf := by
      unfold flagsAt
      split_ifs
      · omega
      · omega
    have hrun := hsound.flags
    rw [hearly] at hrun
    have heq : flagsAt buf - 1 = flagsAt buf := congrArg Prod.fst (Except.ok.inj hrun)
    omega
  · rw [metadataFormat, format_run order hformat hflagsAt, hkept]
  · rw [formid, format_run order hformat hflagsAt, hkept, ite_not]
    rfl
  · have hlengthByte : be (swapped order (words buf) buf) 1 1 = be buf 1 1 :=
      congrArg beNat (slice_eq_of_take htake le_rfl)
    refine partsFound_iff hdrop hlen hflags ?_
    rw [hlengthByte, Nat.add_comm]
    exact h.symm

def privateBytes : List UInt8 := [0x26, 7, 0x00, 0x10, 0x20, 0x05, 0x0f, 0xaa, 0xbb]

theorem accepted_privateBytes : (mpegMetadataDescriptorCodec .big).run privateBytes = .ok ((), privateBytes) := by
  decide +kernel

theorem metadata_never_private : (IsDescriptor privateBytes
    ∧ (mpegMetadataDescriptorCodec .big).run privateBytes = .ok ((), privateBytes))
      ∧ ¬AccessorsSound .big privateBytes privateBytes :=
  ⟨⟨by decide, accepted_privateBytes⟩, (metadata_never (by decide) accepted_privateBytes).1⟩

/-- The flags are taken from `metadata_format` on. -/
theorem not_accessorsSound_private : ¬∀ order buf buf', IsDescriptor buf →
    (mpegMetadataDescriptorCodec order).run buf = .ok ((), buf') → AccessorsSound order buf buf' := by
  intro h
  have hsound := h .big privateBytes privateBytes (by decide) accepted_privateBytes
  have hflags : (flags .big).run privateBytes ≠ .ok (flagsAt privateBytes, privateBytes) := by decide +kernel
  exact hflags hsound.flags

end Sound

end BgtDvb.Ucsi.Descriptor.Metadata
