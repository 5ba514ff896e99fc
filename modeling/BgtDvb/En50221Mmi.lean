import BgtDvb.En50221Transport
import BgtDvb.Lib.GuardedRun
import Mathlib

/-!
# Reassembly of MMI objects

`en50221_app_mmi.c`: four kinds of objects come in fragments, MORE … MORE LAST.  A record for each session
number, made by its first MORE object, keeps four chains of bytes, one for each kind.

* `along_delivers_iff` — **PROVED**: along every run objects are delivered so exactly if each of them is
  accepted: the lock is free, and the chain can be extended by `realloc`.

`en50221_app_mmi_clear_session` keeps the lock when it finds a record.
-/

namespace BgtDvb.En50221

open BgtDvb.GuardedRun

/-! ### The state -/

inductive ObjectKind where
  | menu | list | subtitleSegment | subtitleDownload
  deriving Repr, DecidableEq

/-- A pair `*_block_chain`, `*_block_length`. -/
structure Block where
  chain : ChainPtr
  length : ℕ
  deriving Repr, DecidableEq

def Block.empty : Block := ⟨.null, 0⟩

/-- `struct en50221_app_mmi_session`: its four pairs. -/
abbrev MmiSession := ObjectKind → Block

/-- `struct en50221_app_mmi`: the list of sessions, in which a number occurs at most once, the callbacks for
menus and lists, and the lock. -/
structure Mmi where
  sessions : AList (fun _ : UInt16 => MmiSession)
  menuCallback : Bool
  listCallback : Bool
  locked : Bool

/-- `en50221_app_mmi_create`. -/
def Mmi.create : Mmi := ⟨∅, false, false, false⟩

/-- Whether there is memory for a session, and for a block. -/
structure MmiMemory where
  session : Bool
  block : Bool
  deriving Repr, DecidableEq

/-! ### Fragments -/

/-- The start of `en50221_app_mmi_parse_list_menu` and `en50221_app_mmi_parse_subtitle`: the bytes behind the
length field; `none` is -1. -/
def objectData (data : List UInt8) : Option (List UInt8) :=
  match asn1Decode data with
  | none => none
  | some (asnDataLength, lengthFieldLen) =>
    if asnDataLength > data.length - lengthFieldLen then none
    else some ((data.drop lengthFieldLen).take asnDataLength)

/-- `realloc` of a chain to its length and that of the new data, a sum of 32 bits, and the copy: the block
with the data, if there is one, and what the old pointer points to then; `none` if a freed chain is passed
or the copy runs out of the block. -/
def appendBlock (b : Block) (mem : Bool) (indata : List UInt8) : Option (Option (List UInt8) × ChainPtr) :=
  let size := (b.length + indata.length) % 2 ^ 32
  match realloc b.chain size with
  | none => none
  | some (none, p) => some (none, p)
  | some (some bytes, p) =>
    if mem = false then some (none, b.chain)
    else if size < b.length + indata.length then none
    else some (some (bytes.take b.length ++ indata), p)

def Mmi.setBlock (mmi : Mmi) (number : UInt16) (s : MmiSession) (kind : ObjectKind) (b : Block) : Mmi :=
  { mmi with sessions := mmi.sessions.insert number (Function.update s kind b) }

/-- `en50221_app_mmi_defragment`: status, object, and `outdata`. -/
def mmiDefragment (mmi : Mmi) (number : UInt16) (kind : ObjectKind) (last : Bool) (mem : MmiMemory)
    (indata : List UInt8) : Option (ℤ × Mmi × Option (List UInt8)) :=
  let found := mmi.sessions.lookup number
  if last = false then
    if found.isNone = true ∧ mem.session = false then some (-1, mmi, none)
    else
      let s := found.getD fun _ => .empty
      match appendBlock (s kind) mem.block indata with
      | none => none
      | some (none, p) => some (-1, mmi.setBlock number s kind ⟨p, (s kind).length⟩, none)
      | some (some bytes, _) =>
        some (0, mmi.setBlock number s kind ⟨.alloc bytes, ((s kind).length + indata.length) % 2 ^ 32⟩, none)
  else
    match found with
    | none => some (1, mmi, some indata)
    | some s =>
      match appendBlock (s kind) mem.block indata with
      | none => none
      | some (none, p) => some (-1, mmi.setBlock number s kind ⟨p, (s kind).length⟩, none)
      | some (some bytes, _) => some (2, mmi.setBlock number s kind .empty, some bytes)

/-- An object arrives: its length field, the lock, and `en50221_app_mmi_defragment`; `none` if the lock is
never given. -/
def receiveObject (mmi : Mmi) (number : UInt16) (kind : ObjectKind) (last : Bool) (mem : MmiMemory)
    (data : List UInt8) : Option (ℤ × Mmi × Option (List UInt8)) :=
  match objectData data with
  | none => some (-1, mmi, none)
  | some indata =>
    if mmi.locked = true then none else mmiDefragment mmi number kind last mem indata

/-- `en50221_app_mmi_clear_session`: returns with the lock if there is a record. -/
def mmiClearSession (mmi : Mmi) (number : UInt16) : Option Mmi :=
  if mmi.locked = true then none
  else
    match mmi.sessions.lookup number with
    | none => some mmi
    | some s =>
      if [ObjectKind.menu, .list, .subtitleSegment, .subtitleDownload].any fun k => (s k).chain = .dangling then
        none
      else some { mmi with sessions := mmi.sessions.erase number, locked := true }

/-! ### Runs -/

/-- An object of a session, as it is received behind its tag, or the end of a session. -/
inductive MmiOp where
  | object (number : UInt16) (kind : ObjectKind) (last : Bool) (mem : MmiMemory) (data : List UInt8)
  | clear (number : UInt16)
  deriving Repr, DecidableEq

/-- The object, and for each session and kind the fragments since the last LAST, or since the session was
cleared. -/
structure MmiHistory where
  mmi : Mmi
  fragments : UInt16 → ObjectKind → List (List UInt8)

def MmiHistory.create : MmiHistory := ⟨.create, fun _ _ => []⟩

def MmiHistory.next (h : MmiHistory) : MmiOp → UInt16 → ObjectKind → List (List UInt8)
  | .object number kind last _ data =>
    match objectData data with
    | none => h.fragments
    | some indata =>
      Function.update h.fragments number (Function.update (h.fragments number) kind
        (if last = true then [] else h.fragments number kind ++ [indata]))
  | .clear number => Function.update h.fragments number fun _ => []

def Mmi.step (mmi : Mmi) : MmiOp → Option Mmi
  | .object number kind last mem data => (receiveObject mmi number kind last mem data).map (·.2.1)
  | .clear number => mmiClearSession mmi number

def MmiHistory.step (h : MmiHistory) (op : MmiOp) : Option MmiHistory :=
  (h.mmi.step op).map fun mmi => ⟨mmi, h.next op⟩

/-- **Reassembly**: a LAST delivers the fragments of its kind and session with its own bytes behind them, a
MORE is taken, an object without a proper length field is refused; and clearing a session returns. -/
def Delivers (h : MmiHistory) : MmiOp → Prop
  | .object number kind last mem data =>
    match objectData data with
    | none => receiveObject h.mmi number kind last mem data = some (-1, h.mmi, none)
    | some indata =>
      if last = true then
        ∃ status mmi, 0 < status ∧ receiveObject h.mmi number kind last mem data =
          some (status, mmi, some ((h.fragments number kind).flatten ++ indata))
      else ∃ mmi, receiveObject h.mmi number kind last mem data = some (0, mmi, none)
  | .clear number => ∃ mmi, mmiClearSession h.mmi number = some mmi

/-- A block can be extended: there is memory, the bytes are not all empty unless the fragment is the first,
and their number fits 32 bits. -/
def CanAppend (fragments : List (List UInt8)) (mem : Bool) (indata : List UInt8) : Prop :=
  mem = true ∧ (fragments ≠ [] → fragments.flatten ++ indata ≠ []) ∧
    fragments.flatten.length + indata.length < 2 ^ 32

/-- The lock is free; a MORE finds a record or memory for one; and where there is a record its block can be
extended. -/
def MmiAccepted (h : MmiHistory) : MmiOp → Prop
  | .object number kind last mem data =>
    ∀ indata, objectData data = some indata → h.mmi.locked = false ∧
      (last = false → h.mmi.sessions.lookup number = none → mem.session = true) ∧
      (last = false ∨ h.mmi.sessions.lookup number ≠ none →
        CanAppend (h.fragments number kind) mem.block indata)
  | .clear _ => h.mmi.locked = false

/-! ### Length fields -/

theorem asn1Decode_lt {arr : List UInt8} {n len : ℕ} (h : asn1Decode arr = some (n, len)) : n < 2 ^ 16 := by
  have hbyte : ∀ b : UInt8, b.toNat < 2 ^ 8 := fun b => b.toNat_lt
  unfold asn1Decode at h
  split at h
  · exact absurd h (by simp)
  · split at h
    · rw [← (Prod.mk.inj (Option.some.inj h)).1]
      have := hbyte (‹UInt8› &&& 0x7f)
      omega
    · split at h
      · split at h
        · exact absurd h (by simp)
        · rename_i b _
          rw [← (Prod.mk.inj (Option.some.inj h)).1]
          have := hbyte b
          omega
      · split at h
        · split at h
          · rename_i b b' _
            rw [← (Prod.mk.inj (Option.some.inj h)).1]
            refine Nat.or_lt_two_pow ?_ ?_
            · have := hbyte b
              rw [Nat.shiftLeft_eq]
              omega
            · have := hbyte b'
              omega
          · exact absurd h (by simp)
        · exact absurd h (by simp)

variable {indata : List UInt8} {fragments : List (List UInt8)} {b : Block} {number : UInt16} {h : MmiHistory}

theorem length_objectData_lt {data : List UInt8} (h : objectData data = some indata) : indata.length < 2 ^ 16 := by
  unfold objectData at h
  split at h
  · exact absurd h (by simp)
  · rename_i n len hdec
    split at h
    · exact absurd h (by simp)
    · obtain rfl := Option.some.inj h
      have := asn1Decode_lt hdec
      have hle := List.length_take_le n (data.drop len)
      omega

/-! ### Blocks -/

/-- A block holds fragments: it is not there before the first, and holds their bytes after it. -/
inductive Block.Holds (b : Block) (fragments : List (List UInt8)) : Prop
  | none (nil : fragments = []) (eq : b = .empty)
  | some (ne : fragments ≠ []) (lt : fragments.flatten.length < 2 ^ 32)
      (eq : b = ⟨.alloc fragments.flatten, fragments.flatten.length⟩)

theorem appendBlock_empty (mem : Bool) (hlt : indata.length < 2 ^ 16) :
    (CanAppend [] mem indata ∧ ∃ p, appendBlock .empty mem indata = some (some indata, p)) ∨
    (¬ CanAppend [] mem indata ∧ ∀ bytes p, appendBlock .empty mem indata ≠ some (some bytes, p)) := by
  have hsize : (0 + indata.length) % 2 ^ 32 = indata.length := by omega
  have hreal : realloc .null indata.length = some (some [], .null) := if_pos (by omega)
  unfold appendBlock Block.empty
  dsimp only
  rw [hsize, hreal]
  cases mem with
  | false => exact .inr ⟨fun h => absurd h.1 (by simp), fun bytes p hc => absurd hc (by simp)⟩
  | true =>
    have hlen : ([] : List (List UInt8)).flatten.length + indata.length < 2 ^ 32 := by
      simp only [List.flatten_nil, List.length_nil]
      omega
    refine .inl ⟨⟨rfl, fun h => absurd rfl h, hlen⟩, .null, ?_⟩
    simp

/-- A block behind the first fragment is freed if there are no bytes at all, and outgrown if their number
overflows. -/
theorem appendBlock_alloc (ne : fragments ≠ []) (lt : fragments.flatten.length < 2 ^ 32) (mem : Bool)
    (hlt : indata.length < 2 ^ 16) :
    (CanAppend fragments mem indata ∧
      ∃ p, appendBlock ⟨.alloc fragments.flatten, fragments.flatten.length⟩ mem indata =
        some (some (fragments.flatten ++ indata), p)) ∨
    (¬ CanAppend fragments mem indata ∧ ∀ bytes p,
      appendBlock ⟨.alloc fragments.flatten, fragments.flatten.length⟩ mem indata ≠ some (some bytes, p)) := by
  generalize htotal : fragments.flatten.length + indata.length = total
  have hempty : total = 0 ↔ fragments.flatten ++ indata = [] := by
    rw [← List.length_eq_zero_iff, List.length_append, htotal]
  unfold appendBlock
  dsimp only [realloc]
  rw [htotal]
  by_cases hzero : total % 2 ^ 32 = 0
  · -- the block is freed
    rw [if_pos hzero]
    refine .inr ⟨fun h => ?_, fun bytes p hc => absurd hc (by simp)⟩
    obtain ⟨-, hne, hfit⟩ := h
    rw [htotal] at hfit
    exact hne ne (hempty.mp (by omega))
  · have hsize : total % 2 ^ 32 < 2 ^ 63 := by omega
    rw [if_neg hzero, if_pos hsize]
    dsimp only
    cases mem with
    | false => exact .inr ⟨fun h => absurd h.1 (by simp), fun bytes p hc => absurd hc (by simp)⟩
    | true =>
      rw [if_neg (by decide)]
      by_cases hover : total % 2 ^ 32 < total
      · -- the sum has overflowed: the copy runs out of the block
        rw [if_pos hover]
        refine .inr ⟨fun h => ?_, fun bytes p hc => absurd hc (by simp)⟩
        have hfit := h.2.2
        rw [htotal] at hfit
        omega
      · have hfit : total < 2 ^ 32 := by omega
        rw [if_neg hover]
        refine .inl ⟨⟨rfl, fun _ hnil => ?_, by rw [htotal]; exact hfit⟩, .dangling, ?_⟩
        · have := hempty.mpr hnil
          omega
        · have htake : (fragments.flatten.take (total % 2 ^ 32)).take fragments.flatten.length
              = fragments.flatten := by
            rw [List.take_take, min_eq_left (by omega), List.take_length]
          rw [htake]

/-- **Appending to a block** succeeds exactly if the block can be extended, and gives the bytes with the
new ones behind them. -/
theorem appendBlock_cases (hb : b.Holds fragments) (mem : Bool) (hlt : indata.length < 2 ^ 16) :
    (CanAppend fragments mem indata ∧
      ∃ p, appendBlock b mem indata = some (some (fragments.flatten ++ indata), p)) ∨
    (¬ CanAppend fragments mem indata ∧ ∀ bytes p, appendBlock b mem indata ≠ some (some bytes, p)) := by
  cases hb with
  | none nil eq =>
    subst nil eq
    exact appendBlock_empty mem hlt
  | some ne lt eq =>
    subst eq
    exact appendBlock_alloc ne lt mem hlt

theorem Block.Holds.append {mem : Bool} (hc : CanAppend fragments mem indata) {length : ℕ}
    (hlen : length = fragments.flatten.length) :
    Block.Holds ⟨.alloc (fragments.flatten ++ indata), (length + indata.length) % 2 ^ 32⟩
      (fragments ++ [indata]) := by
  have hflat : (fragments ++ [indata]).flatten = fragments.flatten ++ indata := by simp
  have hfit := hc.2.2
  refine .some (by simp) ?_ ?_
  · rw [hflat, List.length_append]
    exact hfit
  · rw [hflat, List.length_append, hlen, Nat.mod_eq_of_lt hfit]

theorem Block.Holds.length_eq (hb : b.Holds fragments) : b.length = fragments.flatten.length := by
  cases hb with
  | none nil eq => rw [nil, eq]; rfl
  | some ne lt eq => rw [eq]

theorem Block.Holds.not_dangling (hb : b.Holds fragments) : b.chain ≠ .dangling := by
  cases hb with
  | none nil eq => rw [eq]; decide
  | some ne lt eq => rw [eq]; simp

/-! ### The records -/

/-- The block of a session and kind, if the session has a record. -/
def Mmi.block (mmi : Mmi) (number : UInt16) : MmiSession := (mmi.sessions.lookup number).getD fun _ => .empty

def Mirrors (h : MmiHistory) : Prop :=
  ∀ number kind, (h.mmi.block number kind).Holds (h.fragments number kind)

theorem mirrors_create : Mirrors .create := fun _ _ => .none rfl rfl

theorem block_of_lookup {mmi : Mmi} {s : MmiSession} (h : mmi.sessions.lookup number = some s) :
    mmi.block number = s := by
  unfold Mmi.block
  rw [h]
  rfl

theorem block_of_none {mmi : Mmi} (h : mmi.sessions.lookup number = none) : mmi.block number = fun _ => .empty := by
  unfold Mmi.block
  rw [h]
  rfl

theorem Mirrors.fragments_of_none (hm : Mirrors h) (hnone : h.mmi.sessions.lookup number = none) (kind : ObjectKind) :
    h.fragments number kind = [] := by
  have hholds := hm number kind
  rw [block_of_none hnone] at hholds
  cases hholds with
  | none nil eq => exact nil
  | some ne lt eq => exact absurd eq (by simp [Block.empty])

theorem Mirrors.setBlock (hm : Mirrors h) {kind : ObjectKind} (hb : b.Holds fragments) :
    Mirrors ⟨h.mmi.setBlock number (h.mmi.block number) kind b,
      Function.update h.fragments number (Function.update (h.fragments number) kind fragments)⟩ := by
  intro m k
  unfold Mmi.block Mmi.setBlock
  dsimp only
  by_cases hmn : m = number
  · subst hmn
    rw [AList.lookup_insert, Function.update_self]
    show (Function.update (h.mmi.block m) kind b k).Holds _
    by_cases hk : k = kind
    · subst hk
      rw [Function.update_self, Function.update_self]
      exact hb
    · rw [Function.update_of_ne hk, Function.update_of_ne hk]
      exact hm m k
  · rw [AList.lookup_insert_ne hmn, Function.update_of_ne hmn]
    exact hm m k

/-! ### One operation -/

theorem mmiDefragment_more (hm : Mirrors h) (number : UInt16) (kind : ObjectKind) (mem : MmiMemory)
    (hlt : indata.length < 2 ^ 16) :
    ((h.mmi.sessions.lookup number = none → mem.session = true) ∧
        CanAppend (h.fragments number kind) mem.block indata ∧
      ∃ b : Block, b.Holds (h.fragments number kind ++ [indata]) ∧
        mmiDefragment h.mmi number kind false mem indata =
          some (0, h.mmi.setBlock number (h.mmi.block number) kind b, none)) ∨
    (¬ ((h.mmi.sessions.lookup number = none → mem.session = true) ∧
        CanAppend (h.fragments number kind) mem.block indata) ∧
      ∀ mmi, mmiDefragment h.mmi number kind false mem indata ≠ some (0, mmi, none)) := by
  have hs : (h.mmi.sessions.lookup number).getD (fun _ => .empty) = h.mmi.block number := rfl
  unfold mmiDefragment
  simp only [if_true, hs, Option.isNone_iff_eq_none]
  by_cases hnew : h.mmi.sessions.lookup number = none ∧ mem.session = false
  · rw [if_pos hnew]
    refine .inr ⟨fun hc => ?_, fun mmi hc => ?_⟩
    · have := hc.1 hnew.1
      rw [hnew.2] at this
      exact absurd this (by decide)
    · exact absurd (Prod.mk.inj (Option.some.inj hc)).1 (by decide)
  · have hsession : h.mmi.sessions.lookup number = none → mem.session = true := by
      intro hn
      by_contra hf
      exact hnew ⟨hn, by simpa using hf⟩
    rw [if_neg hnew]
    rcases appendBlock_cases (hm number kind) mem.block hlt with ⟨hc, p, heq⟩ | ⟨hc, hne⟩
    · refine .inl ⟨hsession, hc, _, .append hc (hm number kind).length_eq, ?_⟩
      rw [heq]
    · refine .inr ⟨fun hboth => hc hboth.2, fun mmi hr => ?_⟩
      cases happ : appendBlock (h.mmi.block number kind) mem.block indata with
      | none =>
        rw [happ] at hr
        exact absurd hr (by simp)
      | some r =>
        obtain ⟨bytes, p⟩ := r
        rw [happ] at hr
        cases bytes with
        | none => exact absurd (Prod.mk.inj (Option.some.inj hr)).1 (by decide)
        | some bytes => exact absurd happ (hne bytes p)

/-- What `en50221_app_mmi_defragment` does with a LAST of a session without a record. -/
theorem mmiDefragment_last_new (kind : ObjectKind) (mem : MmiMemory) (indata : List UInt8)
    (hnone : h.mmi.sessions.lookup number = none) :
    mmiDefragment h.mmi number kind true mem indata = some (1, h.mmi, some indata) := by
  unfold mmiDefragment
  dsimp only
  rw [if_neg (by decide), hnone]

theorem mmiDefragment_last (hm : Mirrors h) (kind : ObjectKind) (mem : MmiMemory) (hlt : indata.length < 2 ^ 16)
    (hsome : h.mmi.sessions.lookup number ≠ none) :
    (CanAppend (h.fragments number kind) mem.block indata ∧
      mmiDefragment h.mmi number kind true mem indata =
        some (2, h.mmi.setBlock number (h.mmi.block number) kind .empty,
          some ((h.fragments number kind).flatten ++ indata))) ∨
    (¬ CanAppend (h.fragments number kind) mem.block indata ∧
      ∀ status mmi bytes, 0 < status →
        mmiDefragment h.mmi number kind true mem indata ≠ some (status, mmi, some bytes)) := by
  obtain ⟨s, hs⟩ := Option.ne_none_iff_exists'.mp hsome
  have hblock := block_of_lookup hs
  unfold mmiDefragment
  dsimp only
  rw [if_neg (by decide), hs, hblock]
  rw [← hblock]
  rcases appendBlock_cases (hm number kind) mem.block hlt with ⟨hc, p, heq⟩ | ⟨hc, hne⟩
  · refine .inl ⟨hc, ?_⟩
    dsimp only
    rw [heq]
  · refine .inr ⟨hc, fun status mmi bytes hpos hr => ?_⟩
    dsimp only at hr
    cases happ : appendBlock (h.mmi.block number kind) mem.block indata with
    | none =>
      rw [happ] at hr
      exact absurd hr (by simp)
    | some r =>
      obtain ⟨bytes', p⟩ := r
      rw [happ] at hr
      cases bytes' with
      | none => exact absurd (Prod.mk.inj (Prod.mk.inj (Option.some.inj hr)).2).2 (by simp)
      | some bytes' => exact absurd happ (hne bytes' p)

theorem mmiClearSession_spec (hm : Mirrors h) (hfree : h.mmi.locked = false) (number : UInt16) :
    ∃ mmi, mmiClearSession h.mmi number = some mmi ∧
      mmi.block = Function.update h.mmi.block number fun _ => .empty := by
  unfold mmiClearSession
  rw [if_neg (by rw [hfree]; decide)]
  cases hs : h.mmi.sessions.lookup number with
  | none =>
    refine ⟨_, rfl, ?_⟩
    rw [← block_of_none hs, Function.update_eq_self]
  | some s =>
    have hany : ¬ ([ObjectKind.menu, .list, .subtitleSegment, .subtitleDownload].any fun k =>
        (s k).chain = .dangling) = true := by
      rw [Bool.not_eq_true, List.any_eq_false]
      intro kind _ hdangling
      have hholds := hm number kind
      rw [block_of_lookup hs] at hholds
      exact hholds.not_dangling (of_decide_eq_true hdangling)
    dsimp only
    rw [if_neg hany]
    refine ⟨_, rfl, ?_⟩
    funext m
    unfold Mmi.block
    by_cases hmn : m = number
    · subst hmn
      rw [AList.lookup_erase, Function.update_self]
      rfl
    · rw [AList.lookup_erase_ne hmn, Function.update_of_ne hmn]

/-- **One operation** delivers what it should exactly if it is accepted. -/
theorem delivers_iff (hm : Mirrors h) (op : MmiOp) : Delivers h op ↔ MmiAccepted h op := by
  cases op with
  | clear number =>
    show (∃ mmi, mmiClearSession h.mmi number = some mmi) ↔ h.mmi.locked = false
    cases hl : h.mmi.locked with
    | true => simp [mmiClearSession, hl]
    | false =>
      obtain ⟨mmi, hclear, -⟩ := mmiClearSession_spec hm hl number
      exact iff_of_true ⟨mmi, hclear⟩ rfl
  | object number kind last mem data =>
    cases hd : objectData data with
    | none => simp [Delivers, MmiAccepted, receiveObject, hd]
    | some indata =>
      have hlt := length_objectData_lt hd
      simp only [Delivers, MmiAccepted, receiveObject, hd, Option.some.injEq, forall_eq']
      cases hl : h.mmi.locked with
      | true => simp
      | false =>
        simp only [Bool.false_eq_true, if_false, true_and]
        cases last with
        | false =>
          simp only [Bool.false_eq_true, if_false, forall_const, true_or]
          rcases mmiDefragment_more hm number kind mem hlt with ⟨hnew, hc, b, -, heq⟩ | ⟨hno, hne⟩
          · exact iff_of_true ⟨_, heq⟩ ⟨hnew, hc⟩
          · refine iff_of_false ?_ hno
            rintro ⟨mmi, heq⟩
            exact hne mmi heq
        | true =>
          simp only [if_true, Bool.true_eq_false, false_imp_iff, true_and, false_or]
          by_cases hs : h.mmi.sessions.lookup number = none
          · rw [mmiDefragment_last_new kind mem indata hs, hm.fragments_of_none hs kind]
            exact iff_of_true ⟨1, h.mmi, by decide, rfl⟩ fun hne => absurd hs hne
          · rcases mmiDefragment_last hm kind mem hlt hs with ⟨hc, heq⟩ | ⟨hno, hne⟩
            · exact iff_of_true ⟨2, _, by decide, heq⟩ fun _ => hc
            · refine iff_of_false ?_ fun h => hno (h hs)
              rintro ⟨status, mmi, hpos, heq⟩
              exact hne status mmi _ hpos heq

theorem mirrors_clear (hm : Mirrors h) (hfree : h.mmi.locked = false) {mmi : Mmi}
    (hs : mmiClearSession h.mmi number = some mmi) : Mirrors ⟨mmi, h.next (.clear number)⟩ := by
  obtain ⟨mmi', hclear, hblock⟩ := mmiClearSession_spec hm hfree number
  obtain rfl := Option.some.inj (hclear.symm.trans hs)
  intro m kind
  show (mmi'.block m kind).Holds (Function.update h.fragments number (fun _ => []) m kind)
  rw [hblock]
  by_cases hmn : m = number
  · subst hmn
    rw [Function.update_self, Function.update_self]
    exact .none rfl rfl
  · rw [Function.update_of_ne hmn, Function.update_of_ne hmn]
    exact hm m kind

/-- **The records follow** what arrives, as long as it is accepted. -/
theorem mirrors_step {h' : MmiHistory} {op : MmiOp} (hm : Mirrors h) (ha : MmiAccepted h op)
    (hs : h.step op = some h') : Mirrors h' := by
  obtain ⟨mmi, hstep, rfl⟩ := Option.map_eq_some_iff.mp hs
  cases op with
  | clear number => exact mirrors_clear hm ha hstep
  | object number kind last mem data =>
    have hstep : (receiveObject h.mmi number kind last mem data).map (·.2.1) = some mmi := hstep
    obtain ⟨r, hr, rfl⟩ := Option.map_eq_some_iff.mp hstep
    cases hd : objectData data with
    | none =>
      simp only [receiveObject, hd] at hr
      obtain rfl := Option.some.inj hr
      simp only [MmiHistory.next, hd]
      exact hm
    | some indata =>
      have hlt := length_objectData_lt hd
      obtain ⟨hfree, hnew, happ⟩ := ha indata hd
      simp only [receiveObject, hd] at hr
      simp only [MmiHistory.next, hd]
      rw [if_neg (by rw [hfree]; decide)] at hr
      cases last with
      | false =>
        rcases mmiDefragment_more hm number kind mem hlt with ⟨-, -, b, hb, heq⟩ | ⟨hno, -⟩
        · rw [heq] at hr
          obtain rfl := Option.some.inj hr
          exact hm.setBlock hb
        · exact absurd ⟨hnew rfl, happ (.inl rfl)⟩ hno
      | true =>
        by_cases hrec : h.mmi.sessions.lookup number = none
        · rw [mmiDefragment_last_new kind mem indata hrec] at hr
          obtain rfl := Option.some.inj hr
          rw [if_pos rfl, ← hm.fragments_of_none hrec kind, Function.update_eq_self, Function.update_eq_self]
          exact hm
        · rcases mmiDefragment_last hm kind mem hlt hrec with ⟨-, heq⟩ | ⟨hno, -⟩
          · rw [heq] at hr
            obtain rfl := Option.some.inj hr
            exact hm.setBlock (.none rfl rfl)
          · exact absurd (happ (.inr hrec)) hno

/-! ### Every run -/

/-- **Reassembly.**  Along every run from a new object, whatever the interleaving of sessions and kinds, the
objects are delivered as they should be exactly if each of them is accepted. -/
theorem along_delivers_iff (ops : List MmiOp) :
    Along MmiHistory.step Delivers .create ops ↔ Along MmiHistory.step MmiAccepted .create ops :=
  along_iff_of_invariant (I := Mirrors) (fun _ _ _ hm ha hs => mirrors_step hm ha hs)
    (fun _ op hm => delivers_iff hm op) ops .create mirrors_create

def enoughMemory : MmiMemory := ⟨true, true⟩

/-- A menu fragment, the session is cleared, and the lock is never given again; two empty fragments, and the
second is refused. -/
theorem not_along_delivers_cleared_or_empty :
    ¬ Along MmiHistory.step Delivers .create
      [.object 1 .menu false enoughMemory [1, 0xaa], .clear 1, .object 1 .menu true enoughMemory [1, 0xbb]] ∧
    ¬ Along MmiHistory.step Delivers .create
      [.object 1 .menu false enoughMemory [0], .object 1 .menu false enoughMemory [0]] := by
  constructor
  · intro h
    obtain ⟨status, mmi, -, heq⟩ := ((h.2 _ rfl).2 _ rfl).1
    have heq : (none : Option (ℤ × Mmi × Option (List UInt8))) = some (status, mmi, some _) := heq
    exact absurd heq (by simp)
  · intro h
    obtain ⟨mmi, heq⟩ := (h.2 _ rfl).1
    have hstatus := congrArg (Option.map Prod.fst) heq
    have hstatus : (-1 : ℤ) = 0 := Option.some.inj hstatus
    exact absurd hstatus (by decide)

end BgtDvb.En50221
