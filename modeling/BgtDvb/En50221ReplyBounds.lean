import BgtDvb.En50221MmiMenu

/-!
# What the menus of a module and its CA replies touch

A menu, a list and a reply to a CA PMT hold lengths of their own, which the module chooses.  The functions that take
them apart are followed here touch by touch: the bytes they read or change, the lengths they subtract, the pointers
they hand to the application.  Memory goes on behind a piece that is received, and may hold anything there.

* `touches_inside_iff` — **PROVED**: which messages keep the bounds.
-/

namespace BgtDvb.En50221.ReplyBounds

/-! ### Touches -/

/-- `size` bytes at `pos` of a piece of `extent` bytes, `size` taken off `left` bytes, a pointer with a length that is
handed out, and one that was never set. -/
inductive Touch
  | bytes (extent pos size : ℕ)
  | takes (left size : ℕ)
  | hands (extent pos size : ℕ)
  | wild
  deriving DecidableEq, Repr

def Touch.Inside : Touch → Prop
  | .bytes extent pos size => pos + size ≤ extent
  | .takes left size => size ≤ left
  | .hands extent pos size => pos + size ≤ extent
  | .wild => False

instance : DecidablePred Touch.Inside
  | .bytes extent pos size => inferInstanceAs (Decidable (pos + size ≤ extent))
  | .takes left size => inferInstanceAs (Decidable (size ≤ left))
  | .hands extent pos size => inferInstanceAs (Decidable (pos + size ≤ extent))
  | .wild => inferInstanceAs (Decidable False)

/-- Memory from the first byte of a piece of `extent` bytes on. -/
structure Memory where
  byte : ℕ → UInt8
  extent : ℕ

def Memory.of (bytes : List UInt8) (behind : ℕ → UInt8) : Memory := ⟨fun i => bytes.getD i (behind i), bytes.length⟩

/-- The `n` bytes at `pos`. -/
def Memory.window (m : Memory) (pos n : ℕ) : List UInt8 := (List.range n).map fun i => m.byte (pos + i)

/-- A `uint32_t` less another. -/
def minus (left size : ℕ) : ℕ := (left + 2 ^ 32 - size) % 2 ^ 32

variable (m : Memory)

/-- `asn_1_decode` where the field stands; it looks at up to three of the bytes that are left. -/
def asn1At (pos left : ℕ) : Option (ℕ × ℕ) := asn1Decode (m.window pos (min left 3))

def asn1Touch (pos left : ℕ) : Touch := .bytes m.extent pos ((asn1At m pos left).elim (min left 1) (·.2))

/-! ### Replies -/

def tagCaPmtReply : UInt32 := 0x9f8033

/-- The loop of `en50221_app_ca_parse_reply` that turns the PIDs round. -/
def swapTouches (data asnDataLength : ℕ) : ℕ → ℕ → List Touch
  | 0, _ => []
  | fuel + 1, pos =>
    if pos < asnDataLength then .bytes m.extent (data + pos) 2 :: swapTouches data asnDataLength fuel (pos + 3) else []

/-- `en50221_app_pmt_reply_streams_first`: where the stream is. -/
def pmtReplyStreamsFirst (replySize : ℕ) : Option ℕ := if 4 ≥ replySize then none else some 4

/-- `en50221_app_pmt_reply_streams_next` -/
def pmtReplyStreamsNext (replySize pos : ℕ) : Option ℕ := if pos + 3 ≥ replySize then none else some (pos + 3)

/-- `en50221_app_pmt_reply_streams_for_each` -/
def pmtReplyStreams (replySize : ℕ) : ℕ → Option ℕ → List ℕ
  | 0, _ => []
  | _ + 1, none => []
  | fuel + 1, some pos => pos :: pmtReplyStreams replySize fuel (pmtReplyStreamsNext replySize pos)

/-- `en50221_app_ca_parse_reply` on `left` bytes at `data`, and the streams that a callback goes over. -/
def parseReplyTouches (callback : Bool) (data left : ℕ) : List Touch :=
  asn1Touch m data left ::
    match asn1At m data left with
    | none => []
    | some (asnDataLength, lengthFieldLen) =>
      if asnDataLength < 4 then []
      else if asnDataLength > left - lengthFieldLen then []
      else
        let data := data + lengthFieldLen
        .takes left lengthFieldLen :: .bytes m.extent data 2 ::
          (swapTouches m data asnDataLength asnDataLength 4 ++
            if callback then
              .hands m.extent data asnDataLength ::
                (pmtReplyStreams asnDataLength asnDataLength (pmtReplyStreamsFirst asnDataLength)).map fun pos =>
                  .hands m.extent (data + pos) 3
            else [])

/-- `en50221_app_ca_message` as far as CA_PMT_REPLY; `callback` says whether one is registered, `behind` is what stands
behind the message. -/
def caMessageTouches (callback : Bool) (behind : ℕ → UInt8) (data : List UInt8) : List Touch :=
  let m := Memory.of data behind
  match data with
  | b₀ :: b₁ :: b₂ :: rest =>
    .bytes m.extent 0 3 :: if tagOf b₀ b₁ b₂ = tagCaPmtReply then parseReplyTouches m callback 3 rest.length else []
  | _ => []

/-! ### Texts -/

/-- The tag and the length field of a fragment: the tag, the length, and the size of the field. -/
def headerAt (pos left : ℕ) : Option (UInt32 × ℕ × ℕ) :=
  if left < 3 then none
  else (asn1At m (pos + 3) (left - 3)).map fun r =>
    (tagOf (m.byte pos) (m.byte (pos + 1)) (m.byte (pos + 2)), r.1, r.2)

def headerTouches (pos left : ℕ) : List Touch :=
  if left < 3 then [] else [.bytes m.extent pos 3, .takes left 3, asn1Touch m (pos + 3) (left - 3)]

/-- The copy of `n` bytes behind those of a block that `realloc` has made larger by as many. -/
def copyTouches (b : Block) (mem : Bool) (pos n : ℕ) : List Touch :=
  match realloc b.chain ((b.length + n) % 2 ^ 32) with
  | some (some _, _) =>
    if mem then [.bytes m.extent pos n, .bytes ((b.length + n) % 2 ^ 32) b.length n] else []
  | _ => []

/-- A text: where it is among the data, or the block it was put together in. -/
inductive TextPtr
  | here (pos length : ℕ)
  | block (bytes : List UInt8)

def TextPtr.touch : TextPtr → Touch
  | .here pos length => .hands m.extent pos length
  | .block bytes => .hands bytes.length 0 bytes.length

/-- How `en50221_app_mmi_defragment_text` ends: with a text and `outconsumed`, with -1, with what C does not define,
or it is still running. -/
inductive TextEnd
  | text (text : TextPtr) (consumed : ℕ)
  | refused
  | undefined
  | running

/-- A block that could not be made larger is freed, also one that `realloc` has freed. -/
def TextEnd.ofAppend (appended : Option (Option (List UInt8) × ChainPtr)) : TextEnd :=
  match appended with
  | none | some (_, .dangling) => .undefined
  | some _ => .refused

/-- `en50221_app_mmi_defragment_text`, the first rounds of its loop.  A fragment is told from the others by the bytes that
are left: `mem left` is whether there is memory for it. -/
def defragmentText (mem : ℕ → Bool) : ℕ → Block → ℕ → ℕ → ℕ → List Touch × TextEnd
  | 0, _, _, _, _ => ([], .running)
  | rounds + 1, text, pos, left, consumed =>
    match headerAt m pos left with
    | none => (headerTouches m pos left, .refused)
    | some (tag, asnDataLength, lengthFieldLen) =>
      let data := pos + 3 + lengthFieldLen
      let header := headerTouches m pos left ++ [.takes (left - 3) lengthFieldLen]
      if tag = tagTextLast then
        if text.chain = .null then
          (header, .text (.here data asnDataLength) ((consumed + 3 + lengthFieldLen + asnDataLength) % 2 ^ 32))
        else
          match appendBlock text (mem left) (m.window data asnDataLength) with
          | some (some bytes, _) =>
            (header ++ copyTouches m text (mem left) data asnDataLength,
              .text (.block bytes) ((consumed + 3 + lengthFieldLen + asnDataLength) % 2 ^ 32))
          | appended => (header ++ copyTouches m text (mem left) data asnDataLength, .ofAppend appended)
      else if tag = tagTextMore then
        let copy := copyTouches m text (mem left) data asnDataLength
        match appendBlock text (mem left) (m.window data asnDataLength) with
        | some (some bytes, _) =>
          let left := left - 3 - lengthFieldLen
          let behind := defragmentText mem rounds ⟨.alloc bytes, (text.length + asnDataLength) % 2 ^ 32⟩
            (data + asnDataLength) (minus left asnDataLength)
            ((consumed + 3 + lengthFieldLen + asnDataLength) % 2 ^ 32)
          (header ++ copy ++ .takes left asnDataLength :: behind.1, behind.2)
        | appended => (header ++ copy, .ofAppend appended)
      else (header, .refused)

/-- The loop over the texts of a menu: the texts, where the data go on, and how many are left. -/
def readTexts (mem : ℕ → Bool) (rounds : ℕ) : ℕ → ℕ → ℕ → List Touch × Option (List TextPtr × ℕ × ℕ)
  | 0, pos, left => ([], some ([], pos, left))
  | n + 1, pos, left =>
    let first := defragmentText m mem rounds .empty pos left 0
    match first.2 with
    | .text text consumed =>
      let others := readTexts mem rounds n (pos + consumed) (minus left consumed)
      (first.1 ++ .takes left consumed :: others.1, others.2.map fun r => (text :: r.1, r.2))
    | _ => (first.1, none)

/-! ### Menus -/

/-- What the callback is given: the texts, those of the first three that were not read, and what is behind them. -/
def menuHands (choiceNb : UInt8) (texts : List TextPtr) (pos left : ℕ) : List Touch :=
  texts.map (TextPtr.touch m) ++ (if texts.length < 3 then [.wild] else []) ++
    if choiceNb = 0xff then [.hands m.extent pos left] else []

/-- The menu in an object of `left` bytes at `pos`. -/
def menuTouches (mem : ℕ → Bool) (callback : Bool) (rounds pos left : ℕ) : List Touch :=
  if left < 1 then []
  else
    let choiceNb := m.byte pos
    let read := readTexts m mem rounds (textCount choiceNb).toNat (pos + 1) (left - 1)
    .bytes m.extent pos 1 :: (read.1 ++
      match read.2 with
      | some (texts, pos, left) => if callback then menuHands m choiceNb texts pos left else []
      | none => [])

/-- The block that a fragment is copied to; `none` if there is none. -/
def blockOf (mmi : Mmi) (number : UInt16) (kind : ObjectKind) (last : Bool) (mem : MmiMemory) : Option Block :=
  match mmi.sessions.lookup number with
  | some s => some (s kind)
  | none => if last = false ∧ mem.session = true then some .empty else none

/-- What stands behind the message and behind a block in memory, and whether there is memory: for the message, and for
each fragment of a text in it. -/
structure World where
  behind : ℕ → UInt8
  heap : ℕ → UInt8
  mem : MmiMemory
  texts : ℕ → Bool

/-- `en50221_app_mmi_parse_list_menu` for the bytes behind the tag. -/
def parseListMenuTouches (w : World) (mmi : Mmi) (number : UInt16) (kind : ObjectKind) (last : Bool) (rounds : ℕ)
    (data : List UInt8) : List Touch :=
  asn1Touch m 3 data.length ::
    match asn1Decode data with
    | none => []
    | some (asnDataLength, lengthFieldLen) =>
      if asnDataLength > data.length - lengthFieldLen ∨ mmi.locked = true then []
      else
        (match blockOf mmi number kind last w.mem with
          | some b => copyTouches m b w.mem.block (3 + lengthFieldLen) asnDataLength
          | none => []) ++
        match receiveObject mmi number kind last w.mem data with
        | some (1, _, some outdata) =>
          menuTouches m w.texts (mmi.hasCallback kind) rounds (3 + lengthFieldLen) outdata.length
        | some (2, _, some outdata) =>
          menuTouches (Memory.of outdata w.heap) w.texts (mmi.hasCallback kind) rounds 0 outdata.length
        | _ => []

def objectOf (tag : UInt32) : Option (ObjectKind × Bool) :=
  if tag = tagMenuLast then some (.menu, true)
  else if tag = tagMenuMore then some (.menu, false)
  else if tag = tagListLast then some (.list, true)
  else if tag = tagListMore then some (.list, false)
  else none

/-- `en50221_app_mmi_message` as far as menus and lists. -/
def mmiMessageTouches (w : World) (mmi : Mmi) (number : UInt16) (rounds : ℕ) (data : List UInt8) : List Touch :=
  let m := Memory.of data w.behind
  match data with
  | b₀ :: b₁ :: b₂ :: rest =>
    .bytes m.extent 0 3 ::
      match objectOf (tagOf b₀ b₁ b₂) with
      | some (kind, last) => parseListMenuTouches m w mmi number kind last rounds rest
      | none => []
  | _ => []

/-! ### What keeps the bounds -/

/-- The streams of a reply, three bytes each, and the last of them whole, lie in the message; a callback looks at the
third byte. -/
def ReplyFits (callback : Bool) (data : List UInt8) : Prop :=
  ∀ b₀ b₁ b₂ rest asnDataLength lengthFieldLen, data = b₀ :: b₁ :: b₂ :: rest → tagOf b₀ b₁ b₂ = tagCaPmtReply →
    asn1Decode rest = some (asnDataLength, lengthFieldLen) → 4 ≤ asnDataLength →
    asnDataLength ≤ rest.length - lengthFieldLen →
    4 + 3 * ((asnDataLength - 2) / 3) ≤ rest.length - lengthFieldLen + (if callback then 0 else 1)

/-- The fragment in front of the data: its tag, its length, and the bytes behind the length field. -/
def fragmentHeader (data : List UInt8) : Option (UInt32 × ℕ × List UInt8) :=
  match data with
  | b₀ :: b₁ :: b₂ :: rest => (asn1Decode rest).map fun r => (tagOf b₀ b₁ b₂, r.1, rest.drop r.2)
  | _ => none

/-- Behind `chain` bytes of a text (`none` before its first fragment) there is a block for `n` more. -/
def CanExtend (mem : Bool) (chain : Option ℕ) (n : ℕ) : Prop :=
  mem = true ∧ ∀ k, chain = some k → (k + n) % 2 ^ 32 ≠ 0

/-- The data begin with the rest of a whole text, which is read; behind it they go on. -/
inductive TextEnds (mem : ℕ → Bool) : Option ℕ → List UInt8 → List UInt8 → Prop
  | last {chain : Option ℕ} {data body : List UInt8} {n : ℕ}
      (header : fragmentHeader data = some (tagTextLast, n, body)) (fits : n ≤ body.length)
      (room : chain = none ∨ CanExtend (mem data.length) chain n) : TextEnds mem chain data (body.drop n)
  | more {chain : Option ℕ} {data body behind : List UInt8} {n : ℕ}
      (header : fragmentHeader data = some (tagTextMore, n, body)) (fits : n ≤ body.length)
      (room : CanExtend (mem data.length) chain n) (rest : TextEnds mem (some (chain.getD 0 + n)) (body.drop n) behind) :
      TextEnds mem chain data behind

/-- A fragment of the text in front is longer than the data. -/
inductive TextOverruns (mem : ℕ → Bool) : Option ℕ → List UInt8 → Prop
  | last {chain : Option ℕ} {data body : List UInt8} {n : ℕ}
      (header : fragmentHeader data = some (tagTextLast, n, body)) (past : body.length < n)
      (room : chain = none ∨ CanExtend (mem data.length) chain n) : TextOverruns mem chain data
  | more {chain : Option ℕ} {data body : List UInt8} {n : ℕ}
      (header : fragmentHeader data = some (tagTextMore, n, body)) (past : body.length < n)
      (room : CanExtend (mem data.length) chain n) : TextOverruns mem chain data
  | behind {chain : Option ℕ} {data body : List UInt8} {n : ℕ}
      (header : fragmentHeader data = some (tagTextMore, n, body)) (fits : n ≤ body.length)
      (room : CanExtend (mem data.length) chain n) (rest : TextOverruns mem (some (chain.getD 0 + n)) (body.drop n)) :
      TextOverruns mem chain data

/-- The data begin with that many whole texts. -/
inductive TextsEnd (mem : ℕ → Bool) : ℕ → List UInt8 → Prop
  | nil {data : List UInt8} : TextsEnd mem 0 data
  | cons {n : ℕ} {data behind : List UInt8} (first : TextEnds mem none data behind) (rest : TextsEnd mem n behind) :
      TextsEnd mem (n + 1) data

/-- Behind whole texts, one of the first `n` overruns. -/
inductive TextsOverrun (mem : ℕ → Bool) : ℕ → List UInt8 → Prop
  | here {n : ℕ} {data : List UInt8} (first : TextOverruns mem none data) : TextsOverrun mem (n + 1) data
  | behind {n : ℕ} {data behind : List UInt8} (first : TextEnds mem none data behind)
      (rest : TextsOverrun mem n behind) : TextsOverrun mem (n + 1) data

/-- A text of the menu overruns, or fewer than three are read and handed out as three. -/
def MenuOverruns (mem : ℕ → Bool) (callback : Bool) (object : List UInt8) : Prop :=
  ∃ choiceNb texts, object = choiceNb :: texts ∧ (TextsOverrun mem (textCount choiceNb).toNat texts ∨
    (textCount choiceNb).toNat < 3 ∧ callback = true ∧ TextsEnd mem (textCount choiceNb).toNat texts)

/-- The bytes that are copied behind those of the block fit its new size, a sum of 32 bits. -/
def CopyFits (b : Block) (mem : Bool) (n : ℕ) : Prop :=
  ∀ bytes p, realloc b.chain ((b.length + n) % 2 ^ 32) = some (some bytes, p) → mem = true → b.length + n < 2 ^ 32

/-- A message that is a menu or a list, if it is one: the copy of its fragment fits, and no text of the object that it
completes overruns. -/
def MenuFits (w : World) (mmi : Mmi) (number : UInt16) (data : List UInt8) : Prop :=
  ∀ b₀ b₁ b₂ rest kind last indata, data = b₀ :: b₁ :: b₂ :: rest → objectOf (tagOf b₀ b₁ b₂) = some (kind, last) →
    objectData rest = some indata → mmi.locked = false →
    (∀ b, blockOf mmi number kind last w.mem = some b → CopyFits b w.mem.block indata.length) ∧
    ∀ status mmi' object, receiveObject mmi number kind last w.mem rest = some (status, mmi', some object) →
      ¬MenuOverruns w.texts (mmi.hasCallback kind) object

/-! ### Windows -/

section Windows

variable {m : Memory} {pos left : ℕ}

@[simp] theorem length_window (m : Memory) (pos n : ℕ) : (m.window pos n).length = n := by simp [Memory.window]

theorem window_succ (m : Memory) (pos n : ℕ) : m.window pos (n + 1) = m.byte pos :: m.window (pos + 1) n := by
  simp only [Memory.window, List.range_succ_eq_map, List.map_cons, List.map_map, Nat.add_zero]
  congr 1
  refine List.map_congr_left fun i _ => ?_
  show m.byte (pos + (i + 1)) = m.byte (pos + 1 + i)
  congr 1
  omega

theorem drop_window (m : Memory) (pos n k : ℕ) : (m.window pos n).drop k = m.window (pos + k) (n - k) := by
  induction k generalizing pos n with
  | zero => rfl
  | succ k ih =>
    cases n with
    | zero => simp [Memory.window]
    | succ n => rw [window_succ, List.drop_succ_cons, ih, Nat.add_sub_add_right, Nat.add_assoc, Nat.add_comm 1 k]

theorem take_window (m : Memory) (pos n k : ℕ) : (m.window pos n).take k = m.window pos (min n k) := by
  rw [Memory.window, ← List.map_take, List.take_range, Nat.min_comm]
  rfl

theorem window_of {bytes : List UInt8} (behind : ℕ → UInt8) {n : ℕ} (h : pos + n ≤ bytes.length) :
    (Memory.of bytes behind).window pos n = (bytes.drop pos).take n := by
  refine List.ext_getElem ?_ fun i hi₁ hi₂ => ?_
  · rw [length_window, List.length_take, List.length_drop]
    omega
  · rw [length_window] at hi₁
    simp only [Memory.window, List.getElem_map, List.getElem_range, List.getElem_take, List.getElem_drop]
    exact List.getD_eq_getElem bytes _ (by omega)

theorem asn1Decode_take (arr : List UInt8) : asn1Decode (arr.take 3) = asn1Decode arr := by
  match arr with
  | [] => rfl
  | [_] => rfl
  | [_, _] => rfl
  | _ :: _ :: _ :: _ => rfl

theorem asn1Decode_size {arr : List UInt8} {n k : ℕ} (h : asn1Decode arr = some (n, k)) :
    1 ≤ k ∧ k ≤ 3 ∧ k ≤ arr.length := by
  unfold asn1Decode at h
  split at h
  · cases h
  · split at h
    · cases h
      simp
    · split at h
      · split at h
        · cases h
        · cases h
          simp
      · split at h
        · split at h
          · cases h
            simp
          · cases h
        · cases h

theorem asn1At_eq (m : Memory) (pos left : ℕ) : asn1At m pos left = asn1Decode (m.window pos left) := by
  rw [asn1At, ← take_window, asn1Decode_take]

theorem asn1At_size {n k : ℕ} (h : asn1At m pos left = some (n, k)) : k ≤ 3 ∧ k ≤ left ∧ n < 2 ^ 16 := by
  rw [asn1At_eq] at h
  obtain ⟨-, hthree, hle⟩ := asn1Decode_size h
  rw [length_window] at hle
  exact ⟨hthree, hle, asn1Decode_lt h⟩

theorem asn1Touch_inside (h : pos + left ≤ m.extent) : (asn1Touch m pos left).Inside := by
  show pos + (asn1At m pos left).elim (min left 1) (·.2) ≤ m.extent
  cases hasn : asn1At m pos left with
  | none =>
    show pos + min left 1 ≤ m.extent
    omega
  | some r =>
    have hsize := asn1At_size hasn
    show pos + r.2 ≤ m.extent
    omega

end Windows

/-! ### Fragments -/

section Fragments

variable {m : Memory} {mem : Bool} {pos left : ℕ}

theorem fragmentHeader_window (m : Memory) (pos left : ℕ) :
    fragmentHeader (m.window pos left) =
      (headerAt m pos left).map fun r => (r.1, r.2.1, m.window (pos + 3 + r.2.2) (left - 3 - r.2.2)) := by
  unfold headerAt
  by_cases hshort : left < 3
  · rw [if_pos hshort]
    have hlen := length_window m pos left
    match hw : m.window pos left with
    | [] => rfl
    | [_] => rfl
    | [_, _] => rfl
    | _ :: _ :: _ :: _ =>
      rw [hw] at hlen
      simp only [List.length_cons] at hlen
      omega
  · obtain ⟨n, rfl⟩ : ∃ n, left = n + 3 := ⟨left - 3, by omega⟩
    rw [if_neg hshort, window_succ, window_succ, window_succ, fragmentHeader, Nat.add_sub_cancel, asn1At_eq, Option.map_map]
    refine congrArg (fun f => Option.map f _) (funext fun r => ?_)
    show (_, _, List.drop r.2 (m.window (pos + 1 + 1 + 1) n)) = _
    rw [drop_window]
    rfl

variable {tag : UInt32} {n : ℕ} {b : Block} {chain : Option ℕ}

theorem headerAt_size {k : ℕ} (h : headerAt m pos left = some (tag, n, k)) : 3 + k ≤ left ∧ k ≤ 3 ∧ n < 2 ^ 16 := by
  unfold headerAt at h
  split at h
  · cases h
  · obtain ⟨r, hr, heq⟩ := Option.map_eq_some_iff.mp h
    cases heq
    have hsize := asn1At_size hr
    omega

theorem fragmentHeader_of {k : ℕ} (h : headerAt m pos left = some (tag, n, k)) :
    fragmentHeader (m.window pos left) = some (tag, n, m.window (pos + 3 + k) (left - 3 - k)) := by
  rw [fragmentHeader_window, h]
  rfl

theorem headerTouches_inside (h : pos + left ≤ m.extent) : ∀ t ∈ headerTouches m pos left, t.Inside := by
  unfold headerTouches
  split
  · exact fun t ht => absurd ht List.not_mem_nil
  · intro t ht
    rcases List.mem_cons.mp ht with rfl | ht
    · show pos + 3 ≤ m.extent
      omega
    · rcases List.mem_cons.mp ht with rfl | ht
      · show 3 ≤ left
        omega
      · rw [List.mem_singleton] at ht
        rw [ht]
        exact asn1Touch_inside (by omega)

theorem headerAt_of {body : List UInt8} (h : fragmentHeader (m.window pos left) = some (tag, n, body)) :
    ∃ k, headerAt m pos left = some (tag, n, k) ∧ body = m.window (pos + 3 + k) (left - 3 - k) := by
  rw [fragmentHeader_window] at h
  obtain ⟨r, hr, heq⟩ := Option.map_eq_some_iff.mp h
  cases heq
  exact ⟨r.2.2, hr, rfl⟩

/-- What a text has put together so far: nothing, or so many bytes in a block of its own. -/
inductive Holds : Option ℕ → Block → Prop
  | nothing : Holds none .empty
  | block {bytes : List UInt8} (lt : bytes.length < 2 ^ 32) : Holds (some bytes.length) ⟨.alloc bytes, bytes.length⟩

theorem Holds.length (h : Holds chain b) : b.length = chain.getD 0 := by
  cases h <;> rfl

theorem Holds.null_iff (h : Holds chain b) : b.chain = .null ↔ chain = none := by
  cases h with
  | nothing => exact iff_of_true rfl rfl
  | block lt => exact iff_of_false (fun h => (by cases h)) fun h => (by cases h)

theorem realloc_can (h : Holds chain b) (hn : n < 2 ^ 16) (hcan : CanExtend mem chain n) :
    ∃ bytes p, realloc b.chain ((b.length + n) % 2 ^ 32) = some (some bytes, p) ∧
      (b.length + n < 2 ^ 32 → bytes.take b.length = bytes ∧ bytes.length = b.length) := by
  cases h with
  | nothing =>
    refine ⟨[], .null, if_pos ?_, fun _ => ⟨rfl, rfl⟩⟩
    show (0 + n) % 2 ^ 32 < 2 ^ 63
    omega
  | @block bytes lt =>
    have hne := hcan.2 _ rfl
    refine ⟨bytes.take ((bytes.length + n) % 2 ^ 32), .dangling, ?_, fun hlt => ?_⟩
    · show realloc (.alloc bytes) ((bytes.length + n) % 2 ^ 32) = _
      rw [realloc, if_neg hne, if_pos (by omega)]
    · have hlt' : bytes.length + n < 2 ^ 32 := hlt
      rw [Nat.mod_eq_of_lt hlt', List.take_of_length_le (by omega : bytes.length ≤ bytes.length + n)]
      exact ⟨List.take_length, rfl⟩

theorem realloc_cannot (h : Holds chain b) (hcan : ¬CanExtend true chain n) :
    realloc b.chain ((b.length + n) % 2 ^ 32) = some (none, .dangling) := by
  cases h with
  | nothing => exact absurd ⟨rfl, fun k hk => (by cases hk)⟩ hcan
  | @block bytes lt =>
    have hzero : (bytes.length + n) % 2 ^ 32 = 0 := by
      by_contra hne
      exact hcan ⟨rfl, fun k hk => (by cases hk; exact hne)⟩
    show realloc (.alloc bytes) ((bytes.length + n) % 2 ^ 32) = _
    rw [hzero]
    rfl

theorem copyTouches_can (h : Holds chain b) (hn : n < 2 ^ 16) (hcan : CanExtend mem chain n) (m : Memory) (pos : ℕ) :
    copyTouches m b mem pos n = [.bytes m.extent pos n, .bytes ((b.length + n) % 2 ^ 32) b.length n] := by
  obtain ⟨bytes, p, hrealloc, -⟩ := realloc_can h hn hcan
  rw [copyTouches, hrealloc]
  exact if_pos hcan.1

theorem appendBlock_can (h : Holds chain b) {indata : List UInt8} (hn : indata.length < 2 ^ 16)
    (hcan : CanExtend mem chain indata.length) (hlt : b.length + indata.length < 2 ^ 32) :
    ∃ bytes p, appendBlock b mem indata = some (some bytes, p) ∧ bytes.length = b.length + indata.length := by
  obtain ⟨bytes, p, hrealloc, hbytes⟩ := realloc_can h hn hcan
  obtain ⟨htake, hlen⟩ := hbytes hlt
  refine ⟨bytes.take b.length ++ indata, p, ?_, ?_⟩
  · unfold appendBlock
    dsimp only
    rw [hrealloc]
    dsimp only
    rw [if_neg (by rw [hcan.1]; exact Bool.true_eq_false_eq_False), if_neg (by omega)]
  · rw [List.length_append, htake, hlen]

theorem append_cannot {chain : Option ℕ} {b : Block} (h : Holds chain b) {indata : List UInt8}
    (hcan : ¬CanExtend mem chain indata.length) (m : Memory) (pos : ℕ) :
    copyTouches m b mem pos indata.length = [] ∧ ∀ bytes p, appendBlock b mem indata ≠ some (some bytes, p) := by
  by_cases hroom : CanExtend true chain indata.length
  · have hmem : mem = false := Bool.eq_false_iff.mpr fun hm => hcan ⟨hm, hroom.2⟩
    subst hmem
    refine ⟨?_, fun bytes p happend => ?_⟩
    · unfold copyTouches
      split <;> rfl
    · unfold appendBlock at happend
      dsimp only at happend
      split at happend
      · cases happend
      · cases happend
      · cases happend
  · have hrealloc := realloc_cannot h hroom
    refine ⟨?_, fun bytes p happend => ?_⟩
    · rw [copyTouches, hrealloc]
    · unfold appendBlock at happend
      dsimp only at happend
      rw [hrealloc] at happend
      cases happend

end Fragments

/-! ### Texts -/

section Texts

variable {m : Memory} {mem : Bool}

theorem minus_of_le {left size : ℕ} (hlt : left < 2 ^ 32) (h : size ≤ left) : minus left size = left - size := by
  unfold minus
  omega

theorem forall_append {xs ys : List Touch} (hxs : ∀ t ∈ xs, t.Inside) (hys : ∀ t ∈ ys, t.Inside) :
    ∀ t ∈ xs ++ ys, t.Inside := fun t ht => (List.mem_append.mp ht).elim (hxs t) (hys t)

theorem copyTouches_inside {chain : Option ℕ} {b : Block} (h : Holds chain b) {pos n : ℕ} (hn : n < 2 ^ 16)
    (hfits : CanExtend mem chain n → pos + n ≤ m.extent ∧ b.length + n < 2 ^ 32) :
    ∀ t ∈ copyTouches m b mem pos n, t.Inside := by
  by_cases hcan : CanExtend mem chain n
  · obtain ⟨hextent, hlt⟩ := hfits hcan
    rw [copyTouches_can h hn hcan, Nat.mod_eq_of_lt hlt]
    intro t ht
    rcases List.mem_cons.mp ht with rfl | ht
    · exact hextent
    · rw [List.mem_singleton.mp ht]
      exact le_rfl
  · have hcannot := (@append_cannot mem _ _ h (m.window pos n) (by rwa [length_window]) m pos).1
    rw [length_window] at hcannot
    rw [hcannot]
    exact fun t ht => absurd ht List.not_mem_nil

/-- A fragment that the block takes is put behind the chain. -/
theorem append_window {chain : Option ℕ} {b : Block} (h : Holds chain b) {pos n : ℕ} (hn : n < 2 ^ 16)
    (hcan : CanExtend mem chain n) (hlt : chain.getD 0 + n < 2 ^ 32) :
    ∃ bytes p, appendBlock b mem (m.window pos n) = some (some bytes, p) ∧
      Holds (some (chain.getD 0 + n)) ⟨.alloc bytes, (b.length + n) % 2 ^ 32⟩ := by
  have hwindow := length_window m pos n
  obtain ⟨bytes, p, happend, hbytes⟩ :=
    appendBlock_can h (by rwa [hwindow]) (by rwa [hwindow]) (by rw [hwindow, h.length]; exact hlt)
  rw [hwindow, h.length] at hbytes
  refine ⟨bytes, p, happend, ?_⟩
  rw [h.length, Nat.mod_eq_of_lt hlt, ← hbytes]
  exact .block (by omega)

theorem ofAppend_ne_text (appended : Option (Option (List UInt8) × ChainPtr)) (ptr : TextPtr) (c : ℕ) :
    TextEnd.ofAppend appended ≠ .text ptr c := by
  unfold TextEnd.ofAppend
  split <;> exact fun h => (by cases h)

theorem header_inside {pos left k : ℕ} (hextent : pos + left ≤ m.extent) (hk : 3 + k ≤ left) :
    ∀ t ∈ headerTouches m pos left ++ [.takes (left - 3) k], t.Inside := by
  refine forall_append (headerTouches_inside hextent) fun t ht => ?_
  rw [List.mem_singleton.mp ht]
  show k ≤ left - 3
  omega

variable {mem : ℕ → Bool}

/-- **A text that does not overrun** is read inside the data, and where it is whole the loop goes on behind it. -/
theorem defragmentText_inside (rounds : ℕ) {chain : Option ℕ} {text : Block} {pos left consumed : ℕ}
    (hholds : Holds chain text) (hsum : chain.getD 0 + left < 2 ^ 32) (hextent : pos + left ≤ m.extent)
    (hconsumed : consumed + left < 2 ^ 32) (hfits : ¬TextOverruns mem chain (m.window pos left)) :
    (∀ t ∈ (defragmentText m mem rounds text pos left consumed).1, t.Inside) ∧
    ∀ ptr c, (defragmentText m mem rounds text pos left consumed).2 = .text ptr c → (ptr.touch m).Inside ∧
      ∃ k ≤ left, c = consumed + k ∧ TextEnds mem chain (m.window pos left) (m.window (pos + k) (left - k)) := by
  induction rounds generalizing chain text pos left consumed with
  | zero => exact ⟨fun t ht => absurd ht List.not_mem_nil, fun _ _ h => (by cases h)⟩
  | succ rounds ih =>
    cases hheader : headerAt m pos left with
    | none =>
      rw [defragmentText, hheader]
      exact ⟨headerTouches_inside hextent, fun _ _ h => (by cases h)⟩
    | some r =>
      obtain ⟨tag, n, k⟩ := r
      obtain ⟨hk, -, hn⟩ := headerAt_size hheader
      have hfragment := fragmentHeader_of hheader
      have hlen := length_window m (pos + 3 + k) (left - 3 - k)
      have hheaderInside := header_inside hextent hk
      have hlength := hholds.length
      have hwindow := length_window m (pos + 3 + k) n
      -- what the block takes lies in the data: else the text would overrun
      have hcopy : tag = tagTextLast ∨ tag = tagTextMore → CanExtend (mem left) chain n → n ≤ left - 3 - k := by
        intro htag hcan
        by_contra hpast
        rw [← length_window m pos left] at hcan
        rcases htag with rfl | rfl
        · exact hfits (.last hfragment (by omega) (.inr hcan))
        · exact hfits (.more hfragment (by omega) hcan)
      rw [defragmentText, hheader]
      dsimp only
      by_cases hlast : tag = tagTextLast
      · rw [if_pos hlast]
        subst hlast
        by_cases hnull : text.chain = .null
        · rw [if_pos hnull]
          have hchain := hholds.null_iff.mp hnull
          have hle : n ≤ left - 3 - k := by
            by_contra hpast
            exact hfits (.last hfragment (by omega) (.inl hchain))
          refine ⟨hheaderInside, fun ptr c hend => ?_⟩
          cases hend
          refine ⟨?_, 3 + k + n, by omega, by omega, ?_⟩
          · show pos + 3 + k + n ≤ m.extent
            omega
          · have hends := TextEnds.last hfragment (by omega) (.inl hchain : chain = none ∨ CanExtend (mem (m.window pos left).length) chain n)
            rw [drop_window] at hends
            convert hends using 2 <;> omega
        · rw [if_neg hnull]
          have hall := forall_append hheaderInside (@copyTouches_inside m (mem left) _ _ hholds (pos + 3 + k) n hn fun hcan => by
            have := hcopy (.inl rfl) hcan
            omega)
          split
          · rename_i bytes p happend
            refine ⟨hall, fun ptr c hend => ?_⟩
            cases hend
            have hcan : CanExtend (mem left) chain n := by
              by_contra hcannot
              exact (append_cannot hholds (by rwa [hwindow]) m 0).2 _ _ happend
            have hle := hcopy (.inl rfl) hcan
            refine ⟨?_, 3 + k + n, by omega, by omega, ?_⟩
            · show 0 + bytes.length ≤ bytes.length
              omega
            · have hroom : CanExtend (mem (m.window pos left).length) chain n := by rwa [length_window]
              have hends := TextEnds.last hfragment (by omega) (.inr hroom)
              rw [drop_window] at hends
              convert hends using 2 <;> omega
          · exact ⟨hall, fun ptr c hend => absurd hend (ofAppend_ne_text _ _ _)⟩
      · rw [if_neg hlast]
        by_cases hmore : tag = tagTextMore
        · rw [if_pos hmore]
          subst hmore
          have hall := forall_append hheaderInside (@copyTouches_inside m (mem left) _ _ hholds (pos + 3 + k) n hn fun hcan => by
            have := hcopy (.inr rfl) hcan
            omega)
          split
          · rename_i bytes p happend
            have hcan : CanExtend (mem left) chain n := by
              by_contra hcannot
              exact (append_cannot hholds (by rwa [hwindow]) m 0).2 _ _ happend
            have hle := hcopy (.inr rfl) hcan
            obtain ⟨bytes', p', happend', hnext⟩ := @append_window m (mem left) _ _ hholds (pos + 3 + k) n hn hcan (by omega)
            rw [happend'] at happend
            cases happend
            have hroom : CanExtend (mem (m.window pos left).length) chain n := by rwa [length_window]
            rw [minus_of_le (by omega) hle, Nat.mod_eq_of_lt (by omega : consumed + 3 + k + n < 2 ^ 32)]
            have hdrop := drop_window m (pos + 3 + k) (left - 3 - k) n
            obtain ⟨hinside, hends⟩ := @ih _ _ (pos + 3 + k + n) (left - 3 - k - n) (consumed + 3 + k + n) hnext
              (by show chain.getD 0 + n + (left - 3 - k - n) < 2 ^ 32; omega) (by omega) (by omega) fun hover => by
                rw [← hdrop] at hover
                exact hfits (.behind hfragment (by omega) hroom hover)
            refine ⟨forall_append hall fun t ht => ?_, fun ptr c hend => ?_⟩
            · rcases List.mem_cons.mp ht with rfl | ht
              · exact hle
              · exact hinside t ht
            · obtain ⟨hptr, j, hj, hc, htext⟩ := hends ptr c hend
              rw [← hdrop] at htext
              refine ⟨hptr, 3 + k + n + j, by omega, by omega, ?_⟩
              have hmoved := TextEnds.more hfragment (by omega) hroom htext
              convert hmoved using 2 <;> omega
          · exact ⟨hall, fun ptr c hend => absurd hend (ofAppend_ne_text _ _ _)⟩
        · rw [if_neg hmore]
          exact ⟨hheaderInside, fun _ _ h => (by cases h)⟩

theorem tagTextMore_ne : ¬tagTextMore = tagTextLast := by decide

/-- **A whole text** is read in as many rounds as it has bytes, or fewer. -/
theorem defragmentText_ends {chain : Option ℕ} {data behind : List UInt8} (h : TextEnds mem chain data behind)
    {text : Block} {pos left consumed rounds : ℕ} (hdata : data = m.window pos left) (hholds : Holds chain text)
    (hsum : chain.getD 0 + left < 2 ^ 32) (hconsumed : consumed + left < 2 ^ 32) (hrounds : left < rounds) :
    ∃ k ≤ left, behind = m.window (pos + k) (left - k) ∧
      ∃ ptr, (defragmentText m mem rounds text pos left consumed).2 = .text ptr (consumed + k) := by
  induction h generalizing text pos left consumed rounds with
  | @last chain data body n header fits room =>
    subst hdata
    obtain ⟨k, hheader, rfl⟩ := headerAt_of header
    obtain ⟨hk, -, hn⟩ := headerAt_size hheader
    rw [length_window] at fits room
    obtain ⟨rounds, rfl⟩ : ∃ r, rounds = r + 1 := ⟨rounds - 1, by omega⟩
    refine ⟨3 + k + n, by omega, ?_, ?_⟩
    · rw [drop_window]
      congr 1 <;> omega
    · rw [defragmentText, hheader]
      dsimp only
      rw [if_pos rfl, Nat.mod_eq_of_lt (by omega : consumed + 3 + k + n < 2 ^ 32),
        (by omega : consumed + 3 + k + n = consumed + (3 + k + n))]
      by_cases hnull : text.chain = .null
      · rw [if_pos hnull]
        exact ⟨_, rfl⟩
      · rw [if_neg hnull]
        have hcan : CanExtend (mem left) chain n := room.resolve_left fun hnone => hnull (hholds.null_iff.mpr hnone)
        obtain ⟨bytes, p, happend, -⟩ := @append_window m (mem left) _ _ hholds (pos + 3 + k) n hn hcan (by omega)
        rw [happend]
        exact ⟨_, rfl⟩
  | @more chain data body behind n header fits room rest ih =>
    subst hdata
    obtain ⟨k, hheader, rfl⟩ := headerAt_of header
    obtain ⟨hk, -, hn⟩ := headerAt_size hheader
    rw [length_window] at fits room
    obtain ⟨rounds, rfl⟩ : ∃ r, rounds = r + 1 := ⟨rounds - 1, by omega⟩
    obtain ⟨bytes, p, happend, hnext⟩ := @append_window m (mem left) _ _ hholds (pos + 3 + k) n hn room (by omega)
    obtain ⟨j, hj, hbehind, ptr, hend⟩ := @ih _ (pos + 3 + k + n) (left - 3 - k - n) (consumed + 3 + k + n) rounds
      (drop_window m (pos + 3 + k) (left - 3 - k) n) hnext
      (by show chain.getD 0 + n + (left - 3 - k - n) < 2 ^ 32; omega) (by omega) (by omega)
    refine ⟨3 + k + n + j, by omega, ?_, ptr, ?_⟩
    · rw [hbehind]
      congr 1 <;> omega
    · rw [defragmentText, hheader]
      dsimp only
      rw [if_neg tagTextMore_ne, if_pos rfl, happend]
      dsimp only
      rw [minus_of_le (by omega) fits, Nat.mod_eq_of_lt (by omega : consumed + 3 + k + n < 2 ^ 32), hend]
      congr 1
      omega

theorem copyTouches_outside {mem : Bool} {chain : Option ℕ} {b : Block} (h : Holds chain b) {pos n : ℕ} (hn : n < 2 ^ 16)
    (hcan : CanExtend mem chain n) (hpast : m.extent < pos + n) : ∃ t ∈ copyTouches m b mem pos n, ¬t.Inside := by
  rw [copyTouches_can h hn hcan]
  exact ⟨_, List.mem_cons_self, not_le.mpr hpast⟩

/-- **A text that overruns** leaves the data, or takes more off their length than there is. -/
theorem defragmentText_overruns {chain : Option ℕ} {data : List UInt8} (h : TextOverruns mem chain data)
    {text : Block} {pos left consumed rounds : ℕ} (hdata : data = m.window pos left) (hholds : Holds chain text)
    (hchain : chain.getD 0 ≤ consumed) (hnone : chain = none → consumed = 0) (hconsumed : consumed + left < 2 ^ 32)
    (hend : m.extent = pos + left ∨ consumed + left < 2 ^ 16) (hrounds : left < rounds) :
    (∃ t ∈ (defragmentText m mem rounds text pos left consumed).1, ¬t.Inside) ∨
    ∃ ptr c, (defragmentText m mem rounds text pos left consumed).2 = .text ptr c ∧ consumed + left < c := by
  induction h generalizing text pos left consumed rounds with
  | @last chain data body n header past room =>
    subst hdata
    have hlength := hholds.length
    obtain ⟨rounds, rfl⟩ : ∃ r, rounds = r + 1 := ⟨rounds - 1, by omega⟩
    obtain ⟨k, hheader, rfl⟩ := headerAt_of header
    obtain ⟨hk, hthree, hn⟩ := headerAt_size hheader
    rw [length_window] at past room
    rw [defragmentText, hheader]
    dsimp only
    rw [if_pos rfl]
    by_cases hnull : text.chain = .null
    · have hzero := hnone (hholds.null_iff.mp hnull)
      rw [if_pos hnull, Nat.mod_eq_of_lt (by omega)]
      exact .inr ⟨_, _, rfl, by omega⟩
    · have hcan : CanExtend (mem left) chain n := room.resolve_left fun hnone => hnull (hholds.null_iff.mpr hnone)
      rw [if_neg hnull]
      rcases hend with hextent | hsmall
      · left
        obtain ⟨t, ht, houtside⟩ := @copyTouches_outside m (mem left) _ _ hholds (pos + 3 + k) n hn hcan (by omega)
        split <;> exact ⟨t, List.mem_append_right _ ht, houtside⟩
      · right
        obtain ⟨bytes, p, happend, -⟩ := @append_window m (mem left) _ _ hholds (pos + 3 + k) n hn hcan (by omega)
        rw [happend, Nat.mod_eq_of_lt (by omega)]
        exact ⟨_, _, rfl, by omega⟩
  | @more chain data body n header past room =>
    subst hdata
    have hlength := hholds.length
    obtain ⟨rounds, rfl⟩ : ∃ r, rounds = r + 1 := ⟨rounds - 1, by omega⟩
    obtain ⟨k, hheader, rfl⟩ := headerAt_of header
    obtain ⟨hk, hthree, hn⟩ := headerAt_size hheader
    rw [length_window] at past room
    rw [defragmentText, hheader]
    dsimp only
    rw [if_neg tagTextMore_ne, if_pos rfl]
    left
    rcases hend with hextent | hsmall
    · obtain ⟨t, ht, houtside⟩ := @copyTouches_outside m (mem left) _ _ hholds (pos + 3 + k) n hn room (by omega)
      split
      · exact ⟨t, List.mem_append_left _ (List.mem_append_right _ ht), houtside⟩
      · exact ⟨t, List.mem_append_right _ ht, houtside⟩
    · obtain ⟨bytes, p, happend, -⟩ := @append_window m (mem left) _ _ hholds (pos + 3 + k) n hn room (by omega)
      rw [happend]
      exact ⟨_, List.mem_append_right _ List.mem_cons_self, not_le.mpr past⟩
  | @behind chain data body n header fits room rest ih =>
    subst hdata
    have hlength := hholds.length
    obtain ⟨rounds, rfl⟩ : ∃ r, rounds = r + 1 := ⟨rounds - 1, by omega⟩
    obtain ⟨k, hheader, rfl⟩ := headerAt_of header
    obtain ⟨hk, hthree, hn⟩ := headerAt_size hheader
    rw [length_window] at fits room
    obtain ⟨bytes, p, happend, hnext⟩ := @append_window m (mem left) _ _ hholds (pos + 3 + k) n hn room (by omega)
    have hih := @ih _ (pos + 3 + k + n) (left - 3 - k - n) (consumed + 3 + k + n) rounds
      (drop_window m (pos + 3 + k) (left - 3 - k) n) hnext (by show chain.getD 0 + n ≤ _; omega)
      (fun hno => (by cases hno)) (by omega) (by omega) (by omega)
    rw [defragmentText, hheader]
    dsimp only
    rw [if_neg tagTextMore_ne, if_pos rfl, happend]
    dsimp only
    rw [minus_of_le (by omega) fits, Nat.mod_eq_of_lt (by omega : consumed + 3 + k + n < 2 ^ 32)]
    rcases hih with ⟨t, ht, houtside⟩ | ⟨ptr, c, hc, hlt⟩
    · exact .inl ⟨t, List.mem_append_right _ (List.mem_cons_of_mem _ ht), houtside⟩
    · exact .inr ⟨ptr, c, hc, by omega⟩

/-- **Texts none of which overruns** are read inside the data. -/
theorem readTexts_inside (rounds : ℕ) {n pos left : ℕ} (hextent : pos + left ≤ m.extent) (hlt : left < 2 ^ 32)
    (hfits : ¬TextsOverrun mem n (m.window pos left)) :
    (∀ t ∈ (readTexts m mem rounds n pos left).1, t.Inside) ∧
    ∀ texts pos' left', (readTexts m mem rounds n pos left).2 = some (texts, pos', left') →
      texts.length = n ∧ (∀ ptr ∈ texts, (ptr.touch m).Inside) ∧ pos' + left' ≤ m.extent ∧
      TextsEnd mem n (m.window pos left) := by
  induction n generalizing pos left with
  | zero =>
    refine ⟨fun t ht => absurd ht List.not_mem_nil, fun texts pos' left' h => ?_⟩
    cases h
    exact ⟨rfl, fun ptr hptr => absurd hptr List.not_mem_nil, hextent, .nil⟩
  | succ n ih =>
    obtain ⟨hfirst, hends⟩ := @defragmentText_inside m mem rounds none .empty pos left 0 .nothing
      (by show 0 + left < 2 ^ 32; omega) hextent (by omega) fun hover => hfits (.here hover)
    rw [readTexts]
    dsimp only
    split
    · rename_i ptr consumed htext
      obtain ⟨hptr, k, hk, rfl, hend⟩ := hends ptr consumed htext
      rw [Nat.zero_add, minus_of_le hlt hk]
      obtain ⟨hothers, hrest⟩ := @ih (pos + k) (left - k) (by omega) (by omega) fun hover => hfits (.behind hend hover)
      refine ⟨forall_append hfirst fun t ht => ?_, fun texts pos' left' h => ?_⟩
      · rcases List.mem_cons.mp ht with rfl | ht
        · exact hk
        · exact hothers t ht
      · obtain ⟨⟨texts', pos'', left''⟩, hread, heq⟩ := Option.map_eq_some_iff.mp h
        cases heq
        obtain ⟨hlen, hall, hinside, htexts⟩ := hrest _ _ _ hread
        exact ⟨congrArg (· + 1) hlen, List.forall_mem_cons.mpr ⟨hptr, hall⟩, hinside, .cons hend htexts⟩
    · exact ⟨hfirst, fun _ _ _ h => (by cases h)⟩

theorem readTexts_ends {n : ℕ} {data : List UInt8} (h : TextsEnd mem n data) {pos left rounds : ℕ}
    (hdata : data = m.window pos left) (hlt : left < 2 ^ 32) (hrounds : left < rounds) :
    ∃ texts pos' left', (readTexts m mem rounds n pos left).2 = some (texts, pos', left') ∧ texts.length = n := by
  induction h generalizing pos left with
  | nil => exact ⟨_, _, _, rfl, rfl⟩
  | cons first rest ih =>
    obtain ⟨k, hk, hbehind, ptr, hend⟩ := @defragmentText_ends m mem _ _ _ first .empty pos left 0 rounds hdata .nothing
      (by show 0 + left < 2 ^ 32; omega) (by omega) hrounds
    obtain ⟨texts, pos', left', hread, hlen⟩ := ih hbehind (by omega) (by omega)
    refine ⟨ptr :: texts, pos', left', ?_, congrArg (· + 1) hlen⟩
    rw [readTexts, hend]
    dsimp only
    rw [Nat.zero_add, minus_of_le hlt hk, hread]
    rfl

/-- **A text that overruns** behind whole ones is reached. -/
theorem readTexts_overruns {n : ℕ} {data : List UInt8} (h : TextsOverrun mem n data) {pos left rounds : ℕ}
    (hdata : data = m.window pos left) (hlt : left < 2 ^ 32) (hend : m.extent = pos + left ∨ left < 2 ^ 16)
    (hrounds : left < rounds) : ∃ t ∈ (readTexts m mem rounds n pos left).1, ¬t.Inside := by
  induction h generalizing pos left with
  | here first =>
    rw [readTexts]
    dsimp only
    rcases @defragmentText_overruns m mem _ _ first .empty pos left 0 rounds hdata .nothing le_rfl (fun _ => rfl)
      (by omega) (by omega) hrounds with ⟨t, ht, houtside⟩ | ⟨ptr, c, hc, hmore⟩
    · split
      · exact ⟨t, List.mem_append_left _ ht, houtside⟩
      · exact ⟨t, ht, houtside⟩
    · rw [hc]
      refine ⟨_, List.mem_append_right _ List.mem_cons_self, not_le.mpr ?_⟩
      omega
  | behind first rest ih =>
    obtain ⟨k, hk, hbehind, ptr, hc⟩ := @defragmentText_ends m mem _ _ _ first .empty pos left 0 rounds hdata .nothing
      (by show 0 + left < 2 ^ 32; omega) (by omega) hrounds
    obtain ⟨t, ht, houtside⟩ := @ih (pos + k) (left - k) hbehind (by omega) (by omega) (by omega)
    rw [readTexts, hc]
    dsimp only
    rw [Nat.zero_add, minus_of_le hlt hk]
    exact ⟨t, List.mem_append_right _ (List.mem_cons_of_mem _ ht), houtside⟩

/-- **Menus**: the touches stay inside exactly if no text overruns, and no texts are handed out that were not read. -/
theorem menuTouches_iff (callback : Bool) {pos left : ℕ} (hextent : pos + left ≤ m.extent) (hlt : left < 2 ^ 32)
    (hend : m.extent = pos + left ∨ left < 2 ^ 16) :
    (∀ rounds, ∀ t ∈ menuTouches m mem callback rounds pos left, t.Inside) ↔
      ¬MenuOverruns mem callback (m.window pos left) := by
  cases left with
  | zero =>
    refine iff_of_true (fun rounds t ht => absurd ht List.not_mem_nil) fun hover => ?_
    obtain ⟨choiceNb, texts, hobject, -⟩ := hover
    cases hobject
  | succ left =>
    constructor
    · intro hall hover
      have hrounds := hall (left + 1)
      obtain ⟨choiceNb, texts, hobject, hover⟩ := hover
      rw [window_succ] at hobject
      cases hobject
      rw [menuTouches, if_neg (by omega : ¬left + 1 < 1), Nat.add_sub_cancel] at hrounds
      dsimp only at hrounds
      rcases hover with hover | ⟨hfew, rfl, hends⟩
      · obtain ⟨t, ht, houtside⟩ :=
          @readTexts_overruns m mem _ _ hover (pos + 1) left (left + 1) rfl (by omega) (by omega) (by omega)
        exact houtside (hrounds t (List.mem_cons_of_mem _ (List.mem_append_left _ ht)))
      · obtain ⟨texts, pos', left', hread, hlen⟩ :=
          @readTexts_ends m mem _ _ hends (pos + 1) left (left + 1) rfl (by omega) (by omega)
        rw [hread] at hrounds
        dsimp only at hrounds
        rw [if_pos rfl, menuHands, if_pos (by rwa [hlen])] at hrounds
        refine hrounds .wild (List.mem_cons_of_mem _ (List.mem_append_right _ ?_))
        exact List.mem_append_left _ (List.mem_append_right _ (List.mem_singleton_self _))
    · intro hfits rounds
      obtain ⟨htouches, hread⟩ := @readTexts_inside m mem rounds (textCount (m.byte pos)).toNat (pos + 1) left (by omega)
        (by omega) fun hover => hfits ⟨m.byte pos, _, window_succ m pos left, .inl hover⟩
      rw [menuTouches, if_neg (by omega : ¬left + 1 < 1), Nat.add_sub_cancel]
      refine List.forall_mem_cons.mpr ⟨(by omega : pos + 1 ≤ m.extent), forall_append htouches ?_⟩
      split
      · rename_i texts pos' left' hsome
        obtain ⟨hlen, hptrs, hinside, hends⟩ := hread _ _ _ hsome
        by_cases hcallback : callback = true
        · have hmany : ¬texts.length < 3 := fun hfew =>
            hfits ⟨m.byte pos, _, window_succ m pos left, .inr ⟨by rwa [hlen] at hfew, hcallback, hends⟩⟩
          rw [if_pos hcallback, menuHands, if_neg hmany, List.append_nil]
          refine forall_append (List.forall_mem_map.mpr hptrs) fun t ht => ?_
          split at ht
          · rw [List.mem_singleton.mp ht]
            exact hinside
          · exact absurd ht List.not_mem_nil
        · rw [if_neg hcallback]
          exact fun t ht => absurd ht List.not_mem_nil
      · exact fun t ht => absurd ht List.not_mem_nil

end Texts

/-! ### Menu messages -/

section Messages

variable {m : Memory} {mem : Bool}

theorem copyTouches_iff {b : Block} {pos n : ℕ} (hextent : pos + n ≤ m.extent) :
    (∀ t ∈ copyTouches m b mem pos n, t.Inside) ↔ CopyFits b mem n := by
  unfold copyTouches CopyFits
  cases hrealloc : realloc b.chain ((b.length + n) % 2 ^ 32) with
  | none => exact iff_of_true (fun t ht => absurd ht List.not_mem_nil) fun _ _ h => (by cases h)
  | some r =>
    obtain ⟨bytes, p⟩ := r
    cases bytes with
    | none => exact iff_of_true (fun t ht => absurd ht List.not_mem_nil) fun _ _ h => (by cases h)
    | some bytes =>
      dsimp only
      cases mem with
      | false =>
        rw [if_neg Bool.false_ne_true]
        exact iff_of_true (fun t ht => absurd ht List.not_mem_nil) fun _ _ _ h => (by cases h)
      | true =>
        rw [if_pos rfl, List.forall_mem_cons, List.forall_mem_singleton]
        constructor
        · intro h bytes' p' _ _
          have hwrite : b.length + n ≤ (b.length + n) % 2 ^ 32 := h.2
          omega
        · intro h
          have hlt := h _ _ rfl rfl
          refine ⟨hextent, ?_⟩
          show b.length + n ≤ (b.length + n) % 2 ^ 32
          omega

theorem length_appendBlock {b : Block} {indata bytes : List UInt8} {p : ChainPtr}
    (h : appendBlock b mem indata = some (some bytes, p)) : bytes.length < 2 ^ 32 := by
  unfold appendBlock at h
  dsimp only at h
  split at h
  · cases h
  · cases h
  · rename_i old q _
    split at h
    · cases h
    · split at h
      · cases h
      · rename_i hsize
        cases h
        rw [List.length_append]
        have htake := List.length_take_le b.length old
        omega

theorem receiveObject_complete {mmi mmi' : Mmi} {number : UInt16} {kind : ObjectKind} {last : Bool} {w : MmiMemory}
    {data indata object : List UInt8} {status : ℤ} (hdata : objectData data = some indata)
    (h : receiveObject mmi number kind last w data = some (status, mmi', some object)) :
    (status = 1 ∧ object = indata) ∨ (status = 2 ∧ object.length < 2 ^ 32) := by
  unfold receiveObject at h
  rw [hdata] at h
  dsimp only at h
  split at h
  · cases h
  · unfold mmiDefragment at h
    dsimp only at h
    split at h
    · split at h
      · cases h
      · split at h
        · cases h
        · cases h
        · cases h
    · split at h
      · cases h
        exact .inl ⟨rfl, rfl⟩
      · split at h
        · cases h
        · cases h
        · rename_i happend
          cases h
          exact .inr ⟨rfl, length_appendBlock happend⟩

theorem objectData_of {data : List UInt8} {n k : ℕ} (h : asn1Decode data = some (n, k)) :
    objectData data = if n > data.length - k then none else some ((data.drop k).take n) := by
  unfold objectData
  rw [h]

/-- **A menu or a list that arrives.** -/
theorem parseListMenuTouches_iff (w : World) (mmi : Mmi) (number : UInt16) (kind : ObjectKind) (last : Bool)
    (b₀ b₁ b₂ : UInt8) (data : List UInt8) :
    (∀ rounds, ∀ t ∈ parseListMenuTouches (.of (b₀ :: b₁ :: b₂ :: data) w.behind) w mmi number kind last rounds data,
      t.Inside) ↔
    ∀ indata, objectData data = some indata → mmi.locked = false →
      (∀ b, blockOf mmi number kind last w.mem = some b → CopyFits b w.mem.block indata.length) ∧
      ∀ status mmi' object, receiveObject mmi number kind last w.mem data = some (status, mmi', some object) →
        ¬MenuOverruns w.texts (mmi.hasCallback kind) object := by
  have hextent : (Memory.of (b₀ :: b₁ :: b₂ :: data) w.behind).extent = data.length + 3 := rfl
  have hasn := @asn1Touch_inside (.of (b₀ :: b₁ :: b₂ :: data) w.behind) 3 data.length (by omega)
  unfold parseListMenuTouches
  cases hdecode : asn1Decode data with
  | none =>
    refine iff_of_true (fun _ => List.forall_mem_cons.mpr ⟨hasn, fun t ht => absurd ht List.not_mem_nil⟩) fun indata h => ?_
    rw [objectData, hdecode] at h
    cases h
  | some r =>
    obtain ⟨n, k⟩ := r
    obtain ⟨-, -, hk⟩ := asn1Decode_size hdecode
    have hn := asn1Decode_lt hdecode
    dsimp only
    by_cases hrefused : n > data.length - k ∨ mmi.locked = true
    · refine iff_of_true (fun _ => ?_) fun indata h hfree => ?_
      · rw [if_pos hrefused]
        exact List.forall_mem_cons.mpr ⟨hasn, fun t ht => absurd ht List.not_mem_nil⟩
      · rcases hrefused with hlong | hlocked
        · rw [objectData_of hdecode, if_pos hlong] at h
          cases h
        · rw [hfree] at hlocked
          cases hlocked
    · obtain ⟨hlong, hlocked⟩ := not_or.mp hrefused
      have hfree : mmi.locked = false := Bool.eq_false_iff.mpr hlocked
      have hdata := objectData_of hdecode
      rw [if_neg hlong] at hdata
      have hlen : ((data.drop k).take n).length = n := by
        rw [List.length_take, List.length_drop]
        omega
      have hcopy : (∀ t ∈ (match blockOf mmi number kind last w.mem with
          | some b => copyTouches (.of (b₀ :: b₁ :: b₂ :: data) w.behind) b w.mem.block (3 + k) n
          | none => []), t.Inside) ↔ ∀ b, blockOf mmi number kind last w.mem = some b → CopyFits b w.mem.block n := by
        cases blockOf mmi number kind last w.mem with
        | none => exact iff_of_true (fun t ht => absurd ht List.not_mem_nil) fun b h => (by cases h)
        | some b =>
          refine (copyTouches_iff (by omega)).trans ⟨fun h b' hb' => ?_, fun h => h b rfl⟩
          cases hb'
          exact h
      have hmenu : (∀ rounds, ∀ t ∈ (match receiveObject mmi number kind last w.mem data with
          | some (1, _, some outdata) => menuTouches (.of (b₀ :: b₁ :: b₂ :: data) w.behind) w.texts
            (mmi.hasCallback kind) rounds (3 + k) outdata.length
          | some (2, _, some outdata) =>
            menuTouches (.of outdata w.heap) w.texts (mmi.hasCallback kind) rounds 0 outdata.length
          | _ => []), t.Inside) ↔
          ∀ status mmi' object, receiveObject mmi number kind last w.mem data = some (status, mmi', some object) →
            ¬MenuOverruns w.texts (mmi.hasCallback kind) object := by
        cases hreceive : receiveObject mmi number kind last w.mem data with
        | none => exact iff_of_true (fun _ t ht => absurd ht List.not_mem_nil) fun _ _ _ h => (by cases h)
        | some r =>
          obtain ⟨status, mmi', object⟩ := r
          cases object with
          | none =>
            refine iff_of_true (fun rounds t ht => ?_) fun _ _ _ h => (by cases h)
            split at ht
            · rename_i h
              cases h
            · rename_i h
              cases h
            · exact absurd ht List.not_mem_nil
          | some object =>
            have hobject : (∀ status' mmi'' object', some (status, mmi', some object) = some (status', mmi'', some object') →
                ¬MenuOverruns w.texts (mmi.hasCallback kind) object') ↔
                ¬MenuOverruns w.texts (mmi.hasCallback kind) object := by
              refine ⟨fun h => h _ _ _ rfl, fun h _ _ _ heq => ?_⟩
              cases heq
              exact h
            rw [hobject]
            rcases receiveObject_complete hdata hreceive with ⟨rfl, rfl⟩ | ⟨rfl, hlt⟩
            · have hwindow : (Memory.of (b₀ :: b₁ :: b₂ :: data) w.behind).window (3 + k) ((data.drop k).take n).length =
                  (data.drop k).take n := by
                rw [hlen, window_of w.behind (by simp only [List.length_cons]; omega), Nat.add_comm]
                rfl
              have hiff := @menuTouches_iff (.of (b₀ :: b₁ :: b₂ :: data) w.behind) w.texts (mmi.hasCallback kind)
                (3 + k) ((data.drop k).take n).length (by omega) (by omega) (.inr (by omega))
              rw [hwindow] at hiff
              exact hiff
            · have hwindow : (Memory.of object w.heap).window 0 object.length = object := by
                rw [window_of w.heap (by omega), List.drop_zero, List.take_length]
              have hiff := @menuTouches_iff (.of object w.heap) w.texts (mmi.hasCallback kind)
                0 object.length (Nat.zero_add _).le hlt (.inl (Nat.zero_add _).symm)
              rw [hwindow] at hiff
              exact hiff
      constructor
      · intro h indata hindata _
        rw [hdata] at hindata
        cases hindata
        rw [hlen]
        refine ⟨hcopy.mp fun t ht => ?_, hmenu.mp fun rounds t ht => ?_⟩
        · have hround := h 0
          rw [if_neg hrefused] at hround
          exact hround t (List.mem_cons_of_mem _ (List.mem_append_left _ ht))
        · have hround := h rounds
          rw [if_neg hrefused] at hround
          exact hround t (List.mem_cons_of_mem _ (List.mem_append_right _ ht))
      · intro h rounds
        obtain ⟨hfits, hcomplete⟩ := h _ hdata hfree
        rw [hlen] at hfits
        rw [if_neg hrefused]
        exact List.forall_mem_cons.mpr ⟨hasn, forall_append (hcopy.mpr hfits) (hmenu.mpr hcomplete rounds)⟩

end Messages

/-! ### Reply messages -/

section Replies

variable {m : Memory}

theorem swapTouches_iff {data asnDataLength fuel pos : ℕ} (hfuel : asnDataLength - pos ≤ fuel) :
    (∀ t ∈ swapTouches m data asnDataLength fuel pos, t.Inside) ↔
      (pos < asnDataLength → data + (pos + 3 * ((asnDataLength - pos + 2) / 3)) ≤ m.extent + 1) := by
  induction fuel generalizing pos with
  | zero =>
    refine iff_of_true (fun t ht => absurd ht List.not_mem_nil) fun hlt => ?_
    omega
  | succ fuel ih =>
    rw [swapTouches]
    by_cases hlt : pos < asnDataLength
    · rw [if_pos hlt, List.forall_mem_cons, ih (by omega)]
      have hhere : Touch.Inside (.bytes m.extent (data + pos) 2) ↔ data + pos + 2 ≤ m.extent := Iff.rfl
      rw [hhere]
      omega
    · rw [if_neg hlt]
      exact iff_of_true (fun t ht => absurd ht List.not_mem_nil) fun h => absurd h hlt

theorem pmtReplyStreams_iff {data replySize fuel pos : ℕ} (hfuel : replySize - pos ≤ fuel) (hlt : pos < replySize) :
    (∀ i ∈ pmtReplyStreams replySize fuel (some pos), Touch.Inside (.hands m.extent (data + i) 3)) ↔
      data + (pos + 3 * ((replySize - pos + 2) / 3)) ≤ m.extent := by
  induction fuel generalizing pos with
  | zero => omega
  | succ fuel ih =>
    have hhere : Touch.Inside (.hands m.extent (data + pos) 3) ↔ data + pos + 3 ≤ m.extent := Iff.rfl
    rw [pmtReplyStreams, List.forall_mem_cons, hhere, pmtReplyStreamsNext]
    by_cases hend : pos + 3 ≥ replySize
    · have hnil : pmtReplyStreams replySize fuel none = [] := by cases fuel <;> rfl
      rw [if_pos hend, hnil]
      have hnone : (∀ i ∈ ([] : List ℕ), Touch.Inside (.hands m.extent (data + i) 3)) ↔ True :=
        iff_of_true (fun i hi => absurd hi List.not_mem_nil) trivial
      rw [hnone, and_true]
      omega
    · rw [if_neg hend, ih (by omega) (by omega)]
      omega

theorem streams_iff {data asnDataLength : ℕ} (hfour : 4 ≤ asnDataLength) (hle : data + asnDataLength ≤ m.extent) :
    (∀ i ∈ pmtReplyStreams asnDataLength asnDataLength (pmtReplyStreamsFirst asnDataLength),
      Touch.Inside (.hands m.extent (data + i) 3)) ↔ data + (4 + 3 * ((asnDataLength - 2) / 3)) ≤ m.extent := by
  rw [pmtReplyStreamsFirst]
  by_cases hnone : 4 ≥ asnDataLength
  · have hnil : pmtReplyStreams asnDataLength asnDataLength none = [] := by cases asnDataLength <;> rfl
    rw [if_pos hnone, hnil]
    exact iff_of_true (fun i hi => absurd hi List.not_mem_nil) (by omega)
  · rw [if_neg hnone, pmtReplyStreams_iff (by omega) (by omega)]
    omega

/-- **A reply that arrives.** -/
theorem parseReplyTouches_iff (callback : Bool) (behind : ℕ → UInt8) (b₀ b₁ b₂ : UInt8) (data : List UInt8) :
    (∀ t ∈ parseReplyTouches (.of (b₀ :: b₁ :: b₂ :: data) behind) callback 3 data.length, t.Inside) ↔
    ∀ asnDataLength lengthFieldLen, asn1Decode data = some (asnDataLength, lengthFieldLen) → 4 ≤ asnDataLength →
      asnDataLength ≤ data.length - lengthFieldLen →
      4 + 3 * ((asnDataLength - 2) / 3) ≤ data.length - lengthFieldLen + (if callback then 0 else 1) := by
  have hextent : (Memory.of (b₀ :: b₁ :: b₂ :: data) behind).extent = data.length + 3 := rfl
  have hasn := @asn1Touch_inside (.of (b₀ :: b₁ :: b₂ :: data) behind) 3 data.length (by omega)
  have hwindow : (Memory.of (b₀ :: b₁ :: b₂ :: data) behind).window 3 data.length = data := by
    rw [window_of behind (by simp only [List.length_cons]; omega)]
    exact List.take_length
  rw [parseReplyTouches, asn1At_eq, hwindow, List.forall_mem_cons]
  cases hdecode : asn1Decode data with
  | none => exact iff_of_true ⟨hasn, fun t ht => absurd ht List.not_mem_nil⟩ fun _ _ h => (by cases h)
  | some r =>
    obtain ⟨n, k⟩ := r
    obtain ⟨-, -, hk⟩ := asn1Decode_size hdecode
    have hiff : (∀ n' k', some (n, k) = some (n', k') → 4 ≤ n' → n' ≤ data.length - k' →
        4 + 3 * ((n' - 2) / 3) ≤ data.length - k' + (if callback then 0 else 1)) ↔
        (4 ≤ n → n ≤ data.length - k → 4 + 3 * ((n - 2) / 3) ≤ data.length - k + (if callback then 0 else 1)) := by
      refine ⟨fun h => h n k rfl, fun h n' k' heq => ?_⟩
      cases heq
      exact h
    rw [hiff]
    dsimp only
    by_cases hshort : n < 4
    · rw [if_pos hshort]
      exact iff_of_true ⟨hasn, fun t ht => absurd ht List.not_mem_nil⟩ fun h => absurd h (by omega)
    · rw [if_neg hshort]
      by_cases hlong : n > data.length - k
      · rw [if_pos hlong]
        exact iff_of_true ⟨hasn, fun t ht => absurd ht List.not_mem_nil⟩ fun _ h => absurd h (by omega)
      · rw [if_neg hlong, List.forall_mem_cons, List.forall_mem_cons, List.forall_mem_append, swapTouches_iff (by omega),
          and_iff_right hasn]
        have htakes : Touch.Inside (.takes data.length k) := hk
        have hbytes : Touch.Inside (.bytes (Memory.of (b₀ :: b₁ :: b₂ :: data) behind).extent (3 + k) 2) := by
          show 3 + k + 2 ≤ data.length + 3
          omega
        rw [and_iff_right htakes, and_iff_right hbytes]
        cases callback with
        | false =>
          rw [if_neg Bool.false_ne_true, if_neg Bool.false_ne_true, hextent]
          have hnil : (∀ t ∈ ([] : List Touch), t.Inside) ↔ True :=
            iff_of_true (fun t ht => absurd ht List.not_mem_nil) trivial
          rw [hnil, and_true]
          omega
        | true =>
          have hreply : Touch.Inside (.hands (Memory.of (b₀ :: b₁ :: b₂ :: data) behind).extent (3 + k) n) := by
            show 3 + k + n ≤ data.length + 3
            omega
          rw [if_pos rfl, if_pos rfl, List.forall_mem_cons, and_iff_right hreply, List.forall_mem_map,
            streams_iff (by omega) (by omega), hextent]
          omega

end Replies

/-- **The bounds.**  A CA_PMT_REPLY is touched inside exactly if its streams, the last of them whole, lie in the
message; a menu or list exactly if the copy of its fragment fits, no text of the object that it completes overruns,
and none is handed out that was not read. -/
theorem touches_inside_iff (callback : Bool) (w : World) (mmi : Mmi) (number : UInt16) (data : List UInt8) :
    (∀ behind, (∀ t ∈ caMessageTouches callback behind data, t.Inside) ↔ ReplyFits callback data) ∧
    ((∀ rounds, ∀ t ∈ mmiMessageTouches w mmi number rounds data, t.Inside) ↔ MenuFits w mmi number data) := by
  constructor
  · intro behind
    unfold caMessageTouches
    match data with
    | [] | [_] | [_, _] =>
      exact iff_of_true (fun t ht => absurd ht List.not_mem_nil) fun _ _ _ _ _ _ h => (by cases h)
    | b₀ :: b₁ :: b₂ :: rest =>
      have htag : Touch.Inside (.bytes (Memory.of (b₀ :: b₁ :: b₂ :: rest) behind).extent 0 3) :=
        (by omega : 0 + 3 ≤ rest.length + 3)
      dsimp only
      rw [List.forall_mem_cons, and_iff_right htag]
      by_cases hreply : tagOf b₀ b₁ b₂ = tagCaPmtReply
      · rw [if_pos hreply, parseReplyTouches_iff]
        refine ⟨fun h b₀' b₁' b₂' rest' n k heq _ => ?_, fun h n k => h b₀ b₁ b₂ rest n k rfl hreply⟩
        cases heq
        exact h n k
      · rw [if_neg hreply]
        refine iff_of_true (fun t ht => absurd ht List.not_mem_nil) fun b₀' b₁' b₂' rest' n k heq htag => ?_
        cases heq
        exact absurd htag hreply
  · unfold mmiMessageTouches
    match data with
    | [] | [_] | [_, _] =>
      exact iff_of_true (fun _ t ht => absurd ht List.not_mem_nil) fun _ _ _ _ _ _ _ h => (by cases h)
    | b₀ :: b₁ :: b₂ :: rest =>
      have htag : Touch.Inside (.bytes (Memory.of (b₀ :: b₁ :: b₂ :: rest) w.behind).extent 0 3) :=
        (by omega : 0 + 3 ≤ rest.length + 3)
      dsimp only
      cases hobject : objectOf (tagOf b₀ b₁ b₂) with
      | none =>
        refine iff_of_true (fun _ => List.forall_mem_cons.mpr ⟨htag, fun t ht => absurd ht List.not_mem_nil⟩)
          fun b₀' b₁' b₂' rest' kind last indata heq hsome => ?_
        cases heq
        rw [hobject] at hsome
        cases hsome
      | some r =>
        obtain ⟨kind, last⟩ := r
        have hiff := parseListMenuTouches_iff w mmi number kind last b₀ b₁ b₂ rest
        constructor
        · intro h b₀' b₁' b₂' rest' kind' last' indata heq hsome
          cases heq
          rw [hobject] at hsome
          cases hsome
          exact hiff.mp (fun rounds => (List.forall_mem_cons.mp (h rounds)).2) indata
        · intro h rounds
          exact List.forall_mem_cons.mpr ⟨htag, hiff.mpr (fun indata => h b₀ b₁ b₂ rest kind last indata rfl hobject) rounds⟩

/-- A reply of five bytes, whose second PID has one byte, and a menu whose title is five bytes longer than the menu. -/
theorem not_inside_long :
    (¬∀ callback behind data, ∀ t ∈ caMessageTouches callback behind data, t.Inside) ∧
    ¬∀ w mmi number data rounds, ∀ t ∈ mmiMessageTouches w mmi number rounds data, t.Inside := by
  constructor
  · intro h
    have hreply := h false (fun _ => 0) [0x9f, 0x80, 0x33, 0x05, 0x00, 0x01, 0xc1, 0x81, 0xe1]
    revert hreply
    decide
  · intro h
    have hmenu := h ⟨fun _ => 0, fun _ => 0, ⟨true, true⟩, fun _ => true⟩ .create 1
      [0x9f, 0x88, 0x09, 0x05, 0x00, 0x9f, 0x88, 0x03, 0x05] 1
    revert hmenu
    decide

end BgtDvb.En50221.ReplyBounds
