import BgtDvb.Lib.Walks

/-!
# Names of services

`descriptorcpy` of scan: the character set that the first bytes of a string select, the filter for control codes and the
conversion to UTF-8.

* `removeControls_eq`, `convert_length` — **PROVED**: what is filtered, and how long the converted text can get;
* `readsWritten_iff`, `textRight_iff` — **PROVED**: when the bytes converted are those filtered, and when the text is right;
* `copied_iff` — **PROVED**: a string is copied as it should be exactly if its selector is complete and the filter
  changes its length by no more than the conversion allows.
-/

namespace BgtDvb.Dvbscan.Text

/-! ### The source -/

/-- The names of character sets. -/
inductive Charset
  | iso6937
  /-- `ISO-8859` and what follows it. -/
  | iso8859 (rest : String)
  | iso10646
  | iso2022Kr
  | gb2312
  | big5
  | iso10646Utf8
  /-- A name that is none of these. -/
  | other (name : String)
  deriving DecidableEq, Repr

/-- What goes wrong while the selector is read. -/
inductive Fault
  /-- A byte outside of the string is read. -/
  | outside (i : ℕ)
  /-- A length becomes negative. -/
  | negative
  deriving DecidableEq, Repr

/-- The settings of the program, its library and its memory. -/
structure Env where
  defaultCharset : Charset
  /-- `iconv_open` to the output character set, and `iconv` on a text, with room for so many bytes. -/
  iconv : Charset → Option (List UInt8 → ℕ → List UInt8)
  iconv_room : ∀ type conv, iconv type = some conv → ∀ s room, (conv s room).length ≤ room
  /-- What `malloc` leaves in a buffer. -/
  heap : ℕ → UInt8

/-- `en300468_latin_00_to_utf8`: the first `len` bytes of `data`. -/
def en300468Latin00ToUtf8 : List (List UInt8) :=
  [[0x00], [0x01], [0x02], [0x03], [0x04], [0x05], [0x06], [0x07],
    [0x08], [0x09], [0x0a], [0x0b], [0x0c], [0x0d], [0x0e], [0x0f],
    [0x10], [0x11], [0x12], [0x13], [0x14], [0x15], [0x16], [0x17],
    [0x18], [0x19], [0x1a], [0x1b], [0x1c], [0x1d], [0x1e], [0x1f],
    [0x20], [0x21], [0x22], [0x23], [0x24], [0x25], [0x26], [0x27],
    [0x28], [0x29], [0x2a], [0x2b], [0x2c], [0x2d], [0x2e], [0x2f],
    [0x30], [0x31], [0x32], [0x33], [0x34], [0x35], [0x36], [0x37],
    [0x38], [0x39], [0x3a], [0x3b], [0x3c], [0x3d], [0x3e], [0x3f],
    [0x40], [0x41], [0x42], [0x43], [0x44], [0x45], [0x46], [0x47],
    [0x48], [0x49], [0x4a], [0x4b], [0x4c], [0x4d], [0x4e], [0x4f],
    [0x50], [0x51], [0x52], [0x53], [0x54], [0x55], [0x56], [0x57],
    [0x58], [0x59], [0x5a], [0x5b], [0x5c], [0x5d], [0x5e], [0x5f],
    [0x60], [0x61], [0x62], [0x63], [0x64], [0x65], [0x66], [0x67],
    [0x68], [0x69], [0x6a], [0x6b], [0x6c], [0x6d], [0x6e], [0x6f],
    [0x70], [0x71], [0x72], [0x73], [0x74], [0x75], [0x76], [0x77],
    [0x78], [0x79], [0x7a], [0x7b], [0x7c], [0x7d], [0x7e], [0x7f],
    [0xc2, 0x80], [0xc2, 0x81], [0xc2, 0x82], [0xc2, 0x83],
    [0xc2, 0x84], [0xc2, 0x85], [0xc2, 0x86], [0xc2, 0x87],
    [0xc2, 0x88], [0xc2, 0x89], [0xc2, 0x8a], [0xc2, 0x8b],
    [0xc2, 0x8c], [0xc2, 0x8d], [0xc2, 0x8e], [0xc2, 0x8f],
    [0xc2, 0x90], [0xc2, 0x91], [0xc2, 0x92], [0xc2, 0x93],
    [0xc2, 0x94], [0xc2, 0x95], [0xc2, 0x96], [0xc2, 0x97],
    [0xc2, 0x98], [0xc2, 0x99], [0xc2, 0x9a], [0xc2, 0x9b],
    [0xc2, 0x9c], [0xc2, 0x9d], [0xc2, 0x9e], [0xc2, 0x9f],
    [0xc2, 0xa0], [0xc2, 0xa1], [0xc2, 0xa2], [0xc2, 0xa3], [0xe2, 0x82, 0xac], [0xc2, 0xa5], [], [0xc2, 0xa7],
    [0xc2, 0xa4], [0xe2, 0x80, 0x98], [0xe2, 0x80, 0x9c], [0xc2, 0xab],
    [0xe2, 0x86, 0x90], [0xe2, 0x86, 0x91], [0xe2, 0x86, 0x92], [0xe2, 0x86, 0x93],
    [0xc2, 0xb0], [0xc2, 0xb1], [0xc2, 0xb2], [0xc2, 0xb3],
    [0xc3, 0x97], [0xc2, 0xb5], [0xc2, 0xb6], [0xc2, 0xb7],
    [0xc3, 0xb7], [0xe2, 0x80, 0x99], [0xe2, 0x80, 0x9d], [0xc2, 0xbb],
    [0xc2, 0xbc], [0xc2, 0xbd], [0xc2, 0xbe], [0xc2, 0xbf],
    [], [], [], [], [], [], [], [],
    [], [], [], [], [], [], [], [],
    [0xe2, 0x80, 0x94], [0xc2, 0xb9], [0xc2, 0xae], [0xc2, 0xa9],
    [0xe2, 0x84, 0xa2], [0xe2, 0x99, 0xaa], [0xc2, 0xac], [0xc2, 0xa6],
    [], [], [], [], [0xe2, 0x85, 0x9b], [0xe2, 0x85, 0x9c], [0xe2, 0x85, 0x9d], [0xe2, 0x85, 0x9e],
    [0xe2, 0x84, 0xa6], [0xc3, 0x86], [0xc3, 0x90], [0xc2, 0xaa], [0xc4, 0xa6], [], [0xc4, 0xb2], [0xc4, 0xbf],
    [0xc5, 0x81], [0xc3, 0x98], [0xc5, 0x92], [0xc2, 0xba],
    [0xc3, 0x9e], [0xc5, 0xa6], [0xc5, 0x8a], [0xc5, 0x89],
    [0xc4, 0xb8], [0xc3, 0xa6], [0xc4, 0x91], [0xc3, 0xb0],
    [0xc4, 0xa7], [0xc4, 0xb1], [0xc4, 0xb3], [0xc5, 0x80],
    [0xc5, 0x82], [0xc3, 0xb8], [0xc5, 0x93], [0xc3, 0x9f],
    [0xc3, 0xbe], [0xc5, 0xa7], [0xc5, 0x8b], [0xc2, 0xad]]

def latin00 (c : UInt8) : List UInt8 := en300468Latin00ToUtf8.getD c.toNat []

def selectors : List (UInt8 × Charset) :=
  [(0x00, .iso6937), (0x01, .iso8859 "-5"), (0x02, .iso8859 "-6"), (0x03, .iso8859 "-7"), (0x04, .iso8859 "-8"),
    (0x05, .iso8859 "-9"), (0x06, .iso8859 "-10"), (0x07, .iso8859 "-11"), (0x09, .iso8859 "-13"),
    (0x0a, .iso8859 "-14"), (0x0b, .iso8859 "-15"), (0x11, .iso10646), (0x12, .iso2022Kr), (0x13, .gb2312),
    (0x14, .big5), (0x15, .iso10646Utf8)]

/-- The names after 0x10 and 0x00. -/
def parts : List (UInt8 × Charset) :=
  [(0x01, .iso8859 "-1"), (0x02, .iso8859 "-2"), (0x03, .iso8859 "-3"), (0x04, .iso8859 "-4"), (0x05, .iso8859 "-5"),
    (0x06, .iso8859 "-6"), (0x07, .iso8859 "-7"), (0x08, .iso8859 "-8"), (0x09, .iso8859 "-9"), (0x0a, .iso8859 "-10"),
    (0x0b, .iso8859 "-11"), (0x0d, .iso8859 "-13"), (0x0e, .iso8859 "-14"), (0x0f, .iso8859 "-15")]

/-- `*(src + i)` -/
def byteAt (src : List UInt8) (i : ℕ) : Except Fault UInt8 :=
  match src[i]? with
  | some c => .ok c
  | none => .error (.outside i)

/-- The case 0x10. -/
def selectPart (type : Charset) (src : List UInt8) : Except Fault (Charset × ℕ) :=
  (byteAt src 1).bind fun c1 =>
    if c1 ≠ 0 then .ok (type, 1)
    else (byteAt src 2).bind fun c2 => if 0x0f < c2 then .ok (type, 1) else .ok ((parts.lookup c2).getD type, 3)

/-- The character set, and how many bytes stand in front of the text. -/
def selectCharset (type : Charset) (src : List UInt8) : Except Fault (Charset × ℕ) :=
  (byteAt src 0).bind fun c =>
    if c < 0x20 then
      if c = 0x10 then selectPart type src else .ok ((selectors.lookup c).getD type, 1)
    else .ok (type, 0)

/-- `src += n; len -= n` -/
def skip (src : List UInt8) (n : ℕ) : Except Fault (List UInt8) :=
  if n ≤ src.length then .ok (src.drop n) else .error .negative

def Charset.filtered : Charset → Bool
  | .iso6937 => true
  | .iso8859 _ => true
  | _ => false

def asterisk : UInt8 := 0x2a

/-- One byte of the filter, with the bytes kept and `emphasis`. -/
def filterStep (st : List UInt8 × Bool) (c : UInt8) : List UInt8 × Bool :=
  if 0x20 ≤ c ∧ (c < 0x80 ∨ 0x9f < c) then (st.1 ++ [c], st.2)
  else if c = 0x86 then (st.1 ++ [asterisk], true)
  else if c = 0x87 ∧ st.2 = true then (st.1 ++ [asterisk], false)
  else st

def closeEmphasis (st : List UInt8 × Bool) : List UInt8 := if st.2 then st.1 ++ [asterisk] else st.1

/-- What is written to `tmp`. -/
def removeControls (text : List UInt8) : List UInt8 := closeEmphasis (text.foldl filterStep ([], false)) ++ [0]

/-- `len` bytes of a buffer to which `tmp` was written. -/
def bufferRead (env : Env) (tmp : List UInt8) (len : ℕ) : List UInt8 :=
  (List.range len).map fun i => tmp.getD i (env.heap i)

/-- The conversion with `iconv`, or a copy. -/
def recode (env : Env) (type : Charset) (s : List UInt8) (destlen : ℕ) : List UInt8 :=
  match env.iconv type with
  | none => s ++ [0]
  | some conv => conv s destlen ++ [0]

/-- What is written to `*dest`, for the `len` bytes at `s`; the output character set is UTF-8 or another one. -/
def convert (env : Env) (utf8Output : Bool) (type : Charset) (s : List UInt8) : List UInt8 :=
  if type = .iso6937 then
    if utf8Output then s.flatMap latin00 ++ [0] else recode env (.other "UTF-8") (s.flatMap latin00) (3 * s.length)
  else recode env type s (3 * s.length)

/-- A text that was copied. -/
structure Copy where
  type : Charset
  /-- The bytes behind the selector; `len` is their number. -/
  text : List UInt8
  /-- What is written to `tmp`, where it is used. -/
  tmp : Option (List UInt8)
  dest : List UInt8
  deriving DecidableEq, Repr

def copyText (env : Env) (utf8Output : Bool) (type : Charset) (text : List UInt8) : Copy :=
  if type.filtered then
    { type, text, tmp := some (removeControls text)
      dest := convert env utf8Output type (bufferRead env (removeControls text) text.length) }
  else { type, text, tmp := none, dest := convert env utf8Output type text }

/-- `descriptorcpy` -/
def descriptorcpy (env : Env) (utf8Output : Bool) : List UInt8 → Except Fault (Option Copy)
  | [] => .ok none
  | c :: src =>
    (selectCharset env.defaultCharset (c :: src)).bind fun sel =>
      (skip (c :: src) sel.2).map fun text => some (copyText env utf8Output sel.1 text)

/-! ### What a string means -/

/-- What the two bytes behind 0x10 announce, and the text. -/
def announcedPart (type : Charset) : List UInt8 → Charset × List UInt8
  | [] => (type, [])
  | [c1] => (type, [c1])
  | c1 :: c2 :: text =>
    if c1 = 0 ∧ c2 ≤ 0x0f then ((parts.lookup c2).getD type, text) else (type, c1 :: c2 :: text)

def announced (type : Charset) : List UInt8 → Charset × List UInt8
  | [] => (type, [])
  | c :: src =>
    if 0x20 ≤ c then (type, c :: src)
    else if c = 0x10 then announcedPart type src
    else ((selectors.lookup c).getD type, src)

def Printable (c : UInt8) : Prop := 0x20 ≤ c ∧ (c < 0x80 ∨ 0x9f < c)

instance (c : UInt8) : Decidable (Printable c) := inferInstanceAs (Decidable (_ ∧ (_ ∨ _)))

def emphasisOn : UInt8 := 0x86

def emphasisOff : UInt8 := 0x87

def shown (emphasis : Bool) (c : UInt8) : Option UInt8 × Bool :=
  if Printable c then (some c, emphasis)
  else if c = emphasisOn then (some asterisk, true)
  else if c = emphasisOff ∧ emphasis = true then (some asterisk, false)
  else (none, emphasis)

/-- The characters of a text, where emphasis is on or off at first; an asterisk closes it at the end. -/
def plain : Bool → List UInt8 → List UInt8
  | emphasis, [] => if emphasis then [asterisk] else []
  | emphasis, c :: text => (shown emphasis c).1.toList ++ plain (shown emphasis c).2 text

def dropped : Bool → List UInt8 → ℕ
  | _, [] => 0
  | emphasis, c :: text => (if (shown emphasis c).1 = none then 1 else 0) + dropped (shown emphasis c).2 text

def emphasisAtEnd : Bool → List UInt8 → Bool
  | emphasis, [] => emphasis
  | emphasis, c :: text => emphasisAtEnd (shown emphasis c).2 text

def cString (mem : List UInt8) : List UInt8 := mem.takeWhile (· ≠ 0)

def Copy.ReadsWritten (copy : Copy) : Prop := ∀ tmp ∈ copy.tmp, copy.text.length ≤ tmp.length

/-- The buffers have `len + 2` and `3 * len + 1` bytes. -/
structure Copy.InRoom (copy : Copy) : Prop where
  tmp : ∀ tmp ∈ copy.tmp, tmp.length ≤ copy.text.length + 2
  dest : copy.dest.length ≤ 3 * copy.text.length + 1

/-- The text of a string in the table Latin 00. -/
def Copy.TextRight (copy : Copy) : Prop :=
  copy.type = .iso6937 → cString copy.dest = (plain false copy.text).flatMap latin00

/-- A copy to UTF-8 as it should be. -/
def Sound (env : Env) (src : List UInt8) : Prop :=
  match descriptorcpy env true src with
  | .error _ => False
  | .ok none => src = []
  | .ok (some copy) =>
    announced env.defaultCharset src = (copy.type, copy.text) ∧ copy.ReadsWritten ∧ copy.InRoom ∧ copy.TextRight

/-- A string whose copy is right: its selector is complete, and the filter does not change its length too much. -/
structure Copied (type : Charset) (src : List UInt8) : Prop where
  one : src ≠ [0x10]
  two : src ≠ [0x10, 0x00]
  few : (announced type src).1.filtered = true →
    dropped false (announced type src).2 ≤ 1 + (emphasisAtEnd false (announced type src).2).toNat
  closed : (announced type src).1 = .iso6937 → emphasisAtEnd false (announced type src).2 = true →
    dropped false (announced type src).2 ≠ 0

/-! ### The table -/

theorem entry_length : ∀ entry ∈ en300468Latin00ToUtf8, entry.length ≤ 3 := by decide +kernel

theorem entry_ne_zero : ∀ entry ∈ en300468Latin00ToUtf8.tail, ∀ b ∈ entry, b ≠ 0 := by
  have hall : ∀ entry ∈ en300468Latin00ToUtf8.tail, 0 ∉ entry := by decide +kernel
  exact fun entry hentry b hb hzero => hall entry hentry (hzero ▸ hb)

theorem getD_nil_or_mem (entries : List (List UInt8)) (i : ℕ) : entries.getD i [] = [] ∨ entries.getD i [] ∈ entries := by
  rw [List.getD_eq_getElem?_getD]
  cases h : entries[i]? with
  | none => exact .inl rfl
  | some entry => exact .inr (List.mem_of_getElem? h)

theorem latin00_length (c : UInt8) : (latin00 c).length ≤ 3 := by
  show (en300468Latin00ToUtf8.getD c.toNat []).length ≤ 3
  rcases getD_nil_or_mem en300468Latin00ToUtf8 c.toNat with hnone | hentry
  · rw [hnone]
    exact Nat.zero_le 3
  · exact entry_length _ hentry

theorem latin00_ne_zero {c : UInt8} (hc : c ≠ 0) : ∀ b ∈ latin00 c, b ≠ 0 := by
  intro b hb
  obtain ⟨n, hn⟩ := Nat.exists_eq_succ_of_ne_zero fun hzero => hc (UInt8.toNat.inj hzero)
  have hb : b ∈ en300468Latin00ToUtf8.getD c.toNat [] := hb
  have htail : en300468Latin00ToUtf8.getD (n + 1) [] = en300468Latin00ToUtf8.tail.getD n [] := rfl
  rw [hn, htail] at hb
  rcases getD_nil_or_mem en300468Latin00ToUtf8.tail n with hnone | hentry
  · rw [hnone] at hb
    exact absurd hb List.not_mem_nil
  · exact entry_ne_zero _ hentry b hb

theorem flatMap_latin00_length (s : List UInt8) : (s.flatMap latin00).length ≤ 3 * s.length := by
  induction s with
  | nil => exact le_rfl
  | cons c s ih =>
    have hc := latin00_length c
    simp only [List.flatMap_cons, List.length_append, List.length_cons]
    omega

/-! ### The filter -/

theorem filterStep_eq (out : List UInt8) (emphasis : Bool) (c : UInt8) :
    filterStep (out, emphasis) c = (out ++ (shown emphasis c).1.toList, (shown emphasis c).2) := by
  show (if Printable c then (out ++ [c], emphasis)
    else if c = emphasisOn then (out ++ [asterisk], true)
    else if c = emphasisOff ∧ emphasis = true then (out ++ [asterisk], false)
    else (out, emphasis)) = _
  rw [shown]
  by_cases hprint : Printable c
  · rw [if_pos hprint, if_pos hprint]
    rfl
  · rw [if_neg hprint, if_neg hprint]
    by_cases hon : c = emphasisOn
    · rw [if_pos hon, if_pos hon]
      rfl
    · rw [if_neg hon, if_neg hon]
      by_cases hoff : c = emphasisOff ∧ emphasis = true
      · rw [if_pos hoff, if_pos hoff]
        rfl
      · rw [if_neg hoff, if_neg hoff]
        exact congrArg (·, emphasis) (List.append_nil out).symm

theorem closeEmphasis_foldl (text out : List UInt8) (emphasis : Bool) :
    closeEmphasis (text.foldl filterStep (out, emphasis)) = out ++ plain emphasis text := by
  induction text generalizing out emphasis with
  | nil =>
    cases emphasis with
    | true => rfl
    | false => exact (List.append_nil out).symm
  | cons c text ih => rw [List.foldl_cons, filterStep_eq, ih, plain, List.append_assoc]

theorem removeControls_eq (text : List UInt8) : removeControls text = plain false text ++ [0] := by
  rw [removeControls, closeEmphasis_foldl, List.nil_append]

variable (emphasis : Bool)

theorem plain_length (text : List UInt8) :
    (plain emphasis text).length + dropped emphasis text = text.length + (emphasisAtEnd emphasis text).toNat := by
  induction text generalizing emphasis with
  | nil =>
    cases emphasis with
    | true => rfl
    | false => rfl
  | cons c text ih =>
    have hrest := ih (shown emphasis c).2
    have hfirst : (shown emphasis c).1.toList.length + (if (shown emphasis c).1 = none then 1 else 0) = 1 := by
      cases (shown emphasis c).1 with
      | none => rfl
      | some d => rfl
    rw [plain, dropped, emphasisAtEnd, List.length_append, List.length_cons]
    omega

theorem asterisk_ne_zero : asterisk ≠ 0 := by decide

theorem shown_ne_zero {emphasis : Bool} {c d : UInt8} (hd : (shown emphasis c).1 = some d) : d ≠ 0 := by
  rw [shown] at hd
  by_cases hprint : Printable c
  · rw [if_pos hprint] at hd
    obtain rfl : c = d := Option.some.inj hd
    intro hzero
    exact absurd (hzero ▸ hprint.1 : (0x20 : UInt8) ≤ 0) (by decide)
  · rw [if_neg hprint] at hd
    have hstar : d = asterisk := by
      split at hd
      · exact (Option.some.inj hd).symm
      · split at hd
        · exact (Option.some.inj hd).symm
        · cases hd
    exact hstar ▸ asterisk_ne_zero

theorem plain_ne_zero (text : List UInt8) : ∀ c ∈ plain emphasis text, c ≠ 0 := by
  induction text generalizing emphasis with
  | nil =>
    intro c hc
    cases emphasis with
    | true => exact List.mem_singleton.mp hc ▸ asterisk_ne_zero
    | false => exact absurd hc List.not_mem_nil
  | cons c text ih =>
    intro d hd
    rcases List.mem_append.mp hd with hfirst | hrest
    · exact shown_ne_zero (Option.mem_toList.mp hfirst)
    · exact ih _ d hrest

theorem plain_closed (text : List UInt8) (hend : emphasisAtEnd emphasis text = true) :
    ∃ body, plain emphasis text = body ++ [asterisk] := by
  induction text generalizing emphasis with
  | nil =>
    obtain rfl : emphasis = true := hend
    exact ⟨[], rfl⟩
  | cons c text ih =>
    obtain ⟨body, hbody⟩ := ih (shown emphasis c).2 hend
    exact ⟨(shown emphasis c).1.toList ++ body, by rw [plain, hbody, List.append_assoc]⟩

/-! ### The conversion -/

theorem cString_end {mem : List UInt8} (hmem : ∀ b ∈ mem, b ≠ 0) (rest : List UInt8) :
    cString (mem ++ 0 :: rest) = mem := by
  show (mem ++ 0 :: rest).takeWhile (· ≠ 0) = mem
  rw [List.takeWhile_append_of_pos (by simpa using hmem), List.takeWhile_cons_of_neg (by simp), List.append_nil]

theorem flatMap_ne_zero {s : List UInt8} (hs : ∀ c ∈ s, c ≠ 0) : ∀ b ∈ s.flatMap latin00, b ≠ 0 := by
  intro b hb
  obtain ⟨c, hc, hbc⟩ := List.mem_flatMap.mp hb
  exact latin00_ne_zero (hs c hc) b hbc

section Conversion

variable {env : Env} {type : Charset} {text : List UInt8}

theorem bufferRead_length (tmp : List UInt8) (len : ℕ) : (bufferRead env tmp len).length = len := by
  rw [bufferRead, List.length_map, List.length_range]

theorem bufferRead_written {tmp : List UInt8} {len : ℕ} (hlen : len ≤ tmp.length) :
    bufferRead env tmp len = tmp.take len := by
  refine List.ext_getElem ?_ fun i hi hi' => ?_
  · rw [bufferRead_length, List.length_take, min_eq_left hlen]
  · rw [bufferRead_length] at hi
    simp only [bufferRead, List.getElem_map, List.getElem_range, List.getElem_take]
    exact List.getD_eq_getElem _ _ (hi.trans_le hlen)

theorem bufferRead_all {tmp : List UInt8} {len : ℕ} (hlen : tmp.length ≤ len) :
    ∃ rest, bufferRead env tmp len = tmp ++ rest := by
  refine ⟨(bufferRead env tmp len).drop tmp.length, ?_⟩
  have htake : (bufferRead env tmp len).take tmp.length = tmp := by
    refine List.ext_getElem ?_ fun i hi hi' => ?_
    · rw [List.length_take, bufferRead_length, min_eq_left hlen]
    · simp only [bufferRead, List.getElem_take, List.getElem_map, List.getElem_range]
      exact List.getD_eq_getElem _ _ hi'
  nth_rewrite 2 [← htake]
  exact (List.take_append_drop _ _).symm

theorem recode_length (s : List UInt8) {destlen : ℕ} (hs : s.length ≤ destlen) :
    (recode env type s destlen).length ≤ destlen + 1 := by
  unfold recode
  split
  · rw [List.length_append]
    exact Nat.succ_le_succ hs
  next conv hconv =>
    rw [List.length_append]
    exact Nat.succ_le_succ (env.iconv_room _ _ hconv s destlen)

theorem convert_length (utf8Output : Bool) (s : List UInt8) :
    (convert env utf8Output type s).length ≤ 3 * s.length + 1 := by
  have hlatin := flatMap_latin00_length s
  unfold convert
  split
  · split
    · rw [List.length_append]
      exact Nat.succ_le_succ hlatin
    · exact recode_length _ hlatin
  · exact recode_length _ (by omega)

variable (utf8Output : Bool)

theorem copyText_text : (copyText env utf8Output type text).text = text := by
  unfold copyText
  split
  · rfl
  · rfl

theorem copyText_type : (copyText env utf8Output type text).type = type := by
  unfold copyText
  split
  · rfl
  · rfl

/-- **PROVED**: every buffer has room for what is written to it. -/
theorem copyText_inRoom : (copyText env utf8Output type text).InRoom := by
  unfold copyText
  split
  · refine ⟨fun tmp htmp => ?_, ?_⟩
    · obtain rfl : removeControls text = tmp := Option.some.inj htmp
      have hlen := plain_length false text
      have hone := Bool.toNat_le (emphasisAtEnd false text)
      show (removeControls text).length ≤ text.length + 2
      rw [removeControls_eq, List.length_append, List.length_singleton]
      omega
    · have hdest := @convert_length env type utf8Output (bufferRead env (removeControls text) text.length)
      rw [bufferRead_length] at hdest
      exact hdest
  · exact ⟨fun tmp htmp => absurd htmp (Option.not_mem_none tmp), convert_length utf8Output text⟩

/-- **PROVED**: the bytes that are converted were all written exactly if not too many were dropped. -/
theorem readsWritten_iff : (copyText env utf8Output type text).ReadsWritten ↔
    (type.filtered = true → dropped false text ≤ 1 + (emphasisAtEnd false text).toNat) := by
  have hlen := plain_length false text
  unfold copyText
  split
  next hfiltered =>
    show (∀ tmp ∈ some (removeControls text), text.length ≤ tmp.length) ↔ _
    rw [removeControls_eq]
    constructor
    · intro h _
      have hle := h _ rfl
      rw [List.length_append, List.length_singleton] at hle
      omega
    · intro h tmp htmp
      have hle := h hfiltered
      obtain rfl : plain false text ++ [0] = tmp := Option.some.inj htmp
      rw [List.length_append, List.length_singleton]
      omega
  next hfiltered =>
    exact iff_of_true (fun tmp htmp => absurd htmp (Option.not_mem_none tmp)) fun h => absurd h hfiltered

theorem textRight_iff : (copyText env true .iso6937 text).TextRight ↔
    ¬(emphasisAtEnd false text = true ∧ dropped false text = 0) := by
  have hlen := plain_length false text
  have hzero := plain_ne_zero false text
  show (Charset.iso6937 = .iso6937 → cString ((bufferRead env (removeControls text) text.length).flatMap latin00 ++ [0])
    = (plain false text).flatMap latin00) ↔ _
  rw [removeControls_eq]
  by_cases hcut : emphasisAtEnd false text = true ∧ dropped false text = 0
  · refine iff_of_false (fun h => ?_) (not_not_intro hcut)
    obtain ⟨body, hbody⟩ := plain_closed false text hcut.1
    rw [hcut.1, hcut.2, hbody, List.length_append, List.length_singleton, Bool.toNat_true] at hlen
    have hread : bufferRead env (plain false text ++ [0]) text.length = body := by
      rw [bufferRead_written (by rw [hbody]; simp; omega), hbody, List.append_assoc,
        List.take_append_of_le_length (by omega), List.take_of_length_le (by omega)]
    have hbodyzero : ∀ c ∈ body, c ≠ 0 := by
      intro c hc
      exact hzero c (hbody ▸ List.mem_append_left _ hc)
    have heq := congrArg List.length (h rfl)
    rw [hread, cString_end (flatMap_ne_zero hbodyzero), hbody, List.flatMap_append, List.length_append] at heq
    have hstar : ([asterisk].flatMap latin00).length = 1 := by decide +kernel
    omega
  · refine iff_of_true (fun _ => ?_) hcut
    have hle : (plain false text).length ≤ text.length := by
      cases hend : emphasisAtEnd false text with
      | false =>
        rw [hend, Bool.toNat_false] at hlen
        omega
      | true =>
        have hdrop : dropped false text ≠ 0 := fun hnone => hcut ⟨hend, hnone⟩
        rw [hend, Bool.toNat_true] at hlen
        omega
    rcases Nat.lt_or_eq_of_le hle with hlt | heq
    · -- the end of the text in `tmp` is converted as well
      have hall : (plain false text ++ [0]).length ≤ text.length := by
        rw [List.length_append]
        exact hlt
      obtain ⟨rest, hrest⟩ := @bufferRead_all env _ _ hall
      rw [hrest, List.flatMap_append, List.flatMap_append, List.append_assoc, List.append_assoc]
      exact cString_end (flatMap_ne_zero hzero) _
    · rw [bufferRead_written (by rw [List.length_append]; omega), List.take_append_of_le_length (by omega),
        List.take_of_length_le (by omega)]
      exact cString_end (flatMap_ne_zero hzero) []

end Conversion

/-! ### The selector -/

section Selector

variable {env : Env} {src : List UInt8}

theorem selectPart_eq (type : Charset) (hone : src ≠ []) (htwo : src ≠ [0x00]) :
    ∃ n, selectPart type (0x10 :: src) = .ok ((announcedPart type src).1, n)
      ∧ skip (0x10 :: src) n = .ok (announcedPart type src).2 := by
  obtain ⟨c1, src, rfl⟩ := List.exists_cons_of_ne_nil hone
  have hfirst : selectPart type (0x10 :: c1 :: src) =
      if c1 ≠ 0 then .ok (type, 1)
      else (byteAt (0x10 :: c1 :: src) 2).bind fun c2 =>
        if 0x0f < c2 then .ok (type, 1) else .ok ((parts.lookup c2).getD type, 3) := rfl
  rw [hfirst]
  cases src with
  | nil =>
    have hc1 : c1 ≠ 0 := fun hzero => htwo (hzero ▸ rfl)
    rw [if_pos hc1]
    exact ⟨1, rfl, rfl⟩
  | cons c2 text =>
    have hsecond : byteAt (0x10 :: c1 :: c2 :: text) 2 = .ok c2 := rfl
    rw [hsecond, announcedPart]
    by_cases hc1 : c1 = 0
    · rw [if_neg (not_not_intro hc1)]
      show ∃ n, (if 0x0f < c2 then _ else _) = _ ∧ _
      by_cases hlow : c2 ≤ 0x0f
      · rw [if_neg (UInt8.not_lt.mpr hlow), if_pos ⟨hc1, hlow⟩]
        exact ⟨3, rfl, rfl⟩
      · rw [if_pos (UInt8.not_le.mp hlow), if_neg fun h => hlow h.2]
        exact ⟨1, rfl, rfl⟩
    · rw [if_pos hc1, if_neg fun h => hc1 h.1]
      exact ⟨1, rfl, rfl⟩

/-- **PROVED**: the character set and the text are those that the string announces. -/
theorem descriptorcpy_eq (utf8Output : Bool) (hsrc : src ≠ []) (hone : src ≠ [0x10]) (htwo : src ≠ [0x10, 0x00]) :
    descriptorcpy env utf8Output src = .ok (some (copyText env utf8Output (announced env.defaultCharset src).1
      (announced env.defaultCharset src).2)) := by
  obtain ⟨c, src, rfl⟩ := List.exists_cons_of_ne_nil hsrc
  show ((selectCharset env.defaultCharset (c :: src)).bind fun sel =>
    (skip (c :: src) sel.2).map fun text => some (copyText env utf8Output sel.1 text)) = _
  have hfirst : selectCharset env.defaultCharset (c :: src) =
      if c < 0x20 then
        if c = 0x10 then selectPart env.defaultCharset (c :: src)
        else .ok ((selectors.lookup c).getD env.defaultCharset, 1)
      else .ok (env.defaultCharset, 0) := rfl
  rw [hfirst, announced]
  by_cases hctrl : c < 0x20
  · rw [if_pos hctrl, if_neg (UInt8.not_le.mpr hctrl)]
    by_cases hpart : c = 0x10
    · subst hpart
      obtain ⟨n, hselect, hskip⟩ := @selectPart_eq src env.defaultCharset (fun h => hone (h ▸ rfl))
        fun h => htwo (h ▸ rfl)
      rw [if_pos rfl, if_pos rfl, hselect, Except.bind, hskip]
      rfl
    · rw [if_neg hpart, if_neg hpart]
      rfl
  · rw [if_neg hctrl, if_pos (UInt8.not_lt.mp hctrl)]
    rfl

/-! ### The copy -/

theorem sound_nil : Sound env [] := rfl

theorem not_sound_cut : ¬Sound env [0x10] ∧ ¬Sound env [0x10, 0x00] := ⟨id, id⟩

theorem sound_text (hsrc : src ≠ []) (hone : src ≠ [0x10]) (htwo : src ≠ [0x10, 0x00]) : Sound env src ↔
    (copyText env true (announced env.defaultCharset src).1 (announced env.defaultCharset src).2).ReadsWritten
      ∧ (copyText env true (announced env.defaultCharset src).1 (announced env.defaultCharset src).2).TextRight := by
  rw [Sound, descriptorcpy_eq true hsrc hone htwo]
  constructor
  · intro h
    exact ⟨h.2.1, h.2.2.2⟩
  · intro h
    exact ⟨Prod.ext (copyText_type true).symm (copyText_text true).symm, h.1, copyText_inRoom true, h.2⟩

/-- A string is copied as it should be exactly if its selector is complete, not more codes are dropped than the end of
the text makes up for, and a last asterisk finds room. -/
theorem copied_iff (env : Env) (src : List UInt8) : Sound env src ↔ Copied env.defaultCharset src := by
  by_cases hsrc : src = []
  · subst hsrc
    exact iff_of_true sound_nil ⟨by decide, by decide, fun _ => Nat.zero_le _, fun _ hend => by cases hend⟩
  by_cases hone : src = [0x10]
  · subst hone
    exact iff_of_false not_sound_cut.1 fun h => h.one rfl
  by_cases htwo : src = [0x10, 0x00]
  · subst htwo
    exact iff_of_false not_sound_cut.2 fun h => h.two rfl
  rw [sound_text hsrc hone htwo, readsWritten_iff]
  have hright : (copyText env true (announced env.defaultCharset src).1 (announced env.defaultCharset src).2).TextRight ↔
      ((announced env.defaultCharset src).1 = .iso6937 →
        ¬(emphasisAtEnd false (announced env.defaultCharset src).2 = true
          ∧ dropped false (announced env.defaultCharset src).2 = 0)) := by
    by_cases htype : (announced env.defaultCharset src).1 = .iso6937
    · rw [htype, textRight_iff]
      exact ⟨fun h _ => h, fun h => h rfl⟩
    · refine iff_of_true (fun h => absurd ?_ htype) fun h => absurd h htype
      exact (copyText_type true).symm.trans h
  rw [hright]
  constructor
  · intro h
    exact ⟨hone, htwo, h.1, fun htype hend hdrop => h.2 htype ⟨hend, hdrop⟩⟩
  · intro h
    exact ⟨h.few, fun htype hcut => h.closed htype hcut.1 hcut.2⟩

def letters : Env where
  defaultCharset := .iso6937
  iconv := fun _ => none
  iconv_room := fun _ _ h => absurd h.symm (Option.some_ne_none _)
  heap := fun _ => 0x41

/-- An asterisk is missing at the end of a letter with emphasis. -/
theorem not_copied_emphasis : ¬Sound letters [0x86, 0x41] := by
  intro h
  have hright := ((sound_text (by decide) (by decide) (by decide)).mp h).2
  exact textRight_iff.mp hright ⟨by decide, by decide⟩

end Selector

end BgtDvb.Dvbscan.Text
