import BgtDvb.AlevtHamm

/-!
# Character sets and enhancements of teletext pages

`lang.c` of alevt: the bytes of a row become characters of the font, and triplets of packet 26 put further characters
on a page.

* `enhance_cells` — **PROVED**: triplets change cells of the page and nothing else.
-/

namespace BgtDvb.Alevt

def LATIN1 : ℤ := 1

def LATIN2 : ℤ := 2

def KOI8 : ℤ := 3

def GREEK : ℤ := 4

/-- `latin1`, `isalpha` in the locale, and the bytes before the tables `g2map_latin1` and `g2map_latin2`. -/
structure LangEnv where
  latin1 : ℤ
  isalpha : ℕ → Bool
  outside : ℤ → UInt8

/-- `lang_chars` -/
def langChars : List (List UInt8) :=
  [[0x00, 0x23, 0x24, 0x40, 0x5b, 0x5c, 0x5d, 0x5e, 0x5f, 0x60, 0x7b, 0x7c, 0x7d, 0x7e],
    [0x00, 0xa3, 0x24, 0x40, 0xab, 0xbd, 0xbb, 0xac, 0x23, 0xad, 0xbc, 0xa6, 0xbe, 0xf7],
    [0x00, 0x23, 0x24, 0xa7, 0xc4, 0xd6, 0xdc, 0x5e, 0x5f, 0xb0, 0xe4, 0xf6, 0xfc, 0xdf],
    [0x00, 0x23, 0xa4, 0xc9, 0xc4, 0xd6, 0xc5, 0xdc, 0x5f, 0xe9, 0xe4, 0xf6, 0xe5, 0xfc],
    [0x00, 0xa3, 0x24, 0xe9, 0xb0, 0xe7, 0xbb, 0xac, 0x23, 0xf9, 0xe0, 0xf2, 0xe8, 0xec],
    [0x00, 0xe9, 0xef, 0xe0, 0xeb, 0xea, 0xf9, 0xee, 0x23, 0xe8, 0xe2, 0xf4, 0xfb, 0xe7],
    [0x00, 0xe7, 0x24, 0xa1, 0xe1, 0xe9, 0xed, 0xf3, 0xfa, 0xbf, 0xfc, 0xf1, 0xe8, 0xe0],
    [0x00, 0x23, 0x75, 0x63, 0x74, 0x7a, 0xfd, 0xed, 0x72, 0xe9, 0xe1, 0x65, 0xfa, 0x73],
    [0x00, 0xa3, 0x24, 0x40, 0xab, 0xbd, 0xbb, 0xac, 0x23, 0xad, 0xbc, 0xa6, 0xbe, 0xf7],
    [0x00, 0x23, 0xf1, 0xb1, 0xaf, 0xa6, 0xa3, 0xe6, 0xf3, 0xea, 0xbf, 0xb6, 0xb3, 0xbc],
    [0x00, 0x23, 0x24, 0xa7, 0xc4, 0xd6, 0xdc, 0x5e, 0x5f, 0xb0, 0xe4, 0xf6, 0xfc, 0xdf],
    [0x00, 0x23, 0xf5, 0xa9, 0xc4, 0xd6, 0xae, 0xdc, 0xd5, 0xb9, 0xe4, 0xf6, 0xbe, 0xfc],
    [0x00, 0x23, 0x24, 0xa9, 0xeb, 0xea, 0xae, 0xe8, 0xfc, 0xb9, 0xb1, 0x75, 0xbe, 0x69],
    [0x00, 0xe9, 0x69, 0x61, 0xeb, 0xec, 0x75, 0xee, 0x23, 0x65, 0xe2, 0xf4, 0x75, 0xe7],
    [0x00, 0x23, 0xcb, 0xc8, 0xc6, 0xae, 0xd0, 0xa9, 0xeb, 0xe8, 0xe6, 0xae, 0xf0, 0xb9],
    [0x00, 0x23, 0xf9, 0xe8, 0xbb, 0xbe, 0xfd, 0xed, 0xf8, 0xe9, 0xe1, 0xec, 0xfa, 0xb9],
    [0x00, 0x23, 0xa2, 0xde, 0xc2, 0xaa, 0xc3, 0xce, 0x69, 0xfe, 0xe2, 0xba, 0xe3, 0xee]]

/-- `marks`: base characters, and what they are with the mark in the two fonts. -/
def marks : List (List UInt8 × List UInt8 × List UInt8) :=
  [([0x23], [0xa4], [0x24]),
    ([0x20, 0x61, 0x65, 0x69, 0x6f, 0x75, 0x41, 0x45, 0x49, 0x4f, 0x55],
     [0x60, 0xe0, 0xe8, 0xec, 0xf2, 0xf9, 0xc0, 0xc8, 0xcc, 0xd2, 0xd9],
     [0x60, 0x61, 0x65, 0x69, 0x6f, 0x75, 0x41, 0x45, 0x49, 0x4f, 0x55]),
    ([0x20, 0x61, 0x63, 0x65, 0x69, 0x6c, 0x6e, 0x6f, 0x72, 0x73, 0x75, 0x79, 0x7a, 0x41, 0x43, 0x45, 0x49, 0x4c,
      0x4e, 0x4f, 0x52, 0x53, 0x55, 0x59, 0x5a],
     [0x27, 0xe1, 0x63, 0xe9, 0xed, 0x6c, 0x6e, 0xf3, 0x72, 0x73, 0xfa, 0xfd, 0x7a, 0xc1, 0x43, 0xc9, 0xcd, 0x4c,
      0x4e, 0xd3, 0x52, 0x53, 0xda, 0xdd, 0x5a],
     [0x27, 0xe1, 0xe6, 0xe9, 0xed, 0xe5, 0xf1, 0xf3, 0xe0, 0xb6, 0xfa, 0xfd, 0xbc, 0xc1, 0xc6, 0xc9, 0xcd, 0xc5,
      0xd1, 0xd3, 0xc0, 0xa6, 0xda, 0xdd, 0xac]),
    ([0x20, 0x61, 0x65, 0x69, 0x6f, 0x75, 0x41, 0x45, 0x49, 0x4f, 0x55],
     [0x5e, 0xe2, 0xea, 0xee, 0xf4, 0xfb, 0xc2, 0xca, 0xce, 0xd4, 0xdb],
     [0x5e, 0xe2, 0x65, 0xee, 0xf4, 0x75, 0xc2, 0x45, 0xce, 0xd4, 0x55]),
    ([0x20, 0x61, 0x6e, 0x6f, 0x41, 0x4e, 0x4f], [0x7e, 0xe3, 0xf1, 0xf5, 0xc3, 0xd1, 0xd5],
     [0x7e, 0x61, 0x6e, 0x6f, 0x41, 0x4e, 0x4f]),
    ([], [], []),
    ([0x61, 0x41], [0x61, 0x41], [0xe3, 0xc3]),
    ([0x7a, 0x5a], [0x7a, 0x5a], [0xbf, 0xaf]),
    ([0x61, 0x65, 0x69, 0x6f, 0x75, 0x41, 0x45, 0x49, 0x4f, 0x55],
     [0xe4, 0xeb, 0xef, 0xf6, 0xfc, 0xc4, 0xcb, 0xcf, 0xd6, 0xdc],
     [0xe4, 0xeb, 0x69, 0xf6, 0xfc, 0xc4, 0xcb, 0x49, 0xd6, 0xdc]),
    ([], [], []),
    ([0x20, 0x61, 0x75, 0x41, 0x55], [0xb0, 0xe5, 0x75, 0xc5, 0x55], [0xb0, 0x61, 0xf9, 0x41, 0xd9]),
    ([0x63, 0x73, 0x74, 0x43, 0x53, 0x54], [0xe7, 0x73, 0x74, 0xc7, 0x53, 0x54], [0xe7, 0xba, 0xfe, 0xc7, 0xaa, 0xde]),
    ([0x20], [0x5f], [0x5f]),
    ([0x20, 0x6f, 0x75, 0x4f, 0x55], [0x22, 0x6f, 0x75, 0x4f, 0x55], [0x22, 0xf5, 0xfb, 0xd5, 0xdb]),
    ([0x61, 0x65, 0x41, 0x45], [0x61, 0x65, 0x41, 0x45], [0xb1, 0xea, 0xa1, 0xca]),
    ([0x63, 0x64, 0x65, 0x6c, 0x6e, 0x72, 0x73, 0x74, 0x7a, 0x43, 0x44, 0x45, 0x4c, 0x4e, 0x52, 0x53, 0x54, 0x5a],
     [0x63, 0x64, 0x65, 0x6c, 0x6e, 0x72, 0x73, 0x74, 0x7a, 0x43, 0x44, 0x45, 0x4c, 0x4e, 0x52, 0x53, 0x54, 0x5a],
     [0xe8, 0xef, 0xec, 0xb5, 0xf2, 0xf8, 0xb9, 0xbb, 0xbe, 0xc8, 0xcf, 0xcc, 0xa5, 0xd2, 0xd8, 0xa9, 0xab, 0xae])]

def g2mapLatin1 : List UInt8 :=
  [0x20, 0xa1, 0xa2, 0xa3, 0x24, 0xa5, 0x23, 0xa7, 0xa4, 0x27, 0x22, 0xab, 0x20, 0x20, 0x20, 0x20, 0xb0, 0xb1,
   0xb2, 0xb3, 0xd7, 0xb5, 0xb6, 0xb7, 0xf7, 0x27, 0x22, 0xbb, 0xbc, 0xbd, 0xbe, 0xbf, 0x20, 0x60, 0xb4, 0x5e,
   0x7e, 0x20, 0x20, 0x20, 0xa8, 0x2e, 0xb0, 0xb8, 0x5f, 0x22, 0x20, 0x20, 0x5f, 0xb9, 0xae, 0xa9, 0x20, 0x20,
   0x20, 0x20, 0x20, 0x20, 0x20, 0x20, 0x20, 0x20, 0x20, 0x20, 0x20, 0xc6, 0xd0, 0xaa, 0x48, 0x20, 0x49, 0x4c,
   0x4c, 0xd8, 0x20, 0xba, 0xde, 0x54, 0x4e, 0x6e, 0x4b, 0xe6, 0x64, 0xf0, 0x68, 0x69, 0x69, 0x6c, 0x6c, 0xf8,
   0x20, 0xdf, 0xfe, 0x74, 0x6e, 0x7f]

def g2mapLatin2 : List UInt8 :=
  [0x20, 0x69, 0x63, 0x4c, 0x24, 0x59, 0x23, 0xa7, 0xa4, 0x27, 0x22, 0x3c, 0x20, 0x20, 0x20, 0x20, 0xb0, 0x20,
   0x20, 0x20, 0xd7, 0x75, 0x20, 0x20, 0xf7, 0x27, 0x22, 0x3e, 0x20, 0x20, 0x20, 0x20, 0x20, 0x60, 0xb4, 0x5e,
   0x7e, 0x20, 0xa2, 0xff, 0xa8, 0x2e, 0xb0, 0xb8, 0x5f, 0xbd, 0xb2, 0xb7, 0x2d, 0x20, 0x52, 0x43, 0x20, 0x20,
   0x20, 0x20, 0x20, 0x20, 0x20, 0x20, 0x20, 0x20, 0x20, 0x20, 0x20, 0x20, 0xd0, 0x61, 0x48, 0x20, 0x69, 0x4c,
   0xa3, 0x4f, 0x20, 0x6f, 0x70, 0x54, 0x4e, 0x6e, 0x4b, 0x20, 0xf0, 0x64, 0x68, 0x69, 0x69, 0x6c, 0xb3, 0x6f,
   0x20, 0xdf, 0x70, 0x74, 0x6e, 0x7f]

def l2koi : List UInt8 :=
  [0xe0, 0xe1, 0xe2, 0xe3, 0xe4, 0xe5, 0xe6, 0xe7, 0xe8, 0xe9, 0xea, 0xeb, 0xec, 0xed, 0xee, 0xef, 0xf0, 0xf1,
   0xf2, 0xf3, 0xf4, 0xf5, 0xf6, 0xf7, 0xf8, 0xff, 0xfa, 0xfb, 0xfc, 0xfd, 0xfe, 0xf9, 0xc0, 0xc1, 0xc2, 0xc3,
   0xc4, 0xc5, 0xc6, 0xc7, 0xc8, 0xc9, 0xca, 0xcb, 0xcc, 0xcd, 0xce, 0xcf, 0xd0, 0xd1, 0xd2, 0xd3, 0xd4, 0xd5,
   0xd6, 0xd7, 0xd8, 0xd9, 0xda, 0xdb, 0xdc, 0xdd, 0xde, 0xdf]

def l2greek : List UInt8 :=
  [0xc0, 0xc1, 0xc2, 0xc3, 0xc4, 0xc5, 0xc6, 0xc7, 0xc8, 0xc9, 0xca, 0xcb, 0xcc, 0xcd, 0xce, 0xcf, 0xd0, 0xd1,
   0x52, 0xd3, 0xd4, 0xd5, 0xd6, 0xd7, 0xd8, 0xd9, 0x5a, 0x5b, 0xdc, 0xdd, 0xde, 0xdf, 0x60, 0xe1, 0xe2, 0xe3,
   0xe4, 0xe5, 0xe6, 0xe7, 0xe8, 0xe9, 0xea, 0xeb, 0xec, 0xed, 0xee, 0xef, 0xf0, 0xf1, 0xf2, 0xf3, 0xf4, 0xf5,
   0xf6, 0xf7, 0xf8, 0xf9, 0xc0, 0x7b, 0xfc, 0xfd, 0xfe, 0x7f]

/-- `lang_char[c]`, as `lang_init` fills it. -/
def langChar (c : UInt8) : ℕ :=
  (List.range' 1 13).foldl (fun n i => if (langChars.getD 0 []).getD i 0 = c then i else n) 0

/-- `conv2koi8` -/
def conv2koi8 (c : UInt8) : UInt8 :=
  if c = 0x26 then 0xd9
  else if c ≥ 0x40 ∧ c ≤ 0x7f then l2koi.getD ((c &&& 0x7f).toNat - 0x40) 0
  else c

/-- `conv2greek` -/
def conv2greek (c : UInt8) : UInt8 :=
  if c ≥ 0x40 ∧ c ≤ 0x7f then l2greek.getD ((c &&& 0x7f).toNat - 0x40) 0 else c

def isGreek (env : LangEnv) (c : UInt8) : Bool := env.isalpha (c ||| 0x80).toNat

def isKoi (env : LangEnv) (c : UInt8) : Bool := env.isalpha (c ||| 0x80).toNat || c = 0x26

/-- A row in mosaics or not, and what a control character makes of it. -/
def nextGfx (gfx : Bool) (c : UInt8) : Bool := if c &&& 0xe8 = 0 then c &&& 0x10 ≠ 0 else gfx

/-- The loop of `conv2latin` for Russian and Greek; `lat` is whether ESC switched to latin letters. -/
def convOther (letter : UInt8 → Bool) (conv : UInt8 → UInt8) : Bool → Bool → List UInt8 → List UInt8
  | _, _, [] => []
  | gfx, lat, c :: rest =>
    let lat := if c = 0x1b then !lat else lat
    if letter c then
      (if (!gfx || c &&& 0xa0 ≠ 0x20) && !lat then conv c else c) :: convOther letter conv gfx lat rest
    else c :: convOther letter conv (nextGfx gfx c) lat rest

/-- The loop of `conv2latin` for all other languages. -/
def convLatin (lang : ℕ) : Bool → List UInt8 → List UInt8
  | _, [] => []
  | gfx, c :: rest =>
    if langChar c ≠ 0 then
      (if !gfx || c &&& 0xa0 ≠ 0x20 then (langChars.getD (lang + 1) []).getD (langChar c) 0 else c) :: convLatin lang gfx rest
    else c :: convLatin lang (nextGfx gfx c) rest

/-- `conv2latin` -/
def conv2latin (env : LangEnv) (lang : ℤ) (p : List UInt8) : List UInt8 :=
  if env.latin1 = KOI8 ∧ lang = 12 then convOther (isKoi env) conv2koi8 false false p
  else if env.latin1 = GREEK ∧ lang = 15 then convOther (isGreek env) conv2greek false false p
  else convLatin lang.toNat false p

/-- `struct enhance` -/
structure Enhance where
  nextDes : ℤ
  trip : ℕ → ℕ

/-- `init_enhance` -/
def initEnhance (eh : Enhance) : Enhance := { eh with nextDes := 0 }

/-- `add_enhance` -/
def addEnhance (eh : Enhance) (dcode : ℕ) (t : List ℕ) : Enhance :=
  if (dcode : ℤ) = eh.nextDes then
    { nextDes := eh.nextDes + 1
      trip := fun i => if dcode * 13 ≤ i ∧ i < dcode * 13 + 13 then t.getD (i - dcode * 13) 0 else eh.trip i }
  else { eh with nextDes := -1 }

/-- `vtp->data[row][adr] = c` -/
def VtPage.setCell (vtp : VtPage) (row adr : ℕ) (c : UInt8) : VtPage :=
  { vtp with data := fun l k => if l.val = row ∧ k.val = adr then c else vtp.data l k }

/-- `strchr`, which finds the end of the string too. -/
def strchr (s : List UInt8) (c : UInt8) : Option ℕ := (s ++ [0]).findIdx? (· = c)

/-- A character of the G2 set; nothing is put where the font is neither of the two. -/
def g2Char (env : LangEnv) (data : ℕ) : Option UInt8 :=
  if env.latin1 = LATIN1 then some (if data < 32 then env.outside ((data : ℤ) - 32) else g2mapLatin1.getD (data - 32) 0)
  else if env.latin1 = LATIN2 then some (if data < 32 then env.outside ((data : ℤ) - 32) else g2mapLatin2.getD (data - 32) 0)
  else none

/-- A character of the G0 set with a mark. -/
def markedChar (env : LangEnv) (mark : List UInt8 × List UInt8 × List UInt8) (data : ℕ) : UInt8 :=
  match strchr mark.1 (UInt8.ofNat data) with
  | none => UInt8.ofNat data
  | some x =>
    if env.latin1 = LATIN1 then mark.2.1.getD x 0
    else if env.latin1 = LATIN2 then mark.2.2.getD x 0
    else UInt8.ofNat data

def enhanceTriplet (env : LangEnv) (st : ℕ × VtPage) (t : ℕ) : ℕ × VtPage :=
  if t % 2048 = 2047 then st
  else
    let adr := t % 64
    let mode := t / 64 % 32
    let data := t / 2048 % 128
    if adr < 40 then
      if mode = 15 then
        match g2Char env data with
        | some c => (st.1, st.2.setCell st.1 adr c)
        | none => st
      else if 16 ≤ mode then (st.1, st.2.setCell st.1 adr (markedChar env (marks.getD (mode - 16) ([], [], [])) data))
      else st
    else
      let adr := if adr - 40 = 0 then 24 else adr - 40
      if mode = 1 ∨ mode = 4 then (adr, st.2)
      else if mode = 7 ∧ adr = 23 then (0, st.2)
      else st

/-- `enhance` -/
def enhance (env : LangEnv) (eh : Enhance) (vtp : VtPage) : VtPage :=
  if eh.nextDes < 1 then vtp
  else (((List.range (eh.nextDes.toNat * 13)).map eh.trip).foldl (enhanceTriplet env) (0, vtp)).2

section Lang

variable {env : LangEnv}

def VtPage.withData (vtp : VtPage) (data : Fin 25 → Fin 40 → UInt8) : VtPage := { vtp with data := data }

theorem enhanceTriplet_cells (st : ℕ × VtPage) (t : ℕ) : ∃ data, (enhanceTriplet env st t).2 = st.2.withData data := by
  unfold enhanceTriplet
  dsimp only
  split
  · exact ⟨st.2.data, rfl⟩
  · split
    · split
      · cases g2Char env (t / 2048 % 128) with
        | none => exact ⟨st.2.data, rfl⟩
        | some c => exact ⟨_, rfl⟩
      · split
        · exact ⟨_, rfl⟩
        · exact ⟨st.2.data, rfl⟩
    · generalize (if t % 64 - 40 = 0 then 24 else t % 64 - 40) = adr
      split
      · exact ⟨st.2.data, rfl⟩
      · split <;> exact ⟨st.2.data, rfl⟩

theorem enhance_cells (eh : Enhance) (vtp : VtPage) : ∃ data, enhance env eh vtp = vtp.withData data := by
  have hfold : ∀ (l : List ℕ) (st : ℕ × VtPage), ∃ data, (l.foldl (enhanceTriplet env) st).2 = st.2.withData data := by
    intro l
    induction l with
    | nil => exact fun st => ⟨st.2.data, rfl⟩
    | cons t l ih =>
      intro st
      obtain ⟨data, hdata⟩ := @enhanceTriplet_cells env st t
      obtain ⟨data', hdata'⟩ := ih (enhanceTriplet env st t)
      exact ⟨data', by rw [List.foldl_cons, hdata', hdata]; rfl⟩
  unfold enhance
  split
  · exact ⟨vtp.data, rfl⟩
  · exact hfold _ (0, vtp)

theorem enhance_start {eh : Enhance} (h : eh.nextDes = 0) (vtp : VtPage) : enhance env eh vtp = vtp := by
  rw [enhance, if_pos (by omega)]

end Lang

end BgtDvb.Alevt
