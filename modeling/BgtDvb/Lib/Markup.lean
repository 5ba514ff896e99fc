import Mathlib

/-!
# Readers of marked-up text

A reader takes the bytes of a text with tags and references one after another. What it has read is text, and the tags that
were closed. A reference ends with a semicolon or with the first byte that cannot belong to its name.

* `Ends`, `readByte_ends` — bytes behind which nothing is pending from before;
* `Behind` — **PROVED** to be kept: a state that has another text in front of the text of another state;
* `read_reference`, `read_tag` — **PROVED**: how references and tags are read;
* `Plain`, `not_plain_shorter` — **PROVED**: bytes that are not read as themselves are read as fewer bytes.

Nothing here names a particular document.
-/

namespace BgtDvb.Markup

/-! ### The reader -/

def less : UInt8 := 0x3c

def greater : UInt8 := 0x3e

def ampersand : UInt8 := 0x26

def semicolon : UInt8 := 0x3b

def slash : UInt8 := 0x2f

def Letter (c : UInt8) : Prop := 0x41 ≤ c ∧ c ≤ 0x5a ∨ 0x61 ≤ c ∧ c ≤ 0x7a

instance (c : UInt8) : Decidable (Letter c) := inferInstanceAs (Decidable (_ ∧ _ ∨ _ ∧ _))

/-- A byte that makes of `<` the start of a tag: a letter, a slash, or a mark. -/
def TagByte (c : UInt8) : Prop := Letter c ∨ c = slash ∨ c = 0x21 ∨ c = 0x3f

instance (c : UInt8) : Decidable (TagByte c) := inferInstanceAs (Decidable (_ ∨ _ ∨ _ ∨ _))

/-- A byte of the name of a reference: a letter, a digit, or the sign of a number. -/
def NameByte (c : UInt8) : Prop := Letter c ∨ 0x30 ≤ c ∧ c ≤ 0x39 ∨ c = 0x23

instance (c : UInt8) : Decidable (NameByte c) := inferInstanceAs (Decidable (_ ∨ _ ∧ _ ∨ _))

/-- What the names of references stand for; never for more bytes than they have. -/
structure Reader where
  entity : List UInt8 → Option (List UInt8)
  shorter : ∀ name text, entity name = some text → text.length ≤ name.length

inductive Mode
  | text
  /-- Behind `<`. -/
  | opened
  | tag
  /-- Behind `&` and some bytes of a name. -/
  | ref (name : List UInt8)
  deriving DecidableEq

structure State where
  text : List UInt8
  mode : Mode
  /-- The tag that is read. -/
  tag : List UInt8
  /-- The tags before. -/
  tags : List (List UInt8)
  deriving DecidableEq

def start : State := ⟨[], .text, [], []⟩

/-- A byte of the text. -/
def State.take (s : State) (c : UInt8) : State :=
  if c = less then { s with mode := .opened }
  else if c = ampersand then { s with mode := .ref [] }
  else { s with text := s.text ++ [c], mode := .text }

variable (r : Reader)

/-- The text of a reference; an unknown one is text itself. -/
def Reader.resolve (name : List UInt8) : List UInt8 := (r.entity name).getD (ampersand :: name)

/-- The state when what is pending has come to its end. -/
def settle (s : State) : State :=
  match s.mode with
  | .text => s
  | .opened => { s with text := s.text ++ [less], mode := .text }
  | .tag => s
  | .ref name => { s with text := s.text ++ r.resolve name, mode := .text }

/-- One byte. -/
def readByte (s : State) (c : UInt8) : State :=
  match s.mode with
  | .text => s.take c
  | .opened => if TagByte c then { s with mode := .tag, tag := [c] } else (settle r s).take c
  | .tag =>
    if c = greater then { s with mode := .text, tag := [], tags := s.tags ++ [s.tag] } else { s with tag := s.tag ++ [c] }
  | .ref name =>
    if NameByte c then { s with mode := .ref (name ++ [c]) }
    else if c = semicolon ∧ (r.entity name).isSome then settle r s
    else (settle r s).take c

/-- Bytes one after another. -/
def read (s : State) (bytes : List UInt8) : State := bytes.foldl (readByte r) s

/-- Bytes that are read as themselves. -/
def Plain (w : List UInt8) : Prop := (settle r (read r start w)).text = w

instance (w : List UInt8) : Decidable (Plain r w) := inferInstanceAs (Decidable (_ = _))

variable {r} {s s' : State} {c : UInt8}

theorem read_nil (s : State) : read r s [] = s := rfl

theorem read_cons (s : State) (c : UInt8) (w : List UInt8) : read r s (c :: w) = read r (readByte r s c) w := rfl

theorem read_append (s : State) (v w : List UInt8) : read r s (v ++ w) = read r (read r s v) w := List.foldl_append

theorem readByte_text (h : s.mode = .text) : readByte r s c = s.take c := by simp only [readByte, h]

theorem readByte_opened (h : s.mode = .opened) :
    readByte r s c = if TagByte c then { s with mode := .tag, tag := [c] } else (settle r s).take c := by simp only [readByte, h]

theorem readByte_tag (h : s.mode = .tag) : readByte r s c =
    if c = greater then { s with mode := .text, tag := [], tags := s.tags ++ [s.tag] }
    else { s with tag := s.tag ++ [c] } := by simp only [readByte, h]

variable {name w : List UInt8} {ts : List (List UInt8)}

theorem readByte_ref (h : s.mode = .ref name) : readByte r s c =
    if NameByte c then { s with mode := .ref (name ++ [c]) }
    else if c = semicolon ∧ (r.entity name).isSome then settle r s
    else (settle r s).take c := by simp only [readByte, h]

theorem settle_text (h : s.mode = .text) : settle r s = s := by simp only [settle, h]

theorem settle_opened (h : s.mode = .opened) : settle r s = { s with text := s.text ++ [less], mode := .text } := by
  simp only [settle, h]

theorem settle_tag (h : s.mode = .tag) : settle r s = s := by simp only [settle, h]

theorem settle_ref (h : s.mode = .ref name) :
    settle r s = { s with text := s.text ++ r.resolve name, mode := .text } := by simp only [settle, h]

/-! ### Where nothing is pending -/

/-- Nothing is pending that the next byte could belong to. -/
def State.Settled (s : State) : Prop := s.mode = .text ∨ s.mode = .tag

theorem settled_settle (r : Reader) (s : State) : (settle r s).Settled := by
  cases h : s.mode with
  | text =>
    rw [settle_text h]
    exact .inl h
  | opened =>
    rw [settle_opened h]
    exact .inl rfl
  | tag =>
    rw [settle_tag h]
    exact .inr h
  | ref name =>
    rw [settle_ref h]
    exact .inl rfl

theorem State.Settled.settle (h : s.Settled) : settle r s = s := by
  rcases h with htext | htag
  · exact settle_text htext
  · exact settle_tag htag

theorem settle_tags (r : Reader) (s : State) : (settle r s).tags = s.tags := by
  cases h : s.mode with
  | text => rw [settle_text h]
  | opened => rw [settle_opened h]
  | tag => rw [settle_tag h]
  | ref name => rw [settle_ref h]

/-- A byte that ends what is pending, and stands for itself. -/
def Ends (c : UInt8) : Prop := ¬TagByte c ∧ ¬NameByte c ∧ c ≠ semicolon

instance (c : UInt8) : Decidable (Ends c) := inferInstanceAs (Decidable (_ ∧ _ ∧ _))

theorem ends_less : Ends less := by decide

theorem ends_ampersand : Ends ampersand := by decide

theorem readByte_ends (hc : Ends c) (s : State) : readByte r s c = readByte r (settle r s) c := by
  cases h : s.mode with
  | text => rw [settle_text h]
  | opened =>
    have hmode : (settle r s).mode = .text := by rw [settle_opened h]
    rw [readByte_opened h, if_neg hc.1, readByte_text hmode]
  | tag => rw [settle_tag h]
  | ref name =>
    have hmode : (settle r s).mode = .text := by rw [settle_ref h]
    rw [readByte_ref h, if_neg hc.2.1, if_neg fun hsemi => hc.2.2 hsemi.1, readByte_text hmode]

/-! ### A text in front -/

/-- The state `s` is the state `s'` behind a text and tags. -/
structure Behind (text : List UInt8) (tags : List (List UInt8)) (s s' : State) : Prop where
  text : s.text = text ++ s'.text
  mode : s.mode = s'.mode
  tags : ∃ u, s.tags = tags ++ u ∧ u.length = s'.tags.length

section Behind

variable {text : List UInt8} {tags : List (List UInt8)}

theorem Behind.take (h : Behind text tags s s') (c : UInt8) : Behind text tags (s.take c) (s'.take c) := by
  obtain ⟨htext, hmode, htags⟩ := h
  unfold State.take
  split
  · exact ⟨htext, rfl, htags⟩
  · split
    · exact ⟨htext, rfl, htags⟩
    · refine ⟨?_, rfl, htags⟩
      show s.text ++ [c] = text ++ (s'.text ++ [c])
      rw [htext, List.append_assoc]

theorem Behind.settle (h : Behind text tags s s') : Behind text tags (settle r s) (settle r s') := by
  obtain ⟨htext, hmode, htags⟩ := h
  cases hm : s'.mode with
  | text =>
    rw [settle_text hm, settle_text (hmode.trans hm)]
    exact ⟨htext, hmode, htags⟩
  | opened =>
    rw [settle_opened hm, settle_opened (hmode.trans hm)]
    exact ⟨by rw [htext, List.append_assoc], rfl, htags⟩
  | tag =>
    rw [settle_tag hm, settle_tag (hmode.trans hm)]
    exact ⟨htext, hmode, htags⟩
  | ref name =>
    rw [settle_ref hm, settle_ref (hmode.trans hm)]
    exact ⟨by rw [htext, List.append_assoc], rfl, htags⟩

theorem Behind.readByte (h : Behind text tags s s') (c : UInt8) : Behind text tags (readByte r s c) (readByte r s' c) := by
  have hsettle := h.settle (r := r)
  obtain ⟨htext, hmode, u, hu, hlen⟩ := h
  cases hm : s'.mode with
  | text =>
    rw [readByte_text hm, readByte_text (hmode.trans hm)]
    exact Behind.take ⟨htext, hmode, u, hu, hlen⟩ c
  | opened =>
    rw [readByte_opened hm, readByte_opened (hmode.trans hm)]
    split
    · exact ⟨htext, rfl, u, hu, hlen⟩
    · exact hsettle.take c
  | tag =>
    rw [readByte_tag hm, readByte_tag (hmode.trans hm)]
    split
    · refine ⟨htext, rfl, u ++ [s.tag], ?_, ?_⟩
      · show s.tags ++ [s.tag] = tags ++ (u ++ [s.tag])
        rw [hu, List.append_assoc]
      · show (u ++ [s.tag]).length = (s'.tags ++ [s'.tag]).length
        rw [List.length_append, List.length_append, hlen]
        rfl
    · exact ⟨htext, hmode, u, hu, hlen⟩
  | ref name =>
    rw [readByte_ref hm, readByte_ref (hmode.trans hm)]
    split
    · exact ⟨htext, rfl, u, hu, hlen⟩
    · split
      · exact hsettle
      · exact hsettle.take c

theorem Behind.refl (s : State) : Behind [] [] s s := ⟨rfl, rfl, s.tags, rfl, rfl⟩

end Behind

/-! ### References and tags -/

theorem read_tag_mode (h : s.mode = .tag) (hw : ∀ c ∈ w, c ≠ greater) : read r s w = { s with tag := s.tag ++ w } := by
  induction w generalizing s with
  | nil =>
    show s = { s with tag := s.tag ++ [] }
    rw [List.append_nil]
  | cons c w ih =>
    obtain ⟨hc, hw⟩ := List.forall_mem_cons.mp hw
    rw [read_cons, readByte_tag h, if_neg hc, ih (by exact h) hw]
    show { s with tag := s.tag ++ [c] ++ w } = _
    rw [List.append_assoc]
    rfl

theorem read_name {first : List UInt8} (h : s.mode = .ref first) (hname : ∀ c ∈ name, NameByte c) :
    read r s name = { s with mode := .ref (first ++ name) } := by
  induction name generalizing s first with
  | nil =>
    show s = { s with mode := .ref (first ++ []) }
    rw [List.append_nil, ← h]
  | cons c name ih =>
    obtain ⟨hc, hname⟩ := List.forall_mem_cons.mp hname
    rw [read_cons, readByte_ref h, if_pos hc, ih rfl hname]
    show { s with mode := Mode.ref (first ++ [c] ++ name) } = _
    rw [List.append_assoc]
    rfl

theorem read_reference (s : State) (hname : ∀ c ∈ name, NameByte c ∧ c ≠ greater) :
    ((settle r s).mode = .text → read r s (ampersand :: name) = { settle r s with mode := .ref name })
      ∧ ((settle r s).mode = .tag →
        read r s (ampersand :: name) = { settle r s with tag := (settle r s).tag ++ ampersand :: name }) := by
  rw [read_cons, readByte_ends ends_ampersand]
  constructor
  · intro h
    rw [readByte_text h]
    have htake : (settle r s).take ampersand = { settle r s with mode := .ref [] } := rfl
    rw [htake, read_name (by rfl) fun c hc => (hname c hc).1]
    rfl
  · intro h
    rw [← read_cons]
    exact read_tag_mode h (List.forall_mem_cons.mpr ⟨by decide, fun c hc => (hname c hc).2⟩)

/-- The bytes of a tag. -/
def tagBytes (t : List UInt8) : List UInt8 := less :: t ++ [greater]

/-- What stands in a tag. -/
structure IsTag (t : List UInt8) : Prop where
  first : ∃ c ∈ t.head?, TagByte c
  rest : ∀ c ∈ t, c ≠ greater

theorem read_tag {t : List UInt8} (ht : IsTag t) (h : (settle r s).mode = .text) :
    read r s (tagBytes t) = { settle r s with mode := .text, tag := [], tags := (settle r s).tags ++ [t] } := by
  obtain ⟨⟨c, hc, hbyte⟩, hrest⟩ := ht
  cases t with
  | nil => exact absurd hc (Option.not_mem_none c)
  | cons d t =>
    obtain rfl : d = c := Option.some.inj hc
    obtain ⟨-, hrest⟩ := List.forall_mem_cons.mp hrest
    have hopened : readByte r (settle r s) less = { settle r s with mode := .opened } := by
      rw [readByte_text h]
      exact if_pos rfl
    have hmode : ({ settle r s with mode := .opened } : State).mode = .opened := rfl
    rw [tagBytes, List.cons_append, List.cons_append, read_cons, readByte_ends ends_less, hopened, read_cons, readByte_opened hmode,
      if_pos hbyte, read_append, read_tag_mode rfl hrest, read_cons, readByte_tag rfl, if_pos rfl, read_nil]
    rfl

theorem read_tag_text {t : List UInt8} (ht : IsTag t) (s : State) :
    (read r s (tagBytes t)).text = (settle r s).text ∧ (read r s (tagBytes t)).mode = .text := by
  rcases settled_settle r s with h | h
  · rw [read_tag ht h]
    exact ⟨rfl, rfl⟩
  · have hw : ∀ c ∈ less :: t, c ≠ greater := List.forall_mem_cons.mpr ⟨by decide, ht.rest⟩
    rw [tagBytes, List.cons_append, read_cons, readByte_ends ends_less, ← read_cons, ← List.cons_append, read_append,
      read_tag_mode h hw, read_cons, readByte_tag (by exact h), if_pos rfl, read_nil]
    exact ⟨rfl, rfl⟩

theorem settle_settle (r : Reader) (s : State) : settle r (settle r s) = settle r s := (settled_settle r s).settle

theorem read_tags_text (hts : ∀ t ∈ ts, IsTag t) (s : State) :
    (settle r (read r s (ts.flatMap tagBytes))).text = (settle r s).text := by
  induction ts generalizing s with
  | nil => rfl
  | cons t ts ih =>
    obtain ⟨ht, hts⟩ := List.forall_mem_cons.mp hts
    obtain ⟨htext, hmode⟩ := read_tag_text ht s
    rw [List.flatMap_cons, read_append, ih hts, settle_text hmode, htext]

theorem read_tags_mode (hts : ∀ t ∈ ts, IsTag t) (hne : ts ≠ []) (s : State) :
    (read r s (ts.flatMap tagBytes)).mode = .text := by
  rcases List.eq_nil_or_concat ts with rfl | ⟨front, t, rfl⟩
  · exact absurd rfl hne
  · rw [List.concat_eq_append, List.flatMap_append, read_append, List.flatMap_singleton]
    exact (read_tag_text (hts t (by simp)) _).2

theorem read_tags (hts : ∀ t ∈ ts, IsTag t) (h : (settle r s).mode = .text) :
    (settle r (read r s (ts.flatMap tagBytes))).mode = .text
      ∧ (settle r (read r s (ts.flatMap tagBytes))).tags = s.tags ++ ts := by
  induction ts generalizing s with
  | nil => exact ⟨h, (settle_tags r s).trans (List.append_nil _).symm⟩
  | cons t ts ih =>
    obtain ⟨ht, hts⟩ := List.forall_mem_cons.mp hts
    obtain ⟨-, hmode⟩ := read_tag_text (r := r) ht s
    have hsettled : (settle r (read r s (tagBytes t))).mode = .text := by rw [settle_text hmode, hmode]
    have htags : (read r s (tagBytes t)).tags = s.tags ++ [t] := by
      rw [read_tag ht h]
      exact congrArg (· ++ [t]) (settle_tags r s)
    obtain ⟨hm, ht'⟩ := ih hts hsettled
    rw [List.flatMap_cons, read_append]
    exact ⟨hm, by rw [ht', htags, List.append_assoc]; rfl⟩

/-! ### How much text is read -/

/-- The bytes that are pending. -/
def Mode.pending : Mode → List UInt8
  | .text => []
  | .opened => [less]
  | .tag => []
  | .ref name => ampersand :: name

/-- The text with what is pending as it stands. -/
def State.raw (s : State) : List UInt8 := s.text ++ s.mode.pending

theorem State.Settled.raw (h : s.Settled) : s.raw = s.text := by
  unfold State.raw
  rcases h with htext | htag
  · rw [htext]
    exact List.append_nil _
  · rw [htag]
    exact List.append_nil _

theorem resolve_length (r : Reader) (name : List UInt8) :
    r.resolve name = ampersand :: name ∨ (r.resolve name).length < (ampersand :: name).length := by
  unfold Reader.resolve
  cases h : r.entity name with
  | none => exact .inl rfl
  | some text => exact .inr (Nat.lt_succ_of_le (r.shorter name text h))

theorem settle_raw (r : Reader) (s : State) :
    (settle r s).text = s.raw ∨ (settle r s).text.length < s.raw.length := by
  unfold State.raw
  cases h : s.mode with
  | text =>
    rw [settle_text h]
    exact .inl (List.append_nil _).symm
  | opened =>
    rw [settle_opened h]
    exact .inl rfl
  | tag =>
    rw [settle_tag h]
    exact .inl (List.append_nil _).symm
  | ref name =>
    rw [settle_ref h]
    rcases resolve_length r name with heq | hlt
    · exact .inl (congrArg (s.text ++ ·) heq)
    · refine .inr ?_
      show (s.text ++ r.resolve name).length < _
      rw [List.length_append, List.length_append]
      exact Nat.add_lt_add_left hlt _

theorem settle_length (r : Reader) (s : State) : (settle r s).text.length ≤ s.raw.length := by
  rcases settle_raw r s with heq | hlt
  · rw [heq]
  · exact hlt.le

theorem take_raw (s : State) (c : UInt8) : (s.take c).raw = s.text ++ [c] := by
  unfold State.take State.raw
  split
  next h => rw [h]; rfl
  · split
    next h => rw [h]; rfl
    · exact List.append_nil _

theorem take_tags (s : State) (c : UInt8) : (s.take c).tags = s.tags ∧ (s.take c).mode ≠ .tag := by
  unfold State.take
  split
  · exact ⟨rfl, nofun⟩
  · split
    · exact ⟨rfl, nofun⟩
    · exact ⟨rfl, nofun⟩

/-- A byte that was read as it stands there. -/
structure Literal (s : State) (c : UInt8) (s' : State) : Prop where
  raw : s'.raw = s.raw ++ [c]
  tags : s'.tags = s.tags
  mode : s'.mode ≠ .tag

theorem settle_take (r : Reader) (s : State) (c : UInt8) :
    Literal s c ((settle r s).take c) ∨ ((settle r s).take c).raw.length ≤ s.raw.length := by
  obtain ⟨htags, hmode⟩ := take_tags (settle r s) c
  have hraw := take_raw (settle r s) c
  rcases settle_raw r s with heq | hlt
  · exact .inl ⟨by rw [hraw, heq], by rw [htags, settle_tags], hmode⟩
  · rw [hraw, List.length_append]
    exact .inr hlt

theorem readByte_raw (r : Reader) (s : State) (c : UInt8) :
    Literal s c (readByte r s c) ∨ (readByte r s c).raw.length ≤ s.raw.length := by
  have htake := settle_take r s c
  cases h : s.mode with
  | text =>
    rw [settle_text h] at htake
    rw [readByte_text h]
    exact htake
  | opened =>
    rw [readByte_opened h]
    split
    · refine .inr ?_
      show (s.text ++ []).length ≤ (s.text ++ s.mode.pending).length
      rw [List.length_append, List.length_append]
      exact Nat.add_le_add_left (Nat.zero_le _) _
    · exact htake
  | tag =>
    have hraw : s.raw = s.text := State.Settled.raw (.inr h)
    rw [readByte_tag h, hraw]
    split
    · exact .inr (congrArg List.length (List.append_nil s.text)).le
    · refine .inr ?_
      show (s.text ++ s.mode.pending).length ≤ _
      rw [h]
      exact (congrArg List.length (List.append_nil s.text)).le
  | ref name =>
    rw [readByte_ref h]
    split
    · refine .inl ⟨?_, rfl, nofun⟩
      show s.text ++ ampersand :: (name ++ [c]) = s.text ++ s.mode.pending ++ [c]
      rw [h, List.append_assoc]
      rfl
    · split
      · have hsettled := (settled_settle r s).raw
        rw [hsettled]
        exact .inr (settle_length r s)
      · exact htake

theorem readByte_raw_length (r : Reader) (s : State) (c : UInt8) : (readByte r s c).raw.length ≤ s.raw.length + 1 := by
  rcases readByte_raw r s c with hlit | hle
  · rw [hlit.raw, List.length_append]
    exact le_rfl
  · exact hle.trans (Nat.le_succ _)

theorem read_raw (r : Reader) (w : List UInt8) :
    ((read r start w).raw = w ∧ (read r start w).tags = [] ∧ (read r start w).mode ≠ .tag)
      ∨ (read r start w).raw.length < w.length := by
  induction w using List.reverseRecOn with
  | nil => exact .inl ⟨rfl, rfl, nofun⟩
  | append_singleton w c ih =>
    have hlast : read r start (w ++ [c]) = readByte r (read r start w) c := read_append start w [c]
    rw [hlast, List.length_append]
    rcases ih with ⟨hraw, htags, -⟩ | hlt
    · rcases readByte_raw r (read r start w) c with hlit | hle
      · exact .inl ⟨by rw [hlit.raw, hraw], hlit.tags.trans htags, hlit.mode⟩
      · refine .inr (hle.trans_lt ?_)
        rw [hraw]
        exact Nat.lt_succ_self _
    · exact .inr ((readByte_raw_length r _ c).trans_lt (Nat.succ_lt_succ hlt))

theorem read_length (r : Reader) (s : State) (w : List UInt8) :
    (settle r (read r s w)).text.length ≤ s.raw.length + w.length := by
  refine (settle_length r _).trans ?_
  induction w generalizing s with
  | nil => exact le_rfl
  | cons c w ih =>
    have hstep := readByte_raw_length r s c
    have hrest := ih (readByte r s c)
    rw [read_cons, List.length_cons]
    omega

/-- **PROVED**: bytes that are not read as themselves are read as fewer. -/
theorem not_plain_shorter (hw : ¬Plain r w) : (settle r (read r start w)).text.length < w.length := by
  rcases read_raw r w with ⟨hraw, -, -⟩ | hlt
  · rcases settle_raw r (read r start w) with heq | hshort
    · exact absurd (heq.trans hraw) hw
    · rwa [hraw] at hshort
  · exact (settle_length r _).trans_lt hlt

theorem Plain.no_tags (hw : Plain r w) :
    (settle r (read r start w)).mode = .text ∧ (settle r (read r start w)).tags = [] := by
  rcases read_raw r w with ⟨-, htags, hmode⟩ | hlt
  · refine ⟨?_, (settle_tags r _).trans htags⟩
    rcases settled_settle r (read r start w) with htext | htag
    · exact htext
    · cases h : (read r start w).mode with
      | tag => exact absurd h hmode
      | text => rw [settle_text h, h]
      | opened => rw [settle_opened h]
      | ref name => rw [settle_ref h]
  · have hle := (settle_length r (read r start w)).trans_lt hlt
    rw [show (settle r (read r start w)).text = w from hw] at hle
    exact absurd hle (lt_irrefl _)

/-! ### Tags that are closed -/

/-- The name of a tag. -/
def tagName (t : List UInt8) : List UInt8 := t.takeWhile (· ≠ 0x20)

/-- The tags that are open after some more; a tag that is closed must be the last one. -/
def balance (void : List (List UInt8)) : List (List UInt8) → List (List UInt8) → Option (List (List UInt8))
  | unclosed, [] => some unclosed
  | unclosed, t :: tags =>
    if t.head? = some slash then
      if unclosed.head? = some t.tail then balance void unclosed.tail tags else none
    else if t ∈ void then balance void unclosed tags
    else balance void (tagName t :: unclosed) tags

/-- Every tag is closed. -/
def Balanced (void tags : List (List UInt8)) : Prop := balance void [] tags = some []

theorem balance_append (void unclosed tags tags' : List (List UInt8)) :
    balance void unclosed (tags ++ tags') = (balance void unclosed tags).bind fun u => balance void u tags' := by
  induction tags generalizing unclosed with
  | nil => rfl
  | cons t tags ih =>
    rw [List.cons_append, balance, balance]
    split
    · split
      · exact ih _
      · rfl
    · split
      · exact ih _
      · exact ih _

theorem Balanced.append {void tags tags' : List (List UInt8)} (h : Balanced void tags) (h' : Balanced void tags') :
    Balanced void (tags ++ tags') := by
  unfold Balanced
  rw [balance_append, h]
  exact h'

end BgtDvb.Markup
