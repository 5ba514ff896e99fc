import BgtDvb.AlevtHtml

/-!
# What is read of the HTML that alevt writes

A reader takes the lines of `html_output` for text with tags and references. Characters are written as they are, so that
they may look like a tag or a reference; and the last character of a row is not written when there are only blanks in
front of it since the attributes have changed.

* `partBytes_length`, `partBytes_text`, `partBytes_shorter` — **PROVED**: what is read of a part of a row;
* `walked_step`, `htmlLine_shown`, `htmlLine_lost` — **PROVED**: the rounds of the loop, and the last one;
* `LineRight`, `Readable`, `lineRight_iff` — **PROVED**: the rows that are read as they are;
* `HtmlVars.OneLine.step`, `fileLine_htmlOutput` — **PROVED**: the lines of the file are those of the rows.
-/

namespace BgtDvb.Alevt

open Markup

/-! ### The characters of a part -/

def nbspName : List UInt8 := ascii "nbsp"

/-- A reader of HTML, for which a non-breaking space is a space. -/
structure HtmlReader extends Reader where
  nbsp : entity nbspName = some [0x20]

/-- Some characters were written, and read behind a text; `s'` is the reader of the characters alone. -/
structure Shows (r : HtmlReader) (text : List UInt8) (tags : List (List UInt8)) (st : Bool × Bool) (s s' : State) :
    Prop where
  behind : Behind text tags (if st.2 then settle r.toReader s else s) s'
  pending : st.2 = true → st.1 = false ∧ (s.mode = .ref nbspName ∨ s.mode = .tag)

section Part

variable {r : HtmlReader} {text : List UInt8} {tags : List (List UInt8)} {st : Bool × Bool} {s s' : State}

theorem ends_space : Ends 0x20 := by decide

theorem nbspName_bytes : ∀ c ∈ nbspName, NameByte c ∧ c ≠ greater := by decide +kernel

theorem resolve_nbsp (r : HtmlReader) : r.resolve nbspName = [0x20] := by
  unfold Reader.resolve
  rw [r.nbsp]
  rfl

theorem readByte_space (s : State) :
    ((settle r.toReader s).mode = .text → readByte r.toReader s 0x20 =
        { settle r.toReader s with text := (settle r.toReader s).text ++ [0x20], mode := .text })
      ∧ ((settle r.toReader s).mode = .tag → readByte r.toReader s 0x20 =
        { settle r.toReader s with tag := (settle r.toReader s).tag ++ [0x20] }) := by
  rw [readByte_ends ends_space]
  constructor
  · intro h
    rw [readByte_text h]
    rfl
  · intro h
    rw [readByte_tag h]
    rfl

/-- **A non-breaking space** is read like a space, when it has come to its end. -/
theorem Shows.nbsp (h : Behind text tags s s') :
    Shows r text tags (false, true) (read r.toReader s (ascii "&nbsp")) (readByte r.toReader s' 0x20) := by
  have hbytes : ascii "&nbsp" = ampersand :: nbspName := by decide
  have hsettle := h.settle (r := r.toReader)
  obtain ⟨htext, htag⟩ := read_reference (r := r.toReader) s nbspName_bytes
  rw [hbytes]
  rcases settled_settle r.toReader s with hmode | hmode
  · rw [htext hmode, (readByte_space s').1 (hsettle.mode.symm.trans hmode)]
    refine ⟨?_, fun _ => ⟨rfl, .inl rfl⟩⟩
    show Behind text tags (settle r.toReader { settle r.toReader s with mode := .ref nbspName }) _
    rw [settle_ref rfl, resolve_nbsp]
    exact ⟨by rw [hsettle.text, List.append_assoc], rfl, hsettle.tags⟩
  · rw [htag hmode, (readByte_space s').2 (hsettle.mode.symm.trans hmode)]
    refine ⟨?_, fun _ => ⟨rfl, .inr hmode⟩⟩
    show Behind text tags (settle r.toReader { settle r.toReader s with tag := _ }) _
    rw [settle_tag (by exact hmode)]
    exact ⟨hsettle.text, hsettle.mode, hsettle.tags⟩

theorem Shows.semicolon (h : Shows r text tags st s s') (hst : st.2 = true) :
    Behind text tags (readByte r.toReader s semicolon) s' := by
  have hbehind := h.behind
  rw [hst, if_pos rfl] at hbehind
  rcases (h.pending hst).2 with hmode | hmode
  · have hname : ¬NameByte Markup.semicolon := by decide
    have hknown : (r.entity nbspName).isSome = true := by rw [r.nbsp]; rfl
    rw [readByte_ref hmode, if_neg hname, if_pos ⟨rfl, hknown⟩]
    exact hbehind
  · have hgreater : Markup.semicolon ≠ greater := by decide
    rw [settle_tag hmode] at hbehind
    rw [readByte_tag hmode, if_neg hgreater]
    exact ⟨hbehind.text, hbehind.mode, hbehind.tags⟩

theorem Shows.emit (h : Shows r text tags st s s') (c : UInt8) :
    Shows r text tags (emit st c).1 (read r.toReader s (emit st c).2) (readByte r.toReader s' c) := by
  have hdone : ∀ {t : State} {b : Bool}, Behind text tags t (readByte r.toReader s' c) →
      Shows r text tags (b, false) t (readByte r.toReader s' c) := by
    intro t b ht
    exact ⟨ht, fun hfalse => absurd hfalse Bool.false_ne_true⟩
  have hbehind := h.behind
  rw [Alevt.emit]
  split
  next hblank =>
    subst hblank
    cases hlast : st.1 with
    | true =>
      have hst : st.2 = false := by
        by_contra hne
        have := (h.pending (Bool.not_eq_false _ ▸ hne)).1
        rw [hlast] at this
        exact Bool.true_eq_false.mp this
      rw [hst, if_neg Bool.false_ne_true] at hbehind
      exact Shows.nbsp hbehind
    | false =>
      refine hdone ?_
      show Behind text tags (readByte r.toReader s 0x20) _
      cases hst : st.2 with
      | true =>
        rw [hst, if_pos rfl] at hbehind
        rw [readByte_ends ends_space]
        exact hbehind.readByte 0x20
      | false =>
        rw [hst, if_neg Bool.false_ne_true] at hbehind
        exact hbehind.readByte 0x20
  next hchar =>
    refine hdone ?_
    cases hst : st.2 with
    | true => exact (h.semicolon hst).readByte c
    | false =>
      rw [hst, if_neg Bool.false_ne_true] at hbehind
      exact hbehind.readByte c

theorem Shows.emits (h : Shows r text tags st s s') (cs : List UInt8) :
    Shows r text tags (after st cs) (read r.toReader s (emits st cs)) (read r.toReader s' cs) := by
  induction cs generalizing st s s' with
  | nil => exact h
  | cons c cs ih =>
    have hrest := ih (h.emit c)
    rw [← read_append] at hrest
    exact hrest

theorem Shows.settle (h : Shows r text tags st s s') :
    Behind text tags (settle r.toReader s) (settle r.toReader s') := by
  have hsettle := h.behind.settle (r := r.toReader)
  cases hst : st.2 with
  | true => rwa [hst, if_pos rfl, settle_settle] at hsettle
  | false => rwa [hst, if_neg Bool.false_ne_true] at hsettle

theorem Shows.of_text (hst : st.2 = false) (hs : s.mode = .text) : Shows r s.text s.tags st s start where
  behind := by
    rw [hst, if_neg Bool.false_ne_true]
    exact ⟨(List.append_nil _).symm, hs, [], (List.append_nil _).symm, rfl⟩
  pending := fun h => absurd (hst.symm.trans h) Bool.false_ne_true

theorem Shows.refl (hst : st.2 = false) (s : State) : Shows r [] [] st s s where
  behind := by
    rw [hst, if_neg Bool.false_ne_true]
    exact Behind.refl s
  pending := fun h => absurd (hst.symm.trans h) Bool.false_ne_true

/-! ### A part with its tags -/

theorem colour_bytes : ∀ colour ∈ htmlColours, ∀ c ∈ colour, c ≠ greater := by decide +kernel

theorem font_bytes : (∀ c ∈ ascii "font color=\"", c ≠ greater) ∧ ∀ c ∈ ascii "\"", c ≠ greater := by
  decide +kernel

variable (look : UInt8 × UInt8)

theorem openTags_isTag : ∀ t ∈ openTags look, IsTag t := by
  intro t ht
  unfold openTags at ht
  rcases List.mem_append.mp ht with hblink | hfont
  · split at hblink
    · obtain rfl := List.mem_singleton.mp hblink
      exact ⟨⟨0x62, rfl, by decide⟩, by decide +kernel⟩
    · exact absurd hblink List.not_mem_nil
  · split at hfont
    · obtain rfl := List.mem_singleton.mp hfont
      refine ⟨⟨0x66, rfl, by decide⟩, fun c hc => ?_⟩
      rcases List.mem_append.mp hc with hfront | hend
      · rcases List.mem_append.mp hfront with hfont' | hcolour
        · exact font_bytes.1 c hfont'
        · rw [List.getD_eq_getElem?_getD] at hcolour
          cases hentry : htmlColours[look.2.toNat]? with
          | none =>
            rw [hentry] at hcolour
            exact absurd hcolour List.not_mem_nil
          | some colour =>
            rw [hentry] at hcolour
            exact colour_bytes colour (List.mem_of_getElem? hentry) c hcolour
      · exact font_bytes.2 c hend
    · exact absurd hfont List.not_mem_nil

theorem closeTags_isTag : ∀ t ∈ closeTags look, IsTag t := by
  intro t ht
  unfold closeTags at ht
  rcases List.mem_append.mp ht with hfont | hblink
  · split at hfont
    · obtain rfl := List.mem_singleton.mp hfont
      exact ⟨⟨0x2f, rfl, by decide⟩, by decide +kernel⟩
    · exact absurd hfont List.not_mem_nil
  · split at hblink
    · obtain rfl := List.mem_singleton.mp hblink
      exact ⟨⟨0x2f, rfl, by decide⟩, by decide +kernel⟩
    · exact absurd hblink List.not_mem_nil

def voidTags : List (List UInt8) := [ascii "br"]

theorem fontTag (colour : List UInt8) :
    (ascii "font color=\"" ++ colour ++ ascii "\"").head? = some 0x66
      ∧ tagName (ascii "font color=\"" ++ colour ++ ascii "\"") = ascii "font" := ⟨rfl, rfl⟩

theorem balance_pair {unclosed tags : List (List UInt8)} {t : List UInt8} (hopen : t.head? ≠ some slash)
    (hvoid : t ∉ voidTags) (htags : ∀ u, balance voidTags u tags = some u) :
    balance voidTags unclosed (t :: tags ++ [slash :: tagName t]) = some unclosed := by
  rw [List.cons_append, balance, if_neg hopen, if_neg hvoid, balance_append, htags]
  have hslash : (slash :: tagName t).head? = some slash := rfl
  have htop : (tagName t :: unclosed).head? = some (slash :: tagName t).tail := rfl
  show balance voidTags (tagName t :: unclosed) [slash :: tagName t] = some unclosed
  rw [balance, if_pos hslash, if_pos htop]
  rfl

/-- **PROVED**: the tags of a part are closed behind it. -/
theorem balanced_part (unclosed : List (List UInt8)) :
    balance voidTags unclosed (openTags look ++ closeTags look) = some unclosed := by
  have hfont : ∀ u, balance voidTags u ((if look.2 ≠ 7 then
      [ascii "font color=\"" ++ htmlColours.getD look.2.toNat [] ++ ascii "\""] else [])
        ++ if look.2 ≠ 7 then [ascii "/font"] else []) = some u := by
    intro u
    split
    · obtain ⟨hhead, hname⟩ := fontTag (htmlColours.getD look.2.toNat [])
      have hclose : ascii "/font" = slash :: ascii "font" := by decide
      have hslash : some (0x66 : UInt8) ≠ some slash := by decide
      rw [hclose, ← hname]
      refine @balance_pair u [] _ (hhead ▸ hslash) (fun hvoid => ?_) fun _ => rfl
      have heq := congrArg List.head? (List.mem_singleton.mp hvoid)
      rw [hhead] at heq
      exact absurd heq (by decide)
    · rfl
  unfold openTags closeTags
  by_cases hblink : look.1 ≠ 0
  · rw [if_pos hblink, if_pos hblink]
    have hclose : ascii "/blink" = slash :: tagName (ascii "blink") := by decide
    have hvoid : ascii "blink" ∉ voidTags := by decide
    have hhead : (ascii "blink").head? ≠ some slash := by decide
    have hpair := @balance_pair unclosed _ _ hhead hvoid hfont
    rw [hclose]
    simpa only [List.append_assoc, List.cons_append, List.nil_append] using hpair
  · rw [if_neg hblink, if_neg hblink, List.nil_append, List.append_nil]
    exact hfont unclosed

theorem look_eq_plain : look = plainLook ↔ ¬look.1 ≠ 0 ∧ ¬look.2 ≠ 7 := by
  rw [not_not, not_not]
  exact Prod.ext_iff

theorem openTags_plain : openTags plainLook = [] ∧ closeTags plainLook = [] := by decide

variable {look : UInt8 × UInt8} {blanks : List UInt8}

theorem openTags_ne_nil (h : look ≠ plainLook) : openTags look ≠ [] ∧ closeTags look ≠ [] := by
  rw [Ne, look_eq_plain, not_and_or, not_not, not_not] at h
  unfold openTags closeTags
  rcases h with hblink | hfont
  · rw [if_pos hblink, if_pos hblink]
    exact ⟨List.cons_ne_nil _ _, fun hnil => List.cons_ne_nil _ _ (List.append_eq_nil_iff.mp hnil).2⟩
  · rw [if_pos hfont, if_pos hfont]
    exact ⟨fun hnil => List.cons_ne_nil _ _ (List.append_eq_nil_iff.mp hnil).2, List.cons_ne_nil _ _⟩

theorem opened_plain (st : Bool × Bool) : opened plainLook st = st := by
  unfold opened
  rw [decide_eq_true rfl, Bool.and_true]

theorem opened_tagged (h : look ≠ plainLook) (st : Bool × Bool) : opened look st = (st.1, false) := by
  unfold opened
  rw [decide_eq_false h, Bool.and_false]

theorem read_part (r : HtmlReader) (s : State) (st : Bool × Bool) (look : UInt8 × UInt8) (blanks body : List UInt8) :
    read r.toReader s (partBytes st look blanks body) =
      read r.toReader (read r.toReader (read r.toReader (read r.toReader s (emits st blanks))
        ((openTags look).flatMap tagBytes)) (emits (opened look (after st blanks)) body))
        ((closeTags look).flatMap tagBytes) := by
  rw [partBytes, read_append, read_append, read_append]

theorem partBytes_length (hst : st.2 = false) (hs : s.Settled) (look : UInt8 × UInt8) (blanks body : List UInt8) :
    (settle r.toReader (read r.toReader s (partBytes st look blanks body))).text.length
      ≤ s.text.length + (blanks.length + body.length) := by
  have hblanks := (Shows.refl (r := r) hst s).emits blanks
  rw [read_part, read_tags_text (closeTags_isTag look)]
  by_cases hlook : look = plainLook
  · subst hlook
    have hbody := hblanks.emits body
    have hlen := read_length r.toReader s (blanks ++ body)
    rw [hs.raw, List.length_append, read_append] at hlen
    rw [openTags_plain.1, List.flatMap_nil, read_nil, opened_plain, hbody.settle.text]
    exact hlen
  · have hmode := read_tags_mode (r := r.toReader) (openTags_isTag look) (openTags_ne_nil hlook).1
      (read r.toReader s (emits st blanks))
    have htext := read_tags_text (r := r.toReader) (openTags_isTag look) (read r.toReader s (emits st blanks))
    have hfirst := read_length r.toReader s blanks
    rw [settle_text hmode, hblanks.settle.text, List.nil_append] at htext
    rw [hs.raw] at hfirst
    rw [opened_tagged hlook]
    generalize read r.toReader (read r.toReader s (emits st blanks)) ((openTags look).flatMap tagBytes) = t at hmode htext ⊢
    have hfresh : Shows r [] [] ((after st blanks).1, false) t t := Shows.refl rfl t
    have hbody := hfresh.emits body
    have hlen := read_length r.toReader t body
    rw [State.Settled.raw (.inl hmode), htext] at hlen
    rw [hbody.settle.text, List.nil_append]
    omega

theorem read_blanks (hblanks : ∀ c ∈ blanks, c = 0x20) (hs : s.mode = .text) :
    read r.toReader s blanks = { s with text := s.text ++ blanks } := by
  induction blanks generalizing s with
  | nil =>
    rw [List.append_nil]
    rfl
  | cons c blanks ih =>
    obtain ⟨rfl, hrest⟩ := List.forall_mem_cons.mp hblanks
    have hspace : s.take 0x20 = { s with text := s.text ++ [0x20], mode := .text } := rfl
    rw [read_cons, readByte_text hs, hspace, ih hrest rfl]
    show ({ s with text := s.text ++ [0x20] ++ blanks, mode := .text } : State) = _
    rw [List.append_assoc, ← hs]
    rfl

theorem part_shows (hst : st.2 = false) (hs : s.mode = .text) (look : UInt8 × UInt8)
    (hblanks : ∀ c ∈ blanks, c = 0x20) (body : List UInt8) :
    Shows r s.text (s.tags ++ openTags look) (after (opened look (after st blanks)) body)
      (read r.toReader (read r.toReader (read r.toReader s (emits st blanks)) ((openTags look).flatMap tagBytes))
        (emits (opened look (after st blanks)) body))
      (read r.toReader start (blanks ++ body)) := by
  have hfront := (Shows.of_text (r := r) hst hs).emits blanks
  rw [read_append]
  by_cases hlook : look = plainLook
  · subst hlook
    rw [openTags_plain.1, List.flatMap_nil, read_nil, opened_plain, List.append_nil]
    exact hfront.emits body
  · have hstart : read r.toReader start blanks = { start with text := blanks } := read_blanks hblanks rfl
    have hsettle := hfront.settle
    rw [hstart] at hsettle ⊢
    have hmode' : (settle r.toReader { start with text := blanks }).mode = .text := rfl
    have htext := read_tags_text (r := r.toReader) (openTags_isTag look) (read r.toReader s (emits st blanks))
    obtain ⟨-, htags⟩ := read_tags (openTags_isTag look) (hsettle.mode.trans hmode')
    have hmode := read_tags_mode (r := r.toReader) (openTags_isTag look) (openTags_ne_nil hlook).1
      (read r.toReader s (emits st blanks))
    rw [opened_tagged hlook]
    refine Shows.emits ⟨?_, fun h => absurd h Bool.false_ne_true⟩ body
    rw [if_neg Bool.false_ne_true]
    rw [settle_text hmode] at htext htags
    obtain ⟨u, hu, hlen⟩ := hsettle.tags
    rw [settle_tags] at hu
    obtain rfl : u = [] := List.eq_nil_of_length_eq_zero hlen
    refine ⟨htext.trans hsettle.text, hmode, [], ?_, rfl⟩
    rw [htags, hu, List.append_nil, List.append_nil]

theorem partBytes_text (hst : st.2 = false) (hs : s.mode = .text) (look : UInt8 × UInt8) {body : List UInt8}
    (hblanks : ∀ c ∈ blanks, c = 0x20) (hplain : Plain r.toReader (blanks ++ body)) :
    (settle r.toReader (read r.toReader s (partBytes st look blanks body))).text = s.text ++ (blanks ++ body)
      ∧ (settle r.toReader (read r.toReader s (partBytes st look blanks body))).mode = .text
      ∧ (settle r.toReader (read r.toReader s (partBytes st look blanks body))).tags =
        s.tags ++ (openTags look ++ closeTags look) := by
  have hshows := (part_shows (r := r) hst hs look hblanks body).settle
  obtain ⟨hmode, htags⟩ := hplain.no_tags
  obtain ⟨u, hu, hlen⟩ := hshows.tags
  rw [htags] at hlen
  obtain rfl : u = [] := List.eq_nil_of_length_eq_zero hlen
  rw [settle_tags, List.append_nil] at hu
  rw [read_part]
  obtain ⟨hmode', htags'⟩ := read_tags (closeTags_isTag look) (hshows.mode.trans hmode)
  refine ⟨?_, hmode', ?_⟩
  · rw [read_tags_text (closeTags_isTag look), hshows.text]
    exact congrArg (s.text ++ ·) hplain
  · rw [htags', hu, List.append_assoc]

theorem partBytes_shorter (hst : st.2 = false) (hs : s.mode = .text) (look : UInt8 × UInt8) {body : List UInt8}
    (hblanks : ∀ c ∈ blanks, c = 0x20) (hplain : ¬Plain r.toReader (blanks ++ body)) :
    (settle r.toReader (read r.toReader s (partBytes st look blanks body))).text.length
      < s.text.length + (blanks.length + body.length) := by
  have hshows := (part_shows (r := r) hst hs look hblanks body).settle
  have hlt := not_plain_shorter hplain
  rw [List.length_append] at hlt
  rw [read_part, read_tags_text (closeTags_isTag look), hshows.text, List.length_append]
  exact Nat.add_lt_add_left hlt _

/-! ### Where a part begins -/

theorem read_ends {c : UInt8} (hc : Ends c) (w : List UInt8) (s : State) :
    read r.toReader s (c :: w) = read r.toReader (settle r.toReader s) (c :: w) := by
  rw [read_cons, readByte_ends hc]
  rfl

theorem part_fresh (hblanks : ∀ c ∈ blanks, c = 0x20) (hfresh : look ≠ plainLook ∨ blanks ≠ []) (st : Bool × Bool)
    (s : State) (body : List UInt8) :
    read r.toReader s (partBytes st look blanks body) =
      read r.toReader (settle r.toReader s) (partBytes (st.1, false) look blanks body) := by
  cases blanks with
  | nil =>
    have hlook := hfresh.resolve_right (not_not_intro rfl)
    obtain ⟨t, ts, hts⟩ := List.exists_cons_of_ne_nil (openTags_ne_nil hlook).1
    unfold partBytes
    rw [hts]
    show read r.toReader s (([] ++ (less :: _)) ++ emits (opened look st) body ++ _) = _
    rw [opened_tagged hlook]
    show _ = read r.toReader (settle r.toReader s) (([] ++ (less :: _)) ++ emits (opened look (st.1, false)) body ++ _)
    rw [opened_tagged hlook]
    exact read_ends ends_less _ s
  | cons c blanks =>
    obtain rfl := hblanks c List.mem_cons_self
    have hbytes : partBytes st look (0x20 :: blanks) body = partBytes (st.1, false) look (0x20 :: blanks) body := rfl
    rw [hbytes]
    have hampersand : ascii "&nbsp" = ampersand :: nbspName := by decide
    obtain ⟨b, nb⟩ := st
    cases b with
    | true =>
      show read r.toReader s (((ascii "&nbsp" ++ _) ++ _) ++ _ ++ _) = _
      rw [hampersand]
      exact read_ends ends_ampersand _ s
    | false => exact read_ends ends_space _ s

end Part

/-! ### The parts of a row -/

section Runs

variable (r : HtmlReader) (row : ℕ → FmtChar) (last : ℕ)

/-- A place in front of the last one where the attributes change. -/
def Changes (x : ℕ) : Prop := 0 < x ∧ x < last ∧ (htmlCells row x).look ≠ (htmlCells row (x - 1)).look

/-- A part of the row with the same attributes; the last character belongs to the part in front of it. -/
structure IsRun (a b : ℕ) : Prop where
  lt : a < b
  first : a = 0 ∨ Changes row last a
  next : b = last + 1 ∨ Changes row last b
  inner : ∀ x, a < x → x < b → ¬Changes row last x

def GoodTo (f : ℕ) : Prop := ∀ a b, IsRun row last a b → b ≤ f → Plain r.toReader (chars row a b)

/-- What has been read when the parts before a place are printed. -/
structure Printed (f : ℕ) (st : Bool × Bool) (s : State) : Prop where
  good : GoodTo r row last f → (settle r.toReader s).text = chars row 0 f ∧ (settle r.toReader s).mode = .text
    ∧ Balanced voidTags (settle r.toReader s).tags
  bad : ¬GoodTo r row last f → (settle r.toReader s).text.length < f
  ready : st.2 = false ∧ s.Settled ∨ (htmlCells row f).look ≠ plainLook
  prev : 0 < f → (row (f - 1)).ch ≠ 0x20 → st = (false, false)

variable {r row last} {f e : ℕ} {st : Bool × Bool} {s : State}

theorem IsRun.goodTo_iff (h : IsRun row last f e) (he : e ≤ last + 1) :
    GoodTo r row last e ↔ GoodTo r row last f ∧ Plain r.toReader (chars row f e) := by
  constructor
  · intro hgood
    exact ⟨fun a b hrun hb => hgood a b hrun (hb.trans h.lt.le), hgood f e h le_rfl⟩
  · intro hboth a b hrun hb
    rcases Nat.lt_or_ge f b with hfb | hbf
    · have hbe : b = e := by
        by_contra hne
        refine h.inner b hfb (by omega) (hrun.next.resolve_left ?_)
        omega
      subst hbe
      have haf : a = f := by
        rcases Nat.lt_trichotomy a f with hlt | heq | hgt
        · exact absurd (h.first.resolve_left (by omega)) (hrun.inner f hlt hfb)
        · exact heq
        · exact absurd (hrun.first.resolve_left (by omega)) (h.inner a hgt hrun.lt)
      exact haf ▸ hboth.2
    · exact hboth.1 a b hrun hbf

theorem look_same (hinner : ∀ x, f < x → x < e → ¬Changes row last x) {z : ℕ} (hfz : f ≤ z) (hze : z < e) (hz : z < last) :
    (htmlCells row z).look = (htmlCells row f).look := by
  induction z with
  | zero =>
    obtain rfl : f = 0 := by omega
    rfl
  | succ z ih =>
    rcases Nat.lt_or_eq_of_le hfz with hlt | rfl
    · rw [← ih (by omega) (by omega) (by omega)]
      by_contra hne
      exact hinner (z + 1) hlt hze ⟨Nat.succ_pos z, hz, hne⟩
    · rfl

theorem Printed.le (h : Printed r row last f st s) : (settle r.toReader s).text.length ≤ f := by
  by_cases hgood : GoodTo r row last f
  · rw [(h.good hgood).1, chars_length, Nat.sub_zero]
  · exact (h.bad hgood).le

theorem Printed.fresh (h : Printed r row last f st s) {look : UInt8 × UInt8} {blanks : List UInt8}
    (hblanks : ∀ c ∈ blanks, c = 0x20)
    (hlook : (htmlCells row f).look ≠ plainLook → look ≠ plainLook ∨ blanks ≠ []) (body : List UInt8) :
    ∃ st', st'.2 = false ∧ read r.toReader s (partBytes st look blanks body) =
      read r.toReader (settle r.toReader s) (partBytes st' look blanks body) := by
  rcases h.ready with ⟨hst, hs⟩ | hnext
  · exact ⟨st, hst, by rw [hs.settle]⟩
  · exact ⟨(st.1, false), rfl, part_fresh hblanks (hlook hnext) st s body⟩

/-- **PROVED**: not more is read than the characters of the part. -/
theorem Printed.part_le (h : Printed r row last f st s) {look : UInt8 × UInt8} {blanks : List UInt8}
    (hblanks : ∀ c ∈ blanks, c = 0x20)
    (hlook : (htmlCells row f).look ≠ plainLook → look ≠ plainLook ∨ blanks ≠ []) (body : List UInt8) :
    (settle r.toReader (read r.toReader s (partBytes st look blanks body))).text.length
      ≤ (settle r.toReader s).text.length + (blanks.length + body.length) := by
  obtain ⟨st', hst', heq⟩ := h.fresh hblanks hlook body
  rw [heq]
  exact partBytes_length hst' (settled_settle _ _) look blanks body

/-- **PROVED**: a part is read as itself, or less is read. -/
theorem Printed.part (h : Printed r row last f st s) (hrun : IsRun row last f e) (he : e ≤ last + 1)
    {look : UInt8 × UInt8} {blanks body : List UInt8} (hchars : blanks ++ body = chars row f e)
    (hblanks : ∀ c ∈ blanks, c = 0x20)
    (hlook : (htmlCells row f).look ≠ plainLook → look ≠ plainLook ∨ blanks ≠ []) {s' : State}
    (hs' : read r.toReader s (partBytes st look blanks body) = s') :
    (GoodTo r row last e → (settle r.toReader s').text = chars row 0 e ∧ (settle r.toReader s').mode = .text
      ∧ Balanced voidTags (settle r.toReader s').tags)
      ∧ (¬GoodTo r row last e → (settle r.toReader s').text.length < e) := by
  have hlen : blanks.length + body.length = e - f := by
    rw [← List.length_append, hchars, chars_length]
  have hlt := hrun.lt
  have hle := h.part_le hblanks hlook body
  rw [hs'] at hle
  rw [hrun.goodTo_iff he, ← hchars]
  by_cases hgood : GoodTo r row last f
  · obtain ⟨htext, hmode, htags⟩ := h.good hgood
    obtain ⟨st', hst', heq⟩ := h.fresh hblanks hlook body
    rw [hs'] at heq
    by_cases hplain : Plain r.toReader (blanks ++ body)
    · refine ⟨fun _ => ?_, fun hnot => absurd ⟨hgood, hplain⟩ hnot⟩
      obtain ⟨htext', hmode', htags'⟩ := partBytes_text hst' hmode look hblanks hplain
      rw [heq]
      refine ⟨?_, hmode', ?_⟩
      · rw [htext', htext, hchars, chars_append (Nat.zero_le f) hlt.le]
      · rw [htags']
        exact htags.append (balanced_part look [])
    · refine ⟨fun hboth => absurd hboth.2 hplain, fun _ => ?_⟩
      have hshort := partBytes_shorter hst' hmode look hblanks hplain
      rw [← heq, htext, chars_length] at hshort
      omega
  · refine ⟨fun hboth => absurd hboth.1 hgood, fun _ => ?_⟩
    have hshort := h.bad hgood
    omega

theorem ready_shown {k : ℕ} (hk : k < e) (hchar : (row k).ch ≠ 0x20) (hlast : e < last)
    (hsame : ∀ z, k ≤ z → z < e → (htmlCells row z).look = (htmlCells row k).look) (hchange : Changes row last e)
    (st : Bool × Bool) (t : State) :
    ((after st (chars row k e)).2 = false
        ∧ (read r.toReader t ((closeTags (htmlCells row k).look).flatMap tagBytes)).Settled)
      ∨ (htmlCells row e).look ≠ plainLook := by
  by_cases hlook : (htmlCells row k).look = plainLook
  · refine .inr fun hplain => hchange.2.2 ?_
    rw [hsame (e - 1) (by omega) (by omega), hlook, hplain]
  · refine .inl ⟨?_, .inl (read_tags_mode (closeTags_isTag _) (openTags_ne_nil hlook).2 t)⟩
    obtain ⟨d, rfl⟩ : ∃ d, e = d + 1 := ⟨e - 1, by omega⟩
    rw [chars_succ (by omega)]
    by_cases hblank : (row d).ch = 0x20
    · -- a blank with attributes stands behind a character
      have hd : k < d := by
        by_contra hnot
        obtain rfl : d = k := by omega
        exact hchar hblank
      have hd' : (htmlCells row d).look ≠ plainLook := (hsame d hd.le (by omega)).symm ▸ hlook
      obtain ⟨-, hbefore, -⟩ := htmlCells_blank hblank hd'
      obtain ⟨c, rfl⟩ : ∃ c, d = c + 1 := ⟨d - 1, by omega⟩
      rw [Nat.add_sub_cancel] at hbefore
      rw [chars_succ (by omega), after_append, after_char st _ hbefore, hblank]
      rfl
    · rw [after_char st _ hblank]

theorem prev_shown {k : ℕ} (hk : k < e) (hprev : (row (e - 1)).ch ≠ 0x20) (st : Bool × Bool) :
    after st (chars row k e) = (false, false) := by
  obtain ⟨d, rfl⟩ : ∃ d, e = d + 1 := ⟨e - 1, by omega⟩
  rw [chars_succ (by omega)]
  exact after_char st _ hprev

theorem ready_blank (h : Printed r row last f st s) (hrun : IsRun row last f e) (hlast : e < last)
    (hblank : ∀ i, f ≤ i → i < e → (row i).ch = 0x20) (hchange : Changes row last e) :
    ((after st (chars row f e)).2 = false ∧ (read r.toReader s (emits st (chars row f e))).Settled)
      ∨ (htmlCells row e).look ≠ plainLook := by
  have hlt := hrun.lt
  by_cases hlook : (htmlCells row f).look = plainLook
  · refine .inr fun hplain => hchange.2.2 ?_
    rw [look_same hrun.inner (z := e - 1) (by omega) (by omega) (by omega), hlook, hplain]
  · -- it stands alone between two characters
    obtain ⟨hf, hbefore, hbehind⟩ := htmlCells_blank (hblank f le_rfl hlt) hlook
    have he : e = f + 1 := by
      by_contra hne
      exact hbehind (hblank (f + 1) (by omega) (by omega))
    subst he
    obtain rfl := h.prev (Nat.pos_of_ne_zero hf) hbefore
    rw [chars_cons hlt, chars_nil, hblank f le_rfl hlt]
    refine .inl ⟨rfl, ?_⟩
    show (readByte r.toReader s 0x20).Settled
    rcases settled_settle r.toReader s with hmode | hmode
    · rw [(readByte_space s).1 hmode]
      exact .inl rfl
    · rw [(readByte_space s).2 hmode]
      exact .inr hmode

end Runs

/-! ### The loop -/

section Loop

variable (r : HtmlReader) (row : ℕ → FmtChar) (last : ℕ)

/-- The variables when the loop has been at the place `x`. -/
structure Walked (x : ℕ) (v : HtmlVars) : Prop where
  cells : ∀ z, v.row z = if z ≤ x then htmlCells row z else row z
  first_le : v.firstUnprinted ≤ x
  first : v.firstUnprinted = 0 ∨ Changes row last v.firstUnprinted
  inner : ∀ z, v.firstUnprinted < z → z ≤ x → ¬Changes row last z
  printed : Printed r row last v.firstUnprinted v.spaces (read r.toReader start v.out)

variable {r row last} {x : ℕ} {v : HtmlVars}

def HtmlVars.adjusted (v : HtmlVars) (x : ℕ) : HtmlVars :=
  { v with row := Function.update v.row x (htmlAdjust v.row x) }

theorem Walked.adjusted_row (h : Walked r row last x v) (z : ℕ) :
    (v.adjusted (x + 1)).row z = if z ≤ x + 1 then htmlCells row z else row z := by
  show Function.update v.row (x + 1) (htmlAdjust v.row (x + 1)) z = _
  by_cases hz : z = x + 1
  · subst hz
    rw [Function.update_self, if_pos le_rfl]
    refine htmlAdjust_congr ?_ ?_ ?_
    · rw [Nat.add_sub_cancel, h.cells, if_pos le_rfl, Function.update_self]
    · rw [h.cells, if_neg (by omega), Function.update_of_ne (by omega)]
    · rw [h.cells, if_neg (by omega), Function.update_of_ne (by omega)]
  · rw [Function.update_of_ne hz, h.cells]
    by_cases hle : z ≤ x
    · rw [if_pos hle, if_pos (by omega)]
    · rw [if_neg hle, if_neg (by omega)]

theorem Walked.adjusted_ch (h : Walked r row last x v) (z : ℕ) : ((v.adjusted (x + 1)).row z).ch = (row z).ch := by
  rw [h.adjusted_row]
  split
  · exact htmlCells_ch row z
  · rfl

theorem Walked.adjusted_chars (h : Walked r row last x v) (a b : ℕ) :
    chars (v.adjusted (x + 1)).row a b = chars row a b :=
  List.map_congr_left fun z _ => h.adjusted_ch z

theorem partBytes_blank (st : Bool × Bool) (blanks : List UInt8) : partBytes st plainLook blanks [] = emits st blanks := by
  unfold partBytes
  rw [openTags_plain.1, openTags_plain.2, List.flatMap_nil, emits, List.append_nil, List.append_nil, List.append_nil]

theorem first_char (a b : ℕ) (h : ¬∀ i, a ≤ i → i < b → (row i).ch = 0x20) :
    ∃ k, a ≤ k ∧ k < b ∧ (∀ i, a ≤ i → i < k → (row i).ch = 0x20) ∧ (row k).ch ≠ 0x20 := by
  have hex : ∃ k, a ≤ k ∧ k < b ∧ (row k).ch ≠ 0x20 := by
    by_contra hnone
    refine h fun i hi hlt => ?_
    by_contra hch
    exact hnone ⟨i, hi, hlt, hch⟩
  obtain ⟨hle, hlt, hch⟩ := Nat.find_spec hex
  refine ⟨Nat.find hex, hle, hlt, fun i hi hlt' => ?_, hch⟩
  by_contra hne
  exact Nat.find_min hex hlt' ⟨hi, by omega, hne⟩

theorem htmlStep_succ (v : HtmlVars) (x : ℕ) : htmlStep last v (x + 1) =
    if ((v.adjusted (x + 1)).row (x + 1)).look = ((v.adjusted (x + 1)).row x).look ∧ x + 1 ≠ last then v.adjusted (x + 1)
    else htmlPrint (x + 1) last (v.adjusted (x + 1)) := rfl

theorem walked_zero : Walked r row last 0 (htmlStep last ⟨row, 0, true, false, []⟩ 0) where
  cells z := by
    show Function.update row 0 (htmlAdjust row 0) z = _
    by_cases hz : z = 0
    · subst hz
      rw [Function.update_self]
      rfl
    · rw [Function.update_of_ne hz, if_neg (by omega)]
  first_le := le_rfl
  first := .inl rfl
  inner z hz hz' := absurd hz (by show ¬0 < z; omega)
  printed := by
    have hgood : GoodTo r row last 0 := by
      intro a b hrun hb
      exact absurd hrun.lt (by omega)
    exact ⟨fun _ => ⟨(chars_nil row 0).symm, rfl, rfl⟩, fun hnot => absurd hgood hnot,
      .inl ⟨rfl, .inl rfl⟩, fun h => absurd h (Nat.lt_irrefl 0)⟩

theorem Walked.print_blank (h : Walked r row last x v) (hx : x < 40)
    (hall : ∀ i, v.firstUnprinted ≤ i → i < x + 1 → (row i).ch = 0x20) :
    htmlPrint (x + 1) last (v.adjusted (x + 1)) =
      (v.adjusted (x + 1)).write (emits v.spaces (chars row v.firstUnprinted (x + 1)))
        (after v.spaces (chars row v.firstUnprinted (x + 1))) (x + 1) := by
  have hfirst : (v.adjusted (x + 1)).firstUnprinted ≤ x + 1 := h.first_le.trans (Nat.le_succ x)
  rw [← h.adjusted_chars]
  refine htmlPrint_blank hfirst (by omega) fun i hi hlt => ?_
  rw [h.adjusted_ch]
  exact hall i hi hlt

theorem Walked.print_shown (h : Walked r row last x v) {k e : ℕ} (hfk : v.firstUnprinted ≤ k) (hkx : k < x + 1)
    (hblank : ∀ i, v.firstUnprinted ≤ i → i < k → (row i).ch = 0x20) (hchar : (row k).ch ≠ 0x20) (hxe : x + 1 ≤ e)
    (he : e ≤ 40) (hgo : ∀ i < e, i < x + 1 ∨ i = last) (hstop : ¬(e < x + 1 ∨ e = last)) :
    htmlPrint (x + 1) last (v.adjusted (x + 1)) =
      (v.adjusted (x + 1)).write
        (partBytes v.spaces (htmlCells row k).look (chars row v.firstUnprinted k) (chars row k e))
        (after (opened (htmlCells row k).look (after v.spaces (chars row v.firstUnprinted k))) (chars row k e)) e := by
  have hlook : (v.adjusted (x + 1)).row k = htmlCells row k := by rw [h.adjusted_row, if_pos hkx.le]
  have hblank' : ∀ i, (v.adjusted (x + 1)).firstUnprinted ≤ i → i < k → ((v.adjusted (x + 1)).row i).ch = 0x20 := by
    intro i hi hlt
    rw [h.adjusted_ch]
    exact hblank i hi hlt
  have hchar' : ((v.adjusted (x + 1)).row k).ch ≠ 0x20 := by rwa [h.adjusted_ch]
  have hprint := htmlPrint_shown (v := v.adjusted (x + 1)) hfk hkx he hblank' hchar' hxe hgo hstop
  rw [h.adjusted_chars, h.adjusted_chars, hlook] at hprint
  exact hprint

theorem blank_chars {a b : ℕ} (hall : ∀ i, a ≤ i → i < b → (row i).ch = 0x20) : ∀ c ∈ chars row a b, c = 0x20 := by
  intro c hc
  obtain ⟨z, hz, hzb, rfl⟩ := mem_chars hc
  exact hall z hz hzb

theorem Walked.blank (h : Walked r row last x v) (hx : x + 1 < last) (hchange : Changes row last (x + 1))
    (hall : ∀ i, v.firstUnprinted ≤ i → i < x + 1 → (row i).ch = 0x20) :
    Printed r row last (x + 1) (after v.spaces (chars row v.firstUnprinted (x + 1)))
      (read r.toReader (read r.toReader start v.out) (emits v.spaces (chars row v.firstUnprinted (x + 1)))) := by
  have hle := h.first_le
  have hrun : IsRun row last v.firstUnprinted (x + 1) :=
    ⟨by omega, h.first, .inr hchange, fun z hz hzx => h.inner z hz (by omega)⟩
  have hne : chars row v.firstUnprinted (x + 1) ≠ [] := by
    rw [chars_cons hrun.lt]
    exact List.cons_ne_nil _ _
  obtain ⟨hgood, hbad⟩ := h.printed.part hrun (by omega) (List.append_nil _) (blank_chars hall) (fun _ => .inr hne)
    (congrArg (read r.toReader _) (partBytes_blank _ _))
  refine ⟨hgood, hbad, ready_blank h.printed hrun hx hall hchange, fun _ hprev => ?_⟩
  exact absurd (hall x hle (Nat.lt_succ_self x)) hprev

theorem Walked.look (h : Walked r row last x v) (hx : x + 1 ≤ last) {k : ℕ} (hfk : v.firstUnprinted ≤ k) {z : ℕ} (hkz : k ≤ z)
    (hzx : z < x + 1) : (htmlCells row z).look = (htmlCells row k).look := by
  have hinner : ∀ y, v.firstUnprinted < y → y < x + 1 → ¬Changes row last y := fun y hy hyx => h.inner y hy (by omega)
  rw [look_same hinner (hfk.trans hkz) hzx (by omega), look_same hinner hfk (by omega) (by omega)]

theorem Walked.shown (h : Walked r row last x v) (hx : x + 1 < last) (hchange : Changes row last (x + 1)) {k : ℕ}
    (hfk : v.firstUnprinted ≤ k) (hkx : k < x + 1) (hblank : ∀ i, v.firstUnprinted ≤ i → i < k → (row i).ch = 0x20)
    (hchar : (row k).ch ≠ 0x20) :
    Printed r row last (x + 1)
      (after (opened (htmlCells row k).look (after v.spaces (chars row v.firstUnprinted k))) (chars row k (x + 1)))
      (read r.toReader (read r.toReader start v.out) (partBytes v.spaces (htmlCells row k).look
        (chars row v.firstUnprinted k) (chars row k (x + 1)))) := by
  have hle := h.first_le
  have hrun : IsRun row last v.firstUnprinted (x + 1) :=
    ⟨by omega, h.first, .inr hchange, fun z hz hzx => h.inner z hz (by omega)⟩
  have hlook : (htmlCells row v.firstUnprinted).look ≠ plainLook →
      (htmlCells row k).look ≠ plainLook ∨ chars row v.firstUnprinted k ≠ [] := by
    intro hne
    rw [h.look (by omega) le_rfl hfk hkx]
    exact .inl hne
  obtain ⟨hgood, hbad⟩ := h.printed.part hrun (by omega) (chars_append hfk hkx.le) (blank_chars hblank) hlook rfl
  refine ⟨hgood, hbad, ?_, fun _ hprev => prev_shown hkx hprev _⟩
  rw [read_part]
  exact ready_shown hkx hchar hx (fun z hkz hzx => h.look (by omega) hfk hkz hzx) hchange _ _

theorem walked_step (h : Walked r row last x v) (hx : x + 1 < last) (hlast : last < 40) :
    Walked r row last (x + 1) (htmlStep last v (x + 1)) := by
  have hchanges : Changes row last (x + 1) ↔
      ¬(((v.adjusted (x + 1)).row (x + 1)).look = ((v.adjusted (x + 1)).row x).look ∧ x + 1 ≠ last) := by
    rw [h.adjusted_row, h.adjusted_row, if_pos le_rfl, if_pos (Nat.le_succ x)]
    constructor
    · intro hc heq
      exact hc.2.2 heq.1
    · intro hne
      exact ⟨Nat.succ_pos x, hx, fun heq => hne ⟨heq, hx.ne⟩⟩
  rw [htmlStep_succ]
  by_cases hsame : ((v.adjusted (x + 1)).row (x + 1)).look = ((v.adjusted (x + 1)).row x).look ∧ x + 1 ≠ last
  · rw [if_pos hsame]
    refine ⟨h.adjusted_row, h.first_le.trans (Nat.le_succ x), h.first, fun z hz hzx => ?_, h.printed⟩
    rcases Nat.lt_or_eq_of_le hzx with hlt | rfl
    · exact h.inner z hz (by omega)
    · exact fun hc => hchanges.mp hc hsame
  · rw [if_neg hsame]
    have hchange := hchanges.mpr hsame
    have hnone : ∀ z, x + 1 < z → z ≤ x + 1 → ¬Changes row last z := fun z hz hz' => by omega
    have hread : ∀ bytes, read r.toReader start (v.out ++ bytes) =
        read r.toReader (read r.toReader start v.out) bytes := read_append _ _
    by_cases hall : ∀ i, v.firstUnprinted ≤ i → i < x + 1 → (row i).ch = 0x20
    · rw [h.print_blank (by omega) hall]
      refine ⟨h.adjusted_row, le_rfl, .inr hchange, hnone, ?_⟩
      show Printed r row last (x + 1) _ (read r.toReader start (v.out ++ _))
      rw [hread]
      exact h.blank hx hchange hall
    · obtain ⟨k, hfk, hkx, hblank, hchar⟩ := first_char _ _ hall
      rw [h.print_shown hfk hkx hblank hchar le_rfl (by omega) (fun i hi => .inl hi) (by omega)]
      refine ⟨h.adjusted_row, le_rfl, .inr hchange, hnone, ?_⟩
      show Printed r row last (x + 1) _ (read r.toReader start (v.out ++ _))
      rw [hread]
      exact h.shown hx hchange hfk hkx hblank hchar

/-- **PROVED**: the rounds in front of the last place. -/
theorem walked_run (hlast : last < 40) (hx : x < last) :
    Walked r row last x ((List.range (x + 1)).foldl (htmlStep last) ⟨row, 0, true, false, []⟩) := by
  induction x with
  | zero => exact walked_zero
  | succ x ih =>
    rw [List.range_succ, List.foldl_append]
    exact walked_step (ih (by omega)) hx hlast

theorem htmlStep_last (v : HtmlVars) (x : ℕ) :
    htmlStep (x + 1) v (x + 1) = htmlPrint (x + 1) (x + 1) (v.adjusted (x + 1)) := by
  rw [htmlStep_succ]
  exact if_neg fun hsame => hsame.2 rfl

/-- **PROVED**: the last round prints the last character with the part in front of it. -/
theorem htmlStep_shown (h : Walked r row (x + 1) x v) (hx : x + 1 < 40) {k : ℕ} (hfk : v.firstUnprinted ≤ k)
    (hkx : k < x + 1) (hblank : ∀ i, v.firstUnprinted ≤ i → i < k → (row i).ch = 0x20) (hchar : (row k).ch ≠ 0x20)
    {s' : State} (hs' : read r.toReader start (htmlStep (x + 1) v (x + 1)).out = s') :
    (GoodTo r row (x + 1) (x + 2) → (settle r.toReader s').text = chars row 0 (x + 2)
      ∧ (settle r.toReader s').mode = .text ∧ Balanced voidTags (settle r.toReader s').tags)
      ∧ (¬GoodTo r row (x + 1) (x + 2) → (settle r.toReader s').text.length < x + 2) := by
  have hle := h.first_le
  have hrun : IsRun row (x + 1) v.firstUnprinted (x + 2) := by
    refine ⟨by omega, h.first, .inl rfl, fun z hz hzx hc => ?_⟩
    exact h.inner z hz (by have := hc.2.1; omega) hc
  have hlook : (htmlCells row v.firstUnprinted).look ≠ plainLook →
      (htmlCells row k).look ≠ plainLook ∨ chars row v.firstUnprinted k ≠ [] := by
    intro hne
    rw [h.look le_rfl le_rfl hfk hkx]
    exact .inl hne
  rw [htmlStep_last, h.print_shown (e := x + 2) hfk hkx hblank hchar (by omega) (by omega) (fun i hi => by omega)
    (by omega)] at hs'
  refine h.printed.part hrun le_rfl (chars_append hfk (by omega)) (blank_chars hblank) hlook ?_
  rw [← read_append]
  exact hs'

/-- **PROVED**: it does not print it when there are only blanks since the attributes have changed. -/
theorem htmlStep_lost (h : Walked r row (x + 1) x v) (hx : x + 1 < 40)
    (hall : ∀ i, v.firstUnprinted ≤ i → i < x + 1 → (row i).ch = 0x20) :
    (settle r.toReader (read r.toReader start (htmlStep (x + 1) v (x + 1)).out)).text.length ≤ x + 1 := by
  have hle := h.first_le
  have hne : chars row v.firstUnprinted (x + 1) ≠ [] := by
    rw [chars_cons (by omega)]
    exact List.cons_ne_nil _ _
  have hpart := @Printed.part_le _ _ _ _ _ _ h.printed plainLook _ (blank_chars hall) (fun _ => .inr hne) []
  have hbound := h.printed.le
  rw [partBytes_blank, ← read_append, chars_length, List.length_nil] at hpart
  rw [htmlStep_last, h.print_blank (by omega) hall]
  refine hpart.trans ?_
  omega

end Loop

/-! ### The lines -/

/-- A line is read as the row up to its last character, and every tag in it is closed. -/
def LineRight (r : HtmlReader) (gfxChr : UInt8) (cells : List FmtChar) : Prop :=
  (settle r.toReader (read r.toReader start (htmlLine gfxChr cells))).text =
      (chars (htmlRow gfxChr cells) 0 40).rdropWhile (· = 0x20)
    ∧ Balanced voidTags (read r.toReader start (htmlLine gfxChr cells)).tags

/-- A row whose last character is shown, and whose parts are read as themselves. -/
structure Readable (r : HtmlReader) (row : ℕ → FmtChar) : Prop where
  shown : ∃ j < lastNonblank row, (row j).ch ≠ 0x20 ∧
    ∀ x, j < x → x < lastNonblank row → (htmlCells row x).look = (htmlCells row j).look
  plain : ∀ a b, IsRun row (lastNonblank row) a b → Plain r.toReader (chars row a b)

section Lines

variable {r : HtmlReader} {row : ℕ → FmtChar}

theorem lastBefore_succ (row : ℕ → FmtChar) (n : ℕ) :
    lastBefore row (n + 1) = if (row n).ch ≠ 0x20 then n else lastBefore row n := by
  unfold lastBefore
  rw [List.range_succ, List.foldl_append]
  rfl

theorem lastBefore_spec (row : ℕ → FmtChar) (n : ℕ) :
    ((∀ x < n, (row x).ch = 0x20) ∧ lastBefore row n = 0)
      ∨ (lastBefore row n < n ∧ (row (lastBefore row n)).ch ≠ 0x20
        ∧ ∀ x, lastBefore row n < x → x < n → (row x).ch = 0x20) := by
  induction n with
  | zero => exact .inl ⟨fun x hx => absurd hx (Nat.not_lt_zero x), rfl⟩
  | succ n ih =>
    rw [lastBefore_succ]
    by_cases hch : (row n).ch ≠ 0x20
    · rw [if_pos hch]
      exact .inr ⟨Nat.lt_succ_self n, hch, fun x hx hxn => by omega⟩
    · rw [if_neg hch]
      have hblank : ∀ x, x = n → (row x).ch = 0x20 := fun x hx => hx ▸ not_not.mp hch
      rcases ih with ⟨hall, hzero⟩ | ⟨hlt, hchar, hafter⟩
      · refine .inl ⟨fun x hx => ?_, hzero⟩
        rcases Nat.lt_or_eq_of_le (Nat.le_of_lt_succ hx) with hxn | hxn
        · exact hall x hxn
        · exact hblank x hxn
      · refine .inr ⟨by omega, hchar, fun x hx hxn => ?_⟩
        rcases Nat.lt_or_eq_of_le (Nat.le_of_lt_succ hxn) with hlt' | heq
        · exact hafter x hx hlt'
        · exact hblank x heq

theorem rdropWhile_blanks {cs blanks : List UInt8} (hblanks : ∀ c ∈ blanks, c = 0x20) :
    (cs ++ blanks).rdropWhile (· = 0x20) = cs.rdropWhile (· = 0x20) := by
  unfold List.rdropWhile
  rw [List.reverse_append, List.dropWhile_append_of_pos]
  intro c hc
  exact decide_eq_true (hblanks c (List.mem_reverse.mp hc))

theorem rdropWhile_chars {n : ℕ} (hn : n < 40) (hchar : (row n).ch ≠ 0x20)
    (hblank : ∀ x, n < x → x < 40 → (row x).ch = 0x20) :
    (chars row 0 40).rdropWhile (· = 0x20) = chars row 0 (n + 1) := by
  have hsplit := @chars_append row 0 (n + 1) 40 (Nat.zero_le _) (by omega)
  rw [← hsplit, rdropWhile_blanks (blank_chars fun i hi hlt => hblank i hi hlt), chars_succ (Nat.zero_le n)]
  exact List.rdropWhile_concat_neg _ _ _ (by simpa using hchar)

theorem lineBreak_isTag : IsTag (ascii "br") := ⟨⟨0x62, rfl, by decide⟩, by decide +kernel⟩

theorem ascii_lineBreak : ascii "<br>" = tagBytes (ascii "br") := by decide

theorem read_lineBreak (out : List UInt8) :
    (settle r.toReader (read r.toReader start (out ++ ascii "<br>"))).text =
        (settle r.toReader (read r.toReader start out)).text
      ∧ ((settle r.toReader (read r.toReader start out)).mode = .text →
        (read r.toReader start (out ++ ascii "<br>")).tags =
          (settle r.toReader (read r.toReader start out)).tags ++ [ascii "br"]) := by
  rw [ascii_lineBreak, read_append]
  obtain ⟨htext, hmode⟩ := read_tag_text (r := r.toReader) lineBreak_isTag (read r.toReader start out)
  refine ⟨by rw [settle_text hmode, htext], fun h => ?_⟩
  rw [read_tag lineBreak_isTag h]

theorem shown_iff {x : ℕ} {v : HtmlVars} (h : Walked r row (x + 1) x v) :
    (¬∀ i, v.firstUnprinted ≤ i → i < x + 1 → (row i).ch = 0x20) ↔
      ∃ j < x + 1, (row j).ch ≠ 0x20 ∧ ∀ z, j < z → z < x + 1 → (htmlCells row z).look = (htmlCells row j).look := by
  constructor
  · intro hnot
    obtain ⟨k, hfk, hkx, -, hchar⟩ := first_char _ _ hnot
    exact ⟨k, hkx, hchar, fun z hkz hzx => h.look le_rfl hfk hkz.le hzx⟩
  · intro hex hall
    obtain ⟨j, hj, hchar, hsame⟩ := hex
    have hjf : j < v.firstUnprinted := by
      by_contra hle
      exact hchar (hall j (by omega) hj)
    have hle := h.first_le
    obtain ⟨hpos, hlast, hlook⟩ := h.first.resolve_left (by omega)
    refine hlook ?_
    rw [hsame v.firstUnprinted hjf (by omega)]
    rcases Nat.lt_or_eq_of_le (Nat.le_sub_one_of_lt hjf) with hlt | heq
    · rw [hsame (v.firstUnprinted - 1) hlt (by omega)]
    · rw [← heq]

theorem goodTo_last (last : ℕ) :
    GoodTo r row last (last + 1) ↔ ∀ a b, IsRun row last a b → Plain r.toReader (chars row a b) := by
  constructor
  · intro h a b hrun
    refine h a b hrun ?_
    rcases hrun.next with heq | hc
    · exact heq.le
    · exact (hc.2.1.trans (Nat.lt_succ_self last)).le
  · intro h a b hrun _
    exact h a b hrun

theorem line_iff {x : ℕ} (hx : x + 1 < 40) {s' : State}
    (hs' : read r.toReader start ((List.range (x + 2)).foldl (htmlStep (x + 1)) ⟨row, 0, true, false, []⟩).out = s') :
    ((settle r.toReader s').text = chars row 0 (x + 2) → (settle r.toReader s').mode = .text
        ∧ Balanced voidTags (settle r.toReader s').tags)
      ∧ ((settle r.toReader s').text = chars row 0 (x + 2) ↔
        (∃ j < x + 1, (row j).ch ≠ 0x20 ∧ ∀ z, j < z → z < x + 1 → (htmlCells row z).look = (htmlCells row j).look)
          ∧ ∀ a b, IsRun row (x + 1) a b → Plain r.toReader (chars row a b)) := by
  have hwalk := @walked_run r row (x + 1) x hx (Nat.lt_succ_self x)
  rw [List.range_succ, List.foldl_append] at hs'
  generalize (List.range (x + 1)).foldl (htmlStep (x + 1)) ⟨row, 0, true, false, []⟩ = v at hwalk hs'
  rw [← shown_iff hwalk, ← goodTo_last]
  have hshort : (settle r.toReader s').text.length < x + 2 → (settle r.toReader s').text ≠ chars row 0 (x + 2) := by
    intro hlt heq
    rw [heq, chars_length] at hlt
    exact absurd hlt (lt_irrefl _)
  by_cases hall : ∀ i, v.firstUnprinted ≤ i → i < x + 1 → (row i).ch = 0x20
  · have hlost := htmlStep_lost hwalk hx hall
    have hne := hshort (Nat.lt_succ_of_le (hs' ▸ hlost))
    exact ⟨fun heq => absurd heq hne, iff_of_false hne fun h => h.1 hall⟩
  · obtain ⟨k, hfk, hkx, hblank, hchar⟩ := first_char _ _ hall
    obtain ⟨hgood, hbad⟩ := htmlStep_shown hwalk hx hfk hkx hblank hchar hs'
    by_cases hplain : GoodTo r row (x + 1) (x + 2)
    · obtain ⟨htext, hrest⟩ := hgood hplain
      exact ⟨fun _ => hrest, iff_of_true htext ⟨hall, hplain⟩⟩
    · have hne := hshort (hbad hplain)
      exact ⟨fun heq => absurd heq hne, iff_of_false hne fun h => hplain h.2⟩

/-- A row that is blank, but perhaps for the first place, is written as an empty line. -/
theorem empty_line (row : ℕ → FmtChar) :
    read r.toReader start ((List.range 1).foldl (htmlStep 0) ⟨row, 0, true, false, []⟩).out = start := rfl

theorem balanced_line {tags : List (List UInt8)} (h : Balanced voidTags tags) : Balanced voidTags (tags ++ [ascii "br"]) := by
  have hbr : balance voidTags [] [ascii "br"] = some [] := by decide
  exact h.append hbr

theorem lineRight_iff (r : HtmlReader) (gfxChr : UInt8) (cells : List FmtChar) : LineRight r gfxChr cells ↔
    (∀ x < 40, (htmlRow gfxChr cells x).ch = 0x20) ∨ Readable r (htmlRow gfxChr cells) := by
  unfold LineRight htmlLine
  generalize htmlRow gfxChr cells = row
  dsimp only
  obtain ⟨htext, htags⟩ := read_lineBreak (r := r)
    ((List.range (lastNonblank row + 1)).foldl (htmlStep (lastNonblank row)) ⟨row, 0, true, false, []⟩).out
  rw [htext]
  rcases lastBefore_spec row 40 with ⟨hall, hzero⟩ | ⟨hlt, hchar, hafter⟩
  · have hlast : lastNonblank row = 0 := hzero
    rw [hlast] at htags ⊢
    rw [htags (by rw [empty_line]; rfl), empty_line]
    refine iff_of_true ⟨?_, balanced_line rfl⟩ (.inl hall)
    have hempty := @rdropWhile_blanks [] _ (blank_chars fun i (_ : 0 ≤ i) hi => hall i hi)
    exact hempty.symm
  · have hlt : lastNonblank row < 40 := hlt
    have hchar : (row (lastNonblank row)).ch ≠ 0x20 := hchar
    have hnot : ¬∀ x < 40, (row x).ch = 0x20 := fun hall => hchar (hall _ hlt)
    rw [or_iff_right hnot, rdropWhile_chars hlt hchar hafter]
    have hreadable : Readable r row ↔ (∃ j < lastNonblank row, (row j).ch ≠ 0x20 ∧
        ∀ x, j < x → x < lastNonblank row → (htmlCells row x).look = (htmlCells row j).look)
          ∧ ∀ a b, IsRun row (lastNonblank row) a b → Plain r.toReader (chars row a b) :=
      ⟨fun h => ⟨h.shown, h.plain⟩, fun h => ⟨h.1, h.2⟩⟩
    rw [hreadable]
    generalize lastNonblank row = last at hlt htags ⊢
    cases last with
    | zero =>
      rw [empty_line]
      refine iff_of_false (fun h => ?_) fun h => ?_
      · have hlen := congrArg List.length h.1
        rw [chars_length] at hlen
        exact absurd hlen Nat.zero_ne_one
      · obtain ⟨j, hj, -⟩ := h.1
        exact absurd hj (Nat.not_lt_zero j)
    | succ x =>
      obtain ⟨hrest, hiff⟩ := @line_iff r row x hlt _ rfl
      rw [← hiff]
      constructor
      · intro h
        exact h.1
      · intro h
        obtain ⟨hmode, hbalanced⟩ := hrest h
        exact ⟨h, by rw [htags hmode]; exact balanced_line hbalanced⟩

/-! ### The lines of the file -/

/-- The line of a row: the file is cut at the newlines, and the rows stand behind one line or four. -/
def fileLine (bare : Bool) (file : List UInt8) (y : ℕ) : List UInt8 :=
  (file.splitOn 0x0a).getD ((if bare then 1 else 4) + y) []

/-- The lines in front of the rows. -/
def headLines (latin1 : ℤ) (bare : Bool) : List (List UInt8) :=
  (if bare then []
    else [ascii "<html><head>", htmlCharset latin1, ascii "</head><body text=\"#FFFFFF\" bgcolor=\"#000000\">"])
    ++ [ascii "<tt><b>"]

/-- No newline is written, nor among the characters that still can be. -/
structure HtmlVars.OneLine (v : HtmlVars) : Prop where
  out : 0x0a ∉ v.out
  row : ∀ x, (v.row x).ch ≠ 0x0a

theorem emits_oneLine (st : Bool × Bool) {cs : List UInt8} (h : 0x0a ∉ cs) : 0x0a ∉ emits st cs := by
  induction cs generalizing st with
  | nil => exact List.not_mem_nil
  | cons c cs ih =>
    have hc : (0x0a : UInt8) ≠ c := fun heq => h (heq ▸ List.mem_cons_self)
    have hreference : 0x0a ∉ ascii "&nbsp" := by decide
    have hsemicolon : (0x0a : UInt8) ≠ semicolon := by decide
    rw [emits, List.mem_append]
    refine not_or.mpr ⟨?_, ih _ fun hmem => h (List.mem_cons_of_mem c hmem)⟩
    unfold emit
    split
    · split
      · exact hreference
      · decide
    · split
      · exact List.not_mem_cons_of_ne_of_not_mem hsemicolon (List.not_mem_cons_of_ne_of_not_mem hc List.not_mem_nil)
      · exact List.not_mem_cons_of_ne_of_not_mem hc List.not_mem_nil

theorem colour_oneLine (fg : UInt8) : 0x0a ∉ htmlColours.getD fg.toNat [] := by
  have hall : ∀ colour ∈ htmlColours, 0x0a ∉ colour := by decide
  rw [List.getD_eq_getElem?_getD]
  cases h : htmlColours[fg.toNat]? with
  | none => exact List.not_mem_nil
  | some colour => exact hall colour (List.mem_of_getElem? h)

theorem openTags_oneLine (look : UInt8 × UInt8) : 0x0a ∉ (openTags look).flatMap tagBytes := by
  have hblink : 0x0a ∉ tagBytes (ascii "blink") := by decide
  have hfront : 0x0a ∉ ascii "font color=\"" := by decide
  have hend : 0x0a ∉ ascii "\"" := by decide
  have hfont : 0x0a ∉ tagBytes (ascii "font color=\"" ++ htmlColours.getD look.2.toNat [] ++ ascii "\"") := by
    simp [tagBytes, less, greater, hfront, hend, colour_oneLine, -List.getD_eq_getElem?_getD]
  unfold openTags
  rw [List.flatMap_append, List.mem_append]
  refine not_or.mpr ⟨?_, ?_⟩
  · split
    · rwa [List.flatMap_singleton]
    · exact List.not_mem_nil
  · split
    · rwa [List.flatMap_singleton]
    · exact List.not_mem_nil

theorem closeTags_oneLine (look : UInt8 × UInt8) : 0x0a ∉ (closeTags look).flatMap tagBytes := by
  unfold closeTags
  split
  · split
    · decide
    · decide
  · split
    · decide
    · exact List.not_mem_nil

namespace HtmlVars.OneLine

variable {v : HtmlVars}

theorem write (h : v.OneLine) {bytes : List UInt8} (hbytes : 0x0a ∉ bytes) (st : Bool × Bool) (first : ℕ) :
    (v.write bytes st first).OneLine :=
  ⟨fun hmem => (List.mem_append.mp hmem).elim h.out hbytes, h.row⟩

theorem opening (h : v.OneLine) (c : FmtChar) : (htmlOpen c v).OneLine := by
  rw [htmlOpen_eq]
  exact h.write (openTags_oneLine c.look) _ _

theorem closing (h : v.OneLine) (c : FmtChar) : (htmlClose c v).OneLine := by
  rw [htmlClose_eq]
  exact h.write (closeTags_oneLine c.look) _ _

theorem place (h : v.OneLine) (z : ℕ) : (htmlPlace v z).OneLine := by
  rw [htmlPlace_eq]
  exact h.write (emits_oneLine _ (List.not_mem_cons_of_ne_of_not_mem (h.row z).symm List.not_mem_nil)) _ _

theorem leading (h : v.OneLine) (x n z : ℕ) : (htmlLeading x n z v).2.OneLine := by
  induction n generalizing z v with
  | zero => exact h
  | succ n ih =>
    rw [htmlLeading]
    split
    · rw [htmlBlank_eq]
      exact ih (h.write (emits_oneLine _ (by decide)) _ _) (z + 1)
    · exact h

theorem places (h : v.OneLine) (x last n z : ℕ) : (htmlPlaces x last n z v).2.OneLine := by
  induction n generalizing z v with
  | zero => exact h
  | succ n ih =>
    rw [htmlPlaces]
    split
    · exact ih (h.place z) (z + 1)
    · exact h

theorem print (h : v.OneLine) (x last : ℕ) : (htmlPrint x last v).OneLine := by
  have hlead := h.leading x 40 v.firstUnprinted
  unfold htmlPrint
  generalize htmlLeading x 40 v.firstUnprinted v = lead at hlead
  dsimp only
  split
  · exact ⟨hlead.out, hlead.row⟩
  · have hpart := ((hlead.opening (lead.2.row lead.1)).places x last 40 lead.1).closing (lead.2.row lead.1)
    exact ⟨hpart.out, hpart.row⟩

/-- **One round** writes no newline. -/
theorem step (h : v.OneLine) (last x : ℕ) : (htmlStep last v x).OneLine := by
  have hupdate : HtmlVars.OneLine { v with row := Function.update v.row x (htmlAdjust v.row x) } := by
    refine ⟨h.out, fun z => ?_⟩
    by_cases hz : z = x
    · subst hz
      show (Function.update v.row z (htmlAdjust v.row z) z).ch ≠ 0x0a
      rw [Function.update_self, htmlAdjust_ch]
      exact h.row z
    · show (Function.update v.row x (htmlAdjust v.row x) z).ch ≠ 0x0a
      rw [Function.update_of_ne hz]
      exact h.row z
  unfold htmlStep
  dsimp only
  split
  · exact hupdate
  · split
    · exact hupdate
    · exact hupdate.print x last

theorem steps (h : v.OneLine) (last : ℕ) (xs : List ℕ) : (xs.foldl (htmlStep last) v).OneLine := by
  induction xs generalizing v with
  | nil => exact h
  | cons x xs ih => exact ih (h.step last x)

end HtmlVars.OneLine

theorem htmlRow_oneLine {gfxChr : UInt8} (hgfx : gfxChr ≠ 0x0a) {cells : List FmtChar} (hcells : IsFmtRow cells) (x : ℕ) :
    (htmlRow gfxChr cells x).ch ≠ 0x0a := by
  have hblank : (0x20 : UInt8) ≠ 0x0a := by decide
  unfold htmlRow htmlGraphics
  rw [List.getD_eq_getElem?_getD]
  cases hcell : cells[x]? with
  | none => exact hblank
  | some c =>
    dsimp only [Option.getD_some]
    split
    · exact hgfx
    next hplain =>
      rcases hcells.chars c (List.mem_of_getElem? hcell) with hgraphic | hle
      · exact absurd hgraphic hplain
      · rintro heq
        rw [heq] at hle
        exact absurd hle (by decide)

theorem htmlLine_oneLine {gfxChr : UInt8} (hgfx : gfxChr ≠ 0x0a) {cells : List FmtChar} (hcells : IsFmtRow cells) :
    0x0a ∉ htmlLine gfxChr cells := by
  have hstart : HtmlVars.OneLine ⟨htmlRow gfxChr cells, 0, true, false, []⟩ :=
    ⟨List.not_mem_nil, htmlRow_oneLine hgfx hcells⟩
  have hbreak : 0x0a ∉ ascii "<br>" := by decide
  unfold htmlLine
  exact fun hmem => (List.mem_append.mp hmem).elim (hstart.steps _ _).out hbreak

theorem splitOn_lines {lines : List (List UInt8)} (h : ∀ line ∈ lines, 0x0a ∉ line) (foot : List UInt8) :
    ((lines.flatMap (· ++ [0x0a])) ++ foot).splitOn 0x0a = lines ++ foot.splitOn 0x0a := by
  induction lines with
  | nil => rfl
  | cons line lines ih =>
    obtain ⟨hline, hlines⟩ := List.forall_mem_cons.mp h
    rw [List.flatMap_cons, List.append_assoc, List.append_assoc, List.singleton_append,
      List.splitOn_append_cons_self_of_not_mem hline, ih hlines, List.cons_append]

theorem headLines_oneLine (latin1 : ℤ) (bare : Bool) : ∀ line ∈ headLines latin1 bare, 0x0a ∉ line := by
  have hcharset : 0x0a ∉ htmlCharset latin1 := by
    unfold htmlCharset
    split_ifs
    all_goals simp [ascii]
  cases bare with
  | true => exact List.forall_mem_singleton.mpr (by simp [ascii])
  | false =>
    show ∀ line ∈ [_, _, _, _], 0x0a ∉ line
    simp only [List.forall_mem_cons]
    exact ⟨by simp [ascii], hcharset, by simp [ascii], by simp [ascii], List.forall_mem_nil _⟩

theorem htmlOutput_eq (latin1 : ℤ) (gfxChr : UInt8) (bare : Bool) (pg : FmtPage) : ∃ foot,
    htmlOutput latin1 gfxChr bare pg =
      (headLines latin1 bare ++ (List.range 25).map fun y => htmlLine gfxChr (pg.data y)).flatMap (· ++ [0x0a]) ++ foot := by
  have hhtml : ascii "<html><head>\n" = ascii "<html><head>" ++ [0x0a] := by simp [ascii]
  have hbody : ascii "\n</head><body text=\"#FFFFFF\" bgcolor=\"#000000\">\n" =
      [0x0a] ++ ascii "</head><body text=\"#FFFFFF\" bgcolor=\"#000000\">" ++ [0x0a] := by simp [ascii]
  have htt : ascii "<tt><b>\n" = ascii "<tt><b>" ++ [0x0a] := by simp [ascii]
  refine ⟨ascii "</b></tt>" ++ (if bare then [] else ascii "</body></html>"), ?_⟩
  unfold htmlOutput headLines
  rw [hhtml, hbody, htt, List.flatMap_append, List.flatMap_map]
  generalize ascii "<html><head>" = html, ascii "<tt><b>" = tt, ascii "</b></tt>" = foot,
    ascii "</body></html>" = close, ascii "</head><body text=\"#FFFFFF\" bgcolor=\"#000000\">" = body
  cases bare with
  | true => simp
  | false => simp

theorem fileLine_htmlOutput (latin1 : ℤ) {gfxChr : UInt8} (hgfx : gfxChr ≠ 0x0a) (bare : Bool) (pg : FormattedPage)
    (y : Fin 25) :
    fileLine bare (htmlOutput latin1 gfxChr bare pg.page) y = htmlLine gfxChr (pg.page.data y) := by
  obtain ⟨foot, hfile⟩ := htmlOutput_eq latin1 gfxChr bare pg.page
  have hhead : (headLines latin1 bare).length = if bare then 1 else 4 := by
    cases bare with
    | true => rfl
    | false => rfl
  have hlines : ∀ line ∈ headLines latin1 bare ++ (List.range 25).map (fun y => htmlLine gfxChr (pg.page.data y)),
      0x0a ∉ line := by
    intro line hline
    rcases List.mem_append.mp hline with hmem | hmem
    · exact headLines_oneLine latin1 bare line hmem
    · obtain ⟨z, hz, rfl⟩ := List.mem_map.mp hmem
      exact htmlLine_oneLine hgfx (pg.rows z (List.mem_range.mp hz))
  unfold fileLine
  rw [hfile, splitOn_lines hlines, ← hhead, List.append_assoc, List.getD_append_right _ _ _ _ (Nat.le_add_right _ _),
    Nat.add_sub_cancel_left, List.getD_append _ _ _ _ (by simp)]
  simp

/-- The line of each row in the file is what is written for the row, if no newline stands for the mosaics; it is read as
the row up to its last character, with every tag closed, exactly if the row is blank or its last character is shown and its
parts are read as themselves. -/
theorem htmlOutput_lines_iff (r : HtmlReader) (latin1 : ℤ) (gfxChr : UInt8) (bare : Bool) (pg : FormattedPage)
    (y : Fin 25) :
    (gfxChr ≠ 0x0a →
      fileLine bare (htmlOutput latin1 gfxChr bare pg.page) y = htmlLine gfxChr (pg.page.data y)) ∧
    (LineRight r gfxChr (pg.page.data y) ↔
      (∀ x < 40, (htmlRow gfxChr (pg.page.data y) x).ch = 0x20) ∨ Readable r (htmlRow gfxChr (pg.page.data y))) :=
  ⟨fun hgfx => fileLine_htmlOutput latin1 hgfx bare pg y, lineRight_iff r gfxChr (pg.page.data y)⟩

def nbspEntity (name : List UInt8) : Option (List UInt8) := if name = nbspName then some [0x20] else none

theorem nbspEntity_shorter (name text : List UInt8) (h : nbspEntity name = some text) : text.length ≤ name.length := by
  unfold nbspEntity at h
  split at h
  next hname =>
    obtain rfl := Option.some.inj h
    rw [hname]
    exact Nat.le_of_ble_eq_true rfl
  · cases h

theorem nbspEntity_nbsp : nbspEntity nbspName = some [0x20] := if_pos rfl

def nbspReader : HtmlReader := ⟨⟨nbspEntity, nbspEntity_shorter⟩, nbspEntity_nbsp⟩

def loneRow : List FmtChar := ⟨0x41, 7, 0, 0⟩ :: List.replicate 39 ⟨0x20, 7, 0, 0⟩

theorem mem_loneRow {c : FmtChar} (hc : c ∈ loneRow) : c = ⟨0x41, 7, 0, 0⟩ ∨ c = ⟨0x20, 7, 0, 0⟩ :=
  (List.mem_cons.mp hc).imp id List.eq_of_mem_replicate

theorem loneRow_formatted : IsFmtRow loneRow where
  length := rfl
  colours := by
    intro c hc
    have hwhite : (7 : UInt8) < 8 := by decide
    have hblack : (0 : UInt8) < 8 := by decide
    rcases mem_loneRow hc with rfl | rfl
    · exact ⟨hwhite, hblack⟩
    · exact ⟨hwhite, hblack⟩
  chars := by
    intro c hc
    right
    rcases mem_loneRow hc with rfl | rfl
    · show (0x20 : UInt8) ≤ 0x41
      decide
    · exact UInt8.le_refl _
  leads := by
    refine (List.pairwise_of_forall_mem_list fun c hc d _ hgraphic => ?_).isChain
    rcases mem_loneRow hc with rfl | rfl
    · exact absurd hgraphic (by decide)
    · exact absurd hgraphic (by decide)

def lonePage : FormattedPage := ⟨⟨0, 0, fun _ => loneRow⟩, fun _ _ => loneRow_formatted⟩

/-- The letter is not written. -/
theorem not_lineRight_lone : ¬LineRight nbspReader 0x23 (lonePage.page.data 0) := by
  intro h
  rcases (lineRight_iff _ _ _).mp h with hall | hreadable
  · exact absurd (hall 0 (by decide)) (by decide)
  · have hlast : lastNonblank (htmlRow 0x23 (lonePage.page.data 0)) = 0 := by decide
    obtain ⟨j, hj, -⟩ := hreadable.shown
    rw [hlast] at hj
    exact absurd hj (Nat.not_lt_zero j)

end Lines

end BgtDvb.Alevt
