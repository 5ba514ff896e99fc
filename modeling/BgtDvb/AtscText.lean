import BgtDvb.TableCodecsSafe

/-!
# The strings and segments of an ATSC text

`atsc_text_validate` of `libucsi/atsc/types.c` goes over a text once; the iterators of `types.h` go over it again, without
its length.  A text of length 0 is none: it is accepted without a look at it, and its accessors give `NULL` or its
callers look at the length first.

* `takes_segment`, `takes_string` — **PROVED**: the loops of the validator take exactly these;
* `text_iterated` — **PROVED**: in an accepted text the iterators come to all strings and segments, which stand inside.
-/

namespace BgtDvb.Ucsi.Table

open BgtDvb.Walks
open BgtDvb.Words

/-! ### The iterators -/

section Iterators

variable (buf : List UInt8)

def numberStrings (txt : ℕ) : ℕ := be buf txt 1

def numberSegments (str : ℕ) : ℕ := be buf (str + 3) 1

def numberBytes (seg : ℕ) : ℕ := be buf (seg + 2) 1

/-- The loop of `atsc_text_strings_next` over the segments of a string. -/
def skipSegments : ℕ → ℕ → ℕ
  | 0, pos => pos
  | n + 1, pos => skipSegments n (pos + 3 + numberBytes buf pos)

/-- `atsc_text_strings_first` -/
def stringsFirst (txt : ℕ) : Option ℕ := if numberStrings buf txt = 0 then none else some (txt + 1)

/-- `atsc_text_strings_next` -/
def stringsNext (txt pos idx : ℕ) : Option ℕ :=
  if idx ≥ numberStrings buf txt then none else some (skipSegments buf (numberSegments buf pos) (pos + 4))

/-- `atsc_text_string_segments_first` -/
def segmentsFirst (str : ℕ) : Option ℕ := if numberSegments buf str = 0 then none else some (str + 4)

/-- `atsc_text_string_segments_next` -/
def segmentsNext (str pos idx : ℕ) : Option ℕ :=
  if idx ≥ numberSegments buf str then none else some (pos + 3 + numberBytes buf pos)

end Iterators

/-! ### Where strings and segments stand

Positions are counted from the start of the text, as the validator does; the records have their own positions. -/

def SegmentAt (start : ℕ) (buf : List UInt8) (a b seg : ℕ) : Prop :=
  seg = start + a ∧ b = a + 3 + numberBytes buf seg

/-- A string, by its position, and its segments. -/
structure TextString where
  pos : ℕ
  segments : List ℕ
  deriving DecidableEq, Repr

/-- A string with as many segments as it says. -/
structure StringAt (start : ℕ) (buf : List UInt8) (a b : ℕ) (x : TextString) : Prop where
  pos_eq : x.pos = start + a
  count_eq : x.segments.length = numberSegments buf x.pos
  tiles : Tiles (SegmentAt start buf) (a + 4) b x.segments

def untouched {τ : Type} (_ : τ) (buf : List UInt8) : List UInt8 := buf

theorem effects_untouched {τ : Type} (xs : List τ) (buf : List UInt8) : effects untouched xs buf = buf := by
  induction xs with
  | nil => rfl
  | cons x xs ih => exact ih

section Validate

variable {n start len : ℕ}

theorem takes_segment (h : start + len ≤ n) : Takes n len (textSegment start len) (SegmentAt start) untouched where
  run {buf} hbuf {pos r} hr := by
    constructor
    · intro hrun
      obtain ⟨-, hrest⟩ := require_bind_ok_iff.mp hrun
      obtain ⟨-, hrest⟩ := read_bind_ok_iff.mp hrest
      obtain ⟨-, hrest⟩ := require_bind_ok_iff.mp hrest
      cases hrest
      exact ⟨start + pos, ⟨rfl, rfl⟩, rfl⟩
    · rintro ⟨x, ⟨rfl, hstop⟩, hbuf'⟩
      have hroom : pos + 3 ≤ len := by omega
      have hread : start + pos + 2 + 1 ≤ buf.length := by omega
      rw [textSegment, run_bind_ok (require_ok_iff.mpr ⟨hroom, rfl⟩), run_bind_ok (read_ok_iff.mpr ⟨hread, rfl⟩)]
      refine bind_ok_iff.mpr ⟨(), buf, require_ok_iff.mpr ⟨hstop ▸ hr, rfl⟩, ?_⟩
      exact congrArg Except.ok (Prod.ext hstop.symm hbuf'.symm)
  onward {buf} hbuf {pos r} hr := by
    obtain ⟨-, hrest⟩ := require_bind_ok_iff.mp hr
    obtain ⟨-, hrest⟩ := read_bind_ok_iff.mp hrest
    obtain ⟨-, hrest⟩ := require_bind_ok_iff.mp hrest
    cases hrest
    exact ⟨by dsimp only; omega, hbuf⟩
  forward {buf a b x} hx := by
    have hstop := hx.2
    omega
  ahead {buf buf' a b x} hdrop hx := by
    refine ⟨hx.1, ?_⟩
    have hsame : numberBytes buf x = numberBytes buf' x :=
      congrArg beNat (slice_eq_of_drop hdrop (by have hpos := hx.1; omega))
    rw [← hsame]
    exact hx.2
  keeps hbuf _ _ := ⟨hbuf, rfl, rfl⟩

theorem StringAt.le {buf : List UInt8} {a b : ℕ} {x : TextString} (hx : StringAt start buf a b x) : a + 4 ≤ b :=
  (@takes_segment start start 0 le_rfl).tiles_le hx.tiles

theorem takes_string (h : start + len ≤ n) : Takes n len (textString start len) (StringAt start) untouched where
  run {buf} hbuf {pos r} hr := by
    have hsegment := takes_segment h
    constructor
    · intro hrun
      obtain ⟨-, hrest⟩ := require_bind_ok_iff.mp hrun
      obtain ⟨-, hrest⟩ := read_bind_ok_iff.mp hrest
      obtain ⟨xs, hcount, htiles, hbuf'⟩ := (hsegment.times_iff _ hbuf hr).mp hrest
      exact ⟨⟨start + pos, xs⟩, ⟨rfl, hcount, htiles⟩, hbuf'.trans (effects_untouched xs buf)⟩
    · rintro ⟨x, hx, hbuf'⟩
      have hle := hx.le
      have hroom : pos + 4 ≤ len := hle.trans hr
      have hread : start + pos + 3 + 1 ≤ buf.length := by omega
      have hcount := hx.count_eq
      rw [hx.pos_eq] at hcount
      rw [textString, run_bind_ok (require_ok_iff.mpr ⟨hroom, rfl⟩), run_bind_ok (read_ok_iff.mpr ⟨hread, rfl⟩)]
      exact (hsegment.times_iff _ hbuf hr).mpr
        ⟨x.segments, hcount, hx.tiles, hbuf'.trans (effects_untouched x.segments buf).symm⟩
  onward {buf} hbuf {pos r} hr := by
    obtain ⟨-, hrest⟩ := require_bind_ok_iff.mp hr
    obtain ⟨-, hrest⟩ := read_bind_ok_iff.mp hrest
    obtain ⟨hle, hlen⟩ := (takes_segment h).times_onward _ hbuf hrest
    exact ⟨by omega, hlen⟩
  forward {buf a b x} hx := by
    have hle := hx.le
    omega
  ahead {buf buf' a b x} hdrop hx := by
    have hsame : numberSegments buf x.pos = numberSegments buf' x.pos :=
      congrArg beNat (slice_eq_of_drop hdrop (by have hpos := hx.pos_eq; omega))
    refine ⟨hx.pos_eq, hx.count_eq.trans hsame, ?_⟩
    exact (takes_segment h).tiles_ahead (drop_eq_of_le hdrop (Nat.le_add_right a 4)) hx.tiles
  keeps hbuf _ _ := ⟨hbuf, rfl, rfl⟩

theorem textSegment_le (h : start + len ≤ n) (pos : ℕ) : Safe n (textSegment start len pos) fun pos' => pos' ≤ len := by
  refine (safe_require _).bind fun _ hroom => ?_
  have hread : start + pos + 2 + 1 ≤ n := by omega
  refine (safe_read hread).bind fun _ _ => ?_
  exact (safe_require _).bind fun _ hend => safe_pure hend

theorem textString_le (h : start + len ≤ n) (pos : ℕ) : Safe n (textString start len pos) fun pos' => pos' ≤ len := by
  refine (safe_require _).bind fun _ hroom => ?_
  have hread : start + pos + 3 + 1 ≤ n := by omega
  refine (safe_read hread).bind fun _ _ => ?_
  exact safe_times (fun pos _ => textSegment_le h pos) _ hroom

theorem atscTextValidate_tiles {buf : List UInt8} (h : start + len ≤ buf.length) (hlen : len ≠ 0)
    (hvalid : (atscTextValidate start len).run buf = .ok ((), buf)) :
    ∃ stop xs, xs.length = numberStrings buf start ∧ stop ≤ len ∧ Tiles (StringAt start buf) 1 stop xs := by
  rw [atscTextValidate, if_neg hlen] at hvalid
  obtain ⟨-, hrest⟩ := read_bind_ok_iff.mp hvalid
  obtain ⟨stop, buf', hstrings, hrest⟩ := bind_ok_iff.mp hrest
  cases hrest
  have hends := safe_times (fun pos _ => textString_le h pos) (beNat (slice buf start 1)) (Nat.one_le_iff_ne_zero.mpr hlen)
    buf rfl
  rw [hstrings] at hends
  obtain ⟨xs, hcount, htiles, -⟩ := ((takes_string h).times_iff _ rfl hends.2).mp hstrings
  exact ⟨stop, xs, hcount, hends.2, htiles⟩

end Validate

/-! ### What the iterators come to -/

/-- A string that the iterator comes to, all of which stands inside the text, and its segments. -/
structure StringIterated (buf : List UInt8) (start len : ℕ) (x : TextString) : Prop where
  inside : start < x.pos ∧ skipSegments buf (numberSegments buf x.pos) (x.pos + 4) ≤ start + len
  count : x.segments.length = numberSegments buf x.pos
  segments : ForEach (segmentsNext buf x.pos) 0 (segmentsFirst buf x.pos) x.segments
  each : ∀ seg ∈ x.segments, x.pos + 4 ≤ seg ∧ seg + 3 + numberBytes buf seg ≤ start + len

/-- The strings of a text as the iterator comes to them. -/
structure TextIterated (buf : List UInt8) (start len : ℕ) (xs : List TextString) : Prop where
  count : xs.length = numberStrings buf start
  strings : ForEach (stringsNext buf start) 0 (stringsFirst buf start) (xs.map TextString.pos)
  each : ∀ x ∈ xs, StringIterated buf start len x

section Iterated

variable {buf : List UInt8} {start len a b : ℕ}

theorem skipSegments_tiles {segs : List ℕ} (h : Tiles (SegmentAt start buf) a b segs) :
    skipSegments buf segs.length (start + a) = start + b := by
  induction h with
  | nil => rfl
  | @cons a b c seg segs first rest ih =>
    have hnext : start + a + 3 + numberBytes buf (start + a) = start + b := by
      rw [first.2, first.1]
      omega
    rw [List.length_cons, skipSegments, hnext]
    exact ih

theorem StringAt.skip {x : TextString} (hx : StringAt start buf a b x) :
    skipSegments buf (numberSegments buf x.pos) (x.pos + 4) = start + b := by
  rw [← hx.count_eq, hx.pos_eq]
  exact skipSegments_tiles hx.tiles

theorem StringAt.iterated {x : TextString} (hx : StringAt start buf a b x) (ha : 1 ≤ a) (hb : b ≤ len) :
    StringIterated buf start len x := by
  refine ⟨⟨?_, ?_⟩, hx.count_eq, ?_, fun seg hseg => ?_⟩
  · rw [hx.pos_eq]
    omega
  · rw [hx.skip]
    omega
  · have hmoved : Tiles (SegmentAt 0 buf) (start + (a + 4)) (start + b) x.segments :=
      hx.tiles.moved start fun i j seg hseg => ⟨by rw [Nat.zero_add]; exact hseg.1, by rw [hseg.2]; omega⟩
    have hfor := hmoved.forEach_count id (segmentsNext buf x.pos) (fun {i j seg} hseg => hseg.1.trans (Nat.zero_add i))
      (fun {i j seg} idx hseg => by
        have hi := hseg.1.trans (Nat.zero_add i)
        have hj := hseg.2
        rw [hi] at hj
        rw [segmentsNext, ← hj]) ((Nat.zero_add _).trans hx.count_eq)
    have hfirst : (if numberSegments buf x.pos ≤ 0 then none else some (start + (a + 4))) = segmentsFirst buf x.pos := by
      rw [segmentsFirst, hx.pos_eq]
      exact if_congr Nat.le_zero rfl rfl
    rwa [hfirst, List.map_id] at hfor
  · obtain ⟨i, j, hi, hj, hat⟩ := hx.tiles.of_mem (fun {i j x} h => by have hstop := h.2; omega) hseg
    have hpos := hat.1
    have hstop := hat.2
    have hx' := hx.pos_eq
    omega

/-- **PROVED**: in every text that `atsc_text_validate` looks at and accepts, the iterators come to as many strings, and in
them to as many segments, as the counts say, and all of them stand inside the text. -/
theorem text_iterated {buf : List UInt8} {start len : ℕ} (h : start + len ≤ buf.length) (hlen : len ≠ 0)
    (hvalid : (atscTextValidate start len).run buf = .ok ((), buf)) : ∃ xs, TextIterated buf start len xs := by
  obtain ⟨stop, xs, hcount, hstop, htiles⟩ := atscTextValidate_tiles h hlen hvalid
  refine ⟨xs, hcount, ?_, fun x hx => ?_⟩
  · have hmoved : Tiles (StringAt 0 buf) (start + 1) (start + stop) xs := by
      refine htiles.moved start fun i j x hx => ⟨by rw [Nat.zero_add]; exact hx.pos_eq, hx.count_eq, ?_⟩
      exact hx.tiles.moved start fun i j seg hseg => ⟨by rw [Nat.zero_add]; exact hseg.1, by rw [hseg.2]; omega⟩
    have hfor := hmoved.forEach_count TextString.pos (stringsNext buf start)
      (fun {i j x} hx => hx.pos_eq.trans (Nat.zero_add i)) (fun {i j x} idx hx => by
        have hskip := hx.skip
        rw [hx.pos_eq, Nat.zero_add, Nat.zero_add] at hskip
        rw [stringsNext, hskip]) ((Nat.zero_add _).trans hcount)
    have hfirst : (if numberStrings buf start ≤ 0 then none else some (start + 1)) = stringsFirst buf start :=
      if_congr Nat.le_zero rfl rfl
    rwa [hfirst] at hfor
  · obtain ⟨i, j, hi, hj, hat⟩ := htiles.of_mem (fun {i j x} h => by have hle := h.le; omega) hx
    exact hat.iterated hi (hj.trans hstop)

/-- Two strings behind two other bytes, the first with two segments, one of which is empty. -/
theorem text_iterated_two : ∃ xs, TextIterated [0x44, 21, 2, 0x65, 0x6e, 0x67, 2, 0, 0, 2, 0x41, 0x42, 0, 0, 0,
    0x66, 0x72, 0x61, 1, 0, 0, 1, 0x43] 2 21 xs :=
  text_iterated (by decide) (by decide) rfl

/-- Not in a text of length 0: it is accepted, but the iterator takes the byte behind it for the number of strings. -/
theorem not_text_iterated : ¬∀ (buf : List UInt8) (start len : ℕ), start + len ≤ buf.length →
    (atscTextValidate start len).run buf = .ok ((), buf) → ∃ xs, TextIterated buf start len xs := by
  intro hall
  obtain ⟨xs, hcount, -, heach⟩ := hall [1, 0x65, 0x6e, 0x67, 0] 0 0 (by decide) rfl
  have hone : numberStrings [1, 0x65, 0x6e, 0x67, 0] 0 = 1 := by decide
  obtain ⟨x, rfl⟩ := List.length_eq_one_iff.mp (hcount.trans hone)
  have hinside := (heach x List.mem_cons_self).inside
  have hlow : ∀ n pos, pos ≤ skipSegments [1, 0x65, 0x6e, 0x67, 0] n pos := fun n => by
    induction n with
    | zero => exact fun pos => le_rfl
    | succ n ih => exact fun pos => (by omega : pos ≤ pos + 3 + numberBytes _ pos).trans (ih _)
  have hle := hlow (numberSegments [1, 0x65, 0x6e, 0x67, 0] x.pos) (x.pos + 4)
  omega

end Iterated

end BgtDvb.Ucsi.Table
