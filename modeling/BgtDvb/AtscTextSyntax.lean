import BgtDvb.AtscDcctSyntax
import BgtDvb.TableOverruns

/-!
# The syntax of ATSC texts

A text is made of strings in several languages, a string of segments; in a table a byte in front of a text says how
long it is, and 0 says that there is none.

* `Name.validated`, `Name.countedText_run` — **PROVED**: what is written so passes `atsc_text_validate`, and the codecs
  step over it.
-/

namespace BgtDvb.Ucsi.Table

open BgtDvb.Walks
open BgtDvb.Words
open BgtDvb.Ucsi.Table.Dcct (be_of_drop drop_of_cons)

/-! ### The syntax -/

/-- `struct atsc_text_string_segment` -/
structure SegmentSyntax where
  compressionType : UInt8
  mode : UInt8
  compressed : List UInt8
  short : compressed.length < 2 ^ 8

def SegmentSyntax.bytes (s : SegmentSyntax) : List UInt8 :=
  s.compressionType :: s.mode :: UInt8.ofNat s.compressed.length :: s.compressed

/-- `struct atsc_text_string` -/
structure StringSyntax where
  languageCode : BitVec 24
  segments : List SegmentSyntax
  short : segments.length < 2 ^ 8

def StringSyntax.bytes (s : StringSyntax) : List UInt8 :=
  beBytes 3 s.languageCode.toNat ++ (UInt8.ofNat s.segments.length :: s.segments.flatMap SegmentSyntax.bytes)

/-- `struct atsc_text` -/
structure TextSyntax where
  strings : List StringSyntax
  short : strings.length < 2 ^ 8

def TextSyntax.bytes (t : TextSyntax) : List UInt8 :=
  UInt8.ofNat t.strings.length :: t.strings.flatMap StringSyntax.bytes

/-- A text or none, short enough for the byte that says its length. -/
structure Name where
  text : Option TextSyntax
  short : (text.elim [] TextSyntax.bytes).length < 2 ^ 8

def Name.absent : Name := ⟨none, by decide⟩

def Name.bytes (n : Name) : List UInt8 := n.text.elim [] TextSyntax.bytes

def Name.counted (n : Name) : List UInt8 := UInt8.ofNat n.bytes.length :: n.bytes

/-! ### It is valid -/

theorem room_of_drop {buf bytes rest : List UInt8} {a : ℕ} (hsome : 0 < bytes.length) (h : buf.drop a = bytes ++ rest) :
    a + bytes.length ≤ buf.length := by
  have hlen := congrArg List.length h
  rw [List.length_drop, List.length_append] at hlen
  omega

section Validate

variable {buf : List UInt8} {start len : ℕ}

theorem SegmentSyntax.length_bytes (s : SegmentSyntax) : s.bytes.length = 3 + s.compressed.length := by
  rw [SegmentSyntax.bytes, List.length_cons, List.length_cons, List.length_cons]
  omega

theorem StringSyntax.length_bytes (s : StringSyntax) :
    s.bytes.length = 4 + (s.segments.flatMap SegmentSyntax.bytes).length := by
  rw [StringSyntax.bytes, List.length_append, length_beBytes, List.length_cons]
  omega

theorem SegmentSyntax.run (s : SegmentSyntax) {i j : ℕ} (h : Written SegmentSyntax.bytes (buf.drop start) i j s)
    (hj : j ≤ len) : (textSegment start len i).run buf = .ok (j, buf) := by
  obtain ⟨rfl, rest, hdrop⟩ := h
  rw [List.drop_drop] at hdrop
  have hsize := s.length_bytes
  have hroom : start + i + s.bytes.length ≤ buf.length := room_of_drop (by omega) hdrop
  have hheader : i + 3 ≤ len := by omega
  have hread : start + i + 2 + 1 ≤ buf.length := by omega
  have hcount : beNat (slice buf (start + i + 2) 1) = s.compressed.length := by
    rw [SegmentSyntax.bytes, List.cons_append, List.cons_append, List.cons_append] at hdrop
    exact be_of_drop s.short (drop_of_cons (drop_of_cons hdrop))
  have hend : i + 3 + beNat (slice buf (start + i + 2) 1) = i + s.bytes.length := by omega
  rw [textSegment, run_bind_ok (run_require hheader buf), run_bind_ok (read_ok_iff.mpr ⟨hread, rfl⟩), hend,
    run_bind_ok (run_require hj buf)]
  rfl

theorem StringSyntax.run (s : StringSyntax) {i j : ℕ} (h : Written StringSyntax.bytes (buf.drop start) i j s)
    (hj : j ≤ len) : (textString start len i).run buf = .ok (j, buf) := by
  obtain ⟨rfl, rest, hdrop⟩ := h
  have hsize := s.length_bytes
  rw [StringSyntax.bytes, List.append_assoc, List.cons_append] at hdrop
  have hcountDrop := drop_of_append hdrop
  rw [length_beBytes] at hcountDrop
  have hsegments := tiles_written SegmentSyntax.bytes (drop_of_cons hcountDrop)
  rw [List.drop_drop] at hcountDrop
  have hroom := @room_of_drop buf [UInt8.ofNat s.segments.length] _ _ Nat.one_pos hcountDrop
  have hheader : i + 4 ≤ len := by omega
  have hread : start + i + 3 + 1 ≤ buf.length := by
    rw [List.length_singleton] at hroom
    omega
  have hcount : beNat (slice buf (start + i + 3) 1) = s.segments.length := by
    rw [Nat.add_assoc]
    exact be_of_drop s.short hcountDrop
  have hend : i + 3 + 1 + (s.segments.flatMap SegmentSyntax.bytes).length = i + s.bytes.length := by omega
  rw [hend] at hsegments
  rw [textString, run_bind_ok (run_require hheader buf), run_bind_ok (read_ok_iff.mpr ⟨hread, rfl⟩), hcount]
  exact times_run hsegments Written.le (fun _ _ segment _ hwritten hstop => segment.run hwritten hstop) hj

theorem Name.validated (n : Name) {rest : List UInt8} (hdrop : buf.drop start = n.bytes ++ rest) :
    (atscTextValidate start n.bytes.length).run buf = .ok ((), buf) := by
  cases htext : n.text with
  | none =>
    have hnone : n.bytes = [] := by rw [Name.bytes, htext, Option.elim_none]
    rw [hnone]
    rfl
  | some t =>
    have hbytes : n.bytes = t.bytes := by rw [Name.bytes, htext, Option.elim_some]
    rw [hbytes] at hdrop ⊢
    have hpos : 0 < t.bytes.length := Nat.succ_pos _
    have hroom := room_of_drop hpos hdrop
    have hread : start + 1 ≤ buf.length := by omega
    rw [TextSyntax.bytes, List.cons_append] at hdrop
    have hcount : beNat (slice buf start 1) = t.strings.length := be_of_drop t.short hdrop
    have hbehind := drop_of_cons hdrop
    rw [← List.drop_drop] at hbehind
    have hstrings := tiles_written StringSyntax.bytes hbehind
    have hend : 1 + (t.strings.flatMap StringSyntax.bytes).length = t.bytes.length := by
      rw [TextSyntax.bytes, List.length_cons, Nat.add_comm]
    rw [hend] at hstrings
    have hloop : (times (textString start t.bytes.length) t.strings.length 1).run buf = .ok (t.bytes.length, buf) :=
      times_run hstrings Written.le (fun _ _ string _ hwritten hstop => string.run hwritten hstop) le_rfl
    rw [atscTextValidate, if_neg hpos.ne', run_bind_ok (read_ok_iff.mpr ⟨hread, rfl⟩), hcount, run_bind_ok hloop]
    rfl

end Validate

theorem Name.length_of_drop (n : Name) {buf rest : List UInt8} {a : ℕ} (hdrop : buf.drop a = n.counted ++ rest) :
    be buf a 1 = n.bytes.length :=
  be_of_drop n.short hdrop

theorem Name.length_counted (n : Name) : n.counted.length = 1 + n.bytes.length := by
  rw [Name.counted, List.length_cons, Nat.add_comm]

theorem Name.countedText_run (n : Name) {buf rest : List UInt8} {len a : ℕ} (hdrop : buf.drop a = n.counted ++ rest)
    (hroom : a + n.counted.length ≤ len) : (countedText len a).run buf = .ok (a + n.counted.length, buf) := by
  have hsize := n.length_counted
  have hinside : a + n.counted.length ≤ buf.length := room_of_drop (by omega) hdrop
  have hheader : a + 1 ≤ len := by omega
  have hread : a + 1 ≤ buf.length := by omega
  have hcount : beNat (slice buf a 1) = n.bytes.length := n.length_of_drop hdrop
  have hend : a + 1 + n.bytes.length = a + n.counted.length := by omega
  rw [countedText, run_bind_ok (run_require hheader buf), run_bind_ok (read_ok_iff.mpr ⟨hread, rfl⟩), hcount, Table.text,
    hend, run_bind_ok (run_require hroom buf), run_bind_ok (n.validated (drop_of_cons hdrop))]
  rfl

end BgtDvb.Ucsi.Table
