import BgtDvb.SectionBuf

/-!
# The section buffer and the memory behind it

`section_buf_add` on the memory that the caller has allocated: the structure, and `max` bytes behind it.  A copy that
would go over the end of that memory has no result.

* `SectionArea.toBuf`, `Reachable.add_toBuf` — **PROVED**: it is the section buffer that only knows the bytes received;
* `sectionBufAdd_append`, `feed_eq` — **PROVED**: cuts make no difference;
* `sectionBuf_chunks` — **PROVED**: all of it, in every state that calls lead to.
-/

namespace BgtDvb.Ucsi.Area

/-- `struct section_buf` and the memory behind it. -/
@[ext]
structure SectionArea where
  max : ℕ
  count : ℕ
  len : ℕ
  header : Bool
  waitPdu : Bool
  area : List UInt8
  deriving Repr, DecidableEq

/-- What one call returns. -/
@[ext]
structure AreaResult where
  buf : SectionArea
  used : ℕ
  status : ℤ
  deriving Repr, DecidableEq

/-- `section_buf_init`, on memory that holds anything. -/
def sectionBufInit (buf : SectionArea) (max : ℕ) : ℤ × SectionArea :=
  if max < sectionHdrSize then (-einval, buf)
  else (0, { buf with max := max, count := 0, len := sectionHdrSize, header := false, waitPdu := true })

def sectionBufReset (buf : SectionArea) : SectionArea :=
  { (sectionBufInit buf buf.max).2 with waitPdu := buf.waitPdu }

/-- `memcpy(pos, frag, copy); count += copy`, with `pos` at the current count. -/
def SectionArea.stored (buf : SectionArea) (frag : List UInt8) (copy : ℕ) : SectionArea :=
  { buf with
    area := buf.area.take buf.count ++ (frag.take copy ++ buf.area.drop (buf.count + copy))
    count := buf.count + copy }

def SectionArea.store (buf : SectionArea) (frag : List UInt8) (copy : ℕ) : Option SectionArea :=
  if buf.count + copy ≤ buf.max then some (buf.stored frag copy) else none

def SectionArea.finished (buf : SectionArea) : Bool := buf.header && buf.len == buf.count

/-- The tail of `section_buf_add`. -/
def accumulate (buf : SectionArea) (frag : List UInt8) (used : ℕ) : Option AreaResult :=
  let copy := min (buf.len - buf.count) frag.length
  (buf.store frag copy).map fun buf => ⟨buf, used + copy, if buf.finished then 1 else 0⟩

def checkLength (buf : SectionArea) (frag : List UInt8) (used : ℕ) : Option AreaResult :=
  let buf := { buf with len := sectionHdrSize + sectionLengthField buf.area }
  if buf.max < buf.len then some ⟨buf, frag.length + used, -erange⟩
  else accumulate { buf with header := true } frag used

/-- The header part of `section_buf_add`. -/
def grabHeader (buf : SectionArea) (frag : List UInt8) (used : ℕ) : Option AreaResult :=
  let copy := min (sectionHdrSize - buf.count) frag.length
  (buf.store frag copy).bind fun buf =>
    if buf.count ≠ sectionHdrSize then some ⟨buf, used + copy, 0⟩
    else checkLength buf (frag.drop copy) (used + copy)

/-- `section_buf_add` -/
def sectionBufAdd (buf : SectionArea) (frag : List UInt8) : Option AreaResult :=
  if buf.finished then some ⟨buf, 0, 1⟩
  else
    let skipped := if buf.count = 0 then skipPadding frag 0 else (frag, 0)
    if buf.count = 0 ∧ skipped.1 = [] then some ⟨buf, skipped.2, 0⟩
    else if buf.header then accumulate buf skipped.1 skipped.2
    else grabHeader buf skipped.1 skipped.2

/-- Chunks offered one after another: what a call leaves is offered again, and the first status that is not zero ends it.
`none` is a copy over the end, or the end of the fuel. -/
def feed : ℕ → SectionArea → List (List UInt8) → Option AreaResult
  | _, buf, [] => some ⟨buf, 0, 0⟩
  | 0, _, _ :: _ => none
  | fuel + 1, buf, chunk :: chunks =>
    (sectionBufAdd buf chunk).bind fun r =>
      if r.status ≠ 0 then some r
      else
        let rest := chunk.drop r.used
        (feed fuel r.buf (if rest = [] then chunks else rest :: chunks)).map fun r' =>
          { r' with used := r.used + r'.used }

/-- The states that calls lead to, with the last status. -/
inductive Reachable : SectionArea → ℤ → Prop
  | init {buf : SectionArea} {max : ℕ} (room : buf.area.length = max) (ok : (sectionBufInit buf max).1 = 0) :
    Reachable (sectionBufInit buf max).2 0
  | reset {buf : SectionArea} {last : ℤ} (h : Reachable buf last) : Reachable (sectionBufReset buf) 0
  | add {buf : SectionArea} {last : ℤ} {frag : List UInt8} {r : AreaResult} (h : Reachable buf last)
    (call : sectionBufAdd buf frag = some r) : Reachable r.buf r.status

/-! ### Between calls -/

/-- Between calls: a header that is not complete, a section under way or complete, or a header whose section is too
long for the memory. -/
structure AreaInv (buf : SectionArea) : Prop where
  room : buf.area.length = buf.max
  least : sectionHdrSize ≤ buf.max
  partial_header : buf.header = false → buf.count < sectionHdrSize → buf.len = sectionHdrSize
  bad_header : buf.header = false → sectionHdrSize ≤ buf.count →
    buf.count = sectionHdrSize ∧ buf.max < sectionHdrSize + sectionLengthField buf.area
  section_body : buf.header = true → sectionHdrSize ≤ buf.count ∧ buf.count ≤ buf.len ∧ buf.len ≤ buf.max

variable {buf : SectionArea} {r : AreaResult} {frag : List UInt8} {used : ℕ}

theorem AreaInv.count_le (h : AreaInv buf) : buf.count ≤ buf.max := by
  have hleast := h.least
  cases hheader : buf.header with
  | true =>
    obtain ⟨-, hcount, hlen⟩ := h.section_body hheader
    exact hcount.trans hlen
  | false =>
    rcases Nat.lt_or_ge buf.count sectionHdrSize with hlt | hge
    · exact hlt.le.trans hleast
    · exact (h.bad_header hheader hge).1.le.trans hleast

theorem AreaInv.of_header (hlength : buf.area.length = buf.max) (hheader : buf.header = true)
    (hleast : sectionHdrSize ≤ buf.count) (hcount : buf.count ≤ buf.len) (hroom : buf.len ≤ buf.max) :
    AreaInv buf where
  room := hlength
  least := hleast.trans (hcount.trans hroom)
  partial_header hno := absurd (hheader.symm.trans hno) Bool.noConfusion
  bad_header hno := absurd (hheader.symm.trans hno) Bool.noConfusion
  section_body _ := ⟨hleast, hcount, hroom⟩

section Stored

variable (buf : SectionArea) (frag : List UInt8) (copy : ℕ)

@[simp] theorem stored_max : (buf.stored frag copy).max = buf.max := rfl

@[simp] theorem stored_len : (buf.stored frag copy).len = buf.len := rfl

@[simp] theorem stored_header : (buf.stored frag copy).header = buf.header := rfl

@[simp] theorem stored_count : (buf.stored frag copy).count = buf.count + copy := rfl

variable {buf frag copy}

theorem store_eq (h : buf.store frag copy = some stored) : stored = buf.stored frag copy :=
  (Option.some.inj (Option.ite_none_right_eq_some.mp h).2).symm

theorem store_room (h : buf.store frag copy = some stored) : buf.count + copy ≤ buf.max :=
  (Option.ite_none_right_eq_some.mp h).1

theorem stored_length (hcopy : copy ≤ frag.length) (hend : buf.count + copy ≤ buf.area.length) :
    (buf.stored frag copy).area.length = buf.area.length := by
  simp only [SectionArea.stored, List.length_append, List.length_take, List.length_drop]
  omega

theorem stored_stored {x y : List UInt8} {k : ℕ} (hend : buf.count + (x.length + k) ≤ buf.area.length) :
    (buf.stored x x.length).stored y k = buf.stored (x ++ y) (x.length + k) := by
  have hfront : (buf.area.take buf.count ++ x).length = buf.count + x.length := by
    rw [List.length_append, List.length_take]
    omega
  have hrest : ((buf.area.take buf.count ++ x) ++ buf.area.drop (buf.count + x.length)).drop
      (buf.count + x.length + k) = buf.area.drop (buf.count + (x.length + k)) := by
    rw [← hfront, List.drop_length_add_append, List.drop_drop, hfront, Nat.add_assoc]
  ext1
  case count => exact Nat.add_assoc _ _ _
  case area =>
    simp only [SectionArea.stored, List.take_length]
    rw [← List.append_assoc (buf.area.take buf.count) x, hrest, List.take_append_of_le_length hfront.ge,
      List.take_of_length_le hfront.le, List.take_length_add_append]
    simp only [List.append_assoc]
  all_goals rfl

theorem stored_append_of_le {x : List UInt8} (y : List UInt8) (h : copy ≤ x.length) :
    buf.stored (x ++ y) copy = buf.stored x copy := by
  unfold SectionArea.stored
  rw [List.take_append_of_le_length h]

end Stored

/-! ### One call -/

def AreaResult.after (r : AreaResult) (used : ℕ) : AreaResult := { r with used := used + r.used }

section Call

variable {buf : SectionArea} {x y : List UInt8} {used : ℕ}

theorem accumulate_short (hroom : buf.len ≤ buf.max) (hshort : buf.count + x.length < buf.len) :
    accumulate buf x used = some ⟨buf.stored x x.length, used + x.length, 0⟩ := by
  have hcopy : min (buf.len - buf.count) x.length = x.length := by omega
  have hopen : (buf.stored x x.length).finished = false := by
    simp only [SectionArea.finished, stored_header, stored_len, stored_count, Bool.and_eq_false_iff,
      beq_eq_false_iff_ne]
    exact Or.inr (by omega)
  simp only [accumulate, SectionArea.store, hcopy]
  rw [if_pos (by omega), Option.map_some, hopen]
  rfl

theorem accumulate_full (hroom : buf.len ≤ buf.max) (hheader : buf.header = true) (hcount : buf.count ≤ buf.len)
    (hfull : buf.len ≤ buf.count + x.length) :
    accumulate buf x used = some ⟨buf.stored x (buf.len - buf.count), used + (buf.len - buf.count), 1⟩ := by
  have hcopy : min (buf.len - buf.count) x.length = buf.len - buf.count := by omega
  have hdone : (buf.stored x (buf.len - buf.count)).finished = true := by
    simp only [SectionArea.finished, stored_header, stored_len, stored_count, hheader, Bool.true_and,
      beq_iff_eq]
    omega
  simp only [accumulate, SectionArea.store, hcopy]
  rw [if_pos (by omega), Option.map_some, hdone]
  rfl

theorem accumulate_after (used : ℕ) : accumulate buf x used = (accumulate buf x 0).map (·.after used) := by
  simp only [accumulate, Option.map_map]
  congr 1
  funext b
  simp [AreaResult.after]

theorem accumulate_append (hlength : buf.area.length = buf.max) (hroom : buf.len ≤ buf.max)
    (hheader : buf.header = true) (hshort : buf.count + x.length < buf.len) :
    accumulate buf (x ++ y) used = accumulate (buf.stored x x.length) y (used + x.length) := by
  have happend : (x ++ y).length = x.length + y.length := List.length_append
  rcases Nat.lt_or_ge (buf.count + (x ++ y).length) buf.len with hlt | hge
  · rw [accumulate_short hroom hlt, accumulate_short (by exact hroom) (by simp only [stored_count, stored_len]; omega),
      stored_stored (by omega), happend, Nat.add_assoc]
  · have hrest : buf.len - buf.count = x.length + (buf.len - (buf.count + x.length)) := by omega
    rw [accumulate_full hroom hheader (by omega) hge,
      accumulate_full (by exact hroom) (by exact hheader) (by simp only [stored_count, stored_len]; omega)
        (by simp only [stored_count, stored_len]; omega)]
    simp only [stored_len, stored_count]
    rw [stored_stored (by omega), hrest, ← Nat.add_assoc used]

theorem accumulate_append_full (hroom : buf.len ≤ buf.max) (hheader : buf.header = true) (hcount : buf.count ≤ buf.len)
    (hfull : buf.len ≤ buf.count + x.length) : accumulate buf (x ++ y) used = accumulate buf x used := by
  have happend : (x ++ y).length = x.length + y.length := List.length_append
  rw [accumulate_full hroom hheader hcount hfull, accumulate_full hroom hheader hcount (by omega),
    stored_append_of_le y (by omega)]

theorem grabHeader_short (hleast : sectionHdrSize ≤ buf.max) (hshort : buf.count + x.length < sectionHdrSize) :
    grabHeader buf x used = some ⟨buf.stored x x.length, used + x.length, 0⟩ := by
  have hcopy : min (sectionHdrSize - buf.count) x.length = x.length := by omega
  simp only [grabHeader, SectionArea.store, hcopy]
  rw [if_pos (by omega), Option.bind_some, if_pos (by rw [stored_count]; omega)]

theorem grabHeader_full (hleast : sectionHdrSize ≤ buf.max) (hcount : buf.count ≤ sectionHdrSize)
    (hfull : sectionHdrSize ≤ buf.count + x.length) :
    grabHeader buf x used = checkLength (buf.stored x (sectionHdrSize - buf.count))
      (x.drop (sectionHdrSize - buf.count)) (used + (sectionHdrSize - buf.count)) := by
  have hcopy : min (sectionHdrSize - buf.count) x.length = sectionHdrSize - buf.count := by omega
  simp only [grabHeader, SectionArea.store, hcopy]
  rw [if_pos (by omega), Option.bind_some, if_neg (by rw [stored_count]; omega)]

theorem grabHeader_append (hlength : buf.area.length = buf.max) (hleast : sectionHdrSize ≤ buf.max)
    (hshort : buf.count + x.length < sectionHdrSize) :
    grabHeader buf (x ++ y) used = grabHeader (buf.stored x x.length) y (used + x.length) := by
  have happend : (x ++ y).length = x.length + y.length := List.length_append
  rcases Nat.lt_or_ge (buf.count + (x ++ y).length) sectionHdrSize with hlt | hge
  · rw [grabHeader_short hleast hlt, grabHeader_short (by exact hleast) (by rw [stored_count]; omega),
      stored_stored (by omega), happend, Nat.add_assoc]
  · have hrest : sectionHdrSize - buf.count = x.length + (sectionHdrSize - (buf.count + x.length)) := by omega
    rw [grabHeader_full hleast (by omega) hge,
      grabHeader_full (by exact hleast) (by rw [stored_count]; omega) (by rw [stored_count]; omega), stored_count,
      stored_stored (by omega), hrest, List.drop_length_add_append, ← Nat.add_assoc used]

theorem grabHeader_after (used : ℕ) : grabHeader buf x used = (grabHeader buf x 0).map (·.after used) := by
  simp only [grabHeader, Option.map_bind]
  congr 1
  funext b
  simp only [Function.comp_apply, checkLength, Nat.zero_add]
  split
  · rfl
  · split
    · simp [AreaResult.after, Nat.add_left_comm]
    · rw [accumulate_after, accumulate_after (min _ _), Option.map_map]
      congr 1
      funext r
      simp [AreaResult.after, Nat.add_assoc]

end Call

/-! ### A call and the bytes behind it -/

/-- Two results that differ at most in the bytes counted for a section that is too long. -/
def AreaResult.Agrees (r r' : AreaResult) : Prop :=
  r'.buf = r.buf ∧ r'.status = r.status ∧ (r.status ≠ -erange → r'.used = r.used)

/-- The result of `call` on `x`, and what it says about `x` with more bytes behind it. -/
structure Outcome (call : List UInt8 → Option AreaResult) (x : List UInt8) (used : ℕ) (r : AreaResult) : Prop where
  result : call x = some r
  inv : AreaInv r.buf
  status : r.status = 0 ∨ r.status = 1 ∨ r.status = -erange
  all_used : r.status = 0 → r.used = used + x.length
  open_header : r.status ≠ -erange → r.buf.header = false → r.buf.count < sectionHdrSize
  continues : r.status = 0 → ∀ y, call (x ++ y) = (sectionBufAdd r.buf y).map (·.after r.used)
  ends : r.status ≠ 0 → ∀ y, ∃ r', call (x ++ y) = some r' ∧ r.Agrees r'

theorem erange_status : -erange ≠ 0 := by decide

section Outcome

variable {buf : SectionArea} {used : ℕ}

theorem sectionBufAdd_body (hheader : buf.header = true) (hcount : buf.count ≠ 0) (hopen : buf.count ≠ buf.len)
    (frag : List UInt8) : sectionBufAdd buf frag = accumulate buf frag 0 := by
  have hfinished : buf.finished = false := by
    simp only [SectionArea.finished, hheader, Bool.true_and, beq_eq_false_iff_ne]
    exact Ne.symm hopen
  simp [sectionBufAdd, hfinished, hcount, hheader]

theorem sectionBufAdd_header (hheader : buf.header = false) (hcount : buf.count ≠ 0) (frag : List UInt8) :
    sectionBufAdd buf frag = grabHeader buf frag 0 := by
  simp [sectionBufAdd, SectionArea.finished, hcount, hheader]

theorem accumulate_outcome (h : AreaInv buf) (hheader : buf.header = true) (x : List UInt8) (used : ℕ) :
    ∃ r, Outcome (accumulate buf · used) x used r := by
  obtain ⟨hleast, hcount, hroom⟩ := h.section_body hheader
  have hlength := h.room
  rcases Nat.lt_or_ge (buf.count + x.length) buf.len with hshort | hfull
  · refine ⟨⟨buf.stored x x.length, used + x.length, 0⟩, accumulate_short hroom hshort, ?_, Or.inl rfl, fun _ => rfl,
      fun _ hno => ?_, fun _ y => ?_, fun hno => absurd rfl hno⟩
    · refine AreaInv.of_header ((stored_length le_rfl (by omega)).trans hlength) hheader ?_ hshort.le hroom
      rw [stored_count]
      omega
    · exact absurd (hheader.symm.trans hno) Bool.noConfusion
    · have hpositive : (buf.stored x x.length).count ≠ 0 := by
        rw [stored_count]
        unfold sectionHdrSize at hleast
        omega
      dsimp only
      rw [accumulate_append hlength hroom hheader hshort, accumulate_after,
        sectionBufAdd_body (by exact hheader) hpositive (by rw [stored_count, stored_len]; omega)]
  · refine ⟨⟨buf.stored x (buf.len - buf.count), used + (buf.len - buf.count), 1⟩,
      accumulate_full hroom hheader hcount hfull, ?_, Or.inr (Or.inl rfl), fun hno => absurd hno one_ne_zero,
      fun _ hno => ?_, fun hno => absurd hno one_ne_zero, fun _ y => ⟨_, ?_, rfl, rfl, fun _ => rfl⟩⟩
    · refine AreaInv.of_header ((stored_length (by omega) (by omega)).trans hlength) hheader ?_ ?_ hroom
      · rw [stored_count]
        omega
      · rw [stored_count, stored_len]
        omega
    · exact absurd (hheader.symm.trans hno) Bool.noConfusion
    · exact (accumulate_append_full hroom hheader hcount hfull).trans (accumulate_full hroom hheader hcount hfull)

theorem checkLength_outcome (hlength : buf.area.length = buf.max) (hleast : sectionHdrSize ≤ buf.max)
    (hcount : buf.count = sectionHdrSize) (hheader : buf.header = false) (x : List UInt8) (used : ℕ) :
    ∃ r, Outcome (checkLength buf · used) x used r := by
  rcases Nat.lt_or_ge buf.max (sectionHdrSize + sectionLengthField buf.area) with hlong | hfits
  · have hcall : ∀ frag, checkLength buf frag used
        = some ⟨{ buf with len := sectionHdrSize + sectionLengthField buf.area }, frag.length + used, -erange⟩ :=
      fun frag => if_pos hlong
    refine ⟨_, hcall x, ?_, Or.inr (Or.inr rfl), fun hno => absurd hno erange_status, fun hno => absurd rfl hno,
      fun hno => absurd hno erange_status, fun _ y => ⟨_, hcall (x ++ y), rfl, rfl, fun hno => absurd rfl hno⟩⟩
    refine ⟨hlength, hleast, fun _ hlt => ?_, fun _ _ => ⟨hcount, hlong⟩, fun hyes => ?_⟩
    · exact absurd hcount (Nat.ne_of_lt hlt)
    · exact absurd (hheader.symm.trans hyes) Bool.noConfusion
  · have hcall : ∀ frag, checkLength buf frag used = accumulate
        { buf with len := sectionHdrSize + sectionLengthField buf.area, header := true } frag used :=
      fun frag => if_neg (Nat.not_lt.mpr hfits)
    have hinv : AreaInv { buf with len := sectionHdrSize + sectionLengthField buf.area, header := true } :=
      AreaInv.of_header hlength rfl hcount.ge (hcount.le.trans (Nat.le_add_right _ _)) hfits
    obtain ⟨r, hr⟩ := accumulate_outcome hinv rfl x used
    exact ⟨r, funext hcall ▸ hr⟩

theorem grabHeader_outcome (h : AreaInv buf) (hheader : buf.header = false) (x : List UInt8) (used : ℕ)
    (hsome : buf.count ≠ 0 ∨ x ≠ []) : ∃ r, Outcome (grabHeader buf · used) x used r := by
  have hlength := h.room
  have hleast := h.least
  have hcount : buf.count ≤ sectionHdrSize := by
    rcases Nat.lt_or_ge buf.count sectionHdrSize with hlt | hge
    · exact hlt.le
    · exact (h.bad_header hheader hge).1.le
  rcases Nat.lt_or_ge (buf.count + x.length) sectionHdrSize with hshort | hfull
  · have hlen := h.partial_header hheader (by omega)
    refine ⟨⟨buf.stored x x.length, used + x.length, 0⟩, grabHeader_short hleast hshort, ?_, Or.inl rfl, fun _ => rfl,
      fun _ _ => hshort, fun _ y => ?_, fun hno => absurd rfl hno⟩
    · refine ⟨?_, hleast, fun _ _ => hlen, fun _ hge => ?_, fun hyes => ?_⟩
      · rw [stored_length le_rfl (by omega)]
        exact hlength
      · rw [stored_count] at hge
        omega
      · exact absurd (hheader.symm.trans hyes) Bool.noConfusion
    · have hpositive : (buf.stored x x.length).count ≠ 0 := by
        rw [stored_count]
        rcases hsome with hcount | hx
        · omega
        · have := List.length_pos_of_ne_nil hx
          omega
      dsimp only
      rw [grabHeader_append hlength hleast hshort, grabHeader_after, sectionBufAdd_header (by exact hheader) hpositive]
  · obtain ⟨copy, hcopy⟩ : ∃ copy, copy = sectionHdrSize - buf.count := ⟨_, rfl⟩
    have happend : ∀ y : List UInt8, (x ++ y).length = x.length + y.length := fun y => List.length_append
    have harea : (buf.stored x copy).area.length = buf.max := (stored_length (by omega) (by omega)).trans hlength
    obtain ⟨r, hr⟩ := checkLength_outcome harea hleast (by rw [stored_count]; omega) hheader (x.drop copy) (used + copy)
    have hcall : ∀ y, grabHeader buf (x ++ y) used
        = checkLength (buf.stored x copy) (x.drop copy ++ y) (used + copy) := by
      intro y
      rw [grabHeader_full hleast hcount (by have := happend y; omega), ← hcopy, stored_append_of_le y (by omega),
        List.drop_append_of_le_length (by omega)]
    refine ⟨r, ?_, hr.inv, hr.status, fun hzero => ?_, hr.open_header, fun hzero y => ?_, fun hne y => ?_⟩
    · have hnil := hcall []
      rw [List.append_nil, List.append_nil] at hnil
      exact hnil.trans hr.result
    · rw [hr.all_used hzero, List.length_drop]
      omega
    · exact (hcall y).trans (hr.continues hzero y)
    · obtain ⟨r', hr', hagrees⟩ := hr.ends hne y
      exact ⟨r', (hcall y).trans hr', hagrees⟩

end Outcome

/-! ### The padding -/

theorem skipPadding_used (x : List UInt8) (used : ℕ) :
    (skipPadding x used).2 + (skipPadding x used).1.length = used + x.length := by
  induction x generalizing used with
  | nil => rfl
  | cons b x ih =>
    rw [skipPadding]
    split
    · rw [ih, List.length_cons]
      omega
    · rfl

theorem skipPadding_append (x y : List UInt8) (used : ℕ) :
    skipPadding (x ++ y) used = if (skipPadding x used).1 = [] then skipPadding y (skipPadding x used).2
      else ((skipPadding x used).1 ++ y, (skipPadding x used).2) := by
  induction x generalizing used with
  | nil => rfl
  | cons b x ih =>
    rw [List.cons_append, skipPadding, skipPadding]
    split
    · exact ih (used + 1)
    · rfl

theorem skipPadding_after (x : List UInt8) (used : ℕ) :
    skipPadding x used = ((skipPadding x 0).1, used + (skipPadding x 0).2) := by
  induction x generalizing used with
  | nil => rfl
  | cons b x ih =>
    rw [skipPadding, skipPadding]
    split
    · rw [ih (used + 1), ih (0 + 1)]
      simp only [Prod.mk.injEq, true_and]
      omega
    · rfl

section Add

variable {buf : SectionArea}

theorem sectionBufAdd_start (hheader : buf.header = false) (hcount : buf.count = 0) (frag : List UInt8) :
    sectionBufAdd buf frag = if (skipPadding frag 0).1 = [] then some ⟨buf, (skipPadding frag 0).2, 0⟩
      else grabHeader buf (skipPadding frag 0).1 (skipPadding frag 0).2 := by
  simp [sectionBufAdd, SectionArea.finished, hcount, hheader]

theorem sectionBufAdd_start_outcome (h : AreaInv buf) (hheader : buf.header = false) (hcount : buf.count = 0)
    (x : List UInt8) : ∃ r, Outcome (sectionBufAdd buf) x 0 r := by
  have hused := skipPadding_used x 0
  have happend := fun y => skipPadding_append x y 0
  by_cases hall : (skipPadding x 0).1 = []
  · rw [hall, List.length_nil] at hused
    simp only [hall, if_true] at happend
    refine ⟨⟨buf, (skipPadding x 0).2, 0⟩, ?_, h, Or.inl rfl, fun _ => hused, fun _ _ => ?_, fun _ y => ?_,
      fun hno => absurd rfl hno⟩
    · rw [sectionBufAdd_start hheader hcount, if_pos hall]
    · rw [hcount]
      decide
    · rw [sectionBufAdd_start hheader hcount, sectionBufAdd_start hheader hcount, happend, skipPadding_after y]
      split
      · rfl
      · rw [grabHeader_after, grabHeader_after (skipPadding y 0).2, Option.map_map]
        congr 1
        funext r
        simp only [Function.comp_apply, AreaResult.after, Nat.add_assoc]
  · simp only [hall, if_false] at happend
    have hcall : ∀ y, sectionBufAdd buf (x ++ y)
        = grabHeader buf ((skipPadding x 0).1 ++ y) (skipPadding x 0).2 := by
      intro y
      rw [sectionBufAdd_start hheader hcount, happend, if_neg fun hno => hall (List.append_eq_nil_iff.mp hno).1]
    obtain ⟨r, hr⟩ := grabHeader_outcome h hheader (skipPadding x 0).1 (skipPadding x 0).2 (Or.inr hall)
    refine ⟨r, ?_, hr.inv, hr.status, fun hzero => (hr.all_used hzero).trans hused, hr.open_header,
      fun hzero y => (hcall y).trans (hr.continues hzero y), fun hne y => ?_⟩
    · have hnil := hcall []
      rw [List.append_nil, List.append_nil] at hnil
      exact hnil.trans hr.result
    · obtain ⟨r', hr', hagrees⟩ := hr.ends hne y
      exact ⟨r', (hcall y).trans hr', hagrees⟩

theorem sectionBufAdd_outcome (h : AreaInv buf) (x : List UInt8) : ∃ r, Outcome (sectionBufAdd buf) x 0 r := by
  cases hheader : buf.header with
  | false =>
    by_cases hcount : buf.count = 0
    · exact sectionBufAdd_start_outcome h hheader hcount x
    · obtain ⟨r, hr⟩ := grabHeader_outcome h hheader x 0 (Or.inl hcount)
      exact ⟨r, (funext (sectionBufAdd_header hheader hcount) : sectionBufAdd buf = _) ▸ hr⟩
  | true =>
    have hbody := h.section_body hheader
    by_cases hdone : buf.count = buf.len
    · have hcall : ∀ frag, sectionBufAdd buf frag = some ⟨buf, 0, 1⟩ := by
        intro frag
        simp [sectionBufAdd, SectionArea.finished, hheader, hdone]
      refine ⟨⟨buf, 0, 1⟩, hcall x, h, Or.inr (Or.inl rfl), fun hno => absurd hno one_ne_zero, fun _ hno => ?_,
        fun hno => absurd hno one_ne_zero, fun _ y => ⟨_, hcall (x ++ y), rfl, rfl, fun _ => rfl⟩⟩
      exact absurd (hheader.symm.trans hno) Bool.noConfusion
    · have hcount : buf.count ≠ 0 := by
        unfold sectionHdrSize at hbody
        omega
      obtain ⟨r, hr⟩ := accumulate_outcome h hheader x 0
      exact ⟨r, (funext (sectionBufAdd_body hheader hcount hdone) : sectionBufAdd buf = _) ▸ hr⟩

theorem accumulate_max (h : accumulate buf frag used = some r) : r.buf.max = buf.max := by
  obtain ⟨stored, hstore, rfl⟩ := Option.map_eq_some_iff.mp h
  rw [store_eq hstore, stored_max]

theorem grabHeader_max (h : grabHeader buf frag used = some r) : r.buf.max = buf.max := by
  obtain ⟨stored, hstore, hrest⟩ := Option.bind_eq_some_iff.mp h
  obtain rfl := store_eq hstore
  unfold checkLength at hrest
  dsimp only at hrest
  split at hrest
  · rw [← Option.some.inj hrest, stored_max]
  · split at hrest
    · rw [← Option.some.inj hrest, stored_max]
    · have hmax := accumulate_max hrest
      exact hmax

theorem sectionBufAdd_max (h : sectionBufAdd buf frag = some r) : r.buf.max = buf.max := by
  unfold sectionBufAdd at h
  dsimp only at h
  generalize (if buf.count = 0 then skipPadding frag 0 else (frag, 0)) = skipped at h
  split at h
  · rw [← Option.some.inj h]
  · split at h
    · rw [← Option.some.inj h]
    · split at h
      · exact accumulate_max h
      · exact grabHeader_max h

/-! ### Chunks -/

theorem feed_eq (chunk : List UInt8) (chunks : List (List UInt8)) (fuel : ℕ) (hfuel : chunks.length < fuel)
    (h : AreaInv buf) : ∃ r r', feed fuel buf (chunk :: chunks) = some r ∧
      sectionBufAdd buf (chunk :: chunks).flatten = some r' ∧ r.Agrees r' := by
  induction chunks generalizing chunk buf fuel with
  | nil =>
    obtain ⟨r, hr⟩ := sectionBufAdd_outcome h chunk
    obtain ⟨fuel, rfl⟩ : ∃ k, fuel = k + 1 := ⟨fuel - 1, by omega⟩
    refine ⟨r, r, ?_, ?_, rfl, rfl, fun _ => rfl⟩
    · rw [feed, hr.result, Option.bind_some]
      split
      · rfl
      next hzero =>
        have hrest : chunk.drop r.used = [] := by
          rw [hr.all_used (not_not.mp hzero), Nat.zero_add, List.drop_length]
        simp only [hrest, if_true]
        cases fuel <;> simp [feed, not_not.mp hzero, AreaResult.ext_iff]
    · rw [List.flatten_cons, List.flatten_nil, List.append_nil]
      exact hr.result
  | cons next chunks ih =>
    obtain ⟨r, hr⟩ := sectionBufAdd_outcome h chunk
    obtain ⟨fuel, rfl⟩ : ∃ k, fuel = k + 1 := ⟨fuel - 1, by omega⟩
    by_cases hzero : r.status = 0
    · obtain ⟨s, s', hs, hs', hagrees⟩ := ih next fuel (by simpa using hfuel) hr.inv
      have hrest : chunk.drop r.used = [] := by rw [hr.all_used hzero, Nat.zero_add, List.drop_length]
      refine ⟨s.after r.used, s'.after r.used, ?_, ?_, hagrees.1, hagrees.2.1, fun hne => ?_⟩
      · rw [feed, hr.result, Option.bind_some, if_neg (not_not.mpr hzero)]
        simp only [hrest, if_true, hs, Option.map_some]
        rfl
      · rw [List.flatten_cons, hr.continues hzero, hs', Option.map_some]
      · exact congrArg (r.used + ·) (hagrees.2.2 hne)
    · obtain ⟨r', hr', hagrees⟩ := hr.ends hzero (next :: chunks).flatten
      refine ⟨r, r', ?_, ?_, hagrees⟩
      · rw [feed, hr.result, Option.bind_some, if_pos hzero]
      · rw [List.flatten_cons]
        exact hr'

end Add

/-! ### All states -/

theorem einval_status : -einval ≠ 0 := by decide

theorem AreaInv.init {max : ℕ} (room : buf.area.length = max) (ok : (sectionBufInit buf max).1 = 0) :
    AreaInv (sectionBufInit buf max).2 := by
  unfold sectionBufInit at ok ⊢
  split at ok
  · exact absurd ok einval_status
  next hleast =>
    rw [if_neg hleast]
    refine ⟨room, Nat.not_lt.mp hleast, fun _ _ => rfl, fun _ hge => ?_, fun hno => Bool.noConfusion hno⟩
    exact absurd hge (by simp [sectionHdrSize])

theorem AreaInv.reset {buf : SectionArea} (h : AreaInv buf) : AreaInv (sectionBufReset buf) := by
  unfold sectionBufReset sectionBufInit
  rw [if_neg (Nat.not_lt.mpr h.least)]
  refine ⟨h.room, h.least, fun _ _ => rfl, fun _ hge => ?_, fun hno => Bool.noConfusion hno⟩
  exact absurd hge (by simp [sectionHdrSize])

/-- The invariant over all calls; a header that stays without its section is one that is too long. -/
theorem Reachable.inv {last : ℤ} (h : Reachable buf last) :
    AreaInv buf ∧ (last ≠ -erange → buf.header = false → buf.count < sectionHdrSize) := by
  induction h with
  | init room ok =>
    have hinv := AreaInv.init room ok
    refine ⟨hinv, fun _ _ => ?_⟩
    unfold sectionBufInit at ok ⊢
    split at ok
    · exact absurd ok einval_status
    next hleast =>
      rw [if_neg hleast]
      simp [sectionHdrSize]
  | @reset buf last h ih =>
    refine ⟨ih.1.reset, fun _ _ => ?_⟩
    unfold sectionBufReset sectionBufInit
    rw [if_neg (Nat.not_lt.mpr ih.1.least)]
    simp [sectionHdrSize]
  | @add buf last frag r h call ih =>
    obtain ⟨r', hr'⟩ := sectionBufAdd_outcome ih.1 frag
    obtain rfl : r = r' := Option.some.inj (call.symm.trans hr'.result)
    exact ⟨hr'.inv, hr'.open_header⟩

theorem Reachable.bounds {last : ℤ} (h : Reachable buf last) (hlast : last ≠ -erange) :
    buf.count ≤ buf.len ∧ buf.len ≤ buf.max := by
  obtain ⟨hinv, hopen⟩ := h.inv
  cases hheader : buf.header with
  | true => exact (hinv.section_body hheader).2
  | false =>
    have hshort := hopen hlast hheader
    rw [hinv.partial_header hheader hshort]
    exact ⟨hshort.le, hinv.least⟩

/-! ### What the memory is for -/

def SectionArea.toBuf (buf : SectionArea) : SectionBuf :=
  ⟨buf.max, buf.count, buf.len, buf.header, buf.waitPdu, buf.area.take buf.count⟩

def AreaResult.toResult (r : AreaResult) : AddResult := ⟨r.buf.toBuf, r.used, r.status⟩

theorem toBuf_stored (frag : List UInt8) {copy : ℕ} (hcopy : copy ≤ frag.length)
    (hcount : buf.count ≤ buf.area.length) : (buf.stored frag copy).toBuf = buf.toBuf.store frag copy := by
  have hfront : (buf.area.take buf.count).length = buf.count := List.length_take_of_le hcount
  have hlength : (frag.take copy).length = copy := List.length_take_of_le hcopy
  unfold SectionArea.toBuf SectionArea.stored SectionBuf.store
  simp only [SectionBuf.mk.injEq, true_and]
  rw [List.take_take, Nat.min_self, ← List.append_assoc,
    List.take_append_of_le_length (by rw [List.length_append, hfront, hlength])]
  exact List.take_of_length_le (by rw [List.length_append, hfront, hlength])

theorem toBuf_accumulate (hcount : buf.count ≤ buf.area.length) (h : accumulate buf frag used = some r) :
    r.toResult = Ucsi.accumulate buf.toBuf frag used := by
  obtain ⟨stored, hstore, rfl⟩ := Option.map_eq_some_iff.mp h
  obtain rfl := store_eq hstore
  have hstored := toBuf_stored frag (min_le_right (buf.len - buf.count) frag.length) hcount
  unfold AreaResult.toResult Ucsi.accumulate
  rw [hstored]
  rfl

theorem toBuf_lengthField (hcount : buf.count = sectionHdrSize) :
    sectionLengthField buf.toBuf.data = sectionLengthField buf.area := by
  have hget : ∀ i, i < sectionHdrSize → (buf.area.take buf.count).getD i 0 = buf.area.getD i 0 := by
    intro i hi
    rw [List.getD_eq_getElem?_getD, List.getD_eq_getElem?_getD, List.getElem?_take_of_lt (by omega)]
  unfold sectionLengthField SectionArea.toBuf
  rw [hget 1 (by decide), hget 2 (by decide)]

theorem toBuf_checkLength (hlength : buf.count ≤ buf.area.length) (h : checkLength buf frag used = some r) :
    r.toResult = if buf.max < sectionHdrSize + sectionLengthField buf.area then
      ⟨{ buf.toBuf with len := sectionHdrSize + sectionLengthField buf.area }, frag.length + used, -erange⟩
    else Ucsi.accumulate
      { buf.toBuf with len := sectionHdrSize + sectionLengthField buf.area, header := true } frag used := by
  unfold checkLength at h
  dsimp only at h
  split at h
  next hlong =>
    rw [if_pos hlong, ← Option.some.inj h]
    rfl
  next hfits =>
    rw [if_neg hfits]
    exact toBuf_accumulate (by exact hlength) h

theorem toBuf_grabHeader (hlength : buf.area.length = buf.max) (hcount : buf.count ≤ buf.max)
    (h : grabHeader buf frag used = some r) : r.toResult = Ucsi.grabHeader buf.toBuf frag used := by
  obtain ⟨stored, hstore, hrest⟩ := Option.bind_eq_some_iff.mp h
  have hroom := store_room hstore
  obtain rfl := store_eq hstore
  have hstored := toBuf_stored frag (min_le_right (sectionHdrSize - buf.count) frag.length)
    (hcount.trans hlength.ge)
  have harea : (buf.stored frag (min (sectionHdrSize - buf.count) frag.length)).area.length = buf.area.length :=
    stored_length (min_le_right _ _) (hroom.trans hlength.ge)
  unfold Ucsi.grabHeader
  rw [show buf.toBuf.count = buf.count from rfl]
  dsimp only at hrest ⊢
  rw [← hstored]
  split at hrest
  next hshort =>
    rw [if_pos (by exact hshort), ← Option.some.inj hrest]
    rfl
  next hfull =>
    rw [if_neg (by exact hfull), toBuf_lengthField (not_not.mp hfull)]
    exact toBuf_checkLength (by rw [harea, hlength]; exact hroom) hrest

/-- **PROVED**: on the bytes received, it is the section buffer without its memory. -/
theorem sectionBufAdd_toBuf (hinv : AreaInv buf) (h : sectionBufAdd buf frag = some r) :
    r.toResult = Ucsi.sectionBufAdd buf.toBuf frag := by
  unfold sectionBufAdd at h
  unfold Ucsi.sectionBufAdd
  rw [show buf.toBuf.finished = buf.finished from rfl, show buf.toBuf.count = buf.count from rfl,
    show buf.toBuf.header = buf.header from rfl]
  split at h
  next hdone =>
    rw [if_pos hdone, ← Option.some.inj h]
    rfl
  next hopen =>
    rw [if_neg hopen]
    dsimp only at h ⊢
    generalize (if buf.count = 0 then skipPadding frag 0 else (frag, 0)) = skipped at h ⊢
    split at h
    next hpadding =>
      rw [if_pos hpadding, ← Option.some.inj h]
      rfl
    next hmore =>
      rw [if_neg hmore]
      split at h
      next hheader =>
        rw [if_pos hheader]
        exact toBuf_accumulate (hinv.count_le.trans hinv.room.ge) h
      next hheader =>
        rw [if_neg hheader]
        exact toBuf_grabHeader hinv.room hinv.count_le h

/-- **In every state that calls lead to**, a call has a result, which is that of the section buffer. -/
theorem Reachable.add_toBuf {last : ℤ} (h : Reachable buf last) (frag : List UInt8) :
    (sectionBufAdd buf frag).map (·.toResult) = some (Ucsi.sectionBufAdd buf.toBuf frag) := by
  obtain ⟨r, hr⟩ := sectionBufAdd_outcome h.inv.1 frag
  rw [hr.result, Option.map_some, sectionBufAdd_toBuf h.inv.1 hr.result]

/-- The rest of a section of five bytes, behind padding and a call that got four of them. -/
theorem Reachable.add_toBuf_rest :
    (sectionBufAdd ⟨6, 4, 5, true, true, [0x42, 0, 2, 7, 9, 9]⟩ [8, 0x43, 0]).map (·.toResult) =
      some (Ucsi.sectionBufAdd ⟨6, 4, 5, true, true, [0x42, 0, 2, 7]⟩ [8, 0x43, 0]) := by
  have hfirst := @Reachable.init ⟨0, 0, 0, false, false, [9, 9, 9, 9, 9, 9]⟩ 6 rfl rfl
  have hcall : sectionBufAdd ⟨6, 0, 3, false, true, [9, 9, 9, 9, 9, 9]⟩ [0xff, 0x42, 0, 2, 7] =
      some ⟨⟨6, 4, 5, true, true, [0x42, 0, 2, 7, 9, 9]⟩, 5, 0⟩ := by
    decide
  exact Reachable.add_toBuf (hfirst.add hcall) [8, 0x43, 0]

/-! ### The section buffer -/

/-- **PROVED**: in every state that calls lead to, `count` stays within `max`, and within `len` unless the section was
too long; the next call copies nothing over the end; and chunks make no difference, except that a section that is too
long counts the bytes of the last chunk only. -/
theorem sectionBuf_chunks {buf : SectionArea} {last : ℤ} (h : Reachable buf last) :
    buf.count ≤ buf.max ∧ (last ≠ -erange → buf.count ≤ buf.len ∧ buf.len ≤ buf.max) ∧
    (∀ frag, ∃ r, sectionBufAdd buf frag = some r ∧ r.buf.area.length = r.buf.max ∧ r.buf.max = buf.max) ∧
    ∀ chunks : List (List UInt8), chunks ≠ [] → ∀ fuel, chunks.length ≤ fuel →
      ∃ r r', feed fuel buf chunks = some r ∧ sectionBufAdd buf chunks.flatten = some r' ∧
        r.buf = r'.buf ∧ r.status = r'.status ∧ (r.status ≠ -erange → r.used = r'.used) := by
  have hinv := h.inv.1
  refine ⟨hinv.count_le, h.bounds, fun frag => ?_, fun chunks hchunks fuel hfuel => ?_⟩
  · obtain ⟨r, hr⟩ := sectionBufAdd_outcome hinv frag
    exact ⟨r, hr.result, hr.inv.room, sectionBufAdd_max hr.result⟩
  · obtain ⟨chunk, chunks, rfl⟩ := List.exists_cons_of_ne_nil hchunks
    obtain ⟨r, r', hr, hr', hbuf, hstatus, hused⟩ := feed_eq chunk chunks fuel hfuel hinv
    exact ⟨r, r', hr, hr', hbuf.symm, hstatus.symm, fun hne => (hused hne).symm⟩

/-- A buffer of four bytes after a header that announces two: the states between calls that follow a section that is too
long. -/
theorem sectionBuf_chunks_long : (∃ r, sectionBufAdd ⟨4, 3, 5, false, true, [0x42, 0, 2, 7]⟩ [1, 2] = some r ∧
      r.buf.area.length = r.buf.max ∧ r.buf.max = 4) ∧
    ∃ r r', feed 2 ⟨4, 3, 5, false, true, [0x42, 0, 2, 7]⟩ [[1], [2]] = some r ∧
      sectionBufAdd ⟨4, 3, 5, false, true, [0x42, 0, 2, 7]⟩ [1, 2] = some r' ∧
        r.buf = r'.buf ∧ r.status = r'.status ∧ (r.status ≠ -erange → r.used = r'.used) := by
  have hstart : Reachable (sectionBufInit ⟨0, 0, 0, false, false, [9, 9, 9, 7]⟩ 4).2 0 := Reachable.init rfl rfl
  have hcall : sectionBufAdd (sectionBufInit ⟨0, 0, 0, false, false, [9, 9, 9, 7]⟩ 4).2 [0xff, 0x42, 0, 2]
      = some ⟨⟨4, 3, 5, false, true, [0x42, 0, 2, 7]⟩, 4, -erange⟩ := rfl
  have hlong : Reachable ⟨4, 3, 5, false, true, [0x42, 0, 2, 7]⟩ (-erange) := hstart.add hcall
  obtain ⟨-, -, hnext, hchunks⟩ := sectionBuf_chunks hlong
  exact ⟨hnext [1, 2], hchunks [[1], [2]] (List.cons_ne_nil _ _) 2 le_rfl⟩

end BgtDvb.Ucsi.Area
