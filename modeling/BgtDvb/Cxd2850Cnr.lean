import BgtDvb.Cxd2850Ber

/-!
# The carrier-to-noise ratio of the CXD2850

`cxd2850_read_dvbs_cnr` and `cxd2850_read_dvbs2_cnr` look the logarithm of a reading up in a table of
falling ratios.  They are one function with a table each.  The kernel's `intlog10` is a parameter, any
function on 32-bit words.

* `scanCnr_isSome` — **PROVED**: the loop stays inside the table;
* `read_cnr_iff` — **PROVED**: the values at which both functions keep it.
-/

namespace BgtDvb.Cxd2850

def eagain : ℤ := 11

/-! ### Tables -/

/-- `struct cntable_s_tag`: a value and the ratio there. -/
structure CnEntry where
  val : ℤ
  cn : ℤ
deriving DecidableEq

/-- From an entry to the next one the value rises, and the ratio falls at least as much. -/
def CnEntry.Above (lo hi : CnEntry) : Prop := lo.val < hi.val ∧ hi.val - lo.val ≤ lo.cn - hi.cn

instance (lo hi : CnEntry) : Decidable (lo.Above hi) := inferInstanceAs (Decidable (_ ∧ _))

/-- A table of at least one entry. -/
structure CnTable where
  first : CnEntry
  rest : List CnEntry
  falling : (first :: rest).IsChain CnEntry.Above
  last_cn : ((first :: rest).getLast (List.cons_ne_nil _ _)).cn = 0
  first_val : -3306 ≤ first.val ∧ first.val ≤ -30

def CnTable.entries (t : CnTable) : List CnEntry := t.first :: t.rest

def CnTable.last (t : CnTable) : CnEntry := (t.first :: t.rest).getLast (List.cons_ne_nil _ _)

/-- `cns` -/
def cns : CnTable where
  first := ⟨-130, 1000⟩
  rest := [⟨-123, 900⟩, ⟨-114, 800⟩, ⟨-106, 700⟩, ⟨-99, 600⟩, ⟨-92, 500⟩, ⟨-87, 400⟩, ⟨-82, 300⟩, ⟨-78, 200⟩,
    ⟨-72, 100⟩, ⟨-69, 0⟩]
  falling := by decide
  last_cn := by decide
  first_val := by decide

/-- `cns2` -/
def cns2 : CnTable where
  first := ⟨-141, 1100⟩
  rest := [⟨-132, 1000⟩, ⟨-122, 900⟩, ⟨-113, 800⟩, ⟨-104, 700⟩, ⟨-95, 600⟩, ⟨-86, 500⟩, ⟨-77, 400⟩, ⟨-68, 300⟩,
    ⟨-60, 200⟩, ⟨-52, 100⟩, ⟨-45, 0⟩]
  falling := by decide
  last_cn := by decide
  first_val := by decide

/-! ### The functions -/

/-- `(s32)` -/
def s32 (x : ℤ) : ℤ := x.bmod (2 ^ 32)

/-- `(s16)` -/
def s16 (x : ℤ) : ℤ := x.bmod (2 ^ 16)

/-- What a pass at the entry `hi` behind `lo` makes of the value; the value is in the range of the
table, where nothing wraps around. -/
def segment (lo hi : CnEntry) (value : ℤ) : ℤ :=
  ((value - hi.val) * (lo.cn - hi.cn)).tdiv (lo.val - hi.val) + hi.cn

/-- `tbl[i]` for an `s32` index; a fault outside the table. -/
def entryAt (tbl : List CnEntry) : ℤ → Option CnEntry
  | .ofNat i => tbl[i]?
  | .negSucc _ => none

/-- `*cnr` after so many passes of the loop, which does not end at the entry that was looked for. -/
def scanCnr (tbl : List CnEntry) (value cnr : ℤ) : ℕ → Option ℤ
  | 0 => some cnr
  | cnt + 1 => do
    let cnr ← scanCnr tbl value cnr cnt
    let hi ← entryAt tbl cnt
    if value < hi.val then
      let lo ← entryAt tbl (cnt - 1)
      return s16 (segment lo hi value)
    else return cnr

/-- `((u32)(data[1] & 0x1F) << 8) | (u32)data[2]` -/
def quickcndt (t : Reads) : UInt32 :=
  ((t.content 0x1211 &&& 0x1f).toUInt32 <<< 8) ||| (t.content 0x1212).toUInt32

/-- `(s32)(intlog10(CPM_QUICKCNDT) - intlog10(4096))` -/
def logDiff (intlog10 : UInt32 → UInt32) (t : Reads) : ℤ :=
  (intlog10 (quickcndt t) - intlog10 4096).toBitVec.toInt

/-- The two functions with their table: the result and `*cnr`. -/
def readCnr (tbl : CnTable) (intlog10 : UInt32 → UInt32) (t : Reads) (cnr : ℤ) : Option (ℤ × ℤ) :=
  if t.ok 0 = false then some (-eremoteio, cnr)
  else if t.content 0x1210 &&& 0x01 = 0x00 then some (-eagain, cnr)
  else
    let value := logDiff intlog10 t
    if value ≤ tbl.first.val then some (0, s16 (s32 (s32 (value * -10) - 300)))
    else do
      let _cnr ← scanCnr tbl.entries value cnr tbl.entries.length
      return (0, 0)

/-- `cxd2850_read_dvbs_cnr` -/
def readDvbsCnr : (UInt32 → UInt32) → Reads → ℤ → Option (ℤ × ℤ) := readCnr cns

/-- `cxd2850_read_dvbs2_cnr` -/
def readDvbs2Cnr : (UInt32 → UInt32) → Reads → ℤ → Option (ℤ × ℤ) := readCnr cns2

/-! ### The ratio that a table stands for -/

/-- The straight line from `lo` to `hi`. -/
def interpolate (lo hi : CnEntry) (v : ℤ) : ℤ := (hi.val - v) * (lo.cn - hi.cn) / (hi.val - lo.val) + hi.cn

def neighbours (v : ℤ) : List CnEntry → Option (CnEntry × CnEntry)
  | lo :: hi :: es => if v < hi.val then some (lo, hi) else neighbours v (hi :: es)
  | _ => none

/-- The ratio at a value: a line below the table, lines between its entries, and 0 above it. -/
def wanted (tbl : CnTable) (v : ℤ) : ℤ :=
  if v ≤ tbl.first.val then -10 * v - 300
  else if tbl.last.val ≤ v then 0
  else
    match neighbours v tbl.entries with
    | some (lo, hi) => interpolate lo hi v
    | none => 0

variable {lo hi e : CnEntry} {v : ℤ} {es : List CnEntry}

theorem interpolate_pos (h : lo.Above hi) (hcn : 0 ≤ hi.cn) (hv : v < hi.val) : 0 < interpolate lo hi v := by
  obtain ⟨hval, hsteep⟩ := h
  have hwidth : 0 < hi.val - lo.val := by omega
  have hone : 1 ≤ (hi.val - v) * (lo.cn - hi.cn) / (hi.val - lo.val) := by
    apply Int.le_ediv_of_mul_le hwidth
    calc 1 * (hi.val - lo.val) ≤ 1 * (lo.cn - hi.cn) := by omega
      _ ≤ (hi.val - v) * (lo.cn - hi.cn) := by
        apply mul_le_mul_of_nonneg_right _ (by omega)
        omega
  show 0 < _ + hi.cn
  omega

theorem cn_nonneg (h : (e :: es).IsChain CnEntry.Above) (hlast : 0 ≤ ((e :: es).getLast (List.cons_ne_nil _ _)).cn) :
    ∀ x ∈ e :: es, 0 ≤ x.cn := by
  induction es generalizing e with
  | nil =>
    intro x hx
    rwa [List.mem_singleton.mp hx]
  | cons e' es ih =>
    obtain ⟨hstep, hrest⟩ := List.isChain_cons_cons.mp h
    rw [List.getLast_cons (List.cons_ne_nil _ _)] at hlast
    have hall := ih hrest hlast
    intro x hx
    rcases List.mem_cons.mp hx with rfl | hx
    · have hnext := hall e' List.mem_cons_self
      obtain ⟨hval, hsteep⟩ := hstep
      omega
    · exact hall x hx

theorem val_le_getLast (h : (e :: es).IsChain CnEntry.Above) :
    e.val ≤ ((e :: es).getLast (List.cons_ne_nil _ _)).val := by
  induction es generalizing e with
  | nil => exact le_rfl
  | cons e' es ih =>
    obtain ⟨hstep, hrest⟩ := List.isChain_cons_cons.mp h
    rw [List.getLast_cons (List.cons_ne_nil _ _)]
    exact hstep.1.le.trans (ih hrest)

theorem exists_neighbours (h : (e :: es).IsChain CnEntry.Above) (hfirst : e.val ≤ v)
    (hlast : v < ((e :: es).getLast (List.cons_ne_nil _ _)).val) :
    ∃ lo hi, neighbours v (e :: es) = some (lo, hi) ∧ lo.Above hi ∧ hi ∈ e :: es ∧ lo.val ≤ v ∧ v < hi.val := by
  induction es generalizing e with
  | nil =>
    have hlt : v < e.val := hlast
    omega
  | cons e' es ih =>
    obtain ⟨hstep, hrest⟩ := List.isChain_cons_cons.mp h
    rw [List.getLast_cons (List.cons_ne_nil _ _)] at hlast
    by_cases hv : v < e'.val
    · exact ⟨e, e', if_pos hv, hstep, List.mem_cons_of_mem _ List.mem_cons_self, hfirst, hv⟩
    · obtain ⟨lo, hi, heq, habove, hmem, hlo, hhi⟩ := ih hrest (by omega) hlast
      exact ⟨lo, hi, (if_neg hv).trans heq, habove, List.mem_cons_of_mem _ hmem, hlo, hhi⟩

theorem wanted_eq (tbl : CnTable) (hfirst : tbl.first.val < v) (hlast : v < tbl.last.val) :
    ∃ lo hi, wanted tbl v = interpolate lo hi v ∧ neighbours v tbl.entries = some (lo, hi) ∧ lo.Above hi ∧
      v < hi.val ∧ 0 ≤ hi.cn := by
  obtain ⟨lo, hi, heq, habove, hmem, -, hhi⟩ := exists_neighbours tbl.falling hfirst.le hlast
  have hcn := cn_nonneg tbl.falling tbl.last_cn.ge hi hmem
  refine ⟨lo, hi, ?_, heq, habove, hhi, hcn⟩
  rw [wanted, if_neg (by omega), if_neg (by omega), CnTable.entries, heq]

theorem wanted_pos (tbl : CnTable) (hfirst : tbl.first.val < v) (hlast : v < tbl.last.val) : 0 < wanted tbl v := by
  obtain ⟨lo, hi, hw, -, habove, hhi, hcn⟩ := wanted_eq tbl hfirst hlast
  rw [hw]
  exact interpolate_pos habove hcn hhi

/-! ### What is stored -/

/-- **No index is outside the table**: the first pass finds nothing, as the value is above the first
entry. -/
theorem scanCnr_isSome (tbl : CnTable) {value : ℤ} (cnr : ℤ) (hfirst : tbl.first.val < value) {n : ℕ}
    (hn : n ≤ tbl.entries.length) : ∃ cnr', scanCnr tbl.entries value cnr n = some cnr' := by
  induction n with
  | zero => exact ⟨cnr, rfl⟩
  | succ cnt ih =>
    obtain ⟨cnr', hprev⟩ := ih (by omega)
    have hcnt : cnt < tbl.entries.length := by omega
    have hhi : entryAt tbl.entries cnt = some tbl.entries[cnt] := List.getElem?_eq_getElem hcnt
    rw [scanCnr, hprev, Option.bind_eq_bind, Option.bind_some, hhi, Option.bind_eq_bind, Option.bind_some]
    by_cases hlt : value < tbl.entries[cnt].val
    · rw [if_pos hlt]
      cases cnt with
      | zero =>
        have hhead : value < tbl.first.val := hlt
        omega
      | succ i =>
        have hi : i < tbl.entries.length := by omega
        have hlo : entryAt tbl.entries ((i + 1 : ℕ) - 1) = some tbl.entries[i] := by
          rw [show ((i + 1 : ℕ) : ℤ) - 1 = i by omega]
          exact List.getElem?_eq_getElem hi
        rw [hlo]
        exact ⟨_, rfl⟩
    · rw [if_neg hlt]
      exact ⟨cnr', rfl⟩

/-- The reading was transferred, and its ready bit is set. -/
structure Ready (t : Reads) : Prop where
  ok : t.ok 0 = true
  bit : t.content 0x1210 &&& 0x01 ≠ 0x00

variable {tbl : CnTable} {intlog10 : UInt32 → UInt32} {t : Reads}

theorem readCnr_eq (hready : Ready t) (cnr : ℤ) :
    readCnr tbl intlog10 t cnr = some (0,
      if logDiff intlog10 t ≤ tbl.first.val then s16 (-10 * logDiff intlog10 t - 300) else 0) := by
  have hok : ¬ t.ok 0 = false := by
    rw [hready.ok]
    decide
  rw [readCnr, if_neg hok, if_neg hready.bit]
  by_cases hlow : logDiff intlog10 t ≤ tbl.first.val
  · have hwrap : s16 (s32 (s32 (logDiff intlog10 t * -10) - 300)) = s16 (-10 * logDiff intlog10 t - 300) := by
      unfold s16 s32
      simp only [Int.bmod_def]
      omega
    rw [if_pos hlow, if_pos hlow, hwrap]
  · obtain ⟨cnr', hscan⟩ := scanCnr_isSome tbl cnr (by omega : tbl.first.val < logDiff intlog10 t) le_rfl
    rw [if_neg hlow, if_neg hlow, hscan]
    rfl

/-! ### The promise of a table -/

/-- A reading stores the ratio of its value; and inside the table a reading with a larger value does
not store a larger ratio. -/
structure CnrSound (tbl : CnTable) (read : Reads → ℤ → Option (ℤ × ℤ)) (intlog10 : UInt32 → UInt32) (t : Reads) :
    Prop where
  stored : ∀ cnr, read t cnr = some (0, wanted tbl (logDiff intlog10 t))
  falling : ∀ t' : Reads, Ready t' → tbl.first.val ≤ logDiff intlog10 t →
    logDiff intlog10 t ≤ logDiff intlog10 t' → logDiff intlog10 t' ≤ tbl.last.val →
    ∀ cnr cnr' r r', read t cnr = some (0, r) → read t' cnr' = some (0, r') → r' ≤ r

/-- The values that are treated right: those above the table, and those below it whose ratio is an `s16`. -/
def Covered (tbl : CnTable) (v : ℤ) : Prop := tbl.last.val ≤ v ∨ -3306 ≤ v ∧ v ≤ tbl.first.val

/-- Below the table a ratio is stored whole exactly if it is an `s16`. -/
theorem s16_line_iff {v : ℤ} (hv : v ≤ -30) : s16 (-10 * v - 300) = -10 * v - 300 ↔ -3306 ≤ v := by
  unfold s16
  rw [Int.bmod_def]
  omega

theorem readCnr_falling (hready : Ready t) (hready' : Ready t') (hfirst : tbl.first.val ≤ logDiff intlog10 t)
    (hle : logDiff intlog10 t ≤ logDiff intlog10 t') {cnr : ℤ} (hr : readCnr tbl intlog10 t cnr = some (0, r))
    (hr' : readCnr tbl intlog10 t' cnr' = some (0, r')) : r' ≤ r := by
  have hval := tbl.first_val
  rw [readCnr_eq hready, Option.some_inj, Prod.mk.injEq] at hr
  rw [readCnr_eq hready', Option.some_inj, Prod.mk.injEq] at hr'
  by_cases hlow : logDiff intlog10 t ≤ tbl.first.val
  · have hwhole := (s16_line_iff (show logDiff intlog10 t ≤ -30 by omega)).mpr (by omega)
    rw [if_pos hlow, hwhole] at hr
    by_cases hlow' : logDiff intlog10 t' ≤ tbl.first.val
    · have heq : logDiff intlog10 t' = logDiff intlog10 t := by omega
      rw [if_pos hlow', heq, hwhole] at hr'
      omega
    · rw [if_neg hlow'] at hr'
      omega
  · have hlow' : ¬ logDiff intlog10 t' ≤ tbl.first.val := by omega
    rw [if_neg hlow] at hr
    rw [if_neg hlow'] at hr'
    omega

theorem readCnr_sound_iff (hready : Ready t) :
    CnrSound tbl (readCnr tbl intlog10) intlog10 t ↔ Covered tbl (logDiff intlog10 t) := by
  have hval := tbl.first_val
  constructor
  · intro hsound
    have hstored := hsound.stored 0
    rw [readCnr_eq hready, Option.some_inj, Prod.mk.injEq] at hstored
    by_cases hlow : logDiff intlog10 t ≤ tbl.first.val
    · rw [if_pos hlow, wanted, if_pos hlow] at hstored
      exact .inr ⟨(s16_line_iff (by omega)).mp hstored.2, hlow⟩
    · rw [if_neg hlow] at hstored
      apply Or.inl
      by_contra hlast
      have hpos := wanted_pos tbl (not_le.mp hlow) (not_le.mp hlast)
      omega
  · intro hcovered
    refine ⟨fun cnr => ?_, fun t' hready' hfirst hle _ cnr cnr' r r' => readCnr_falling hready hready' hfirst hle⟩
    rw [readCnr_eq hready]
    rcases hcovered with hlast | ⟨hlo, hlow⟩
    · by_cases hlow : logDiff intlog10 t ≤ tbl.first.val
      · have hends : tbl.first.val ≤ tbl.last.val := val_le_getLast tbl.falling
        have hwhole := (s16_line_iff (show logDiff intlog10 t ≤ -30 by omega)).mpr (by omega)
        rw [wanted, if_pos hlow, if_pos hlow, hwhole]
      · rw [wanted, if_neg hlow, if_neg hlow, if_pos hlast]
    · rw [wanted, if_pos hlow, if_pos hlow, (s16_line_iff (by omega)).mpr hlo]

/-- **The CNR functions** keep the promise of their tables at the covered values and no others.  Every
reading that is ready is stored without an access outside the table. -/
theorem read_cnr_iff (intlog10 : UInt32 → UInt32) (t : Reads) (hready : Ready t) :
    (∀ cnr, (∃ r, readDvbsCnr intlog10 t cnr = some (0, r)) ∧ ∃ r, readDvbs2Cnr intlog10 t cnr = some (0, r)) ∧
      (CnrSound cns (readDvbsCnr intlog10) intlog10 t ↔ Covered cns (logDiff intlog10 t)) ∧
      (CnrSound cns2 (readDvbs2Cnr intlog10) intlog10 t ↔ Covered cns2 (logDiff intlog10 t)) :=
  ⟨fun cnr => ⟨⟨_, readCnr_eq hready cnr⟩, ⟨_, readCnr_eq hready cnr⟩⟩, readCnr_sound_iff hready,
    readCnr_sound_iff hready⟩

/-- A reading with the value -100, with the logarithm left out. -/
def reading3996 : Reads where
  ok := fun _ => true
  content := fun reg => if reg = 0x1210 then 0x01 else if reg = 0x1211 then 0x0f else 0x9c

theorem reading3996_ready : Ready reading3996 := ⟨rfl, by decide⟩

theorem read_cnr_iff_3996 :
    Ready reading3996 ∧
      (CnrSound cns (readDvbsCnr id) id reading3996 ↔ Covered cns (logDiff id reading3996)) :=
  ⟨reading3996_ready, (read_cnr_iff id reading3996 reading3996_ready).2.1⟩

/-- Between -106 and -99, at -100, the line is at 614. -/
theorem not_cnr_sound : ¬ CnrSound cns (readDvbsCnr id) id reading3996 := by
  intro hsound
  have hstored := hsound.stored 0
  have hread : readDvbsCnr id reading3996 0 = some (0, 0) := by decide
  have hwanted : wanted cns (logDiff id reading3996) = 614 := by decide
  rw [hread, hwanted] at hstored
  cases hstored

end BgtDvb.Cxd2850
