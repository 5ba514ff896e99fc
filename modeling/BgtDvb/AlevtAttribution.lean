import BgtDvb.AlevtVtLine

/-!
# To which page a teletext row belongs

Whatever bit errors there are, as long as addresses can be read: a row of a page that is handed to the cache should have
come after a header with that page's number, with no other header in between but for the same page.

* `rows_attributed` — **PROVED**: without such headers, all rows of all pages that are handed over belong to them.
-/

namespace BgtDvb.Alevt

/-- A header of a magazine with these low digits, which could be read. -/
def HeaderFor (mag : Fin 8) (digits : ℕ) (p : List UInt8) : Prop :=
  lineMag p = mag ∧ linePkt p = 0 ∧ DigitsOk p ∧ lineDigits p = digits

def RowFor (mag : Fin 8) (r : ℕ) (p : List UInt8) : Prop := lineMag p = mag ∧ linePkt p = r

/-- All headers of the magazine between two places are for the same page. -/
def SameBetween (mag : Fin 8) (digits : ℕ) (ps : List (List UInt8)) (i j : ℕ) : Prop :=
  ∀ k < j, i < k → lineMag (ps.getD k []) = mag → linePkt (ps.getD k []) = 0 → HeaderFor mag digits (ps.getD k [])

/-- Row `r` was received after a header for the page, with no header for another page in between. -/
def Attributed (mag : Fin 8) (digits r : ℕ) (ps : List (List UInt8)) (content : List UInt8 → Prop) : Prop :=
  ∃ j < ps.length, RowFor mag r (ps.getD j []) ∧ content (ps.getD j []) ∧
    ∃ i < j, HeaderFor mag digits (ps.getD i []) ∧ SameBetween mag digits ps i j

/-- What is known of a page that is being assembled: the header that began it is the last but for its repetitions, and
all its rows came after that. -/
def Assembling (env : LangEnv) (mag : Fin 8) (ps : List (List UInt8)) (vtp : VtPage) : Prop :=
  vtp.pgno / 256 = mag8 mag ∧ ∃ i < ps.length, HeaderFor mag (vtp.pgno % 256) (ps.getD i []) ∧
    SameBetween mag (vtp.pgno % 256) ps i ps.length ∧
    ∀ r, 1 ≤ r → r ≤ 24 → vtp.lines.getLsbD r = true →
      ∃ hr : r < 25, ∃ j < ps.length, i < j ∧ RowFor mag r (ps.getD j []) ∧
        vtp.data ⟨r, hr⟩ = lineText env vtp.lang (ps.getD j [])

/-- A header whose page number cannot be read, with the number of the page of its magazine as the substitute. -/
def Misleads (vbi : Vbi) (p : List UInt8) : Prop :=
  linePkt p = 0 ∧ ¬DigitsOk p ∧ (vbi.rpage (lineMag p)).page.active = true ∧
    (vbi.rpage (lineMag p)).page.pgno % 256 = lineDigits p

section History

variable {env : LangEnv} {mag : Fin 8} {digits i j : ℕ} {ps : List (List UInt8)} {p : List UInt8}

theorem getD_old (hi : i < ps.length) : (ps ++ [p]).getD i [] = ps.getD i [] := by
  rw [List.getD_eq_getElem?_getD, List.getElem?_append_left hi, ← List.getD_eq_getElem?_getD]

theorem getD_new (ps : List (List UInt8)) (p : List UInt8) : (ps ++ [p]).getD ps.length [] = p := by
  rw [List.getD_eq_getElem?_getD, List.getElem?_concat_length, Option.getD_some]

theorem SameBetween.append (h : SameBetween mag digits ps i j) (hj : j ≤ ps.length) :
    SameBetween mag digits (ps ++ [p]) i j := by
  intro k hk hik
  rw [getD_old (hk.trans_le hj)]
  exact h k hk hik

theorem SameBetween.snoc (h : SameBetween mag digits ps i ps.length)
    (hp : lineMag p = mag → linePkt p = 0 → HeaderFor mag digits p) :
    SameBetween mag digits (ps ++ [p]) i (ps ++ [p]).length := by
  intro k hk hik
  rw [List.length_append, List.length_singleton] at hk
  rcases Nat.lt_succ_iff_lt_or_eq.mp hk with hlt | rfl
  · rw [getD_old hlt]
    exact h k hlt hik
  · rw [getD_new]
    exact hp

theorem SameBetween.mono {j' : ℕ} (h : SameBetween mag digits ps i j) (hj : j' ≤ j) : SameBetween mag digits ps i j' :=
  fun k hk hik => h k (hk.trans_le hj) hik

theorem Attributed.append {r : ℕ} {content : List UInt8 → Prop} (h : Attributed mag digits r ps content) (p : List UInt8) :
    Attributed mag digits r (ps ++ [p]) content := by
  obtain ⟨j, hj, hrow, hcontent, i, hi, hheader, hbetween⟩ := h
  refine ⟨j, hj.trans_le (by simp), ?_, ?_, i, hi, ?_, hbetween.append hj.le⟩
  · rwa [getD_old hj]
  · rwa [getD_old hj]
  · rwa [getD_old (hi.trans hj)]

theorem Assembling.append {vtp vtp' : VtPage} (h : Assembling env mag ps vtp)
    (hp : lineMag p = mag → linePkt p = 0 → HeaderFor mag (vtp.pgno % 256) p) (hpgno : vtp'.pgno = vtp.pgno)
    (hlines : vtp'.lines = vtp.lines) (hlang : vtp'.lang = vtp.lang) (hdata : vtp'.data = vtp.data) :
    Assembling env mag (ps ++ [p]) vtp' := by
  obtain ⟨hmag, i, hi, hheader, hbetween, hrows⟩ := h
  unfold Assembling
  rw [hpgno, hlines, hlang, hdata]
  refine ⟨hmag, i, hi.trans_le (by simp), by rwa [getD_old hi], hbetween.snoc hp, fun r hlow hhigh hbit => ?_⟩
  obtain ⟨hr, j, hj, hij, hrow, htext⟩ := hrows r hlow hhigh hbit
  exact ⟨hr, j, hj.trans_le (by simp), hij, by rwa [getD_old hj], by rwa [getD_old hj]⟩

theorem Assembling.begin {old : RawPage} (ps : List (List UInt8)) (hpkt : linePkt p = 0) (hok : DigitsOk p) :
    Assembling env (lineMag p) (ps ++ [p]) (linePage env p old).page := by
  have hdigits := lineDigits_lt p
  have hmod : (mag8 (lineMag p) * 256 + lineDigits p) % 256 = lineDigits p := by omega
  have hdiv : (mag8 (lineMag p) * 256 + lineDigits p) / 256 = mag8 (lineMag p) := by omega
  unfold Assembling
  rw [linePage_pgno, linePage_lines, hmod, hdiv]
  refine ⟨rfl, ps.length, by simp, ?_, fun k hk hik => ?_, fun r hlow _ hbit => ?_⟩
  · rw [getD_new]
    exact ⟨rfl, hpkt, hok, rfl⟩
  · rw [List.length_append, List.length_singleton] at hk
    omega
  · have hone : (1 : BitVec 32).getLsbD r = decide (r = 0) := by
      have hlit : (1 : BitVec 32) = BitVec.twoPow 32 0 := by decide
      rw [hlit, BitVec.getLsbD_twoPow]
      simp [eq_comm]
    rw [hone] at hbit
    have hzero := of_decide_eq_true hbit
    omega

theorem Assembling.row {old : RawPage} (h : Assembling env (lineMag p) ps old.page) (hlow : linePkt p ≠ 0)
    (hhigh : linePkt p ≤ 24) : Assembling env (lineMag p) (ps ++ [p]) (rowPage env p old).page := by
  obtain ⟨hmag, i, hi, hheader, hbetween, hrows⟩ := h
  refine ⟨hmag, i, hi.trans_le (by simp), ?_, hbetween.snoc fun _ hno => absurd hno hlow, fun r hrlow hrhigh hbit => ?_⟩
  · rw [getD_old hi]
    exact hheader
  by_cases hr : r = linePkt p
  · refine ⟨by omega, ps.length, by simp, hi, ?_, ?_⟩
    · rw [getD_new]
      exact ⟨rfl, hr.symm⟩
    · rw [getD_new]
      exact if_pos hr
  · have hold : old.page.lines.getLsbD r = true := by
      have hshift : ((1 : BitVec 32) <<< linePkt p).getLsbD r = decide (r = linePkt p) := by
        have hlit : (1 : BitVec 32) <<< linePkt p = BitVec.twoPow 32 (linePkt p) := rfl
        rw [hlit, BitVec.getLsbD_twoPow, decide_eq_true (by omega : linePkt p < 32), Bool.true_and]
        exact decide_eq_decide.mpr eq_comm
      have hboth : (old.page.lines ||| (1 : BitVec 32) <<< linePkt p).getLsbD r = true := hbit
      rwa [BitVec.getLsbD_or, hshift, decide_eq_false hr, Bool.or_false] at hboth
    obtain ⟨hr', j, hj, hij, hrow, htext⟩ := hrows r hrlow hrhigh hold
    refine ⟨hr', j, hj.trans_le (by simp), hij, by rwa [getD_old hj], ?_⟩
    rw [getD_old hj]
    exact (if_neg hr).trans htext

end History

/-! ### One packet, and all of them -/

def AllAssembling (env : LangEnv) (ps : List (List UInt8)) (vbi : Vbi) : Prop :=
  ∀ mag, (vbi.rpage mag).page.active = true → Assembling env mag ps (vbi.rpage mag).page

section Run

variable {env : LangEnv} {vbi : Vbi} {ps : List (List UInt8)} {p : List UInt8}

theorem AllAssembling.ended (h : AllAssembling env ps vbi) (hpkt : linePkt p = 0) (hmisleads : ¬Misleads vbi p) (mag : Fin 8)
    (hactive : ((endPages env vbi (lineMag p) (lineDigits p)).1.rpage mag).page.active = true) :
    Assembling env mag (ps ++ [p]) ((endPages env vbi (lineMag p) (lineDigits p)).1.rpage mag).page := by
  rw [endPages_rpage] at hactive ⊢
  by_cases hended : EndedBy vbi (lineMag p) (lineDigits p) mag
  · rw [if_pos hended, RawPage.ended, sent_active] at hactive
    exact absurd hactive Bool.false_ne_true
  · rw [if_neg hended] at hactive ⊢
    refine (h mag hactive).append (fun hmag _ => ?_) rfl rfl rfl rfl
    subst hmag
    -- the page is not ended, so that it has the digits that were read, rightly or not
    have hsame : (vbi.rpage (lineMag p)).page.pgno % 256 = lineDigits p := by
      by_contra hne
      exact hended ⟨⟨hactive, hne⟩, Or.inl rfl⟩
    have hok : DigitsOk p := by
      by_contra hno
      exact hmisleads ⟨hpkt, hno, hactive, hsame⟩
    exact ⟨rfl, hpkt, hok, hsame.symm⟩

/-- **One packet.** -/
theorem AllAssembling.step (h : AllAssembling env ps vbi) (haddr : AddressOk p) (hmisleads : ¬Misleads vbi p) :
    AllAssembling env (ps ++ [p]) (vtLine env vbi p).1 ∧
    ∀ vtp, VtEvent.page vtp ∈ (vtLine env vbi p).2.1 →
      ∃ mag, (vbi.rpage mag).page.active = true ∧ vtp = (vbi.rpage mag).sent env := by
  by_cases hpkt : linePkt p = 0
  · obtain ⟨hstate, rest, hevents, hrest⟩ := @vtLine_header env vbi p haddr hpkt
    constructor
    · rw [hstate]
      split
      next herr => exact h.ended hpkt hmisleads
      next herr =>
        intro mag hactive
        dsimp only at hactive ⊢
        by_cases hmag : mag = lineMag p
        · subst hmag
          rw [Function.update_self]
          exact .begin ps hpkt (digitsOk_of_header (Bool.eq_false_iff.mpr herr))
        · rw [Function.update_of_ne hmag] at hactive ⊢
          exact h.ended hpkt hmisleads mag hactive
    · intro vtp hmem
      rw [hevents] at hmem
      rcases List.mem_append.mp hmem with hmem | hmem
      · obtain ⟨mag, hended, hvtp⟩ := endPages_page hmem
        exact ⟨mag, hended.1.1, hvtp⟩
      · exact absurd hmem (hrest vtp)
  · by_cases hrow : linePkt p ≤ 24
    · obtain ⟨hstate, hevents⟩ := @vtLine_row env vbi p haddr hpkt hrow
      rw [hstate, hevents]
      refine ⟨fun mag hactive => ?_, fun vtp hmem => absurd hmem List.not_mem_nil⟩
      have hold : ∀ mag, (vbi.rpage mag).page.active = true → Assembling env mag (ps ++ [p]) (vbi.rpage mag).page :=
        fun mag hactive => (h mag hactive).append (fun _ hno => absurd hno hpkt) rfl rfl rfl rfl
      split at hactive
      next hpage =>
        rw [if_pos hpage]
        dsimp only at hactive ⊢
        by_cases hmag : mag = lineMag p
        · subst hmag
          rw [Function.update_self]
          exact (h _ hpage).row hpkt hrow
        · rw [Function.update_of_ne hmag] at hactive ⊢
          exact hold mag hactive
      next hpage =>
        rw [if_neg hpage]
        exact hold mag hactive
    · obtain ⟨hsame, hevents⟩ := @vtLine_other env vbi p haddr (not_le.mp hrow)
      refine ⟨fun mag hactive => ?_, fun vtp hmem => absurd hmem (hevents vtp)⟩
      obtain ⟨link, flof, hpage⟩ := hsame mag
      rw [hpage] at hactive ⊢
      exact (h mag hactive).append (fun _ hno => absurd hno hpkt) rfl rfl rfl rfl

/-- The rows of a page that is handed over belong to it; enhancements were put on it afterwards. -/
def RowsAttributed (env : LangEnv) (ps : List (List UInt8)) (vtp : VtPage) : Prop :=
  ∃ mag base eh, vtp = enhance env eh base ∧ vtp.pgno / 256 = mag8 mag ∧
    ∀ r, 1 ≤ r → r ≤ 24 → vtp.lines.getLsbD r = true → ∃ hr : r < 25,
      Attributed mag (vtp.pgno % 256) r ps fun q => base.data ⟨r, hr⟩ = lineText env vtp.lang q

theorem RowsAttributed.append {vtp : VtPage} (h : RowsAttributed env ps vtp) (p : List UInt8) :
    RowsAttributed env (ps ++ [p]) vtp := by
  obtain ⟨mag, base, eh, hvtp, hmag, hrows⟩ := h
  refine ⟨mag, base, eh, hvtp, hmag, fun r hlow hhigh hbit => ?_⟩
  obtain ⟨hr, hattributed⟩ := hrows r hlow hhigh hbit
  exact ⟨hr, hattributed.append p⟩

theorem Assembling.sent {mag : Fin 8} {rvtp : RawPage} (h : Assembling env mag ps rvtp.page) :
    RowsAttributed env ps (rvtp.sent env) := by
  obtain ⟨data, hdata⟩ := sent_eq env rvtp
  obtain ⟨hmag, i, hi, hheader, hbetween, hrows⟩ := h
  refine ⟨mag, { rvtp.page with flags := rvtp.page.flags &&& ~~~pgActive }, rvtp.enh, rfl, ?_⟩
  rw [hdata]
  refine ⟨hmag, fun r hlow hhigh hbit => ?_⟩
  obtain ⟨hr, j, hj, hij, hrow, htext⟩ := hrows r hlow hhigh hbit
  exact ⟨hr, j, hj, hrow, htext, i, hij, hheader, hbetween.mono hj.le⟩

def NoneMisleads (env : LangEnv) (vbi : Vbi) (ps : List (List UInt8)) : Prop :=
  ∀ pre p suf, ps = pre ++ p :: suf → ¬Misleads (vtLines env vbi pre).1 p

theorem NoneMisleads.init (h : NoneMisleads env vbi (ps ++ [p])) : NoneMisleads env vbi ps := by
  intro pre q suf hps
  refine h pre q (suf ++ [p]) ?_
  rw [hps, List.append_assoc, List.cons_append]

theorem assembling_run (hstart : ∀ mag, (vbi.rpage mag).page.active = false) (haddr : ∀ p ∈ ps, AddressOk p)
    (hnone : NoneMisleads env vbi ps) : AllAssembling env ps (vtLines env vbi ps).1 ∧
      ∀ vtp, VtEvent.page vtp ∈ (vtLines env vbi ps).2 → RowsAttributed env ps vtp := by
  induction ps using List.reverseRecOn with
  | nil =>
    refine ⟨fun mag hactive => ?_, fun vtp hmem => absurd hmem List.not_mem_nil⟩
    exact absurd (hactive.symm.trans (hstart mag)) Bool.false_ne_true.symm
  | append_singleton ps p ih =>
    obtain ⟨hall, hpages⟩ := ih (fun q hq => haddr q (List.mem_append_left _ hq)) hnone.init
    obtain ⟨hstep, hnew⟩ := hall.step (haddr p (by simp)) (hnone ps p [] rfl)
    rw [vtLines_snoc]
    refine ⟨hstep, fun vtp hmem => ?_⟩
    rcases List.mem_append.mp hmem with hmem | hmem
    · exact (hpages vtp hmem).append p
    · obtain ⟨mag, hactive, rfl⟩ := hnew vtp hmem
      exact (hall mag hactive).sent.append p

end Run

/-- **PROVED**: if no header misleads, every row of a page that is handed to the cache was received after a header with
the number of that page, with no header of the magazine in between but for the same page. -/
theorem rows_attributed {env : LangEnv} {vbi : Vbi} {ps : List (List UInt8)}
    (hstart : ∀ mag, (vbi.rpage mag).page.active = false) (haddr : ∀ p ∈ ps, AddressOk p)
    (hnone : NoneMisleads env vbi ps) {vtp : VtPage} (hpage : VtEvent.page vtp ∈ (vtLines env vbi ps).2) :
    RowsAttributed env ps vtp :=
  (assembling_run hstart haddr hnone).2 vtp hpage

/-! ### A header that misleads -/

section Example

/-- A header of magazine 1 with the bytes of the page number as given. -/
def someHeader (digits : List UInt8) : List UInt8 :=
  hammEncode16 1 ++ digits ++ hammEncode16 0 ++ hammEncode16 0 ++ hammEncode16 0 ++ List.replicate 32 0x20

/-- Row 1 of magazine 1. -/
def someRow : List UInt8 := hammEncode16 9 ++ List.replicate 40 0x20

/-- Page 11f; a header of which the low digit of the page number cannot be read; row 1; page 100. -/
def misleadingLines : List (List UInt8) :=
  [someHeader (hammEncode16 0x1f), someHeader [0x01, hammEncode 1], someRow, someHeader (hammEncode16 0)]

instance (mag : Fin 8) (digits : ℕ) (p : List UInt8) : Decidable (HeaderFor mag digits p) :=
  inferInstanceAs (Decidable (_ ∧ _ ∧ uncorrectable _ = false ∧ _))

instance (mag : Fin 8) (r : ℕ) (p : List UInt8) : Decidable (RowFor mag r p) := inferInstanceAs (Decidable (_ ∧ _))

instance (mag : Fin 8) (digits : ℕ) (ps : List (List UInt8)) (i j : ℕ) : Decidable (SameBetween mag digits ps i j) :=
  inferInstanceAs (Decidable (∀ k < j, _ → _ → _ → _))

instance (p : List UInt8) : Decidable (AddressOk p) := inferInstanceAs (Decidable (_ = false))

def VtEvent.isPage (test : VtPage → Bool) : VtEvent → Bool
  | .page vtp => test vtp
  | _ => false

theorem noneMisleads_of_ok {env : LangEnv} {vbi : Vbi} {ps : List (List UInt8)}
    (h : ∀ p ∈ ps, linePkt p = 0 → HeaderFor (lineMag p) (lineDigits p) p) : NoneMisleads env vbi ps := by
  rintro pre p suf rfl ⟨hpkt, hno, -⟩
  exact hno (h p (by simp) hpkt).2.2.1

/-- Page 11f with row 1. -/
theorem rows_attributed_page : ∃ vtp,
    VtEvent.page vtp ∈ (vtLines plainEnv idleVbi [someHeader (hammEncode16 0x1f), someRow, someHeader (hammEncode16 0)]).2 ∧
      RowsAttributed plainEnv [someHeader (hammEncode16 0x1f), someRow, someHeader (hammEncode16 0)] vtp := by
  have hsome : ((vtLines plainEnv idleVbi [someHeader (hammEncode16 0x1f), someRow, someHeader (hammEncode16 0)]).2.any
      (VtEvent.isPage fun _ => true)) = true := by decide
  obtain ⟨event, hmem, hevent⟩ := List.any_eq_true.mp hsome
  cases event with
  | page vtp => exact ⟨vtp, hmem, rows_attributed (by decide) (by decide) (noneMisleads_of_ok (by decide)) hmem⟩
  | header _ _ _ _ => exact absurd hevent Bool.false_ne_true
  | xpacket _ _ _ _ => exact absurd hevent Bool.false_ne_true

/-- Not all rows belong to their page: row 1 came after a header that could not be read. -/
theorem not_rows_attributed : ¬∀ (env : LangEnv) (vbi : Vbi) (ps : List (List UInt8)),
    (∀ mag, (vbi.rpage mag).page.active = false) → (∀ p ∈ ps, AddressOk p) →
      ∀ vtp, VtEvent.page vtp ∈ (vtLines env vbi ps).2 → RowsAttributed env ps vtp := by
  intro hall
  have hsome : ((vtLines plainEnv idleVbi misleadingLines).2.any
      (VtEvent.isPage fun vtp => vtp.pgno = 0x11f && vtp.lines.getLsbD 1)) = true := by decide
  obtain ⟨event, hmem, hevent⟩ := List.any_eq_true.mp hsome
  cases event with
  | page vtp =>
    have hboth : vtp.pgno = 0x11f ∧ vtp.lines.getLsbD 1 = true := by simpa [VtEvent.isPage] using hevent
    obtain ⟨mag, base, eh, -, hmag, hrows⟩ := hall plainEnv idleVbi misleadingLines (by decide) (by decide) vtp hmem
    obtain ⟨-, j, hj, hrow, -, i, hi, hheader, hbetween⟩ := hrows 1 (by decide) (by decide) hboth.2
    rw [hboth.1] at hmag hheader hbetween
    have hone : mag = 1 := mag8_inj (hmag.symm.trans (by decide))
    subst hone
    have hnone : ∀ j < misleadingLines.length, RowFor 1 1 (misleadingLines.getD j []) → ∀ i < j,
        HeaderFor 1 (0x11f % 256) (misleadingLines.getD i []) → ¬SameBetween 1 (0x11f % 256) misleadingLines i j := by
      decide
    exact hnone j hj hrow i hi hheader hbetween
  | header _ _ _ _ => exact absurd hevent Bool.false_ne_true
  | xpacket _ _ _ _ => exact absurd hevent Bool.false_ne_true

end Example

end BgtDvb.Alevt
