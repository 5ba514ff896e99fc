import BgtDvb.AlevtVtLine

/-!
# The pages that come out of a teletext transmission

Packets without bit errors: what was sent, which pages that makes, and which of them are handed to the cache.

* `finished_run` — **PROVED**: without that case, the finished pages are handed over, each once, in order.
-/

namespace BgtDvb.Alevt

local instance neZero_mag : NeZero 8 := ⟨by decide⟩

local instance neZero_row : NeZero 25 := ⟨by decide⟩

local instance neZero_byte : NeZero 256 := ⟨by decide⟩

/-- Text of seven bits. -/
structure SevenBit (n : ℕ) where
  chars : List UInt8
  length_eq : chars.length = n
  seven : ∀ c ∈ chars, c < 0x80

/-- A header, with the bytes of page number, subpage number and flags; or a row. -/
inductive Sent where
  | header (mag : Fin 8) (b1 b2 b3 b4 : Fin 256) (text : SevenBit 32)
  | row (mag : Fin 8) (r : Fin 25) (hr : r ≠ 0) (text : SevenBit 40)

/-- The 42 bytes that are sent. -/
def Sent.line : Sent → List UInt8
  | .header mag b1 b2 b3 b4 text =>
    hammEncode16 mag ++ hammEncode16 b1 ++ hammEncode16 b2 ++ hammEncode16 b3 ++ hammEncode16 b4
      ++ text.chars.map oddParity
  | .row mag r _ text => hammEncode16 (mag + 8 * r) ++ text.chars.map oddParity

/-- A page: its header, and the last packet received of each row. -/
structure SentPage where
  b1 : Fin 256
  b2 : Fin 256
  b3 : Fin 256
  b4 : Fin 256
  rows : Fin 25 → Option (List UInt8)

/-- C11: any header ends the page. -/
def SentPage.serial (p : SentPage) : Bool := p.b4.val.testBit 4

def addSent (mag : Fin 8) (pages : List SentPage) : Sent → List SentPage
  | .header m b1 b2 b3 b4 _ => if m = mag then ⟨b1, b2, b3, b4, fun _ => none⟩ :: pages else pages
  | .row m r _ text =>
    if m = mag then pages.modifyHead fun p => { p with rows := Function.update p.rows r (some text.chars) } else pages

def transmitted (mag : Fin 8) (sent : List Sent) : List SentPage := sent.foldl (addSent mag) []

def noteHeader (last : Option (Fin 8)) : Sent → Option (Fin 8)
  | .header mag _ _ _ _ _ => some mag
  | .row _ _ _ _ => last

def lastHeader (sent : List Sent) : Option (Fin 8) := sent.foldl noteHeader none

/-- The newest page of a magazine was ended by a header of another one. -/
def EndedSerial (mag : Fin 8) (sent : List Sent) (p : SentPage) : Prop := p.serial = true ∧ lastHeader sent ≠ some mag

instance (mag : Fin 8) (sent : List Sent) (p : SentPage) : Decidable (EndedSerial mag sent p) :=
  inferInstanceAs (Decidable (_ ∧ _))

/-- Of the pages of a magazine those that a later header ended, the newest first: all but the newest, and that too if any
header ends it and there was one. -/
def endedPages (mag : Fin 8) (sent : List Sent) : List SentPage :=
  match transmitted mag sent with
  | [] => []
  | p :: rest => if EndedSerial mag sent p then p :: rest else rest

/-- The pages that should have been handed over, in order; low digits FF stand for no page. -/
def finished (mag : Fin 8) (sent : List Sent) : List SentPage :=
  ((endedPages mag sent).filter fun p => p.b1 ≠ 0xff).reverse

def shownRow (env : LangEnv) (b4 : ℕ) : Option (List UInt8) → Fin 40 → UInt8
  | none => fun _ => 0x20
  | some text => rowOf (conv2latin env (langOf env b4) text)

/-- A page of the cache with the numbers and the rows of a page that was sent. -/
structure IsPage (env : LangEnv) (mag : Fin 8) (p : SentPage) (vtp : VtPage) : Prop where
  pgno : vtp.pgno = mag8 mag * 256 + p.b1
  subno : vtp.subno = ((p.b2.val + p.b3.val * 256 &&& 0x3f7f : ℕ) : ℤ)
  lines : ∀ r : Fin 25, r ≠ 0 → vtp.lines.getLsbD r = (p.rows r).isSome
  unused : ∀ i, 25 ≤ i → vtp.lines.getLsbD i = false
  rows : ∀ r : Fin 25, r ≠ 0 → vtp.data r = shownRow env p.b4 (p.rows r)

/-- What a transmission promises: successive headers of a magazine differ, and where any header ends a page, its rows come
before that. -/
def SentOk (sent : List Sent) : Sent → Prop
  | .header mag b1 _ _ _ _ => ∀ p, (transmitted mag sent).head? = some p → p.b1 ≠ b1
  | .row mag _ _ _ => ∀ p, (transmitted mag sent).head? = some p → ¬EndedSerial mag sent p

/-- A header of another magazine that should end the page of the last header has other low digits. -/
def Separate (sent : List Sent) : Sent → Prop
  | .header mag b1 _ _ _ _ => ∀ m, lastHeader sent = some m → m ≠ mag →
      ∀ p, (transmitted m sent).head? = some p → p.serial = true → p.b1 ≠ 0xff → p.b1 ≠ b1
  | .row _ _ _ _ => True

def Throughout (P : List Sent → Sent → Prop) (sent : List Sent) : Prop := ∀ pre x suf, sent = pre ++ x :: suf → P pre x

section Transmission

variable {mag : Fin 8} {sent : List Sent} {x : Sent} {P : List Sent → Sent → Prop}

theorem Throughout.init (h : Throughout P (sent ++ [x])) : Throughout P sent := by
  intro pre y suf hsent
  refine h pre y (suf ++ [x]) ?_
  rw [hsent, List.append_assoc, List.cons_append]

theorem Throughout.snoc (h : Throughout P sent) (hx : P sent x) : Throughout P (sent ++ [x]) := by
  intro pre y suf hsent
  rcases List.eq_nil_or_concat suf with rfl | ⟨suf, z, rfl⟩
  · obtain ⟨rfl, hy⟩ := List.append_inj' hsent rfl
    obtain rfl := (List.cons.inj hy).1
    exact hx
  · rw [List.concat_eq_append, ← List.cons_append, ← List.append_assoc] at hsent
    exact h pre y suf (List.append_inj' hsent rfl).1

theorem throughout_nil (P : List Sent → Sent → Prop) : Throughout P [] := fun pre _ _ h => by
  cases pre <;> exact absurd h (List.cons_ne_nil _ _).symm

theorem Throughout.last (h : Throughout P (sent ++ [x])) : P sent x := h sent x [] rfl

theorem transmitted_snoc (mag : Fin 8) (sent : List Sent) (x : Sent) :
    transmitted mag (sent ++ [x]) = addSent mag (transmitted mag sent) x := by
  rw [transmitted, List.foldl_append]
  rfl

theorem lastHeader_snoc (sent : List Sent) (x : Sent) : lastHeader (sent ++ [x]) = noteHeader (lastHeader sent) x := by
  rw [lastHeader, List.foldl_append]
  rfl

def Pending (mag : Fin 8) (sent : List Sent) (p : SentPage) : Prop := p.b1 ≠ 0xff ∧ ¬EndedSerial mag sent p

instance (mag : Fin 8) (sent : List Sent) (p : SentPage) : Decidable (Pending mag sent p) :=
  inferInstanceAs (Decidable (_ ∧ _))

theorem finished_cons {p : SentPage} (h : transmitted mag sent = p :: rest) :
    finished mag sent = (rest.filter fun p => p.b1 ≠ 0xff).reverse ++
      if EndedSerial mag sent p ∧ p.b1 ≠ 0xff then [p] else [] := by
  rw [finished, endedPages, h]
  dsimp only
  by_cases hended : EndedSerial mag sent p
  · rw [if_pos hended]
    by_cases hff : p.b1 = 0xff
    · rw [List.filter_cons_of_neg (by simpa using hff), if_neg fun hno => hno.2 hff, List.append_nil]
    · rw [List.filter_cons_of_pos (by simpa using hff), if_pos ⟨hended, hff⟩, List.reverse_cons]
  · rw [if_neg hended, if_neg fun hno => hended hno.1, List.append_nil]

theorem finished_nil (h : transmitted mag sent = []) : finished mag sent = [] := by
  rw [finished, endedPages, h]
  rfl

theorem finished_own {b1 b2 b3 b4 : Fin 256} {text : SevenBit 32} :
    finished mag (sent ++ [.header mag b1 b2 b3 b4 text]) = finished mag sent ++
      ((transmitted mag sent).head?.filter fun p => Pending mag sent p).toList := by
  have hcons : transmitted mag (sent ++ [.header mag b1 b2 b3 b4 text])
      = ⟨b1, b2, b3, b4, fun _ => none⟩ :: transmitted mag sent := by
    rw [transmitted_snoc]
    exact if_pos rfl
  have hnew : ¬EndedSerial mag (sent ++ [.header mag b1 b2 b3 b4 text]) ⟨b1, b2, b3, b4, fun _ => none⟩ := fun hno =>
    hno.2 (lastHeader_snoc sent _)
  rw [finished_cons hcons, if_neg fun hno => hnew hno.1, List.append_nil]
  cases hold : transmitted mag sent with
  | nil =>
    rw [finished_nil hold]
    rfl
  | cons p rest =>
    rw [finished_cons hold, List.head?_cons]
    by_cases hff : p.b1 = 0xff
    · have hnot : ¬Pending mag sent p := fun hno => hno.1 hff
      rw [List.filter_cons_of_neg (by simpa using hff), if_neg fun hno => hno.2 hff]
      simp [Option.filter, hnot]
    · rw [List.filter_cons_of_pos (by simpa using hff), List.reverse_cons]
      by_cases hended : EndedSerial mag sent p
      · have hnot : ¬Pending mag sent p := fun hno => hno.2 hended
        rw [if_pos ⟨hended, hff⟩]
        simp [Option.filter, hnot]
      · have hpending : Pending mag sent p := ⟨hff, hended⟩
        rw [if_neg fun hno => hended hno.1]
        simp [Option.filter, hpending]

theorem finished_other {m : Fin 8} (hm : m ≠ mag) {b1 b2 b3 b4 : Fin 256} {text : SevenBit 32} :
    finished mag (sent ++ [.header m b1 b2 b3 b4 text]) = finished mag sent ++
      ((transmitted mag sent).head?.filter fun p => Pending mag sent p ∧ p.serial).toList := by
  have hsame : transmitted mag (sent ++ [.header m b1 b2 b3 b4 text]) = transmitted mag sent := by
    rw [transmitted_snoc]
    exact if_neg hm
  have hlast : lastHeader (sent ++ [.header m b1 b2 b3 b4 text]) ≠ some mag := by
    rw [lastHeader_snoc]
    exact fun hno => hm (Option.some.inj hno)
  cases hold : transmitted mag sent with
  | nil =>
    rw [finished_nil hold, finished_nil (hsame.trans hold)]
    rfl
  | cons p rest =>
    rw [finished_cons hold, finished_cons (hsame.trans hold), List.append_assoc, List.head?_cons]
    congr 1
    by_cases hff : p.b1 = 0xff
    · have hnot : ¬Pending mag sent p := fun hno => hno.1 hff
      rw [if_neg fun hno => hno.2 hff, if_neg fun hno => hno.2 hff]
      simp [Option.filter, hnot]
    · by_cases hserial : p.serial = true
      · have hended : EndedSerial mag (sent ++ [.header m b1 b2 b3 b4 text]) p := ⟨hserial, hlast⟩
        rw [if_pos ⟨hended, hff⟩]
        by_cases hbefore : EndedSerial mag sent p
        · have hnot : ¬Pending mag sent p := fun hno => hno.2 hbefore
          rw [if_pos ⟨hbefore, hff⟩]
          simp [Option.filter, hnot]
        · have hpending : Pending mag sent p := ⟨hff, hbefore⟩
          rw [if_neg fun hno => hbefore hno.1]
          simp [Option.filter, hpending, hserial]
      · rw [if_neg fun hno => hserial hno.1.1, if_neg fun hno => hserial hno.1.1]
        simp [Option.filter, hserial]

theorem finished_row {m : Fin 8} {r : Fin 25} {hr : r ≠ 0} {text : SevenBit 40} (hok : SentOk sent (.row m r hr text)) :
    finished mag (sent ++ [.row m r hr text]) = finished mag sent := by
  have hended : ∀ p q : SentPage, q.serial = p.serial →
      (EndedSerial mag (sent ++ [.row m r hr text]) q ↔ EndedSerial mag sent p) := fun p q hserial => by
    unfold EndedSerial
    rw [lastHeader_snoc, hserial]
    rfl
  have hstep := transmitted_snoc mag sent (.row m r hr text)
  cases hold : transmitted mag sent with
  | nil =>
    rw [hold] at hstep
    have hnil : transmitted mag (sent ++ [.row m r hr text]) = [] := by
      rw [hstep, addSent]
      split <;> rfl
    rw [finished_nil hold, finished_nil hnil]
  | cons p rest =>
    rw [hold, addSent] at hstep
    by_cases hm : m = mag
    · subst hm
      rw [if_pos rfl, List.modifyHead_cons] at hstep
      have hnot := hok p (by rw [hold, List.head?_cons])
      rw [finished_cons hstep, finished_cons hold, if_neg fun hno => hnot ((hended p _ rfl).mp hno.1),
        if_neg fun hno => hnot hno.1]
    · rw [if_neg hm] at hstep
      rw [finished_cons hold, finished_cons hstep]
      simp only [hended p p rfl]

end Transmission

/-! ### What is sent, and what is read of it -/

section Reading

variable {env : LangEnv}

theorem hamm16_fin (b : Fin 256) (err : ℕ) : hamm16 (hammEncode (b.val % 16)) (hammEncode (b.val / 16 % 16)) err
    = (b.val, err + (b.val % 16 + b.val / 16)) :=
  hamm16_encode b.isLt err

section Header

variable (mag : Fin 8) (b1 b2 b3 b4 : Fin 256) (text : SevenBit 32)

theorem header_address : hamm16 ((Sent.header mag b1 b2 b3 b4 text).line.getD 0 0)
    ((Sent.header mag b1 b2 b3 b4 text).line.getD 1 0) 0 = (mag.val, 0 + (mag.val % 16 + mag.val / 16)) :=
  hamm16_encode (mag.isLt.trans (by decide)) 0

theorem header_addressOk : AddressOk (Sent.header mag b1 b2 b3 b4 text).line := by
  unfold AddressOk
  rw [header_address]
  exact uncorrectable_low (by dsimp only; omega)

theorem header_mag : lineMag (Sent.header mag b1 b2 b3 b4 text).line = mag := by
  unfold lineMag
  rw [Fin.ext_iff]
  dsimp only
  rw [header_address]
  exact Nat.mod_eq_of_lt mag.isLt

theorem header_pkt : linePkt (Sent.header mag b1 b2 b3 b4 text).line = 0 := by
  unfold linePkt
  rw [header_address]
  dsimp only
  omega

theorem header_digits : lineDigits (Sent.header mag b1 b2 b3 b4 text).line = b1 :=
  congrArg Prod.fst (hamm16_fin b1 0)

theorem header_err : uncorrectable (headerErr (Sent.header mag b1 b2 b3 b4 text).line) = false := by
  have herr : headerErr (Sent.header mag b1 b2 b3 b4 text).line
      = 0 + (mag.val % 16 + mag.val / 16) + (b1.val % 16 + b1.val / 16) + (b2.val % 16 + b2.val / 16)
        + (b3.val % 16 + b3.val / 16) + (b4.val % 16 + b4.val / 16) := by
    unfold headerErr
    rw [header_address]
    show (hamm16 (hammEncode (b4.val % 16)) (hammEncode (b4.val / 16 % 16)) (hamm16 (hammEncode (b3.val % 16))
      (hammEncode (b3.val / 16 % 16)) (hamm16 (hammEncode (b2.val % 16)) (hammEncode (b2.val / 16 % 16))
        (hamm16 (hammEncode (b1.val % 16)) (hammEncode (b1.val / 16 % 16)) _).2).2).2).2 = _
    rw [hamm16_fin, hamm16_fin, hamm16_fin, hamm16_fin]
  rw [herr]
  exact uncorrectable_low (by omega)

theorem header_page (old : RawPage) : linePage env (Sent.header mag b1 b2 b3 b4 text).line old
    = headerPage env mag b1 b2 b3 b4 (headerErr (Sent.header mag b1 b2 b3 b4 text).line)
      ((Sent.header mag b1 b2 b3 b4 text).line.drop 2) old := by
  have h2 := congrArg Prod.fst (hamm16_fin b2 0)
  have h3 := congrArg Prod.fst (hamm16_fin b3 0)
  have h4 := congrArg Prod.fst (hamm16_fin b4 0)
  unfold linePage
  rw [header_mag, header_digits]
  show headerPage env mag b1 (hamm16 (hammEncode (b2.val % 16)) (hammEncode (b2.val / 16 % 16)) 0).1
    (hamm16 (hammEncode (b3.val % 16)) (hammEncode (b3.val / 16 % 16)) 0).1
    (hamm16 (hammEncode (b4.val % 16)) (hammEncode (b4.val / 16 % 16)) 0).1 _ _ old = _
  rw [h2, h3, h4]

end Header

section Row

variable (mag : Fin 8) (r : Fin 25) (hr : r ≠ 0) (text : SevenBit 40)

theorem row_address : hamm16 ((Sent.row mag r hr text).line.getD 0 0) ((Sent.row mag r hr text).line.getD 1 0) 0
    = (mag.val + 8 * r.val, 0 + ((mag.val + 8 * r.val) % 16 + (mag.val + 8 * r.val) / 16)) :=
  hamm16_encode (by omega) 0

theorem row_addressOk : AddressOk (Sent.row mag r hr text).line := by
  unfold AddressOk
  rw [row_address]
  exact uncorrectable_low (by dsimp only; omega)

theorem row_mag : lineMag (Sent.row mag r hr text).line = mag := by
  unfold lineMag
  rw [Fin.ext_iff]
  dsimp only
  rw [row_address]
  dsimp only
  omega

theorem row_pkt : linePkt (Sent.row mag r hr text).line = r := by
  unfold linePkt
  rw [row_address]
  dsimp only
  omega

theorem row_text (lang : ℤ) : lineText env lang (Sent.row mag r hr text).line = rowOf (conv2latin env lang text.chars) := by
  have hchars : ((Sent.row mag r hr text).line.drop 2).take 40 = text.chars.map oddParity := by
    show (text.chars.map oddParity).take 40 = _
    exact List.take_of_length_le (by rw [List.length_map, text.length_eq])
  rw [lineText, hchars, chkParity_sent text.seven]

end Row

end Reading

/-! ### The pages that are being assembled -/

/-- A page that is being assembled from a page that was sent. -/
structure Assembled (env : LangEnv) (mag : Fin 8) (p : SentPage) (rvtp : RawPage) : Prop where
  page : IsPage env mag p rvtp.page
  lang : rvtp.page.lang = langOf env p.b4
  plain : rvtp.enh.nextDes = 0
  serial : rvtp.page.magSerial = p.serial

/-- The pages that are being assembled are those that are pending. -/
structure Tracks (env : LangEnv) (sent : List Sent) (vbi : Vbi) : Prop where
  last : ∀ m, lastHeader sent = some m → vbi.ppage = m
  active : ∀ m, (vbi.rpage m).page.active = true →
    ∃ p, (transmitted m sent).head? = some p ∧ Pending m sent p ∧ Assembled env m p (vbi.rpage m)
  pending : ∀ m p, (transmitted m sent).head? = some p → Pending m sent p → (vbi.rpage m).page.active = true

section Pages

variable {env : LangEnv} {mag : Fin 8} {p : SentPage} {old : RawPage}

theorem one_bit {i : ℕ} (hi : i ≠ 0) : (1 : BitVec 32).getLsbD i = false := by
  have hlit : (1 : BitVec 32) = BitVec.twoPow 32 0 := by decide
  rw [hlit, BitVec.getLsbD_twoPow, decide_eq_false (Ne.symm hi), Bool.and_false]

theorem row_bit {r : ℕ} (hr : r < 32) (i : ℕ) : ((1 : BitVec 32) <<< r).getLsbD i = decide (i = r) := by
  have hlit : (1 : BitVec 32) <<< r = BitVec.twoPow 32 r := rfl
  rw [hlit, BitVec.getLsbD_twoPow, decide_eq_true hr, Bool.true_and]
  exact decide_eq_decide.mpr eq_comm

theorem Assembled.begin {b1 b2 b3 b4 : Fin 256} (text : SevenBit 32) (hff : b1 ≠ 0xff) :
    Assembled env mag ⟨b1, b2, b3, b4, fun _ => none⟩ (linePage env (Sent.header mag b1 b2 b3 b4 text).line old) := by
  have hval : b1.val ≠ 0xff := fun hno => hff (Fin.ext hno)
  rw [header_page, headerPage, if_neg hval]
  refine ⟨⟨rfl, rfl, fun r hr => ?_, fun i hi => ?_, fun r hr => ?_⟩, rfl, rfl, ?_⟩
  · exact one_bit fun hno => hr (Fin.ext hno)
  · exact one_bit (by omega)
  · exact if_neg fun hno => hr (Fin.ext hno)
  · have hactive : pgActive.getLsbD 4 = false := by decide
    rw [magSerial_eq, BitVec.getLsbD_or, flagsOf_magSerial, hactive, Bool.or_false]
    rfl

theorem Assembled.row (h : Assembled env mag p old) {r : Fin 25} {hr : r ≠ 0} {text : SevenBit 40} :
    Assembled env mag { p with rows := Function.update p.rows r (some text.chars) }
      (rowPage env (Sent.row mag r hr text).line old) := by
  have hlines : ∀ i, (rowPage env (Sent.row mag r hr text).line old).page.lines.getLsbD i
      = (old.page.lines.getLsbD i || decide (i = r.val)) := fun i => by
    rw [← row_bit (r.isLt.trans (by decide)) i, ← BitVec.getLsbD_or, ← row_pkt mag r hr text]
    rfl
  have hdata : ∀ l : Fin 25, (rowPage env (Sent.row mag r hr text).line old).page.data l
      = if l.val = r.val then rowOf (conv2latin env (langOf env p.b4) text.chars) else old.page.data l := fun l => by
    rw [← h.lang, ← row_text mag r hr, ← row_pkt mag r hr text]
    rfl
  refine ⟨⟨h.page.pgno, h.page.subno, fun l hl => ?_, fun i hi => ?_, fun l hl => ?_⟩, h.lang, h.plain, h.serial⟩
  · rw [hlines, h.page.lines l hl]
    dsimp only
    by_cases hlr : l = r
    · rw [hlr, Function.update_self, decide_eq_true rfl, Bool.or_true]
      rfl
    · rw [Function.update_of_ne hlr, decide_eq_false fun hno => hlr (Fin.ext hno), Bool.or_false]
  · rw [hlines, h.page.unused i hi, decide_eq_false (by omega), Bool.or_false]
  · rw [hdata]
    dsimp only
    by_cases hlr : l = r
    · rw [if_pos (congrArg Fin.val hlr), hlr, Function.update_self]
      rfl
    · rw [if_neg fun hno => hlr (Fin.ext hno), Function.update_of_ne hlr]
      exact h.page.rows l hl

theorem Assembled.sent (h : Assembled env mag p old) : IsPage env mag p (old.sent env) := by
  rw [RawPage.sent, enhance_start h.plain]
  exact ⟨h.page.pgno, h.page.subno, h.page.lines, h.page.unused, h.page.rows⟩

theorem IsPage.digits (h : IsPage env mag p vtp) : vtp.pgno % 256 = p.b1 := by
  have hpgno := h.pgno
  omega

theorem IsPage.magazine (h : IsPage env mag p vtp) : vtp.pgno / 256 = mag8 mag := by
  have hpgno := h.pgno
  omega

end Pages

/-! ### One packet -/

section Step

variable {env : LangEnv} {vbi : Vbi} {sent : List Sent} {mag : Fin 8} {b1 b2 b3 b4 : Fin 256} {text : SevenBit 32}

theorem transmitted_own : transmitted mag (sent ++ [.header mag b1 b2 b3 b4 text])
    = ⟨b1, b2, b3, b4, fun _ => none⟩ :: transmitted mag sent := by
  rw [transmitted_snoc]
  exact if_pos rfl

theorem transmitted_other {k : Fin 8} (hk : mag ≠ k) :
    transmitted k (sent ++ [.header mag b1 b2 b3 b4 text]) = transmitted k sent := by
  rw [transmitted_snoc]
  exact if_neg hk

/-- A header ends a page that was pending: in its own magazine, or if any header does. -/
def EndsPage (mag k : Fin 8) (sent : List Sent) (p : SentPage) : Prop := Pending k sent p ∧ (k = mag ∨ p.serial = true)

instance (mag k : Fin 8) (sent : List Sent) (p : SentPage) : Decidable (EndsPage mag k sent p) :=
  inferInstanceAs (Decidable (_ ∧ _))

theorem finished_header (k : Fin 8) : finished k (sent ++ [.header mag b1 b2 b3 b4 text]) = finished k sent ++
    ((transmitted k sent).head?.filter fun p => EndsPage mag k sent p).toList := by
  by_cases hk : mag = k
  · subst hk
    rw [finished_own]
    simp [EndsPage]
  · rw [finished_other hk]
    simp [EndsPage, Ne.symm hk]

/-- The pages that `vbi_send_page` hands over are those that the header ends. -/
theorem Tracks.ended_iff (h : Tracks env sent vbi) (hok : SentOk sent (.header mag b1 b2 b3 b4 text))
    (hseparate : Separate sent (.header mag b1 b2 b3 b4 text)) (k : Fin 8) :
    EndedBy vbi mag b1 k ↔ ∃ p, (transmitted k sent).head? = some p ∧ EndsPage mag k sent p := by
  constructor
  · rintro ⟨⟨hactive, -⟩, hends⟩
    obtain ⟨p, hhead, hpending, hpage⟩ := h.active k hactive
    refine ⟨p, hhead, hpending, hends.imp_right fun hserial => ?_⟩
    rw [← hpage.serial, hserial.1]
    exact hserial.2
  · rintro ⟨p, hhead, hpending, hends⟩
    have hactive := h.pending k p hhead hpending
    obtain ⟨q, hq, -, hpage⟩ := h.active k hactive
    obtain rfl : p = q := Option.some.inj (hhead.symm.trans hq)
    have hsend : p.b1 ≠ b1 → Sends vbi k b1 := fun hne =>
      ⟨hactive, fun hno => hne (Fin.ext (hpage.page.digits.symm.trans hno))⟩
    by_cases hk : k = mag
    · subst hk
      exact ⟨hsend (hok p hhead), Or.inl rfl⟩
    · have hserial := hends.resolve_left hk
      -- no header came since, so that this is the page of the last one
      have hlast : lastHeader sent = some k := by
        by_contra hno
        exact hpending.2 ⟨hserial, hno⟩
      have hppage := h.last k hlast
      refine ⟨hsend (hseparate k hlast hk p hhead hserial hpending.1), Or.inr ⟨hppage.symm, ?_⟩⟩
      rw [hppage, hpage.serial]
      exact hserial

theorem Tracks.header (h : Tracks env sent vbi) (hok : SentOk sent (.header mag b1 b2 b3 b4 text))
    (hseparate : Separate sent (.header mag b1 b2 b3 b4 text)) :
    Tracks env (sent ++ [.header mag b1 b2 b3 b4 text])
      ⟨Function.update (endPages env vbi mag b1).1.rpage mag (linePage env (Sent.header mag b1 b2 b3 b4 text).line
        ((endPages env vbi mag b1).1.rpage mag)), mag⟩ := by
  have hlast : lastHeader (sent ++ [.header mag b1 b2 b3 b4 text]) = some mag := lastHeader_snoc sent _
  have hnew : (transmitted mag (sent ++ [.header mag b1 b2 b3 b4 text])).head? = some ⟨b1, b2, b3, b4, fun _ => none⟩ := by
    rw [transmitted_own, List.head?_cons]
  have hactive : ∀ old, (linePage env (Sent.header mag b1 b2 b3 b4 text).line old).page.active = true ↔ b1 ≠ 0xff :=
    fun old => by
      rw [linePage_active, header_digits]
      exact (not_congr (@Fin.ext_iff 256 b1 0xff)).symm
  -- of the other magazines, the pages that any header ends were handed over
  have hother : ∀ k, mag ≠ k → ∀ p, Pending k (sent ++ [.header mag b1 b2 b3 b4 text]) p ↔
      Pending k sent p ∧ p.serial = false := fun k hk p => by
    have hne : lastHeader (sent ++ [.header mag b1 b2 b3 b4 text]) ≠ some k := by
      rw [hlast]
      exact fun hno => hk (Option.some.inj hno)
    unfold Pending EndedSerial
    rw [← Bool.not_eq_true]
    tauto
  refine ⟨fun m hm => Option.some.inj (hlast.symm.trans hm), fun k hk => ?_, fun k p hhead hpending => ?_⟩
  · by_cases hmag : mag = k
    · subst hmag
      dsimp only at hk ⊢
      rw [Function.update_self] at hk ⊢
      have hff := (hactive _).mp hk
      exact ⟨_, hnew, ⟨hff, fun hno => hno.2 hlast⟩, Assembled.begin text hff⟩
    · dsimp only at hk ⊢
      rw [Function.update_of_ne (Ne.symm hmag), endPages_rpage] at hk ⊢
      by_cases hended : EndedBy vbi mag b1 k
      · rw [if_pos hended, RawPage.ended, sent_active] at hk
        exact absurd hk Bool.false_ne_true
      · rw [if_neg hended] at hk ⊢
        obtain ⟨p, hhead, hpending, hpage⟩ := h.active k hk
        rw [transmitted_other hmag]
        refine ⟨p, hhead, (hother k hmag p).mpr ⟨hpending, ?_⟩, hpage⟩
        by_contra hserial
        exact hended ((h.ended_iff hok hseparate k).mpr ⟨p, hhead, hpending, Or.inr (Bool.not_eq_false _ ▸ hserial)⟩)
  · by_cases hmag : mag = k
    · subst hmag
      obtain rfl := Option.some.inj (hnew.symm.trans hhead)
      dsimp only
      rw [Function.update_self]
      exact (hactive _).mpr hpending.1
    · obtain ⟨hbefore, hserial⟩ := (hother k hmag p).mp hpending
      rw [transmitted_other hmag] at hhead
      dsimp only
      rw [Function.update_of_ne (Ne.symm hmag), endPages_rpage, if_neg]
      · exact h.pending k p hhead hbefore
      · intro hended
        obtain ⟨q, hq, -, hends⟩ := (h.ended_iff hok hseparate k).mp hended
        obtain rfl : p = q := Option.some.inj (hhead.symm.trans hq)
        rcases hends with hno | hno
        · exact hmag hno.symm
        · rw [hserial] at hno
          exact Bool.false_ne_true hno

theorem Tracks.row (h : Tracks env sent vbi) {r : Fin 25} {hr : r ≠ 0} {text : SevenBit 40} :
    Tracks env (sent ++ [.row mag r hr text]) (if (vbi.rpage mag).page.active = true then
      { vbi with rpage := Function.update vbi.rpage mag (rowPage env (Sent.row mag r hr text).line (vbi.rpage mag)) }
      else vbi) := by
  have hlast : lastHeader (sent ++ [.row mag r hr text]) = lastHeader sent := lastHeader_snoc sent _
  have hpending : ∀ k (p q : SentPage), q.b1 = p.b1 → q.serial = p.serial →
      (Pending k (sent ++ [.row mag r hr text]) q ↔ Pending k sent p) := fun k p q hb1 hserial => by
    unfold Pending EndedSerial
    rw [hlast, hb1, hserial]
  have hother : ∀ k, mag ≠ k → transmitted k (sent ++ [.row mag r hr text]) = transmitted k sent := fun k hk => by
    rw [transmitted_snoc]
    exact if_neg hk
  have hown : (transmitted mag (sent ++ [.row mag r hr text])).head? = (transmitted mag sent).head?.map
      fun p => { p with rows := Function.update p.rows r (some text.chars) } := by
    rw [transmitted_snoc, addSent, if_pos rfl]
    cases transmitted mag sent <;> rfl
  have hactive : ∀ old, (rowPage env (Sent.row mag r hr text).line old).page.active = old.page.active := fun _ => rfl
  -- the magazine of the row, and the others
  have hrpage : ∀ k, (if (vbi.rpage mag).page.active = true then
      { vbi with rpage := Function.update vbi.rpage mag (rowPage env (Sent.row mag r hr text).line (vbi.rpage mag)) }
      else vbi).rpage k = if mag = k ∧ (vbi.rpage k).page.active = true
        then rowPage env (Sent.row mag r hr text).line (vbi.rpage k) else vbi.rpage k := fun k => by
    by_cases hpage : (vbi.rpage mag).page.active = true
    · rw [if_pos hpage]
      dsimp only
      by_cases hk : mag = k
      · subst hk
        rw [if_pos ⟨rfl, hpage⟩, Function.update_self]
      · rw [if_neg fun hno => hk hno.1, Function.update_of_ne (Ne.symm hk)]
    · rw [if_neg hpage, if_neg]
      rintro ⟨rfl, hno⟩
      exact hpage hno
  refine ⟨fun m hm => ?_, fun k hk => ?_, fun k p hhead hp => ?_⟩
  · rw [← h.last m (hlast.symm.trans hm)]
    split <;> rfl
  · rw [hrpage] at hk ⊢
    by_cases hmag : mag = k
    · subst hmag
      have hold : (vbi.rpage mag).page.active = true := by
        by_contra hno
        rw [if_neg fun hboth => hno hboth.2] at hk
        exact hno hk
      rw [if_pos ⟨rfl, hold⟩]
      obtain ⟨p, hhead, hp, hpage⟩ := h.active mag hold
      rw [hown, hhead]
      exact ⟨_, rfl, (hpending mag p _ rfl rfl).mpr hp, hpage.row⟩
    · rw [if_neg fun hno => hmag hno.1] at hk ⊢
      obtain ⟨p, hhead, hp, hpage⟩ := h.active k hk
      rw [hother k hmag]
      exact ⟨p, hhead, (hpending k p p rfl rfl).mpr hp, hpage⟩
  · rw [hrpage]
    by_cases hmag : mag = k
    · subst hmag
      rw [hown] at hhead
      obtain ⟨q, hq, rfl⟩ := Option.map_eq_some_iff.mp hhead
      have hold := h.pending mag q hq ((hpending mag q _ rfl rfl).mp hp)
      rw [if_pos ⟨rfl, hold⟩, hactive]
      exact hold
    · rw [hother k hmag] at hhead
      rw [if_neg fun hno => hmag hno.1]
      exact h.pending k p hhead ((hpending k p p rfl rfl).mp hp)

/-- **One packet**: what it hands over are the pages that it finishes. -/
theorem Tracks.step (h : Tracks env sent vbi) (hok : SentOk sent x) (hseparate : Separate sent x) :
    Tracks env (sent ++ [x]) (vtLine env vbi x.line).1 ∧
      ∀ k, ∃ new, finished k (sent ++ [x]) = finished k sent ++ new ∧
        List.Forall₂ (IsPage env k) new (pagesOf k (vtLine env vbi x.line).2.1) := by
  cases x with
  | header mag b1 b2 b3 b4 text =>
    obtain ⟨hstate, rest, hevents, hquiet⟩ := @vtLine_header env vbi _
      (header_addressOk mag b1 b2 b3 b4 text) (header_pkt mag b1 b2 b3 b4 text)
    have herr : ¬uncorrectable (headerErr (Sent.header mag b1 b2 b3 b4 text).line) = true := by
      rw [header_err]
      exact Bool.false_ne_true
    rw [if_neg herr, header_mag, header_digits] at hstate
    rw [header_mag, header_digits] at hevents
    rw [hstate]
    refine ⟨h.header hok hseparate, fun k => ⟨_, finished_header k, ?_⟩⟩
    have hmag : ∀ m, (vbi.rpage m).page.active = true → (vbi.rpage m).page.pgno / 256 = mag8 m := fun m hm => by
      obtain ⟨_, _, _, hpage⟩ := h.active m hm
      exact hpage.page.magazine
    rw [hevents, pagesOf_append, pagesOf_quiet hquiet, List.append_nil, pagesOf_endPages hmag]
    by_cases hended : EndedBy vbi mag b1 k
    · obtain ⟨p, hhead, hends⟩ := (h.ended_iff hok hseparate k).mp hended
      obtain ⟨q, hq, -, hpage⟩ := h.active k hended.1.1
      obtain rfl : p = q := Option.some.inj (hhead.symm.trans hq)
      have hfilter : (some p).filter (fun p => EndsPage mag k sent p) = some p := by simp [Option.filter, hends]
      rw [if_pos hended, hhead, hfilter]
      exact .cons hpage.sent .nil
    · rw [if_neg hended]
      cases hhead : (transmitted k sent).head? with
      | none => exact .nil
      | some p =>
        have hnot : ¬EndsPage mag k sent p := fun hno => hended ((h.ended_iff hok hseparate k).mpr ⟨p, hhead, hno⟩)
        have hfilter : (some p).filter (fun p => EndsPage mag k sent p) = none := by simp [Option.filter, hnot]
        rw [hfilter]
        exact .nil
  | row mag r hr text =>
    have hpkt := row_pkt mag r hr text
    obtain ⟨hstate, hevents⟩ := @vtLine_row env vbi _ (row_addressOk mag r hr text)
      (by rw [hpkt]; exact fun hno => hr (Fin.ext hno)) (by omega)
    rw [row_mag] at hstate
    rw [hstate, hevents]
    exact ⟨h.row, fun k => ⟨[], by rw [finished_row hok, List.append_nil], .nil⟩⟩

end Step

/-! ### The whole transmission -/

theorem tracks_start {env : LangEnv} {vbi : Vbi} (h : ∀ mag, (vbi.rpage mag).page.active = false) : Tracks env [] vbi := by
  refine ⟨fun m hm => absurd hm.symm (Option.some_ne_none m), fun m hm => ?_, fun m p hp => ?_⟩
  · rw [h m] at hm
    exact absurd hm Bool.false_ne_true
  · exact absurd hp.symm (Option.some_ne_none p)

theorem tracks_run {env : LangEnv} {vbi : Vbi} (hstart : ∀ mag, (vbi.rpage mag).page.active = false) {sent : List Sent}
    (hok : Throughout SentOk sent) (hseparate : Throughout Separate sent) :
    Tracks env sent (vtLines env vbi (sent.map Sent.line)).1 ∧
      ∀ k, List.Forall₂ (IsPage env k) (finished k sent) (pagesOf k (vtLines env vbi (sent.map Sent.line)).2) := by
  induction sent using List.reverseRecOn with
  | nil => exact ⟨tracks_start hstart, fun _ => .nil⟩
  | append_singleton sent x ih =>
    obtain ⟨htracks, hpages⟩ := ih hok.init hseparate.init
    obtain ⟨hstep, hnew⟩ := htracks.step hok.last hseparate.last
    rw [List.map_append, List.map_singleton, vtLines_snoc]
    refine ⟨hstep, fun k => ?_⟩
    obtain ⟨new, hfinished, hforall⟩ := hnew k
    rw [hfinished, pagesOf_append]
    exact List.rel_append (hpages k) hforall

/-- **PROVED**: as long as no header that should end the page of another magazine has its low digits, the pages handed
to the cache are those that were sent and ended, for each magazine in order, with their numbers and their rows. -/
theorem finished_run {env : LangEnv} {vbi : Vbi} (hstart : ∀ mag, (vbi.rpage mag).page.active = false) {sent : List Sent}
    (hok : Throughout SentOk sent) (hseparate : Throughout Separate sent) (mag : Fin 8) :
    List.Forall₂ (IsPage env mag) (finished mag sent) (pagesOf mag (vtLines env vbi (sent.map Sent.line)).2) :=
  (tracks_run hstart hok hseparate).2 mag

section Example

def SevenBit.replicate (n : ℕ) (c : UInt8) (hc : c < 0x80) : SevenBit n :=
  ⟨List.replicate n c, List.length_replicate, fun _ hmem => List.eq_of_mem_replicate hmem ▸ hc⟩

def plainHeader (mag : Fin 8) (b1 b4 : Fin 256) : Sent := .header mag b1 0 0 b4 (.replicate 32 0x20 (by decide))

/-- Row 1 of magazine 1. -/
def plainRow : Sent := .row 1 1 (by decide) (.replicate 40 0x41 (by decide))

/-- Page 100 with row 1, ended by page 201. -/
def someSent : List Sent := [plainHeader 1 0 0x10, plainRow, plainHeader 2 1 0]

/-- The page is handed over. -/
theorem finished_run_page : (finished 1 someSent).length = 1 ∧
    List.Forall₂ (IsPage plainEnv 1) (finished 1 someSent)
      (pagesOf 1 (vtLines plainEnv idleVbi (someSent.map Sent.line)).2) := by
  have hok : Throughout SentOk someSent := by
    refine (((throughout_nil SentOk).snoc ?_).snoc ?_).snoc ?_
    · exact fun p hp => absurd hp.symm (Option.some_ne_none p)
    · intro p hp
      obtain rfl := Option.some.inj hp
      exact fun hno => hno.2 rfl
    · exact fun p hp => absurd hp.symm (Option.some_ne_none p)
  have hseparate : Throughout Separate someSent := by
    refine (((throughout_nil Separate).snoc ?_).snoc ?_).snoc ?_
    · exact fun m hm => absurd hm.symm (Option.some_ne_none m)
    · exact trivial
    · intro m hm _ p hp _ _
      obtain rfl := Option.some.inj hm
      obtain rfl := Option.some.inj hp
      decide
  exact ⟨by decide, finished_run (by decide) hok hseparate 1⟩

/-- Page 100, which any header ends, and page 200. -/
def lostSent : List Sent := [plainHeader 1 0 0x10, plainHeader 2 0 0]

/-- Page 100 is not handed over, as page 200 has its low digits. -/
theorem not_finished_run : ¬∀ (env : LangEnv) (vbi : Vbi) (sent : List Sent),
    (∀ mag, (vbi.rpage mag).page.active = false) → Throughout SentOk sent → ∀ mag,
      List.Forall₂ (IsPage env mag) (finished mag sent) (pagesOf mag (vtLines env vbi (sent.map Sent.line)).2) := by
  intro hall
  have hok : Throughout SentOk lostSent := by
    refine ((throughout_nil SentOk).snoc ?_).snoc ?_
    · exact fun p hp => absurd hp.symm (Option.some_ne_none p)
    · exact fun p hp => absurd hp.symm (Option.some_ne_none p)
  have hlength := (hall plainEnv idleVbi lostSent (by decide) hok 1).length_eq
  have hsent : (finished 1 lostSent).length = 1 := by decide
  have hpages : (pagesOf 1 (vtLines plainEnv idleVbi (lostSent.map Sent.line)).2).length = 0 := by decide
  omega

end Example

end BgtDvb.Alevt
