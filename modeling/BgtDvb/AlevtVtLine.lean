import BgtDvb.AlevtLang

/-!
# Assembly of teletext pages in alevt

`vt_line` of `vbi.c`: eight pages are assembled at the same time, one for each magazine, and one of them is that of the
last header.

* `EndedBy`, `endPages_rpage`, `pagesOf_endPages` — **PROVED**: which pages a header ends;
* `vtLine_header`, `vtLine_row`, `vtLine_other` — **PROVED**: everything a packet does to the pages.
-/

namespace BgtDvb.Alevt

/-- `PG_MAGSERIAL` -/
def pgMagSerial : BitVec 32 := 0x10

/-- `PG_ACTIVE` -/
def pgActive : BitVec 32 := 0x100

/-- `struct raw_page` -/
structure RawPage where
  page : VtPage
  enh : Enhance

/-- The part of `struct vbi` for the assembly of pages; `ppage` is a magazine. -/
structure Vbi where
  rpage : Fin 8 → RawPage
  ppage : Fin 8

/-- What the clients get; a page was handed to the cache before. -/
inductive VtEvent where
  | page (vtp : VtPage)
  | header (pgno : ℕ) (subno : ℤ) (flags : BitVec 32) (data : List UInt8)
  | xpacket (mag pkt err : ℕ) (data : List UInt8)

def VtPage.active (vtp : VtPage) : Bool := vtp.flags &&& pgActive ≠ 0

def VtPage.magSerial (vtp : VtPage) : Bool := vtp.flags &&& pgMagSerial ≠ 0

def RawPage.sent (env : LangEnv) (rvtp : RawPage) : VtPage :=
  enhance env rvtp.enh { rvtp.page with flags := rvtp.page.flags &&& ~~~pgActive }

def RawPage.ended (env : LangEnv) (rvtp : RawPage) : RawPage := { rvtp with page := rvtp.sent env }

/-- `vbi_send_page` -/
def vbiSendPage (env : LangEnv) (vbi : Vbi) (mag : Fin 8) (page : ℕ) : Vbi × List VtEvent :=
  let rvtp := vbi.rpage mag
  if rvtp.page.active then
    if rvtp.page.pgno % 256 ≠ page then
      ({ vbi with rpage := Function.update vbi.rpage mag (rvtp.ended env) }, [.page (rvtp.sent env)])
    else (vbi, [])
  else (vbi, [])

/-- The number of a magazine, 8 for 0. -/
def mag8 (mag : Fin 8) : ℕ := if mag.val = 0 then 8 else mag

/-- A row of 40 characters. -/
def rowOf (p : List UInt8) : Fin 40 → UInt8 := fun c => p.getD c 0

/-- `"\0\4\2\6\1\5\3\7"` -/
def langCodes : List ℕ := [0, 4, 2, 6, 1, 5, 3, 7]

def langOf (env : LangEnv) (b4 : ℕ) : ℤ := (langCodes.getD (b4 >>> 5) 0 : ℤ) + if env.latin1 = LATIN1 then 0 else 8

def flagsOf (b2 b3 b4 : ℕ) : BitVec 32 :=
  BitVec.ofNat 32 (b4 &&& 0x1f) ||| BitVec.ofNat 32 (b3 &&& 0xc0) ||| BitVec.ofNat 32 ((b2 &&& 0x80) >>> 2)

/-- Both calls of `vbi_send_page` at a header. -/
def endPages (env : LangEnv) (vbi : Vbi) (mag : Fin 8) (b1 : ℕ) : Vbi × List VtEvent :=
  let serial := if (vbi.rpage vbi.ppage).page.magSerial then vbiSendPage env vbi vbi.ppage b1 else (vbi, [])
  let own := vbiSendPage env serial.1 mag b1
  (own.1, serial.2 ++ own.2)

/-- Row 0: what was received of it, and the characters behind. -/
def headerRow (env : LangEnv) (b4 : ℕ) (p : List UInt8) : List UInt8 :=
  p.take 8 ++ conv2latin env (langOf env b4) (chkParity ((p.drop 8).take 32)).1

def headerPage (env : LangEnv) (mag : Fin 8) (b1 b2 b3 b4 err : ℕ) (p : List UInt8) (rvtp : RawPage) : RawPage :=
  let cvtp : VtPage :=
    { rvtp.page with
      errors := ((err >>> 8 + (chkParity ((p.drop 8).take 32)).2 : ℕ) : ℤ)
      pgno := mag8 mag * 256 + b1
      subno := ((b2 + b3 * 256 &&& 0x3f7f : ℕ) : ℤ)
      lang := langOf env b4
      flags := flagsOf b2 b3 b4
      lines := 1
      flof := 0 }
  if b1 = 0xff then { rvtp with page := cvtp }
  else
    { page :=
        { cvtp with
          flags := cvtp.flags ||| pgActive
          data := fun l => if l.val = 0 then rowOf (headerRow env b4 p) else fun _ => 0x20 }
      enh := initEnhance rvtp.enh }

/-- Packet 0; `err` is what was wrong with the address. -/
def headerPacket (env : LangEnv) (vbi : Vbi) (mag : Fin 8) (err : ℕ) (p : List UInt8) : Vbi × List VtEvent × ℤ :=
  let b1 := hamm16 (p.getD 0 0) (p.getD 1 0) err
  let b2 := hamm16 (p.getD 2 0) (p.getD 3 0) b1.2
  let b3 := hamm16 (p.getD 4 0) (p.getD 5 0) b2.2
  let b4 := hamm16 (p.getD 6 0) (p.getD 7 0) b3.2
  let ended := endPages env vbi mag b1.1
  if uncorrectable b4.2 then (ended.1, ended.2, 4)
  else
    let rvtp := headerPage env mag b1.1 b2.1 b3.1 b4.1 b4.2 p (ended.1.rpage mag)
    let event := VtEvent.header rvtp.page.pgno rvtp.page.subno (flagsOf b2.1 b3.1 b4.1) (headerRow env b4.1 p)
    (⟨Function.update ended.1.rpage mag rvtp, mag⟩, ended.2 ++ [event], 0)

/-- Packets 1 to 24. -/
def rowPacket (env : LangEnv) (vbi : Vbi) (mag : Fin 8) (pkt : ℕ) (p : List UInt8) : Vbi × List VtEvent × ℤ :=
  let text := chkParity (p.take 40)
  let rvtp := vbi.rpage mag
  if rvtp.page.active = false then (vbi, [], 0)
  else
    let cvtp : VtPage :=
      { rvtp.page with
        errors := rvtp.page.errors + text.2
        lines := rvtp.page.lines ||| (1 : BitVec 32) <<< pkt
        data := fun l => if l.val = pkt then rowOf (conv2latin env rvtp.page.lang text.1) else rvtp.page.data l }
    ({ vbi with rpage := Function.update vbi.rpage mag { rvtp with page := cvtp } }, [], 0)

/-- Packet 26. -/
def enhancePacket (vbi : Vbi) (mag : Fin 8) (err : ℕ) (p : List UInt8) : Vbi × List VtEvent × ℤ :=
  let rvtp := vbi.rpage mag
  if rvtp.page.active = false then (vbi, [], 0)
  else
    let d := hamm8 (p.getD 0 0) err
    if uncorrectable d.2 then (vbi, [], 4)
    else
      let t := (List.range 13).map fun i => hamm24 (p.getD (1 + 3 * i) 0) (p.getD (2 + 3 * i) 0) (p.getD (3 + 3 * i) 0) 0
      if uncorrectable (d.2 + (t.map Prod.snd).sum) then (vbi, [], 4)
      else
        let enh := addEnhance rvtp.enh d.1 (t.map Prod.fst)
        ({ vbi with rpage := Function.update vbi.rpage mag { rvtp with enh := enh } }, [], 0)

/-- The links of packet 27 one after another, up to one that cannot be read; and whether there was one. -/
def linkLoop (mag : Fin 8) (p : List UInt8) : List ℕ → List (ℕ × ℤ) → List (ℕ × ℤ) × Bool
  | [], link => (link, false)
  | i :: is, link =>
    let b1 := hamm16 (p.getD (1 + 6 * i) 0) (p.getD (2 + 6 * i) 0) 0
    let b2 := hamm16 (p.getD (3 + 6 * i) 0) (p.getD (4 + 6 * i) 0) b1.2
    let b3 := hamm16 (p.getD (5 + 6 * i) 0) (p.getD (6 + 6 * i) 0) b2.2
    if uncorrectable b3.2 then (link, true)
    else
      let x := mag.val ^^^ (b2.1 >>> 7 ||| b3.1 >>> 5 &&& 0x06)
      linkLoop mag p is
        (link.set i ((if x = 0 then 8 else x) * 256 + b1.1, ((b2.1 + b3.1 * 256 &&& 0x3f7f : ℕ) : ℤ)))

/-- Packet 27. -/
def linkPacket (vbi : Vbi) (mag : Fin 8) (err : ℕ) (p : List UInt8) : Vbi × List VtEvent × ℤ :=
  let rvtp := vbi.rpage mag
  if rvtp.page.active = false then (vbi, [], 0)
  else
    let b1 := hamm8 (p.getD 0 0) err
    let b2 := hamm8 (p.getD 37 0) b1.2
    if uncorrectable b2.2 then (vbi, [], 4)
    else if b1.1 ≠ 0 ∨ b2.1 &&& 8 = 0 then (vbi, [], 0)
    else
      let links := linkLoop mag p (List.range 6) rvtp.page.link
      let cvtp : VtPage := { rvtp.page with link := links.1, flof := if links.2 then rvtp.page.flof else 1 }
      ({ vbi with rpage := Function.update vbi.rpage mag { rvtp with page := cvtp } }, [], if links.2 then 1 else 0)

/-- Packet 30, which is sent to the clients with its numbers in place of their codes. -/
def xPacket (env : LangEnv) (vbi : Vbi) (mag : Fin 8) (err : ℕ) (p : List UInt8) : Vbi × List VtEvent × ℤ :=
  if mag8 mag ≠ 8 then (vbi, [], 0)
  else
    let d := hamm8 (p.getD 0 0) err
    let b1 := hamm16 (p.getD 1 0) (p.getD 2 0) d.2
    let b2 := hamm16 (p.getD 3 0) (p.getD 4 0) b1.2
    let b3 := hamm16 (p.getD 5 0) (p.getD 6 0) b2.2
    if uncorrectable b3.2 then (vbi, [], 4)
    else
      let numbers := [UInt8.ofNat d.1, UInt8.ofNat b1.1, p.getD 2 0, UInt8.ofNat b2.1, p.getD 4 0, UInt8.ofNat b3.1]
      let text := chkParity ((p.drop 20).take 20)
      let data := numbers ++ (p.drop 6).take 14 ++ conv2latin env 0 text.1
      (vbi, [.xpacket (mag8 mag) 30 (b3.2 + text.2) data], 0)

/-- `vt_line` -/
def vtLine (env : LangEnv) (vbi : Vbi) (p : List UInt8) : Vbi × List VtEvent × ℤ :=
  let hdr := hamm16 (p.getD 0 0) (p.getD 1 0) 0
  if uncorrectable hdr.2 then (vbi, [], -4)
  else
    let mag : Fin 8 := ⟨hdr.1 % 8, Nat.mod_lt _ (by decide)⟩
    let pkt := hdr.1 / 8 % 32
    if pkt = 0 then headerPacket env vbi mag hdr.2 (p.drop 2)
    else if pkt ≤ 24 then rowPacket env vbi mag pkt (p.drop 2)
    else if pkt = 26 then enhancePacket vbi mag hdr.2 (p.drop 2)
    else if pkt = 27 then linkPacket vbi mag hdr.2 (p.drop 2)
    else if pkt = 30 then xPacket env vbi mag hdr.2 (p.drop 2)
    else (vbi, [], 0)

def vtLines (env : LangEnv) (vbi : Vbi) : List (List UInt8) → Vbi × List VtEvent
  | [] => (vbi, [])
  | p :: ps =>
    let r := vtLine env vbi p
    let rest := vtLines env r.1 ps
    (rest.1, r.2.1 ++ rest.2)

/-! ### Flags -/

section Flags

theorem and_mask_ne_zero {flags mask : BitVec 32} {i : ℕ} (hmask : mask = BitVec.twoPow 32 i) :
    decide (flags &&& mask ≠ 0) = flags.getLsbD i := by
  rw [hmask, BitVec.and_twoPow]
  cases hbit : flags.getLsbD i with
  | false => simp
  | true =>
    have hlt : i < 32 := by
      by_contra hno
      rw [BitVec.getLsbD_of_ge _ _ (not_lt.mp hno)] at hbit
      exact Bool.false_ne_true hbit
    have hne : BitVec.twoPow 32 i ≠ 0#32 := fun hzero => by
      have hone : (BitVec.twoPow 32 i).getLsbD i = true := by simp [hlt]
      rw [hzero, BitVec.getLsbD_zero] at hone
      exact Bool.false_ne_true hone
    simpa using hne

theorem active_eq (vtp : VtPage) : vtp.active = vtp.flags.getLsbD 8 := and_mask_ne_zero (by decide)

theorem magSerial_eq (vtp : VtPage) : vtp.magSerial = vtp.flags.getLsbD 4 := and_mask_ne_zero (by decide)

theorem flagsOf_bit (b2 b3 b4 : ℕ) {i : ℕ} (hi : i < 32) : (flagsOf b2 b3 b4).getLsbD i
    = ((b4.testBit i && Nat.testBit 0x1f i || b3.testBit i && Nat.testBit 0xc0 i)
      || b2.testBit (2 + i) && Nat.testBit 0x80 (2 + i)) := by
  rw [flagsOf, BitVec.getLsbD_or, BitVec.getLsbD_or, BitVec.getLsbD_ofNat, BitVec.getLsbD_ofNat, BitVec.getLsbD_ofNat,
    Nat.testBit_and, Nat.testBit_and, Nat.testBit_shiftRight, Nat.testBit_and, decide_eq_true hi]
  simp only [Bool.true_and]

theorem flagsOf_active (b2 b3 b4 : ℕ) : (flagsOf b2 b3 b4).getLsbD 8 = false := by
  have h1f : Nat.testBit 0x1f 8 = false := by decide
  have hc0 : Nat.testBit 0xc0 8 = false := by decide
  have h80 : Nat.testBit 0x80 (2 + 8) = false := by decide
  rw [flagsOf_bit b2 b3 b4 (by decide), h1f, hc0, h80, Bool.and_false, Bool.and_false, Bool.and_false]
  rfl

theorem flagsOf_magSerial (b2 b3 b4 : ℕ) : (flagsOf b2 b3 b4).getLsbD 4 = b4.testBit 4 := by
  have h1f : Nat.testBit 0x1f 4 = true := by decide
  have hc0 : Nat.testBit 0xc0 4 = false := by decide
  have h80 : Nat.testBit 0x80 (2 + 4) = false := by decide
  rw [flagsOf_bit b2 b3 b4 (by decide), h1f, hc0, h80, Bool.and_true, Bool.and_false, Bool.and_false, Bool.or_false,
    Bool.or_false]

variable (env : LangEnv)

theorem sent_eq (rvtp : RawPage) :
    ∃ data, rvtp.sent env = { rvtp.page with flags := rvtp.page.flags &&& ~~~pgActive, data := data } := by
  obtain ⟨data, hdata⟩ := @enhance_cells env rvtp.enh { rvtp.page with flags := rvtp.page.flags &&& ~~~pgActive }
  exact ⟨data, hdata⟩

theorem sent_active (rvtp : RawPage) : (rvtp.sent env).active = false := by
  obtain ⟨data, hdata⟩ := sent_eq env rvtp
  rw [hdata, active_eq, BitVec.getLsbD_and, BitVec.getLsbD_not]
  simp [pgActive]

end Flags

/-! ### The pages that a header ends -/

/-- `vbi_send_page` hands the page over. -/
def Sends (vbi : Vbi) (mag : Fin 8) (page : ℕ) : Prop :=
  (vbi.rpage mag).page.active = true ∧ (vbi.rpage mag).page.pgno % 256 ≠ page

instance (vbi : Vbi) (mag : Fin 8) (page : ℕ) : Decidable (Sends vbi mag page) := inferInstanceAs (Decidable (_ ∧ _))

/-- The page of the last header is ended by any header, if that last header said so. -/
def SerialEnd (vbi : Vbi) (page : ℕ) : Prop :=
  (vbi.rpage vbi.ppage).page.magSerial = true ∧ Sends vbi vbi.ppage page

instance (vbi : Vbi) (page : ℕ) : Decidable (SerialEnd vbi page) := inferInstanceAs (Decidable (_ ∧ _))

/-- A header with low digits `b1` in a magazine ends the page of magazine `k`. -/
def EndedBy (vbi : Vbi) (mag : Fin 8) (b1 : ℕ) (k : Fin 8) : Prop :=
  Sends vbi k b1 ∧ (k = mag ∨ k = vbi.ppage ∧ (vbi.rpage vbi.ppage).page.magSerial = true)

instance (vbi : Vbi) (mag : Fin 8) (b1 : ℕ) (k : Fin 8) : Decidable (EndedBy vbi mag b1 k) :=
  inferInstanceAs (Decidable (_ ∧ (_ ∨ _ ∧ _)))

def VtEvent.pageOf (k : Fin 8) : VtEvent → Option VtPage
  | .page vtp => if vtp.pgno / 256 = mag8 k then some vtp else none
  | _ => none

/-- The pages with the numbers of a magazine, among what is sent. -/
def pagesOf (k : Fin 8) (events : List VtEvent) : List VtPage := events.filterMap (VtEvent.pageOf k)

theorem mag8_inj {m k : Fin 8} (h : mag8 m = mag8 k) : m = k := by
  unfold mag8 at h
  split at h <;> split at h <;> omega

section Ends

variable {env : LangEnv} {vbi : Vbi} {mag : Fin 8} {page : ℕ}

theorem vbiSendPage_sends (h : Sends vbi mag page) : vbiSendPage env vbi mag page =
    ({ vbi with rpage := Function.update vbi.rpage mag ((vbi.rpage mag).ended env) },
      [.page ((vbi.rpage mag).sent env)]) := by
  rw [vbiSendPage, if_pos h.1, if_pos h.2]

theorem vbiSendPage_not (h : ¬Sends vbi mag page) : vbiSendPage env vbi mag page = (vbi, []) := by
  rw [vbiSendPage]
  split
  next hactive => exact if_neg fun hne => h ⟨hactive, hne⟩
  · rfl

variable (k : Fin 8)

theorem vbiSendPage_rpage : (vbiSendPage env vbi mag page).1.rpage k =
    if k = mag ∧ Sends vbi mag page then (vbi.rpage k).ended env else vbi.rpage k := by
  by_cases hsends : Sends vbi mag page
  · rw [vbiSendPage_sends hsends]
    dsimp only
    by_cases hk : k = mag
    · subst hk
      rw [Function.update_self, if_pos ⟨rfl, hsends⟩]
    · rw [Function.update_of_ne hk, if_neg fun hno => hk hno.1]
  · rw [vbiSendPage_not hsends, if_neg fun hno => hsends hno.2]

theorem serial_call : (if (vbi.rpage vbi.ppage).page.magSerial then vbiSendPage env vbi vbi.ppage page else (vbi, []))
    = if SerialEnd vbi page then vbiSendPage env vbi vbi.ppage page else (vbi, []) := by
  by_cases hserial : (vbi.rpage vbi.ppage).page.magSerial = true
  · rw [if_pos hserial]
    by_cases hsends : Sends vbi vbi.ppage page
    · rw [if_pos ⟨hserial, hsends⟩]
    · rw [if_neg fun hno => hsends hno.2, vbiSendPage_not hsends]
  · rw [if_neg hserial, if_neg fun hno => hserial hno.1]

theorem sends_after : Sends (vbiSendPage env vbi vbi.ppage page).1 mag page ↔ Sends vbi mag page ∧ mag ≠ vbi.ppage := by
  unfold Sends
  rw [vbiSendPage_rpage]
  by_cases hmag : mag = vbi.ppage ∧ Sends vbi vbi.ppage page
  · rw [if_pos hmag, RawPage.ended, sent_active]
    exact iff_of_false (fun hno => Bool.false_ne_true hno.1) fun hno => hno.2 hmag.1
  · rw [if_neg hmag]
    refine ⟨fun h => ⟨h, fun hno => hmag ⟨hno, ?_⟩⟩, And.left⟩
    subst hno
    exact h

theorem endPages_rpage : (endPages env vbi mag page).1.rpage k =
    if EndedBy vbi mag page k then (vbi.rpage k).ended env else vbi.rpage k := by
  unfold endPages
  dsimp only
  rw [serial_call]
  by_cases hserial : SerialEnd vbi page
  · rw [if_pos hserial, vbiSendPage_rpage, vbiSendPage_rpage]
    by_cases hk : k = vbi.ppage
    · have hended : EndedBy vbi mag page k :=
        ⟨hk ▸ hserial.2, Or.inr ⟨hk, hserial.1⟩⟩
      rw [if_pos hended, if_neg fun hno => (sends_after.mp hno.2).2 (hno.1.symm.trans hk), if_pos ⟨hk, hserial.2⟩]
    · have hfirst : ¬(k = vbi.ppage ∧ Sends vbi vbi.ppage page) := fun hno => hk hno.1
      rw [if_neg hfirst]
      refine if_congr ?_ rfl rfl
      constructor
      · rintro ⟨rfl, hsends⟩
        exact ⟨(sends_after.mp hsends).1, Or.inl rfl⟩
      · rintro ⟨hsends, rfl | ⟨hno, -⟩⟩
        · exact ⟨rfl, sends_after.mpr ⟨hsends, hk⟩⟩
        · exact absurd hno hk
  · rw [if_neg hserial, vbiSendPage_rpage]
    refine if_congr ?_ rfl rfl
    constructor
    · rintro ⟨rfl, hsends⟩
      exact ⟨hsends, Or.inl rfl⟩
    · rintro ⟨hsends, rfl | ⟨rfl, hmag⟩⟩
      · exact ⟨rfl, hsends⟩
      · exact absurd ⟨hmag, hsends⟩ hserial

theorem endPages_events : (endPages env vbi mag page).2 =
    (if SerialEnd vbi page then [.page ((vbi.rpage vbi.ppage).sent env)] else []) ++
      if Sends vbi mag page ∧ ¬(SerialEnd vbi page ∧ mag = vbi.ppage) then [.page ((vbi.rpage mag).sent env)] else [] := by
  unfold endPages
  dsimp only
  rw [serial_call]
  by_cases hserial : SerialEnd vbi page
  · rw [if_pos hserial, if_pos hserial]
    have hfirst := @vbiSendPage_sends env _ _ _ hserial.2
    congr 1
    · rw [hfirst]
    · by_cases hsecond : Sends vbi mag page ∧ mag ≠ vbi.ppage
      · have hcond : Sends vbi mag page ∧ ¬(SerialEnd vbi page ∧ mag = vbi.ppage) :=
          ⟨hsecond.1, fun hno => hsecond.2 hno.2⟩
        rw [if_pos hcond, vbiSendPage_sends (sends_after.mpr hsecond)]
        dsimp only
        rw [vbiSendPage_rpage, if_neg fun hno => hsecond.2 hno.1]
      · have hcond : ¬(Sends vbi mag page ∧ ¬(SerialEnd vbi page ∧ mag = vbi.ppage)) := fun hno =>
          hsecond ⟨hno.1, fun heq => hno.2 ⟨hserial, heq⟩⟩
        rw [if_neg hcond, vbiSendPage_not fun hno => hsecond (sends_after.mp hno)]
  · rw [if_neg hserial, if_neg hserial]
    congr 1
    by_cases hsends : Sends vbi mag page
    · rw [if_pos ⟨hsends, fun hno => hserial hno.1⟩, vbiSendPage_sends hsends]
    · rw [if_neg fun hno => hsends hno.1, vbiSendPage_not hsends]

theorem endPages_page {vtp : VtPage} (h : VtEvent.page vtp ∈ (endPages env vbi mag page).2) :
    ∃ k, EndedBy vbi mag page k ∧ vtp = (vbi.rpage k).sent env := by
  rw [endPages_events] at h
  rcases List.mem_append.mp h with h | h
  · split at h
    next hserial =>
      injection List.mem_singleton.mp h with hvtp
      exact ⟨_, ⟨hserial.2, Or.inr ⟨rfl, hserial.1⟩⟩, hvtp⟩
    · exact absurd h List.not_mem_nil
  · split at h
    next hown =>
      injection List.mem_singleton.mp h with hvtp
      exact ⟨_, ⟨hown.1, Or.inl rfl⟩, hvtp⟩
    · exact absurd h List.not_mem_nil

theorem pagesOf_append (events events' : List VtEvent) :
    pagesOf k (events ++ events') = pagesOf k events ++ pagesOf k events' :=
  List.filterMap_append

theorem pagesOf_quiet {events : List VtEvent} (h : ∀ vtp, VtEvent.page vtp ∉ events) (k : Fin 8) : pagesOf k events = [] := by
  refine List.filterMap_eq_nil_iff.mpr fun event hevent => ?_
  cases event with
  | page vtp => exact absurd hevent (h vtp)
  | header _ _ _ _ => rfl
  | xpacket _ _ _ _ => rfl

theorem pagesOf_page (vtp : VtPage) : pagesOf k [.page vtp] = if vtp.pgno / 256 = mag8 k then [vtp] else [] := by
  by_cases hmag : vtp.pgno / 256 = mag8 k
  · have hsome : VtEvent.pageOf k (.page vtp) = some vtp := if_pos hmag
    rw [pagesOf, List.filterMap_cons_some hsome, if_pos hmag]
    rfl
  · have hnone : VtEvent.pageOf k (.page vtp) = none := if_neg hmag
    rw [pagesOf, List.filterMap_cons_none hnone, if_neg hmag]
    rfl

/-- Where the pages have the numbers of their magazines, a header hands over at most one page of each. -/
theorem pagesOf_endPages (hmag : ∀ k, (vbi.rpage k).page.active = true → (vbi.rpage k).page.pgno / 256 = mag8 k)
    (k : Fin 8) : pagesOf k (endPages env vbi mag page).2 =
      if EndedBy vbi mag page k then [(vbi.rpage k).sent env] else [] := by
  have hpage : ∀ m, Sends vbi m page → pagesOf k [.page ((vbi.rpage m).sent env)]
      = if m = k then [(vbi.rpage k).sent env] else [] := fun m hsends => by
    obtain ⟨data, hdata⟩ := sent_eq env (vbi.rpage m)
    have hpgno : ((vbi.rpage m).sent env).pgno / 256 = mag8 m := by
      rw [hdata]
      exact hmag m hsends.1
    rw [pagesOf_page, hpgno]
    by_cases hm : m = k
    · rw [if_pos (congrArg mag8 hm), if_pos hm, hm]
    · rw [if_neg fun hno => hm (mag8_inj hno), if_neg hm]
  rw [endPages_events, pagesOf_append]
  by_cases hserial : SerialEnd vbi page
  · rw [if_pos hserial, hpage _ hserial.2]
    by_cases hk : vbi.ppage = k
    · have hended : EndedBy vbi mag page k := ⟨hk ▸ hserial.2, Or.inr ⟨hk.symm, hserial.1⟩⟩
      rw [if_pos hk, if_pos hended]
      split
      next hown =>
        rw [hpage _ hown.1, if_neg fun hno => hown.2 ⟨hserial, hno.trans hk.symm⟩]
        rfl
      · rfl
    · rw [if_neg hk, List.nil_append]
      by_cases hown : Sends vbi mag page ∧ ¬(SerialEnd vbi page ∧ mag = vbi.ppage)
      · rw [if_pos hown, hpage _ hown.1]
        refine if_congr ⟨?_, ?_⟩ rfl rfl
        · rintro rfl
          exact ⟨hown.1, Or.inl rfl⟩
        · rintro ⟨-, hmag | hno⟩
          · exact hmag.symm
          · exact absurd hno.1.symm hk
      · rw [if_neg hown, if_neg]
        · rfl
        · rintro ⟨hsends, rfl | hno⟩
          · exact hown ⟨hsends, fun hno => hk hno.2.symm⟩
          · exact hk hno.1.symm
  · rw [if_neg hserial]
    have hquiet : pagesOf k ([] : List VtEvent) = [] := rfl
    rw [hquiet, List.nil_append]
    by_cases hown : Sends vbi mag page
    · rw [if_pos ⟨hown, fun hno => hserial hno.1⟩, hpage _ hown]
      refine if_congr ⟨?_, ?_⟩ rfl rfl
      · rintro rfl
        exact ⟨hown, Or.inl rfl⟩
      · rintro ⟨hsends, hmag | ⟨rfl, hno⟩⟩
        · exact hmag.symm
        · exact absurd ⟨hno, hsends⟩ hserial
    · rw [if_neg fun hno => hown hno.1, if_neg]
      · rfl
      · rintro ⟨hsends, rfl | ⟨rfl, hno⟩⟩
        · exact hown hsends
        · exact hserial ⟨hno, hsends⟩

end Ends

/-! ### Packets by their address -/

def AddressOk (p : List UInt8) : Prop := uncorrectable (hamm16 (p.getD 0 0) (p.getD 1 0) 0).2 = false

def lineMag (p : List UInt8) : Fin 8 := ⟨(hamm16 (p.getD 0 0) (p.getD 1 0) 0).1 % 8, Nat.mod_lt _ (by decide)⟩

def linePkt (p : List UInt8) : ℕ := (hamm16 (p.getD 0 0) (p.getD 1 0) 0).1 / 8 % 32

def lineDigits (p : List UInt8) : ℕ := (hamm16 (p.getD 2 0) (p.getD 3 0) 0).1

def DigitsOk (p : List UInt8) : Prop := uncorrectable (hamm16 (p.getD 2 0) (p.getD 3 0) 0).2 = false

def lineText (env : LangEnv) (lang : ℤ) (p : List UInt8) : Fin 40 → UInt8 :=
  rowOf (conv2latin env lang (chkParity ((p.drop 2).take 40)).1)

def headerErr (p : List UInt8) : ℕ :=
  (hamm16 (p.getD 8 0) (p.getD 9 0) (hamm16 (p.getD 6 0) (p.getD 7 0) (hamm16 (p.getD 4 0) (p.getD 5 0)
    (hamm16 (p.getD 2 0) (p.getD 3 0) (hamm16 (p.getD 0 0) (p.getD 1 0) 0).2).2).2).2).2

section Address

variable {env : LangEnv} {vbi : Vbi} {p : List UInt8}

theorem getD_drop (p : List UInt8) (i n : ℕ) : (p.drop n).getD i 0 = p.getD (n + i) 0 := by
  rw [List.getD_eq_getElem?_getD, List.getElem?_drop, ← List.getD_eq_getElem?_getD]

set_option maxRecDepth 4000 in
theorem hammTable_le : hammTable.length = 256 ∧ ∀ a ∈ hammTable, a ≤ 0x100f := by decide

theorem hammtab_bound (b : UInt8) : hammtab b ≤ 0x100f := by
  have hlt : b.toNat < hammTable.length := hammTable_le.1 ▸ b.toNat_lt
  rw [hammtab, List.getD_eq_getElem _ _ hlt]
  exact hammTable_le.2 _ (List.getElem_mem hlt)

theorem lt_of_correctable {err : ℕ} (h : uncorrectable err = false) (hbound : err < 0x10000) : err < 0x1000 := by
  have hzero : err &&& 0xf000 = 0 := by simpa [uncorrectable] using h
  by_contra hge
  -- the highest bit of the count is one of the four that are tested
  have hlog : Nat.testBit err (Nat.log2 err) = true := Nat.testBit_log2 (by omega)
  have hlow : 12 ≤ Nat.log2 err := (Nat.le_log2 (by omega)).mpr (not_lt.mp hge)
  have hhigh : Nat.log2 err < 16 := (Nat.log2_lt (by omega)).mpr hbound
  have hmask : ∀ i < 16, 12 ≤ i → Nat.testBit 0xf000 i = true := by decide
  have hbit : (err &&& 0xf000).testBit (Nat.log2 err) = true := by
    rw [Nat.testBit_and, hlog, hmask _ hhigh hlow]
    rfl
  rw [hzero, Nat.zero_testBit] at hbit
  exact Bool.false_ne_true hbit

theorem digitsOk_of_header (h : uncorrectable (headerErr p) = false) : DigitsOk p := by
  have hbound := hammtab_bound
  have hlow : headerErr p < 0x1000 := by
    refine lt_of_correctable h ?_
    simp only [headerErr, hamm16]
    have h0 := hbound (p.getD 0 0)
    have h1 := hbound (p.getD 1 0)
    have h2 := hbound (p.getD 2 0)
    have h3 := hbound (p.getD 3 0)
    have h4 := hbound (p.getD 4 0)
    have h5 := hbound (p.getD 5 0)
    have h6 := hbound (p.getD 6 0)
    have h7 := hbound (p.getD 7 0)
    have h8 := hbound (p.getD 8 0)
    have h9 := hbound (p.getD 9 0)
    omega
  refine uncorrectable_low (lt_of_le_of_lt ?_ hlow)
  simp only [headerErr, hamm16]
  omega

theorem vtLine_eq (h : AddressOk p) : vtLine env vbi p =
    if linePkt p = 0 then
      headerPacket env vbi (lineMag p) (hamm16 (p.getD 0 0) (p.getD 1 0) 0).2 (p.drop 2)
    else if linePkt p ≤ 24 then rowPacket env vbi (lineMag p) (linePkt p) (p.drop 2)
    else if linePkt p = 26 then
      enhancePacket vbi (lineMag p) (hamm16 (p.getD 0 0) (p.getD 1 0) 0).2 (p.drop 2)
    else if linePkt p = 27 then linkPacket vbi (lineMag p) (hamm16 (p.getD 0 0) (p.getD 1 0) 0).2 (p.drop 2)
    else if linePkt p = 30 then xPacket env vbi (lineMag p) (hamm16 (p.getD 0 0) (p.getD 1 0) 0).2 (p.drop 2)
    else (vbi, [], 0) := by
  unfold vtLine
  dsimp only
  rw [if_neg (by rw [h]; exact Bool.false_ne_true)]
  rfl

def linePage (env : LangEnv) (p : List UInt8) (old : RawPage) : RawPage :=
  headerPage env (lineMag p) (lineDigits p) (hamm16 (p.getD 4 0) (p.getD 5 0) 0).1 (hamm16 (p.getD 6 0) (p.getD 7 0) 0).1
    (hamm16 (p.getD 8 0) (p.getD 9 0) 0).1 (headerErr p) (p.drop 2) old

theorem vtLine_header (h : AddressOk p) (hpkt : linePkt p = 0) :
    (vtLine env vbi p).1 = (if uncorrectable (headerErr p) then (endPages env vbi (lineMag p) (lineDigits p)).1
      else ⟨Function.update (endPages env vbi (lineMag p) (lineDigits p)).1.rpage (lineMag p)
        (linePage env p ((endPages env vbi (lineMag p) (lineDigits p)).1.rpage (lineMag p))), lineMag p⟩) ∧
    ∃ rest, (vtLine env vbi p).2.1 = (endPages env vbi (lineMag p) (lineDigits p)).2 ++ rest ∧
      ∀ vtp, VtEvent.page vtp ∉ rest := by
  have hpacket : headerPacket env vbi (lineMag p) (hamm16 (p.getD 0 0) (p.getD 1 0) 0).2 (p.drop 2) =
      if uncorrectable (headerErr p) then
        ((endPages env vbi (lineMag p) (lineDigits p)).1, (endPages env vbi (lineMag p) (lineDigits p)).2, 4)
      else
        (⟨Function.update (endPages env vbi (lineMag p) (lineDigits p)).1.rpage (lineMag p)
            (linePage env p ((endPages env vbi (lineMag p) (lineDigits p)).1.rpage (lineMag p))), lineMag p⟩,
          (endPages env vbi (lineMag p) (lineDigits p)).2 ++
            [.header (linePage env p ((endPages env vbi (lineMag p) (lineDigits p)).1.rpage (lineMag p))).page.pgno
              (linePage env p ((endPages env vbi (lineMag p) (lineDigits p)).1.rpage (lineMag p))).page.subno
              (flagsOf (hamm16 (p.getD 4 0) (p.getD 5 0) 0).1 (hamm16 (p.getD 6 0) (p.getD 7 0) 0).1
                (hamm16 (p.getD 8 0) (p.getD 9 0) 0).1)
              (headerRow env (hamm16 (p.getD 8 0) (p.getD 9 0) 0).1 (p.drop 2))], 0) := by
    unfold headerPacket
    simp only [getD_drop]
    rfl
  rw [vtLine_eq h, if_pos hpkt, hpacket]
  split
  next herr => exact ⟨rfl, [], (List.append_nil _).symm, fun _ => List.not_mem_nil⟩
  next herr =>
    refine ⟨rfl, _, rfl, fun vtp hmem => ?_⟩
    exact VtEvent.noConfusion (List.mem_singleton.mp hmem)

def rowPage (env : LangEnv) (p : List UInt8) (old : RawPage) : RawPage :=
  { old with
    page :=
      { old.page with
        errors := old.page.errors + (chkParity ((p.drop 2).take 40)).2
        lines := old.page.lines ||| (1 : BitVec 32) <<< linePkt p
        data := fun l => if l.val = linePkt p then lineText env old.page.lang p else old.page.data l } }

theorem vtLine_row (h : AddressOk p) (hlow : linePkt p ≠ 0) (hhigh : linePkt p ≤ 24) :
    (vtLine env vbi p).1 = (if (vbi.rpage (lineMag p)).page.active = true then
      { vbi with rpage := Function.update vbi.rpage (lineMag p) (rowPage env p (vbi.rpage (lineMag p))) } else vbi) ∧
    (vtLine env vbi p).2.1 = [] := by
  rw [vtLine_eq h, if_neg hlow, if_pos hhigh, rowPacket]
  dsimp only
  cases hactive : (vbi.rpage (lineMag p)).page.active with
  | false => exact ⟨rfl, rfl⟩
  | true => exact ⟨rfl, rfl⟩

def SamePage (old new : RawPage) : Prop := ∃ link flof, new.page = { old.page with link := link, flof := flof }

variable (old : RawPage)

theorem SamePage.refl : SamePage old old := ⟨old.page.link, old.page.flof, rfl⟩

theorem samePage_update {rpage : Fin 8 → RawPage} {mag : Fin 8} {new : RawPage} (h : SamePage (rpage mag) new) (k : Fin 8) :
    SamePage (rpage k) (Function.update rpage mag new k) := by
  by_cases hk : k = mag
  · subst hk
    rw [Function.update_self]
    exact h
  · rw [Function.update_of_ne hk]
    exact SamePage.refl _

theorem vtLine_other (h : AddressOk p) (hpkt : 24 < linePkt p) :
    (∀ k, SamePage (vbi.rpage k) ((vtLine env vbi p).1.rpage k)) ∧ ∀ vtp, VtEvent.page vtp ∉ (vtLine env vbi p).2.1 := by
  have hquiet : (∀ k, SamePage (vbi.rpage k) (vbi.rpage k)) ∧ ∀ vtp, VtEvent.page vtp ∉ ([] : List VtEvent) :=
    ⟨fun k => SamePage.refl _, fun _ => List.not_mem_nil⟩
  rw [vtLine_eq h, if_neg (by omega), if_neg (by omega)]
  split
  · unfold enhancePacket
    dsimp only
    split
    · exact hquiet
    · split
      · exact hquiet
      · split
        · exact hquiet
        · exact ⟨samePage_update ⟨_, _, rfl⟩, fun _ => List.not_mem_nil⟩
  · split
    · unfold linkPacket
      dsimp only
      split
      · exact hquiet
      · split
        · exact hquiet
        · split
          · exact hquiet
          · exact ⟨samePage_update ⟨_, _, rfl⟩, fun _ => List.not_mem_nil⟩
    · split
      · unfold xPacket
        split
        · exact hquiet
        · dsimp only
          split
          · exact hquiet
          · exact ⟨fun k => SamePage.refl _, fun vtp hmem => VtEvent.noConfusion (List.mem_singleton.mp hmem)⟩
      · exact hquiet

/-! ### The page that a header begins -/

theorem linePage_active : (linePage env p old).page.active = true ↔ lineDigits p ≠ 0xff := by
  rw [active_eq, linePage, headerPage]
  split
  next hff =>
    refine iff_of_false ?_ fun hno => hno hff
    rw [flagsOf_active]
    exact Bool.false_ne_true
  next hff =>
    refine iff_of_true ?_ hff
    rw [BitVec.getLsbD_or]
    simp [pgActive]

theorem linePage_pgno : (linePage env p old).page.pgno = mag8 (lineMag p) * 256 + lineDigits p := by
  rw [linePage, headerPage]
  split <;> rfl

theorem linePage_lines : (linePage env p old).page.lines = 1 := by
  rw [linePage, headerPage]
  split <;> rfl

theorem lineDigits_lt (p : List UInt8) : lineDigits p < 256 := by
  have hnibble : ∀ n : ℕ, n &&& 15 < 16 := fun n => Nat.lt_succ_of_le Nat.and_le_right
  exact Nat.or_lt_two_pow (n := 8) ((hnibble _).trans (by decide)) (by have hlt := hnibble (hammtab (p.getD 3 0)); omega)

end Address

/-! ### Packets one after another -/

section Lines

variable {env : LangEnv}

theorem vtLines_append (vbi : Vbi) (ps qs : List (List UInt8)) : vtLines env vbi (ps ++ qs)
    = ((vtLines env (vtLines env vbi ps).1 qs).1, (vtLines env vbi ps).2 ++ (vtLines env (vtLines env vbi ps).1 qs).2) := by
  induction ps generalizing vbi with
  | nil => rfl
  | cons p ps ih =>
    rw [List.cons_append, vtLines, ih]
    exact Prod.ext rfl (List.append_assoc _ _ _).symm

theorem vtLines_snoc (vbi : Vbi) (ps : List (List UInt8)) (p : List UInt8) : vtLines env vbi (ps ++ [p])
    = ((vtLine env (vtLines env vbi ps).1 p).1, (vtLines env vbi ps).2 ++ (vtLine env (vtLines env vbi ps).1 p).2.1) := by
  rw [vtLines_append]
  refine Prod.ext rfl ?_
  show _ ++ (_ ++ []) = _
  rw [List.append_nil]

end Lines

def plainEnv : LangEnv := ⟨LATIN1, fun _ => false, fun _ => 0⟩

def idleVbi : Vbi := ⟨fun _ => ⟨⟨0, 0, 0, 0, 0, 0, fun _ _ => 0, 0, []⟩, ⟨0, fun _ => 0⟩⟩, 0⟩

end BgtDvb.Alevt
