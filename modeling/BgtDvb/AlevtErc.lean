import BgtDvb.AlevtCache

/-!
# Error reduction

`do_erc` merges every page that is put with the page that the cache already has, in place and with a shortcut. What the
cache has in the end is said by the transmissions alone: at each place, the last good character.

* `lastGood_cons`, `doErc_reduced` — **PROVED**: one more transmission is what `do_erc` makes of it;
* `Reduced.step`, `erc_run` — **PROVED**: so it is after any operations, with pages of other numbers in between.
-/

namespace BgtDvb.Alevt

def blankChar : UInt8 := 0x20

/-- `lines & (1 << l)` -/
def VtPage.hasRow (p : VtPage) (l : Fin 25) : Bool := p.lines.getLsbD l

/-- A page as it is put: without errors it has no bad character, and it is blank where it has no row. -/
structure VtPage.Received (p : VtPage) : Prop where
  good : p.errors = 0 → ∀ l c, p.data l c ≠ badChar
  blank : ∀ l, p.hasRow l = false → ∀ c, p.data l c = blankChar

def rowsOf (log : List VtPage) : BitVec 32 := log.foldr (fun p lines => p.lines ||| lines) 0

/-- The character of the newest transmission (the newest is in front) that has the row and a good character there. -/
def lastGood (log : List VtPage) (l : Fin 25) (c : Fin 40) : UInt8 :=
  match log.find? fun p => p.hasRow l && p.data l c != badChar with
  | some p => p.data l c
  | none => if log.any fun p => p.hasRow l then badChar else blankChar

def reduced (vtp : VtPage) (log : List VtPage) : VtPage := { vtp with lines := rowsOf log, data := lastGood log }

/-! ### One more transmission -/

section Merge

variable {vtp : VtPage} {log : List VtPage}

theorem rowsOf_cons : rowsOf (vtp :: log) = vtp.lines ||| rowsOf log := rfl

theorem rowsOf_bit (l : Fin 25) : (rowsOf log).getLsbD l = log.any fun p => p.hasRow l := by
  induction log with
  | nil =>
    show (0 : BitVec 32).getLsbD l = false
    exact BitVec.getLsbD_zero
  | cons p log ih =>
    rw [rowsOf_cons, BitVec.getLsbD_or, ih, List.any_cons]
    rfl

theorem find_none {l : Fin 25} (hrow : (log.any fun p => p.hasRow l) = false) (c : Fin 40) :
    (log.find? fun p => p.hasRow l && p.data l c != badChar) = none := by
  apply List.find?_eq_none.mpr
  intro p hp hgood
  have hhas : p.hasRow l = true := (Bool.and_eq_true _ _ ▸ hgood).1
  exact List.any_eq_false.mp hrow p hp hhas

theorem lastGood_blank {l : Fin 25} (hrow : (log.any fun p => p.hasRow l) = false) (c : Fin 40) :
    lastGood log l c = blankChar := by
  unfold lastGood
  rw [find_none hrow, hrow]
  rfl

/-- The newest transmission counts if it has the row and a good character; else the older ones do, if they have the
row. -/
theorem lastGood_cons (l : Fin 25) (c : Fin 40) : lastGood (vtp :: log) l c =
    if vtp.hasRow l = false then lastGood log l c
    else if (log.any fun p => p.hasRow l) = true ∧ vtp.data l c = badChar then lastGood log l c
    else vtp.data l c := by
  cases hrow : vtp.hasRow l with
  | false =>
    unfold lastGood
    simp [hrow]
  | true =>
    by_cases hbad : vtp.data l c = badChar
    · cases hany : log.any fun p => p.hasRow l with
      | true =>
        unfold lastGood
        simp [hrow, hbad, hany]
      | false =>
        unfold lastGood
        simp [hrow, hbad, find_none hany]
    · unfold lastGood
      simp [hrow, hbad]

theorem reduced_first (hvtp : vtp.Received) : reduced vtp [vtp] = vtp := by
  have hlines : rowsOf [vtp] = vtp.lines := BitVec.or_zero
  have hdata : lastGood [vtp] = vtp.data := by
    funext l c
    rw [lastGood_cons]
    split
    next hrow => rw [lastGood_blank rfl, hvtp.blank l hrow c]
    · rw [if_neg fun hno => Bool.false_ne_true hno.1]
  unfold reduced
  rw [hlines, hdata]

theorem doErc_reduced (hvtp : vtp.Received) (prev : VtPage) :
    doErc (reduced prev log) vtp = reduced vtp (vtp :: log) := by
  have hbit : ∀ l : Fin 25, (rowsOf log).getLsbD l = log.any fun p => p.hasRow l := rowsOf_bit
  unfold doErc
  split
  next hshort =>
    -- the shortcut: no bad character, and the rows without transmission are blank in both pages
    have hsame : rowsOf log = vtp.lines := hshort.2
    have hlines : rowsOf (vtp :: log) = vtp.lines := by
      rw [rowsOf_cons, hsame]
      exact BitVec.or_self
    have hdata : lastGood (vtp :: log) = vtp.data := by
      funext l c
      rw [lastGood_cons]
      split
      next hrow =>
        have hnever : (log.any fun p => p.hasRow l) = false := by
          rw [← hbit l, hsame]
          exact hrow
        rw [lastGood_blank hnever, hvtp.blank l hrow c]
      · rw [if_neg fun hno => hvtp.good hshort.1 l c hno.2]
    unfold reduced
    rw [hlines, hdata]
  next =>
    have hdata : (fun l : Fin 25 =>
        if vtp.lines.getLsbD l = false then lastGood log l
        else if (rowsOf log).getLsbD l then
          fun c => if vtp.data l c = badChar then lastGood log l c else vtp.data l c
        else vtp.data l) = lastGood (vtp :: log) := by
      funext l c
      rw [lastGood_cons, hbit l]
      show _ = if vtp.lines.getLsbD l = false then _ else _
      by_cases hrow : vtp.lines.getLsbD l = false
      · rw [if_pos hrow, if_pos hrow]
      · rw [if_neg hrow, if_neg hrow]
        cases hany : log.any fun p => p.hasRow l with
        | true => simp
        | false => simp
    show ({ vtp with data := _, lines := _ } : VtPage) = { vtp with lines := _, data := _ }
    rw [← hdata]
    rfl

end Merge

/-! ### The history of a page in the cache -/

def cacheSteps (ca : Cache) : List CacheOp → Option Cache
  | [] => some ca
  | op :: ops => (cacheStep ca op).bind fun r => cacheSteps r.1 ops

/-- The transmissions of a page that the cache took: all but those before the first for which there was memory. -/
def received (key : ℕ × ℤ) (log : List VtPage) : CacheOp → List VtPage
  | .put vtp room => if vtp.key = key ∧ (log ≠ [] ∨ room = true) then vtp :: log else log
  | _ => log

/-- Error reduction stays on and nothing is forgotten; pages with the numbers come as they are received. -/
def CacheOp.Reduces (key : ℕ × ℤ) : CacheOp → Prop
  | .put vtp _ => vtp.key = key → vtp.Received
  | .reset => False
  | .mode which arg => which = cacheModeErc → arg ≠ 0
  | _ => True

/-- The page that the cache keeps of a history. -/
structure Reduced (key : ℕ × ℤ) (ca : Cache) (log : List VtPage) : Prop where
  inv : CacheInv ca
  erc : ca.erc = true
  there : ca.HasKey key ↔ log ≠ []
  page : ∀ p, ca.Has p → p.key = key → ∃ vtp ∈ log.head?, p = reduced vtp log

section Puts

variable {ca ca' : Cache} {key : ℕ × ℤ} {vtp : VtPage} {log : List VtPage}

theorem CacheInv.unique (h : CacheInv ca) {p q : VtPage} (hp : ca.Has p) (hq : ca.Has q) (hkey : p.key = q.key) :
    p = q := by
  have hpgno : p.pgno = q.pgno := congrArg Prod.fst hkey
  have hmem := h.has_bucket hp
  rw [hpgno] at hmem
  exact List.inj_on_of_nodup_map (h.keys _) hmem (h.has_bucket hq) hkey

theorem CacheInv.put_merged (h : CacheInv ca) (herc : ca.erc = true) {old : VtPage} (hold : ca.Has old)
    (hkey : old.key = vtp.key) (room : Bool) :
    cachePut ca vtp room =
      some (some (doErc old vtp), ca.toFront (hashPgno vtp.pgno) (sameKey vtp) (doErc old vtp)) := by
  have hmem := h.has_bucket hold
  have hpgno : old.pgno = vtp.pgno := congrArg Prod.fst hkey
  rw [hpgno] at hmem
  unfold cachePut
  cases hfind : (ca.hash (hashPgno vtp.pgno)).find? (sameKey vtp) with
  | none => exact absurd (sameKey_iff.mpr hkey) (List.find?_eq_none.mp hfind old hmem)
  | some q =>
    have hq : ca.Has q := ⟨_, List.mem_of_find?_eq_some hfind⟩
    have hsame : q = old := h.unique hq hold ((sameKey_iff.mp (List.find?_some hfind)).trans hkey.symm)
    rw [hsame]
    dsimp only
    rw [if_pos herc]

theorem cachePut_new (hno : ¬ca.HasKey vtp.key) (hstored : vtp.Stored) (room : Bool) :
    ∃ i : Fin 0xa00, cachePut ca vtp room = some (if room = false then (none, ca) else (some vtp, ca.insert vtp i)) := by
  have hi : vtp.pgno < 0xa00 := Nat.lt_succ_of_le hstored.pgno_le
  have hfind : (ca.hash (hashPgno vtp.pgno)).find? (sameKey vtp) = none := by
    apply List.find?_eq_none.mpr
    intro p hp hsame
    exact hno ⟨p, ⟨_, hp⟩, sameKey_iff.mp hsame⟩
  refine ⟨⟨vtp.pgno, hi⟩, ?_⟩
  unfold cachePut
  rw [hfind]
  cases room with
  | false => rfl
  | true => simp [hi]

theorem Reduced.of_same (h : Reduced key ca log) (hinv : CacheInv ca') (herc : ca'.erc = true)
    (hsame : ∀ p, p.key = key → (ca'.Has p ↔ ca.Has p)) : Reduced key ca' log := by
  refine ⟨hinv, herc, ?_, ?_⟩
  · rw [← h.there]
    constructor
    · rintro ⟨p, hp, hkey⟩
      exact ⟨p, (hsame p hkey).mp hp, hkey⟩
    · rintro ⟨p, hp, hkey⟩
      exact ⟨p, (hsame p hkey).mpr hp, hkey⟩
  · intro p hp hkey
    exact h.page p ((hsame p hkey).mp hp) hkey

/-- Whatever is the only page with the numbers now, is what the history gives. -/
theorem Reduced.of_page (hinv : CacheInv ca') (herc : ca'.erc = true) (hkey : vtp.key = key)
    (hhas : ca'.Has (reduced vtp (vtp :: log))) : Reduced key ca' (vtp :: log) := by
  have hkey' : (reduced vtp (vtp :: log)).key = key := hkey
  refine ⟨hinv, herc, iff_of_true ⟨_, hhas, hkey'⟩ (List.cons_ne_nil _ _), ?_⟩
  intro p hp hpkey
  exact ⟨vtp, rfl, hinv.unique hp hhas (hpkey.trans hkey'.symm)⟩

theorem has_toFront {b : Fin hashSize} {test : VtPage → Bool} {page : VtPage} : (ca.toFront b test page).Has page := by
  refine ⟨b, ?_⟩
  unfold Cache.toFront
  simp

/-- **One put of the page.** -/
theorem Reduced.put (h : Reduced key ca log) (hstored : vtp.Stored) (hkey : vtp.key = key) (hvtp : vtp.Received)
    (room : Bool) {r : Option VtPage} (hput : cachePut ca vtp room = some (r, ca')) (hinv : CacheInv ca') :
    Reduced key ca' (received key log (.put vtp room)) := by
  cases log with
  | nil =>
    have hno : ¬ca.HasKey vtp.key := by
      rw [hkey, h.there]
      exact not_not_intro rfl
    obtain ⟨i, hnew⟩ := cachePut_new hno hstored room
    rw [hnew] at hput
    cases room with
    | false =>
      have hca : ca = ca' := congrArg Prod.snd (Option.some.inj hput)
      have hlog : received key [] (.put vtp false) = [] := by simp [received]
      rw [hlog, ← hca]
      exact h
    | true =>
      have hca : ca.insert vtp i = ca' := congrArg Prod.snd (Option.some.inj hput)
      have hlog : received key [] (.put vtp true) = [vtp] := by simp [received, hkey]
      rw [hlog]
      apply Reduced.of_page hinv
      · rw [← hca]
        exact h.erc
      · exact hkey
      · rw [reduced_first hvtp, ← hca]
        exact has_insert.mpr (Or.inl rfl)
  | cons newest older =>
    obtain ⟨old, hold, holdkey⟩ := h.there.mpr (List.cons_ne_nil _ _)
    obtain ⟨prev, -, hpage⟩ := h.page old hold holdkey
    rw [h.inv.put_merged h.erc hold (holdkey.trans hkey.symm) room] at hput
    have hca : ca.toFront (hashPgno vtp.pgno) (sameKey vtp) (doErc old vtp) = ca' :=
      congrArg Prod.snd (Option.some.inj hput)
    have hlog : received key (newest :: older) (.put vtp room) = vtp :: newest :: older := by simp [received, hkey]
    rw [hlog]
    apply Reduced.of_page hinv
    · rw [← hca]
      exact h.erc
    · exact hkey
    · rw [← doErc_reduced hvtp prev, ← hpage, ← hca]
      exact has_toFront

theorem cacheStep_erc {op : CacheOp} {r : Option VtPage} (herc : ca.erc = true) (hop : op.Reduces key)
    (hstep : cacheStep ca op = some (ca', r)) : ca'.erc = true := by
  cases op with
  | put vtp room =>
    obtain ⟨⟨q, c⟩, hput, hr⟩ := Option.map_eq_some_iff.mp hstep
    obtain rfl : c = ca' := congrArg Prod.fst hr
    unfold cachePut at hput
    split at hput
    · obtain rfl := congrArg Prod.snd (Option.some.inj hput)
      exact herc
    · split at hput
      · obtain rfl := congrArg Prod.snd (Option.some.inj hput)
        exact herc
      · split at hput
        · obtain rfl := congrArg Prod.snd (Option.some.inj hput)
          exact herc
        · cases hput
  | get pgno subno =>
    obtain rfl := congrArg Prod.fst (Option.some.inj hstep)
    show (cacheGet ca pgno subno).2.erc = true
    unfold cacheGet
    split
    · exact herc
    · exact herc
  | lookup pgno subno =>
    obtain rfl := congrArg Prod.fst (Option.some.inj hstep)
    exact herc
  | reset => exact absurd hop id
  | mode mode arg =>
    obtain rfl := congrArg Prod.fst (Option.some.inj hstep)
    show (cacheMode ca mode arg).2.erc = true
    unfold cacheMode
    split
    next hmode => exact decide_eq_true (hop hmode)
    · exact herc

theorem Reduced.step (h : Reduced key ca log) {op : CacheOp} (hop : op.Allowed) (hred : op.Reduces key) :
    ∃ ca' r, cacheStep ca op = some (ca', r) ∧ Reduced key ca' (received key log op) := by
  obtain ⟨ca', r, hstep, heffect⟩ := h.inv.step hop
  have hinv : CacheInv ca' := by
    apply h.inv.effect _ heffect
    intro vtp room hput
    subst hput
    exact hop.1
  have herc : ca'.erc = true := cacheStep_erc h.erc hred hstep
  have hreset : op ≠ .reset := by
    intro hno
    subst hno
    exact hred
  -- an operation that puts no page with the numbers leaves the page as it is
  have hother : (∀ vtp room, op = .put vtp room → vtp.key ≠ key) → Reduced key ca' log := by
    intro hput
    apply h.of_same hinv herc
    intro p hp
    rw [heffect.has fun vtp room heq hno => hput vtp room heq (hno.symm.trans hp)]
    exact ⟨And.left, fun hhas => ⟨hhas, fun hno => absurd hno hreset⟩⟩
  refine ⟨ca', r, hstep, ?_⟩
  cases op with
  | put vtp room =>
    by_cases hkey : vtp.key = key
    · obtain ⟨q, hput, hr⟩ := Option.map_eq_some_iff.mp hstep
      obtain rfl : q.2 = ca' := congrArg Prod.fst hr
      exact h.put hop.1 hkey (hred hkey) room hput hinv
    · have hlog : received key log (.put vtp room) = log := if_neg fun hno => hkey hno.1
      rw [hlog]
      apply hother
      intro vtp' room' heq
      injection heq with heq
      rw [← heq]
      exact hkey
  | get pgno subno => exact hother fun _ _ => CacheOp.noConfusion
  | lookup pgno subno => exact hother fun _ _ => CacheOp.noConfusion
  | reset => exact absurd rfl hreset
  | mode mode arg => exact hother fun _ _ => CacheOp.noConfusion

theorem Reduced.steps (h : Reduced key ca log) {ops : List CacheOp} (hops : ∀ op ∈ ops, op.Allowed ∧ op.Reduces key) :
    ∃ ca', cacheSteps ca ops = some ca' ∧ Reduced key ca' (ops.foldl (received key) log) := by
  induction ops generalizing ca log with
  | nil => exact ⟨ca, rfl, h⟩
  | cons op ops ih =>
    obtain ⟨hop, hred⟩ := hops op List.mem_cons_self
    obtain ⟨ca₁, r, hstep, h₁⟩ := h.step hop hred
    obtain ⟨ca', hrest, h'⟩ := ih h₁ fun op' hop' => hops op' (List.mem_cons_of_mem _ hop')
    refine ⟨ca', ?_, h'⟩
    rw [cacheSteps, hstep]
    exact hrest

end Puts

/-- **PROVED**: in a cache without a page with some numbers, after operations that keep it and error reduction, there
is one exactly when one was taken; it has the rows of all transmissions, and at each place the character of the last
one that had a good one there, or else the substitute or a blank. -/
theorem erc_run {text : ℕ → Fin 25 → Fin 40 → UInt8} {room : ℕ → Bool} {ca : Cache} {touched : List Touch}
    (h : CacheRun text room ca touched) (herc : ca.erc = true) {key : ℕ × ℤ} (hkey : ¬ca.HasKey key)
    {ops : List CacheOp} (hops : ∀ op ∈ ops, op.Allowed ∧ op.Reduces key) :
    ∃ ca', cacheSteps ca ops = some ca' ∧ (ca'.HasKey key ↔ ops.foldl (received key) [] ≠ []) ∧
      ∀ p, ca'.Has p → p.key = key → p.lines = rowsOf (ops.foldl (received key) []) ∧
        ∀ l c, p.data l c = lastGood (ops.foldl (received key) []) l c := by
  have hstart : Reduced key ca [] := by
    refine ⟨h.inv.1, herc, iff_of_false hkey (not_not_intro rfl), ?_⟩
    intro p hp hpkey
    exact absurd ⟨p, hp, hpkey⟩ hkey
  obtain ⟨ca', hrun, hreduced⟩ := hstart.steps hops
  refine ⟨ca', hrun, hreduced.there, ?_⟩
  intro p hp hpkey
  obtain ⟨vtp, -, rfl⟩ := hreduced.page p hp hpkey
  exact ⟨rfl, fun l c => rfl⟩

/-- Page 100 with its row 1 full of one character. -/
def ercPage (ch : UInt8) (errors : ℤ) : VtPage where
  pgno := 0x100
  subno := 0
  lang := 0
  flags := 0
  errors := errors
  lines := 2
  data := fun l _ => if l = 1 then ch else blankChar
  flof := 0
  link := []

theorem ercPage_received {ch : UInt8} {errors : ℤ} (h : errors = 0 → ch ≠ badChar) : (ercPage ch errors).Received := by
  constructor
  · intro herrors l c
    show (if l = 1 then ch else blankChar) ≠ badChar
    split
    · exact h herrors
    · decide
  · intro l hrow c
    show (if l = 1 then ch else blankChar) = blankChar
    split
    next heq =>
      subst heq
      have hbit : (2 : BitVec 32).getLsbD 1 = true := by decide
      exact absurd (hbit.symm.trans hrow) Bool.noConfusion
    · rfl

/-- The cache without help pages: a good row, then the same row with bad characters only. -/
theorem erc_run_bad : ∃ ca', cacheSteps emptyCache [.put (ercPage 0x41 0) true, .put (ercPage badChar 40) true] = some ca' ∧
    ca'.HasKey (0x100, 0) ∧ ∀ p, ca'.Has p → p.key = (0x100, 0) → p.data 1 7 = 0x41 ∧ p.data 2 7 = blankChar := by
  have hopen : cacheOpen (fun _ _ _ => 0) (fun _ => false) = some emptyCache := rfl
  have hkey : ¬emptyCache.HasKey (0x100, 0) := by
    intro h
    obtain ⟨p, ⟨i, hi⟩, -⟩ := h
    exact absurd hi List.not_mem_nil
  have hops : ∀ op ∈ [CacheOp.put (ercPage 0x41 0) true, .put (ercPage badChar 40) true],
      op.Allowed ∧ op.Reduces (0x100, 0) := by
    intro op hop
    have hstored : ∀ ch errors, (ercPage ch errors).Stored ∧ (ercPage ch errors).pgno ≤ 0x8ff := by
      intro ch errors
      have hpgno : (ercPage ch errors).pgno = 0x100 := rfl
      have hsubno : (ercPage ch errors).subno = 0 := rfl
      exact ⟨⟨by omega, by omega, by omega, by omega⟩, by omega⟩
    rcases List.mem_pair.mp hop with rfl | rfl
    · exact ⟨hstored _ _, fun _ => ercPage_received fun _ => by decide⟩
    · exact ⟨hstored _ _, fun _ => ercPage_received fun hno => absurd hno (by decide)⟩
  obtain ⟨ca', hrun, hthere, hdata⟩ := erc_run (CacheRun.opened hopen) rfl hkey hops
  refine ⟨ca', hrun, hthere.mpr (by decide), ?_⟩
  intro p hp hpkey
  obtain ⟨-, hcells⟩ := hdata p hp hpkey
  rw [hcells, hcells]
  decide

end BgtDvb.Alevt
