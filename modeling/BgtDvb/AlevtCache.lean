import Mathlib

/-!
# The page cache of alevt

`cache.c`: teletext pages in 113 lists, each with its newest page in front, a counter, and for every page number one
more than the highest subpage that was put.

* `cache_run` — **PROVED**: all of it, after every run of operations.
-/

namespace BgtDvb.Alevt

def hashSize : ℕ := 113

/-- `ANY_SUB` -/
def anySub : ℤ := 0x3f7f

/-- `BAD_CHAR` -/
def badChar : UInt8 := 0xb8

/-- `struct vt_page`: 25 rows of 40 bytes. -/
structure VtPage where
  pgno : ℕ
  subno : ℤ
  lang : ℤ
  flags : BitVec 32
  errors : ℤ
  lines : BitVec 32
  data : Fin 25 → Fin 40 → UInt8
  flof : ℤ
  link : List (ℕ × ℤ)
  deriving DecidableEq

def VtPage.key (p : VtPage) : ℕ × ℤ := (p.pgno, p.subno)

/-- `struct cache` -/
structure Cache where
  hash : Fin hashSize → List VtPage
  erc : Bool
  npages : ℤ
  hiSubno : Fin 0xa00 → BitVec 16

def hashPgno (pgno : ℕ) : Fin hashSize := ⟨pgno % hashSize, Nat.mod_lt _ (by decide)⟩

/-- The new page with what the old one had and the new one lacks. -/
def doErc (ovtp nvtp : VtPage) : VtPage :=
  if nvtp.errors = 0 ∧ ovtp.lines = nvtp.lines then nvtp
  else
    { nvtp with
      data := fun l =>
        if nvtp.lines.getLsbD l = false then ovtp.data l
        else if ovtp.lines.getLsbD l then fun c => if nvtp.data l c = badChar then ovtp.data l c else nvtp.data l c
        else nvtp.data l
      lines := nvtp.lines ||| ovtp.lines }

/-- `cp->page->pgno == pgno && (subno == ANY_SUB || cp->page->subno == subno)` -/
def wanted (pgno : ℕ) (subno : ℤ) (p : VtPage) : Bool := p.pgno = pgno ∧ (subno = anySub ∨ p.subno = subno)

/-- `cp->page->pgno == vtp->pgno && cp->page->subno == vtp->subno` -/
def sameKey (vtp p : VtPage) : Bool := p.key = vtp.key

/-- `dl_insert_first(ca->hash + h, dl_remove(cp->node))`, and what then stands there. -/
def Cache.toFront (ca : Cache) (h : Fin hashSize) (test : VtPage → Bool) (page : VtPage) : Cache :=
  { ca with hash := Function.update ca.hash h (page :: (ca.hash h).eraseP test) }

def cacheGet (ca : Cache) (pgno : ℕ) (subno : ℤ) : Option VtPage × Cache :=
  match (ca.hash (hashPgno pgno)).find? (wanted pgno subno) with
  | some page => (some page, ca.toFront (hashPgno pgno) (wanted pgno subno) page)
  | none => (none, ca)

def cacheLookup (ca : Cache) (pgno : ℕ) (subno : ℤ) : Option VtPage :=
  (ca.hash (hashPgno pgno)).find? (wanted pgno subno)

def Cache.insert (ca : Cache) (vtp : VtPage) (i : Fin 0xa00) : Cache :=
  { hash := Function.update ca.hash (hashPgno vtp.pgno) (vtp :: ca.hash (hashPgno vtp.pgno))
    erc := ca.erc
    npages := ca.npages + 1
    hiSubno :=
      if vtp.subno ≥ (ca.hiSubno i).toNat then Function.update ca.hiSubno i (BitVec.ofInt 16 (vtp.subno + 1))
      else ca.hiSubno }

/-- `room` is whether `malloc` gives memory; no result is an access outside of `hi_subno`. -/
def cachePut (ca : Cache) (vtp : VtPage) (room : Bool) : Option (Option VtPage × Cache) :=
  match (ca.hash (hashPgno vtp.pgno)).find? (sameKey vtp) with
  | some old =>
    let vtp' := if ca.erc then doErc old vtp else vtp
    some (some vtp', ca.toFront (hashPgno vtp.pgno) (sameKey vtp) vtp')
  | none =>
    if room = false then some (none, ca)
    else if hi : vtp.pgno < 0xa00 then some (some vtp, ca.insert vtp ⟨vtp.pgno, hi⟩)
    else none

def VtPage.isHelp (p : VtPage) : Bool := p.pgno / 256 = 9

def cacheReset (ca : Cache) : Cache :=
  { hash := fun h => (ca.hash h).filter VtPage.isHelp
    erc := ca.erc
    npages := ca.npages - ∑ h, (((ca.hash h).filter fun p => !p.isHelp).length : ℤ)
    hiSubno := fun p => if p.val < 0x900 then 0 else ca.hiSubno p }

/-- `CACHE_MODE_ERC` -/
def cacheModeErc : ℤ := 1

def cacheMode (ca : Cache) (mode arg : ℤ) : ℤ × Cache :=
  if mode = cacheModeErc then (if ca.erc then 1 else 0, { ca with erc := arg ≠ 0 })
  else (-1, ca)

/-- The page and subpage numbers of `help_pages`. -/
def helpKeys : List (ℕ × ℤ) :=
  [(0x900, 0), (0x901, 1), (0x902, 1), (0x903, 1), (0x904, 1), (0x905, 2), (0x906, 1), (0x907, 2), (0x908, 1),
    (0x909, 0), (0x910, 2), (0x911, 1), (0x912, 2), (0x913, 1), (0x914, 0), (0x915, 0)]

/-- `FLOF_DATA` -/
def flofData : List (ℕ × ℤ) :=
  [(0x100, anySub), (0x200, anySub), (0x300, anySub), (0x400, anySub), (0x0ff, anySub), (0x100, anySub)]

/-- `help_pages`, with the texts of the generated files. -/
def helpPages (text : ℕ → Fin 25 → Fin 40 → UInt8) : List VtPage :=
  helpKeys.map fun key => ⟨key.1, key.2, -1, 0, 0, BitVec.ofNat 32 (2 ^ 26 - 1), text key.1, 1, flofData⟩

/-- The help pages one after another; `room` is for each whether `malloc` gives memory. -/
def putAll (ca : Cache) : List (VtPage × Bool) → Option Cache
  | [] => some ca
  | (vtp, room) :: rest => (cachePut ca vtp room).bind fun r => putAll r.2 rest

def emptyCache : Cache := ⟨fun _ => [], true, 0, fun _ => 0⟩

/-- Without memory for the cache itself, `cache_open` fails; that is not part of the run. -/
def cacheOpen (text : ℕ → Fin 25 → Fin 40 → UInt8) (room : ℕ → Bool) : Option Cache :=
  putAll emptyCache ((helpPages text).map fun p => (p, room p.pgno))

/-! ### Operations -/

inductive CacheOp where
  | put (vtp : VtPage) (room : Bool)
  | get (pgno : ℕ) (subno : ℤ)
  | lookup (pgno : ℕ) (subno : ℤ)
  | reset
  | mode (mode arg : ℤ)

def cacheStep (ca : Cache) : CacheOp → Option (Cache × Option VtPage)
  | .put vtp room => (cachePut ca vtp room).map fun r => (r.2, r.1)
  | .get pgno subno => some ((cacheGet ca pgno subno).2, (cacheGet ca pgno subno).1)
  | .lookup pgno subno => some (ca, cacheLookup ca pgno subno)
  | .reset => some (cacheReset ca, none)
  | .mode mode arg => some ((cacheMode ca mode arg).2, none)

/-- A page with a number that the cache has room for. -/
structure VtPage.Stored (p : VtPage) : Prop where
  pgno_ge : 0x100 ≤ p.pgno
  pgno_le : p.pgno ≤ 0x9ff
  subno_ge : 0 ≤ p.subno
  subno_le : p.subno ≤ 0x3f7f

def CacheOp.Allowed : CacheOp → Prop
  | .put vtp _ => vtp.Stored ∧ vtp.pgno ≤ 0x8ff
  | _ => True

/-! ### What operations do -/

def Cache.Has (ca : Cache) (p : VtPage) : Prop := ∃ h, p ∈ ca.hash h

def Cache.HasKey (ca : Cache) (key : ℕ × ℤ) : Prop := ∃ p, ca.Has p ∧ p.key = key

/-- Everything that an operation does: nothing, a page to the front of its list (and perhaps new contents for it), a new
page, or all but the help pages taken out. -/
inductive CacheEffect (ca : Cache) : CacheOp → Cache → Option VtPage → Prop
  | kept (op : CacheOp) {ca' : Cache} (r : Option VtPage) (other : op ≠ .reset)
    (quiet : r = none ∨ ∃ pgno subno, op = .lookup pgno subno) (refused : ∀ vtp room, op = .put vtp room → room = false)
    (hash : ca'.hash = ca.hash) (npages : ca'.npages = ca.npages)
    (hiSubno : ca'.hiSubno = ca.hiSubno) : CacheEffect ca op ca' r
  | front (op : CacheOp) {ca' : Cache} {h : Fin hashSize} {pre suf : List VtPage} (old page : VtPage)
    (list : ca.hash h = pre ++ old :: suf) (hash : ca'.hash = Function.update ca.hash h (page :: (pre ++ suf)))
    (key : page.key = old.key) (npages : ca'.npages = ca.npages) (hiSubno : ca'.hiSubno = ca.hiSubno)
    (touch : (∃ vtp room, op = .put vtp room ∧ page.key = vtp.key) ∨ (∃ pgno subno, op = .get pgno subno) ∧ page = old) :
    CacheEffect ca op ca' (some page)
  | inserted (vtp : VtPage) (i : Fin 0xa00) (index : i.val = vtp.pgno) (new : ¬ca.HasKey vtp.key) :
    CacheEffect ca (.put vtp true) (ca.insert vtp i) (some vtp)
  | reset : CacheEffect ca .reset (cacheReset ca) none

/-- What the lists, the counter and the array have to do with each other. -/
structure CacheInv (ca : Cache) : Prop where
  bucket : ∀ h, ∀ p ∈ ca.hash h, hashPgno p.pgno = h
  keys : ∀ h, ((ca.hash h).map VtPage.key).Nodup
  count : ca.npages = ∑ h, ((ca.hash h).length : ℤ)
  stored : ∀ p, ca.Has p → p.Stored
  highest : ∀ i : Fin 0xa00, (∀ subno, ¬ca.HasKey (i.val, subno)) ∧ ca.hiSubno i = 0 ∨
    ∃ subno, ca.HasKey (i.val, subno) ∧ ((ca.hiSubno i).toNat : ℤ) = subno + 1 ∧
      ∀ subno', ca.HasKey (i.val, subno') → subno' ≤ subno

section Effects

variable {ca ca' : Cache}

variable {p vtp : VtPage} {i : Fin 0xa00}

theorem wanted_iff {pgno : ℕ} {subno : ℤ} :
    wanted pgno subno p = true ↔ p.pgno = pgno ∧ (subno = anySub ∨ p.subno = subno) := by
  simp [wanted]

theorem sameKey_iff : sameKey vtp p = true ↔ p.key = vtp.key := by
  simp [sameKey]

theorem doErc_key (old vtp : VtPage) : (doErc old vtp).key = vtp.key := by
  unfold doErc
  split <;> rfl

theorem CacheInv.has_bucket (h : CacheInv ca) (hp : ca.Has p) : p ∈ ca.hash (hashPgno p.pgno) := by
  obtain ⟨i, hi⟩ := hp
  rw [h.bucket i p hi]
  exact hi

theorem find_eraseP {l : List VtPage} (h : l.find? test = some p) :
    ∃ pre suf, l = pre ++ p :: suf ∧ l.eraseP test = pre ++ suf := by
  obtain ⟨htest, pre, suf, rfl, hpre⟩ := List.find?_eq_some_iff_append.mp h
  refine ⟨pre, suf, rfl, ?_⟩
  rw [List.eraseP_append_right _ fun q hq => by simpa using hpre q hq, List.eraseP_cons_of_pos htest]

theorem CacheInv.put (h : CacheInv ca) (hstored : vtp.Stored) (room : Bool) :
    ∃ r ca', cachePut ca vtp room = some (r, ca') ∧ CacheEffect ca (.put vtp room) ca' r := by
  unfold cachePut
  cases hfind : (ca.hash (hashPgno vtp.pgno)).find? (sameKey vtp) with
  | some old =>
    obtain ⟨pre, suf, hlist, herase⟩ := find_eraseP hfind
    have hold : old.key = vtp.key := sameKey_iff.mp (List.find?_some hfind)
    refine ⟨_, _, rfl, .front _ old _ hlist (by rw [Cache.toFront, herase]) ?_ rfl rfl (Or.inl ⟨vtp, room, rfl, ?_⟩)⟩
    · rw [hold]
      split
      · exact doErc_key old vtp
      · rfl
    · split
      · exact doErc_key old vtp
      · rfl
  | none =>
    cases room with
    | false =>
      refine ⟨_, _, rfl, .kept _ _ CacheOp.noConfusion (Or.inl rfl) (fun vtp' room hop => ?_) rfl rfl rfl⟩
      injection hop with _ hroom
      exact hroom.symm
    | true =>
      have hi : vtp.pgno < 0xa00 := Nat.lt_succ_of_le hstored.pgno_le
      refine ⟨some vtp, ca.insert vtp ⟨vtp.pgno, hi⟩, by simp [hi], .inserted vtp _ rfl ?_⟩
      rintro ⟨p, hp, hkey⟩
      have hmem := h.has_bucket hp
      have hpgno : p.pgno = vtp.pgno := congrArg Prod.fst hkey
      rw [hpgno] at hmem
      exact List.find?_eq_none.mp hfind p hmem (sameKey_iff.mpr hkey)

/-- **One operation.** -/
theorem CacheInv.step (h : CacheInv ca) {op : CacheOp} (hop : op.Allowed) :
    ∃ ca' r, cacheStep ca op = some (ca', r) ∧ CacheEffect ca op ca' r := by
  cases op with
  | put vtp room =>
    obtain ⟨r, ca', hput, heffect⟩ := h.put hop.1 room
    exact ⟨ca', r, by rw [cacheStep, hput, Option.map_some], heffect⟩
  | get pgno subno =>
    refine ⟨_, _, rfl, ?_⟩
    unfold cacheGet
    cases hfind : (ca.hash (hashPgno pgno)).find? (wanted pgno subno) with
    | some page =>
      obtain ⟨pre, suf, hlist, herase⟩ := find_eraseP hfind
      exact .front _ page page hlist (by simp only [Cache.toFront, herase]) rfl rfl rfl (Or.inr ⟨⟨pgno, subno, rfl⟩, rfl⟩)
    | none => exact .kept _ _ CacheOp.noConfusion (Or.inl rfl) (fun _ _ => CacheOp.noConfusion) rfl rfl rfl
  | lookup pgno subno =>
    exact ⟨_, _, rfl, .kept _ _ CacheOp.noConfusion (Or.inr ⟨pgno, subno, rfl⟩) (fun _ _ => CacheOp.noConfusion) rfl rfl rfl⟩
  | reset => exact ⟨_, _, rfl, .reset⟩
  | mode mode arg =>
    refine ⟨_, _, rfl, ?_⟩
    unfold cacheMode
    split
    · exact .kept _ _ CacheOp.noConfusion (Or.inl rfl) (fun _ _ => CacheOp.noConfusion) rfl rfl rfl
    · exact .kept _ _ CacheOp.noConfusion (Or.inl rfl) (fun _ _ => CacheOp.noConfusion) rfl rfl rfl

/-! ### Which pages there are -/

theorem has_front {h : Fin hashSize} (hlist : ca.hash h = pre ++ old :: suf)
    (hhash : ca'.hash = Function.update ca.hash h (page :: (pre ++ suf))) :
    ca'.Has p ↔ p = page ∨ ∃ i, p ∈ ca.hash i ∧ (i = h → p ∈ pre ++ suf) := by
  unfold Cache.Has
  rw [hhash]
  constructor
  · rintro ⟨i, hi⟩
    rw [Function.update_apply] at hi
    split at hi
    next heq =>
      rcases List.mem_cons.mp hi with rfl | hi
      · exact Or.inl rfl
      · refine Or.inr ⟨i, ?_, fun _ => hi⟩
        rw [heq, hlist]
        rcases List.mem_append.mp hi with hi | hi
        · exact List.mem_append_left _ hi
        · exact List.mem_append_right _ (List.mem_cons_of_mem _ hi)
    next hne => exact Or.inr ⟨i, hi, fun heq => absurd heq hne⟩
  · rintro (rfl | ⟨i, hi, hin⟩)
    · exact ⟨h, by rw [Function.update_self]; exact List.mem_cons_self⟩
    · refine ⟨i, ?_⟩
      rw [Function.update_apply]
      split
      next heq => exact List.mem_cons_of_mem _ (hin heq)
      · exact hi

theorem has_insert : (ca.insert vtp i).Has p ↔ p = vtp ∨ ca.Has p := by
  unfold Cache.Has Cache.insert
  constructor
  · rintro ⟨j, hj⟩
    dsimp only at hj
    rw [Function.update_apply] at hj
    split at hj
    · rcases List.mem_cons.mp hj with rfl | hj
      · exact Or.inl rfl
      · exact Or.inr ⟨_, hj⟩
    · exact Or.inr ⟨j, hj⟩
  · rintro (rfl | ⟨j, hj⟩)
    · exact ⟨hashPgno p.pgno, by simp⟩
    · refine ⟨j, ?_⟩
      dsimp only
      rw [Function.update_apply]
      split
      next heq => exact List.mem_cons_of_mem _ (heq ▸ hj)
      · exact hj

theorem has_reset : (cacheReset ca).Has p ↔ ca.Has p ∧ p.isHelp = true := by
  simp only [Cache.Has, cacheReset, List.mem_filter, exists_and_right]

theorem hasKey_congr (hhash : ca'.hash = ca.hash) (key : ℕ × ℤ) : ca'.HasKey key ↔ ca.HasKey key := by
  unfold Cache.HasKey Cache.Has
  rw [hhash]

theorem hasKey_front {h : Fin hashSize} (hlist : ca.hash h = pre ++ old :: suf)
    (hhash : ca'.hash = Function.update ca.hash h (page :: (pre ++ suf))) (hkey : page.key = old.key) (key : ℕ × ℤ) :
    ca'.HasKey key ↔ ca.HasKey key := by
  unfold Cache.HasKey
  simp only [has_front hlist hhash]
  constructor
  · rintro ⟨p, rfl | ⟨i, hi, -⟩, rfl⟩
    · exact ⟨old, ⟨h, hlist ▸ by simp⟩, hkey.symm⟩
    · exact ⟨p, ⟨i, hi⟩, rfl⟩
  · rintro ⟨p, ⟨i, hi⟩, rfl⟩
    by_cases hp : p = old
    · exact ⟨page, Or.inl rfl, by rw [hkey, hp]⟩
    · refine ⟨p, Or.inr ⟨i, hi, fun heq => ?_⟩, rfl⟩
      rw [heq, hlist] at hi
      simpa [hp] using hi

theorem hasKey_insert (key : ℕ × ℤ) : (ca.insert vtp i).HasKey key ↔ key = vtp.key ∨ ca.HasKey key := by
  unfold Cache.HasKey
  simp only [has_insert]
  constructor
  · rintro ⟨p, rfl | hp, rfl⟩
    · exact Or.inl rfl
    · exact Or.inr ⟨p, hp, rfl⟩
  · rintro (rfl | ⟨p, hp, rfl⟩)
    · exact ⟨vtp, Or.inl rfl, rfl⟩
    · exact ⟨p, Or.inr hp, rfl⟩

theorem hasKey_reset (key : ℕ × ℤ) : (cacheReset ca).HasKey key ↔ ca.HasKey key ∧ key.1 / 256 = 9 := by
  unfold Cache.HasKey
  simp only [has_reset, VtPage.isHelp, decide_eq_true_eq]
  constructor
  · rintro ⟨p, ⟨hp, hhelp⟩, rfl⟩
    exact ⟨⟨p, hp, rfl⟩, hhelp⟩
  · rintro ⟨⟨p, hp, rfl⟩, hhelp⟩
    exact ⟨p, ⟨hp, hhelp⟩, rfl⟩

/-! ### The invariant -/

theorem CacheInv.congr (h : CacheInv ca) (hhash : ca'.hash = ca.hash) (hnpages : ca'.npages = ca.npages)
    (hhi : ca'.hiSubno = ca.hiSubno) : CacheInv ca' := by
  refine ⟨?_, ?_, ?_, ?_, ?_⟩
  · rw [hhash]
    exact h.bucket
  · rw [hhash]
    exact h.keys
  · rw [hnpages, hhash]
    exact h.count
  · unfold Cache.Has
    rw [hhash]
    exact h.stored
  · simp only [hasKey_congr hhash, hhi]
    exact h.highest

theorem CacheInv.front (h : CacheInv ca) {b : Fin hashSize} {pre suf : List VtPage} {old page : VtPage}
    (hlist : ca.hash b = pre ++ old :: suf) (hhash : ca'.hash = Function.update ca.hash b (page :: (pre ++ suf)))
    (hkey : page.key = old.key) (hnpages : ca'.npages = ca.npages) (hhi : ca'.hiSubno = ca.hiSubno) : CacheInv ca' := by
  have hold : old ∈ ca.hash b := hlist ▸ by simp
  have hpgno : page.pgno = old.pgno := congrArg Prod.fst hkey
  have hsubno : page.subno = old.subno := congrArg Prod.snd hkey
  have hrest : ∀ p ∈ pre ++ suf, p ∈ ca.hash b := fun p hp => by
    rw [hlist]
    rcases List.mem_append.mp hp with hp | hp
    · exact List.mem_append_left _ hp
    · exact List.mem_append_right _ (List.mem_cons_of_mem _ hp)
  refine ⟨fun i p hp => ?_, fun i => ?_, ?_, fun p hp => ?_, ?_⟩
  · rw [hhash, Function.update_apply] at hp
    split at hp
    next heq =>
      rcases List.mem_cons.mp hp with rfl | hp
      · rw [hpgno, heq]
        exact h.bucket b old hold
      · rw [heq]
        exact h.bucket b p (hrest p hp)
    · exact h.bucket i p hp
  · rw [hhash, Function.update_apply]
    split
    · have hnodup := h.keys b
      rw [hlist] at hnodup
      have hperm : ((pre ++ old :: suf).map VtPage.key).Perm ((page :: (pre ++ suf)).map VtPage.key) := by
        rw [List.map_cons, hkey, ← List.map_cons]
        exact List.perm_middle.map _
      exact hperm.nodup_iff.mp hnodup
    · exact h.keys i
  · rw [hnpages, h.count]
    refine Finset.sum_congr rfl fun i _ => ?_
    rw [hhash, Function.update_apply]
    split
    next heq =>
      rw [heq, hlist]
      simp only [List.length_append, List.length_cons]
      push_cast
      ring
    · rfl
  · rcases (has_front hlist hhash).mp hp with rfl | ⟨i, hi, -⟩
    · have hstored := h.stored old ⟨b, hold⟩
      exact ⟨hpgno ▸ hstored.pgno_ge, hpgno ▸ hstored.pgno_le, hsubno ▸ hstored.subno_ge, hsubno ▸ hstored.subno_le⟩
    · exact h.stored p ⟨i, hi⟩
  · simp only [hasKey_front hlist hhash hkey, hhi]
    exact h.highest

theorem CacheInv.highest_insert (h : CacheInv ca) (hvtp : vtp.Stored) (hi : i.val = vtp.pgno) (j : Fin 0xa00) :
    (∀ subno, ¬(ca.insert vtp i).HasKey (j.val, subno)) ∧ (ca.insert vtp i).hiSubno j = 0 ∨
      ∃ subno, (ca.insert vtp i).HasKey (j.val, subno) ∧ (((ca.insert vtp i).hiSubno j).toNat : ℤ) = subno + 1 ∧
        ∀ subno', (ca.insert vtp i).HasKey (j.val, subno') → subno' ≤ subno := by
  simp only [hasKey_insert, VtPage.key, Prod.mk.injEq]
  by_cases hj : j = i
  · subst hj
    refine Or.inr ?_
    have hword : ((BitVec.ofInt 16 (vtp.subno + 1)).toNat : ℤ) = vtp.subno + 1 := by
      have hge := hvtp.subno_ge
      have hle := hvtp.subno_le
      rw [BitVec.toNat_ofInt]
      omega
    rcases h.highest j with ⟨hnone, hzero⟩ | ⟨subno, hsubno, hhi, hmax⟩
    · refine ⟨vtp.subno, Or.inl ⟨hi, rfl⟩, ?_, fun subno' hsubno' => ?_⟩
      · have hge := hvtp.subno_ge
        simp only [Cache.insert, hzero]
        rw [if_pos (by simpa using hge), Function.update_self, hword]
      · rcases hsubno' with ⟨-, rfl⟩ | hsubno'
        · exact le_refl _
        · exact absurd hsubno' (hnone subno')
    · by_cases hnew : vtp.subno ≥ ((ca.hiSubno j).toNat : ℤ)
      · refine ⟨vtp.subno, Or.inl ⟨hi, rfl⟩, ?_, fun subno' hsubno' => ?_⟩
        · simp only [Cache.insert]
          rw [if_pos hnew, Function.update_self, hword]
        · rcases hsubno' with ⟨-, rfl⟩ | hsubno'
          · exact le_refl _
          · have hle := hmax subno' hsubno'
            omega
      · refine ⟨subno, Or.inr hsubno, ?_, fun subno' hsubno' => ?_⟩
        · simp only [Cache.insert]
          rw [if_neg hnew, hhi]
        · rcases hsubno' with ⟨-, rfl⟩ | hsubno'
          · omega
          · exact hmax subno' hsubno'
  · have hne : j.val ≠ vtp.pgno := fun hno => hj (Fin.ext (hno.trans hi.symm))
    have hsame : (ca.insert vtp i).hiSubno j = ca.hiSubno j := by
      simp only [Cache.insert]
      split
      · rw [Function.update_of_ne hj]
      · rfl
    simp only [hne, false_and, false_or, hsame]
    exact h.highest j

theorem CacheInv.insert (h : CacheInv ca) (hvtp : vtp.Stored) (hi : i.val = vtp.pgno) (hnew : ¬ca.HasKey vtp.key) :
    CacheInv (ca.insert vtp i) := by
  refine ⟨fun b p hp => ?_, fun b => ?_, ?_, fun p hp => ?_, h.highest_insert hvtp hi⟩
  · simp only [Cache.insert, Function.update_apply] at hp
    split at hp
    next heq =>
      rcases List.mem_cons.mp hp with rfl | hp
      · exact heq.symm
      · rw [heq]
        exact h.bucket _ p hp
    · exact h.bucket b p hp
  · simp only [Cache.insert, Function.update_apply]
    split
    · rw [List.map_cons]
      refine List.nodup_cons.mpr ⟨fun hno => ?_, h.keys _⟩
      obtain ⟨p, hp, hkey⟩ := List.mem_map.mp hno
      exact hnew ⟨p, ⟨_, hp⟩, hkey⟩
    · exact h.keys b
  · have hsum : ∀ b, (((ca.insert vtp i).hash b).length : ℤ)
        = ((ca.hash b).length : ℤ) + if b = hashPgno vtp.pgno then 1 else 0 := fun b => by
      simp only [Cache.insert, Function.update_apply]
      split
      next heq =>
        rw [heq, List.length_cons]
        push_cast
        ring
      · ring
    simp only [hsum]
    rw [Finset.sum_add_distrib, Finset.sum_ite_eq' Finset.univ, if_pos (Finset.mem_univ _), ← h.count]
    rfl
  · rcases has_insert.mp hp with rfl | hp
    · exact hvtp
    · exact h.stored p hp

theorem CacheInv.reset (h : CacheInv ca) : CacheInv (cacheReset ca) := by
  refine ⟨fun b p hp => h.bucket b p (List.mem_of_mem_filter hp), fun b => ?_, ?_, fun p hp => ?_, fun i => ?_⟩
  · exact (h.keys b).sublist ((List.filter_sublist).map _)
  · have hsplit : ∀ b, ((ca.hash b).length : ℤ)
        = ((ca.hash b).filter VtPage.isHelp).length + ((ca.hash b).filter fun p => !p.isHelp).length := fun b => by
      exact_mod_cast List.length_eq_length_filter_add VtPage.isHelp
    have hcount := h.count
    simp only [hsplit, Finset.sum_add_distrib] at hcount
    simp only [cacheReset]
    omega
  · exact h.stored p (has_reset.mp hp).1
  · simp only [hasKey_reset]
    by_cases hi : i.val < 0x900
    · refine Or.inl ⟨fun subno hno => ?_, by simp [cacheReset, hi]⟩
      have hhelp : i.val / 256 = 9 := hno.2
      omega
    · have hhelp : i.val / 256 = 9 := by
        have hlt := i.isLt
        omega
      have hsame : (cacheReset ca).hiSubno i = ca.hiSubno i := by simp [cacheReset, hi]
      simp only [hhelp, and_true, hsame]
      exact h.highest i

theorem CacheInv.effect (h : CacheInv ca) {op : CacheOp} {r : Option VtPage}
    (hop : ∀ vtp room, op = .put vtp room → vtp.Stored) (heffect : CacheEffect ca op ca' r) : CacheInv ca' := by
  cases heffect with
  | kept _ _ _ _ _ hhash hnpages hhi => exact h.congr hhash hnpages hhi
  | front _ _ _ hlist hhash hkey hnpages hhi _ => exact h.front hlist hhash hkey hnpages hhi
  | inserted vtp i hindex hnew => exact h.insert (hop vtp true rfl) hindex hnew
  | reset => exact h.reset

end Effects

/-! ### What was put and got -/

/-- What the recency of pages is about: a page that was put or got, and the times when all were forgotten. -/
inductive Touch where
  | put (key : ℕ × ℤ)
  | got (key : ℕ × ℤ)
  | reset
  deriving DecidableEq

def PutSince (key : ℕ × ℤ) : List Touch → Prop
  | [] => False
  | .put key' :: log => key' = key ∨ PutSince key log
  | .got _ :: log => PutSince key log
  | .reset :: _ => False

instance decidablePutSince (key : ℕ × ℤ) : ∀ log, Decidable (PutSince key log)
  | [] => inferInstanceAs (Decidable False)
  | .put key' :: log => @instDecidableOr (key' = key) (PutSince key log) _ (decidablePutSince key log)
  | .got _ :: log => decidablePutSince key log
  | .reset :: _ => inferInstanceAs (Decidable False)

def HelpKey (room : ℕ → Bool) (key : ℕ × ℤ) : Prop := key ∈ helpKeys ∧ room key.1 = true

instance (room : ℕ → Bool) (key : ℕ × ℤ) : Decidable (HelpKey room key) := inferInstanceAs (Decidable (_ ∧ _))

def lastTouched (room : ℕ → Bool) (pgno : ℕ) : List Touch → Option ℤ
  | [] => (helpKeys.find? fun key => key.1 = pgno ∧ room pgno = true).map Prod.snd
  | .put key :: log | .got key :: log => if key.1 = pgno then some key.2 else lastTouched room pgno log
  | .reset :: log => if pgno / 256 = 9 then lastTouched room pgno log else none

/-- What an operation puts and gets: a page is put if there is memory for it or it was put before, and one that was put or
is a help page is got. -/
def touched (room : ℕ → Bool) (log : List Touch) : CacheOp → List Touch
  | .put vtp more => if more = true ∨ PutSince vtp.key log then [.put vtp.key] else []
  | .get pgno subno =>
    if subno = anySub then (lastTouched room pgno log).toList.map fun last => .got (pgno, last)
    else if PutSince (pgno, subno) log ∨ HelpKey room (pgno, subno) then [.got (pgno, subno)]
    else []
  | .reset => [.reset]
  | .lookup _ _ | .mode _ _ => []

/-- The caches that a program comes to, with what was put and got since `cache_open`, newest first. -/
inductive CacheRun (text : ℕ → Fin 25 → Fin 40 → UInt8) (room : ℕ → Bool) : Cache → List Touch → Prop
  | opened {ca : Cache} (h : cacheOpen text room = some ca) : CacheRun text room ca []
  | op {ca ca' : Cache} {log : List Touch} {op : CacheOp} {r : Option VtPage} (h : CacheRun text room ca log)
    (allowed : op.Allowed) (hop : cacheStep ca op = some (ca', r)) : CacheRun text room ca' (touched room log op ++ log)

/-- What the lists say about the history. -/
structure Remembers (room : ℕ → Bool) (ca : Cache) (log : List Touch) : Prop where
  puts : ∀ key, PutSince key log → key.1 ≤ 0x8ff
  there : ∀ key, ca.HasKey key ↔ PutSince key log ∨ HelpKey room key
  newest : ∀ pgno, ((ca.hash (hashPgno pgno)).find? fun p => p.pgno = pgno).map VtPage.subno = lastTouched room pgno log

section History

variable {ca ca' : Cache} {room : ℕ → Bool} {log : List Touch}

theorem helpKeys_page : ∀ key ∈ helpKeys, key.1 / 256 = 9 := by decide

theorem find_front {l : List VtPage} {pgno : ℕ} (hlist : l = pre ++ old :: suf) (hkey : page.key = old.key)
    (hne : old.pgno ≠ pgno) :
    (page :: (pre ++ suf)).find? (fun p => p.pgno = pgno) = l.find? fun p => p.pgno = pgno := by
  have hpage : page.pgno ≠ pgno := fun hno => hne ((congrArg Prod.fst hkey).symm.trans hno)
  rw [hlist, List.find?_cons_of_neg (by simpa using hpage), List.find?_append, List.find?_append,
    List.find?_cons_of_neg (by simpa using hne)]

theorem newest_touch {h : Fin hashSize} (hhash : ca'.hash = Function.update ca.hash h (page :: rest))
    (hbucket : hashPgno page.pgno = h)
    (hrest : ∀ pgno, page.pgno ≠ pgno → (page :: rest).find? (fun p => p.pgno = pgno)
      = (ca.hash h).find? fun p => p.pgno = pgno) (pgno : ℕ) :
    ((ca'.hash (hashPgno pgno)).find? fun p => p.pgno = pgno).map VtPage.subno
      = if page.pgno = pgno then some page.subno
        else ((ca.hash (hashPgno pgno)).find? fun p => p.pgno = pgno).map VtPage.subno := by
  rw [hhash, Function.update_apply]
  by_cases hpgno : page.pgno = pgno
  · rw [if_pos hpgno, if_pos (by rw [← hpgno, hbucket]), List.find?_cons_of_pos (by simpa using hpgno), Option.map_some]
  · rw [if_neg hpgno]
    split
    next heq => rw [hrest pgno hpgno, heq]
    · rfl

theorem find_filter_help {l : List VtPage} {pgno : ℕ} :
    (l.filter VtPage.isHelp).find? (fun p => p.pgno = pgno)
      = if pgno / 256 = 9 then l.find? (fun p => p.pgno = pgno) else none := by
  induction l with
  | nil => simp
  | cons p l ih =>
    by_cases hp : p.pgno = pgno
    · by_cases hhelp : pgno / 256 = 9
      · simp [VtPage.isHelp, hp, hhelp]
      · rw [List.filter_cons_of_neg (by simpa [VtPage.isHelp, hp] using hhelp), ih, if_neg hhelp, if_neg hhelp]
    · rw [List.find?_cons_of_neg (by simpa using hp), ← ih, List.filter_cons]
      split
      · rw [List.find?_cons_of_neg (by simpa using hp)]
      · rfl

def touches : CacheOp → Option VtPage → List Touch
  | .put _ _, some page => [.put page.key]
  | .get _ _, some page => [.got page.key]
  | .reset, _ => [.reset]
  | _, _ => []

theorem touches_quiet {op : CacheOp} {r : Option VtPage} (hother : op ≠ .reset)
    (hquiet : r = none ∨ ∃ pgno subno, op = .lookup pgno subno) : touches op r = [] := by
  cases op with
  | reset => exact absurd rfl hother
  | put vtp room =>
    rcases hquiet with rfl | ⟨pgno, subno, hop⟩
    · rfl
    · exact CacheOp.noConfusion hop
  | get pgno subno =>
    rcases hquiet with rfl | ⟨pgno, subno, hop⟩
    · rfl
    · exact CacheOp.noConfusion hop
  | lookup pgno subno => cases r <;> rfl
  | mode mode arg => cases r <;> rfl

/-- One operation keeps what the lists say about the history. -/
theorem Remembers.effect (h : Remembers room ca log) (hinv : CacheInv ca) {op : CacheOp} (hop : op.Allowed)
    {r : Option VtPage} (heffect : CacheEffect ca op ca' r) : Remembers room ca' (touches op r ++ log) := by
  cases heffect with
  | kept _ _ hother hquiet _ hhash _ _ =>
    rw [touches_quiet hother hquiet, List.nil_append]
    refine ⟨h.puts, fun key => (hasKey_congr hhash key).trans (h.there key), ?_⟩
    rw [hhash]
    exact h.newest
  | @front _ _ b pre suf old page hlist hhash hkey _ _ htouch =>
    have hold : ca.HasKey page.key := ⟨old, ⟨b, hlist ▸ by simp⟩, hkey.symm⟩
    have hpgno : page.pgno = old.pgno := congrArg Prod.fst hkey
    have hbucket : hashPgno page.pgno = b := by
      rw [hpgno]
      exact hinv.bucket b old (hlist ▸ by simp)
    have hnewest := newest_touch hhash hbucket fun pgno hne => find_front hlist hkey fun hno => hne (hpgno.trans hno)
    rcases htouch with ⟨vtp, room', rfl, hvtp⟩ | ⟨⟨pgno, subno, rfl⟩, -⟩
    · refine ⟨fun key hput => ?_, fun key => ?_, fun pgno => ?_⟩
      · rcases hput with rfl | hput
        · rw [hvtp]
          exact hop.2
        · exact h.puts key hput
      · rw [hasKey_front hlist hhash hkey]
        constructor
        · intro hhas
          exact ((h.there key).mp hhas).imp_left Or.inr
        · rintro ((rfl | hput) | hhelp)
          · exact hold
          · exact (h.there key).mpr (Or.inl hput)
          · exact (h.there key).mpr (Or.inr hhelp)
      · rw [hnewest, h.newest pgno]
        rfl
    · refine ⟨h.puts, fun key => ?_, fun pgno => ?_⟩
      · rw [hasKey_front hlist hhash hkey]
        exact h.there key
      · rw [hnewest, h.newest pgno]
        rfl
  | inserted vtp i hindex hnew =>
    refine ⟨fun key hput => ?_, fun key => ?_, fun pgno => ?_⟩
    · rcases hput with rfl | hput
      · exact hop.2
      · exact h.puts key hput
    · rw [hasKey_insert, h.there key]
      constructor
      · rintro (rfl | hput | hhelp)
        · exact Or.inl (Or.inl rfl)
        · exact Or.inl (Or.inr hput)
        · exact Or.inr hhelp
      · rintro ((rfl | hput) | hhelp)
        · exact Or.inl rfl
        · exact Or.inr (Or.inl hput)
        · exact Or.inr (Or.inr hhelp)
    · have hhash : (ca.insert vtp i).hash
          = Function.update ca.hash (hashPgno vtp.pgno) (vtp :: ca.hash (hashPgno vtp.pgno)) := rfl
      rw [newest_touch hhash rfl fun pgno hne => List.find?_cons_of_neg (by simpa using hne), h.newest pgno]
      rfl
  | reset =>
    refine ⟨fun key hput => absurd hput id, fun key => ?_, fun pgno => ?_⟩
    · rw [hasKey_reset, h.there key]
      constructor
      · rintro ⟨hput | hhelp, hpage⟩
        · have hle := h.puts key hput
          omega
        · exact Or.inr hhelp
      · rintro (hput | hhelp)
        · exact absurd hput id
        · exact ⟨Or.inr hhelp, helpKeys_page key hhelp.1⟩
    · have hlist : (cacheReset ca).hash (hashPgno pgno) = (ca.hash (hashPgno pgno)).filter VtPage.isHelp := rfl
      rw [hlist, find_filter_help]
      show _ = if pgno / 256 = 9 then lastTouched room pgno log else none
      rw [← h.newest pgno]
      split <;> rfl

end History

/-! ### `cache_open` -/

section Open

variable {ca : Cache} {text : ℕ → Fin 25 → Fin 40 → UInt8} {room : ℕ → Bool}

theorem CacheInv.empty : CacheInv emptyCache where
  bucket h p hp := absurd hp List.not_mem_nil
  keys h := List.nodup_nil
  count := by simp [emptyCache]
  stored p hp := absurd hp.choose_spec List.not_mem_nil
  highest i := Or.inl ⟨fun subno hno => absurd hno.choose_spec.1.choose_spec List.not_mem_nil, rfl⟩

theorem CacheInv.put_hasKey (h : CacheInv ca) {vtp : VtPage} (hstored : vtp.Stored) (room : Bool) :
    ∃ r ca', cachePut ca vtp room = some (r, ca') ∧ CacheInv ca' ∧
      ∀ key, ca'.HasKey key ↔ ca.HasKey key ∨ room = true ∧ vtp.key = key := by
  obtain ⟨r, ca', hput, heffect⟩ := h.put hstored room
  have hinv : CacheInv ca' := h.effect (fun vtp' room' hop => by injection hop with hvtp _; exact hvtp ▸ hstored) heffect
  refine ⟨r, ca', hput, hinv, fun key => ?_⟩
  generalize hop : CacheOp.put vtp room = op at heffect
  cases heffect with
  | kept _ _ _ _ hrefused hhash _ _ =>
    rw [hasKey_congr hhash, hrefused vtp room hop.symm]
    simp
  | @front _ _ b pre suf old page hlist hhash hkey _ _ htouch =>
    rw [hasKey_front hlist hhash hkey]
    refine ⟨Or.inl, fun hthere => hthere.elim id ?_⟩
    rintro ⟨-, rfl⟩
    rcases htouch with ⟨vtp', room', hop', hvtp⟩ | ⟨⟨pgno, subno, hop'⟩, -⟩
    · rw [← hop] at hop'
      injection hop' with heq _
      exact ⟨old, ⟨b, hlist ▸ by simp⟩, by rw [← hkey, hvtp, heq]⟩
    · rw [← hop] at hop'
      exact CacheOp.noConfusion hop'
  | inserted vtp' i hindex hnew =>
    injection hop with hvtp hroom
    subst hvtp hroom
    rw [hasKey_insert]
    constructor
    · rintro (rfl | hthere)
      · exact Or.inr ⟨rfl, rfl⟩
      · exact Or.inl hthere
    · rintro (hthere | ⟨-, rfl⟩)
      · exact Or.inr hthere
      · exact Or.inl rfl
  | reset => exact CacheOp.noConfusion hop

theorem CacheInv.putAll (h : CacheInv ca) {l : List (VtPage × Bool)} (hl : ∀ p ∈ l, p.1.Stored) :
    ∃ ca', putAll ca l = some ca' ∧ CacheInv ca' ∧
      ∀ key, ca'.HasKey key ↔ ca.HasKey key ∨ ∃ p ∈ l, p.2 = true ∧ p.1.key = key := by
  induction l generalizing ca with
  | nil => exact ⟨ca, rfl, h, fun key => by simp⟩
  | cons p l ih =>
    obtain ⟨vtp, room⟩ := p
    obtain ⟨r, ca₁, hput, hinv, hkeys⟩ := h.put_hasKey (hl _ List.mem_cons_self) room
    obtain ⟨ca', hrest, hinv', hkeys'⟩ := ih hinv fun p hp => hl p (List.mem_cons_of_mem _ hp)
    refine ⟨ca', by rw [Alevt.putAll, hput, Option.bind_some, hrest], hinv', fun key => ?_⟩
    rw [hkeys', hkeys, List.exists_mem_cons_iff, or_assoc]

theorem helpPages_stored : ∀ p ∈ helpPages text, p.Stored := by
  intro p hp
  obtain ⟨key, hkey, rfl⟩ := List.mem_map.mp hp
  have hall : ∀ key ∈ helpKeys, 0x100 ≤ key.1 ∧ key.1 ≤ 0x9ff ∧ 0 ≤ key.2 ∧ key.2 ≤ 0x3f7f := by decide
  obtain ⟨hge, hle, hsubge, hsuble⟩ := hall key hkey
  exact ⟨hge, hle, hsubge, hsuble⟩

theorem helpKeys_pgno : ∀ key ∈ helpKeys, ∀ key' ∈ helpKeys, key.1 = key'.1 → key = key' := by decide

/-- An open cache holds the help pages that there was memory for. -/
theorem cacheOpen_inv (text : ℕ → Fin 25 → Fin 40 → UInt8) (room : ℕ → Bool) :
    ∃ ca, cacheOpen text room = some ca ∧ CacheInv ca ∧ Remembers room ca [] := by
  have hstored : ∀ p ∈ (helpPages text).map fun p => (p, room p.pgno), p.1.Stored := fun p hp => by
    obtain ⟨q, hq, rfl⟩ := List.mem_map.mp hp
    exact helpPages_stored q hq
  obtain ⟨ca, hopen, hinv, hkeys⟩ := CacheInv.empty.putAll hstored
  have hthere : ∀ key, ca.HasKey key ↔ HelpKey room key := fun key => by
    rw [hkeys]
    constructor
    · rintro (hno | ⟨p, hp, hroom, rfl⟩)
      · exact absurd hno.choose_spec.1.choose_spec List.not_mem_nil
      · obtain ⟨q, hq, rfl⟩ := List.mem_map.mp hp
        obtain ⟨key, hkey, rfl⟩ := List.mem_map.mp hq
        exact ⟨hkey, hroom⟩
    · rintro ⟨hkey, hroom⟩
      exact Or.inr ⟨_, List.mem_map_of_mem (List.mem_map_of_mem hkey), hroom, rfl⟩
  refine ⟨ca, hopen, hinv, fun key hno => absurd hno id, fun key => ?_, fun pgno => ?_⟩
  · rw [hthere]
    exact ⟨Or.inr, fun h => h.elim (fun hno => absurd hno id) id⟩
  · show _ = (helpKeys.find? fun key => key.1 = pgno ∧ room pgno = true).map Prod.snd
    cases hfind : (ca.hash (hashPgno pgno)).find? fun p => p.pgno = pgno with
    | some p =>
      have hpgno : p.pgno = pgno := by simpa using List.find?_some hfind
      obtain ⟨hkey, hroom⟩ := (hthere p.key).mp ⟨p, ⟨_, List.mem_of_find?_eq_some hfind⟩, rfl⟩
      have hroom' : room pgno = true := hpgno ▸ hroom
      cases hhelp : helpKeys.find? fun key => key.1 = pgno ∧ room pgno = true with
      | some key =>
        have hmatch : key.1 = pgno ∧ room pgno = true := by simpa using List.find?_some hhelp
        have hsame := helpKeys_pgno p.key hkey key (List.mem_of_find?_eq_some hhelp) (hpgno.trans hmatch.1.symm)
        rw [← hsame]
        rfl
      | none => exact absurd (List.find?_eq_none.mp hhelp p.key hkey) (by simp [VtPage.key, hpgno, hroom'])
    | none =>
      cases hhelp : helpKeys.find? fun key => key.1 = pgno ∧ room pgno = true with
      | some key =>
        have hmatch : key.1 = pgno ∧ room pgno = true := by simpa using List.find?_some hhelp
        obtain ⟨p, hp, hkey⟩ :=
          (hthere key).mpr ⟨List.mem_of_find?_eq_some hhelp, by rw [hmatch.1]; exact hmatch.2⟩
        have hpgno : p.pgno = pgno := (congrArg Prod.fst hkey).trans hmatch.1
        have hmem := hinv.has_bucket hp
        rw [hpgno] at hmem
        exact absurd (List.find?_eq_none.mp hfind p hmem) (by simp [hpgno])
      | none => rfl

end Open

/-! ### Runs -/

section Run

variable {text : ℕ → Fin 25 → Fin 40 → UInt8} {room : ℕ → Bool} {ca : Cache} {log : List Touch}

def Cache.entries (ca : Cache) : List VtPage := (List.finRange hashSize).flatMap ca.hash

theorem mem_entries {p : VtPage} : p ∈ ca.entries ↔ ca.Has p := by
  simp [Cache.entries, Cache.Has]

theorem CacheInv.entries_nodup (h : CacheInv ca) : (ca.entries.map VtPage.key).Nodup := by
  rw [Cache.entries, List.map_flatMap, List.nodup_flatMap]
  refine ⟨fun i _ => h.keys i, (List.nodup_finRange _).imp fun {i j} hne => ?_⟩
  rintro key hi hj
  obtain ⟨p, hp, rfl⟩ := List.mem_map.mp hi
  obtain ⟨q, hq, hkey⟩ := List.mem_map.mp hj
  have hpgno : q.pgno = p.pgno := congrArg Prod.fst hkey
  exact hne ((h.bucket i p hp).symm.trans (hpgno ▸ h.bucket j q hq))

theorem CacheInv.entries_length (h : CacheInv ca) : ca.npages = ca.entries.length := by
  rw [h.count, Cache.entries, List.length_flatMap, Fin.sum_univ_def]
  push_cast
  rw [List.map_map]
  rfl

theorem get_eq (pgno : ℕ) (subno : ℤ) :
    (cacheGet ca pgno subno).1 = (ca.hash (hashPgno pgno)).find? (wanted pgno subno) := by
  unfold cacheGet
  cases (ca.hash (hashPgno pgno)).find? (wanted pgno subno) <;> rfl

theorem CacheInv.get_isSome (h : CacheInv ca) {pgno : ℕ} {subno : ℤ} (hsub : subno ≠ anySub) :
    (cacheGet ca pgno subno).1.isSome = true ↔ ca.HasKey (pgno, subno) := by
  rw [get_eq, List.find?_isSome]
  constructor
  · rintro ⟨p, hp, hwanted⟩
    obtain ⟨hpgno, hany | hsubno⟩ := wanted_iff.mp hwanted
    · exact absurd hany hsub
    · exact ⟨p, ⟨_, hp⟩, Prod.ext hpgno hsubno⟩
  · rintro ⟨p, hp, hkey⟩
    have hpgno : p.pgno = pgno := congrArg Prod.fst hkey
    have hsubno : p.subno = subno := congrArg Prod.snd hkey
    exact ⟨p, hpgno ▸ h.has_bucket hp, wanted_iff.mpr ⟨hpgno, Or.inr hsubno⟩⟩

theorem get_anySub (pgno : ℕ) : (cacheGet ca pgno anySub).1 = (ca.hash (hashPgno pgno)).find? fun p => p.pgno = pgno := by
  have htest : wanted pgno anySub = fun p => decide (p.pgno = pgno) := by
    funext p
    simp [wanted]
  rw [get_eq, htest]

/-- A put has a result exactly if there is memory for the page or the page is there, and it is the page that was put. -/
theorem CacheInv.put_result (h : CacheInv ca) {vtp : VtPage} {more : Bool} {ca' : Cache} {r : Option VtPage}
    (hput : cachePut ca vtp more = some (r, ca')) :
    (more = true ∨ ca.HasKey vtp.key) ∧ r.map VtPage.key = some vtp.key ∨
      ¬(more = true ∨ ca.HasKey vtp.key) ∧ r = none := by
  unfold cachePut at hput
  cases hfind : (ca.hash (hashPgno vtp.pgno)).find? (sameKey vtp) with
  | some old =>
    have hthere : ca.HasKey vtp.key :=
      ⟨old, ⟨_, List.mem_of_find?_eq_some hfind⟩, sameKey_iff.mp (List.find?_some hfind)⟩
    rw [hfind] at hput
    obtain ⟨rfl, -⟩ := Prod.mk.inj (Option.some.inj hput)
    refine Or.inl ⟨Or.inr hthere, ?_⟩
    rw [Option.map_some]
    split
    · rw [doErc_key]
    · rfl
  | none =>
    have hnew : ¬ca.HasKey vtp.key := by
      rintro ⟨p, hp, hkey⟩
      have hpgno : p.pgno = vtp.pgno := congrArg Prod.fst hkey
      have hmem := h.has_bucket hp
      rw [hpgno] at hmem
      exact List.find?_eq_none.mp hfind p hmem (sameKey_iff.mpr hkey)
    rw [hfind] at hput
    dsimp only at hput
    split_ifs at hput with hmore hlt
    · obtain ⟨rfl, -⟩ := Prod.mk.inj (Option.some.inj hput)
      exact Or.inr ⟨by simp [hmore, hnew], rfl⟩
    · obtain ⟨rfl, -⟩ := Prod.mk.inj (Option.some.inj hput)
      exact Or.inl ⟨Or.inl (Bool.not_eq_false _ ▸ hmore), rfl⟩

theorem Remembers.get_key (h : Remembers room ca log) (hinv : CacheInv ca) (pgno : ℕ) (subno : ℤ) :
    ((cacheGet ca pgno subno).1.map VtPage.key) =
      if subno = anySub then (lastTouched room pgno log).map fun last => (pgno, last)
      else if PutSince (pgno, subno) log ∨ HelpKey room (pgno, subno) then some (pgno, subno) else none := by
  by_cases hany : subno = anySub
  · rw [if_pos hany, hany, ← h.newest pgno, get_anySub, Option.map_map]
    cases hfind : (ca.hash (hashPgno pgno)).find? fun p => p.pgno = pgno with
    | none => rfl
    | some p =>
      have hpgno : p.pgno = pgno := by simpa using List.find?_some hfind
      show some (p.pgno, p.subno) = some (pgno, p.subno)
      rw [hpgno]
  · rw [if_neg hany]
    have hthere := (hinv.get_isSome hany).trans (h.there (pgno, subno))
    cases hget : (cacheGet ca pgno subno).1 with
    | none =>
      rw [hget] at hthere
      rw [if_neg fun hput => Bool.false_ne_true (hthere.mpr hput)]
      rfl
    | some p =>
      rw [hget] at hthere
      rw [if_pos (hthere.mp rfl)]
      rw [get_eq] at hget
      obtain ⟨hpgno, hno | hsubno⟩ := wanted_iff.mp (List.find?_some hget)
      · exact absurd hno hany
      · exact congrArg some (Prod.ext hpgno hsubno)

/-- The result of an operation shows what the history says of it. -/
theorem Remembers.touched_eq (h : Remembers room ca log) (hinv : CacheInv ca) {op : CacheOp} (hop : op.Allowed)
    {ca' : Cache} {r : Option VtPage} (hstep : cacheStep ca op = some (ca', r)) :
    touched room log op = touches op r := by
  cases op with
  | put vtp more =>
    obtain ⟨x, hput, hx⟩ := Option.map_eq_some_iff.mp hstep
    obtain ⟨rfl, rfl⟩ := Prod.mk.inj hx
    have hthere : ca.HasKey vtp.key ↔ PutSince vtp.key log := by
      rw [h.there, or_iff_left]
      rintro ⟨hhelp, -⟩
      have hpage : vtp.pgno / 256 = 9 := helpKeys_page vtp.key hhelp
      have hle := hop.2
      omega
    rcases hinv.put_result hput with ⟨hput', hkey⟩ | ⟨hput', hnone⟩
    · rw [hthere] at hput'
      obtain ⟨page, hr, hpage⟩ := Option.map_eq_some_iff.mp hkey
      rw [touched, if_pos hput', hr, touches, hpage]
    · rw [hthere] at hput'
      rw [touched, if_neg hput', hnone]
      rfl
  | get pgno subno =>
    obtain ⟨-, rfl⟩ := Prod.mk.inj (Option.some.inj hstep)
    have hkey := h.get_key hinv pgno subno
    have htouches : touches (.get pgno subno) (cacheGet ca pgno subno).1 =
        ((cacheGet ca pgno subno).1.map VtPage.key).toList.map .got := by
      cases (cacheGet ca pgno subno).1 <;> rfl
    rw [htouches, hkey, touched]
    split
    · cases lastTouched room pgno log <;> rfl
    · split <;> rfl
  | lookup pgno subno =>
    obtain ⟨-, rfl⟩ := Prod.mk.inj (Option.some.inj hstep)
    cases cacheLookup ca pgno subno <;> rfl
  | reset => rfl
  | mode mode arg =>
    obtain ⟨-, rfl⟩ := Prod.mk.inj (Option.some.inj hstep)
    rfl

theorem CacheRun.inv (h : CacheRun text room ca log) : CacheInv ca ∧ Remembers room ca log := by
  induction h with
  | opened hopen =>
    obtain ⟨ca', hopen', hinv, hremembers⟩ := cacheOpen_inv text room
    obtain rfl := Option.some.inj (hopen.symm.trans hopen')
    exact ⟨hinv, hremembers⟩
  | @op ca ca' log op r h allowed hop ih =>
    obtain ⟨hinv, hremembers⟩ := ih
    obtain ⟨ca₁, r₁, hstep, heffect⟩ := hinv.step allowed
    obtain ⟨rfl, rfl⟩ := Prod.mk.inj (Option.some.inj (hop.symm.trans hstep))
    rw [hremembers.touched_eq hinv allowed hstep]
    refine ⟨hinv.effect (fun vtp room hput => ?_) heffect, hremembers.effect hinv allowed heffect⟩
    subst hput
    exact allowed.1

theorem CacheRun.next (h : CacheRun text room ca log) {op : CacheOp} (allowed : op.Allowed) :
    ∃ ca' r, cacheStep ca op = some (ca', r) ∧ CacheRun text room ca' (touched room log op ++ log) := by
  obtain ⟨ca', r, hstep, -⟩ := h.inv.1.step allowed
  exact ⟨ca', r, hstep, h.op allowed hstep⟩

theorem CacheEffect.has {ca' : Cache} {op : CacheOp} {r : Option VtPage} (heffect : CacheEffect ca op ca' r) {p : VtPage}
    (hother : ∀ vtp room, op = .put vtp room → p.key ≠ vtp.key) :
    ca'.Has p ↔ ca.Has p ∧ (op = .reset → p.isHelp = true) := by
  cases heffect with
  | kept _ _ hreset _ _ hhash _ _ =>
    have hsame : ca'.Has p ↔ ca.Has p := by
      unfold Cache.Has
      rw [hhash]
    rw [hsame]
    exact ⟨fun hp => ⟨hp, fun hno => absurd hno hreset⟩, And.left⟩
  | @front _ _ b pre suf old page hlist hhash hkey _ _ htouch =>
    have hreset : op ≠ .reset := by
      rintro rfl
      rcases htouch with ⟨vtp, room, hno, -⟩ | ⟨⟨pgno, subno, hno⟩, -⟩ <;> exact CacheOp.noConfusion hno
    rw [has_front hlist hhash]
    constructor
    · rintro (rfl | ⟨i, hi, -⟩)
      · rcases htouch with ⟨vtp, room, hop, hvtp⟩ | ⟨-, rfl⟩
        · exact absurd hvtp (hother vtp room hop)
        · exact ⟨⟨b, hlist ▸ by simp⟩, fun hno => absurd hno hreset⟩
      · exact ⟨⟨i, hi⟩, fun hno => absurd hno hreset⟩
    · rintro ⟨⟨i, hi⟩, -⟩
      by_cases hp : p = old
      · rcases htouch with ⟨vtp, room, hop, hvtp⟩ | ⟨-, rfl⟩
        · exact absurd (hp ▸ hkey.symm.trans hvtp) (hother vtp room hop)
        · exact Or.inl hp
      · refine Or.inr ⟨i, hi, fun heq => ?_⟩
        rw [heq, hlist] at hi
        simpa [hp] using hi
  | inserted vtp i hindex hnew =>
    rw [has_insert]
    constructor
    · rintro (rfl | hp)
      · exact absurd rfl (hother p true rfl)
      · exact ⟨hp, fun hno => CacheOp.noConfusion hno⟩
    · rintro ⟨hp, -⟩
      exact Or.inr hp
  | reset =>
    rw [has_reset]
    exact ⟨fun hp => ⟨hp.1, fun _ => hp.2⟩, fun hp => ⟨hp.1, hp.2 rfl⟩⟩

end Run

/-- **PROVED**: after every run of operations, lists, counter and array agree with the pages, which have different
numbers; a page is found exactly when it was put since the last reset or is a help page, and the wildcard gives the
subpage put or got last; the next operation leaves pages with other numbers alone. -/
theorem cache_run {text : ℕ → Fin 25 → Fin 40 → UInt8} {room : ℕ → Bool} {ca : Cache} {log : List Touch}
    (h : CacheRun text room ca log) :
    (ca.entries.map VtPage.key).Nodup ∧ (∀ i, ∀ p ∈ ca.hash i, hashPgno p.pgno = i) ∧ ca.npages = ca.entries.length ∧
    (∀ i : Fin 0xa00, (∀ p ∈ ca.entries, p.pgno ≠ i) ∧ ca.hiSubno i = 0 ∨
      ∃ p ∈ ca.entries, p.pgno = i ∧ ((ca.hiSubno i).toNat : ℤ) = p.subno + 1 ∧
        ∀ q ∈ ca.entries, q.pgno = i → q.subno ≤ p.subno) ∧
    (∀ pgno subno, subno ≠ anySub →
      ((cacheGet ca pgno subno).1.isSome = true ↔ PutSince (pgno, subno) log ∨ HelpKey room (pgno, subno)) ∧
      ∀ p, (cacheGet ca pgno subno).1 = some p → p ∈ ca.entries ∧ p.key = (pgno, subno)) ∧
    (∀ pgno, (cacheGet ca pgno anySub).1.map VtPage.subno = lastTouched room pgno log) ∧
    ∀ op : CacheOp, op.Allowed → ∃ ca' r, cacheStep ca op = some (ca', r) ∧
      ∀ p, (∀ vtp room, op = .put vtp room → p.key ≠ vtp.key) →
        (p ∈ ca'.entries ↔ p ∈ ca.entries ∧ (op = .reset → p.isHelp = true)) := by
  obtain ⟨hinv, hremembers⟩ := h.inv
  refine ⟨hinv.entries_nodup, hinv.bucket, hinv.entries_length, fun i => ?_, fun pgno subno hsub => ?_, fun pgno => ?_,
    fun op hop => ?_⟩
  · rcases hinv.highest i with ⟨hnone, hzero⟩ | ⟨subno, ⟨p, hp, hkey⟩, hhi, hmax⟩
    · exact Or.inl ⟨fun p hp hno => hnone p.subno ⟨p, mem_entries.mp hp, Prod.ext hno rfl⟩, hzero⟩
    · have hsubno : p.subno = subno := congrArg Prod.snd hkey
      refine Or.inr ⟨p, mem_entries.mpr hp, congrArg Prod.fst hkey, hsubno ▸ hhi, fun q hq hpgno => ?_⟩
      rw [hsubno]
      exact hmax q.subno ⟨q, mem_entries.mp hq, Prod.ext hpgno rfl⟩
  · refine ⟨(hinv.get_isSome hsub).trans (hremembers.there _), fun p hp => ?_⟩
    rw [get_eq] at hp
    obtain ⟨hpgno, hany | hsubno⟩ := wanted_iff.mp (List.find?_some hp)
    · exact absurd hany hsub
    · exact ⟨mem_entries.mpr ⟨_, List.mem_of_find?_eq_some hp⟩, Prod.ext hpgno hsubno⟩
  · rw [get_anySub]
    exact hremembers.newest pgno
  · obtain ⟨ca', r, hstep, heffect⟩ := hinv.step hop
    refine ⟨ca', r, hstep, fun p hother => ?_⟩
    rw [mem_entries, mem_entries]
    exact heffect.has hother

def blankPage (subno : ℤ) : VtPage := ⟨0x100, subno, 0, 0, 0, 0, fun _ _ => 0x20, 0, []⟩

/-- Two subpages of page 100 are put, the first is got, and the cache is reset. -/
theorem cache_run_reset : ∃ ca ca', CacheRun (fun _ _ _ => 0) (fun _ => true) ca
      [.got (0x100, 1), .put (0x100, 2), .put (0x100, 1)] ∧
    (cacheGet ca 0x100 anySub).1.map VtPage.subno = some 1 ∧ (cacheGet ca 0x100 2).1.isSome = true ∧
    cacheStep ca .reset = some (ca', none) ∧ (ca'.entries.map VtPage.key).Nodup ∧
    (cacheGet ca' 0x100 2).1.isSome = false ∧ (cacheGet ca' 0x905 anySub).1.map VtPage.subno = some 2 := by
  obtain ⟨ca₀, hopen, -⟩ := cacheOpen_inv (fun _ _ _ => 0) fun _ => true
  have hfirst : CacheOp.Allowed (.put (blankPage 1) true) := ⟨⟨by decide, by decide, by decide, by decide⟩, by decide⟩
  have hsecond : CacheOp.Allowed (.put (blankPage 2) true) := ⟨⟨by decide, by decide, by decide, by decide⟩, by decide⟩
  have hgot : CacheOp.Allowed (.get 0x100 1) := trivial
  have hquiet : CacheOp.Allowed .reset := trivial
  obtain ⟨ca₁, -, -, hrun₁⟩ := (CacheRun.opened hopen).next hfirst
  obtain ⟨ca₂, -, -, hrun₂⟩ := hrun₁.next hsecond
  obtain ⟨ca, -, -, hrun⟩ := hrun₂.next hgot
  obtain ⟨-, -, -, -, hget, hnewest, -⟩ := cache_run hrun
  have hreset := hrun.op hquiet rfl
  obtain ⟨hnodup', -, -, -, hget', hnewest', -⟩ := cache_run hreset
  refine ⟨ca, cacheReset ca, hrun, (hnewest 0x100).trans (by decide), ((hget 0x100 2 (by decide)).1).mpr (by decide), rfl,
    hnodup', ?_, (hnewest' 0x905).trans (by decide)⟩
  exact Bool.eq_false_iff.mpr fun h => absurd (((hget' 0x100 2 (by decide)).1).mp h) (by decide)

end BgtDvb.Alevt
