import Mathlib

/-!
# Integers in text

The integer conversion `%i` of the formatted output and input functions of C, over bytes of ASCII.

* `printInt` — the decimal digits of a number, with a sign in front of a negative one;
* `scanInt` — white space, a sign, and digits whose base is read off their front: `0x` sixteen, `0`
  eight, else ten; the first byte that is no digit ends the number;
* `scanInt_printInt`, `decimal_printInt` — **PROVED**: a printed number is read back.

Nothing here names a particular format or program.
-/

namespace BgtDvb.ScanInt

/-! ### Printing -/

def digitChar (d : ℕ) : UInt8 := UInt8.ofNat (48 + d)

def printNat (n : ℕ) : List UInt8 :=
  if n = 0 then [48] else (Nat.digits 10 n).reverse.map digitChar

def printInt : ℤ → List UInt8
  | .ofNat n => printNat n
  | .negSucc n => 45 :: printNat (n + 1)

/-! ### Scanning -/

/-- White space of the C locale. -/
def isSpace (c : UInt8) : Bool := c = 32 ∨ (9 ≤ c ∧ c ≤ 13)

/-- The value of a digit, letters included. -/
def digitVal (c : UInt8) : Option ℕ :=
  if 48 ≤ c ∧ c ≤ 57 then some (c.toNat - 48)
  else if 97 ≤ c ∧ c ≤ 102 then some (c.toNat - 87)
  else if 65 ≤ c ∧ c ≤ 70 then some (c.toNat - 55)
  else none

/-- The longest string of digits of a base; `none` if there is not one digit. -/
def scanDigits (base : ℕ) : Option ℕ → List UInt8 → Option ℕ
  | acc, [] => acc
  | acc, c :: text =>
    match digitVal c with
    | some d => if d < base then scanDigits base (some (acc.getD 0 * base + d)) text else acc
    | none => acc

/-- Digits whose base is read off their front. -/
def scanNat : List UInt8 → Option ℕ
  | 48 :: 120 :: text => scanDigits 16 none text
  | 48 :: 88 :: text => scanDigits 16 none text
  | 48 :: text => scanDigits 8 (some 0) text
  | text => scanDigits 10 none text

def scanSigned : List UInt8 → Option ℤ
  | 45 :: text => (scanNat text).map fun n => -(n : ℤ)
  | 43 :: text => (scanNat text).map fun n => (n : ℤ)
  | text => (scanNat text).map fun n => (n : ℤ)

def scanInt (text : List UInt8) : Option ℤ := scanSigned (text.dropWhile isSpace)

/-- A sign and decimal digits. -/
def decimalSigned : List UInt8 → Option ℤ
  | 45 :: text => (scanDigits 10 none text).map fun n => -(n : ℤ)
  | 43 :: text => (scanDigits 10 none text).map fun n => (n : ℤ)
  | text => (scanDigits 10 none text).map fun n => (n : ℤ)

/-- The number of `strtol` in base ten. -/
def decimal (text : List UInt8) : Option ℤ := decimalSigned (text.dropWhile isSpace)

/-! ### What is printed is read back -/

theorem digitChar_toNat {d : ℕ} (h : d < 10) : (digitChar d).toNat = 48 + d := by
  rw [digitChar, UInt8.toNat_ofNat']
  omega

theorem digitVal_digitChar {d : ℕ} (h : d < 10) : digitVal (digitChar d) = some d := by
  have hval := digitChar_toNat h
  have hrange : 48 ≤ digitChar d ∧ digitChar d ≤ 57 := by
    simp only [UInt8.le_iff_toNat_le, hval, UInt8.reduceToNat]
    omega
  rw [digitVal, if_pos hrange, hval, Nat.add_sub_cancel_left]

theorem scanDigits_map (ds : List ℕ) (hds : ∀ d ∈ ds, d < 10) (acc : ℕ) :
    scanDigits 10 (some acc) (ds.map digitChar) = some (ds.foldl (fun v d => v * 10 + d) acc) := by
  induction ds generalizing acc with
  | nil => rfl
  | cons d ds ih =>
    have hd := hds d List.mem_cons_self
    rw [List.map_cons, scanDigits, digitVal_digitChar hd]
    show (if d < 10 then _ else _) = _
    rw [if_pos hd, Option.getD_some, ih fun e he => hds e (List.mem_cons_of_mem d he), List.foldl_cons]

theorem scanDigits_map_of_ne_nil {ds : List ℕ} (hds : ∀ d ∈ ds, d < 10) (hne : ds ≠ []) :
    scanDigits 10 none (ds.map digitChar) = some (ds.foldl (fun v d => v * 10 + d) 0) := by
  cases ds with
  | nil => exact absurd rfl hne
  | cons d ds =>
    have hd := hds d List.mem_cons_self
    rw [List.map_cons, scanDigits, digitVal_digitChar hd]
    show (if d < 10 then _ else _) = _
    rw [if_pos hd, Option.getD_none, scanDigits_map ds fun e he => hds e (List.mem_cons_of_mem d he),
      List.foldl_cons]

theorem foldl_reverse_digits (n : ℕ) :
    (Nat.digits 10 n).reverse.foldl (fun v d => v * 10 + d) 0 = n := by
  rw [List.foldl_reverse]
  have hfold : ∀ ds : List ℕ, ds.foldr (fun d v => v * 10 + d) 0 = Nat.ofDigits 10 ds := by
    intro ds
    induction ds with
    | nil => rfl
    | cons d ds ih =>
      rw [List.foldr_cons, ih, Nat.ofDigits_cons]
      ring
  rw [hfold, Nat.ofDigits_digits]

theorem mem_printNat {n : ℕ} {c : UInt8} (h : c ∈ printNat n) : 48 ≤ c ∧ c ≤ 57 := by
  unfold printNat at h
  split at h
  · rw [List.mem_singleton] at h
    subst h
    decide
  · obtain ⟨d, hd, rfl⟩ := List.mem_map.mp h
    have hlt : d < 10 := Nat.digits_lt_base (by decide) (List.mem_reverse.mp hd)
    simp only [UInt8.le_iff_toNat_le, digitChar_toNat hlt, UInt8.reduceToNat]
    omega

theorem mem_printInt {v : ℤ} {c : UInt8} (h : c ∈ printInt v) : c = 45 ∨ (48 ≤ c ∧ c ≤ 57) := by
  cases v with
  | ofNat n => exact .inr (mem_printNat h)
  | negSucc n => exact (List.mem_cons.mp h).imp id mem_printNat

theorem reverse_digits {n : ℕ} (hn : ¬n = 0) :
    (∀ d ∈ (Nat.digits 10 n).reverse, d < 10) ∧ (Nat.digits 10 n).reverse ≠ [] :=
  ⟨fun d hd => Nat.digits_lt_base (by decide) (List.mem_reverse.mp hd), by
    simpa using Nat.digits_ne_nil_iff_ne_zero.mpr hn⟩

theorem scanDigits_printNat (n : ℕ) : scanDigits 10 none (printNat n) = some n := by
  unfold printNat
  split
  · subst n
    rfl
  next hn =>
    obtain ⟨hlt, hne⟩ := reverse_digits hn
    rw [scanDigits_map_of_ne_nil hlt hne, foldl_reverse_digits]

/-- A number other than 0 starts with a digit other than 0, so its base is ten. -/
theorem scanNat_printNat (n : ℕ) : scanNat (printNat n) = some n := by
  unfold printNat
  split
  · subst n
    rfl
  next hn =>
    obtain ⟨hlt, hne⟩ := reverse_digits hn
    have hscan := scanDigits_map_of_ne_nil hlt hne
    rw [foldl_reverse_digits] at hscan
    cases hds : (Nat.digits 10 n).reverse with
    | nil => exact absurd hds hne
    | cons d ds =>
      have hd : d < 10 := hlt d (hds ▸ List.mem_cons_self)
      have hlast : (Nat.digits 10 n).getLast? = some d := by
        rw [← List.head?_reverse, hds, List.head?_cons]
      have hzero : d ≠ 0 := by
        intro h
        rw [List.getLast?_eq_some_getLast (Nat.digits_ne_nil_iff_ne_zero.mpr hn)] at hlast
        exact Nat.getLast_digit_ne_zero 10 hn (Option.some.inj (hlast.trans (congrArg some h)))
      have hchar : digitChar d ≠ 48 := by
        intro h
        have hval := digitChar_toNat hd
        rw [h] at hval
        exact hzero (by simpa using hval.symm)
      rw [hds, List.map_cons] at hscan
      rw [List.map_cons, scanNat]
      · exact hscan
      all_goals
        intro text' h
        exact hchar (List.cons.inj h).1

theorem not_isSpace_of_printInt {c : UInt8} (h : c = 45 ∨ (48 ≤ c ∧ c ≤ 57)) : isSpace c = false := by
  simp only [isSpace, UInt8.le_iff_toNat_le, ← UInt8.toNat_inj] at h ⊢
  simp at h ⊢
  omega

theorem dropWhile_printInt (v : ℤ) : (printInt v).dropWhile isSpace = printInt v := by
  cases hv : printInt v with
  | nil => rfl
  | cons c text =>
    have hc : isSpace c = false :=
      not_isSpace_of_printInt (mem_printInt (v := v) (hv ▸ List.mem_cons_self))
    rw [List.dropWhile_cons, if_neg (by simp [hc])]

/-- **A printed number is read back**, with the base that its digits tell. -/
theorem scanInt_printInt (v : ℤ) : scanInt (printInt v) = some v := by
  rw [scanInt, dropWhile_printInt]
  cases v with
  | ofNat n =>
    have hscan := scanNat_printNat n
    rw [printInt]
    cases hp : printNat n with
    | nil =>
      rw [hp] at hscan
      exact absurd hscan (by simp [scanNat, scanDigits])
    | cons c text =>
      have hc : 48 ≤ c ∧ c ≤ 57 := mem_printNat (n := n) (hp ▸ List.mem_cons_self)
      rw [scanSigned, ← hp, hscan]
      · rfl
      all_goals
        intro text' h
        rw [(List.cons.inj h).1] at hc
        exact absurd hc (by decide)
  | negSucc n =>
    rw [printInt, scanSigned, scanNat_printNat]
    rfl

/-- **A printed number is read back** in base ten. -/
theorem decimal_printInt (v : ℤ) : decimal (printInt v) = some v := by
  rw [decimal, dropWhile_printInt]
  cases v with
  | ofNat n =>
    have hscan := scanDigits_printNat n
    rw [printInt]
    cases hp : printNat n with
    | nil =>
      rw [hp] at hscan
      exact absurd hscan (by simp [scanDigits])
    | cons c text =>
      have hc : 48 ≤ c ∧ c ≤ 57 := mem_printNat (n := n) (hp ▸ List.mem_cons_self)
      rw [decimalSigned, ← hp, hscan]
      · rfl
      all_goals
        intro text' h
        rw [(List.cons.inj h).1] at hc
        exact absurd hc (by decide)
  | negSucc n =>
    rw [printInt, decimalSigned, scanDigits_printNat]
    rfl

end BgtDvb.ScanInt
