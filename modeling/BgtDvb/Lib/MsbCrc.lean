import Mathlib

/-!
# Cyclic redundancy checks, most significant bit first

The division register of a CRC whose message bits enter at the top, over a word of any width `w`
and any generator `g` (without its leading term):

* `bitStep` / `bitRun` — one message bit, and a string of them;
* `topBits n x` — the first `n` bits of a word, in the order they are sent;
* `shifts_xor` — **PROVED**: the register is linear;
* `bitRun_topBits` — **PROVED**: message bits may be added to the register beforehand;
* `bitRun_self` — **PROVED**: a register fed its own bits runs empty (the residue of a message
  followed by its CRC);
* `shifts_split` — **PROVED**: `n` places of a register are a shift and the places of its `n` top
  bits, which is what a table of `2 ^ n` words stores;
* `bitRun_block` — **PROVED**: one block of message bits by the table.

Nothing here names a particular polynomial or width.
-/

namespace BgtDvb.MsbCrc

variable {w : ℕ}

/-! ### The register -/

/-- One message bit: the bit that leaves the register, plus the message bit, decides the
subtraction of the generator. -/
def bitStep (g c : BitVec w) (b : Bool) : BitVec w :=
  if (c.msb ^^ b) = true then (c <<< 1) ^^^ g else c <<< 1

def bitRun (g c : BitVec w) (bits : List Bool) : BitVec w := bits.foldl (bitStep g) c

/-- The register moved `n` places with no message. -/
def shifts (g : BitVec w) : ℕ → BitVec w → BitVec w
  | 0, c => c
  | n + 1, c => shifts g n (bitStep g c false)

/-- The first `n` bits of a word, most significant first. -/
def topBits (n : ℕ) (x : BitVec w) : List Bool := (List.range n).map x.getMsbD

variable (g : BitVec w)

theorem bitRun_append (c : BitVec w) (xs ys : List Bool) :
    bitRun g c (xs ++ ys) = bitRun g (bitRun g c xs) ys := List.foldl_append

theorem topBits_succ (n : ℕ) (x : BitVec w) :
    topBits (n + 1) x = x.msb :: topBits n (x <<< 1) := by
  simp only [topBits, List.range_succ_eq_map, List.map_cons, List.map_map]
  congr 1
  apply List.map_congr_left
  intro i _
  simp only [Function.comp_apply, BitVec.getMsbD_shiftLeft]

theorem topBits_add (m n : ℕ) (x : BitVec w) :
    topBits (m + n) x = topBits m x ++ topBits n (x <<< m) := by
  induction m generalizing x with
  | zero =>
    rw [Nat.zero_add, BitVec.shiftLeft_zero]
    rfl
  | succ m ih =>
    rw [Nat.succ_add, topBits_succ, topBits_succ, ih, ← BitVec.shiftLeft_add, Nat.add_comm 1 m]
    rfl

/-! ### Linearity -/

theorem bitStep_xor (a b : BitVec w) (p q : Bool) : bitStep g (a ^^^ b) (p ^^ q) = bitStep g a p ^^^ bitStep g b q := by
  have hxor : ∀ x y : BitVec w, x ^^^ g ^^^ (y ^^^ g) = x ^^^ y := by
    intro x y
    rw [BitVec.xor_assoc, BitVec.xor_comm y g, ← BitVec.xor_assoc g, BitVec.xor_self,
      BitVec.zero_xor]
  unfold bitStep
  rw [BitVec.msb_xor, BitVec.shiftLeft_xor_distrib]
  cases a.msb <;> cases b.msb <;> cases p <;> cases q <;> simp [hxor] <;> ac_rfl

theorem bitStep_zero : bitStep g 0#w false = 0#w := by
  simp [bitStep]

/-- **The register is linear.** -/
theorem shifts_xor (n : ℕ) (a b : BitVec w) : shifts g n (a ^^^ b) = shifts g n a ^^^ shifts g n b := by
  induction n generalizing a b with
  | zero => rfl
  | succ n ih =>
    rw [shifts, shifts, shifts, ← ih, ← bitStep_xor]
    rfl

theorem shifts_zero (n : ℕ) : shifts g n 0#w = 0#w := by
  induction n with
  | zero => rfl
  | succ n ih => rw [shifts, bitStep_zero, ih]

/-! ### Message bits and the register -/

theorem bitStep_msb (c y : BitVec w) : bitStep g c y.msb ^^^ (y <<< 1) = bitStep g (c ^^^ y) false := by
  unfold bitStep
  rw [BitVec.msb_xor, BitVec.shiftLeft_xor_distrib, Bool.xor_false]
  split
  · rw [BitVec.xor_assoc, BitVec.xor_assoc, BitVec.xor_comm g]
  · rfl

/-- **Message bits may be added beforehand**, provided the word holds no others. -/
theorem bitRun_topBits (n : ℕ) (c y : BitVec w) (hy : y <<< n = 0#w) :
    bitRun g c (topBits n y) = shifts g n (c ^^^ y) := by
  induction n generalizing c y with
  | zero =>
    rw [BitVec.shiftLeft_zero] at hy
    subst hy
    rw [shifts, BitVec.xor_zero]
    rfl
  | succ n ih =>
    rw [topBits_succ, shifts, ← bitStep_msb]
    refine ih (bitStep g c y.msb) (y <<< 1) ?_
    rw [← BitVec.shiftLeft_add, Nat.add_comm, hy]

/-- **The residue.**  A register fed its own bits runs empty. -/
theorem bitRun_self (c : BitVec w) : bitRun g c (topBits w c) = 0#w := by
  rw [bitRun_topBits g w c c (BitVec.shiftLeft_eq_zero (Nat.le_refl w)), BitVec.xor_self,
    shifts_zero]

/-! ### Blocks and tables -/

theorem shifts_of_clear (n : ℕ) (c : BitVec w) (hc : ∀ i < n, c.getMsbD i = false) : shifts g n c = c <<< n := by
  induction n generalizing c with
  | zero => rw [shifts, BitVec.shiftLeft_zero]
  | succ n ih =>
    have hmsb : c.msb = false := hc 0 (Nat.succ_pos n)
    have hstep : bitStep g c false = c <<< 1 := by simp [bitStep, hmsb]
    rw [shifts, hstep, ih (c <<< 1), ← BitVec.shiftLeft_add, Nat.add_comm]
    intro i hi
    rw [BitVec.getMsbD_shiftLeft]
    exact hc (i + 1) (by omega)

/-- The word that holds the `n` top bits of `x` and nothing else. -/
theorem topPart_getMsbD {n : ℕ} (hn : n ≤ w) (x : BitVec w) (i : ℕ) :
    ((x >>> (w - n)) <<< (w - n)).getMsbD i = (decide (i < n) && x.getMsbD i) := by
  rw [BitVec.getMsbD_shiftLeft, BitVec.getMsbD_ushiftRight]
  by_cases hi : i < n
  · simp only [hi, decide_true, Bool.true_and]
    rw [Nat.add_sub_cancel]
    simp only [show ¬ i + (w - n) < w - n by omega, show i + (w - n) < w by omega,
      decide_true, decide_false, Bool.not_false, Bool.true_and]
  · simp only [hi, show ¬ i + (w - n) < w by omega, decide_false, Bool.false_and]

/-- **`n` places of a register** are a shift and the places of its `n` top bits. -/
theorem shifts_split {n : ℕ} (hn : n ≤ w) (x : BitVec w) :
    shifts g n x = (x <<< n) ^^^ shifts g n ((x >>> (w - n)) <<< (w - n)) := by
  set hi := (x >>> (w - n)) <<< (w - n) with hhi
  have hsplit : x = (x ^^^ hi) ^^^ hi := by
    rw [BitVec.xor_assoc, BitVec.xor_self, BitVec.xor_zero]
  have hclear : ∀ i < n, (x ^^^ hi).getMsbD i = false := by
    intro i hi'
    rw [BitVec.getMsbD_xor, hhi, topPart_getMsbD hn, decide_eq_true hi', Bool.true_and,
      Bool.xor_self]
  have hout : hi <<< n = 0#w := by
    rw [hhi, ← BitVec.shiftLeft_add, Nat.sub_add_cancel hn]
    exact BitVec.shiftLeft_eq_zero (Nat.le_refl w)
  calc shifts g n x = shifts g n (x ^^^ hi) ^^^ shifts g n hi := by rw [← shifts_xor, ← hsplit]
    _ = ((x ^^^ hi) <<< n) ^^^ shifts g n hi := by rw [shifts_of_clear g n _ hclear]
    _ = (x <<< n) ^^^ shifts g n hi := by
      rw [BitVec.shiftLeft_xor_distrib, hout, BitVec.xor_zero]

/-- A block of `n` bits, placed at the top of the register, is sent as it is. -/
theorem topBits_placed {n : ℕ} (hn : n ≤ w) (b : BitVec n) :
    topBits n (b.setWidth w <<< (w - n)) = topBits n b := by
  apply List.map_congr_left
  intro i hi
  rw [List.mem_range] at hi
  rw [BitVec.getMsbD_shiftLeft, BitVec.getMsbD_setWidth]
  rw [decide_eq_true (by omega), Bool.true_and, show i + (w - n) + n - w = i by omega]

/-- **One block by the table.**  `shifts g n (i <<< (w - n))` is the table's word for the block
value `i`. -/
theorem bitRun_block (c : BitVec w) {n : ℕ} (hn : n ≤ w) (b : BitVec n) :
    bitRun g c (topBits n b) =
      (c <<< n) ^^^ shifts g n (((c >>> (w - n)) ^^^ b.setWidth w) <<< (w - n)) := by
  have hout : (b.setWidth w <<< (w - n)) <<< n = 0#w := by
    rw [← BitVec.shiftLeft_add, Nat.sub_add_cancel hn]
    exact BitVec.shiftLeft_eq_zero (Nat.le_refl w)
  have htop : (((c ^^^ b.setWidth w <<< (w - n)) >>> (w - n)) <<< (w - n))
      = ((c >>> (w - n)) ^^^ b.setWidth w) <<< (w - n) := by
    rw [BitVec.ushiftRight_xor_distrib, BitVec.shiftLeft_xor_distrib, BitVec.shiftLeft_xor_distrib]
    congr 1
    apply BitVec.eq_of_getMsbD_eq
    intro i _
    rw [topPart_getMsbD hn]
    by_cases h : i < n
    · simp [h]
    · rw [BitVec.getMsbD_shiftLeft]
      simp [h, show w ≤ i + (w - n) by omega]
  rw [← topBits_placed hn b, bitRun_topBits g n c _ hout, shifts_split g hn, htop,
    BitVec.shiftLeft_xor_distrib, hout, BitVec.xor_zero]

end BgtDvb.MsbCrc
