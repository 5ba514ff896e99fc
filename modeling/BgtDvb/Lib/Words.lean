import Mathlib

/-!
# Words and the bytes they are made of

Drivers and protocol code take words apart into bytes and put them together again with shifts and
ors.  The facts that turn such an expression into ordinary arithmetic:

* `or_eq_add` — parts that do not overlap may be added;
* `toNat_shiftLeft_of_lt` — a shift that loses nothing is a multiplication;
* `beBytes` / `beNat` — a number as bytes, most significant first, and back; `beNat_beBytes` —
  **PROVED**: nothing is lost below `256 ^ n`;
* `toNat_or_shiftLeft` — four bytes put together are their number.

Nothing here names a particular machine or format.
-/

namespace BgtDvb.Words

theorem or_eq_add {a b : ℕ} (k : ℕ) (ha : 2 ^ k ∣ a) (hb : b < 2 ^ k) : a ||| b = a + b := by
  obtain ⟨q, rfl⟩ := ha
  rw [Nat.mul_comm, ← Nat.shiftLeft_eq, Nat.shiftLeft_add_eq_or_of_lt hb]

theorem shiftLeft_or_byte (high : ℕ) {low : ℕ} (hlow : low < 2 ^ 8) : (high <<< 8) ||| low = high * 256 + low := by
  rw [Nat.shiftLeft_eq]
  exact or_eq_add 8 (Dvd.intro_left high rfl) hlow

theorem toNat_shiftLeft_of_lt {w : ℕ} (x : BitVec w) (k : ℕ) (h : x.toNat * 2 ^ k < 2 ^ w) :
    (x <<< k).toNat = x.toNat * 2 ^ k := by
  rw [BitVec.toNat_shiftLeft, Nat.shiftLeft_eq, Nat.mod_eq_of_lt h]

/-- The `n` bytes of a number, most significant first. -/
def beBytes : ℕ → ℕ → List UInt8
  | 0, _ => []
  | n + 1, x => UInt8.ofNat (x / 256 ^ n) :: beBytes n x

/-- The number that bytes stand for. -/
def beNat (bytes : List UInt8) : ℕ := bytes.foldl (fun x b => x * 256 + b.toNat) 0

theorem length_beBytes (n x : ℕ) : (beBytes n x).length = n := by
  induction n with
  | zero => rfl
  | succ n ih => rw [beBytes, List.length_cons, ih]

theorem foldl_beBytes (n x y : ℕ) :
    (beBytes n x).foldl (fun x b => x * 256 + b.toNat) y = y * 256 ^ n + x % 256 ^ n := by
  induction n generalizing y with
  | zero => simp [beBytes, Nat.mod_one]
  | succ n ih =>
    rw [beBytes, List.foldl_cons, ih, UInt8.toNat_ofNat']
    have hdiv : x % 256 ^ (n + 1) = x % 256 ^ n + 256 ^ n * (x / 256 ^ n % 256) := by
      rw [pow_succ, Nat.mod_mul]
    show (y * 256 + x / 256 ^ n % 256) * 256 ^ n + x % 256 ^ n = y * 256 ^ (n + 1) + x % 256 ^ (n + 1)
    rw [hdiv, pow_succ]
    ring

/-- **Nothing is lost.** -/
theorem beNat_beBytes {n x : ℕ} (h : x < 256 ^ n) : beNat (beBytes n x) = x := by
  rw [beNat, foldl_beBytes, Nat.zero_mul, Nat.zero_add, Nat.mod_eq_of_lt h]

theorem toNat_or_shiftLeft (a b c d : UInt8) :
    ((a.toUInt32 <<< 24) ||| (b.toUInt32 <<< 16) ||| (c.toUInt32 <<< 8) ||| d.toUInt32).toNat = beNat [a, b, c, d] := by
  have ha := a.toNat_lt
  have hb := b.toNat_lt
  have hc := c.toNat_lt
  have hd := d.toNat_lt
  simp only [UInt32.toNat_or, UInt32.toNat_shiftLeft]
  show ((a.toNat <<< 24 % 2 ^ 32 ||| b.toNat <<< 16 % 2 ^ 32) ||| c.toNat <<< 8 % 2 ^ 32) ||| d.toNat
    = (((0 * 256 + a.toNat) * 256 + b.toNat) * 256 + c.toNat) * 256 + d.toNat
  simp only [Nat.shiftLeft_eq]
  rw [Nat.mod_eq_of_lt (a := a.toNat * _) (by omega), Nat.mod_eq_of_lt (a := b.toNat * _) (by omega),
    Nat.mod_eq_of_lt (a := c.toNat * _) (by omega), or_eq_add (a := _ * _) 24 (by omega) (by omega),
    or_eq_add (a := _ + _) 16 (by omega) (by omega), or_eq_add (a := _ + _) 8 (by omega) hd]
  omega

end BgtDvb.Words
