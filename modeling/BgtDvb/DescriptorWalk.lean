import BgtDvb.AtscDcctSyntax
import BgtDvb.TableCodecsSafe
import BgtDvb.TableOverruns
import BgtDvb.TransportLoop

/-!
# The pieces of the descriptor codecs

The codecs of `libucsi` for descriptors of variable layout go over a descriptor where it lies in memory, as those for
tables do over a section.

* `CountedAt` — where such a record stands; `takes_counted` — **PROVED**: it is taken exactly there;
* `forEach_bytes` — **PROVED**: an iterator over single bytes.

A position is the number of bytes from the tag of the descriptor.
-/

namespace BgtDvb.Ucsi.Descriptor

open BgtDvb.Walks
open BgtDvb.Words
open BgtDvb.Ucsi.Table

def IsDescriptor (buf : List UInt8) : Prop := buf.length = 2 + be buf 1 1

instance (buf : List UInt8) : Decidable (IsDescriptor buf) := inferInstanceAs (Decidable (_ = _))

/-- A record of `k` bytes, words among them, and a length byte behind them, with as many bytes behind that. -/
def counted (order : ByteOrder) (words : List (ℕ × ℕ)) (k stop pos : ℕ) : Walk ℕ := do
  require (pos + (k + 1) ≤ stop)
  bswapAll order pos words
  let len ← read (pos + k) 1
  require (pos + (k + 1) + beNat len ≤ stop)
  pure (pos + (k + 1) + beNat len)

def CountedAt (k : ℕ) (buf : List UInt8) (a b x : ℕ) : Prop := x = a ∧ b = a + (k + 1) + be buf (a + k) 1

variable {order : ByteOrder} {words : List (ℕ × ℕ)} {k n stop : ℕ}

variable {buf : List UInt8} {a b pos : ℕ}

theorem CountedAt.lt {x : ℕ} (h : CountedAt k buf a b x) : a + k < b := by
  have hend := h.2
  omega

theorem CountedAt.ahead {buf' : List UInt8} {x : ℕ} (hdrop : buf.drop a = buf'.drop a) (h : CountedAt k buf a b x) :
    CountedAt k buf' a b x := by
  have hlen := be_eq_of_drop hdrop (Nat.le_add_right a k) (k := 1)
  exact ⟨h.1, hlen ▸ h.2⟩

theorem shift_keeps (order : ByteOrder) (hwords : Apart 0 k words) (hroom : pos + k ≤ buf.length) :
    (swapped order (shift pos words) buf).length = buf.length
      ∧ (swapped order (shift pos words) buf).take pos = buf.take pos
      ∧ (swapped order (shift pos words) buf).drop (pos + k) = buf.drop (pos + k) :=
  swapped_keeps order (apart_shift pos hwords) hroom

theorem counted_ok_iff (hwords : Apart 0 k words) (hstop : stop ≤ buf.length) {r : ℕ × List UInt8} :
    (counted order words k stop pos).run buf = .ok r ↔
      r.1 ≤ stop ∧ CountedAt k buf pos r.1 pos ∧ r.2 = swapped order (shift pos words) buf := by
  rw [counted, require_bind_ok_iff]
  have hlen (hroom : pos + (k + 1) ≤ stop) : be (swapped order (shift pos words) buf) (pos + k) 1 = be buf (pos + k) 1 :=
    be_eq_of_drop (shift_keeps order hwords (by omega)).2.2 le_rfl
  constructor
  · rintro ⟨hroom, hrest⟩
    rw [run_bind_ok (bswapAll_run hwords (by omega))] at hrest
    obtain ⟨-, hrest⟩ := read_bind_ok_iff.mp hrest
    obtain ⟨hroom', hpure⟩ := require_bind_ok_iff.mp hrest
    cases hpure
    exact ⟨hroom', ⟨rfl, congrArg (pos + (k + 1) + ·) (hlen hroom)⟩, rfl⟩
  · rintro ⟨hle, ⟨-, hend⟩, hbuf'⟩
    have hroom : pos + (k + 1) ≤ stop := by omega
    have hkept := (shift_keeps order hwords (by omega : pos + k ≤ buf.length)).1
    have hread : pos + k + 1 ≤ (swapped order (shift pos words) buf).length := by omega
    have hroom' : pos + (k + 1) + be (swapped order (shift pos words) buf) (pos + k) 1 ≤ stop := by
      rw [hlen hroom]
      omega
    refine ⟨hroom, ?_⟩
    rw [run_bind_ok (bswapAll_run hwords (by omega)), run_bind_ok (read_ok_iff.mpr ⟨hread, rfl⟩), ← be,
      run_bind_ok (run_require hroom' _)]
    refine congrArg Except.ok (Prod.ext ?_ hbuf'.symm)
    rw [hend, ← hlen hroom]

theorem takes_counted (order : ByteOrder) (hwords : Apart 0 k words) (hstop : stop ≤ n) :
    Takes n stop (counted order words k stop) (CountedAt k) fun x => swapped order (shift x words) where
  run {buf} hbuf {pos r} hr := by
    rw [counted_ok_iff hwords (hbuf.symm ▸ hstop)]
    constructor
    · intro h
      exact ⟨pos, h.2⟩
    · intro h
      obtain ⟨x, hx, hbuf'⟩ := h
      obtain rfl := hx.1
      exact ⟨hr, hx, hbuf'⟩
  onward {buf} hbuf {pos r} hr := by
    obtain ⟨hle, hx, hbuf'⟩ := (counted_ok_iff hwords (hbuf.symm ▸ hstop)).mp hr
    have hlt := hx.lt
    rw [hbuf']
    exact ⟨by omega, (shift_keeps order hwords (by omega)).1.trans hbuf⟩
  forward h := (Nat.le_add_right _ k).trans_lt h.lt
  ahead hdrop h := h.ahead hdrop
  keeps {buf a b x} hbuf hb hx := by
    have hlt := hx.lt
    obtain ⟨hkept, htake, hdrop⟩ := shift_keeps order hwords (by omega : a + k ≤ buf.length)
    rw [hx.1]
    exact ⟨hkept.trans hbuf, htake, drop_eq_of_le hdrop hlt.le⟩

theorem safe_counted (order : ByteOrder) (hwords : Apart 0 k words) (hstop : stop ≤ n) :
    Safe n (counted order words k stop pos) fun pos' => pos < pos' ∧ pos' ≤ stop := by
  refine (safe_require _).bind fun _ hroom => ?_
  refine (safe_bswapAll order fun f hf => ?_).bind fun _ _ => ?_
  · have hend := (hwords.mem hf).2
    omega
  · refine (safe_read (by omega : pos + k + 1 ≤ n)).bind fun len _ => ?_
    exact (safe_require _).bind fun _ hroom' => safe_pure ⟨by omega, hroom'⟩

theorem counted_sameOn {buf' : List UInt8} {xs : List ℕ} (hsame : SameOn a b buf buf')
    (h : Tiles (CountedAt k buf) a b xs) : Tiles (CountedAt k buf') a b xs := by
  refine (h.mono (fun i j x hi hj hx => ?_) fun i j x hx => ?_).2
  · have hlt := hx.lt
    have hlen : be buf (i + k) 1 = be buf' (i + k) 1 := be_eq_of_sameOn hsame (by omega) (by omega)
    exact ⟨hx.1, hlen ▸ hx.2⟩
  · have hlt := hx.lt
    omega

/-! ### What is turned round -/

theorem slice_swapped_other (order : ByteOrder) (hb : ∀ f ∈ words, f.1 + f.2 ≤ buf.length) {i m : ℕ}
    (hclear : ∀ f ∈ words, i + m ≤ f.1 ∨ f.1 + f.2 ≤ i) : slice (swapped order words buf) i m = slice buf i m := by
  cases order with
  | big => rfl
  | little => exact slice_turnAll_other hb hclear

theorem effects_swapped {τ : Type} (words : τ → List (ℕ × ℕ)) (xs : List τ) (buf : List UInt8) :
    effects (fun x => swapped order (words x)) xs buf = swapped order (xs.flatMap words) buf := by
  induction xs generalizing buf with
  | nil => cases order <;> rfl
  | cons x xs ih =>
    show effects (fun x => swapped order (words x)) xs (swapped order (words x) buf) = _
    rw [ih, List.flatMap_cons, swapped_append]

/-! ### Iterators -/

theorem forEach_cons_iff {next : ℕ → ℕ → Option ℕ} {idx p : ℕ} {ps : List ℕ} :
    ForEach next idx (some pos) (p :: ps) ↔ p = pos ∧ ForEach next (idx + 1) (next pos (idx + 1)) ps := by
  constructor
  · intro h
    cases h with
    | go rest => exact ⟨rfl, rest⟩
  · intro h
    obtain ⟨rfl, rest⟩ := h
    exact .go rest

theorem tiles_bytes (a count : ℕ) :
    Tiles (fun i j x => x = i ∧ j = i + 1) a (a + count) (List.range' a count) := by
  induction count generalizing a with
  | zero => exact .nil
  | succ count ih =>
    rw [List.range'_succ, Nat.add_comm count 1, ← Nat.add_assoc]
    exact .cons ⟨rfl, rfl⟩ (ih (a + 1))

theorem forEach_bytes (a count : ℕ) :
    ForEach (fun pos _ => if a + count ≤ pos + 1 then none else some (pos + 1)) 0 (if count = 0 then none else some a)
      (List.range' a count) := by
  have hstart : (if a + count ≤ a then none else some a) = if count = 0 then none else some a := by
    apply if_congr _ rfl rfl
    omega
  have hfor := ((tiles_bytes a count).forEach_below id
    (fun pos _ => if a + count ≤ pos + 1 then none else some (pos + 1))
    (fun {i j x} hx => ⟨hx.1, by have hend := hx.2; omega⟩) (fun {i j x} idx hx => by rw [hx.2]) 0).2
  rwa [hstart, List.map_id] at hfor

end BgtDvb.Ucsi.Descriptor
