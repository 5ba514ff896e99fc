import BgtDvb.Lib.Words

/-!
# Walks over a buffer

Code that checks a buffer goes over it with a position: it reads lengths, swaps words where they stand, and gives
the buffer up when a length does not fit.

* `swapAll` — a buffer with some of its words turned round;
* `whileBelow_iff`, `times_iff` — **PROVED**: a loop gets through exactly where the records that its body takes
  stand end to end, and turns their words round;
* `takes_pair` — **PROVED**: a body in two parts takes two records;
* `ForEach` — what an iterator goes over; `until_of_forEach` — **PROVED**: where it must stop to go over the records.

Nothing here names a kind of record.
-/

namespace BgtDvb.Walks

variable {β γ τ : Type}

/-! ### Buffers -/

/-- The bytes at a position. -/
def slice (buf : List UInt8) (i k : ℕ) : List UInt8 := (buf.drop i).take k

/-- A word turned round where it stands. -/
def reverseAt (i k : ℕ) (buf : List UInt8) : List UInt8 :=
  buf.take i ++ ((slice buf i k).reverse ++ buf.drop (i + k))

variable {buf : List UInt8} {i k a b : ℕ} {xs : List τ} {R : ℕ → ℕ → τ → Prop} {fields : List (ℕ × ℕ)}

theorem length_slice (h : i + k ≤ buf.length) : (slice buf i k).length = k := by
  rw [slice, List.length_take, List.length_drop]
  omega

theorem length_reverseAt (h : i + k ≤ buf.length) : (reverseAt i k buf).length = buf.length := by
  rw [reverseAt, List.length_append, List.length_append, List.length_reverse, length_slice h, List.length_take,
    List.length_drop]
  omega

theorem slice_eq_of_drop {buf' : List UInt8} (h : buf.drop a = buf'.drop a) (hi : a ≤ i) :
    slice buf i k = slice buf' i k := by
  have hcut : ∀ xs : List UInt8, xs.drop i = (xs.drop a).drop (i - a) := fun xs => by
    rw [List.drop_drop, Nat.add_sub_cancel' hi]
  rw [slice, slice, hcut, hcut, h]

theorem slice_eq_of_take {buf' : List UInt8} (h : buf.take a = buf'.take a) (hi : i + k ≤ a) :
    slice buf i k = slice buf' i k := by
  have hcut : ∀ xs : List UInt8, slice xs i k = ((xs.take a).drop i).take k := fun xs => by
    rw [List.drop_take, List.take_take, Nat.min_eq_left (by omega), slice]
  rw [hcut, hcut, h]

theorem drop_reverseAt (h : i + k ≤ buf.length) (ha : i + k ≤ a) : (reverseAt i k buf).drop a = buf.drop a := by
  have hlen : (buf.take i).length = i := by
    rw [List.length_take]
    omega
  have hk : (slice buf i k).reverse.length = k := by
    rw [List.length_reverse, length_slice h]
  have hfront : (buf.take i ++ (slice buf i k).reverse).length = i + k := by
    rw [List.length_append, hlen, hk]
  rw [reverseAt, ← List.append_assoc, List.drop_append, List.drop_eq_nil_of_le (by omega), hfront, List.nil_append,
    List.drop_drop, Nat.add_sub_cancel' ha]

theorem take_reverseAt (h : i + k ≤ buf.length) (ha : a ≤ i) : (reverseAt i k buf).take a = buf.take a := by
  have hlen : a ≤ (buf.take i).length := by
    rw [List.length_take]
    omega
  rw [reverseAt, List.take_append_of_le_length hlen, List.take_take, Nat.min_eq_left ha]

theorem slice_reverseAt_self (h : i + k ≤ buf.length) : slice (reverseAt i k buf) i k = (slice buf i k).reverse := by
  have hlen : (buf.take i).length = i := by
    rw [List.length_take]
    omega
  have hk : (slice buf i k).reverse.length = k := by
    rw [List.length_reverse, length_slice h]
  rw [reverseAt, slice, List.drop_append_of_le_length (by omega), List.drop_eq_nil_of_le (by omega), List.nil_append,
    List.take_append_of_le_length (by omega), List.take_of_length_le (by omega)]

theorem reverseAt_reverseAt (h : i + k ≤ buf.length) : reverseAt i k (reverseAt i k buf) = buf := by
  have hsplit : slice buf i k ++ buf.drop (i + k) = buf.drop i := by
    rw [slice, ← List.drop_drop, List.take_append_drop]
  conv_lhs => rw [reverseAt]
  rw [slice_reverseAt_self h, take_reverseAt h le_rfl, drop_reverseAt h le_rfl, List.reverse_reverse, hsplit,
    List.take_append_drop]

theorem slice_reverseAt_other {j m : ℕ} (h : i + k ≤ buf.length) (hj : j + m ≤ i ∨ i + k ≤ j) :
    slice (reverseAt i k buf) j m = slice buf j m := by
  rcases hj with hj | hj
  · exact slice_eq_of_take (take_reverseAt h hj) le_rfl
  · exact slice_eq_of_drop (drop_reverseAt h hj) le_rfl

/-! ### Walks -/

/-- Why a walk ends early: it leaves the buffer, it gives the buffer up, or it would not end. -/
inductive Stop
  | fault | refused | endless
  deriving DecidableEq, Repr

/-- A walk over a buffer. -/
abbrev Walk (β : Type) : Type := StateT (List UInt8) (Except Stop) β

/-- A walk that ends early. -/
def halt (s : Stop) : Walk β := fun _ => .error s

/-- The bytes at a position. -/
def read (i k : ℕ) : Walk (List UInt8) := fun buf =>
  if i + k ≤ buf.length then .ok (slice buf i k, buf) else .error .fault

/-- Turns a word round. -/
def reverse (i k : ℕ) : Walk Unit := fun buf =>
  if i + k ≤ buf.length then .ok ((), reverseAt i k buf) else .error .fault

/-- Gives the buffer up unless a condition holds. -/
def require (p : Prop) [Decidable p] : Walk Unit := if p then pure () else halt .refused

/-- `while (pos < stop)`, with fuel. -/
def whileBelow (stop : ℕ) (body : ℕ → Walk ℕ) : ℕ → ℕ → Walk ℕ
  | 0, pos => if pos < stop then halt .endless else pure pos
  | fuel + 1, pos => if pos < stop then body pos >>= whileBelow stop body fuel else pure pos

/-- A loop over a number of records. -/
def times (body : ℕ → Walk ℕ) : ℕ → ℕ → Walk ℕ
  | 0, pos => pure pos
  | n + 1, pos => body pos >>= times body n

section Runs

variable {c : Walk β} {f : β → Walk γ} {buf : List UInt8}

@[simp] theorem run_pure (b : β) : (pure b : Walk β).run buf = .ok (b, buf) := rfl

theorem run_bind_ok {b : β} {buf' : List UInt8} (h : c.run buf = .ok (b, buf')) :
    (c >>= f).run buf = (f b).run buf' := by
  rw [StateT.run_bind, h]
  rfl

theorem run_bind_error {s : Stop} (h : c.run buf = .error s) : (c >>= f).run buf = .error s := by
  rw [StateT.run_bind, h]
  rfl

theorem bind_ok_iff {r : γ × List UInt8} :
    (c >>= f).run buf = .ok r ↔ ∃ b buf', c.run buf = .ok (b, buf') ∧ (f b).run buf' = .ok r := by
  cases hc : c.run buf with
  | error s =>
    rw [run_bind_error hc]
    exact ⟨fun h => (by cases h), fun ⟨_, _, h, _⟩ => (by cases h)⟩
  | ok p =>
    rw [run_bind_ok hc]
    refine ⟨fun h => ⟨p.1, p.2, rfl, h⟩, fun ⟨_, _, h, hf⟩ => ?_⟩
    cases h
    exact hf

theorem read_ok_iff {i k : ℕ} {r : List UInt8 × List UInt8} :
    (read i k).run buf = .ok r ↔ i + k ≤ buf.length ∧ r = (slice buf i k, buf) := by
  show (if i + k ≤ buf.length then Except.ok (slice buf i k, buf) else .error Stop.fault) = _ ↔ _
  split_ifs with h
  · exact ⟨fun heq => ⟨h, (Except.ok.inj heq).symm⟩, fun heq => congrArg _ heq.2.symm⟩
  · exact ⟨fun heq => (by cases heq), fun heq => absurd heq.1 h⟩

theorem reverse_ok_iff {i k : ℕ} {r : Unit × List UInt8} :
    (reverse i k).run buf = .ok r ↔ i + k ≤ buf.length ∧ r = ((), reverseAt i k buf) := by
  show (if i + k ≤ buf.length then Except.ok ((), reverseAt i k buf) else .error Stop.fault) = _ ↔ _
  split_ifs with h
  · exact ⟨fun heq => ⟨h, (Except.ok.inj heq).symm⟩, fun heq => congrArg _ heq.2.symm⟩
  · exact ⟨fun heq => (by cases heq), fun heq => absurd heq.1 h⟩

theorem require_ok_iff {p : Prop} [Decidable p] {r : Unit × List UInt8} :
    (require p).run buf = .ok r ↔ p ∧ r = ((), buf) := by
  unfold require
  split_ifs with h
  · exact ⟨fun heq => ⟨h, (Except.ok.inj heq).symm⟩, fun heq => congrArg Except.ok heq.2.symm⟩
  · exact ⟨fun heq => (by cases heq), fun heq => absurd heq.1 h⟩

theorem read_bind_ok_iff {g : List UInt8 → Walk γ} {i k : ℕ} {r : γ × List UInt8} :
    (read i k >>= g).run buf = .ok r ↔ i + k ≤ buf.length ∧ (g (slice buf i k)).run buf = .ok r := by
  refine bind_ok_iff.trans ⟨fun ⟨_, _, hread, hr⟩ => ?_, fun ⟨h, hr⟩ => ⟨_, _, read_ok_iff.mpr ⟨h, rfl⟩, hr⟩⟩
  obtain ⟨h, heq⟩ := read_ok_iff.mp hread
  cases heq
  exact ⟨h, hr⟩

theorem require_bind_ok_iff {p : Prop} [Decidable p] {g : Unit → Walk γ} {r : γ × List UInt8} :
    (require p >>= g).run buf = .ok r ↔ p ∧ (g ()).run buf = .ok r := by
  refine bind_ok_iff.trans ⟨fun ⟨_, _, hrequire, hr⟩ => ?_, fun ⟨h, hr⟩ => ⟨_, _, require_ok_iff.mpr ⟨h, rfl⟩, hr⟩⟩
  obtain ⟨h, heq⟩ := require_ok_iff.mp hrequire
  cases heq
  exact ⟨h, hr⟩

theorem whileBelow_of_not_lt {stop fuel pos : ℕ} {body : ℕ → Walk ℕ} (h : ¬ pos < stop) :
    whileBelow stop body fuel pos = pure pos := by
  cases fuel <;> rw [whileBelow, if_neg h]

end Runs

/-! ### Safe walks -/

/-- How a run over a buffer of `n` bytes may end: with a buffer of that length and a value of the kind, or by giving
the buffer up. -/
def Ends (n : ℕ) (Q : β → Prop) : Except Stop (β × List UInt8) → Prop
  | .ok r => r.2.length = n ∧ Q r.1
  | .error s => s = .refused

/-- Every run over a buffer of `n` bytes ends so. -/
def Safe (n : ℕ) (c : Walk β) (Q : β → Prop) : Prop :=
  ∀ buf : List UInt8, buf.length = n → Ends n Q (c.run buf)

section Rules

variable {n : ℕ} {c : Walk β} {f : β → Walk γ} {Q : β → Prop} {R : γ → Prop}

theorem Safe.mono {Q' : β → Prop} (h : Safe n c Q) (hQ : ∀ b, Q b → Q' b) : Safe n c Q' := by
  intro buf hbuf
  have hends := h buf hbuf
  cases hrun : c.run buf with
  | error s =>
    rw [hrun] at hends
    exact hends
  | ok r =>
    rw [hrun] at hends
    exact ⟨hends.1, hQ r.1 hends.2⟩

theorem Safe.bind (hc : Safe n c Q) (hf : ∀ b, Q b → Safe n (f b) R) : Safe n (c >>= f) R := by
  intro buf hbuf
  have hends := hc buf hbuf
  cases hrun : c.run buf with
  | error s =>
    rw [run_bind_error hrun]
    rw [hrun] at hends
    exact hends
  | ok r =>
    rw [run_bind_ok hrun]
    rw [hrun] at hends
    exact hf r.1 hends.2 r.2 hends.1

theorem safe_pure {b : β} (h : Q b) : Safe n (pure b) Q := fun _ hbuf => ⟨hbuf, h⟩

theorem safe_refused : Safe n (halt .refused : Walk β) Q := fun _ _ => rfl

theorem safe_require (p : Prop) [Decidable p] : Safe n (require p) fun _ => p := by
  unfold require
  split_ifs with h
  · exact safe_pure h
  · exact safe_refused

theorem safe_read {i k : ℕ} (h : i + k ≤ n) : Safe n (read i k) fun bytes => bytes.length = k := by
  intro buf hbuf
  have hroom : i + k ≤ buf.length := by omega
  rw [read_ok_iff.mpr ⟨hroom, rfl⟩]
  exact ⟨hbuf, length_slice hroom⟩

theorem safe_reverse {i k : ℕ} (h : i + k ≤ n) : Safe n (reverse i k) fun _ => True := by
  intro buf hbuf
  have hroom : i + k ≤ buf.length := by omega
  rw [reverse_ok_iff.mpr ⟨hroom, rfl⟩]
  exact ⟨(length_reverseAt hroom).trans hbuf, trivial⟩

theorem safe_whileBelow {stop : ℕ} {body : ℕ → Walk ℕ} {I : ℕ → Prop}
    (hbody : ∀ pos, I pos → pos < stop → Safe n (body pos) fun pos' => pos < pos' ∧ I pos') (fuel : ℕ) {pos : ℕ}
    (hpos : I pos) (hfuel : stop - pos ≤ fuel) :
    Safe n (whileBelow stop body fuel pos) fun pos' => stop ≤ pos' ∧ I pos' := by
  induction fuel generalizing pos with
  | zero =>
    have hdone : ¬ pos < stop := by omega
    rw [whileBelow, if_neg hdone]
    exact safe_pure ⟨by omega, hpos⟩
  | succ fuel ih =>
    rw [whileBelow]
    split_ifs with hlt
    · exact (hbody pos hpos hlt).bind fun pos' h => ih h.2 (by omega)
    · exact safe_pure ⟨by omega, hpos⟩

theorem safe_times {body : ℕ → Walk ℕ} {I : ℕ → Prop} (hbody : ∀ pos, I pos → Safe n (body pos) I) (count : ℕ)
    {pos : ℕ} (hpos : I pos) : Safe n (times body count pos) I := by
  induction count generalizing pos with
  | zero => exact safe_pure hpos
  | succ count ih => exact (hbody pos hpos).bind fun _ h => ih h

end Rules

/-! ### Walks over one buffer -/

/-- A run ends inside the buffer: with a value, or by giving the buffer up. -/
def Stays (c : Walk β) (buf : List UInt8) : Prop := ∀ s, c.run buf = .error s → s = .refused

section Stays

variable {c : Walk β} {f : β → Walk γ} {buf buf' : List UInt8} {b : β}

theorem Ends.stays {n : ℕ} {Q : β → Prop} (h : Ends n Q (c.run buf)) : Stays c buf := by
  intro s hs
  rw [hs] at h
  exact h

theorem stays_pure (b : β) : Stays (pure b) buf := fun _ hs => by cases hs

theorem stays_bind_ok (h : c.run buf = .ok (b, buf')) : Stays (c >>= f) buf ↔ Stays (f b) buf' := by
  unfold Stays
  rw [run_bind_ok h]

theorem stays_bind_refused (h : c.run buf = .error .refused) : Stays (c >>= f) buf := by
  intro s hs
  rw [run_bind_error h] at hs
  cases hs
  rfl

theorem not_stays_bind (h : c.run buf = .error .fault) : ¬ Stays (c >>= f) buf := fun hstays => by
  have hs := hstays .fault (run_bind_error h)
  cases hs

theorem stays_bind_iff (hf : ∀ b buf', c.run buf = .ok (b, buf') → Stays (f b) buf') :
    Stays (c >>= f) buf ↔ Stays c buf := by
  cases hc : c.run buf with
  | ok r =>
    refine ⟨fun _ s hs => ?_, fun _ => (stays_bind_ok hc).mpr (hf r.1 r.2 hc)⟩
    rw [hc] at hs
    cases hs
  | error s =>
    unfold Stays
    rw [run_bind_error hc, hc]
    exact ⟨fun h t ht => h t (by cases ht; rfl), fun h t ht => h t (by cases ht; rfl)⟩

end Stays

/-! ### Walks that only look -/

/-- A walk that looks at no byte in front of a position, and changes none. -/
def Peeks (a : ℕ) (c : Walk β) : Prop :=
  ∀ buf buf' : List UInt8, buf.length = buf'.length → buf.drop a = buf'.drop a →
    ∃ o : Except Stop β, c.run buf = o.map (·, buf) ∧ c.run buf' = o.map (·, buf')

section Peeks

variable {a : ℕ} {c : Walk β} {f : β → Walk γ}

theorem peeks_pure (b : β) : Peeks a (pure b) := fun _ _ _ _ => ⟨.ok b, rfl, rfl⟩

theorem peeks_require (p : Prop) [Decidable p] : Peeks a (require p) := by
  unfold require
  split_ifs
  · exact peeks_pure ()
  · exact fun _ _ _ _ => ⟨.error .refused, rfl, rfl⟩

theorem peeks_read {i k : ℕ} (hi : a ≤ i) : Peeks a (read i k) := by
  intro buf buf' hlen hdrop
  by_cases h : i + k ≤ buf.length
  · refine ⟨.ok (slice buf i k), read_ok_iff.mpr ⟨h, rfl⟩, read_ok_iff.mpr ⟨hlen ▸ h, ?_⟩⟩
    rw [slice_eq_of_drop hdrop hi]
  · exact ⟨.error .fault, if_neg h, if_neg (hlen ▸ h)⟩

theorem Peeks.bind (hc : Peeks a c) (hf : ∀ b, Peeks a (f b)) : Peeks a (c >>= f) := by
  intro buf buf' hlen hdrop
  obtain ⟨o, hrun, hrun'⟩ := hc buf buf' hlen hdrop
  cases o with
  | error s => exact ⟨.error s, run_bind_error hrun, run_bind_error hrun'⟩
  | ok b =>
    rw [run_bind_ok hrun, run_bind_ok hrun']
    exact hf b buf buf' hlen hdrop

theorem peeks_times {body : ℕ → Walk ℕ} (hbody : ∀ pos, Peeks a (body pos)) (count pos : ℕ) :
    Peeks a (times body count pos) := by
  induction count generalizing pos with
  | zero => exact peeks_pure pos
  | succ count ih => exact (hbody pos).bind fun pos' => ih pos'

theorem Peeks.run_congr (h : Peeks a c) {buf buf' : List UInt8} (hlen : buf.length = buf'.length)
    (hdrop : buf.drop a = buf'.drop a) {b : β} : c.run buf = .ok (b, buf) ↔ c.run buf' = .ok (b, buf') := by
  obtain ⟨o, hrun, hrun'⟩ := h buf buf' hlen hdrop
  rw [hrun, hrun']
  cases o with
  | error s => exact ⟨fun h => (by cases h), fun h => (by cases h)⟩
  | ok b' =>
    refine ⟨fun h => ?_, fun h => ?_⟩
    · cases h
      rfl
    · cases h
      rfl

theorem Peeks.keeps (h : Peeks a c) {buf : List UInt8} {r : β × List UInt8} (hr : c.run buf = .ok r) : r.2 = buf := by
  obtain ⟨o, hrun, -⟩ := h buf buf rfl rfl
  rw [hrun] at hr
  cases o with
  | error s => cases hr
  | ok b =>
    cases hr
    rfl

end Peeks

/-! ### The length of the buffer -/

/-- A walk leaves the buffer as long as it was. -/
def Lasting (c : Walk β) : Prop := ∀ (buf : List UInt8) (r : β × List UInt8), c.run buf = .ok r → r.2.length = buf.length

section Lasting

variable {c : Walk β} {f : β → Walk γ}

theorem lasting_pure (b : β) : Lasting (pure b) := fun _ _ h => (by cases h; rfl)

theorem lasting_require (p : Prop) [Decidable p] : Lasting (require p) := fun _ _ h => (by
  obtain ⟨-, rfl⟩ := require_ok_iff.mp h
  rfl)

theorem lasting_read (i k : ℕ) : Lasting (read i k) := fun _ _ h => (by
  obtain ⟨-, rfl⟩ := read_ok_iff.mp h
  rfl)

theorem lasting_reverse (i k : ℕ) : Lasting (reverse i k) := fun _ _ h => (by
  obtain ⟨hroom, rfl⟩ := reverse_ok_iff.mp h
  exact length_reverseAt hroom)

theorem Lasting.bind (hc : Lasting c) (hf : ∀ b, Lasting (f b)) : Lasting (c >>= f) := by
  intro buf r h
  obtain ⟨b, buf', hfirst, hrest⟩ := bind_ok_iff.mp h
  exact (hf b buf' r hrest).trans (hc buf _ hfirst)

theorem lasting_whileBelow {stop : ℕ} {body : ℕ → Walk ℕ} (hbody : ∀ pos, Lasting (body pos)) (fuel pos : ℕ) :
    Lasting (whileBelow stop body fuel pos) := by
  induction fuel generalizing pos with
  | zero =>
    rw [whileBelow]
    split_ifs
    · exact fun _ _ h => (by cases h)
    · exact lasting_pure pos
  | succ fuel ih =>
    rw [whileBelow]
    split_ifs
    · exact (hbody pos).bind ih
    · exact lasting_pure pos

end Lasting

/-! ### Records end to end -/

/-- Records, each from its first byte to the first one behind it, that stand end to end. -/
inductive Tiles (R : ℕ → ℕ → τ → Prop) : ℕ → ℕ → List τ → Prop
  | nil {a : ℕ} : Tiles R a a []
  | cons {a b c : ℕ} {x : τ} {xs : List τ} (first : R a b x) (rest : Tiles R b c xs) : Tiles R a c (x :: xs)

theorem Tiles.mono {R' : ℕ → ℕ → τ → Prop} (h : Tiles R a b xs) (hR : ∀ i j x, a ≤ i → j ≤ b → R i j x → R' i j x)
    (hfwd : ∀ i j x, R i j x → i ≤ j) : a ≤ b ∧ Tiles R' a b xs := by
  induction h with
  | nil => exact ⟨le_rfl, .nil⟩
  | @cons a b c x xs first rest ih =>
    have hab := hfwd a b x first
    obtain ⟨hbc, hrest⟩ := ih fun i j y hi hj => hR i j y (hab.trans hi) hj
    exact ⟨hab.trans hbc, .cons (hR a b x le_rfl hbc first) hrest⟩

theorem Tiles.moved {R' : ℕ → ℕ → τ → Prop} (h : Tiles R a b xs) (start : ℕ)
    (hR : ∀ i j x, R i j x → R' (start + i) (start + j) x) : Tiles R' (start + a) (start + b) xs := by
  induction h with
  | nil => exact .nil
  | cons first rest ih => exact .cons (hR _ _ _ first) ih

theorem Tiles.of_mem (h : Tiles R a b xs) (hfwd : ∀ {i j : ℕ} {x : τ}, R i j x → i ≤ j) {x : τ} (hx : x ∈ xs) :
    ∃ i j, a ≤ i ∧ j ≤ b ∧ R i j x := by
  have hle : ∀ {i j : ℕ} {ys : List τ}, Tiles R i j ys → i ≤ j := by
    intro i j ys ht
    induction ht with
    | nil => exact le_rfl
    | cons first rest ih => exact (hfwd first).trans ih
  induction h with
  | nil => cases hx
  | @cons a b c y ys first rest ih =>
    rcases List.mem_cons.mp hx with rfl | hx
    · exact ⟨a, b, le_rfl, hle rest, first⟩
    · obtain ⟨i, j, hi, hj, hR⟩ := ih hx
      exact ⟨i, j, (hfwd first).trans hi, hj, hR⟩

/-- What the records of a list do to a buffer, one after another. -/
def effects (eff : τ → List UInt8 → List UInt8) (xs : List τ) (buf : List UInt8) : List UInt8 :=
  xs.foldl (fun buf x => eff x buf) buf

/-- A loop body takes one record: as far as `stop` it gets through exactly where one stands, whose bytes alone it
changes. -/
structure Takes (n stop : ℕ) (body : ℕ → Walk ℕ) (R : List UInt8 → ℕ → ℕ → τ → Prop)
    (eff : τ → List UInt8 → List UInt8) : Prop where
  run : ∀ {buf : List UInt8}, buf.length = n → ∀ {pos : ℕ} {r : ℕ × List UInt8}, r.1 ≤ stop →
    ((body pos).run buf = .ok r ↔ ∃ x, R buf pos r.1 x ∧ r.2 = eff x buf)
  onward : ∀ {buf : List UInt8}, buf.length = n → ∀ {pos : ℕ} {r : ℕ × List UInt8}, (body pos).run buf = .ok r →
    pos ≤ r.1 ∧ r.2.length = n
  forward : ∀ {buf : List UInt8} {a b : ℕ} {x : τ}, R buf a b x → a < b
  ahead : ∀ {buf buf' : List UInt8} {a b : ℕ} {x : τ}, buf.drop a = buf'.drop a → R buf a b x → R buf' a b x
  keeps : ∀ {buf : List UInt8} {a b : ℕ} {x : τ}, buf.length = n → b ≤ stop → R buf a b x →
    (eff x buf).length = n ∧ (eff x buf).take a = buf.take a ∧ (eff x buf).drop b = buf.drop b

section Loops

variable {n stop : ℕ} {body : ℕ → Walk ℕ} {R : List UInt8 → ℕ → ℕ → τ → Prop} {eff : τ → List UInt8 → List UInt8}

variable {buf buf' : List UInt8} {a b pos : ℕ} {xs : List τ}

theorem drop_eq_of_le (h : buf.drop a = buf'.drop a) (hab : a ≤ b) : buf.drop b = buf'.drop b := by
  rw [← Nat.add_sub_cancel' hab, ← List.drop_drop, ← List.drop_drop, h]

theorem take_eq_of_le (h : buf.take b = buf'.take b) (hab : a ≤ b) : buf.take a = buf'.take a := by
  rw [← Nat.min_eq_left hab, ← List.take_take, ← List.take_take, h]

theorem Takes.tiles_le (h : Takes n stop body R eff) (ht : Tiles (R buf) a b xs) : a ≤ b := by
  induction ht with
  | nil => exact le_rfl
  | cons first rest ih => exact (h.forward first).le.trans ih

theorem Takes.tiles_ahead (h : Takes n stop body R eff) (hdrop : buf.drop a = buf'.drop a) (ht : Tiles (R buf) a b xs) :
    Tiles (R buf') a b xs := by
  induction ht with
  | nil => exact .nil
  | cons first rest ih =>
    exact .cons (h.ahead hdrop first) (ih (drop_eq_of_le hdrop (h.forward first).le))

theorem Takes.tiles_rest (h : Takes n stop body R eff) (hbuf : buf.length = n) {c : ℕ} (hb : b ≤ stop) {x : τ}
    (hx : R buf a b x) : Tiles (R (eff x buf)) b c xs ↔ Tiles (R buf) b c xs :=
  ⟨h.tiles_ahead (h.keeps hbuf hb hx).2.2, h.tiles_ahead (h.keeps hbuf hb hx).2.2.symm⟩

theorem Takes.times_onward (h : Takes n stop body R eff) (count : ℕ) (hbuf : buf.length = n) {r : ℕ × List UInt8}
    (hr : (times body count pos).run buf = .ok r) : pos ≤ r.1 ∧ r.2.length = n := by
  induction count generalizing pos buf with
  | zero =>
    cases hr
    exact ⟨le_rfl, hbuf⟩
  | succ count ih =>
    obtain ⟨pos', buf', hfirst, hrest⟩ := bind_ok_iff.mp hr
    obtain ⟨hle, hbuf'⟩ := h.onward hbuf hfirst
    obtain ⟨hle', hlen⟩ := ih hbuf' hrest
    exact ⟨hle.trans hle', hlen⟩

/-- **A loop over a number of records.** -/
theorem Takes.times_iff (h : Takes n stop body R eff) (count : ℕ) (hbuf : buf.length = n) {r : ℕ × List UInt8}
    (hstop : r.1 ≤ stop) :
    (times body count pos).run buf = .ok r ↔
      ∃ xs, xs.length = count ∧ Tiles (R buf) pos r.1 xs ∧ r.2 = effects eff xs buf := by
  induction count generalizing pos buf with
  | zero =>
    rw [times, run_pure]
    constructor
    · intro heq
      cases heq
      exact ⟨[], rfl, .nil, rfl⟩
    · rintro ⟨xs, hlen, ht, heff⟩
      obtain rfl := List.length_eq_zero_iff.mp hlen
      cases ht
      exact congrArg Except.ok (Prod.ext rfl heff.symm)
  | succ count ih =>
    rw [times, bind_ok_iff]
    constructor
    · rintro ⟨pos', buf', hfirst, hrest⟩
      have hle : pos' ≤ r.1 := (h.times_onward count (h.onward hbuf hfirst).2 hrest).1
      obtain ⟨x, hx, heff⟩ := (h.run hbuf (hle.trans hstop)).mp hfirst
      dsimp only at hx heff
      subst heff
      obtain ⟨xs, hlen, ht, heffs⟩ := (ih (h.keeps hbuf (hle.trans hstop) hx).1).mp hrest
      exact ⟨x :: xs, congrArg (· + 1) hlen, .cons hx ((h.tiles_rest hbuf (hle.trans hstop) hx).mp ht), heffs⟩
    · rintro ⟨xs, hlen, ht, heffs⟩
      cases ht with
      | nil => cases hlen
      | @cons _ b _ x xs hx ht =>
        have hb : b ≤ stop := (h.tiles_le ht).trans hstop
        refine ⟨b, eff x buf, (h.run hbuf hb).mpr ⟨x, hx, rfl⟩, (ih (h.keeps hbuf hb hx).1).mpr ?_⟩
        exact ⟨xs, Nat.succ.inj hlen, (h.tiles_rest hbuf hb hx).mpr ht, heffs⟩

/-- **A loop up to a position.** -/
theorem Takes.whileBelow_iff (h : Takes n stop body R eff) (fuel : ℕ) (hpos : pos ≤ stop) (hfuel : stop - pos ≤ fuel)
    (hbuf : buf.length = n) :
    (whileBelow stop body fuel pos).run buf = .ok (stop, buf') ↔
      ∃ xs, Tiles (R buf) pos stop xs ∧ buf' = effects eff xs buf := by
  induction fuel generalizing pos buf with
  | zero =>
    have heq : pos = stop := by omega
    subst heq
    rw [whileBelow, if_neg (lt_irrefl pos), run_pure]
    constructor
    · intro hr
      cases hr
      exact ⟨[], .nil, rfl⟩
    · rintro ⟨xs, ht, rfl⟩
      cases ht with
      | nil => rfl
      | cons first rest =>
        have hlt := h.forward first
        have hle := h.tiles_le rest
        omega
  | succ fuel ih =>
    by_cases hlt : pos < stop
    · rw [whileBelow, if_pos hlt, bind_ok_iff]
      constructor
      · rintro ⟨pos', buf₁, hfirst, hrest⟩
        have hle : pos' ≤ stop := by
          by_contra hover
          rw [whileBelow_of_not_lt (by omega)] at hrest
          cases hrest
          exact hover le_rfl
        obtain ⟨x, hx, heff⟩ := (h.run hbuf hle).mp hfirst
        dsimp only at hx heff
        subst heff
        have hfwd := h.forward hx
        obtain ⟨xs, ht, heffs⟩ := (ih hle (by omega) (h.keeps hbuf hle hx).1).mp hrest
        exact ⟨x :: xs, .cons hx ((h.tiles_rest hbuf hle hx).mp ht), heffs⟩
      · rintro ⟨xs, ht, heffs⟩
        cases ht with
        | nil => exact absurd hlt (lt_irrefl _)
        | @cons _ b _ x xs hx ht =>
          have hfwd := h.forward hx
          have hb := h.tiles_le ht
          refine ⟨b, eff x buf, (h.run hbuf hb).mpr ⟨x, hx, rfl⟩, (ih hb (by omega) (h.keeps hbuf hb hx).1).mpr ?_⟩
          exact ⟨xs, (h.tiles_rest hbuf hb hx).mpr ht, heffs⟩
    · have heq : pos = stop := by omega
      subst heq
      rw [whileBelow, if_neg hlt, run_pure]
      constructor
      · intro hr
        cases hr
        exact ⟨[], .nil, rfl⟩
      · rintro ⟨xs, ht, rfl⟩
        cases ht with
        | nil => rfl
        | cons first rest =>
          have hlt' := h.forward first
          have hle := h.tiles_le rest
          omega

theorem Takes.effects_keeps (h : Takes n stop body R eff) (hbuf : buf.length = n) (hb : b ≤ stop)
    (ht : Tiles (R buf) a b xs) :
    (effects eff xs buf).length = n ∧ (effects eff xs buf).take a = buf.take a
      ∧ (effects eff xs buf).drop b = buf.drop b := by
  induction xs generalizing buf a with
  | nil => exact ⟨hbuf, rfl, rfl⟩
  | cons x xs ih =>
    cases ht with
    | cons first rest =>
      have hfwd := (h.forward first).le
      have hle := h.tiles_le rest
      obtain ⟨hlen, htake, hdrop⟩ := h.keeps hbuf (hle.trans hb) first
      obtain ⟨hlen', htake', hdrop'⟩ := ih hlen ((h.tiles_rest hbuf (hle.trans hb) first).mpr rest)
      exact ⟨hlen', (take_eq_of_le htake' hfwd).trans htake, hdrop'.trans (drop_eq_of_le hdrop hle)⟩

/-- Two buffers have the same bytes between two positions. -/
def SameOn (a b : ℕ) (buf buf' : List UInt8) : Prop := ∀ i k, a ≤ i → i + k ≤ b → slice buf i k = slice buf' i k

theorem SameOn.symm (h : SameOn a b buf buf') : SameOn a b buf' buf :=
  fun i k hi hk => (h i k hi hk).symm

theorem SameOn.trans {buf'' : List UInt8} (h : SameOn a b buf buf') (h' : SameOn a b buf' buf'') :
    SameOn a b buf buf'' :=
  fun i k hi hk => (h i k hi hk).trans (h' i k hi hk)

theorem SameOn.mono {a' b' : ℕ} (h : SameOn a b buf buf') (ha : a ≤ a') (hb : b' ≤ b) : SameOn a' b' buf buf' :=
  fun i k hi hk => h i k (ha.trans hi) (hk.trans hb)

theorem sameOn_of_take (h : buf.take b = buf'.take b) : SameOn a b buf buf' :=
  fun _ _ _ hk => slice_eq_of_take h hk

theorem sameOn_of_drop (h : buf.drop a = buf'.drop a) : SameOn a b buf buf' :=
  fun _ _ hi _ => slice_eq_of_drop h hi

/-- **What a record is like when its own words have been turned round** it is like at the end of the loop. -/
theorem Takes.settle (h : Takes n stop body R eff) {P : List UInt8 → ℕ → ℕ → τ → Prop} {first : List UInt8}
    (hP : ∀ {buf : List UInt8} {i j : ℕ} {x : τ}, buf.length = n → j ≤ stop → buf.drop i = first.drop i →
      R buf i j x → P (eff x buf) i j x)
    (hlocal : ∀ {buf buf' : List UInt8} {i j : ℕ} {x : τ}, SameOn i j buf buf' → P buf i j x → P buf' i j x)
    (hbuf : buf.length = n) (hb : b ≤ stop) (hfirst : buf.drop a = first.drop a) (ht : Tiles (R buf) a b xs) :
    Tiles (P (effects eff xs buf)) a b xs := by
  induction xs generalizing buf a with
  | nil =>
    cases ht
    exact .nil
  | cons x xs ih =>
    cases ht with
    | @cons _ c _ _ _ hx rest =>
      have hc : c ≤ stop := (h.tiles_le rest).trans hb
      obtain ⟨hlen, -, hdrop⟩ := h.keeps hbuf hc hx
      have hrest := (h.tiles_rest hbuf hc hx).mpr rest
      have hcut : (eff x buf).drop c = first.drop c := hdrop.trans (drop_eq_of_le hfirst (h.forward hx).le)
      refine .cons ?_ (ih hlen hcut hrest)
      have htake := (h.effects_keeps hlen hb hrest).2.1
      exact hlocal (sameOn_of_take htake.symm) (hP hbuf hc hfirst hx)

/-- **A body in two parts** takes two records, one behind the other. -/
theorem takes_pair {τ' : Type} {body' : ℕ → Walk ℕ} {R' : List UInt8 → ℕ → ℕ → τ' → Prop}
    {eff' : τ' → List UInt8 → List UInt8} (h : Takes n stop body R eff) (h' : Takes n stop body' R' eff') :
    Takes n stop (fun pos => body pos >>= body') (fun buf a c (x : τ × τ') => ∃ b, R buf a b x.1 ∧ R' buf b c x.2)
      fun x buf => eff' x.2 (eff x.1 buf) where
  run {buf} hbuf {pos r} hr := by
    rw [bind_ok_iff]
    constructor
    · rintro ⟨b, buf₁, hfirst, hsecond⟩
      have hb : b ≤ stop := (h'.onward (h.onward hbuf hfirst).2 hsecond).1.trans hr
      obtain ⟨x, hx, heff⟩ := (h.run hbuf hb).mp hfirst
      dsimp only at hx heff
      subst heff
      obtain ⟨y, hy, heff'⟩ := (h'.run (h.keeps hbuf hb hx).1 hr).mp hsecond
      exact ⟨(x, y), ⟨b, hx, h'.ahead (h.keeps hbuf hb hx).2.2 hy⟩, heff'⟩
    · rintro ⟨⟨x, y⟩, ⟨b, hx, hy⟩, heff⟩
      have hb : b ≤ stop := (h'.forward hy).le.trans hr
      exact ⟨b, eff x buf, (h.run hbuf hb).mpr ⟨x, hx, rfl⟩,
        (h'.run (h.keeps hbuf hb hx).1 hr).mpr ⟨y, h'.ahead (h.keeps hbuf hb hx).2.2.symm hy, heff⟩⟩
  onward {buf} hbuf {pos r} hr := by
    obtain ⟨b, buf₁, hfirst, hsecond⟩ := bind_ok_iff.mp hr
    obtain ⟨hle, hlen⟩ := h.onward hbuf hfirst
    obtain ⟨hle', hlen'⟩ := h'.onward hlen hsecond
    exact ⟨hle.trans hle', hlen'⟩
  forward := by
    rintro buf a c x ⟨b, hx, hy⟩
    exact (h.forward hx).trans (h'.forward hy)
  ahead := by
    rintro buf buf' a c x hdrop ⟨b, hx, hy⟩
    exact ⟨b, h.ahead hdrop hx, h'.ahead (drop_eq_of_le hdrop (h.forward hx).le) hy⟩
  keeps := by
    rintro buf a c x hbuf hc ⟨b, hx, hy⟩
    have hb : b ≤ stop := (h'.forward hy).le.trans hc
    obtain ⟨hlen, htake, hdrop⟩ := h.keeps hbuf hb hx
    obtain ⟨hlen', htake', hdrop'⟩ := h'.keeps hlen hc (h'.ahead hdrop.symm hy)
    exact ⟨hlen', (take_eq_of_le htake' (h.forward hx).le).trans htake,
      hdrop'.trans (drop_eq_of_le hdrop (h'.forward hy).le)⟩

end Loops

theorem slice_of_drop {bytes : List UInt8} (h : buf.drop a = bytes) (i k : ℕ) :
    slice buf (a + i) k = (bytes.drop i).take k := by
  rw [slice, ← List.drop_drop, h]

theorem drop_of_append {bytes rest : List UInt8} (h : buf.drop a = bytes ++ rest) :
    buf.drop (a + bytes.length) = rest := by
  rw [← List.drop_drop, h, List.drop_left]

/-- **Records written one after another** stand end to end. -/
theorem tiles_of_drop {σ : Type} {R : List UInt8 → ℕ → ℕ → τ → Prop} {enc : σ → List UInt8} {ss : List σ}
    (h : ∀ s ∈ ss, ∀ {buf : List UInt8} {a : ℕ} {rest : List UInt8}, buf.drop a = enc s ++ rest →
      ∃ x, R buf a (a + (enc s).length) x) {rest : List UInt8} (hdrop : buf.drop a = ss.flatMap enc ++ rest) :
    ∃ xs, xs.length = ss.length ∧ Tiles (R buf) a (a + (ss.flatMap enc).length) xs := by
  induction ss generalizing a with
  | nil => exact ⟨[], rfl, .nil⟩
  | cons s ss ih =>
    rw [List.flatMap_cons, List.append_assoc] at hdrop
    obtain ⟨x, hx⟩ := h s List.mem_cons_self hdrop
    obtain ⟨xs, hlen, hxs⟩ := ih (fun t ht => h t (List.mem_cons_of_mem s ht)) (drop_of_append hdrop)
    refine ⟨x :: xs, congrArg (· + 1) hlen, .cons hx ?_⟩
    rw [List.flatMap_cons, List.length_append, ← Nat.add_assoc]
    exact hxs

/-! ### Words turned round -/

/-- A buffer with some of its words, each a position and a width, turned round. -/
def turnAll (fields : List (ℕ × ℕ)) (buf : List UInt8) : List UInt8 :=
  fields.foldl (fun buf f => reverseAt f.1 f.2 buf) buf

/-- Words that stand one behind another between two positions. -/
def Apart : ℕ → ℕ → List (ℕ × ℕ) → Prop
  | a, b, [] => a ≤ b
  | a, b, f :: fields => a ≤ f.1 ∧ Apart (f.1 + f.2) b fields

instance decidableApart : (a b : ℕ) → (fields : List (ℕ × ℕ)) → Decidable (Apart a b fields)
  | a, b, [] => inferInstanceAs (Decidable (a ≤ b))
  | a, b, f :: fields =>
    have := decidableApart (f.1 + f.2) b fields
    inferInstanceAs (Decidable (a ≤ f.1 ∧ Apart (f.1 + f.2) b fields))

theorem Apart.le (h : Apart a b fields) : a ≤ b := by
  induction fields generalizing a with
  | nil => exact h
  | cons f fields ih =>
    have hrest := ih h.2
    have hfirst := h.1
    omega

theorem Apart.mono {a' b' : ℕ} (h : Apart a b fields) (ha : a' ≤ a) (hb : b ≤ b') : Apart a' b' fields := by
  induction fields generalizing a a' with
  | nil => exact ha.trans (h.le.trans hb)
  | cons f fields ih => exact ⟨ha.trans h.1, ih h.2 le_rfl⟩

theorem Apart.append {c : ℕ} {fields' : List (ℕ × ℕ)} (h : Apart a b fields) (h' : Apart b c fields') :
    Apart a c (fields ++ fields') := by
  induction fields generalizing a with
  | nil => exact h'.mono h le_rfl
  | cons f fields ih => exact ⟨h.1, ih h.2⟩

theorem Apart.mem (h : Apart a b fields) {f : ℕ × ℕ} (hf : f ∈ fields) : a ≤ f.1 ∧ f.1 + f.2 ≤ b := by
  induction fields generalizing a with
  | nil => cases hf
  | cons g fields ih =>
    have hfirst := h.1
    rcases List.mem_cons.mp hf with rfl | hf
    · exact ⟨hfirst, Apart.le h.2⟩
    · obtain ⟨hle, hend⟩ := ih h.2 hf
      exact ⟨by omega, hend⟩

theorem turnAll_append (fields fields' : List (ℕ × ℕ)) (buf : List UInt8) :
    turnAll (fields ++ fields') buf = turnAll fields' (turnAll fields buf) :=
  List.foldl_append

theorem turnAll_keeps (h : Apart a b fields) (hb : b ≤ buf.length) :
    (turnAll fields buf).length = buf.length ∧ (turnAll fields buf).take a = buf.take a
      ∧ (turnAll fields buf).drop b = buf.drop b := by
  induction fields generalizing a buf with
  | nil => exact ⟨rfl, rfl, rfl⟩
  | cons f fields ih =>
    have hroom : f.1 + f.2 ≤ buf.length := (Apart.le h.2).trans hb
    have hlen := length_reverseAt hroom
    obtain ⟨hlen', htake, hdrop⟩ := ih h.2 (hlen.symm ▸ hb)
    have hfront : a ≤ f.1 + f.2 := h.1.trans (Nat.le_add_right _ _)
    refine ⟨hlen'.trans hlen, (take_eq_of_le htake hfront).trans (take_reverseAt hroom h.1), ?_⟩
    exact hdrop.trans (drop_reverseAt hroom (Apart.le h.2))

theorem slice_turnAll_mem (h : Apart a b fields) (hb : b ≤ buf.length) {f : ℕ × ℕ} (hf : f ∈ fields) :
    slice (turnAll fields buf) f.1 f.2 = (slice buf f.1 f.2).reverse := by
  induction fields generalizing a buf with
  | nil => cases hf
  | cons g fields ih =>
    have hroom : g.1 + g.2 ≤ buf.length := (Apart.le h.2).trans hb
    have hlen := length_reverseAt hroom
    rcases List.mem_cons.mp hf with rfl | hf
    · have hfront := (turnAll_keeps h.2 (hlen.symm ▸ hb)).2.1
      exact (slice_eq_of_take hfront le_rfl).trans (slice_reverseAt_self hroom)
    · have hbehind := (Apart.mem h.2 hf).1
      rw [← slice_reverseAt_other hroom (.inr hbehind)]
      exact ih h.2 (hlen.symm ▸ hb) hf

theorem slice_turnAll_other (hb : ∀ f ∈ fields, f.1 + f.2 ≤ buf.length) {j m : ℕ}
    (hj : ∀ f ∈ fields, j + m ≤ f.1 ∨ f.1 + f.2 ≤ j) : slice (turnAll fields buf) j m = slice buf j m := by
  induction fields generalizing buf with
  | nil => rfl
  | cons f fields ih =>
    have hroom := hb f List.mem_cons_self
    have hrest : ∀ g ∈ fields, g.1 + g.2 ≤ (reverseAt f.1 f.2 buf).length := fun g hg => by
      rw [length_reverseAt hroom]
      exact hb g (List.mem_cons_of_mem f hg)
    exact (ih hrest fun g hg => hj g (List.mem_cons_of_mem f hg)).trans
      (slice_reverseAt_other hroom (hj f List.mem_cons_self))

/-! ### Iterators -/

/-- What `for (pos = first, idx = 0; pos; pos = next(pos, ++idx))` goes over. -/
inductive ForEach (next : ℕ → ℕ → Option ℕ) : ℕ → Option ℕ → List ℕ → Prop
  | stop {idx : ℕ} : ForEach next idx none []
  | go {idx pos : ℕ} {ps : List ℕ} (rest : ForEach next (idx + 1) (next pos (idx + 1)) ps) :
    ForEach next idx (some pos) (pos :: ps)

/-- The same loop, as far as `fuel` rounds. -/
def forEachList (next : ℕ → ℕ → Option ℕ) : ℕ → ℕ → Option ℕ → List ℕ
  | _, _, none => []
  | 0, _, some _ => []
  | fuel + 1, idx, some pos => pos :: forEachList next fuel (idx + 1) (next pos (idx + 1))

theorem ForEach.list_eq {next : ℕ → ℕ → Option ℕ} {idx : ℕ} {start : Option ℕ} {ps : List ℕ}
    (h : ForEach next idx start ps) {fuel : ℕ} (hfuel : ps.length ≤ fuel) :
    forEachList next fuel idx start = ps := by
  induction h generalizing fuel with
  | stop => cases fuel <;> rfl
  | go rest ih =>
    cases fuel with
    | zero => cases hfuel
    | succ fuel => rw [forEachList, ih (Nat.le_of_succ_le_succ hfuel)]

section Until

variable {R : ℕ → ℕ → τ → Prop} {a stop last : ℕ} {xs : List τ} {pos : τ → ℕ} {next : ℕ → ℕ → Option ℕ}

theorem Tiles.le_of_lt (h : Tiles R a stop xs) (hpos : ∀ {i j : ℕ} {x : τ}, R i j x → pos x = i ∧ i < j) :
    a ≤ stop := by
  induction h with
  | nil => exact le_rfl
  | cons first rest ih => exact (hpos first).2.le.trans ih

theorem Tiles.le_pos (h : Tiles R a stop xs) (hpos : ∀ {i j : ℕ} {x : τ}, R i j x → pos x = i ∧ i < j) {x : τ}
    (hx : x ∈ xs) : a ≤ pos x := by
  obtain ⟨i, j, hi, -, hR⟩ := h.of_mem (fun hR => (hpos hR).2.le) hx
  exact hi.trans (hpos hR).1.ge

theorem Tiles.forEach_until (h : Tiles R a stop xs) (hpos : ∀ {i j : ℕ} {x : τ}, R i j x → pos x = i ∧ i < j)
    (hnext : ∀ {i j : ℕ} {x : τ} (idx : ℕ), R i j x → next i idx = if last ≤ j then none else some j)
    (hlt : ∀ x ∈ xs, pos x < last) (hlast : last ≤ stop) (idx : ℕ) :
    ForEach next idx (if last ≤ a then none else some a) (xs.map pos) := by
  induction h generalizing idx with
  | nil =>
    rw [if_pos hlast]
    exact .stop
  | @cons a b c x xs first rest ih =>
    have hx := hlt x List.mem_cons_self
    have hopen : ¬ last ≤ a := by
      rw [← (hpos first).1]
      exact not_le.mpr hx
    rw [if_neg hopen, List.map_cons, (hpos first).1]
    refine .go ?_
    rw [hnext (idx + 1) first]
    exact ih (fun y hy => hlt y (List.mem_cons_of_mem x hy)) hlast (idx + 1)

/-- **Only such a position** makes the iterator come to all the records and not to the end of them. -/
theorem Tiles.until_of_forEach (h : Tiles R a stop xs) (hpos : ∀ {i j : ℕ} {x : τ}, R i j x → pos x = i ∧ i < j)
    (hnext : ∀ {i j : ℕ} {x : τ} (idx : ℕ), R i j x → next i idx = if last ≤ j then none else some j)
    {idx : ℕ} {ps : List ℕ} (hps : ForEach next idx (if last ≤ a then none else some a) ps)
    (hall : ∀ x ∈ xs, pos x ∈ ps) (hstop : stop ∉ ps) : (∀ x ∈ xs, pos x < last) ∧ last ≤ stop := by
  induction h generalizing idx ps with
  | @nil a =>
    refine ⟨fun x hx => absurd hx List.not_mem_nil, ?_⟩
    by_contra hopen
    rw [if_neg hopen] at hps
    cases hps with
    | go rest => exact hstop List.mem_cons_self
  | @cons a b c x xs first rest ih =>
    have hx := hall x List.mem_cons_self
    by_cases hopen : last ≤ a
    · rw [if_pos hopen] at hps
      cases hps
      exact absurd hx List.not_mem_nil
    · rw [if_neg hopen] at hps
      cases hps with
      | @go _ _ qs hrest =>
        rw [hnext (idx + 1) first] at hrest
        have hbehind : ∀ y ∈ xs, pos y ∈ qs := by
          intro y hy
          have hle := rest.le_pos hpos hy
          have hlt := (hpos first).2
          rcases List.mem_cons.mp (hall y (List.mem_cons_of_mem x hy)) with heq | hmem
          · omega
          · exact hmem
        obtain ⟨hlt, hlast⟩ := ih hrest hbehind fun hmem => hstop (List.mem_cons_of_mem a hmem)
        refine ⟨fun y hy => ?_, hlast⟩
        rcases List.mem_cons.mp hy with rfl | hy
        · rw [(hpos first).1]
          exact not_le.mp hopen
        · exact hlt y hy

end Until

theorem Tiles.forEach_below {stop : ℕ} (h : Tiles R a stop xs) (pos : τ → ℕ) (next : ℕ → ℕ → Option ℕ)
    (hpos : ∀ {i j : ℕ} {x : τ}, R i j x → pos x = i ∧ i < j)
    (hnext : ∀ {i j : ℕ} {x : τ} (idx : ℕ), R i j x → next i idx = if stop ≤ j then none else some j) (idx : ℕ) :
    a ≤ stop ∧ ForEach next idx (if stop ≤ a then none else some a) (xs.map pos) := by
  refine ⟨h.le_of_lt hpos, h.forEach_until hpos hnext (fun x hx => ?_) le_rfl idx⟩
  obtain ⟨i, j, -, hj, hR⟩ := h.of_mem (fun hR => (hpos hR).2.le) hx
  obtain ⟨heq, hlt⟩ := hpos hR
  omega

theorem Tiles.forEach_count {count : ℕ} (h : Tiles R a b xs) (pos : τ → ℕ) (next : ℕ → ℕ → Option ℕ)
    (hpos : ∀ {i j : ℕ} {x : τ}, R i j x → pos x = i)
    (hnext : ∀ {i j : ℕ} {x : τ} (idx : ℕ), R i j x → next i idx = if count ≤ idx then none else some j) {idx : ℕ}
    (hcount : idx + xs.length = count) : ForEach next idx (if count ≤ idx then none else some a) (xs.map pos) := by
  induction h generalizing idx with
  | nil =>
    have hdone : count ≤ idx := Nat.le_of_eq hcount.symm
    rw [if_pos hdone]
    exact .stop
  | @cons a b c x xs first rest ih =>
    rw [List.length_cons] at hcount
    have hopen : ¬ count ≤ idx := by omega
    have hmore : idx + 1 + xs.length = count := by omega
    rw [if_neg hopen, List.map_cons, hpos first]
    refine .go ?_
    rw [hnext (idx + 1) first]
    exact ih hmore

end BgtDvb.Walks
