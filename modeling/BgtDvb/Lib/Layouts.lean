import BgtDvb.Lib.Walks

/-!
# Records written one after another

A buffer is made by writing records one after another; code that goes over it again sees records of its own.

* `tiles_written` — **PROVED**: records written one after another stand end to end;
* `Tiles.matched` — **PROVED**: records end to end, seen as others;
* `times_run` — **PROVED**: a loop over records that leaves them as they are;
* `Tiles.foldl_eq` — **PROVED**: going over the sizes of records ends where they do.

Nothing here names a kind of record.
-/

namespace BgtDvb.Walks

variable {σ τ : Type}

/-! ### Written records -/

/-- A record stands at a position as it was written. -/
def Written (enc : σ → List UInt8) (buf : List UInt8) (a b : ℕ) (s : σ) : Prop :=
  b = a + (enc s).length ∧ ∃ rest, buf.drop a = enc s ++ rest

theorem tiles_written (enc : σ → List UInt8) {buf : List UInt8} (h : buf.drop a = ss.flatMap enc ++ rest) :
    Tiles (Written enc buf) a (a + (ss.flatMap enc).length) ss := by
  induction ss generalizing a with
  | nil => exact .nil
  | cons s ss ih =>
    rw [List.flatMap_cons, List.append_assoc] at h
    rw [List.flatMap_cons, List.length_append, ← Nat.add_assoc]
    exact .cons ⟨rfl, _, h⟩ (ih (drop_of_append h))

theorem Written.le {buf : List UInt8} {s : σ} (h : Written enc buf a b s) : a ≤ b := by
  have hend := h.1
  omega

/-- **Records end to end, seen as others** that stand at the same places. -/
theorem Tiles.matched {R : ℕ → ℕ → σ → Prop} (h : Tiles R a b ss)
    (hR : ∀ i j s, s ∈ ss → R i j s → ∃ x, S i j x ∧ Q x s) : ∃ xs, Tiles S a b xs ∧ List.Forall₂ Q xs ss := by
  induction h with
  | nil => exact ⟨[], .nil, .nil⟩
  | @cons a b c s ss first rest ih =>
    obtain ⟨x, hx, hQ⟩ := hR a b s List.mem_cons_self first
    obtain ⟨xs, hxs, hQs⟩ := ih fun i j t ht => hR i j t (List.mem_cons_of_mem s ht)
    exact ⟨x :: xs, .cons hx hxs, .cons hQ hQs⟩

/-! ### Going over them -/

/-- **A loop over records** that leaves them as they are. -/
theorem times_run {R : ℕ → ℕ → σ → Prop} {buf : List UInt8} (h : Tiles R a b ss)
    (hfwd : ∀ {i j : ℕ} {s : σ}, R i j s → i ≤ j)
    (hbody : ∀ i j s, s ∈ ss → R i j s → j ≤ stop → (body i).run buf = .ok (j, buf)) (hstop : b ≤ stop) :
    (times body ss.length a).run buf = .ok (b, buf) := by
  induction h with
  | nil => rfl
  | @cons a b c s ss first rest ih =>
    have hbc : b ≤ c := (rest.mono (fun _ _ _ _ _ h => h) fun _ _ _ h => hfwd h).1
    rw [List.length_cons, times, run_bind_ok (hbody a b s List.mem_cons_self first (hbc.trans hstop))]
    exact ih (fun i j t ht => hbody i j t (List.mem_cons_of_mem s ht)) hstop

theorem Takes.congr {R : List UInt8 → ℕ → ℕ → τ → Prop} (h : Takes n stop body R eff)
    (heq : ∀ {buf : List UInt8}, buf.length = n → ∀ pos, (body' pos).run buf = (body pos).run buf) :
    Takes n stop body' R eff where
  run {buf} hbuf {pos r} hr := by
    rw [heq hbuf]
    exact h.run hbuf hr
  onward {buf} hbuf {pos r} hr := by
    rw [heq hbuf] at hr
    exact h.onward hbuf hr
  forward := h.forward
  ahead := h.ahead
  keeps := h.keeps

theorem Tiles.foldl_eq {pos : τ → ℕ} (h : Tiles R a b xs)
    (hf : ∀ {i j k : ℕ} {x : τ}, R i j x → base + k = i → base + f k (pos x) = j) (hacc : base + acc = a) :
    base + (xs.map pos).foldl f acc = b := by
  induction h generalizing acc with
  | nil => exact hacc
  | cons first rest ih => exact ih (hf first hacc)

theorem ForEach.congr_upto {next next' : ℕ → ℕ → Option ℕ} {idx last : ℕ} {start : Option ℕ} {ps : List ℕ}
    (h : ForEach next idx start ps) (hlast : idx + ps.length ≤ last)
    (heq : ∀ pos k, k ≤ last → next pos k = next' pos k) : ForEach next' idx start ps := by
  induction h with
  | stop => exact .stop
  | @go idx pos ps rest ih =>
    rw [List.length_cons] at hlast
    apply ForEach.go
    rw [← heq pos (idx + 1) (by omega)]
    exact ih (by omega)

end BgtDvb.Walks
