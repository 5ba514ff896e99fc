import BgtDvb.En50221Session
import BgtDvb.Lib.Walks

/-!
# The walks over received data of EN50221

`en50221_tl_process_data` and `en50221_sl_handle_session_package` as they go over their buffers, with a pointer and a
`uint32_t` of what is left; what a module sends decides about every length.

* `tpduHeader_run`, `apduHeader_run` — **PROVED**: what one round takes;
* `tlProcessData_walk` — **PROVED**: TPDUs stand end to end inside the buffer, up to its end on success;
* `slSessionPackage_walk` — **PROVED**: so do APDUs, up to the end or the first that is malformed, for an active session
  of that slot and connection;
* `tlProcessData_refines`, `apduLoop_apdus` — **PROVED**: it is the walk over a list of bytes.
-/

namespace BgtDvb.En50221

open BgtDvb.Walks

/-! ### Length fields where they stand -/

def byteAt (p : ℕ) : Walk UInt8 := do
  let bytes ← read p 1
  pure (bytes.headD 0)

/-- `asn_1_decode`: the length, and the size of the field. -/
def asn1DecodeAt (p : ℕ) (arrayLen : UInt32) : Walk (UInt16 × ℕ) := do
  require (¬arrayLen < 1)
  let lengthField ← byteAt p
  if lengthField < 0x80 then pure ((lengthField &&& 0x7f).toUInt16, 1)
  else if lengthField = 0x81 then do
    require (¬arrayLen < 2)
    let b ← byteAt (p + 1)
    pure (b.toUInt16, 2)
  else if lengthField = 0x82 then do
    require (¬arrayLen < 3)
    let b ← byteAt (p + 1)
    let b' ← byteAt (p + 2)
    pure ((b.toUInt16 <<< 8) ||| b'.toUInt16, 3)
  else halt .refused

section Asn1

variable {buf rest : List UInt8} {p : ℕ} {b : UInt8} {arrayLen : UInt32}

theorem byteAt_run (h : buf.drop p = b :: rest) : (byteAt p).run buf = .ok (b, buf) := by
  have hlen := congrArg List.length h
  rw [List.length_drop, List.length_cons] at hlen
  have hread : (read p 1).run buf = .ok (slice buf p 1, buf) := read_ok_iff.mpr ⟨by omega, rfl⟩
  have hslice : slice buf p 1 = [b] := by
    rw [slice, h]
    rfl
  rw [byteAt, run_bind_ok hread, hslice]
  rfl

theorem drop_next (h : buf.drop p = b :: rest) : buf.drop (p + 1) = rest := by
  rw [← List.drop_drop, h]
  rfl

theorem require_run {q : Prop} [Decidable q] (h : q) : (require q).run buf = .ok ((), buf) := require_ok_iff.mpr ⟨h, rfl⟩

theorem require_refused {q : Prop} [Decidable q] (h : ¬q) : (require q).run buf = .error .refused := by
  rw [require, if_neg h]
  rfl

theorem length_of_drop {n : ℕ} (hend : p + n = buf.length) : (buf.drop p).length = n := by
  rw [List.length_drop]
  omega

/-- **`asn_1_decode` where the field stands** is `asn_1_decode` of what is left; it uses up to three bytes of that. -/
theorem asn1DecodeAt_run (hend : p + arrayLen.toNat = buf.length) :
    (asn1Decode (buf.drop p) = none ∧ (asn1DecodeAt p arrayLen).run buf = .error .refused) ∨
    ∃ n k, asn1Decode (buf.drop p) = some (n.toNat, k) ∧ (asn1DecodeAt p arrayLen).run buf = .ok ((n, k), buf) ∧
      1 ≤ k ∧ k ≤ arrayLen.toNat := by
  have hlen := length_of_drop hend
  have hone : (1 : UInt32).toNat = 1 := rfl
  have htwo : (2 : UInt32).toNat = 2 := rfl
  have hthree : (3 : UInt32).toNat = 3 := rfl
  unfold asn1DecodeAt
  cases hdrop : buf.drop p with
  | nil =>
    rw [hdrop, List.length_nil] at hlen
    have hshort : ¬¬arrayLen < 1 := not_not_intro (UInt32.lt_iff_toNat_lt.mpr (by omega))
    exact Or.inl ⟨rfl, run_bind_error (require_refused hshort)⟩
  | cons a rest =>
    rw [hdrop, List.length_cons] at hlen
    have hroom : ¬arrayLen < 1 := fun hno => by
      have hlt := UInt32.lt_iff_toNat_lt.mp hno
      omega
    have hnext := drop_next hdrop
    rw [run_bind_ok (require_run hroom), run_bind_ok (byteAt_run hdrop), asn1Decode.eq_def]
    dsimp only
    by_cases hshort : a < 0x80
    · rw [if_pos hshort, if_pos hshort]
      refine Or.inr ⟨(a &&& 0x7f).toUInt16, 1, ?_, rfl, le_rfl, by omega⟩
      rw [UInt8.toNat_toUInt16]
    · rw [if_neg hshort, if_neg hshort]
      by_cases h81 : a = 0x81
      · rw [if_pos h81, if_pos h81]
        cases rest with
        | nil =>
          rw [List.length_nil] at hlen
          have hless : ¬¬arrayLen < 2 := not_not_intro (UInt32.lt_iff_toNat_lt.mpr (by omega))
          exact Or.inl ⟨rfl, run_bind_error (require_refused hless)⟩
        | cons b rest =>
          rw [List.length_cons] at hlen
          have hmore : ¬arrayLen < 2 := fun hno => by
            have hlt := UInt32.lt_iff_toNat_lt.mp hno
            omega
          rw [run_bind_ok (require_run hmore), run_bind_ok (byteAt_run hnext)]
          refine Or.inr ⟨b.toUInt16, 2, ?_, rfl, by omega, by omega⟩
          rw [UInt8.toNat_toUInt16]
      · rw [if_neg h81, if_neg h81]
        by_cases h82 : a = 0x82
        · rw [if_pos h82, if_pos h82]
          by_cases hless : arrayLen < 3
          · have hlt := UInt32.lt_iff_toNat_lt.mp hless
            refine Or.inl ⟨?_, run_bind_error (require_refused (not_not_intro hless))⟩
            cases rest with
            | nil => rfl
            | cons b rest =>
              cases rest with
              | nil => rfl
              | cons b' rest =>
                rw [List.length_cons, List.length_cons] at hlen
                omega
          · have hmore : 3 ≤ arrayLen.toNat := not_lt.mp fun hno => hless (UInt32.lt_iff_toNat_lt.mpr hno)
            obtain ⟨b, b', rest, rfl⟩ : ∃ b b' rest', rest = b :: b' :: rest' := by
              cases rest with
              | nil =>
                rw [List.length_nil] at hlen
                omega
              | cons b rest =>
                cases rest with
                | nil =>
                  rw [List.length_cons, List.length_nil] at hlen
                  omega
                | cons b' rest => exact ⟨b, b', rest, rfl⟩
            rw [run_bind_ok (require_run hless), run_bind_ok (byteAt_run hnext),
              run_bind_ok (byteAt_run (drop_next hnext))]
            refine Or.inr ⟨(b.toUInt16 <<< 8) ||| b'.toUInt16, 3, ?_, rfl, by omega, hmore⟩
            rw [UInt16.toNat_or, UInt16.toNat_shiftLeft, UInt8.toNat_toUInt16, UInt8.toNat_toUInt16]
            have hb := b.toNat_lt
            have hval : b.toNat <<< ((8 : UInt16).toNat % 16) % 2 ^ 16 = b.toNat <<< 8 := by
              show b.toNat <<< 8 % 2 ^ 16 = b.toNat <<< 8
              rw [Nat.shiftLeft_eq]
              omega
            rw [hval]
        · rw [if_neg h82, if_neg h82]
          exact Or.inl ⟨rfl, rfl⟩

end Asn1

/-! ### The transport layer -/

/-- A TPDU where it stands: the size of its length field, tag, connection number, and the length of its payload. -/
structure TpduAt where
  start : ℕ
  fieldLen : ℕ
  tag : UInt8
  conn : UInt8
  length : UInt16
  deriving Repr, DecidableEq

def TpduAt.payload (t : TpduAt) : ℕ := t.start + (1 + t.fieldLen + 1)

def TpduAt.stop (t : TpduAt) : ℕ := t.payload + t.length.toNat

def tpduHeader (data : ℕ) (dataLength : UInt32) : Walk TpduAt := do
  let tpduTag ← byteAt data
  let asn ← asn1DecodeAt (data + 1) (dataLength - 1)
  require (¬(asn.1 < 1 ∨ asn.1.toUInt32 > dataLength - UInt32.ofNat (1 + asn.2)))
  let connectionId ← byteAt (data + 1 + asn.2)
  pure ⟨data, asn.2, tpduTag, connectionId, asn.1 - 1⟩

/-- How a walk ends: it returns, with the state then; or it leaves the buffer, or does not end. -/
inductive WalkEnd (σ : Type)
  | returned (ret : ℤ) (st : σ)
  | outside
  | endless

section Tl

variable {σ : Type}

/-- What the handlers do: a result and a new state, from tag, connection and payload. -/
abbrev TpduHandler (σ : Type) : Type := σ → UInt8 → UInt8 → List UInt8 → ℤ × σ

/-- The loop: what is dispatched, and how it ends.  `fail` sets `error_slot` and `error`. -/
def tlLoop (maxConnections : σ → ℕ) (handle : TpduHandler σ) (fail : σ → ℤ → σ) (buf : List UInt8) :
    ℕ → σ → ℕ → UInt32 → List TpduAt × WalkEnd σ
  | 0, st, _, dataLength => if dataLength = 0 then ([], .returned 0 st) else ([], .endless)
  | fuel + 1, st, data, dataLength =>
    if dataLength = 0 then ([], .returned 0 st)
    else
      match (tpduHeader data dataLength).run buf with
      | .error .refused => ([], .returned (-1) (fail st badCamData))
      | .error .fault => ([], .outside)
      | .error .endless => ([], .endless)
      | .ok (t, _) =>
        if maxConnections st ≤ t.conn.toNat then ([], .returned (-1) (fail st badConnectionId))
        else
          let r := handle st t.tag t.conn (slice buf t.payload t.length.toNat)
          if r.1 < 0 then ([t], .returned (-1) r.2)
          else
            let dataLength := dataLength - UInt32.ofNat (1 + t.fieldLen + 1)
            let rest := tlLoop maxConnections handle fail buf fuel r.2 t.stop (dataLength - t.length.toUInt32)
            (t :: rest.1, rest.2)

/-- `en50221_tl_process_data`; every round takes at least a byte, so there are at most as many rounds as bytes. -/
def tlProcessData (maxConnections : σ → ℕ) (handle : TpduHandler σ) (fail : σ → ℤ → σ) (st : σ) (buf : List UInt8) :
    List TpduAt × WalkEnd σ :=
  tlLoop maxConnections handle fail buf buf.length st 0 (UInt32.ofNat buf.length)

end Tl

/-- Tag, length field, connection number and payload stand in the buffer from one place to another. -/
structure TpduStands (buf : List UInt8) (i j : ℕ) (t : TpduAt) : Prop where
  start : t.start = i
  tag : buf[i]? = some t.tag
  field : asn1Decode (buf.drop (i + 1)) = some (t.length.toNat + 1, t.fieldLen)
  conn : buf[i + 1 + t.fieldLen]? = some t.conn
  stop : j = i + (1 + t.fieldLen + 1 + t.length.toNat)
  inside : j ≤ buf.length

section TlWalk

variable {σ : Type} {buf : List UInt8} {data : ℕ} {dataLength : UInt32}

theorem getElem?_of_drop {b : UInt8} {rest : List UInt8} (h : buf.drop data = b :: rest) : buf[data]? = some b := by
  have hhead : (buf.drop data)[0]? = some b := by rw [h, List.getElem?_cons_zero]
  rwa [List.getElem?_drop, Nat.add_zero] at hhead

theorem tpduHeader_run (hend : data + dataLength.toNat = buf.length) (hmore : dataLength ≠ 0) :
    ((tpduHeader data dataLength).run buf = .error .refused ∧ parseTpdu (buf.drop data) = none) ∨
    ∃ t, (tpduHeader data dataLength).run buf = .ok (t, buf) ∧ TpduStands buf data t.stop t := by
  have hlen := length_of_drop hend
  have hpos : 1 ≤ dataLength.toNat := Nat.one_le_iff_ne_zero.mpr fun hno => hmore (UInt32.toNat_inj.mp hno)
  cases hdrop : buf.drop data with
  | nil =>
    rw [hdrop, List.length_nil] at hlen
    omega
  | cons tag rest =>
    have hone : (dataLength - 1).toNat = dataLength.toNat - 1 := UInt32.toNat_sub_of_le _ _ (UInt32.le_iff_toNat_le.mpr hpos)
    have hleft : data + 1 + (dataLength - 1).toNat = buf.length := by omega
    unfold tpduHeader
    rw [run_bind_ok (byteAt_run hdrop)]
    rcases asn1DecodeAt_run hleft with ⟨hnone, hrefused⟩ | ⟨n, k, hdecode, hrun, hk, hkle⟩
    · rw [drop_next hdrop] at hnone
      refine Or.inl ⟨run_bind_error hrefused, ?_⟩
      rw [parseTpdu, hnone]
    · rw [run_bind_ok hrun]
      dsimp only
      have hsize : dataLength.toNat < UInt32.size := dataLength.toNat_lt
      have hfield : (UInt32.ofNat (1 + k)).toNat = 1 + k := UInt32.toNat_ofNat_of_lt' (by omega)
      have hbelow : UInt32.ofNat (1 + k) ≤ dataLength := UInt32.le_iff_toNat_le.mpr (by omega)
      have hsub := UInt32.toNat_sub_of_le _ _ hbelow
      by_cases hbad : n < 1 ∨ n.toUInt32 > dataLength - UInt32.ofNat (1 + k)
      · refine Or.inl ⟨run_bind_error (require_refused (not_not_intro hbad)), ?_⟩
        have hshort : n.toNat < 1 ∨ rest.length - k < n.toNat := by
          refine hbad.imp UInt16.lt_iff_toNat_lt.mp fun hover => ?_
          have hlt := UInt32.lt_iff_toNat_lt.mp hover
          rw [UInt16.toNat_toUInt32, hsub, hfield] at hlt
          rw [hdrop, List.length_cons] at hlen
          omega
        rw [drop_next hdrop] at hdecode
        rw [parseTpdu, hdecode]
        exact if_pos hshort
      · rw [run_bind_ok (require_run hbad)]
        obtain ⟨hn, hfits⟩ := not_or.mp hbad
        have hnpos : 1 ≤ n.toNat := not_lt.mp fun hno => hn (UInt16.lt_iff_toNat_lt.mpr hno)
        have hnle : n.toNat ≤ dataLength.toNat - (1 + k) := by
          have hle := not_lt.mp fun hno => hfits (UInt32.lt_iff_toNat_lt.mpr hno)
          rwa [UInt16.toNat_toUInt32, hsub, hfield] at hle
        have hnsub : (n - 1).toNat = n.toNat - 1 := UInt16.toNat_sub_of_le _ _ (UInt16.le_iff_toNat_le.mpr hnpos)
        cases hconn : buf.drop (data + 1 + k) with
        | nil =>
          have hnone := congrArg List.length hconn
          rw [List.length_drop, List.length_nil] at hnone
          omega
        | cons conn payload =>
          rw [run_bind_ok (byteAt_run hconn)]
          refine Or.inr ⟨⟨data, k, tag, conn, n - 1⟩, rfl, rfl, getElem?_of_drop hdrop, ?_, getElem?_of_drop hconn, ?_, ?_⟩
          · dsimp only
            rw [hnsub, Nat.sub_add_cancel hnpos, hdecode]
          · exact Nat.add_assoc _ _ _
          · show data + (1 + k + 1) + (n - 1).toNat ≤ buf.length
            omega

theorem TpduStands.left {t : TpduAt} (h : TpduStands buf data t.stop t) (hend : data + dataLength.toNat = buf.length) :
    t.stop + (dataLength - UInt32.ofNat (1 + t.fieldLen + 1) - t.length.toUInt32).toNat = buf.length ∧
      (dataLength - UInt32.ofNat (1 + t.fieldLen + 1) - t.length.toUInt32).toNat < dataLength.toNat := by
  have hstop := h.stop
  have hinside := h.inside
  have hsize : dataLength.toNat < UInt32.size := dataLength.toNat_lt
  have hfield : (UInt32.ofNat (1 + t.fieldLen + 1)).toNat = 1 + t.fieldLen + 1 := UInt32.toNat_ofNat_of_lt' (by omega)
  have hfirst := UInt32.toNat_sub_of_le dataLength (UInt32.ofNat (1 + t.fieldLen + 1))
    (UInt32.le_iff_toNat_le.mpr (by omega))
  have hlength : t.length.toUInt32.toNat = t.length.toNat := UInt16.toNat_toUInt32 _
  have hsecond := UInt32.toNat_sub_of_le (dataLength - UInt32.ofNat (1 + t.fieldLen + 1)) t.length.toUInt32
    (UInt32.le_iff_toNat_le.mpr (by omega))
  omega

/-- What holds of a walk from a place on: it returns, and what it dispatched stands end to end, up to the end of the buffer
if it succeeds. -/
def TlWalked (buf : List UInt8) (data : ℕ) (r : List TpduAt × WalkEnd σ) : Prop :=
  ∃ ret st stop, r.2 = .returned ret st ∧ Tiles (TpduStands buf) data stop r.1 ∧ stop ≤ buf.length ∧
    (ret = 0 → stop = buf.length)

theorem tlLoop_walk (maxConnections : σ → ℕ) (handle : TpduHandler σ) (fail : σ → ℤ → σ) (fuel : ℕ) (st : σ)
    (hend : data + dataLength.toNat = buf.length) (hfuel : dataLength.toNat ≤ fuel) :
    TlWalked buf data (tlLoop maxConnections handle fail buf fuel st data dataLength) := by
  induction fuel generalizing st data dataLength with
  | zero =>
    have hdone : dataLength = 0 := UInt32.toNat_inj.mp (Nat.le_zero.mp hfuel)
    rw [tlLoop, if_pos hdone]
    subst hdone
    exact ⟨0, st, data, rfl, .nil, hend.le, fun _ => hend⟩
  | succ fuel ih =>
    rw [tlLoop]
    by_cases hdone : dataLength = 0
    · rw [if_pos hdone]
      subst hdone
      exact ⟨0, st, data, rfl, .nil, hend.le, fun _ => hend⟩
    · rw [if_neg hdone]
      have hminus : (-1 : ℤ) ≠ 0 := by decide
      rcases tpduHeader_run hend hdone with ⟨hrun, -⟩ | ⟨t, hrun, hstands⟩
      · rw [hrun]
        exact ⟨-1, _, data, rfl, .nil, by omega, fun hno => absurd hno hminus⟩
      · rw [hrun]
        dsimp only
        by_cases hconn : maxConnections st ≤ t.conn.toNat
        · rw [if_pos hconn]
          exact ⟨-1, _, data, rfl, .nil, by omega, fun hno => absurd hno hminus⟩
        · rw [if_neg hconn]
          by_cases hret : (handle st t.tag t.conn (slice buf t.payload t.length.toNat)).1 < 0
          · rw [if_pos hret]
            exact ⟨-1, _, t.stop, rfl, .cons hstands .nil, hstands.inside, fun hno => absurd hno hminus⟩
          · rw [if_neg hret]
            obtain ⟨hnext, hless⟩ := hstands.left hend
            obtain ⟨ret, st', stop, hreturned, htiles, hstop, hsuccess⟩ :=
              ih (handle st t.tag t.conn (slice buf t.payload t.length.toNat)).2 hnext (by omega)
            exact ⟨ret, st', stop, hreturned, .cons hstands htiles, hstop, hsuccess⟩

/-- **PROVED**: whatever the handlers do, the walk over a buffer ends without leaving it; the TPDUs that it dispatches
stand end to end from the beginning on, and up to the end if it returns 0. -/
theorem tlProcessData_walk (maxConnections : σ → ℕ) (handle : TpduHandler σ) (fail : σ → ℤ → σ) (st : σ)
    (buf : List UInt8) (hlen : buf.length < 2 ^ 32) : TlWalked buf 0 (tlProcessData maxConnections handle fail st buf) := by
  have hnat : (UInt32.ofNat buf.length).toNat = buf.length := UInt32.toNat_ofNat_of_lt' hlen
  exact tlLoop_walk maxConnections handle fail buf.length st (by rw [hnat, Nat.zero_add]) hnat.le

/-- Two TPDUs, of which the handlers take both. -/
theorem tlProcessData_walk_two :
    (tlProcessData (fun _ => 4) (fun (st : ℕ) _ _ _ => (0, st + 1)) (fun st _ => st) 0 [0x80, 2, 1, 0, 0xa0, 1, 1]).1.length
      = 2 ∧
    TlWalked [0x80, 2, 1, 0, 0xa0, 1, 1] 0
      (tlProcessData (fun _ => 4) (fun (st : ℕ) _ _ _ => (0, st + 1)) (fun st _ => st) 0 [0x80, 2, 1, 0, 0xa0, 1, 1]) :=
  ⟨by decide, tlProcessData_walk _ _ _ _ _ (by decide)⟩

theorem TpduStands.parse {i j : ℕ} {t : TpduAt} (h : TpduStands buf i j t) : parseTpdu (buf.drop i) =
    some (⟨t.tag, t.conn, slice buf t.payload t.length.toNat⟩, buf.drop t.stop) := by
  have hstart := h.start
  have hstop := h.stop
  have hinside := h.inside
  obtain ⟨hi, htag⟩ := List.getElem?_eq_some_iff.mp h.tag
  have hdrop : buf.drop i = t.tag :: buf.drop (i + 1) := by rw [List.drop_eq_getElem_cons hi, htag]
  obtain ⟨hc, hconn⟩ := List.getElem?_eq_some_iff.mp h.conn
  have hbody : (buf.drop (i + 1)).drop t.fieldLen = t.conn :: buf.drop t.payload := by
    have hpayload : t.payload = i + 1 + t.fieldLen + 1 := by
      unfold TpduAt.payload
      omega
    rw [List.drop_drop, List.drop_eq_getElem_cons hc, hconn, hpayload]
  have hroom : ¬(t.length.toNat + 1 < 1 ∨ (buf.drop (i + 1)).length - t.fieldLen < t.length.toNat + 1) := by
    rw [List.length_drop]
    omega
  rw [hdrop, parseTpdu, h.field]
  dsimp only
  rw [if_neg hroom, hbody]
  dsimp only
  rw [Nat.add_sub_cancel, List.drop_drop]
  rfl

end TlWalk

section Refines

variable {buf : List UInt8} {data : ℕ} {dataLength : UInt32}

/-- The handlers of the transport layer; `crash` stands for what follows the use of a buffer that was freed. -/
def tlHandler (link : Link) (slot : ℕ) (crash : ℤ × Tl) : TpduHandler Tl := fun tl tag conn payload =>
  (handleTpdu link tl (slot, conn.toNat) tag payload).getD crash

/-- `error_slot` and `error` of the transport layer. -/
def tlFail (slot : ℕ) (tl : Tl) (err : ℤ) : Tl := (tl.fail slot err).2

theorem tlLoop_refines (link : Link) (slot : ℕ) (crash : ℤ × Tl) (fuel : ℕ) {tl : Tl} {r : ℤ × Tl}
    (hend : data + dataLength.toNat = buf.length) (hrun : processLoop link slot fuel tl (buf.drop data) = some r) :
    (tlLoop Tl.maxConnections (tlHandler link slot crash) (tlFail slot) buf fuel tl data dataLength).2 =
      .returned r.1 r.2 := by
  induction fuel generalizing tl data dataLength with
  | zero =>
    cases hdrop : buf.drop data with
    | nil =>
      have hzero := length_of_drop hend
      rw [hdrop, List.length_nil] at hzero
      rw [hdrop] at hrun
      obtain rfl : (0, tl) = r := Option.some.inj hrun
      rw [tlLoop, if_pos (UInt32.toNat_inj.mp hzero.symm)]
    | cons b bs =>
      rw [hdrop] at hrun
      exact absurd hrun.symm (Option.some_ne_none r)
  | succ fuel ih =>
    have hlen := length_of_drop hend
    rw [tlLoop]
    by_cases hdone : dataLength = 0
    · have hnil : buf.drop data = [] := List.eq_nil_of_length_eq_zero (by rw [hlen, hdone]; rfl)
      rw [hnil] at hrun
      obtain rfl : (0, tl) = r := Option.some.inj hrun
      rw [if_pos hdone]
    · rw [if_neg hdone]
      cases hdrop : buf.drop data with
      | nil =>
        rw [hdrop, List.length_nil] at hlen
        exact absurd (UInt32.toNat_inj.mp hlen.symm) hdone
      | cons b bs =>
        rw [hdrop, processLoop, ← hdrop] at hrun
        rcases tpduHeader_run hend hdone with ⟨hheader, hparse⟩ | ⟨t, hheader, hstands⟩
        · rw [hparse] at hrun
          obtain rfl := Option.some.inj hrun
          rw [hheader]
          rfl
        · rw [hstands.parse] at hrun
          rw [hheader]
          dsimp only [dispatch] at hrun ⊢
          by_cases hconn : tl.maxConnections ≤ t.conn.toNat
          · rw [if_pos hconn] at hrun ⊢
            obtain rfl := Option.some.inj hrun
            rfl
          · rw [if_neg hconn] at hrun ⊢
            rw [tlHandler]
            cases hhandle : handleTpdu link tl (slot, t.conn.toNat) t.tag (slice buf t.payload t.length.toNat) with
            | none =>
              rw [Tpdu.id, hhandle] at hrun
              exact absurd hrun.symm (Option.some_ne_none r)
            | some o =>
              rw [Tpdu.id, hhandle] at hrun
              dsimp only [Option.getD_some] at hrun ⊢
              by_cases hret : o.1 < 0
              · rw [if_pos hret] at hrun ⊢
                obtain rfl := Option.some.inj hrun
                rfl
              · rw [if_neg hret] at hrun ⊢
                exact ih (hstands.left hend).1 hrun

/-- **The same walk**, over the buffer and over a list of bytes. -/
theorem tlProcessData_refines (link : Link) (slot : ℕ) (crash : ℤ × Tl) {tl : Tl} {r : ℤ × Tl}
    (hlen : buf.length < 2 ^ 32) (hrun : processData link slot tl buf = some r) :
    (tlProcessData Tl.maxConnections (tlHandler link slot crash) (tlFail slot) tl buf).2 = .returned r.1 r.2 := by
  have hnat : (UInt32.ofNat buf.length).toNat = buf.length := UInt32.toNat_ofNat_of_lt' hlen
  exact tlLoop_refines link slot crash buf.length (by rw [hnat, Nat.zero_add]) hrun

/-- The end of an object and a status, on a connection that is active. -/
theorem tlProcessData_refines_data : ∃ r, processData ⟨fun _ => true, fun n => n⟩ 0
    ⟨2, fun _ => ⟨.active, 0, .null, 0⟩, true, 0, 0, [], []⟩ [0xa0, 3, 1, 5, 6, 0x80, 2, 1, 0x80] = some r ∧
      r.1 = 0 ∧ r.2.calls.length = 1 ∧ r.2.sent.length = 1 ∧
      (tlProcessData Tl.maxConnections (tlHandler ⟨fun _ => true, fun n => n⟩ 0 r) (tlFail 0)
        ⟨2, fun _ => ⟨.active, 0, .null, 0⟩, true, 0, 0, [], []⟩ [0xa0, 3, 1, 5, 6, 0x80, 2, 1, 0x80]).2 =
          .returned r.1 r.2 :=
  ⟨_, rfl, rfl, rfl, rfl, tlProcessData_refines _ _ _ (by decide) rfl⟩

end Refines

/-! ### The session layer -/

/-- An APDU where it stands. -/
structure ApduAt where
  start : ℕ
  length : UInt32
  deriving Repr, DecidableEq

def ApduAt.stop (x : ApduAt) : ℕ := x.start + x.length.toNat

def apduHeader (data : ℕ) (dataLength : UInt32) : Walk ApduAt := do
  require (¬dataLength < 3)
  let asn ← asn1DecodeAt (data + 3) (dataLength - 3)
  require (¬UInt32.ofNat (3 + asn.2) + asn.1.toUInt32 > dataLength)
  pure ⟨data, UInt32.ofNat (3 + asn.2) + asn.1.toUInt32⟩

/-- The loop: what is passed up, and why it ends before all is done, if it does. -/
def apduLoop (buf : List UInt8) : ℕ → ℕ → UInt32 → List ApduAt × Option Stop
  | 0, _, dataLength => if dataLength = 0 then ([], none) else ([], some .endless)
  | fuel + 1, data, dataLength =>
    if dataLength = 0 then ([], none)
    else
      match (apduHeader data dataLength).run buf with
      | .error s => ([], some s)
      | .ok (x, _) =>
        let rest := apduLoop buf fuel x.stop (dataLength - x.length)
        (x :: rest.1, rest.2)

def packageHeader (data : ℕ) (dataLength : UInt32) : Walk UInt16 := do
  require (¬dataLength < 3)
  let length ← byteAt data
  require (¬length ≠ 2)
  let hi ← byteAt (data + 1)
  let lo ← byteAt (data + 2)
  pure (word16 hi lo)

/-- An APDU as it is passed up. -/
structure HandUp where
  callback : ℕ
  slotId : UInt8
  number : ℕ
  resourceId : UInt32
  apdu : ApduAt
  deriving Repr, DecidableEq

/-- `en50221_sl_handle_session_package`; the callback of the session is read once, before the loop. -/
def slSessionPackage (sl : Sl) (slot conn : UInt8) (buf : List UInt8) (data : ℕ) (dataLength : UInt32) :
    List HandUp × Option Stop :=
  match (packageHeader data dataLength).run buf with
  | .error s => ([], some s)
  | .ok (nb, _) =>
    let n := nb.toNat
    let s := sl.sessions n
    if n ≥ sl.maxSessions then ([], some .refused)
    else if slot ≠ s.slotId then ([], some .refused)
    else if conn ≠ s.connectionId then ([], some .refused)
    else if s.state ≠ .active then ([], some .refused)
    else
      let r := apduLoop buf (dataLength - 3).toNat (data + 3) (dataLength - 3)
      match s.callback with
      | none => ([], r.2)
      | some cb => (r.1.map fun x => ⟨cb, slot, n, s.resourceId, x⟩, r.2)

/-- Three bytes of tag, a length field and as many bytes stand in the buffer from one place to another. -/
structure ApduStands (buf : List UInt8) (i j : ℕ) (x : ApduAt) : Prop where
  start : x.start = i
  field : ∃ n k, asn1Decode (buf.drop (i + 3)) = some (n, k) ∧ x.length.toNat = 3 + k + n
  stop : j = i + x.length.toNat
  inside : j ≤ buf.length

def Malformed (buf : List UInt8) (i : ℕ) : Prop := ∀ j x, ¬ApduStands buf i j x

section SlWalk

variable {buf : List UInt8} {data : ℕ} {dataLength : UInt32}

theorem sub_three (h : ¬dataLength < 3) : 3 ≤ dataLength.toNat ∧ (dataLength - 3).toNat = dataLength.toNat - 3 := by
  have hle : 3 ≤ dataLength.toNat := not_lt.mp fun hno => h (UInt32.lt_iff_toNat_lt.mpr hno)
  exact ⟨hle, UInt32.toNat_sub_of_le _ _ (UInt32.le_iff_toNat_le.mpr hle)⟩

theorem asn1Decode_bound {arr : List UInt8} {n k : ℕ} (h : asn1Decode arr = some (n, k)) : k ≤ 3 ∧ 1 ≤ k := by
  unfold asn1Decode at h
  split at h
  · exact absurd h.symm (Option.some_ne_none _)
  · split at h
    · obtain ⟨-, rfl⟩ := Prod.mk.inj (Option.some.inj h)
      omega
    · split at h
      · split at h
        · exact absurd h.symm (Option.some_ne_none _)
        · obtain ⟨-, rfl⟩ := Prod.mk.inj (Option.some.inj h)
          omega
      · split at h
        · split at h
          · obtain ⟨-, rfl⟩ := Prod.mk.inj (Option.some.inj h)
            omega
          · exact absurd h.symm (Option.some_ne_none _)
        · exact absurd h.symm (Option.some_ne_none _)

/-- **One round**: the next APDU stands where the walk is, or none does and it is refused. -/
theorem apduHeader_run (hend : data + dataLength.toNat = buf.length) :
    ((apduHeader data dataLength).run buf = .error .refused ∧ Malformed buf data) ∨
    ∃ x, (apduHeader data dataLength).run buf = .ok (x, buf) ∧ ApduStands buf data x.stop x := by
  unfold apduHeader
  by_cases hshort : dataLength < 3
  · have hlt := UInt32.lt_iff_toNat_lt.mp hshort
    have hthree : (3 : UInt32).toNat = 3 := rfl
    refine Or.inl ⟨run_bind_error (require_refused (not_not_intro hshort)), fun j x hstands => ?_⟩
    obtain ⟨n, k, -, hlength⟩ := hstands.field
    have hstop := hstands.stop
    have hinside := hstands.inside
    omega
  · obtain ⟨hthree, hsub⟩ := sub_three hshort
    rw [run_bind_ok (require_run hshort)]
    rcases asn1DecodeAt_run (show data + 3 + (dataLength - 3).toNat = buf.length by omega) with
      ⟨hnone, hrefused⟩ | ⟨n, k, hdecode, hrun, -, hk⟩
    · refine Or.inl ⟨run_bind_error hrefused, fun j x hstands => ?_⟩
      obtain ⟨n, k, hsome, -⟩ := hstands.field
      exact absurd (hsome.symm.trans hnone) (Option.some_ne_none _)
    · rw [run_bind_ok hrun]
      dsimp only
      have hbound := (asn1Decode_bound hdecode).1
      have hn := n.toNat_lt
      have hsize : UInt32.size = 4294967296 := rfl
      have hfield : (UInt32.ofNat (3 + k)).toNat = 3 + k := UInt32.toNat_ofNat_of_lt' (by omega)
      -- three bytes of tag, up to three of the field and a `uint16_t` do not wrap
      have hsum : (UInt32.ofNat (3 + k) + n.toUInt32).toNat = 3 + k + n.toNat := by
        rw [UInt32.toNat_add, hfield, UInt16.toNat_toUInt32, Nat.mod_eq_of_lt (by omega)]
      by_cases hover : UInt32.ofNat (3 + k) + n.toUInt32 > dataLength
      · refine Or.inl ⟨run_bind_error (require_refused (not_not_intro hover)), fun j x hstands => ?_⟩
        have hlt := UInt32.lt_iff_toNat_lt.mp hover
        obtain ⟨n', k', hsome, hlength⟩ := hstands.field
        have hsame := Option.some.inj (hsome.symm.trans hdecode)
        have hstop := hstands.stop
        have hinside := hstands.inside
        have hn' := congrArg Prod.fst hsame
        have hk' := congrArg Prod.snd hsame
        dsimp only at hn' hk'
        omega
      · rw [run_bind_ok (require_run hover)]
        have hle := not_lt.mp fun hno => hover (UInt32.lt_iff_toNat_lt.mpr hno)
        refine Or.inr ⟨⟨data, UInt32.ofNat (3 + k) + n.toUInt32⟩, rfl, rfl, ⟨n.toNat, k, hdecode, hsum⟩, rfl, ?_⟩
        show data + (UInt32.ofNat (3 + k) + n.toUInt32).toNat ≤ buf.length
        omega

theorem ApduStands.left {x : ApduAt} (h : ApduStands buf data x.stop x) (hend : data + dataLength.toNat = buf.length) :
    x.stop + (dataLength - x.length).toNat = buf.length ∧ (dataLength - x.length).toNat < dataLength.toNat := by
  have hstop := h.stop
  have hinside := h.inside
  obtain ⟨n, k, -, hlength⟩ := h.field
  have hsub := UInt32.toNat_sub_of_le dataLength x.length (UInt32.le_iff_toNat_le.mpr (by omega))
  omega

theorem apduLoop_walk (fuel : ℕ) (hend : data + dataLength.toNat = buf.length) (hfuel : dataLength.toNat ≤ fuel) :
    ∃ stop, Tiles (ApduStands buf) data stop (apduLoop buf fuel data dataLength).1 ∧ stop ≤ buf.length ∧
      ((apduLoop buf fuel data dataLength).2 = none ∧ stop = buf.length ∨
        (apduLoop buf fuel data dataLength).2 = some .refused ∧ Malformed buf stop) := by
  induction fuel generalizing data dataLength with
  | zero =>
    have hdone : dataLength = 0 := UInt32.toNat_inj.mp (Nat.le_zero.mp hfuel)
    rw [apduLoop, if_pos hdone]
    subst hdone
    exact ⟨data, .nil, hend.le, Or.inl ⟨rfl, hend⟩⟩
  | succ fuel ih =>
    rw [apduLoop]
    by_cases hdone : dataLength = 0
    · rw [if_pos hdone]
      subst hdone
      exact ⟨data, .nil, hend.le, Or.inl ⟨rfl, hend⟩⟩
    · rw [if_neg hdone]
      rcases apduHeader_run hend with ⟨hrun, hmalformed⟩ | ⟨x, hrun, hstands⟩
      · rw [hrun]
        exact ⟨data, .nil, by omega, Or.inr ⟨rfl, hmalformed⟩⟩
      · rw [hrun]
        obtain ⟨hnext, hless⟩ := hstands.left hend
        obtain ⟨stop, htiles, hstop, hreason⟩ := ih hnext (by omega)
        exact ⟨stop, .cons hstands htiles, hstop, hreason⟩

theorem apduLoop_apdus (fuel : ℕ) (hend : data + dataLength.toNat = buf.length) :
    (apduLoop buf fuel data dataLength).1.map (fun x => slice buf x.start x.length.toNat) = apdus fuel (buf.drop data) := by
  induction fuel generalizing data dataLength with
  | zero =>
    rw [apduLoop, apdus]
    split <;> rfl
  | succ fuel ih =>
    have hlen := length_of_drop hend
    rw [apduLoop, apdus]
    by_cases hdone : dataLength = 0
    · rw [if_pos hdone, if_pos (by rw [hlen, hdone]; decide)]
      rfl
    · rw [if_neg hdone]
      rcases apduHeader_run hend with ⟨hrun, hmalformed⟩ | ⟨x, hrun, hstands⟩
      · rw [hrun]
        by_cases hshort : (buf.drop data).length < 3
        · rw [if_pos hshort]
          rfl
        · rw [if_neg hshort]
          cases hdecode : asn1Decode ((buf.drop data).drop 3) with
          | none => rfl
          | some a =>
            obtain ⟨n, k⟩ := a
            have hover : 3 + k + n > (buf.drop data).length := by
              by_contra hno
              have hlt := dataLength.toNat_lt
              have hsize : UInt32.size = 4294967296 := rfl
              have hlength : (UInt32.ofNat (3 + k + n)).toNat = 3 + k + n := UInt32.toNat_ofNat_of_lt' (by omega)
              refine hmalformed (data + (3 + k + n)) ⟨data, UInt32.ofNat (3 + k + n)⟩ ⟨rfl, ⟨n, k, ?_, hlength⟩, ?_, by omega⟩
              · rw [← List.drop_drop]
                exact hdecode
              · rw [hlength]
            dsimp only
            rw [if_pos hover]
            rfl
      · rw [hrun]
        obtain ⟨n, k, hdecode, hlength⟩ := hstands.field
        have hstop := hstands.stop
        have hinside := hstands.inside
        rw [if_neg (by omega), List.drop_drop, hdecode]
        dsimp only
        rw [if_neg (by omega), List.map_cons, ih (hstands.left hend).1, hstands.start, slice, hlength, List.drop_drop,
          hstop, hlength]

theorem packageHeader_run (hend : data + dataLength.toNat = buf.length) :
    (decodeSessionPackage (buf.drop data) = none ∧ (packageHeader data dataLength).run buf = .error .refused) ∨
    ∃ nb, decodeSessionPackage (buf.drop data) = some (nb, buf.drop (data + 3)) ∧ ¬dataLength < 3 ∧
      (packageHeader data dataLength).run buf = .ok (nb, buf) := by
  have hlen := length_of_drop hend
  unfold packageHeader decodeSessionPackage
  by_cases hshort : dataLength < 3
  · have hlt := UInt32.lt_iff_toNat_lt.mp hshort
    refine Or.inl ⟨if_pos ?_, run_bind_error (require_refused (not_not_intro hshort))⟩
    rw [hlen]
    exact hlt
  · obtain ⟨hthree, -⟩ := sub_three hshort
    obtain ⟨a, b, c, rest, hdrop⟩ : ∃ a b c rest, buf.drop data = a :: b :: c :: rest := by
      obtain ⟨a, tail, hcons⟩ := List.exists_cons_of_length_pos (show 0 < (buf.drop data).length by omega)
      have htail := congrArg List.length hcons
      rw [List.length_cons] at htail
      obtain ⟨b, tail, rfl⟩ := List.exists_cons_of_length_pos (show 0 < tail.length by omega)
      rw [List.length_cons] at htail
      obtain ⟨c, rest, rfl⟩ := List.exists_cons_of_length_pos (show 0 < tail.length by omega)
      exact ⟨a, b, c, rest, hcons⟩
    have hnext := drop_next hdrop
    have hlast := drop_next hnext
    rw [run_bind_ok (require_run hshort), run_bind_ok (byteAt_run hdrop), if_neg (by omega), ← List.drop_drop, hdrop]
    by_cases ha : a = 2
    · rw [run_bind_ok (require_run (not_not_intro ha)), run_bind_ok (byteAt_run hnext), run_bind_ok (byteAt_run hlast)]
      exact Or.inr ⟨word16 b c, if_neg (not_not_intro ha), hshort, rfl⟩
    · exact Or.inl ⟨if_pos ha, run_bind_error (require_refused (not_not_intro ha))⟩

/-- The session number names an active session of that slot and connection. -/
def ActiveOn (sl : Sl) (slot conn : UInt8) (n : ℕ) : Prop :=
  n < sl.maxSessions ∧ slot = (sl.sessions n).slotId ∧ conn = (sl.sessions n).connectionId ∧
    (sl.sessions n).state = .active

/-- What holds of the walk over a session package. -/
structure PackageWalked (sl : Sl) (slot conn : UInt8) (buf : List UInt8) (data : ℕ) (r : List HandUp × Option Stop) :
    Prop where
  ends : r.2 = none ∨ r.2 = some .refused
  active : ∀ h ∈ r.1, ∃ nb rest, decodeSessionPackage (buf.drop data) = some (nb, rest) ∧ h.number = nb.toNat ∧
    ActiveOn sl slot conn h.number ∧ h.slotId = slot ∧ h.resourceId = (sl.sessions h.number).resourceId ∧
      (sl.sessions h.number).callback = some h.callback
  tiles : ∃ stop, Tiles (ApduStands buf) (data + 3) stop (r.1.map HandUp.apdu) ∧
    ∀ nb rest, decodeSessionPackage (buf.drop data) = some (nb, rest) → ActiveOn sl slot conn nb.toNat →
      (sl.sessions nb.toNat).callback ≠ none → stop ≤ buf.length ∧ (stop = buf.length ∨ Malformed buf stop)

theorem PackageWalked.refused {sl : Sl} {slot conn : UInt8}
    (h : ∀ nb rest, decodeSessionPackage (buf.drop data) = some (nb, rest) → ¬ActiveOn sl slot conn nb.toNat) :
    PackageWalked sl slot conn buf data ([], some .refused) :=
  ⟨Or.inr rfl, fun _ hmem => absurd hmem List.not_mem_nil, data + 3, .nil,
    fun nb rest hdecode hactive => absurd hactive (h nb rest hdecode)⟩

/-- **PROVED**: the walk over a session package ends without leaving it; the APDUs passed up stand end to end from
behind the header on, up to the end or to a place where none stands; and there are such only if the session number
names an active session of that slot and connection. -/
theorem slSessionPackage_walk (sl : Sl) (slot conn : UInt8) (buf : List UInt8) (data : ℕ) (dataLength : UInt32)
    (hend : data + dataLength.toNat = buf.length) :
    PackageWalked sl slot conn buf data (slSessionPackage sl slot conn buf data dataLength) := by
  unfold slSessionPackage
  rcases packageHeader_run hend with ⟨hnone, hrun⟩ | ⟨nb, hdecode, hshort, hrun⟩
  · rw [hrun]
    exact .refused fun nb rest hsome => absurd (hsome.symm.trans hnone) (Option.some_ne_none _)
  · rw [hrun]
    have hnb : ∀ nb' rest, decodeSessionPackage (buf.drop data) = some (nb', rest) → nb' = nb := fun nb' rest hsome =>
      congrArg Prod.fst (Option.some.inj (hsome.symm.trans hdecode))
    dsimp only
    by_cases hmax : nb.toNat ≥ sl.maxSessions
    · rw [if_pos hmax]
      exact .refused fun nb' rest hsome hno => absurd (hnb nb' rest hsome ▸ hno.1) (not_lt.mpr hmax)
    rw [if_neg hmax]
    by_cases hslot : slot ≠ (sl.sessions nb.toNat).slotId
    · rw [if_pos hslot]
      exact .refused fun nb' rest hsome hno => hslot (hnb nb' rest hsome ▸ hno.2.1)
    rw [if_neg hslot]
    by_cases hconn : conn ≠ (sl.sessions nb.toNat).connectionId
    · rw [if_pos hconn]
      exact .refused fun nb' rest hsome hno => hconn (hnb nb' rest hsome ▸ hno.2.2.1)
    rw [if_neg hconn]
    by_cases hstate : (sl.sessions nb.toNat).state ≠ .active
    · rw [if_pos hstate]
      exact .refused fun nb' rest hsome hno => hstate (hnb nb' rest hsome ▸ hno.2.2.2)
    rw [if_neg hstate]
    have hactive : ActiveOn sl slot conn nb.toNat :=
      ⟨not_le.mp hmax, not_not.mp hslot, not_not.mp hconn, not_not.mp hstate⟩
    obtain ⟨hthree, hsub⟩ := sub_three hshort
    obtain ⟨stop, htiles, hstop, hreason⟩ :=
      apduLoop_walk (dataLength - 3).toNat (show data + 3 + (dataLength - 3).toNat = buf.length by omega) le_rfl
    cases hcallback : (sl.sessions nb.toNat).callback with
    | none =>
      refine ⟨hreason.imp And.left And.left, fun _ hmem => absurd hmem List.not_mem_nil, data + 3, .nil, ?_⟩
      intro nb' rest hsome _ hsome'
      exact absurd (hnb nb' rest hsome ▸ hcallback) hsome'
    | some cb =>
      refine ⟨hreason.imp And.left And.left, fun h hmem => ?_, stop, ?_, fun _ _ _ _ _ => ?_⟩
      · obtain ⟨x, -, rfl⟩ := List.mem_map.mp hmem
        exact ⟨nb, _, hdecode, rfl, hactive, rfl, rfl, hcallback⟩
      · rw [List.map_map]
        exact (List.map_id _).symm ▸ htiles
      · exact ⟨hstop, hreason.imp And.right And.right⟩

/-- A session table with the active session 1. -/
def activeSession : Sl := ⟨2, fun _ => ⟨.active, 0x00010041, 0, 1, some 7⟩, false, 0⟩

/-- Two APDUs of session 1 behind the tag of the package, and two bytes that are none. -/
def twoApdus : List UInt8 :=
  [0x90, 2, 0, 1, 0x9f, 0x80, 0x30, 2, 5, 6, 0x9f, 0x80, 0x31, 0x81, 1, 7, 0x9f, 0x80]

theorem slSessionPackage_walk_two :
    (slSessionPackage activeSession 0 1 twoApdus 1 17).1.map HandUp.apdu = [⟨4, 6⟩, ⟨10, 6⟩] ∧
    (slSessionPackage activeSession 0 1 twoApdus 1 17).2 = some .refused ∧
    PackageWalked activeSession 0 1 twoApdus 1 (slSessionPackage activeSession 0 1 twoApdus 1 17) :=
  ⟨by decide, by decide, slSessionPackage_walk _ _ _ _ _ _ (by decide)⟩

def HandUp.event (buf : List UInt8) (h : HandUp) : SlEvent :=
  .resource h.callback h.slotId h.number h.resourceId (slice buf h.apdu.start h.apdu.length.toNat)

/-- **The same walk**, over the buffer and over a list of bytes. -/
theorem slSessionPackage_refines {sl : Sl} {slot conn : UInt8} {nb : UInt16} {rest : List UInt8}
    (hend : data + dataLength.toNat = buf.length) (hdecode : decodeSessionPackage (buf.drop data) = some (nb, rest)) :
    (slHandleSessionPackage sl slot conn nb rest).2 =
      (slSessionPackage sl slot conn buf data dataLength).1.map (HandUp.event buf) := by
  rcases packageHeader_run hend with ⟨hnone, -⟩ | ⟨nb', hsome, hshort, hrun⟩
  · exact absurd (hdecode.symm.trans hnone) (Option.some_ne_none _)
  obtain ⟨rfl, rfl⟩ := Prod.mk.inj (Option.some.inj (hdecode.symm.trans hsome))
  obtain ⟨hthree, hsub⟩ := sub_three hshort
  have hnext : data + 3 + (dataLength - 3).toNat = buf.length := by omega
  have hapdus := apduLoop_apdus (dataLength - 3).toNat hnext
  unfold slHandleSessionPackage slSessionPackage
  rw [hrun]
  dsimp only
  by_cases hactive : ActiveOn sl slot conn nb.toNat
  · obtain ⟨hmax, hslot, hconn, hstate⟩ := hactive
    have hall : (decide (nb.toNat < sl.maxSessions) && (sl.sessions nb.toNat).isOn slot conn &&
        (sl.sessions nb.toNat).state == .active) = true := by
      rw [Session.isOn, ← hslot, ← hconn, hstate, decide_eq_true hmax, beq_self_eq_true, beq_self_eq_true]
      rfl
    rw [if_pos hall, if_neg (not_le.mpr hmax), if_neg (not_not_intro hslot), if_neg (not_not_intro hconn),
      if_neg (not_not_intro hstate)]
    cases (sl.sessions nb.toNat).callback with
    | none => rfl
    | some cb =>
      dsimp only
      rw [length_of_drop hnext, ← hapdus, List.map_map, List.map_map]
      rfl
  · have hnot : ¬(decide (nb.toNat < sl.maxSessions) && (sl.sessions nb.toNat).isOn slot conn &&
        (sl.sessions nb.toNat).state == .active) = true := fun hno => by
      rw [Bool.and_eq_true, Bool.and_eq_true, decide_eq_true_eq, Session.isOn, Bool.and_eq_true, beq_iff_eq, beq_iff_eq,
        beq_iff_eq] at hno
      exact hactive ⟨hno.1.1, hno.1.2.1, hno.1.2.2, hno.2⟩
    rw [if_neg hnot]
    by_cases hmax : nb.toNat ≥ sl.maxSessions
    · rw [if_pos hmax]
      rfl
    rw [if_neg hmax]
    by_cases hslot : slot ≠ (sl.sessions nb.toNat).slotId
    · rw [if_pos hslot]
      rfl
    rw [if_neg hslot]
    by_cases hconn : conn ≠ (sl.sessions nb.toNat).connectionId
    · rw [if_pos hconn]
      rfl
    rw [if_neg hconn, if_pos fun hstate => hactive ⟨not_le.mp hmax, not_not.mp hslot, not_not.mp hconn, hstate⟩]
    rfl

theorem slSessionPackage_refines_two :
    (slHandleSessionPackage activeSession 0 1 1 (twoApdus.drop 4)).2.length = 2 ∧
    (slHandleSessionPackage activeSession 0 1 1 (twoApdus.drop 4)).2 =
      (slSessionPackage activeSession 0 1 twoApdus 1 17).1.map (HandUp.event twoApdus) :=
  ⟨by decide, slSessionPackage_refines (by decide) (by decide)⟩

end SlWalk

end BgtDvb.En50221
