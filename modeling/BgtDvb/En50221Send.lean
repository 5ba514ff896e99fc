import BgtDvb.En50221Host

/-!
# Data TPDUs, from the send queue to the parser

`en50221_tl_send_data` and `en50221_tl_send_datav` put a payload behind a tag, a length field and the
connection number; `en50221_tl_process_data` takes such a message apart.  The length field counts the
connection number and the payload, and is computed as a `uint16_t`: the size of the payload is not checked.

* `dataMessage_eq_bytes` — **PROVED**: for sizes below 65535 the message is an encoded TPDU;
* `send_roundTrip_iff` — **PROVED**: the round trip holds exactly for payloads of less than 65535 bytes,
  among the calls that pass the checks.
-/

namespace BgtDvb.En50221

/-- The slot is in use, the connection exists and is active, and there is memory for the message. -/
def Accepts (h : Host) (slot conn : UInt8) (mem : Bool) : Prop :=
  slot.toNat < h.maxSlots ∧ (h.slots slot.toNat).caHndl ≠ -1 ∧ conn.toNat < h.tl.maxConnections ∧
    (h.tl.conn (slot.toNat, conn.toNat)).state = .active ∧ mem = true

instance (h : Host) (slot conn : UInt8) (mem : Bool) : Decidable (Accepts h slot conn mem) := by
  unfold Accepts
  infer_instance

/-- What a payload, in whatever pieces, is to become. -/
structure RoundTrip (h : Host) (slot conn : UInt8) (mem : Bool) (iov : List (List UInt8)) : Prop where
  parsed : (sendData h slot conn mem iov.flatten).1 = 0 →
    ∃ msg, (sendData h slot conn mem iov.flatten).2 = queueMessage h (slot.toNat, conn.toNat) msg ∧
      parseTpdu msg = some (⟨tDataLast, conn, iov.flatten⟩, [])
  same : sendDatav h slot conn mem iov = some (sendData h slot conn mem iov.flatten)
  rejected : 65536 ≤ iov.flatten.length + 1 → (sendData h slot conn mem iov.flatten).1 = -1

/-! ### The checks -/

variable {mem : Bool} {h : Host} {slot conn : UInt8} {iov : List (List UInt8)}

theorem sendRefused_of_accepts (ha : Accepts h slot conn mem) : sendRefused h (slot.toNat, conn.toNat) = none := by
  obtain ⟨hslot, hhndl, hconn, hstate, -⟩ := ha
  unfold sendRefused
  rw [if_neg (Nat.not_le_of_lt hslot), if_neg hhndl, if_neg (Nat.not_le_of_lt hconn),
    if_neg (not_not_intro hstate)]

theorem accepts_of_sendRefused (hmem : mem = true) (hr : sendRefused h (slot.toNat, conn.toNat) = none) :
    Accepts h slot conn mem := by
  unfold sendRefused at hr
  split at hr
  · exact absurd hr (by simp)
  · rename_i hslot
    split at hr
    · exact absurd hr (by simp)
    · rename_i hhndl
      split at hr
      · exact absurd hr (by simp)
      · rename_i hconn
        split at hr
        · exact absurd hr (by simp)
        · rename_i hstate
          exact ⟨Nat.lt_of_not_le hslot, hhndl, Nat.lt_of_not_le hconn, not_not.mp hstate, hmem⟩

theorem sendDatav_of_not_accepts (hna : ¬ Accepts h slot conn mem) (iov : List (List UInt8)) :
    sendDatav h slot conn mem iov = some (sendData h slot conn mem iov.flatten) ∧
      (sendData h slot conn mem iov.flatten).1 = -1 := by
  unfold sendDatav sendData
  dsimp only
  cases hr : sendRefused h (slot.toNat, conn.toNat) with
  | some h' => exact ⟨rfl, rfl⟩
  | none =>
    cases mem with
    | true => exact absurd (accepts_of_sendRefused rfl hr) hna
    | false => exact ⟨rfl, rfl⟩

/-! ### The message -/

theorem sendData_of_accepts (ha : Accepts h slot conn mem) (data : List UInt8) :
    sendData h slot conn mem data
      = (0, queueMessage h (slot.toNat, conn.toNat)
          (dataMessage ((LengthForm.shortest ((data.length % 2 ^ 32 + 1) % 2 ^ 16)).field
            ((data.length % 2 ^ 32 + 1) % 2 ^ 16)) conn (data.length % 2 ^ 32)
            (data.take (data.length % 2 ^ 32)))) := by
  unfold sendData
  dsimp only
  rw [sendRefused_of_accepts ha, ha.2.2.2.2, asn1Encode_eq]
  rfl

/-- The sum of the lengths, taken as a `uint32_t` after every piece. -/
theorem foldl_size_eq (iov : List (List UInt8)) (size : ℕ) :
    iov.foldl (fun size piece => (size + piece.length) % 2 ^ 32) (size % 2 ^ 32)
      = (size + iov.flatten.length) % 2 ^ 32 := by
  induction iov generalizing size with
  | nil => rfl
  | cons piece iov ih =>
    rw [List.foldl_cons, Nat.mod_add_mod, ih, List.flatten_cons, List.length_append, Nat.add_assoc]

theorem length_field_le (form : LengthForm) (n : ℕ) : (form.field n).length ≤ 3 := by
  cases form with
  | short => exact Nat.le_of_ble_eq_true rfl
  | one => exact Nat.le_of_ble_eq_true rfl
  | two => exact Nat.le_refl 3

/-- The pieces are copied into what their summed size reserves, unless the sum has wrapped around. -/
theorem sendDatav_of_accepts (ha : Accepts h slot conn mem) (hlen : iov.flatten.length < 2 ^ 32) :
    sendDatav h slot conn mem iov = some (sendData h slot conn mem iov.flatten) := by
  have hsize : iov.foldl (fun size piece => (size + piece.length) % 2 ^ 32) 0
      = iov.flatten.length % 2 ^ 32 := by
    have hfold := foldl_size_eq iov 0
    rw [Nat.zero_add] at hfold
    exact hfold
  have hmod : iov.flatten.length % 2 ^ 32 = iov.flatten.length := Nat.mod_eq_of_lt hlen
  have hfield := length_field_le (LengthForm.shortest ((iov.flatten.length + 1) % 2 ^ 16))
    ((iov.flatten.length + 1) % 2 ^ 16)
  rw [sendData_of_accepts ha, hmod, List.take_length]
  unfold sendDatav
  dsimp only
  rw [sendRefused_of_accepts ha, hsize, hmod, ha.2.2.2.2, asn1Encode_eq]
  dsimp only
  rw [if_neg (by decide), if_neg (by omega)]

/-- **The message is an encoded TPDU** while its length fits in 16 bits. -/
theorem dataMessage_eq_bytes {payload : List UInt8} (hlen : payload.length + 1 < 65536) :
    dataMessage ((LengthForm.shortest (payload.length + 1)).field (payload.length + 1)) conn
        payload.length payload
      = WireTpdu.bytes ⟨⟨tDataLast, conn, payload⟩, LengthForm.shortest (payload.length + 1),
          LengthForm.lt_limit_shortest hlen⟩ := by
  have hfield := length_field_le (LengthForm.shortest (payload.length + 1)) (payload.length + 1)
  unfold dataMessage WireTpdu.bytes
  apply List.take_of_length_le
  rw [List.length_cons, List.length_append, List.length_cons, Nat.mod_eq_of_lt (by omega)]
  omega

theorem roundTrip_of_fits (ha : Accepts h slot conn mem) (hlen : iov.flatten.length + 1 < 65536) :
    RoundTrip h slot conn mem iov := by
  have hmod : iov.flatten.length % 2 ^ 32 = iov.flatten.length := Nat.mod_eq_of_lt (by omega)
  have hmod' : (iov.flatten.length + 1) % 2 ^ 16 = iov.flatten.length + 1 := Nat.mod_eq_of_lt hlen
  refine ⟨?_, sendDatav_of_accepts ha (by omega), fun hbig => absurd hlen (by omega)⟩
  intro _
  rw [sendData_of_accepts ha, hmod, hmod', List.take_length]
  refine ⟨_, rfl, ?_⟩
  rw [dataMessage_eq_bytes hlen]
  have hparse := parseTpdu_bytes ⟨⟨tDataLast, conn, iov.flatten⟩,
    LengthForm.shortest (iov.flatten.length + 1), LengthForm.lt_limit_shortest hlen⟩ []
  rw [List.append_nil] at hparse
  exact hparse

theorem not_roundTrip_of_too_long (ha : Accepts h slot conn mem) (hlen : 65536 ≤ iov.flatten.length + 1) :
    ¬ RoundTrip h slot conn mem iov := by
  intro hrt
  have hret := hrt.rejected hlen
  rw [sendData_of_accepts ha] at hret
  have hzero : (0 : ℤ) = -1 := hret
  exact absurd hzero (by decide)

/-! ### The round trip -/

/-- **The round trip of a data TPDU** holds exactly when a call that passes the checks has less than 65535
bytes to send; the length fields are read back for every `uint16_t`. -/
theorem send_roundTrip_iff (h : Host) (slot conn : UInt8) (mem : Bool) (iov : List (List UInt8)) :
    (∀ (n : UInt16) (rest : List UInt8), ∃ field, asn1Encode n.toNat 3 = some field ∧
      asn1Decode (field ++ rest) = some (n.toNat, field.length)) ∧
    (RoundTrip h slot conn mem iov ↔
      (Accepts h slot conn mem → iov.flatten.length + 1 < 65536)) := by
  refine ⟨fun n rest => ?_, fun hrt ha => ?_, fun hfits => ?_⟩
  · exact ⟨_, asn1Encode_eq n.toNat,
      asn1Decode_field _ (LengthForm.lt_limit_shortest n.toNat_lt) rest⟩
  · by_contra hbig
    exact not_roundTrip_of_too_long ha (Nat.le_of_not_lt hbig) hrt
  · by_cases ha : Accepts h slot conn mem
    · exact roundTrip_of_fits ha (hfits ha)
    · obtain ⟨hsame, hret⟩ := sendDatav_of_not_accepts ha iov
      refine ⟨fun h0 => ?_, hsame, fun _ => hret⟩
      rw [hret] at h0
      exact absurd h0 (by decide)

/-- A link on which every write succeeds, at time 1. -/
def steadyLink : Link := ⟨fun _ => true, fun _ => 1⟩

/-- A slot is registered, its connection 1 opened, T_CREATE_T_C sent and answered. -/
def openOps : List HostOp :=
  [.registerSlot 3 0, .newTc 0 true, .transmit (0, 1), .received 0 ⟨0x83, 1, []⟩]

/-- On an open connection 65535 bytes are accepted: their length field says 0, which the parser refuses. -/
theorem not_roundTrip_65535 :
    ∃ h, openOps.foldlM (Host.step steadyLink) (tlCreate 1 2 true) = some h ∧
      ¬ RoundTrip h 0 1 true [List.replicate 65535 0] ∧
      (sendData h 0 1 true (List.replicate 65535 0)).1 = 0 ∧
      ∀ msg ∈ (sendData h 0 1 true (List.replicate 65535 0)).2.queue (0, 1), parseTpdu msg = none := by
  obtain ⟨h, hrun⟩ : ∃ h, openOps.foldlM (Host.step steadyLink) (tlCreate 1 2 true) = some h := ⟨_, rfl⟩
  have hh := Option.some.inj hrun
  have ha : Accepts h 0 1 true := by
    rw [← hh]
    decide
  have hqueue : h.queue (0, 1) = [] := by
    rw [← hh]
    rfl
  have hlen : (List.replicate 65535 (0 : UInt8)).length = 65535 := List.length_replicate
  refine ⟨h, hrun, not_roundTrip_of_too_long ha ?_, ?_, ?_⟩
  · rw [List.flatten_cons, List.flatten_nil, List.append_nil, hlen]
  · rw [sendData_of_accepts ha]
  · intro msg hmsg
    rw [sendData_of_accepts ha, hlen] at hmsg
    have hq : (queueMessage h (0, 1) (dataMessage ((LengthForm.shortest 0).field 0) 1 65535
        ((List.replicate 65535 (0 : UInt8)).take 65535))).queue (0, 1)
        = [dataMessage ((LengthForm.shortest 0).field 0) 1 65535
            ((List.replicate 65535 (0 : UInt8)).take 65535)] := by
      unfold queueMessage Host.setQueue
      dsimp only
      rw [Function.update_self, hqueue]
      rfl
    have hmem := hq ▸ hmsg
    rw [List.mem_singleton] at hmem
    rw [hmem]
    rfl

end BgtDvb.En50221
