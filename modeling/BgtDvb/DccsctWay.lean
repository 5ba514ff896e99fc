import BgtDvb.TableOverruns

/-!
# The way of the codec through a DCC selection code table

`atsc_dccsct_section_codec` of `libucsi/atsc/dccsct_section.c` reads the length of an update's descriptors twice as far
on as it stands.  Where its loop comes to next so depends on bytes of the section that are part of something else.

* `atscDccsctSectionCodec_ok_iff` — **PROVED**: the codec accepts exactly these sections, and swaps these words.
-/

namespace BgtDvb.Ucsi.Table.Dccsct

open BgtDvb.Walks
open BgtDvb.Words

def updateWords (buf : List UInt8) (update : ℕ) : List (ℕ × ℕ) := if be buf update 1 = 3 then [(update + 3, 2)] else []

/-- One round, which reads the length twice as far on as `part2`. -/
structure Round (order : ByteOrder) (buf : List UInt8) (len pos part2 next : ℕ) : Prop where
  update : UpdateAt buf len pos part2
  inside : 2 * part2 + 2 ≤ buf.length
  next_eq : next = part2 + 2 + host order buf (2 * part2) 2 % 2 ^ 10
  before : next ≤ len
  descriptors : ∃ ds, Tiles (Descriptor buf) (part2 + 2) next ds

/-- A number of rounds from a position on, the words that they swap, and where they come to. -/
inductive Way (order : ByteOrder) (buf : List UInt8) (len : ℕ) : ℕ → ℕ → List (ℕ × ℕ) → ℕ → Prop
  | done {pos : ℕ} : Way order buf len 0 pos [] pos
  | round {count pos part2 next stop : ℕ} {words : List (ℕ × ℕ)} (first : Round order buf len pos part2 next)
    (rest : Way order buf len count next words stop) :
    Way order buf len (count + 1) pos (updateWords buf pos ++ (part2, 2) :: words) stop

variable {order : ByteOrder} {len : ℕ}

/-! ### What stands ahead -/

variable {buf buf' : List UInt8} {pos count : ℕ}

theorem Round.lt (h : Round order buf len pos part2 next) : pos + 2 ≤ part2 ∧ part2 + 2 ≤ next := by
  have hend := h.next_eq
  exact ⟨h.update.lt, by omega⟩

theorem updateWords_ahead (hdrop : buf.drop pos = buf'.drop pos) : updateWords buf pos = updateWords buf' pos := by
  unfold updateWords
  rw [be_eq_of_drop hdrop le_rfl]

theorem Round.ahead (hlen : buf.length = buf'.length) (hdrop : buf.drop pos = buf'.drop pos)
    (h : Round order buf len pos part2 next) : Round order buf' len pos part2 next := by
  obtain ⟨ds, hds⟩ := h.descriptors
  have hlt := h.update.lt
  have hhost : host order buf (2 * part2) 2 = host order buf' (2 * part2) 2 :=
    congrArg (value order) (slice_eq_of_drop hdrop (by omega))
  exact ⟨h.update.ahead hlen hdrop, hlen ▸ h.inside, hhost ▸ h.next_eq, h.before, ds,
    descriptors_ahead (drop_eq_of_le hdrop (by omega)) hds⟩

theorem Way.ahead (hlen : buf.length = buf'.length) (hdrop : buf.drop a = buf'.drop a) (hpos : a ≤ pos)
    (h : Way order buf len count pos words stop) : Way order buf' len count pos words stop := by
  induction h with
  | done => exact .done
  | round first rest ih =>
    have hcut := drop_eq_of_le hdrop hpos
    have hlt := first.lt
    rw [updateWords_ahead hcut]
    exact .round (first.ahead hlen hcut) (ih (by omega))

theorem updateWords_apart (h : UpdateAt buf len pos part2) : Apart pos part2 (updateWords buf pos) := by
  have hpart := h.part2_eq
  have hdata := h.data
  unfold updateWords
  split_ifs with htype
  · have hother : ¬ (be buf pos 1 = 1 ∨ be buf pos 1 = 2) := by omega
    rw [UpdateData, if_neg hother, if_pos htype] at hdata
    have hlong := hdata.1
    exact ⟨Nat.le_add_right pos 3, by show pos + 3 + 2 ≤ part2; omega⟩
  · exact (Nat.le_add_right pos 2).trans h.lt

theorem Way.apart (h : Way order buf len count pos words stop) : Apart pos stop words := by
  induction h with
  | done => exact le_rfl
  | @round count pos part2 next stop words first rest ih =>
    have hpart2 : Apart part2 stop ((part2, 2) :: words) := ⟨le_rfl, ih.mono first.lt.2 le_rfl⟩
    exact (updateWords_apart first.update).append hpart2

theorem Way.le (h : Way order buf len count pos words stop) (hpos : pos ≤ len) : stop ≤ len := by
  induction h with
  | done => exact hpos
  | round first rest ih => exact ih first.before

/-! ### What a round leaves -/

theorem swapped_nil (order : ByteOrder) (buf : List UInt8) : swapped order [] buf = buf := by
  cases order with
  | big => rfl
  | little => rfl

theorem updateData_left {updateType : ℕ} (h : (updateData order pos dataLength updateType).run buf = .ok ((), buf'))
    (hroom : pos + dataLength ≤ buf.length) :
    buf' = swapped order (if updateType = 3 then [(pos + 1, 2)] else []) buf := by
  unfold updateData at h
  split_ifs at h with hname hcounty
  · have hother : ¬ updateType = 3 := by omega
    obtain ⟨-, hvalid⟩ := require_bind_ok_iff.mp h
    rw [if_neg hother, swapped_nil]
    exact (peeks_atscTextValidate _ _).keeps hvalid
  · obtain ⟨hlong, hrest⟩ := require_bind_ok_iff.mp h
    have hword : pos + 1 + 2 ≤ buf.length := by omega
    rw [run_bind_ok (bswap_run hword)] at hrest
    rw [if_pos hcounty]
    exact (peeks_atscTextValidate _ _).keeps hrest
  · rw [if_neg hcounty, swapped_nil]
    cases h
    rfl

theorem updateFront_left (h : (updateFront order len pos).run buf = .ok (part2, buf')) (hlen : len ≤ buf.length) :
    buf' = swapped order (updateWords buf pos) buf := by
  obtain ⟨-, hrest⟩ := require_bind_ok_iff.mp h
  obtain ⟨-, hrest⟩ := read_bind_ok_iff.mp hrest
  obtain ⟨-, hrest⟩ := read_bind_ok_iff.mp hrest
  obtain ⟨hroom, hrest⟩ := require_bind_ok_iff.mp hrest
  obtain ⟨_, buf₁, hdata, hrest⟩ := bind_ok_iff.mp hrest
  have hleft := updateData_left hdata (hroom.trans hlen)
  obtain ⟨-, hpure⟩ := require_bind_ok_iff.mp hrest
  cases hpure
  exact hleft

theorem updatePart2_left (h : (updatePart2 order len part2).run buf = .ok (next, buf')) (hlen : len ≤ buf.length)
    (hroom : part2 + 2 ≤ len) : buf' = swapped order [(part2, 2)] buf := by
  have hword : part2 + 2 ≤ buf.length := hroom.trans hlen
  have hapart : Apart part2 (part2 + 2) [(part2, 2)] := ⟨le_rfl, le_rfl⟩
  have hkept := (swapped_keeps order hapart hword).1
  rw [updatePart2, run_bind_ok (bswap_run hword)] at h
  obtain ⟨_, _, hread, hrest⟩ := bind_ok_iff.mp h
  obtain ⟨-, heq⟩ := (word_ok_iff order).mp hread
  cases heq
  obtain ⟨hinside, hrest⟩ := require_bind_ok_iff.mp hrest
  obtain ⟨_, _, hverify, hpure⟩ := bind_ok_iff.mp hrest
  obtain ⟨-, heq⟩ := (verifyDescriptors_ok_iff (hinside.trans (hlen.trans hkept.ge))).mp hverify
  cases heq
  cases hpure
  rfl

/-! ### What gets through -/

theorem updateFront_ok_iff (hlen : len ≤ buf.length) :
    (updateFront order len pos).run buf = .ok r ↔
      UpdateAt buf len pos r.1 ∧ r.2 = swapped order (updateWords buf pos) buf := by
  rcases updateFront_run order pos hlen with ⟨part2, hupdate, buf', hrun, -, -⟩ | ⟨hnone, hrun⟩
  · have hleft := updateFront_left hrun hlen
    rw [hrun]
    constructor
    · intro heq
      cases heq
      exact ⟨hupdate, hleft⟩
    · rintro ⟨hupdate', hbuf'⟩
      exact congrArg Except.ok (Prod.ext (hupdate.part2_unique hupdate') (hleft.trans hbuf'.symm))
  · rw [hrun]
    exact iff_of_false (fun heq => by cases heq) fun h => hnone _ h.1

theorem updatePart2_ok_iff (hpart2 : 2 ≤ part2) (hroom : part2 + 2 ≤ len) (hlen : len ≤ buf.length) :
    (updatePart2 order len part2).run buf = .ok r ↔
      (2 * part2 + 2 ≤ buf.length ∧ r.1 = part2 + 2 + host order buf (2 * part2) 2 % 2 ^ 10 ∧ r.1 ≤ len
        ∧ ∃ ds, Tiles (Descriptor buf) (part2 + 2) r.1 ds) ∧ r.2 = swapped order [(part2, 2)] buf := by
  rcases Nat.lt_or_ge buf.length (2 * part2 + 2) with houtside | hinside
  · rw [updatePart2_fault order hpart2 (hroom.trans hlen) houtside]
    exact iff_of_false (fun heq => by cases heq) fun h => absurd h.1.1 (Nat.not_le.mpr houtside)
  · rcases updatePart2_run order hpart2 hroom hlen hinside with ⟨hstop, hds, buf', hrun, -, -⟩ | ⟨hnone, hrun⟩
    · have hleft := updatePart2_left hrun hlen hroom
      rw [hrun]
      constructor
      · intro heq
        cases heq
        exact ⟨⟨hinside, rfl, hstop, hds⟩, hleft⟩
      · rintro ⟨⟨-, hnext, -, -⟩, hbuf'⟩
        exact congrArg Except.ok (Prod.ext hnext.symm (hleft.trans hbuf'.symm))
    · rw [hrun]
      refine iff_of_false (fun heq => by cases heq) fun h => ?_
      obtain ⟨⟨-, hnext, hstop, hds⟩, -⟩ := h
      rw [hnext] at hstop hds
      exact hnone ⟨hstop, hds⟩

/-- **One round of the loop.** -/
theorem dccsctUpdate_ok_iff (hlen : len ≤ buf.length) :
    (dccsctUpdate order len pos).run buf = .ok r ↔
      ∃ part2, Round order buf len pos part2 r.1 ∧ r.2 = swapped order (updateWords buf pos ++ [(part2, 2)]) buf := by
  rw [dccsctUpdate_eq, bind_ok_iff]
  have hfront {part2 : ℕ} (h : UpdateAt buf len pos part2) :
      (swapped order (updateWords buf pos) buf).length = buf.length
        ∧ (swapped order (updateWords buf pos) buf).drop part2 = buf.drop part2 := by
    have hend : part2 ≤ buf.length := (Nat.le_add_right part2 2).trans (h.room.trans hlen)
    obtain ⟨hkept, -, hdrop⟩ := swapped_keeps order (updateWords_apart h) hend
    exact ⟨hkept, hdrop⟩
  have hhost {part2 : ℕ} (h : UpdateAt buf len pos part2) :
      host order (swapped order (updateWords buf pos) buf) (2 * part2) 2 = host order buf (2 * part2) 2 := by
    have hfar : part2 ≤ 2 * part2 := by omega
    exact congrArg (value order) (slice_eq_of_drop (hfront h).2 hfar)
  constructor
  · rintro ⟨part2, buf₁, hrun, hrest⟩
    obtain ⟨hupdate, hbuf₁⟩ := (updateFront_ok_iff hlen).mp hrun
    dsimp only at hupdate hbuf₁
    subst hbuf₁
    obtain ⟨hkept, hdrop⟩ := hfront hupdate
    have hlt := hupdate.lt
    obtain ⟨⟨hinside, hnext, hbefore, ds, hds⟩, hbuf'⟩ :=
      (updatePart2_ok_iff (by omega) hupdate.room (hkept.symm ▸ hlen)).mp hrest
    rw [hhost hupdate] at hnext
    rw [hkept] at hinside
    have hcut := drop_eq_of_le hdrop (Nat.le_add_right part2 2)
    exact ⟨part2, ⟨hupdate, hinside, hnext, hbefore, ds, descriptors_ahead hcut hds⟩,
      hbuf'.trans (swapped_append _ _ _).symm⟩
  · rintro ⟨part2, hround, hbuf'⟩
    obtain ⟨hkept, hdrop⟩ := hfront hround.update
    obtain ⟨ds, hds⟩ := hround.descriptors
    have hlt := hround.update.lt
    have hcut := drop_eq_of_le hdrop (Nat.le_add_right part2 2)
    refine ⟨part2, swapped order (updateWords buf pos) buf, (updateFront_ok_iff hlen).mpr ⟨hround.update, rfl⟩, ?_⟩
    refine (updatePart2_ok_iff (by omega) hround.update.room (hkept.symm ▸ hlen)).mpr
      ⟨⟨hkept.symm ▸ hround.inside, ?_, hround.before, ds, descriptors_ahead hcut.symm hds⟩, ?_⟩
    · rw [hhost hround.update]
      exact hround.next_eq
    · rw [hbuf', swapped_append]

theorem Round.swapped_keeps (h : Round order buf len pos part2 next) (hlen : len ≤ buf.length) :
    (swapped order (updateWords buf pos ++ [(part2, 2)]) buf).length = buf.length
      ∧ (swapped order (updateWords buf pos ++ [(part2, 2)]) buf).drop next = buf.drop next := by
  have hpart2 : Apart part2 next [(part2, 2)] := ⟨le_rfl, h.lt.2⟩
  obtain ⟨hkept, -, hdrop⟩ :=
    Table.swapped_keeps order ((updateWords_apart h.update).append hpart2) (h.before.trans hlen)
  exact ⟨hkept, hdrop⟩

/-- **The loop** gets through exactly along such a way. -/
theorem times_dccsctUpdate_iff (count : ℕ) (hlen : len ≤ buf.length) :
    (times (dccsctUpdate order len) count pos).run buf = .ok r ↔
      ∃ words, Way order buf len count pos words r.1 ∧ r.2 = swapped order words buf := by
  induction count generalizing pos buf with
  | zero =>
    rw [times, run_pure]
    constructor
    · intro heq
      cases heq
      exact ⟨[], .done, (swapped_nil order buf).symm⟩
    · rintro ⟨words, hway, hbuf'⟩
      cases hway
      rw [swapped_nil] at hbuf'
      exact congrArg Except.ok (Prod.ext rfl hbuf'.symm)
  | succ count ih =>
    rw [times, bind_ok_iff]
    constructor
    · rintro ⟨next, buf₁, hfirst, hrest⟩
      obtain ⟨part2, hround, hbuf₁⟩ := (dccsctUpdate_ok_iff hlen).mp hfirst
      dsimp only at hround hbuf₁
      subst hbuf₁
      obtain ⟨hkept, hdrop⟩ := hround.swapped_keeps hlen
      obtain ⟨words, hway, hbuf'⟩ := (ih (hkept.symm ▸ hlen)).mp hrest
      refine ⟨updateWords buf pos ++ (part2, 2) :: words, .round hround (hway.ahead hkept hdrop le_rfl), ?_⟩
      rw [hbuf', ← swapped_append, List.append_assoc]
      rfl
    · rintro ⟨words, hway, hbuf'⟩
      cases hway with
      | @round _ _ part2 next _ words hround hrest =>
        obtain ⟨hkept, hdrop⟩ := hround.swapped_keeps hlen
        refine ⟨next, swapped order (updateWords buf pos ++ [(part2, 2)]) buf,
          (dccsctUpdate_ok_iff hlen).mpr ⟨part2, hround, rfl⟩, (ih (hkept.symm ▸ hlen)).mpr ?_⟩
        refine ⟨words, hrest.ahead hkept.symm hdrop.symm le_rfl, ?_⟩
        rw [hbuf', ← swapped_append, List.append_assoc]
        rfl

/-! ### The section -/

/-- The words that the codec swaps on its way through a section to a second part that ends at the CRC. -/
def Led (order : ByteOrder) (buf : List UInt8) (words : List (ℕ × ℕ)) : Prop :=
  10 ≤ buf.length - 4 ∧ ∃ front stop x, Way order buf (buf.length - 4) (be buf 9 1) 10 front stop
    ∧ BlockAt Dcct.part2Header buf stop (buf.length - 4) x ∧ words = front ++ x.fields Dcct.part2Header

theorem Led.apart (h : Led order buf words) : Apart 10 (buf.length - 4) words := by
  obtain ⟨-, front, stop, x, hway, hx, rfl⟩ := h
  have hend := (blockAt_lt Dcct.part2Header_wf hx).1
  refine hway.apart.append ?_
  rw [Block.fields, hx.pos_eq]
  exact ⟨le_rfl, hend⟩

theorem atscDccsctSectionCodec_ok_iff (h : Whole order buf) :
    (atscDccsctSectionCodec order).run buf = .ok ((), buf') ↔ ∃ words, Led order buf words ∧ buf' = swapped order words buf := by
  have hstop : buf.length - 4 ≤ buf.length := Nat.sub_le _ _
  rw [atscDccsctSectionCodec, run_bind_ok h.sectionExtLength_run]
  by_cases hsize : 10 ≤ buf.length - 4
  · have hread : 9 + 1 ≤ buf.length := by omega
    have hkeeps {front : List (ℕ × ℕ)} {stop : ℕ} (hway : Way order buf (buf.length - 4) (be buf 9 1) 10 front stop) :
        (swapped order front buf).length = buf.length ∧ (swapped order front buf).drop stop = buf.drop stop := by
      obtain ⟨hkept, -, hdrop⟩ := swapped_keeps order hway.apart ((hway.le hsize).trans hstop)
      exact ⟨hkept, hdrop⟩
    rw [run_bind_ok (run_require hsize buf), run_bind_ok (read_ok_iff.mpr ⟨hread, rfl⟩), bind_ok_iff]
    constructor
    · rintro ⟨stop, buf₁, hloop, hrest⟩
      obtain ⟨front, hway, hbuf₁⟩ := (times_dccsctUpdate_iff _ hstop).mp hloop
      dsimp only at hway hbuf₁
      subst hbuf₁
      obtain ⟨hkept, hdrop⟩ := hkeeps hway
      obtain ⟨pos, buf₂, hblock, hrequire⟩ := bind_ok_iff.mp hrest
      obtain ⟨rfl, heq⟩ := require_ok_iff.mp hrequire
      obtain ⟨-, x, hx, hbuf₂⟩ := (block_ok_iff Dcct.part2Header_wf (hkept.symm ▸ hstop)).mp hblock
      refine ⟨_, ⟨hsize, front, stop, x, hway, blockAt_ahead Dcct.part2Header_wf hdrop hx, rfl⟩, ?_⟩
      rw [(Prod.mk.inj heq).2, swapped_append]
      exact hbuf₂
    · rintro ⟨words, ⟨-, front, stop, x, hway, hx, rfl⟩, rfl⟩
      obtain ⟨hkept, hdrop⟩ := hkeeps hway
      refine ⟨stop, swapped order front buf, (times_dccsctUpdate_iff _ hstop).mpr ⟨front, hway, rfl⟩, ?_⟩
      refine bind_ok_iff.mpr ⟨buf.length - 4, swapped order (x.fields Dcct.part2Header) (swapped order front buf),
        (block_ok_iff Dcct.part2Header_wf (hkept.symm ▸ hstop)).mpr
        ⟨le_rfl, x, blockAt_ahead Dcct.part2Header_wf hdrop.symm hx, rfl⟩, require_ok_iff.mpr ⟨rfl, ?_⟩⟩
      rw [swapped_append]
  · rw [run_bind_error (run_require_not hsize buf)]
    refine iff_of_false (fun heq => by cases heq) fun hled => ?_
    obtain ⟨words, hled, -⟩ := hled
    exact hsize hled.1

end BgtDvb.Ucsi.Table.Dccsct
