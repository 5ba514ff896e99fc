import BgtDvb.En50221Apdu
import BgtDvb.En50221Mmi

/-!
# MMI menus and lists

A menu or list object holds the number of its choices, three texts and a text for each choice; a text is
itself a sequence of fragments TEXT_MORE … TEXT_MORE TEXT_LAST, each with its own length field.

* `menu_delivered_iff` — **PROVED**: which menus reach the application as they were sent.

The number of texts is an 8-bit sum, and a block of no bytes is lost when it is extended by none.
-/

namespace BgtDvb.En50221

/-! ### Texts -/

def tagTextLast : UInt32 := 0x9f8803

def tagTextMore : UInt32 := 0x9f8804

def tagOf (b₀ b₁ b₂ : UInt8) : UInt32 := (b₀.toUInt32 <<< 16) ||| (b₁.toUInt32 <<< 8) ||| b₂.toUInt32

/-- `en50221_app_mmi_defragment_text`: the text and the bytes behind it, or -1 (`some none`); `none` if
bytes outside the data are read or handed out, or freed memory is freed again.  A fragment takes at least
four bytes, so the length of the data is fuel enough. -/
def defragmentText (mem : Bool) : ℕ → Block → List UInt8 → Option (Option (List UInt8 × List UInt8))
  | 0, _, _ => some none
  | fuel + 1, text, data =>
    match data with
    | b₀ :: b₁ :: b₂ :: data =>
      match asn1Decode data with
      | none => some none
      | some (asnDataLength, lengthFieldLen) =>
        let data := data.drop lengthFieldLen
        if tagOf b₀ b₁ b₂ = tagTextLast then
          if data.length < asnDataLength then none
          else if text.chain = .null then some (some (data.take asnDataLength, data.drop asnDataLength))
          else
            match appendBlock text mem (data.take asnDataLength) with
            | none | some (none, .dangling) => none
            | some (none, _) => some none
            | some (some bytes, _) => some (some (bytes, data.drop asnDataLength))
        else if tagOf b₀ b₁ b₂ = tagTextMore then
          if data.length < asnDataLength then none
          else
            match appendBlock text mem (data.take asnDataLength) with
            | none | some (none, .dangling) => none
            | some (none, _) => some none
            | some (some bytes, _) =>
              defragmentText mem fuel ⟨.alloc bytes, (text.length + asnDataLength) % 2 ^ 32⟩
                (data.drop asnDataLength)
        else some none
    | _ => some none

/-- The loop over the texts of a menu: the texts, and the bytes behind them. -/
def readTexts (mem : Bool) : ℕ → List UInt8 → Option (Option (List (List UInt8) × List UInt8))
  | 0, data => some (some ([], data))
  | n + 1, data =>
    match defragmentText mem data.length .empty data with
    | none => none
    | some none => some none
    | some (some (text, data)) =>
      match readTexts mem n data with
      | none => none
      | some none => some none
      | some (some (texts, data)) => some (some (text :: texts, data))

/-! ### Menus and lists -/

/-- A call of the menu or list callback.  A title is `none` if it is not among the texts that were read. -/
structure MenuCall where
  kind : ObjectKind
  slotId : UInt8
  number : UInt16
  title : Option (List UInt8)
  subTitle : Option (List UInt8)
  bottom : Option (List UInt8)
  itemCount : ℕ
  items : List (List UInt8)
  itemsRaw : Option (List UInt8)
  deriving Repr, DecidableEq

/-- `text_count`, an `uint8_t`. -/
def textCount (choiceNb : UInt8) : UInt8 := if choiceNb = 0xff then 3 else choiceNb + 3

def Mmi.hasCallback (mmi : Mmi) : ObjectKind → Bool
  | .menu => mmi.menuCallback
  | .list => mmi.listCallback
  | _ => false

/-- The menu in a reassembled object, and the call that is made for it: the result, and the calls. -/
def parseMenu (mmi : Mmi) (slotId : UInt8) (number : UInt16) (kind : ObjectKind) (mem : Bool)
    (cb : MenuCall → ℤ) (data : List UInt8) : Option (ℤ × List MenuCall) :=
  match data with
  | [] => some (-1, [])
  | choiceNb :: data =>
    match readTexts mem (textCount choiceNb).toNat data with
    | none => none
    | some none => some (-1, [])
    | some (some (texts, data)) =>
      if mmi.hasCallback kind = true then
        -- `text_count - 3` becomes a `uint32_t`
        let call : MenuCall := ⟨kind, slotId, number, texts[0]?, texts[1]?, texts[2]?,
          (((textCount choiceNb).toNat : ℤ) - 3).natMod (2 ^ 32), texts.drop 3,
          if choiceNb = 0xff then some data else none⟩
        some (cb call, [call])
      else some (0, [])

/-- `en50221_app_mmi_parse_list_menu`: result, object and calls. -/
def parseListMenu (mmi : Mmi) (slotId : UInt8) (number : UInt16) (kind : ObjectKind) (last : Bool)
    (mem : MmiMemory) (cb : MenuCall → ℤ) (data : List UInt8) : Option (ℤ × Mmi × List MenuCall) :=
  match receiveObject mmi number kind last mem data with
  | none => none
  | some (status, mmi, outdata) =>
    if status ≤ 0 then some (status, mmi, [])
    else (parseMenu mmi slotId number kind mem.block cb (outdata.getD [])).map fun r => (r.1, mmi, r.2)

def tagMenuLast : UInt32 := 0x9f8809

def tagMenuMore : UInt32 := 0x9f880a

def tagListLast : UInt32 := 0x9f880c

def tagListMore : UInt32 := 0x9f880d

/-- `en50221_app_mmi_message`; `others` stands for what it does with the other tags. -/
def mmiMessage (others : UInt32 → List UInt8 → Option (ℤ × Mmi × List MenuCall)) (mmi : Mmi) (slotId : UInt8)
    (number : UInt16) (mem : MmiMemory) (cb : MenuCall → ℤ) (data : List UInt8) :
    Option (ℤ × Mmi × List MenuCall) :=
  match data with
  | b₀ :: b₁ :: b₂ :: data =>
    let tag := tagOf b₀ b₁ b₂
    if tag = tagMenuLast then parseListMenu mmi slotId number .menu true mem cb data
    else if tag = tagMenuMore then parseListMenu mmi slotId number .menu false mem cb data
    else if tag = tagListLast then parseListMenu mmi slotId number .list true mem cb data
    else if tag = tagListMore then parseListMenu mmi slotId number .list false mem cb data
    else others tag data
  | _ => some (-1, mmi, [])

/-! ### What a module sends -/

/-- A fragment of a text, in a form of the length field that can express its length. -/
structure TextFragment where
  form : LengthForm
  bytes : List UInt8
  fits : bytes.length < form.limit

def TextFragment.encode (f : TextFragment) (tag : UInt32) : List UInt8 :=
  tagBytes tag ++ (f.form.field f.bytes.length ++ f.bytes)

/-- A text: fragments TEXT_MORE, and one TEXT_LAST. -/
structure EncodedText where
  more : List TextFragment
  last : TextFragment

def EncodedText.bytes (t : EncodedText) : List UInt8 :=
  t.more.flatMap (·.encode tagTextMore) ++ t.last.encode tagTextLast

def EncodedText.fragments (t : EncodedText) : List (List UInt8) := t.more.map (·.bytes) ++ [t.last.bytes]

def EncodedText.text (t : EncodedText) : List UInt8 := t.fragments.flatten

/-- The choices: up to 254 texts, or raw data. -/
inductive MenuItems where
  | texts (items : List EncodedText) (le : items.length ≤ 254)
  | raw (data : List UInt8)

/-- A menu or list as it is sent. -/
structure Menu where
  title : EncodedText
  subTitle : EncodedText
  bottom : EncodedText
  items : MenuItems

def Menu.choiceNb (m : Menu) : UInt8 :=
  match m.items with
  | .texts items _ => UInt8.ofNat items.length
  | .raw _ => 0xff

def Menu.texts (m : Menu) : List EncodedText :=
  [m.title, m.subTitle, m.bottom] ++
    match m.items with
    | .texts items _ => items
    | .raw _ => []

def Menu.body (m : Menu) : List UInt8 :=
  m.choiceNb :: (m.texts.flatMap EncodedText.bytes ++
    match m.items with
    | .texts _ _ => []
    | .raw data => data)

def Menu.call (m : Menu) (kind : ObjectKind) (slotId : UInt8) (number : UInt16) : MenuCall :=
  match m.items with
  | .texts items _ => ⟨kind, slotId, number, some m.title.text, some m.subTitle.text, some m.bottom.text,
      items.length, items.map EncodedText.text, none⟩
  | .raw data => ⟨kind, slotId, number, some m.title.text, some m.subTitle.text, some m.bottom.text, 0, [],
      some data⟩

/-- The text has one fragment, or its first two are not both empty. -/
def EncodedText.Joins (t : EncodedText) : Prop :=
  ∀ f₁ f₂ rest, t.fragments = f₁ :: f₂ :: rest → f₁ ++ f₂ ≠ []

/-- At most 252 choices, or raw ones; and the fragments of each text can be joined. -/
def Menu.Readable (m : Menu) : Prop :=
  (match m.items with
    | .texts items _ => items.length ≤ 252
    | .raw _ => True) ∧ ∀ t ∈ m.texts, t.Joins

/-! ### One fragment -/

/-- A fragment can be joined to those before it: `realloc` is not asked for an empty block. -/
def CanJoin (before : List (List UInt8)) (bytes : List UInt8) : Prop := before ≠ [] → before.flatten ++ bytes ≠ []

variable (f : TextFragment) (t : EncodedText)

theorem TextFragment.length_lt : f.bytes.length < 2 ^ 16 := by
  obtain ⟨form, bytes, fits⟩ := f
  cases form
  all_goals
    simp only [LengthForm.limit] at fits ⊢
    omega

variable {b : Block} {before : List (List UInt8)} {kind : ObjectKind}

theorem appendBlock_freed (hb : b.Holds before) (mem : Bool) {bytes : List UInt8} (hne : before ≠ [])
    (hempty : before.flatten ++ bytes = []) : appendBlock b mem bytes = some (none, .dangling) := by
  cases hb with
  | none nil eq => exact absurd nil hne
  | some ne lt eq =>
    obtain ⟨hbefore, rfl⟩ := List.append_eq_nil_iff.mp hempty
    rw [eq, hbefore]
    rfl

theorem appendBlock_joined (hb : b.Holds before) {f : TextFragment} (hjoin : CanJoin before f.bytes)
    (hfit : before.flatten.length + f.bytes.length < 2 ^ 32) :
    ∃ p, appendBlock b true f.bytes = some (some (before.flatten ++ f.bytes), p) := by
  rcases appendBlock_cases hb true f.length_lt with ⟨-, hp⟩ | ⟨hc, -⟩
  · exact hp
  · exact absurd ⟨rfl, hjoin, hfit⟩ hc

theorem asn1Decode_fragment (rest : List UInt8) :
    asn1Decode (f.form.field f.bytes.length ++ (f.bytes ++ rest)) =
      some (f.bytes.length, (f.form.field f.bytes.length).length) :=
  asn1Decode_field f.form f.fits (f.bytes ++ rest)

theorem defragmentText_more (hb : b.Holds before) (f : TextFragment)
    (hfit : before.flatten.length + f.bytes.length < 2 ^ 32) (fuel : ℕ) (rest : List UInt8) :
    (CanJoin before f.bytes → ∃ b' : Block, b'.Holds (before ++ [f.bytes]) ∧
      defragmentText true (fuel + 1) b (f.encode tagTextMore ++ rest) = defragmentText true fuel b' rest) ∧
    (¬ CanJoin before f.bytes → defragmentText true (fuel + 1) b (f.encode tagTextMore ++ rest) = none) := by
  have hdata : f.encode tagTextMore ++ rest =
      0x9f :: 0x88 :: 0x04 :: (f.form.field f.bytes.length ++ (f.bytes ++ rest)) := by
    rw [TextFragment.encode, List.append_assoc, List.append_assoc]
    rfl
  have hround : defragmentText true (fuel + 1) b (f.encode tagTextMore ++ rest) =
      match appendBlock b true f.bytes with
      | none | some (none, .dangling) => none
      | some (none, _) => some none
      | some (some bytes, _) =>
        defragmentText true fuel ⟨.alloc bytes, (b.length + f.bytes.length) % 2 ^ 32⟩ rest := by
    rw [hdata, defragmentText]
    dsimp only
    rw [asn1Decode_fragment]
    dsimp only
    rw [if_neg (by decide), if_pos (by decide), List.drop_left, if_neg (by simp), List.take_left, List.drop_left]
  rw [hround]
  constructor
  · intro hjoin
    obtain ⟨p, happ⟩ := appendBlock_joined hb hjoin hfit
    rw [happ]
    have hcan : CanAppend before true f.bytes := ⟨rfl, hjoin, hfit⟩
    exact ⟨_, .append hcan hb.length_eq, rfl⟩
  · intro hjoin
    obtain ⟨hne, hempty⟩ := Classical.not_imp.mp hjoin
    rw [appendBlock_freed hb true hne (not_not.mp hempty)]

theorem defragmentText_last (hb : b.Holds before) (f : TextFragment)
    (hfit : before.flatten.length + f.bytes.length < 2 ^ 32) (fuel : ℕ) (rest : List UInt8) :
    (CanJoin before f.bytes → defragmentText true (fuel + 1) b (f.encode tagTextLast ++ rest) =
      some (some (before.flatten ++ f.bytes, rest))) ∧
    (¬ CanJoin before f.bytes → defragmentText true (fuel + 1) b (f.encode tagTextLast ++ rest) = none) := by
  have hdata : f.encode tagTextLast ++ rest =
      0x9f :: 0x88 :: 0x03 :: (f.form.field f.bytes.length ++ (f.bytes ++ rest)) := by
    rw [TextFragment.encode, List.append_assoc, List.append_assoc]
    rfl
  have hround : defragmentText true (fuel + 1) b (f.encode tagTextLast ++ rest) =
      if b.chain = .null then some (some (f.bytes, rest))
      else
        match appendBlock b true f.bytes with
        | none | some (none, .dangling) => none
        | some (none, _) => some none
        | some (some bytes, _) => some (some (bytes, rest)) := by
    rw [hdata, defragmentText]
    dsimp only
    rw [asn1Decode_fragment]
    dsimp only
    rw [if_pos (by decide), List.drop_left, if_neg (by simp), List.take_left, List.drop_left]
  rw [hround]
  cases hb with
  | none nil eq =>
    rw [nil, eq, if_pos (show Block.empty.chain = .null from rfl)]
    exact ⟨fun _ => rfl, fun hno => absurd (fun hne => absurd rfl hne) hno⟩
  | some ne lt eq =>
    have hheld : b.Holds before := .some ne lt eq
    rw [if_neg (by rw [eq]; simp)]
    constructor
    · intro hjoin
      obtain ⟨p, happ⟩ := appendBlock_joined hheld hjoin hfit
      rw [happ]
    · intro hjoin
      obtain ⟨hne, hempty⟩ := Classical.not_imp.mp hjoin
      rw [appendBlock_freed hheld true hne (not_not.mp hempty)]

/-! ### A text -/

def JoinsFrom (before : List (List UInt8)) : List (List UInt8) → Prop
  | [] => True
  | bytes :: rest => CanJoin before bytes ∧ JoinsFrom (before ++ [bytes]) rest

theorem joinsFrom_of_ne (hne : before.flatten ≠ []) (rest : List (List UInt8)) : JoinsFrom before rest := by
  induction rest generalizing before with
  | nil => trivial
  | cons bytes rest ih =>
    refine ⟨fun _ h => hne (List.append_eq_nil_iff.mp h).1, ih ?_⟩
    intro h
    rw [List.flatten_append] at h
    exact hne (List.append_eq_nil_iff.mp h).1

theorem joins_iff : t.Joins ↔ JoinsFrom [] t.fragments := by
  unfold EncodedText.Joins
  cases h : t.fragments with
  | nil => simp [JoinsFrom]
  | cons f₁ rest =>
    cases rest with
    | nil => simp [JoinsFrom, CanJoin]
    | cons f₂ rest =>
      have hfirst : CanJoin [] f₁ := fun hne => absurd rfl hne
      constructor
      · intro hjoin
        have hne := hjoin f₁ f₂ rest rfl
        refine ⟨hfirst, fun _ => by simpa using hne, joinsFrom_of_ne ?_ rest⟩
        simpa using hne
      · rintro ⟨-, hsecond, -⟩ g₁ g₂ rest' heq
        simp only [List.cons.injEq] at heq
        obtain ⟨rfl, rfl, -⟩ := heq
        simpa using hsecond (by simp)

/-- **The loop over the fragments of a text.** -/
theorem defragmentText_run (last : TextFragment) (rest : List UInt8) (more : List TextFragment) (hb : b.Holds before)
    {fuel : ℕ} (hfuel : more.length < fuel)
    (hfit : before.flatten.length + (more.map (·.bytes) ++ [last.bytes]).flatten.length < 2 ^ 32) :
    (JoinsFrom before (more.map (·.bytes) ++ [last.bytes]) →
      defragmentText true fuel b (more.flatMap (·.encode tagTextMore) ++ last.encode tagTextLast ++ rest) =
        some (some (before.flatten ++ (more.map (·.bytes) ++ [last.bytes]).flatten, rest))) ∧
    (¬ JoinsFrom before (more.map (·.bytes) ++ [last.bytes]) →
      defragmentText true fuel b (more.flatMap (·.encode tagTextMore) ++ last.encode tagTextLast ++ rest) =
        none) := by
  induction more generalizing before b fuel with
  | nil =>
    obtain ⟨fuel, rfl⟩ : ∃ k, fuel = k + 1 := ⟨fuel - 1, by simp at hfuel; omega⟩
    obtain ⟨hyes, hno⟩ := defragmentText_last hb last (by simpa using hfit) fuel rest
    simp only [List.map_nil, List.nil_append, List.flatMap_nil, List.flatten_singleton, JoinsFrom, and_true]
    exact ⟨hyes, hno⟩
  | cons f more ih =>
    obtain ⟨fuel, rfl⟩ : ∃ k, fuel = k + 1 := ⟨fuel - 1, by simp at hfuel; omega⟩
    have hsum : before.flatten.length + f.bytes.length +
        (more.map (·.bytes) ++ [last.bytes]).flatten.length < 2 ^ 32 := by
      rw [List.map_cons, List.cons_append, List.flatten_cons, List.length_append, ← Nat.add_assoc] at hfit
      exact hfit
    have hassoc : (f :: more).flatMap (·.encode tagTextMore) ++ last.encode tagTextLast ++ rest =
        f.encode tagTextMore ++ (more.flatMap (·.encode tagTextMore) ++ last.encode tagTextLast ++ rest) := by
      simp [List.append_assoc]
    obtain ⟨hyes, hno⟩ := defragmentText_more hb f (by omega) fuel
      (more.flatMap (·.encode tagTextMore) ++ last.encode tagTextLast ++ rest)
    rw [hassoc, List.map_cons, List.cons_append]
    by_cases hjoin : CanJoin before f.bytes
    · obtain ⟨b', hb', heq⟩ := hyes hjoin
      have hlen : more.length < fuel := by
        rw [List.length_cons] at hfuel
        omega
      have hnext := ih hb' hlen (by
        rw [List.flatten_append, List.flatten_singleton, List.length_append]
        exact hsum)
      rw [heq]
      constructor
      · intro hall
        rw [hnext.1 hall.2]
        simp [List.append_assoc]
      · exact fun hall => hnext.2 fun hrest => hall ⟨hjoin, hrest⟩
    · exact ⟨fun hall => absurd hall.1 hjoin, fun _ => hno hjoin⟩

theorem length_le_flatMap_encode (more : List TextFragment) :
    more.length ≤ (more.flatMap (·.encode tagTextMore)).length := by
  induction more with
  | nil => simp
  | cons f more ih =>
    rw [List.flatMap_cons, List.length_append, List.length_cons]
    have : 3 ≤ (f.encode tagTextMore).length := by
      rw [TextFragment.encode, List.length_append]
      show 3 ≤ 3 + _
      omega
    omega

theorem length_bytes_le_encode (tag : UInt32) : f.bytes.length ≤ (f.encode tag).length := by
  rw [TextFragment.encode, List.length_append, List.length_append]
  omega

theorem EncodedText.length_text_le : t.text.length ≤ t.bytes.length := by
  unfold EncodedText.text EncodedText.fragments EncodedText.bytes
  have hmore : (t.more.map (·.bytes)).flatten.length ≤ (t.more.flatMap (·.encode tagTextMore)).length := by
    induction t.more with
    | nil => simp
    | cons f more ih =>
      rw [List.map_cons, List.flatten_cons, List.flatMap_cons, List.length_append, List.length_append]
      have := length_bytes_le_encode f tagTextMore
      omega
  rw [List.flatten_append, List.flatten_singleton, List.length_append, List.length_append]
  have := length_bytes_le_encode t.last tagTextLast
  omega

/-- **A text** is read exactly if its fragments can be joined; otherwise freed memory is freed again. -/
theorem defragmentText_encoded (rest : List UInt8) (hfit : t.text.length < 2 ^ 32) :
    (t.Joins → defragmentText true (t.bytes ++ rest).length .empty (t.bytes ++ rest) = some (some (t.text, rest))) ∧
    (¬ t.Joins → defragmentText true (t.bytes ++ rest).length .empty (t.bytes ++ rest) = none) := by
  have hfuel : t.more.length < (t.bytes ++ rest).length := by
    have hmore := length_le_flatMap_encode t.more
    have hlast : 3 ≤ (t.last.encode tagTextLast).length := by
      rw [TextFragment.encode, List.length_append]
      show 3 ≤ 3 + _
      omega
    rw [EncodedText.bytes, List.length_append, List.length_append]
    omega
  have hnone : Block.empty.Holds [] := .none rfl rfl
  rw [joins_iff]
  refine defragmentText_run t.last rest t.more hnone hfuel ?_
  simpa [EncodedText.text, EncodedText.fragments] using hfit

/-! ### The texts of a menu -/

/-- **The loop over the texts.** -/
theorem readTexts_encoded (ts : List EncodedText) (rest : List UInt8) (hfit : ∀ t ∈ ts, t.text.length < 2 ^ 32) :
    ((∀ t ∈ ts, t.Joins) → readTexts true ts.length (ts.flatMap EncodedText.bytes ++ rest) =
      some (some (ts.map EncodedText.text, rest))) ∧
    ((¬ ∀ t ∈ ts, t.Joins) → readTexts true ts.length (ts.flatMap EncodedText.bytes ++ rest) = none) := by
  induction ts with
  | nil => exact ⟨fun _ => rfl, fun h => absurd (by simp) h⟩
  | cons t ts ih =>
    obtain ⟨hyes, hno⟩ := defragmentText_encoded t (ts.flatMap EncodedText.bytes ++ rest) (hfit t (by simp))
    obtain ⟨ihyes, ihno⟩ := ih fun t' ht' => hfit t' (by simp [ht'])
    rw [List.flatMap_cons, List.append_assoc, List.length_cons]
    unfold readTexts
    by_cases hjoin : t.Joins
    · rw [hyes hjoin]
      dsimp only
      constructor
      · intro hall
        rw [ihyes fun t' ht' => hall t' (by simp [ht'])]
        rfl
      · intro hall
        rw [ihno]
        intro hrest
        exact hall (by simpa [hjoin] using hrest)
    · rw [hno hjoin]
      exact ⟨fun hall => absurd (hall t (by simp)) hjoin, fun _ => rfl⟩

/-! ### A menu -/

theorem length_flatMap_bytes_le {ts : List EncodedText} {t : EncodedText} (ht : t ∈ ts) :
    t.bytes.length ≤ (ts.flatMap EncodedText.bytes).length := by
  induction ts with
  | nil => exact absurd ht (by simp)
  | cons t' ts ih =>
    rw [List.flatMap_cons, List.length_append]
    rcases List.mem_cons.mp ht with rfl | ht
    · omega
    · have := ih ht
      omega

theorem Menu.length_text_lt {m : Menu} (h : m.body.length < 2 ^ 16) {t : EncodedText} (ht : t ∈ m.texts) :
    t.text.length < 2 ^ 32 := by
  have htext := t.length_text_le
  have hbytes := length_flatMap_bytes_le ht
  rw [Menu.body, List.length_cons, List.length_append] at h
  omega

theorem textCount_texts {n : ℕ} (h : n ≤ 252) :
    UInt8.ofNat n ≠ 0xff ∧ (textCount (UInt8.ofNat n)).toNat = n + 3 := by
  have hall : ∀ n : Fin 253, UInt8.ofNat n.val ≠ 0xff ∧ (textCount (UInt8.ofNat n.val)).toNat = n.val + 3 := by
    decide +kernel
  exact hall ⟨n, by omega⟩

theorem textCount_wraps {n : ℕ} (h : 252 < n) (hle : n ≤ 254) :
    (((textCount (UInt8.ofNat n)).toNat : ℤ) - 3).natMod (2 ^ 32) ≠ n := by
  obtain rfl | rfl : n = 253 ∨ n = 254 := by omega
  · decide
  · decide

theorem parseMenu_read {mmi : Mmi} (slotId : UInt8) (number : UInt16) (cb : MenuCall → ℤ) {choiceNb : UInt8}
    {data raw : List UInt8} {texts : List (List UInt8)} (hcb : mmi.hasCallback kind = true)
    (hread : readTexts true (textCount choiceNb).toNat data = some (some (texts, raw))) :
    ∃ result, parseMenu mmi slotId number kind true cb (choiceNb :: data) =
      some (result, [⟨kind, slotId, number, texts[0]?, texts[1]?, texts[2]?,
        (((textCount choiceNb).toNat : ℤ) - 3).natMod (2 ^ 32), texts.drop 3,
        if choiceNb = 0xff then some raw else none⟩]) := by
  unfold parseMenu
  dsimp only
  rw [hread]
  dsimp only
  rw [if_pos hcb]
  exact ⟨_, rfl⟩

theorem itemCount_of_parseMenu {mmi : Mmi} {slotId : UInt8} {number : UInt16} {cb : MenuCall → ℤ} {choiceNb : UInt8}
    {data : List UInt8} {result : ℤ} {call : MenuCall}
    (h : parseMenu mmi slotId number kind true cb (choiceNb :: data) = some (result, [call])) :
    call.itemCount = (((textCount choiceNb).toNat : ℤ) - 3).natMod (2 ^ 32) := by
  unfold parseMenu at h
  dsimp only at h
  split at h
  · exact absurd h (by simp)
  · exact absurd h (by simp)
  · split at h
    · obtain ⟨-, hcall⟩ := Prod.mk.inj (Option.some.inj h)
      rw [← (List.cons.inj hcall).1]
    · exact absurd h (by simp)

theorem natMod_itemCount {n : ℕ} (h : n ≤ 252) : (((n + 3 : ℕ) : ℤ) - 3).natMod (2 ^ 32) = n := by
  rw [Int.natMod]
  omega

/-- **A menu in one piece.** -/
theorem parseMenu_delivers_iff (mmi : Mmi) (slotId : UInt8) (number : UInt16) (cb : MenuCall → ℤ) {m : Menu}
    (hcb : mmi.hasCallback kind = true) (hfit : ∀ t ∈ m.texts, t.text.length < 2 ^ 32) :
    (∃ result, parseMenu mmi slotId number kind true cb m.body = some (result, [m.call kind slotId number])) ↔
      m.Readable := by
  obtain ⟨title, subTitle, bottom, items⟩ := m
  cases items with
  | texts items le =>
    have hbody : Menu.body ⟨title, subTitle, bottom, .texts items le⟩ =
        UInt8.ofNat items.length :: (([title, subTitle, bottom] ++ items).flatMap EncodedText.bytes ++ []) := rfl
    rw [hbody]
    by_cases hcount : items.length ≤ 252
    · obtain ⟨hnotraw, htexts⟩ := textCount_texts hcount
      have hlength : ([title, subTitle, bottom] ++ items).length = items.length + 3 := by simp
      obtain ⟨hyes, hno⟩ := readTexts_encoded ([title, subTitle, bottom] ++ items) [] hfit
      rw [hlength, ← htexts] at hyes hno
      constructor
      · rintro ⟨result, hparse⟩
        refine ⟨hcount, ?_⟩
        by_contra hjoin
        unfold parseMenu at hparse
        dsimp only at hparse
        rw [hno hjoin] at hparse
        exact absurd hparse (by simp)
      · rintro ⟨-, hjoin⟩
        obtain ⟨result, hparse⟩ := parseMenu_read slotId number cb hcb (hyes hjoin)
        refine ⟨result, ?_⟩
        rw [hparse, htexts, natMod_itemCount hcount, if_neg hnotraw]
        rfl
    · refine iff_of_false ?_ fun h => hcount h.1
      rintro ⟨result, hparse⟩
      have hitems := itemCount_of_parseMenu hparse
      exact textCount_wraps (by omega) le hitems.symm
  | raw data =>
    have hbody : Menu.body ⟨title, subTitle, bottom, .raw data⟩ =
        0xff :: (([title, subTitle, bottom] ++ []).flatMap EncodedText.bytes ++ data) := rfl
    rw [hbody]
    obtain ⟨hyes, hno⟩ := readTexts_encoded ([title, subTitle, bottom] ++ []) data hfit
    have htexts : ([title, subTitle, bottom] ++ []).length = (textCount 0xff).toNat := rfl
    rw [htexts] at hyes hno
    constructor
    · rintro ⟨result, hparse⟩
      refine ⟨trivial, ?_⟩
      by_contra hjoin
      unfold parseMenu at hparse
      dsimp only at hparse
      rw [hno hjoin] at hparse
      exact absurd hparse (by simp)
    · rintro ⟨-, hjoin⟩
      obtain ⟨result, hparse⟩ := parseMenu_read slotId number cb hcb (hyes hjoin)
      exact ⟨result, hparse⟩

theorem receiveObject_single {mmi : Mmi} {number : UInt16} {mem : MmiMemory} {data bytes : List UInt8}
    (hdata : objectData data = some bytes) (hfree : mmi.locked = false) (hempty : mmi.block number kind = .empty)
    (hmem : mem.block = true) :
    ∃ status mmi', 0 < status ∧ (∀ k, mmi'.hasCallback k = mmi.hasCallback k) ∧
      receiveObject mmi number kind true mem data = some (status, mmi', some bytes) := by
  have hlt := length_objectData_lt hdata
  have hlocked : ¬ mmi.locked = true := by
    rw [hfree]
    decide
  cases hs : mmi.sessions.lookup number with
  | none =>
    refine ⟨1, mmi, by decide, fun _ => rfl, ?_⟩
    simp [receiveObject, hdata, hlocked, mmiDefragment, hs]
  | some s =>
    have hblock : s kind = .empty := by
      rw [← block_of_lookup hs]
      exact hempty
    have happ : appendBlock .empty true bytes = some (some bytes, .null) := by
      have hsize : (0 + bytes.length) % 2 ^ 32 = bytes.length := by omega
      have hreal : realloc .null bytes.length = some (some [], .null) := if_pos (by omega)
      unfold appendBlock Block.empty
      dsimp only
      rw [hsize, hreal]
      simp
    refine ⟨2, mmi.setBlock number s kind .empty, by decide, fun k => by cases k <;> rfl, ?_⟩
    simp [receiveObject, hdata, hlocked, mmiDefragment, hs, hblock, hmem, happ]

theorem objectData_field {form : LengthForm} {body : List UInt8} (h : body.length < form.limit) :
    objectData (form.field body.length ++ body) = some body := by
  unfold objectData
  rw [asn1Decode_field form h]
  dsimp only
  rw [List.length_append, if_neg (by omega), List.drop_left, List.take_length]

def lastTag (kind : ObjectKind) : UInt32 := if kind = .menu then tagMenuLast else tagListLast

theorem mmiMessage_single (others : UInt32 → List UInt8 → Option (ℤ × Mmi × List MenuCall)) (mmi : Mmi)
    (slotId : UInt8) (number : UInt16) (kind : ObjectKind) (mem : MmiMemory) (cb : MenuCall → ℤ)
    {body : List UInt8} {form : LengthForm} (hkind : kind = .menu ∨ kind = .list)
    (hform : body.length < form.limit) (hfree : mmi.locked = false)
    (hempty : mmi.block number kind = .empty) (hmem : mem.block = true) :
    ∃ mmi', (∀ k, mmi'.hasCallback k = mmi.hasCallback k) ∧
      mmiMessage others mmi slotId number mem cb
          (tagBytes (lastTag kind) ++ (form.field body.length ++ body)) =
        (parseMenu mmi' slotId number kind true cb body).map fun r => (r.1, mmi', r.2) := by
  obtain ⟨status, mmi', hpos, hsame, hreceive⟩ :=
    receiveObject_single (objectData_field hform) hfree hempty hmem
  have hmessage : mmiMessage others mmi slotId number mem cb
      (tagBytes (lastTag kind) ++ (form.field body.length ++ body)) =
      parseListMenu mmi slotId number kind true mem cb (form.field body.length ++ body) := by
    rcases hkind with rfl | rfl
    · rfl
    · rfl
  refine ⟨mmi', hsame, ?_⟩
  rw [hmessage]
  unfold parseListMenu
  rw [hreceive]
  dsimp only
  rw [if_neg (by omega), hmem]
  rfl

/-- **Menus and lists.**  While no fragment of the object is pending, the lock is free, the callback is
registered and there is memory, the application gets a menu or list as it was sent exactly if it is
readable. -/
theorem menu_delivered_iff (others : UInt32 → List UInt8 → Option (ℤ × Mmi × List MenuCall)) {mmi : Mmi}
    (slotId : UInt8) (number : UInt16) {kind : ObjectKind} {mem : MmiMemory} (cb : MenuCall → ℤ) {m : Menu}
    {form : LengthForm} (hkind : kind = .menu ∨ kind = .list) (hform : m.body.length < form.limit)
    (hfree : mmi.locked = false) (hcb : mmi.hasCallback kind = true) (hempty : mmi.block number kind = .empty)
    (hmem : mem.block = true) :
    (∃ result mmi', mmiMessage others mmi slotId number mem cb
        (tagBytes (lastTag kind) ++ (form.field m.body.length ++ m.body)) =
      some (result, mmi', [m.call kind slotId number])) ↔ m.Readable := by
  have hlimit : m.body.length < 2 ^ 16 := by
    cases form
    all_goals
      simp only [LengthForm.limit] at hform
      omega
  obtain ⟨mmi', hsame, heq⟩ := mmiMessage_single others mmi slotId number kind mem cb hkind hform hfree hempty hmem
  rw [heq, ← parseMenu_delivers_iff mmi' slotId number cb ((hsame kind).trans hcb)
    fun t ht => Menu.length_text_lt hlimit ht]
  constructor
  · rintro ⟨result, mmi'', hcall⟩
    obtain ⟨r, hr, hr'⟩ := Option.map_eq_some_iff.mp hcall
    refine ⟨r.1, ?_⟩
    rw [hr, ← (Prod.mk.inj (Prod.mk.inj hr').2).2]
  · rintro ⟨result, hparse⟩
    rw [hparse]
    exact ⟨result, mmi', rfl⟩

def emptyText : EncodedText := ⟨[], ⟨.short, [], by decide⟩⟩

/-- A menu with an empty title and `n` empty choices. -/
def emptyMenu (n : ℕ) (h : n ≤ 254) : Menu :=
  ⟨emptyText, emptyText, emptyText, .texts (List.replicate n emptyText) (by rw [List.length_replicate]; exact h)⟩

def menuMmi : Mmi := { Mmi.create with menuCallback := true }

theorem EncodedText.joins_of_head {f : List UInt8} {fs : List (List UInt8)} (heq : t.fragments = f :: fs)
    (hne : f ≠ []) : t.Joins := by
  intro f₁ f₂ rest heq' hnil
  rw [heq] at heq'
  exact hne ((List.cons.inj heq').1.trans (List.append_eq_nil_iff.mp hnil).1)

/-- "Main" in two fragments. -/
def mainText : EncodedText := ⟨[⟨.short, [0x4d, 0x61], by decide⟩], ⟨.one, [0x69, 0x6e], by decide⟩⟩

/-- "Card" in three fragments. -/
def cardText : EncodedText :=
  ⟨[⟨.two, [0x43, 0x61, 0x72], by decide⟩, ⟨.short, [], by decide⟩], ⟨.short, [0x64], by decide⟩⟩

def cardMenu : Menu := ⟨mainText, cardText, emptyText, .texts [cardText, mainText] (by decide)⟩

theorem menu_delivered_two : (∃ result mmi', mmiMessage (fun _ _ => none) menuMmi 0 1 enoughMemory (fun _ => 0)
      (tagBytes (lastTag .menu) ++ (LengthForm.short.field cardMenu.body.length ++ cardMenu.body)) =
      some (result, mmi', [cardMenu.call .menu 0 1])) ∧
    cardMenu.call .menu 0 1 = ⟨.menu, 0, 1, some [0x4d, 0x61, 0x69, 0x6e], some [0x43, 0x61, 0x72, 0x64], some [], 2,
      [[0x43, 0x61, 0x72, 0x64], [0x4d, 0x61, 0x69, 0x6e]], none⟩ := by
  have hmain : mainText.Joins := mainText.joins_of_head rfl (by simp)
  have hcard : cardText.Joins := cardText.joins_of_head rfl (by simp)
  have hempty : emptyText.Joins := fun f₁ f₂ rest heq => absurd heq (by simp [emptyText, EncodedText.fragments])
  have hread : cardMenu.Readable := by
    refine ⟨show 2 ≤ 252 by decide, fun t ht => ?_⟩
    simp only [Menu.texts, cardMenu, List.cons_append, List.nil_append, List.mem_cons, List.not_mem_nil,
      or_false] at ht
    rcases ht with rfl | rfl | rfl | rfl | rfl
    · exact hmain
    · exact hcard
    · exact hempty
    · exact hcard
    · exact hmain
  exact ⟨(menu_delivered_iff (fun _ _ => none) 0 1 (fun _ => 0) (.inl rfl) (by decide) rfl rfl rfl rfl).mpr hread,
    rfl⟩

/-- A menu with 253 choices: the number of texts is 0, and the callback is told of 4294967293 items. -/
theorem not_menu_delivered_253 : ¬ ∃ result mmi', mmiMessage (fun _ _ => none) menuMmi 0 1 enoughMemory
      (fun _ => 0) (tagBytes (lastTag .menu) ++ (LengthForm.two.field (emptyMenu 253 (by decide)).body.length ++
        (emptyMenu 253 (by decide)).body)) =
      some (result, mmi', [(emptyMenu 253 (by decide)).call .menu 0 1]) := by
  rintro ⟨result, mmi', hcall⟩
  have hlen : (emptyMenu 253 (by decide)).body.length < LengthForm.two.limit := by decide +kernel
  obtain ⟨mmi'', -, heq⟩ := mmiMessage_single (fun _ _ => none) menuMmi 0 1 .menu enoughMemory
    (fun _ => 0) (.inl rfl) hlen rfl rfl rfl
  rw [heq] at hcall
  obtain ⟨r, hr, hr'⟩ := Option.map_eq_some_iff.mp hcall
  have hcalls := (Prod.mk.inj (Prod.mk.inj hr').2).2
  have hparse : parseMenu mmi'' 0 1 .menu true (fun _ => 0) (emptyMenu 253 (by decide)).body =
      some (r.1, [(emptyMenu 253 (by decide)).call .menu 0 1]) := by
    rw [hr, ← hcalls]
  have hcount := itemCount_of_parseMenu hparse
  exact absurd hcount (by decide +kernel)

end BgtDvb.En50221
