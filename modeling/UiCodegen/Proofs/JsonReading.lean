import UiCodegen.Proofs.JsonReader

/-!
# Reading accepts the grammar

A text is read as a document exactly if the grammar says that it is one, and what is read is what
the grammar says that it stands for (`decode_eq_ok_iff_documentText`).  That reading a value follows
the grammar is an induction on the octets that are left (`yields_readValue`); that what the grammar
says is read, one on the text (`ValueText.readAs`).
-/

namespace UiCodegen.Document.Json

variable {t : Token} {pairs : Fields} {items read : List Value}

/-! ## What reading comes to -/

section

variable {at_ : Pointer} {i : Nat} {r r₁ r₂ : Reader} {v : Value}

def Reads (at_ : Pointer) (r : Reader) (v : Value) (r' : Reader) : Prop :=
  ∃ hlt, readValue valueBuilder at_ r = .ok ⟨(v, r'), hlt⟩

/-- The elements of an array are read on behind others, and the second reader is left. -/
def ReadsItems (at_ : Pointer) (i : Nat) (read : List Value) (r : Reader) (items : List Value)
    (r' : Reader) : Prop :=
  ∃ hlt, readItems valueBuilder at_ i read r = .ok ⟨(items, r'), hlt⟩

/-- The pairs of an object are read on behind others, and the second reader is left. -/
def ReadsFields (at_ : Pointer) (read : Fields) (r : Reader) (pairs : Fields) (r' : Reader) :
    Prop :=
  ∃ hlt, readFields valueBuilder at_ read r = .ok ⟨(pairs, r'), hlt⟩

lemma reads_scalar (hnext : r.next = .ok (t, r₁)) (hvalue : t.value? = some v) :
    Reads at_ r v r₁ := by
  refine ⟨Reader.next_shrinks hnext, ?_⟩
  unfold readValue
  split
  · simp_all
  rename_i token r' hnext'
  rw [hnext] at hnext'
  cases hnext'
  cases t <;> cases hvalue <;> rfl

lemma reads_array (hnext : r.next = .ok (.openArray, r₁))
    (hitems : ReadsItems at_ 0 [] r₁ items r₂) : Reads at_ r (.arr items) r₂ := by
  obtain ⟨hlt, hitems⟩ := hitems
  refine ⟨Nat.lt_trans hlt (Reader.next_shrinks hnext), ?_⟩
  unfold readValue
  split
  · simp_all
  rename_i token r' hnext'
  rw [hnext] at hnext'
  cases hnext'
  simp only [hitems]
  rfl

lemma reads_object (hnext : r.next = .ok (.openObject, r₁))
    (hfields : ReadsFields at_ [] r₁ pairs r₂) : Reads at_ r (.obj pairs) r₂ := by
  obtain ⟨hlt, hfields⟩ := hfields
  refine ⟨Nat.lt_trans hlt (Reader.next_shrinks hnext), ?_⟩
  unfold readValue
  split
  · simp_all
  rename_i token r' hnext'
  rw [hnext] at hnext'
  cases hnext'
  simp only [hfields]
  rfl

lemma readsItems_nil (hmore : r.more = false) (hnext : r.next = .ok (t, r₁)) :
    ReadsItems at_ i read r read.reverse r₁ := by
  refine ⟨Reader.next_shrinks hnext, ?_⟩
  unfold readItems
  rw [if_neg (by simp [hmore])]
  split
  · simp_all
  · rename_i hnext'
    rw [hnext] at hnext'
    cases hnext'
    rfl

lemma readsItems_cons (hmore : r.more = true) (hvalue : Reads (at_.index i) r v r₁)
    (hitems : ReadsItems at_ (i + 1) (v :: read) r₁ items r₂) :
    ReadsItems at_ i read r items r₂ := by
  obtain ⟨hlt, hvalue⟩ := hvalue
  obtain ⟨hlt', hitems⟩ := hitems
  refine ⟨Nat.lt_trans hlt' hlt, ?_⟩
  unfold readItems
  simp only [hmore, if_true, hvalue, hitems]

lemma readsFields_nil {read : Fields} (hmore : r.more = false) (hnext : r.next = .ok (t, r₁)) :
    ReadsFields at_ read r read.reverse r₁ := by
  refine ⟨Reader.next_shrinks hnext, ?_⟩
  unfold readFields
  rw [if_neg (by simp [hmore])]
  split
  · simp_all
  · rename_i hnext'
    rw [hnext] at hnext'
    cases hnext'
    rfl

lemma readsFields_cons {key : Bytes} {r₃ : Reader} {read : Fields} (hmore : r.more = true)
    (hnext : r.next = .ok (.str key, r₁)) (hvalue : Reads (at_.key key) r₁ v r₂)
    (hfields : ReadsFields at_ ((key, v) :: read) r₂ pairs r₃) :
    ReadsFields at_ read r pairs r₃ := by
  obtain ⟨hlt, hvalue⟩ := hvalue
  obtain ⟨hlt', hfields⟩ := hfields
  refine ⟨Nat.lt_trans (Nat.lt_trans hlt' hlt) (Reader.next_shrinks hnext), ?_⟩
  unfold readFields
  rw [if_pos hmore]
  split
  · simp_all
  · rename_i hnext'
    rw [hnext] at hnext'
    cases hnext'
    simp only [hvalue, hfields]
  · rename_i hkey hnext'
    rw [hnext] at hnext'
    cases hnext'
    exact absurd rfl (hkey key)

end

/-! ## What is read follows the grammar -/

/-- A closing mark where a value should come, or a key that is no string. -/
def Misplaced (cause : Cause) : Prop := cause = .keyNotString ∨ ∃ c, cause = .unexpectedDelimiter c

/-- What is read and the reader behind it are as they should be; if nothing is read, it is for a
reason that the tokens give. -/
def Yields {α : Type} {r : Reader} (good : α → Reader → Prop) :
    Except Fault { p : α × Reader // p.2.rest.length < r.rest.length } → Prop
  | .ok q => good q.1.1 q.1.2
  | .error fault => ¬ Misplaced fault.cause

/-- A value has to come next, for the array around it, if there is one, is not closed. -/
def AtValue (r : Reader) : Prop :=
  r.place = .top ∨ r.place = .objectColon ∨ (r.place = .arrayStart ∨ r.place = .arrayComma) ∧
    r.more = true

/-- The text of a value is read, with what may stand in front of it. -/
def ValueRead (r : Reader) (v : Value) (r' : Reader) : Prop :=
  ∃ lead s rest place, Leads r.place lead place ∧ place.allowsValue = true ∧ ValueText s v ∧
    r.rest = lead ++ (s ++ rest) ∧ r'.Stands rest place.afterValue r.outer

/-- The rest of an array is read, up to its closing bracket. -/
def ItemsRead (read : List Value) (r : Reader) (p : Place) (outer : List Place) (items : List Value)
    (r' : Reader) : Prop :=
  ∃ body rest more, items = read.reverse ++ more ∧ r.rest = body ++ 93 :: rest ∧
    r'.Stands rest p.afterValue outer ∧
    (r.place = .arrayStart → ValueText (91 :: (body ++ [93])) (.arr more)) ∧
    (r.place = .arrayComma → ItemsText body more)

/-- The rest of an object is read, up to its closing brace. -/
def FieldsRead (read : Fields) (r : Reader) (p : Place) (outer : List Place) (pairs : Fields)
    (r' : Reader) : Prop :=
  ∃ body rest more, pairs = read.reverse ++ more ∧ r.rest = body ++ 125 :: rest ∧
    r'.Stands rest p.afterValue outer ∧
    (r.place = .objectStart → ValueText (123 :: (body ++ [125])) (.obj more)) ∧
    (r.place = .objectComma → PairsText body more)

section

variable {r r' : Reader} {t : Token} {stop : Stop} {lead : Bytes} {place : Place} {p : Place}
  {v : Value} {r₁ : Reader} {outer : List Place}

lemma not_misplaced_of_next (h : r.next = .error stop) : ¬ Misplaced stop.cause := by
  have hscalar : ∀ {r : Reader} {c : UInt8} {rest : Bytes} {q : Place},
      r.scalar c rest q = .error stop → ¬ Misplaced stop.cause := by
    intro r c rest q h
    unfold Reader.scalar at h
    split at h
    · cases h
    · rename_i fault _
      cases h
      cases fault <;> simp [Reader.stop, Misplaced]
  unfold Reader.next Reader.token at h
  dsimp only at h
  split at h
  · cases h
    simp [Misplaced]
  · split_ifs at h
    all_goals first
      | exact hscalar h
      | cases h
        simp [Reader.refuse, Misplaced]

/-- Where a value has to come, the next token begins one. -/
lemma AtValue.tokenText (hr : AtValue r) (h : r.next = .ok (t, r')) :
    ∃ lead text place, Leads r.place lead place ∧ r.rest = lead ++ text ∧ place.allowsValue = true ∧
      t ≠ .closeArray ∧ TokenText text place r.outer t r' := by
  have hstands : r.Stands r.rest r.place r.outer := ⟨rfl, rfl, rfl⟩
  obtain ⟨lead, text, place, hlead, hrest, htoken⟩ := hstands.exists_tokenText_of_next h
  refine ⟨lead, text, place, hlead, hrest, ?_⟩
  rw [hrest] at hstands
  generalize hplace : r.place = q at hlead hstands
  rw [AtValue, hplace] at hr
  cases htoken with
  | openArray hallows hr' => exact ⟨hallows, by simp, .openArray hallows hr'⟩
  | openObject hallows hr' => exact ⟨hallows, by simp, .openObject hallows hr'⟩
  | scalar hvalue hs hallows hr' =>
    refine ⟨hallows, ?_, .scalar hvalue hs hallows hr'⟩
    rintro rfl
    cases hvalue
  -- No other token is read at the places where a value has to come.
  | closeArray harray hr' =>
    cases hlead with
    | spaces hb => rcases harray with rfl | rfl <;> simp [hstands.more_of_spaces hb rfl] at hr
    | separator hc hb hb' => cases hc <;> simp_all
  | closeObject hobject hr' | key htext hobject hr' =>
    cases hlead with
    | spaces hb => rcases hobject with rfl | rfl <;> simp at hr
    | separator hc hb hb' => cases hc <;> simp_all

/-- A container that does not go on is closed by the next token. -/
lemma closed_of_not_more (hmore : r.more = false) (h : r.next = .ok (t, r')) :
    ∃ b rest, IsSpaces b ∧
    ((r.place = .arrayStart ∨ r.place = .arrayComma) ∧ r.rest = b ++ 93 :: rest ∨
      (r.place = .objectStart ∨ r.place = .objectComma) ∧ r.rest = b ++ 125 :: rest) ∧
      ∀ p outer, r.outer = p :: outer → r'.Stands rest p.afterValue outer := by
  have hstands : r.Stands r.rest r.place r.outer := ⟨rfl, rfl, rfl⟩
  obtain ⟨lead, text, place, hlead, hrest, htoken⟩ := hstands.exists_tokenText_of_next h
  rw [hrest] at hstands
  obtain ⟨hb, rfl⟩ := hstands.isSpaces_of_not_more hlead hmore
  have hcloses : ∀ {c : UInt8} {rest : Bytes}, text = c :: rest → isSpace c = false →
      ¬ (c ≠ 93 ∧ c ≠ 125) := by
    rintro c rest rfl hc hne
    rw [hstands.more_of_spaces hb hc] at hmore
    simp [hne] at hmore
  cases htoken with
  | openArray | openObject | key => exact absurd (by decide) (hcloses rfl rfl)
  | scalar hvalue hs =>
    obtain ⟨c, rest, rfl, hspace, hc⟩ := hs.startsValue
    simp only [List.mem_cons, List.not_mem_nil, or_false, not_or] at hc
    exact absurd hc.2.2 (hcloses rfl hspace)
  | closeArray hplace hr' => exact ⟨lead, _, hb, .inl ⟨hplace, hrest⟩, hr'⟩
  | closeObject hplace hr' => exact ⟨lead, _, hb, .inr ⟨hplace, hrest⟩, hr'⟩

/-! ### Arrays -/

lemma ValueRead.inArray (h : ValueRead r v r')
    (hplace : r.place = .arrayStart ∨ r.place = .arrayComma) :
    r'.place = .arrayComma ∧ r'.outer = r.outer := by
  obtain ⟨lead, s, rest, place, hlead, hallows, -, -, hr'⟩ := h
  refine ⟨hr'.place.trans ?_, hr'.outer⟩
  generalize r.place = q at hlead hplace
  cases hlead with
  | spaces hb =>
    rcases hplace with rfl | rfl
    · rfl
    · cases hallows
  | separator hc hb hb' => cases hc <;> simp_all [Place.afterValue]

lemma itemsRead_nil
    (hplace : r.place = .arrayStart ∨ r.place = .arrayComma) (houter : r.outer = p :: outer)
    (hmore : r.more = false)
    (h : r.next = .ok (t, r')) : ItemsRead read r p outer read.reverse r' := by
  obtain ⟨b, rest, hb, ⟨-, hrest⟩ | ⟨hobject, -⟩, hr'⟩ := closed_of_not_more hmore h
  · exact ⟨b, rest, [], by simp, hrest, hr' p outer houter, fun _ => .emptyArray hb, fun _ =>
      .nil hb⟩
  · rcases hplace with hplace | hplace <;> simp [hplace] at hobject

lemma ItemsRead.cons {read items : List Value}
    (hplace : r.place = .arrayStart ∨ r.place = .arrayComma) (hvalue : ValueRead r v r₁)
    (hitems : ItemsRead (v :: read) r₁ p outer items r') : ItemsRead read r p outer items r' := by
  obtain ⟨hcomma, -⟩ := hvalue.inArray hplace
  obtain ⟨lead, s, rest, place, hlead, hallows, hs, hrest, hr₁⟩ := hvalue
  obtain ⟨body, after, more, rfl, hbody, hr', -, htail⟩ := hitems
  have htail := htail hcomma
  rw [hr₁.rest] at hbody
  subst hbody
  refine ⟨lead ++ (s ++ body), after, v :: more, by simp, by simp [hrest], hr', ?_, ?_⟩
  · intro hstart
    rw [hstart] at hlead
    cases hlead with
    | spaces hb => simpa using ValueText.array hb hs htail
    | separator hc => cases hc
  · intro hstart
    rw [hstart] at hlead
    cases hlead with
    | spaces => cases hallows
    | separator hc hb hb' =>
      cases hc
      simpa using ItemsText.cons hb hb' hs htail

/-! ### Objects -/

/-- Where a pair has to come, the next token is a key. -/
lemma key_of_next (hplace : r.place = .objectStart ∨ r.place = .objectComma) (hmore : r.more = true)
    (h : r.next = .ok (t, r')) :
    ∃ lead inside key rest place, Leads r.place lead place ∧
    (place = .objectStart ∨ place = .objectKey) ∧
      Spells inside key ∧ r.rest = lead ++ 34 :: (inside ++ 34 :: rest) ∧ t = .str key ∧
      r'.Stands rest .objectColon r.outer := by
  have hstands : r.Stands r.rest r.place r.outer := ⟨rfl, rfl, rfl⟩
  obtain ⟨lead, text, place, hlead, hrest, htoken⟩ := hstands.exists_tokenText_of_next h
  rw [hrest] at hstands
  have hplace' : place ∈ [.objectStart, .objectComma, .objectKey] := by
    generalize r.place = q at hlead hplace
    cases hlead with
    | spaces hb => rcases hplace with rfl | rfl <;> simp
    | separator hc hb hb' => cases hc <;> simp_all
  have hallows : place.allowsValue = false := by
    simp only [List.mem_cons, List.not_mem_nil, or_false] at hplace'
    rcases hplace' with rfl | rfl | rfl <;> rfl
  cases htoken with
  | key htext hkey hr' => exact ⟨lead, _, _, _, place, hlead, hkey, htext, hrest, rfl, hr'⟩
  | openArray hopen => simp [hallows] at hopen
  | openObject hopen => simp [hallows] at hopen
  | scalar _ _ hopen => simp [hallows] at hopen
  | closeArray harray => rcases harray with rfl | rfl <;> simp at hplace'
  | closeObject hobject =>
    generalize r.place = q at hlead hstands
    cases hlead with
    | spaces hb => simp [hstands.more_of_spaces hb rfl] at hmore
    | separator hc hb hb' => cases hc <;> simp_all

lemma fieldsRead_nil {read : Fields}
    (hplace : r.place = .objectStart ∨ r.place = .objectComma) (houter : r.outer = p :: outer)
    (hmore : r.more = false)
    (h : r.next = .ok (t, r')) : FieldsRead read r p outer read.reverse r' := by
  obtain ⟨b, rest, hb, ⟨harray, -⟩ | ⟨-, hrest⟩, hr'⟩ := closed_of_not_more hmore h
  · rcases hplace with hplace | hplace <;> simp [hplace] at harray
  · exact ⟨b, rest, [], by simp, hrest, hr' p outer houter, fun _ => .emptyObject hb, fun _ =>
      .nil hb⟩

/-- A key and a value are read, with what may stand in front of the key. -/
def PairRead (r : Reader) (pair : Bytes × Value) (r' : Reader) : Prop :=
  ∃ lead s rest place, Leads r.place lead place ∧ (place = .objectStart ∨ place = .objectKey) ∧
    PairText s pair ∧ r.rest = lead ++ (s ++ rest) ∧ r'.Stands rest .objectComma r.outer

lemma pairRead_of_next {key : Bytes} (hplace : r.place = .objectStart ∨ r.place = .objectComma)
    (hmore : r.more = true)
    (h : r.next = .ok (.str key, r₁)) (hvalue : ValueRead r₁ v r') : PairRead r (key, v) r' := by
  obtain ⟨lead, inside, _, rest, place, hlead, hplace, hkey, hrest, heq, hr₁⟩ :=
    key_of_next hplace hmore h
  cases heq
  obtain ⟨lead', s, after, place', hlead', hallows, hs, hrest', hr'⟩ := hvalue
  rw [hr₁.place] at hlead'
  rw [hr₁.rest] at hrest'
  rw [hr₁.outer] at hr'
  cases hlead' with
  | spaces => cases hallows
  | separator hc hb hb' =>
    cases hc
    refine ⟨lead, _, after, place, hlead, hplace, .mk hkey hb hb' hs, ?_, hr'⟩
    simp [hrest, hrest']

lemma FieldsRead.cons {read pairs : Fields} {pair : Bytes × Value}
    (hpair : PairRead r pair r₁) (hfields : FieldsRead (pair :: read) r₁ p outer pairs r') :
    FieldsRead read r p outer pairs r' := by
  obtain ⟨lead, s, rest, place, hlead, hkey, hs, hrest, hr₁⟩ := hpair
  obtain ⟨body, after, more, rfl, hbody, hr', -, htail⟩ := hfields
  have htail := htail hr₁.place
  rw [hr₁.rest] at hbody
  subst hbody
  refine ⟨lead ++ (s ++ body), after, pair :: more, by simp, by simp [hrest], hr', ?_, ?_⟩
  · intro hstart
    rw [hstart] at hlead
    cases hlead with
    | spaces hb => simpa using ValueText.object hb hs htail
    | separator hc => cases hc
  · intro hstart
    rw [hstart] at hlead
    cases hlead with
    | spaces => simp at hkey
    | separator hc hb hb' =>
      cases hc
      simpa using PairsText.cons hb hb' hs htail

end

/-! ### All values -/

mutual

lemma yields_readValue (at_ : Pointer) {r : Reader} (hr : AtValue r) :
    Yields (ValueRead r) (readValue valueBuilder at_ r) := by
  unfold readValue
  split
  · rename_i stop hnext
    exact not_misplaced_of_next hnext
  rename_i t r₁ hnext
  have hlt := Reader.next_shrinks hnext
  obtain ⟨lead, text, place, hlead, hrest, hallows, hclose, htoken⟩ := hr.tokenText hnext
  cases htoken with
  | openArray _ hr₁ =>
    have hitems := yields_readItems at_ 0 [] (.inl hr₁.place) hr₁.outer
    dsimp only
    split
    · rename_i hread
      rwa [hread] at hitems
    · rename_i items r₂ _ hread
      rw [hread] at hitems
      obtain ⟨body, rest, more, rfl, hbody, hr₂, harray, -⟩ := hitems
      rw [hr₁.rest] at hbody
      subst hbody
      exact ⟨lead, _, rest, place, hlead, hallows, harray hr₁.place, by simp [hrest], hr₂⟩
  | openObject _ hr₁ =>
    have hfields := yields_readFields at_ [] (.inl hr₁.place) hr₁.outer
    dsimp only
    split
    · rename_i hread
      rwa [hread] at hfields
    · rename_i pairs r₂ _ hread
      rw [hread] at hfields
      obtain ⟨body, rest, more, rfl, hbody, hr₂, hobject, -⟩ := hfields
      rw [hr₁.rest] at hbody
      subst hbody
      exact ⟨lead, _, rest, place, hlead, hallows, hobject hr₁.place, by simp [hrest], hr₂⟩
  | scalar hvalue hs _ hr₁ =>
    have hread : ValueRead r _ r₁ := ⟨lead, _, _, place, hlead, hallows, hs, hrest, hr₁⟩
    cases t <;> cases hvalue <;> exact hread
  | closeArray => exact absurd rfl hclose
  | closeObject hobject | key _ hobject => rcases hobject with rfl | rfl <;> cases hallows
termination_by (r.rest.length, 0)

lemma yields_readItems (at_ : Pointer) (i : Nat) (read : List Value) {r : Reader} {p : Place}
    {outer : List Place}
    (hplace : r.place = .arrayStart ∨ r.place = .arrayComma) (houter : r.outer = p :: outer) :
    Yields (ItemsRead read r p outer) (readItems valueBuilder at_ i read r) := by
  unfold readItems
  split
  · rename_i hmore
    have hvalue := yields_readValue (at_.index i) (r := r) (.inr (.inr ⟨hplace, hmore⟩))
    split
    · rename_i hread
      rwa [hread] at hvalue
    rename_i v r₁ hlt hread
    rw [hread] at hvalue
    obtain ⟨hcomma, houter₁⟩ := ValueRead.inArray hvalue hplace
    have hitems := yields_readItems at_ (i + 1) (v :: read) (.inr hcomma) (houter₁.trans houter)
    split
    · rename_i hread
      rwa [hread] at hitems
    · rename_i hread
      rw [hread] at hitems
      exact ItemsRead.cons hplace hvalue hitems
  · rename_i hmore
    split
    · rename_i hnext
      exact not_misplaced_of_next hnext
    · rename_i hnext
      exact itemsRead_nil hplace houter (by simpa using hmore) hnext
termination_by (r.rest.length, 1)

lemma yields_readFields (at_ : Pointer) (read : Fields) {r : Reader} {p : Place}
    {outer : List Place}
    (hplace : r.place = .objectStart ∨ r.place = .objectComma) (houter : r.outer = p :: outer) :
    Yields (FieldsRead read r p outer) (readFields valueBuilder at_ read r) := by
  unfold readFields
  split
  · rename_i hmore
    split
    · rename_i hnext
      exact not_misplaced_of_next hnext
    · rename_i key r₁ hnext
      have hlt := Reader.next_shrinks hnext
      obtain ⟨_, _, _, _, _, -, -, -, -, -, hr₁⟩ := key_of_next hplace hmore hnext
      have hvalue := yields_readValue (at_.key key) (r := r₁) (.inr (.inl hr₁.place))
      dsimp only
      split
      · rename_i hread
        rwa [hread] at hvalue
      rename_i v r₂ hlt₂ hread
      rw [hread] at hvalue
      have hshrunk : r₂.rest.length < r.rest.length := Nat.lt_trans hlt₂ hlt
      have hpair := pairRead_of_next hplace hmore hnext hvalue
      obtain ⟨_, _, _, _, -, -, -, -, hr₂⟩ := hpair
      have hfields :=
        yields_readFields at_ ((key, v) :: read) (.inr hr₂.place) (hr₂.outer.trans houter)
      split
      · rename_i hread
        rwa [hread] at hfields
      · rename_i hread
        rw [hread] at hfields
        exact FieldsRead.cons (pairRead_of_next hplace hmore hnext hvalue) hfields
    · rename_i t r₁ hkey hnext
      obtain ⟨_, _, key, _, _, -, -, -, -, rfl, -⟩ := key_of_next hplace hmore hnext
      exact absurd rfl (hkey key)
  · rename_i hmore
    split
    · rename_i hnext
      exact not_misplaced_of_next hnext
    · rename_i hnext
      exact fieldsRead_nil hplace houter (by simpa using hmore) hnext
termination_by (r.rest.length, 1)

end

/-! ## What the grammar says is read -/

lemma ItemsText.endsNumber {s behind : Bytes} {items : List Value} (h : ItemsText s items) :
    EndsNumber (s ++ 93 :: behind) := by
  cases h with
  | nil hb => exact hb.endsNumber (endsNumber_cons (by simp) behind)
  | cons hb =>
    rw [List.append_assoc]
    exact hb.endsNumber (endsNumber_cons (by simp) _)

lemma PairsText.endsNumber {s behind : Bytes} {pairs : Fields} (h : PairsText s pairs) :
    EndsNumber (s ++ 125 :: behind) := by
  cases h with
  | nil hb => exact hb.endsNumber (endsNumber_cons (by simp) behind)
  | cons hb =>
    rw [List.append_assoc]
    exact hb.endsNumber (endsNumber_cons (by simp) _)

def ReadAs (s : Bytes) (v : Value) : Prop :=
  ∀ (at_ : Pointer) {r : Reader} {p place : Place} {outer : List Place} {lead behind : Bytes},
    r.Stands (lead ++ (s ++ behind)) p outer → Leads p lead place → place.allowsValue = true →
      EndsNumber behind →
    ∃ r', Reads at_ r v r' ∧ r'.Stands behind place.afterValue outer

def ItemsReadAs (s : Bytes) (items : List Value) : Prop :=
  ∀ (at_ : Pointer) (i : Nat) (read : List Value) {r : Reader} {p : Place} {outer : List Place}
    {behind : Bytes}, r.Stands (s ++ 93 :: behind) .arrayComma (p :: outer) →
    ∃ r', ReadsItems at_ i read r (read.reverse ++ items) r' ∧ r'.Stands behind p.afterValue outer

def PairReadAs (s : Bytes) (pair : Bytes × Value) : Prop :=
  ∀ (at_ : Pointer) {r : Reader} {p place : Place} {outer : List Place} {lead behind : Bytes},
    r.Stands (lead ++ (s ++ behind)) p outer → Leads p lead place →
      (place = .objectStart ∨ place = .objectKey) →
    EndsNumber behind →
    ∃ r₁ r', r.more = true ∧ r.next = .ok (.str pair.1, r₁) ∧ Reads (at_.key pair.1) r₁ pair.2 r' ∧
      r'.Stands behind .objectComma outer

def FieldsReadAs (s : Bytes) (pairs : Fields) : Prop :=
  ∀ (at_ : Pointer) (read : Fields) {r : Reader} {p : Place} {outer : List Place} {behind : Bytes},
    r.Stands (s ++ 125 :: behind) .objectComma (p :: outer) →
    ∃ r', ReadsFields at_ read r (read.reverse ++ pairs) r' ∧ r'.Stands behind p.afterValue outer

section

variable {r : Reader} {s lead behind : Bytes} {v : Value} {p q place : Place} {outer : List Place}
  {b body tail : Bytes} {pairs : Fields} {items : List Value}

lemma ScannedAs.readAs (h : ScannedAs s v) : ReadAs s v := by
  intro at_ r p place outer lead behind hr hlead hallows hbehind
  obtain ⟨c, rest, t, rfl, hvalue, hscan⟩ := h
  obtain ⟨n, hscan⟩ := hscan behind hbehind
  obtain ⟨⟨hspace, hc⟩, -⟩ := Reader.startsValue_of_scanScalar hscan
  simp only [List.mem_cons, List.not_mem_nil, or_false, not_or] at hc
  obtain ⟨r₀, hnext, hr₀⟩ := hr.next_of_leads hlead hspace hc.2.1 hc.1
  obtain ⟨r', htoken, hr'⟩ := hr₀.scalar hallows hscan
  exact ⟨r', reads_scalar (hnext.trans htoken) hvalue, hr'⟩

lemma itemsReadAs_nil (hb : IsSpaces b) (hplace : place = .arrayStart ∨ place = .arrayComma)
    (hr : r.Stands (b ++ 93 :: behind) place (p :: outer)) (at_ : Pointer) (i : Nat)
    (read : List Value) :
    ∃ r', ReadsItems at_ i read r read.reverse r' ∧ r'.Stands behind p.afterValue outer := by
  obtain ⟨r', hnext, hr'⟩ := (hr.skipSpaces hb rfl).closeArray hplace
  rw [hr.next_skipSpace hb rfl] at hnext
  exact ⟨r', readsItems_nil (by simp [hr.more_of_spaces hb rfl]) hnext, hr'⟩

lemma fieldsReadAs_nil (hb : IsSpaces b) (hplace : place = .objectStart ∨ place = .objectComma)
    (hr : r.Stands (b ++ 125 :: behind) place (p :: outer)) (at_ : Pointer) (read : Fields) :
    ∃ r', ReadsFields at_ read r read.reverse r' ∧ r'.Stands behind p.afterValue outer := by
  obtain ⟨r', hnext, hr'⟩ := (hr.skipSpaces hb rfl).closeObject hplace
  rw [hr.next_skipSpace hb rfl] at hnext
  exact ⟨r', readsFields_nil (by simp [hr.more_of_spaces hb rfl]) hnext, hr'⟩

lemma more_of_startsValue {c : UInt8} {rest : Bytes} (hr : r.Stands (lead ++ c :: rest) p outer)
    (hlead : Leads p lead place) (hc : StartsValue c) : r.more = true := by
  by_contra hmore
  obtain ⟨hb, rfl⟩ := hr.isSpaces_of_not_more hlead (by simpa using hmore)
  obtain ⟨hspace, hc⟩ := hc
  simp only [List.mem_cons, List.not_mem_nil, or_false, not_or] at hc
  simp [hr.more_of_spaces hb hspace, hc] at hmore

lemma itemsReadAs_cons (hs : ValueText s v) (htail : ItemsText tail items)
    (hread : ReadAs s v) (hreadTail : ItemsReadAs tail items) (hlead : Leads place lead q)
    (hplace : q = .arrayStart ∨ q = .arrayValue)
    (hr : r.Stands (lead ++ (s ++ (tail ++ 93 :: behind))) place (p :: outer))
    (at_ : Pointer) (i : Nat)
    (read : List Value) :
    ∃ r', ReadsItems at_ i read r (read.reverse ++ v :: items) r' ∧
    r'.Stands behind p.afterValue outer := by
  have hallows : q.allowsValue = true ∧ q.afterValue = .arrayComma := by
    rcases hplace with rfl | rfl <;> exact ⟨rfl, rfl⟩
  obtain ⟨c, rest, rfl, hc⟩ := hs.startsValue
  have hmore := more_of_startsValue hr hlead hc
  obtain ⟨r₁, hvalue, hr₁⟩ := hread (at_.index i) hr hlead hallows.1 htail.endsNumber
  rw [hallows.2] at hr₁
  obtain ⟨r', hitems, hr'⟩ := hreadTail at_ (i + 1) (v :: read) hr₁
  refine ⟨r', readsItems_cons hmore hvalue ?_, hr'⟩
  simpa using hitems

lemma fieldsReadAs_cons {pair : Bytes × Value} (htail : PairsText tail pairs)
    (hread : PairReadAs s pair) (hreadTail : FieldsReadAs tail pairs) (hlead : Leads place lead q)
    (hplace : q = .objectStart ∨ q = .objectKey)
    (hr : r.Stands (lead ++ (s ++ (tail ++ 125 :: behind))) place (p :: outer)) (at_ : Pointer)
    (read : Fields) :
    ∃ r', ReadsFields at_ read r (read.reverse ++ pair :: pairs) r' ∧
    r'.Stands behind p.afterValue outer := by
  obtain ⟨r₁, r₂, hmore, hnext, hvalue, hr₂⟩ := hread at_ hr hlead hplace htail.endsNumber
  obtain ⟨r', hfields, hr'⟩ := hreadTail at_ (pair :: read) hr₂
  refine ⟨r', readsFields_cons hmore hnext hvalue ?_, hr'⟩
  simpa using hfields

lemma readAs_array
    (hbody : ∀ (at_ : Pointer) {r : Reader} {p : Place} {outer : List Place} {behind : Bytes},
      r.Stands (body ++ 93 :: behind) .arrayStart (p :: outer) →
      ∃ r', ReadsItems at_ 0 [] r items r' ∧ r'.Stands behind p.afterValue outer) :
    ReadAs (91 :: (body ++ [93])) (.arr items) := by
  intro at_ r p place outer lead behind hr hlead hallows _
  rw [List.cons_append, List.append_assoc] at hr
  obtain ⟨r₀, hnext, hr₀⟩ := hr.next_of_leads hlead rfl (by decide) (by decide)
  obtain ⟨r₁, htoken, hr₁⟩ := hr₀.openArray hallows
  obtain ⟨r', hitems, hr'⟩ := hbody at_ hr₁
  exact ⟨r', reads_array (hnext.trans htoken) hitems, hr'⟩

lemma readAs_object
    (hbody : ∀ (at_ : Pointer) {r : Reader} {p : Place} {outer : List Place} {behind : Bytes},
      r.Stands (body ++ 125 :: behind) .objectStart (p :: outer) →
      ∃ r', ReadsFields at_ [] r pairs r' ∧ r'.Stands behind p.afterValue outer) :
    ReadAs (123 :: (body ++ [125])) (.obj pairs) := by
  intro at_ r p place outer lead behind hr hlead hallows _
  rw [List.cons_append, List.append_assoc] at hr
  obtain ⟨r₀, hnext, hr₀⟩ := hr.next_of_leads hlead rfl (by decide) (by decide)
  obtain ⟨r₁, htoken, hr₁⟩ := hr₀.openObject hallows
  obtain ⟨r', hfields, hr'⟩ := hbody at_ hr₁
  exact ⟨r', reads_object (hnext.trans htoken) hfields, hr'⟩

lemma pairReadAs {inside key b' : Bytes} (hkey : Spells inside key) (hb : IsSpaces b)
    (hb' : IsSpaces b')
    (hread : ReadAs s v) :
    PairReadAs (34 :: (inside ++ 34 :: (b ++ 58 :: (b' ++ s)))) (key, v) := by
  intro at_ r p place outer lead behind hr hlead hplace hbehind
  rw [List.cons_append, List.append_assoc, List.cons_append] at hr
  obtain ⟨r₀, hnext, hr₀⟩ := hr.next_of_leads hlead rfl (by decide) (by decide)
  obtain ⟨r₁, htoken, hr₁⟩ := hr₀.key hplace (scanStringToken_of_spells hkey _)
  have hcolon : r₁.Stands ((b ++ 58 :: b') ++ (s ++ behind)) .objectColon
      outer := by simpa using hr₁
  obtain ⟨r', hvalue, hr'⟩ := hread (at_.key key) hcolon (.separator .value hb hb') rfl hbehind
  exact ⟨r₁, r', more_of_startsValue hr hlead (by simp [StartsValue, isSpace]),
    hnext.trans htoken, hvalue, hr'⟩

end

mutual

lemma ValueText.readAs {s : Bytes} {v : Value} (h : ValueText s v) : ReadAs s v := by
  cases h with
  | null => exact scannedAs_null.readAs
  | yes => exact scannedAs_true.readAs
  | no => exact scannedAs_false.readAs
  | number h => exact (scannedAs_number h).readAs
  | string h => exact (scannedAs_string h).readAs
  | emptyArray hb =>
    exact readAs_array fun at_ _ _ _ _ hr => itemsReadAs_nil hb (.inl rfl) hr at_ 0 []
  | @array b s tail _ _ hb hv htail =>
    rw [← List.append_assoc s, ← List.append_assoc b]
    refine readAs_array fun at_ r p outer behind hr => ?_
    rw [List.append_assoc, List.append_assoc] at hr
    exact itemsReadAs_cons hv htail hv.readAs htail.readAs (.spaces hb) (.inl rfl) hr at_ 0 []
  | emptyObject hb =>
    exact readAs_object fun at_ _ _ _ _ hr => fieldsReadAs_nil hb (.inl rfl) hr at_ []
  | @object b s tail _ _ hb hpair htail =>
    rw [← List.append_assoc s, ← List.append_assoc b]
    refine readAs_object fun at_ r p outer behind hr => ?_
    rw [List.append_assoc, List.append_assoc] at hr
    exact fieldsReadAs_cons htail hpair.readAs htail.readAs (.spaces hb) (.inl rfl) hr at_ []

lemma ItemsText.readAs {s : Bytes} {items : List Value} (h : ItemsText s items) :
    ItemsReadAs s items := by
  cases h with
  | nil hb =>
    intro at_ i read r p outer behind hr
    rw [List.append_nil]
    exact itemsReadAs_nil hb (.inr rfl) hr at_ i read
  | cons hb hb' hv hrest =>
    intro at_ i read r p outer behind hr
    exact itemsReadAs_cons hv hrest hv.readAs hrest.readAs (.separator .element hb hb') (.inr rfl)
      (by simpa using hr) at_ i read

lemma PairText.readAs {s : Bytes} {pair : Bytes × Value} (h : PairText s pair) :
    PairReadAs s pair := by
  cases h with
  | mk hkey hb hb' hv => exact pairReadAs hkey hb hb' hv.readAs

lemma PairsText.readAs {s : Bytes} {pairs : Fields} (h : PairsText s pairs) :
    FieldsReadAs s pairs := by
  cases h with
  | nil hb =>
    intro at_ read r p outer behind hr
    rw [List.append_nil]
    exact fieldsReadAs_nil hb (.inr rfl) hr at_ read
  | cons hb hb' hpair hrest =>
    intro at_ read r p outer behind hr
    exact fieldsReadAs_cons hrest hpair.readAs hrest.readAs (.separator .pair hb hb') (.inr rfl)
      (by simpa using hr) at_ read

end

/-! ## Documents -/

/-- Nothing but white space may stand behind the value of a document. -/
lemma expectEnd_eq_ok_iff {r : Reader} {text : Bytes} {outer : List Place}
    (hr : r.Stands text .top outer) : expectEnd r = .ok () ↔ IsSpaces text := by
  obtain hspaces | ⟨b, c, rest, hb, hc, rfl⟩ := spaces_or_octet text
  · have hnext := Reader.next_of_isSpaces (hr.rest.symm ▸ hspaces)
    simp [expectEnd, hnext, hspaces]
  · have hskip := hr.skipSpaces hb hc
    have hself : r.skipSpace.skipSeparator = r.skipSpace :=
      (hskip.skipSeparator_cases hc).resolve_right fun ⟨_, h⟩ => nomatch h
    have hnext : r.next = r.skipSpace.token := by rw [← hr.next_skipSpace hb hc, Reader.next, hself]
    constructor
    · intro h
      unfold expectEnd at h
      split at h
      · rename_i offset hend
        exact absurd (hnext.symm.trans hend) (hskip.token_ne_endOfInput hc offset)
      · cases h
      · cases h
    · intro h
      have hspace := isSpace_iff.2 (h c (by simp))
      simp [hc] at hspace

/-- A text is read as a document exactly if the grammar says that it is one. -/
lemma decode_eq_ok_iff_documentText {s : Bytes} {v : Value} :
    decode s = .ok v ↔ DocumentText s v := by
  have hstart : Reader.Stands { rest := s } s .top [] := ⟨rfl, rfl, rfl⟩
  constructor
  · intro h
    have hyields := yields_readValue .root (r := { rest := s }) (.inl rfl)
    unfold decode at h
    split at h
    · cases h
    rename_i hread
    rw [hread] at hyields
    obtain ⟨lead, body, after, place, hlead, hallows, hbody, hrest, hr'⟩ := hyields
    cases hlead with
    | separator hc => cases hc
    | spaces hb =>
      split at h
      · cases h
      · rename_i hend
        cases h
        exact ⟨lead, body, after, hrest, hb, hbody, (expectEnd_eq_ok_iff hr').1 hend⟩
  · rintro ⟨before, body, after, rfl, hbefore, hbody, hafter⟩
    have hends : EndsNumber after := by
      simpa using hafter.endsNumber endsNumber_nil
    obtain ⟨r', ⟨hlt, hread⟩, hr'⟩ := hbody.readAs .root hstart (.spaces hbefore) rfl hends
    unfold decode
    simp only [hread, (expectEnd_eq_ok_iff hr').2 hafter]

lemma not_misplaced_of_decode {s : Bytes} {fault : Fault} (h : decode s = .error fault) :
    ¬ Misplaced fault.cause := by
  have hyields := yields_readValue .root (r := { rest := s }) (.inl rfl)
  unfold decode at h
  split at h
  · rename_i hread
    cases h
    rwa [hread] at hyields
  · split at h
    · rename_i hend
      cases h
      unfold expectEnd at hend
      split at hend <;> cases hend <;> simp [Misplaced]
    · cases h

/-- A text is read as a document exactly if it is one value with white space around it, and what is
read is the value that the grammar gives it: elements and pairs as they come, those with the same
key included.  A text that is not read is never refused for a closing mark in place of a value or
for a key that is no string. -/
theorem decode_accepts_exactly_the_grammar (s : Bytes) :
    (∀ v, decode s = .ok v ↔ DocumentText s v) ∧
      ∀ fault, decode s = .error fault → fault.cause ≠ .keyNotString ∧
      ∀ c, fault.cause ≠ .unexpectedDelimiter c := by
  refine ⟨fun v => decode_eq_ok_iff_documentText, fun fault h => ⟨fun heq => ?_, fun c heq => ?_⟩⟩
  · exact not_misplaced_of_decode h (.inl heq)
  · exact not_misplaced_of_decode h (.inr ⟨c, heq⟩)

/-- A document with a key twice, a surrogate alone and an octet that is part of no character. -/
def repeatedKeys : Bytes :=
  (" \x7b\"a\": [1, -0.5e+3],\t\"a\" :\"\\ud800" : Bytes) ++ [0xFF] ++ ("\"\x7d\n" : Bytes)

set_option maxRecDepth 100000 in
theorem repeatedKeys_decode_accepts_exactly_the_grammar :
    DocumentText repeatedKeys
        (.obj
          [("a", .arr [.num "1", .num "-0.5e+3"]),
            ("a", .str [0xEF, 0xBF, 0xBD, 0xEF, 0xBF, 0xBD])]) ∧
      ∃ fault, decode "\x7b\"a\":1,\x7d" = .error fault ∧ fault.cause ≠ .keyNotString ∧
        ∀ c, fault.cause ≠ .unexpectedDelimiter c := by
  refine ⟨((decode_accepts_exactly_the_grammar _).1 _).1 (by cbv), _, by cbv, ?_⟩
  exact (decode_accepts_exactly_the_grammar "\x7b\"a\":1,\x7d").2 _ (by cbv)

end UiCodegen.Document.Json
