import UiCodegen.Proofs.JsonReading

/-!
# Reading what was written

A document that was read holds well-formed texts and number literals of JSON only
(`proper_of_decode`), and such a document is read from its compact text as it is, every pair in its
place (`decode_of_encodeBefore?`): the compact text is one of those that the grammar gives to the
document (`Proper.valueText`).
-/

namespace UiCodegen.Document.Json

/-! ## Documents that were read -/

/-- A value whose texts are well-formed and whose numbers are literals of JSON. -/
inductive Proper : Value → Prop
  | null : Proper .null
  | bool (b : Bool) : Proper (.bool b)
  | num {literal : Bytes} (h : isNumber literal = true) : Proper (.num literal)
  | str {text : Bytes} (h : Utf8.IsText text) : Proper (.str text)
  | arr {items : List Value} (h : ∀ v ∈ items, Proper v) : Proper (.arr items)
  | obj {pairs : List (Bytes × Value)} (hkeys : ∀ pair ∈ pairs, Utf8.IsText pair.1)
      (hvalues : ∀ pair ∈ pairs, Proper pair.2) : Proper (.obj pairs)

mutual

variable {code : Nat} {first : Bool} {behind text : Bytes} {v : Value} {pairs : Fields}
  {items : List Value}

lemma ValueText.proper {s : Bytes} {v : Value} (h : ValueText s v) : Proper v := by
  cases h with
  | null => exact .null
  | yes => exact .bool true
  | no => exact .bool false
  | number h => exact .num (isNumber_iff_isNumeral.2 h)
  | string h => exact .str h.isText
  | emptyArray => exact .arr (by simp)
  | array _ hv htail => exact .arr (List.forall_mem_cons.2 ⟨hv.proper, htail.proper⟩)
  | emptyObject => exact .obj (by simp) (by simp)
  | object _ hpair htail =>
    exact .obj (List.forall_mem_cons.2 ⟨hpair.proper.1, htail.proper.1⟩)
      (List.forall_mem_cons.2 ⟨hpair.proper.2, htail.proper.2⟩)

lemma ItemsText.proper {s : Bytes} {items : List Value} (h : ItemsText s items) :
    ∀ v ∈ items, Proper v := by
  cases h with
  | nil => simp
  | cons _ _ hv hrest => exact List.forall_mem_cons.2 ⟨hv.proper, hrest.proper⟩

lemma PairText.proper {s : Bytes} {pair : Bytes × Value} (h : PairText s pair) :
    Utf8.IsText pair.1 ∧ Proper pair.2 := by
  cases h with
  | mk hkey _ _ hv => exact ⟨hkey.isText, hv.proper⟩

lemma PairsText.proper {s : Bytes} {pairs : Fields} (h : PairsText s pairs) :
    (∀ pair ∈ pairs, Utf8.IsText pair.1) ∧ ∀ pair ∈ pairs, Proper pair.2 := by
  cases h with
  | nil => simp
  | cons _ _ hpair hrest =>
    exact ⟨List.forall_mem_cons.2 ⟨hpair.proper.1, hrest.proper.1⟩,
      List.forall_mem_cons.2 ⟨hpair.proper.2, hrest.proper.2⟩⟩

end

/-- A document that was read holds well-formed texts and number literals only. -/
lemma proper_of_decode {s : Bytes} (h : decode s = .ok v) : Proper v := by
  obtain ⟨_, _, _, -, -, hbody, -⟩ := decode_eq_ok_iff_documentText.1 h
  exact hbody.proper

/-! ## Escaping -/

lemma hexUnit?_fixedWidth (h : code < 0xD800) :
    ∃ a b c d, Integer.fixedWidth 16 4 code = [a, b, c, d] ∧ hexUnit? a b c d = some code := by
  have hdigit : ∀ d < 16, Integer.digit? (Integer.hexDigit d) = some d ∧
      isHexDigit (Integer.hexDigit d) := by
    decide
  obtain ⟨ha, hax⟩ := hdigit (code / 16 / 16 / 16 % 16) (by omega)
  obtain ⟨hb, hbx⟩ := hdigit (code / 16 / 16 % 16) (by omega)
  obtain ⟨hc, hcx⟩ := hdigit (code / 16 % 16) (by omega)
  obtain ⟨hd, hdx⟩ := hdigit (code % 16) (by omega)
  refine ⟨_, _, _, _, rfl, hexUnit?_eq_some_iff.2 ⟨by simp [hax, hbx, hcx, hdx], ?_⟩⟩
  simp only [hex4, List.foldl_cons, List.foldl_nil, ha, hb, hc, hd, Option.getD_some]
  omega

/-- A character is written as it is, by a short escape or by its digits, and stands for itself. -/
lemma spells_escapeChar (hcode : Utf8.IsScalar code) {rest : Bytes} (hrest : Spells rest text) :
    Spells (escapeChar false (.char code) ++ rest) (Utf8.encode code ++ text) := by
  have hdigits : code < 0xD800 → Spells ("\\u" ++ Integer.fixedWidth 16 4 code ++ rest)
      (Utf8.encode code ++ text) := by
    intro hsingle
    obtain ⟨a, b, c, d, hwidth, hunit⟩ := hexUnit?_fixedWidth hsingle
    rw [hwidth]
    exact .unit hunit hcode hrest
  simp only [escapeChar, beq_iff_eq, Bool.false_and, Bool.or_false, decide_eq_true_eq,
    Bool.or_eq_true]
  split_ifs with h1 h2 h3 h4 h5 h6 h7 h8 h9
  · exact h1 ▸ .escape (by decide) hrest
  · exact h2 ▸ .escape (by decide) hrest
  · exact h3 ▸ .escape (by decide) hrest
  · exact h4 ▸ .escape (by decide) hrest
  · exact h5 ▸ .escape (by decide) hrest
  · exact h6 ▸ .escape (by decide) hrest
  · exact h7 ▸ .escape (by decide) hrest
  · exact hdigits (by omega)
  · exact hdigits (by omega)
  · exact .char hcode (by omega) h1 h2 hrest

def escaped (text : Bytes) : Bytes := (Utf8.symbols text).flatMap (escapeChar false)

lemma encodeString_append (text rest : Bytes) :
    encodeString false text ++ rest = 34 :: (escaped text ++ 34 :: rest) := by
  simp [encodeString, escaped, show Bytes.ofString "\"" = [34] from rfl]

lemma spells_escaped (h : Utf8.IsText text) : Spells (escaped text) text := by
  induction h with
  | nil => exact .nil
  | char hcode _ ih =>
    rw [escaped, Utf8.symbols_encode_append hcode, List.flatMap_cons]
    exact spells_escapeChar hcode ih

/-! ## What is written -/

lemma encodeItems?_cons_eq_some {rest : List Value} :
      encodeItems? first (v :: rest) behind = some text ↔
      ∃ tail, encodeItems? false rest behind = some tail ∧ ∃ vtext,
        encodeBefore? v tail = some vtext ∧ (if first then vtext else 44 :: vtext) = text := by
  simp only [encodeItems?, Option.bind_eq_bind, Option.bind_eq_some_iff, Option.pure_def,
    Option.some.injEq]

lemma encodeFields?_cons_eq_some {pair : Bytes × Value} {rest : Fields} :
    encodeFields? first (pair :: rest) behind = some text ↔
      ∃ tail, encodeFields? false rest behind = some tail ∧ ∃ vtext,
      encodeBefore? pair.2 tail = some vtext ∧
        (if first then encodeString false pair.1 ++ 58 :: vtext else 44 ::
          (encodeString false pair.1 ++ 58 :: vtext)) = text := by
  simp only [encodeFields?, Option.bind_eq_bind, Option.bind_eq_some_iff, Option.pure_def,
    Option.some.injEq]

/-- Behind the first of the elements, each is written behind a comma. -/
lemma itemsText_of_encodeItems?
    (hitems : ∀ v ∈ items, ∀ behind text, encodeBefore? v behind = some text → ∃ s, ValueText s v ∧
      text = s ++ behind)
    (h : encodeItems? false items behind = some text) :
    ∃ s, ItemsText s items ∧ text = s ++ behind := by
  induction items generalizing text with
  | nil =>
    cases h
    exact ⟨[], .nil .nil, rfl⟩
  | cons v rest ih =>
    obtain ⟨hv, hrest⟩ := List.forall_mem_cons.1 hitems
    obtain ⟨tail, htail, vtext, hvtext, rfl⟩ := encodeItems?_cons_eq_some.1 h
    obtain ⟨stail, hstail, rfl⟩ := ih hrest htail
    obtain ⟨s, hs, rfl⟩ := hv _ _ hvtext
    exact ⟨_, .cons .nil .nil hs hstail, by simp⟩

/-- Behind the first of the pairs, each is written behind a comma. -/
lemma pairsText_of_encodeFields? (hkeys : ∀ pair ∈ pairs, Utf8.IsText pair.1)
    (hvalues : ∀ pair ∈ pairs, ∀ behind text, encodeBefore? pair.2 behind = some text →
      ∃ s, ValueText s pair.2 ∧ text = s ++ behind)
    (h : encodeFields? false pairs behind = some text) :
    ∃ s, PairsText s pairs ∧ text = s ++ behind := by
  induction pairs generalizing text with
  | nil =>
    cases h
    exact ⟨[], .nil .nil, rfl⟩
  | cons pair rest ih =>
    obtain ⟨hkey, hrestKeys⟩ := List.forall_mem_cons.1 hkeys
    obtain ⟨hv, hrest⟩ := List.forall_mem_cons.1 hvalues
    obtain ⟨tail, htail, vtext, hvtext, rfl⟩ := encodeFields?_cons_eq_some.1 h
    obtain ⟨stail, hstail, rfl⟩ := ih hrestKeys hrest htail
    obtain ⟨s, hs, rfl⟩ := hv _ _ hvtext
    refine ⟨_, .cons .nil .nil (.mk (spells_escaped hkey) .nil .nil hs) hstail, ?_⟩
    simp [encodeString_append]

lemma Proper.valueText (hv : Proper v) :
    ∀ behind text, encodeBefore? v behind = some text → ∃ s, ValueText s v ∧
    text = s ++ behind := by
  induction hv with
  | null =>
    rintro behind _ ⟨⟩
    exact ⟨_, .null, rfl⟩
  | bool b =>
    cases b with
    | true =>
      rintro behind _ ⟨⟩
      exact ⟨_, .yes, rfl⟩
    | false =>
      rintro behind _ ⟨⟩
      exact ⟨_, .no, rfl⟩
  | @num literal h =>
    intro behind text htext
    have hne : literal.isEmpty = false := by
      cases literal with
      | nil => cases h
      | cons => rfl
    have htext : some (literal ++ behind) =
        some text := by simpa [encodeBefore?, h, hne] using htext
    cases htext
    exact ⟨literal, .number (isNumber_iff_isNumeral.1 h), rfl⟩
  | @str text h =>
    rintro behind _ ⟨⟩
    exact ⟨_, .string (spells_escaped h), by simp [encodeString_append]⟩
  | @arr items hproper ih =>
    intro behind text htext
    obtain ⟨inner, hinner, rfl⟩ := Option.map_eq_some_iff.1 htext
    cases items with
    | nil =>
      cases hinner
      exact ⟨_, .emptyArray .nil, rfl⟩
    | cons v rest =>
      obtain ⟨hv, hrest⟩ := List.forall_mem_cons.1 ih
      obtain ⟨tail, htail, vtext, hvtext, rfl⟩ := encodeItems?_cons_eq_some.1 hinner
      obtain ⟨stail, hstail, rfl⟩ := itemsText_of_encodeItems? hrest htail
      obtain ⟨s, hs, rfl⟩ := hv _ _ hvtext
      exact ⟨_, .array .nil hs hstail, by simp⟩
  | @obj pairs hkeys hvalues ih =>
    intro behind text htext
    obtain ⟨inner, hinner, rfl⟩ := Option.map_eq_some_iff.1 htext
    cases pairs with
    | nil =>
      cases hinner
      exact ⟨_, .emptyObject .nil, rfl⟩
    | cons pair rest =>
      obtain ⟨hkey, hrestKeys⟩ := List.forall_mem_cons.1 hkeys
      obtain ⟨hv, hrest⟩ := List.forall_mem_cons.1 ih
      obtain ⟨tail, htail, vtext, hvtext, rfl⟩ := encodeFields?_cons_eq_some.1 hinner
      obtain ⟨stail, hstail, rfl⟩ := pairsText_of_encodeFields? hrestKeys hrest htail
      obtain ⟨s, hs, rfl⟩ := hv _ _ hvtext
      refine ⟨_, .object .nil (.mk (spells_escaped hkey) .nil .nil hs) hstail, ?_⟩
      simp [encodeString_append]

lemma decode_of_encodeBefore? (hv : Proper v) (htext : encodeBefore? v [] = some text) :
    decode text = .ok v := by
  obtain ⟨s, hs, rfl⟩ := hv.valueText [] text htext
  exact decode_eq_ok_iff_documentText.2 ⟨[], s, [], rfl, .nil, hs, .nil⟩

lemma exists_encodeItems?
    (h : ∀ v ∈ items, ∀ behind, ∃ text, encodeBefore? v behind = some text) (first : Bool)
    (behind : Bytes) :
    ∃ text, encodeItems? first items behind = some text := by
  induction items generalizing first with
  | nil => exact ⟨behind, rfl⟩
  | cons v rest ih =>
    obtain ⟨hv, hrest⟩ := List.forall_mem_cons.1 h
    obtain ⟨tail, htail⟩ := ih hrest false
    obtain ⟨text, htext⟩ := hv tail
    simp [encodeItems?, htail, htext]

lemma exists_encodeFields?
    (h : ∀ pair ∈ pairs, ∀ behind, ∃ text, encodeBefore? pair.2 behind = some text) (first : Bool)
    (behind : Bytes) :
    ∃ text, encodeFields? first pairs behind = some text := by
  induction pairs generalizing first with
  | nil => exact ⟨behind, rfl⟩
  | cons pair rest ih =>
    obtain ⟨hv, hrest⟩ := List.forall_mem_cons.1 h
    obtain ⟨tail, htail⟩ := ih hrest false
    obtain ⟨text, htext⟩ := hv tail
    simp [encodeFields?, htail, htext]

lemma Proper.exists_encodeBefore? (hv : Proper v) (behind : Bytes) :
    ∃ text, encodeBefore? v behind = some text := by
  induction hv generalizing behind with
  | null => exact ⟨_, rfl⟩
  | bool b => cases b <;> exact ⟨_, rfl⟩
  | @num literal h =>
    by_cases hempty : literal.isEmpty
    · simp [encodeBefore?, hempty]
    · simp [encodeBefore?, hempty, h]
  | str _ => exact ⟨_, rfl⟩
  | arr _ ih =>
    obtain ⟨text, htext⟩ := exists_encodeItems? ih true (93 :: behind)
    exact ⟨91 :: text, by simp [encodeBefore?, htext]⟩
  | obj _ _ ih =>
    obtain ⟨text, htext⟩ := exists_encodeFields? ih true (125 :: behind)
    exact ⟨123 :: text, by simp [encodeBefore?, htext]⟩

end UiCodegen.Document.Json
