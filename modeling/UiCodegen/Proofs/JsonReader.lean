import UiCodegen.Proofs.JsonGrammar

/-!
# The next token of a JSON document

In front of a token stand white space and the separator that the place calls for, if any (`Leads`).
What a reader can come to by its next token is said once, in terms of the grammar (`TokenText`,
`Reader.Stands.exists_tokenText_of_next`), and a token is read wherever it may come
(`Reader.Stands.next_of_leads`).
-/

namespace UiCodegen.Document.Json

variable {n : Nat} {after rest s : Bytes} {b inside text word : Bytes} {t : Token} {c : UInt8}

/-! ## White space -/

lemma isSpace_iff : isSpace c = true ↔ c ∈ spaceOctets := by
  simp [isSpace, spaceOctets]
  tauto

lemma IsSpaces.nil : IsSpaces [] := by
  simp [IsSpaces]

/-- A text is white space, or some octet that is none follows its white space. -/
lemma spaces_or_octet (s : Bytes) :
    IsSpaces s ∨ ∃ b c rest, IsSpaces b ∧ isSpace c = false ∧ s = b ++ c :: rest := by
  induction s with
  | nil => exact .inl .nil
  | cons c rest ih =>
    cases hc : isSpace c with
    | false => exact .inr ⟨[], c, rest, .nil, hc, rfl⟩
    | true =>
      have hspace := isSpace_iff.1 hc
      obtain h | ⟨b, d, after, hb, hd, rfl⟩ := ih
      · exact .inl (List.forall_mem_cons.2 ⟨hspace, h⟩)
      · exact .inr ⟨c :: b, d, after, List.forall_mem_cons.2 ⟨hspace, hb⟩, hd, rfl⟩

lemma IsSpaces.dropWhile_append (hb : IsSpaces b) (rest : Bytes) :
    (b ++ rest).dropWhile isSpace = rest.dropWhile isSpace := by
  induction b with
  | nil => rfl
  | cons c b ih =>
    obtain ⟨hc, hb⟩ := List.forall_mem_cons.1 hb
    rw [List.cons_append, List.dropWhile_cons_of_pos (isSpace_iff.2 hc), ih hb]

lemma IsSpaces.endsNumber (hb : IsSpaces b) (hrest : EndsNumber rest) : EndsNumber (b ++ rest) := by
  cases b with
  | nil => exact hrest
  | cons c b =>
    rintro _ ⟨⟩ state
    have hc := (List.forall_mem_cons.1 hb).1
    simp only [spaceOctets, List.mem_cons, List.not_mem_nil, or_false] at hc
    obtain rfl | rfl | rfl | rfl := hc
    all_goals cases state <;> rfl

/-! ## Scalars -/

def Token.value? : Token → Option Value
  | .str text => some (.str text)
  | .num literal => some (.num literal)
  | .bool b => some (.bool b)
  | .null => some .null
  | _ => none

lemma eq_append_of_scanWord {expected : Bytes} {m : Nat}
    (h : scanWord word n expected s = .ok (m, after)) : s = expected ++ after := by
  fun_induction scanWord word n expected s with
  | case1 =>
    cases h
    rfl
  | case2 => cases h
  | case3 n e es c rest heq ih => rw [ih h, beq_iff_eq.1 heq, List.cons_append]
  | case4 => cases h

lemma eq_append_of_scanWordToken {token : Token}
    (h : scanWordToken word token rest = .ok (t, n, after)) :
    t = token ∧ rest = word.drop 1 ++ after := by
  unfold scanWordToken at h
  cases hscan : scanWord word 1 (word.drop 1) rest with
  | error e =>
    rw [hscan] at h
    cases h
  | ok q =>
    rw [hscan] at h
    cases h
    exact ⟨rfl, eq_append_of_scanWord hscan⟩

lemma exists_valueText_of_scanScalar (h : scanScalar c rest = .ok (t, n, after)) :
    ∃ s v, c :: rest = s ++ after ∧ t.value? = some v ∧ ValueText s v := by
  cases hstart : numberStart? c with
  | some state =>
    rw [scanScalar_number hstart] at h
    obtain ⟨literal, hrest, htoken, hliteral⟩ := isNumber_of_scanNumberToken hstart h
    cases htoken
    exact ⟨literal, .num literal, hrest, rfl, .number (isNumber_iff_isNumeral.1 hliteral)⟩
  | none =>
    unfold numberStart? at hstart
    unfold scanScalar at h
    split_ifs at h hstart with hquote _ _ _ _ _ _ htrue hfalse hnull
    · obtain ⟨inside, after, hinside, rfl, heq⟩ := scanStringToken_eq_ok_iff.1 h
      cases heq
      rw [beq_iff_eq.1 hquote]
      exact ⟨34 :: (inside ++ [34]), .str (stringText inside), by simp, rfl, .string
        (spells_iff.2 ⟨hinside, rfl⟩)⟩
    · obtain ⟨rfl, rfl⟩ := eq_append_of_scanWordToken h
      rw [beq_iff_eq.1 htrue]
      exact ⟨_, _, rfl, rfl, .yes⟩
    · obtain ⟨rfl, rfl⟩ := eq_append_of_scanWordToken h
      rw [beq_iff_eq.1 hfalse]
      exact ⟨_, _, rfl, rfl, .no⟩
    · obtain ⟨rfl, rfl⟩ := eq_append_of_scanWordToken h
      rw [beq_iff_eq.1 hnull]
      exact ⟨_, _, rfl, rfl, .null⟩

/-- The text is read as one token, which is the value, in front of whatever no number goes on with.
-/
def ScannedAs (s : Bytes) (v : Value) : Prop :=
  ∃ c rest t, s = c :: rest ∧ t.value? = some v ∧
    ∀ behind, EndsNumber behind → ∃ n, scanScalar c (rest ++ behind) = .ok (t, n, behind)

lemma scannedAs_null : ScannedAs "null" .null :=
  ⟨_, _, .null, rfl, rfl, fun _ _ => ⟨4, rfl⟩⟩

lemma scannedAs_true : ScannedAs "true" (.bool true) :=
  ⟨_, _, .bool true, rfl, rfl, fun _ _ => ⟨4, rfl⟩⟩

lemma scannedAs_false : ScannedAs "false" (.bool false) :=
  ⟨_, _, .bool false, rfl, rfl, fun _ _ => ⟨5, rfl⟩⟩

lemma scannedAs_number (h : IsNumeral s) : ScannedAs s (.num s) := by
  obtain ⟨c, rest, rfl, hscan⟩ := scanScalar_of_isNumber (isNumber_iff_isNumeral.2 h)
  exact ⟨c, rest, .num (c :: rest), rfl, rfl, fun behind hbehind => ⟨_, hscan hbehind⟩⟩

lemma scanStringToken_of_spells (h : Spells inside text) (behind : Bytes) :
    scanStringToken (inside ++ 34 :: behind) = .ok (.str text, inside.length + 2, behind) := by
  obtain ⟨hinside, rfl⟩ := spells_iff.1 h
  exact scanStringToken_eq_ok_iff.2 ⟨inside, behind, hinside, rfl, rfl⟩

lemma scannedAs_string (h : Spells inside text) :
    ScannedAs (34 :: (inside ++ [34])) (.str text) := by
  refine ⟨34, inside ++ [34], .str text, rfl, rfl, fun behind _ => ⟨inside.length + 2, ?_⟩⟩
  rw [List.append_assoc]
  exact scanStringToken_of_spells h behind

lemma ScannedAs.startsValue {v : Value} (h : ScannedAs s v) :
    ∃ c rest, s = c :: rest ∧ StartsValue c := by
  obtain ⟨c, rest, t, rfl, -, hscan⟩ := h
  obtain ⟨n, hscan⟩ := hscan [] endsNumber_nil
  exact ⟨c, rest, rfl, (Reader.startsValue_of_scanScalar hscan).1⟩

lemma ValueText.startsValue {s : Bytes} {v : Value} (h : ValueText s v) :
    ∃ c rest, s = c :: rest ∧ StartsValue c := by
  have hopen : ∀ {c : UInt8} {rest : Bytes}, c ∈ [91, 123] → ∃ c' rest', c :: rest = c' :: rest' ∧
      StartsValue c' := by
    intro c rest hc
    refine ⟨c, rest, rfl, ?_⟩
    simp only [List.mem_cons, List.not_mem_nil, or_false] at hc
    obtain rfl | rfl := hc <;> simp [StartsValue, isSpace]
  cases h with
  | null => exact scannedAs_null.startsValue
  | yes => exact scannedAs_true.startsValue
  | no => exact scannedAs_false.startsValue
  | number h => exact (scannedAs_number h).startsValue
  | string h => exact (scannedAs_string h).startsValue
  | emptyArray => exact hopen (by simp)
  | array => exact hopen (by simp)
  | emptyObject => exact hopen (by simp)
  | object => exact hopen (by simp)

/-! ## In front of a token -/

/-- The separator that a place calls for, and the place behind it. -/
inductive Separates : Place → UInt8 → Place → Prop
  | element : Separates .arrayComma 44 .arrayValue
  | pair : Separates .objectComma 44 .objectKey
  | value : Separates .objectColon 58 .objectValue

/-- What may stand in front of a token that is read at a place, and the place of the token. -/
inductive Leads : Place → Bytes → Place → Prop
  | spaces {place : Place} {b : Bytes} (hb : IsSpaces b) : Leads place b place
  | separator {place place' : Place} {c : UInt8} {b b' : Bytes} (hc : Separates place c place')
      (hb : IsSpaces b) (hb' : IsSpaces b') : Leads place (b ++ c :: b') place'

/-- What is read as a token at a place inside others, and the reader behind it. -/
inductive TokenText : Bytes → Place → List Place → Token → Reader → Prop
  | openArray {rest : Bytes} {place : Place} {outer : List Place} {r' : Reader}
      (hplace : place.allowsValue = true)
      (hr' : r'.Stands rest .arrayStart (place :: outer)) : TokenText (91 :: rest) place
        outer .openArray r'
  | closeArray {rest : Bytes} {place : Place} {outer : List Place} {r' : Reader}
      (hplace : place = .arrayStart ∨ place = .arrayComma)
      (hr' : ∀ p outer', outer = p :: outer' → r'.Stands rest p.afterValue outer') :
      TokenText (93 :: rest) place outer .closeArray r'
  | openObject {rest : Bytes} {place : Place} {outer : List Place} {r' : Reader}
      (hplace : place.allowsValue = true)
      (hr' : r'.Stands rest .objectStart (place :: outer)) : TokenText (123 :: rest) place outer
        .openObject r'
  | closeObject {rest : Bytes} {place : Place} {outer : List Place} {r' : Reader}
      (hplace : place = .objectStart ∨ place = .objectComma)
      (hr' : ∀ p outer', outer = p :: outer' → r'.Stands rest p.afterValue outer') :
      TokenText (125 :: rest) place outer .closeObject r'
  | key {inside text rest : Bytes} {place : Place} {outer : List Place} {r' : Reader}
      (htext : Spells inside text)
      (hplace : place = .objectStart ∨ place = .objectKey)
        (hr' : r'.Stands rest .objectColon outer) :
      TokenText (34 :: (inside ++ 34 :: rest)) place outer (.str text) r'
  | scalar {s rest : Bytes} {v : Value} {place : Place} {outer : List Place} {t : Token}
      {r' : Reader}
      (hvalue : t.value? = some v) (hs : ValueText s v) (hplace : place.allowsValue = true)
      (hr' : r'.Stands rest place.afterValue outer) : TokenText (s ++ rest) place outer t r'

namespace Reader

variable {r r' : Reader} {b lead rest text : Bytes} {c : UInt8} {t : Token} {place place' p : Place}
  {outer : List Place}

lemma dropWhile_rest (hr : r.Stands (b ++ c :: rest) place outer) (hb : IsSpaces b)
    (hc : isSpace c = false) : r.rest.dropWhile isSpace = c :: rest := by
  rw [hr.rest, hb.dropWhile_append, List.dropWhile_cons_of_neg (by simp [hc])]

lemma Stands.skipSpaces (hr : r.Stands (b ++ c :: rest) place outer) (hb : IsSpaces b)
    (hc : isSpace c = false) : r.skipSpace.Stands (c :: rest) place outer := by
  unfold Reader.skipSpace
  rw [dropWhile_rest hr hb hc]
  exact ⟨rfl, hr.place, hr.outer⟩

lemma skipSpace_of_isSpaces (h : IsSpaces r.rest) : r.skipSpace = r := by
  have hdrop := h.dropWhile_append []
  rw [List.append_nil] at hdrop
  unfold Reader.skipSpace
  rw [hdrop]
  rfl

lemma Stands.more_of_spaces (hr : r.Stands (b ++ c :: rest) place outer) (hb : IsSpaces b)
    (hc : isSpace c = false) : r.more = (c != 93 && c != 125) := by
  simp [Reader.more, dropWhile_rest hr hb hc]

lemma Stands.token_skipSpace (hr : r.Stands (b ++ c :: rest) place outer) (hb : IsSpaces b)
    (hc : isSpace c = false) : r.skipSpace.token = r.token := by
  unfold Reader.token
  rw [(hr.skipSpaces hb hc).skipSpace hc]

/-- White space has no influence on what comes next. -/
lemma Stands.next_skipSpace (hr : r.Stands (b ++ c :: rest) place outer) (hb : IsSpaces b)
    (hc : isSpace c = false) : r.skipSpace.next = r.next := by
  have htoken := hr.token_skipSpace hb hc
  unfold Reader.next Reader.skipSeparator
  simp only [(hr.skipSpaces hb hc).skipSpace hc]
  split
  · split
    · rfl
    · exact htoken
  · split
    · rfl
    split
    · rfl
    · exact htoken
  · exact htoken

lemma Stands.skipSeparates (hr : r.Stands (c :: rest) place outer) (hc : Separates place c place') :
    r.skipSeparator.Stands rest place' outer := by
  cases hc with
  | element => exact hr.skipComma.1 rfl
  | pair => exact hr.skipComma.2 rfl
  | value => exact hr.skipColon

/-- What is skipped in front of a token is the separator that the place calls for, or nothing. -/
lemma Stands.skipSeparator_cases (hr : r.Stands (c :: rest) place outer) (hc : isSpace c = false) :
    r.skipSeparator = r ∨ ∃ place', Separates place c place' := by
  unfold Reader.skipSeparator
  simp only [hr.skipSpace hc, hr.rest, hr.place, beq_iff_eq]
  split
  · rename_i heq
    cases heq
    split_ifs with hplace
    · subst hplace
      exact .inr ⟨_, .value⟩
    · exact .inl rfl
  · rename_i heq
    cases heq
    split_ifs with harray hobject
    · subst harray
      exact .inr ⟨_, .element⟩
    · subst hobject
      exact .inr ⟨_, .pair⟩
    · exact .inl rfl
  · exact .inl rfl

lemma Stands.next_of_leads (hr : r.Stands (lead ++ c :: rest) place outer)
    (hlead : Leads place lead place') (hc : isSpace c = false) (hcolon : c ≠ 58) (hcomma : c ≠ 44) :
    ∃ r₀ : Reader, r.next = r₀.token ∧ r₀.Stands (c :: rest) place' outer := by
  cases hlead with
  | spaces hb =>
    have hskip := hr.skipSpaces hb hc
    refine ⟨r.skipSpace, ?_, hskip⟩
    rw [← hr.next_skipSpace hb hc, Reader.next, hskip.skipSeparator hc hcolon hcomma]
  | @separator _ d b b' hd hb hb' =>
    rw [List.append_assoc, List.cons_append] at hr
    have hspace : isSpace d = false := by cases hd <;> rfl
    have hskip := (hr.skipSpaces hb hspace).skipSeparates hd
    refine ⟨r.skipSpace.skipSeparator.skipSpace, ?_, hskip.skipSpaces hb' hc⟩
    rw [← hr.next_skipSpace hb hspace, hskip.token_skipSpace hb' hc, Reader.next]

/-! ## What comes next -/

lemma token_of_isSpaces (h : IsSpaces r.rest) : r.token = .error ⟨r.offset, .endOfInput⟩ := by
  unfold Reader.token
  simp only [skipSpace_of_isSpaces h]
  split
  · rfl
  · rename_i c rest hrest
    have hc : isSpace c = true := isSpace_iff.2 (h c (by simp [hrest]))
    rw [if_pos hc]

lemma next_of_isSpaces (h : IsSpaces r.rest) : r.next = .error ⟨r.offset, .endOfInput⟩ := by
  have hskip : r.skipSeparator = r := by
    unfold Reader.skipSeparator
    simp only [skipSpace_of_isSpaces h]
    split
    · rename_i heq
      exact absurd (h 58 (by simp [heq])) (by decide)
    · rename_i heq
      exact absurd (h 44 (by simp [heq])) (by decide)
    · rfl
  rw [Reader.next, hskip, token_of_isSpaces h]

lemma Stands.token_ne_endOfInput (hr : r.Stands (c :: rest) place outer) (hc : isSpace c = false)
    (offset : Nat) : r.token ≠ .error ⟨offset, .endOfInput⟩ := by
  intro h
  have hscalar : ∀ {q : Place}, r.scalar c rest q ≠ .error ⟨offset, .endOfInput⟩ := by
    intro q h
    unfold Reader.scalar at h
    split at h
    · cases h
    · rename_i fault _
      cases fault <;> cases h
  unfold Reader.token at h
  simp only [hr.skipSpace hc, hr.rest, hc, Bool.false_eq_true, if_false] at h
  split_ifs at h
  all_goals first
    | exact hscalar h
    | cases h

/-- In front of the octet that comes next, what is read depends on it and on the place. -/
lemma Stands.tokenText (hr : r.Stands (c :: rest) place outer) (hc : isSpace c = false)
    (h : r.token = .ok (t, r')) : TokenText (c :: rest) place outer t r' := by
  have hscalar : ∀ {q : Place}, r.scalar c rest q = .ok (t, r') →
      ∃ n after, scanScalar c rest = .ok (t, n, after) ∧ r'.Stands after q outer := by
    intro q h
    unfold Reader.scalar at h
    split at h
    · rename_i hscan
      cases h
      exact ⟨_, _, hscan, rfl, rfl, hr.outer⟩
    · cases h
  have hleave : ∀ p outer', outer = p :: outer' → (r.leave rest).Stands rest
      p.afterValue outer' := by
    rintro p outer' rfl
    exact hr.leave
  unfold Reader.token at h
  simp only [hr.skipSpace hc, hr.rest, hr.place, hc, Bool.false_eq_true, if_false, beq_iff_eq,
    Bool.and_eq_true, Bool.or_eq_true] at h
  split_ifs at h with h1 hplace h2 hplace h3 hplace h4 hplace hseparator hkey hplace
  · cases h
    subst h1
    exact .openArray hplace ⟨rfl, rfl, congrArg₂ List.cons hr.place hr.outer⟩
  · cases h
    subst h2
    exact .closeArray hplace hleave
  · cases h
    subst h3
    exact .openObject hplace ⟨rfl, rfl, congrArg₂ List.cons hr.place hr.outer⟩
  · cases h
    subst h4
    exact .closeObject hplace hleave
  · obtain ⟨rfl, hplace⟩ := hkey
    obtain ⟨n, after, hscan, hr'⟩ := hscalar h
    obtain ⟨inside, after, hinside, rfl, heq⟩ := scanStringToken_eq_ok_iff.1 hscan
    cases heq
    exact .key (spells_iff.2 ⟨hinside, rfl⟩) hplace hr'
  · obtain ⟨n, after, hscan, hr'⟩ := hscalar h
    obtain ⟨s, v, heq, hvalue, hs⟩ := exists_valueText_of_scanScalar hscan
    rw [heq]
    exact .scalar hvalue hs hplace hr'

/-- A separator that the place does not call for is refused where it stands. -/
lemma Stands.token_of_separator (hr : r.Stands (c :: rest) place outer) (hc : c = 44 ∨ c = 58) :
    r.token = .error (r.refuse c) := by
  have hspace : isSpace c = false := by rcases hc with rfl | rfl <;> rfl
  unfold Reader.token
  rcases hc with rfl | rfl <;> simp [hr.skipSpace hspace, hr.rest, hspace]

-- in `[1,,2]`, behind the first item
example : ({ rest := ",,2]", offset := 2, scanned := 1, place := .arrayComma } : Reader).next =
    .error ⟨3, .badOctet 44 " looking for beginning of value"⟩ := by
  decide

lemma Stands.exists_tokenText (hr : r.Stands text place outer) (h : r.token = .ok (t, r')) :
    ∃ b text', IsSpaces b ∧ text = b ++ text' ∧ TokenText text' place outer t r' := by
  obtain hspaces | ⟨b, c, rest, hb, hc, rfl⟩ := spaces_or_octet text
  · rw [token_of_isSpaces (hr.rest.symm ▸ hspaces)] at h
    cases h
  · refine ⟨b, c :: rest, hb, rfl, (hr.skipSpaces hb hc).tokenText hc ?_⟩
    rwa [hr.token_skipSpace hb hc]

lemma Stands.exists_tokenText_of_next (hr : r.Stands text place outer) (h : r.next = .ok (t, r')) :
    ∃ lead text' place', Leads place lead place' ∧ text = lead ++ text' ∧
    TokenText text' place' outer t r' := by
  obtain hspaces | ⟨b, c, rest, hb, hc, rfl⟩ := spaces_or_octet text
  · rw [next_of_isSpaces (hr.rest.symm ▸ hspaces)] at h
    cases h
  · have hskip := hr.skipSpaces hb hc
    rw [← hr.next_skipSpace hb hc, Reader.next] at h
    obtain hself | ⟨place', hseparates⟩ := hskip.skipSeparator_cases hc
    · rw [hself] at h
      exact ⟨b, c :: rest, place, .spaces hb, rfl, hskip.tokenText hc h⟩
    · obtain ⟨b', text', hb', rfl, htoken⟩ := (hskip.skipSeparates hseparates).exists_tokenText h
      exact ⟨b ++ c :: b', text', place', .separator hseparates hb hb', by simp, htoken⟩

lemma Stands.isSpaces_of_not_more (hr : r.Stands (lead ++ text) place outer)
    (hlead : Leads place lead place')
    (hmore : r.more = false) : IsSpaces lead ∧ place' = place := by
  cases hlead with
  | spaces hb => exact ⟨hb, rfl⟩
  | separator hc hb hb' =>
    rw [List.append_assoc, List.cons_append] at hr
    cases hc <;> simp [hr.more_of_spaces hb rfl] at hmore

end Reader

end UiCodegen.Document.Json
