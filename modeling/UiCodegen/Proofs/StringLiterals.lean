import UiCodegen.Proofs.VerbatimText

/-!
# A literal denotes its text

What `quote` makes of a text is one string literal, whatever the text is.  A compiler that replaces
trigraphs, joins lines and resolves escapes reads the text back, octet for octet, and goes on behind
the last quote (`readLiteral?_quote`).  It has nothing to replace or to join, because no two
question marks stand side by side and no line ends inside.  The one escape that is written in two
steps is the backslash between two question marks: it is put behind the first, and takes the second
with it.
-/

namespace UiCodegen.C

variable {rest s : Bytes}

/-! ## One literal -/

/-- Reads the string literal that begins a text: the octets that it denotes, and what follows it. -/
def readLiteral? : Bytes → Option (Bytes × Bytes)
  | 34 :: inside => readInside? inside
  | _ => none

/-- A text in which no quote stands by itself: each backslash takes the character behind it. -/
inductive QuotesEscaped : Bytes → Prop
  | nil : QuotesEscaped []
  | plain {c : UInt8} {rest : Bytes} (hquote : c ≠ 34) (hslash : c ≠ 92)
      (hrest : QuotesEscaped rest) : QuotesEscaped (c :: rest)
  | escape (c : UInt8) {rest : Bytes} (hrest : QuotesEscaped rest) : QuotesEscaped (92 :: c :: rest)

/-- The characters that do not show: those in front of the space, and delete. -/
def IsControl (b : UInt8) : Prop := b < 0x20 ∨ b = 0x7F

instance : DecidablePred IsControl := fun b => inferInstanceAs (Decidable (b < 0x20 ∨ b = 0x7F))

/-- A piece of source that is one literal for a text, wherever it stands and whatever follows it. -/
structure IsLiteralOf (source text : Bytes) : Prop where
  denotes : ∀ rest, readLiteral? (prepared (source ++ rest)) = some (text, prepared rest)
  /-- No line ends in it, and nothing else in it does not show. -/
  visible : ∀ b ∈ source, ¬ IsControl b
  /-- Between the first quote and the last one every quote is escaped. -/
  enclosed : ∃ inside, source = 34 :: (inside ++ [34]) ∧ QuotesEscaped inside
  no_question_pair : ¬ [63, 63] <:+: source

/-! ## What stands for an octet -/

lemma plain_of_isOctal {b : UInt8} (h : isOctal b = true) : ¬ IsControl b ∧ b ≠ 34 ∧ b ≠ 92 := by
  simp only [isOctal, Bool.and_eq_true, decide_eq_true_eq, UInt8.le_iff_toNat_le,
    UInt8.reduceToNat] at h
  simp only [IsControl, ne_eq, UInt8.lt_iff_toNat_lt, ← UInt8.toNat_inj, UInt8.reduceToNat]
  omega

lemma visible_escapeOctet (c : UInt8) (next : Option UInt8) :
    ∀ b ∈ escapeOctet c next, ¬ IsControl b := by
  have hslash : ¬ IsControl 92 := by decide
  have hcode : ∀ b ∈ Integer.fixedWidth 8 3 c.toNat, ¬ IsControl b :=
    fun b hb => (plain_of_isOctal (isOctal_of_mem_fixedWidth hb)).1
  unfold escapeOctet
  split_ifs with _ _ _ _ _ _ _ hcontrol
  · decide +kernel
  · decide +kernel
  · decide +kernel
  · decide +kernel
  · decide +kernel
  · decide +kernel
  · decide +kernel
  · exact List.forall_mem_cons.2 ⟨hslash, hcode⟩
  · simpa [IsControl] using hcontrol

lemma QuotesEscaped.plain_append {front : Bytes} (hfront : ∀ b ∈ front, b ≠ 34 ∧ b ≠ 92)
    (hrest : QuotesEscaped rest) : QuotesEscaped (front ++ rest) := by
  induction front with
  | nil => exact hrest
  | cons b front ih =>
    rw [List.forall_mem_cons] at hfront
    exact .plain hfront.1.1 hfront.1.2 (ih hfront.2)

/-- A question mark behind a backslash is taken like one that stands by itself. -/
lemma QuotesEscaped.slash_question (h : QuotesEscaped (63 :: rest)) :
    QuotesEscaped (92 :: 63 :: rest) := by
  cases h with
  | plain _ _ hrest => exact .escape 63 hrest

lemma quotesEscaped_escapeOctet (c : UInt8) (next : Option UInt8) (hrest : QuotesEscaped rest)
    (hnext : next = some 63 → ∃ tail, rest = 63 :: tail) :
    QuotesEscaped (escapeOctet c next ++ rest) := by
  unfold escapeOctet
  split_ifs with h34 h92 h10 h13 h9 h63 hquestion hcontrol
  · exact .escape 34 hrest
  · exact .escape 92 hrest
  · exact .escape 110 hrest
  · exact .escape 114 hrest
  · exact .escape 116 hrest
  · obtain ⟨tail, rfl⟩ := hnext (by simpa using hquestion)
    exact .plain (by decide) (by decide) hrest.slash_question
  · exact .plain (by decide) (by decide) hrest
  · -- The first of the three digits is the one that the backslash takes.
    have hcode : ∀ b ∈ Integer.fixedWidth 8 3 c.toNat, b ≠ 34 ∧ b ≠ 92 :=
      fun b hb => (plain_of_isOctal (isOctal_of_mem_fixedWidth hb)).2
    obtain ⟨first, digits, hdigits⟩ : ∃ first digits, Integer.fixedWidth 8 3 c.toNat =
        first :: digits := ⟨_, _, rfl⟩
    rw [hdigits] at hcode ⊢
    exact .escape first (.plain_append (List.forall_mem_cons.1 hcode).2 hrest)
  · exact .plain (by simpa using h34) (by simpa using h92) hrest

/-! ## What stands for a text -/

/-- If the next octet is a question mark, what stands for it begins with one. -/
lemma escape_of_head? (h : s.head? = some 63) : ∃ tail, escape s = 63 :: tail := by
  obtain ⟨rest, rfl⟩ := List.head?_eq_some_iff.1 h
  exact exists_escape_question rest

lemma visible_escape (s : Bytes) : ∀ b ∈ escape s, ¬ IsControl b := by
  induction s with
  | nil => simp [escape]
  | cons c rest ih => exact List.forall_mem_append.2 ⟨visible_escapeOctet c rest.head?, ih⟩

lemma quotesEscaped_escape (s : Bytes) : QuotesEscaped (escape s) := by
  induction s with
  | nil => exact .nil
  | cons c rest ih => exact quotesEscaped_escapeOctet c rest.head? ih escape_of_head?

/-- Nothing is changed before tokens where nothing makes anything with what follows it. -/
lemma prepared_of_apart (h : s.IsChain Apart) : prepared s = s := by
  rw [prepared, replaceTrigraphs_of_apart h, joinLines_of_apart h]

lemma isChain_quote (s : Bytes) : (quote s).IsChain Apart := by
  have hchain : (quote s ++ []).IsChain Apart := isChain_quote_append .nil
  rwa [List.append_nil] at hchain

/-- A literal is read up to its last quote, whatever follows. -/
lemma readLiteral?_quote (s rest : Bytes) :
    readLiteral? (prepared (quote s ++ rest)) = some (s, prepared rest) := by
  have hinside : prepared (escape s) = escape s := by
    have hchain := isChain_quote s
    rw [← List.append_nil (quote s), quote_append] at hchain
    exact prepared_of_apart hchain.tail.left_of_append
  rw [quote_append, prepared_cons (by decide) (by decide), prepared_append_quote, hinside]
  exact readInside?_escape_append s (prepared rest)

/-- What `quote` makes of a text is one literal that denotes the text. -/
theorem quote_is_one_literal (s : Bytes) : IsLiteralOf (quote s) s where
  denotes := readLiteral?_quote s
  visible := by
    have hquote : ¬ IsControl 34 := by decide
    refine List.forall_mem_cons.2 ⟨hquote, List.forall_mem_append.2 ⟨visible_escape s, ?_⟩⟩
    simpa using hquote
  enclosed := ⟨escape s, rfl, quotesEscaped_escape s⟩
  no_question_pair := by
    rintro ⟨front, back, hpair⟩
    have hchain := isChain_quote s
    rw [← hpair] at hchain
    exact hchain.left_of_append.right_of_append.rel.1 ⟨rfl, rfl⟩

end UiCodegen.C
