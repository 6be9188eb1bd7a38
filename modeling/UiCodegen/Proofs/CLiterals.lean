import Mathlib.Data.List.Chain
import Mathlib.Tactic.Common
import UiCodegen.C.Literal

/-!
# Reading C literals

How a C compiler reads string literals: trigraphs are replaced and lines that end in a backslash are
joined in the whole text, escapes are resolved inside each literal, and adjacent literals denote one
text.  The reader knows the simple escapes and the octal ones and refuses any other, so what it
reads every compiler reads.

The main result is `denoted_quotes`: literals made by `quote` denote the texts they were made from,
one behind the other, whatever these are and whatever blanks stand in front of each.
-/

namespace UiCodegen.C

variable {after blanks rest s : Bytes} {behind : Bytes} {b octet : UInt8}

/-! ## Before tokens -/

def trigraph? : UInt8 → Option UInt8
  | 61 => some 35
  | 47 => some 92
  | 39 => some 94
  | 40 => some 91
  | 41 => some 93
  | 33 => some 124
  | 60 => some 123
  | 62 => some 125
  | 45 => some 126
  | _ => none

/-- Replaces trigraphs: two question marks and a character that makes one of them. -/
def replaceTrigraphs : Bytes → Bytes
  | 63 :: 63 :: c :: rest =>
    match trigraph? c with
    | some meant => meant :: replaceTrigraphs rest
    | none => 63 :: replaceTrigraphs (63 :: c :: rest)
  | c :: rest => c :: replaceTrigraphs rest
  | [] => []

def joinLines : Bytes → Bytes
  | 92 :: 10 :: rest => joinLines rest
  | c :: rest => c :: joinLines rest
  | [] => []

/-! ## Literals -/

def simpleEscape? : UInt8 → Option UInt8
  | 34 => some 34
  | 39 => some 39
  | 63 => some 63
  | 92 => some 92
  | 97 => some 7
  | 98 => some 8
  | 102 => some 12
  | 110 => some 10
  | 114 => some 13
  | 116 => some 9
  | 118 => some 11
  | _ => none

def isOctal (c : UInt8) : Bool := 48 ≤ c && c ≤ 55

/-- The number that octal digits make behind those that made `n`, and what follows; no more than
`limit` digits are taken. -/
def readOctal (limit n : Nat) (s : Bytes) : Nat × Bytes :=
  match limit, s with
  | limit + 1, c :: rest =>
    if isOctal c then readOctal limit (n * 8 + (c.toNat - 48)) rest else (n, c :: rest)
  | _, s => (n, s)

/-- Reads what stands behind a backslash: an octet and what follows. -/
def readEscape? : Bytes → Option (UInt8 × Bytes)
  | [] => none
  | c :: rest =>
    if isOctal c then
      let (n, behind) := readOctal 2 (c.toNat - 48) rest
      if n < 256 then some (n.toUInt8, behind) else none
    else (simpleEscape? c).map fun octet => (octet, rest)

lemma length_readOctal_le (limit n : Nat) (s : Bytes) :
    (readOctal limit n s).2.length ≤ s.length := by
  fun_induction readOctal limit n s with
  | case1 n limit c rest _ ih => exact ih.trans (Nat.le_succ _)
  | case2 | case3 => exact le_rfl

lemma length_lt_of_readEscape? (h : readEscape? s = some (octet, behind)) :
    behind.length < s.length := by
  cases s with
  | nil => cases h
  | cons c rest =>
    rw [readEscape?] at h
    split at h
    · have hle := length_readOctal_le 2 (c.toNat - 48) rest
      simp only [Option.ite_none_right_eq_some, Option.some.injEq, Prod.mk.injEq] at h
      rw [← h.2.2]
      exact Nat.lt_succ_of_le hle
    · simp only [Option.map_eq_some_iff, Prod.mk.injEq] at h
      obtain ⟨_, _, _, rfl⟩ := h
      exact Nat.lt_succ_self _

/-- Reads the inside of a literal up to the quote that ends it: the octets, and what follows the
quote. -/
def readInside? (s : Bytes) : Option (Bytes × Bytes) :=
  match s with
  | [] => none
  | c :: rest =>
    if c == 34 then some ([], rest)
    else if c == 10 then none
    else if c == 92 then
      match _h : readEscape? rest with
      | none => none
      | some (octet, behind) => (readInside? behind).map (Prod.map (octet :: ·) id)
    else (readInside? rest).map (Prod.map (c :: ·) id)
termination_by s.length
decreasing_by
  · exact (length_lt_of_readEscape? _h).trans (Nat.lt_succ_self _)
  · exact Nat.lt_succ_self _

lemma length_le_of_readInside? {octets : Bytes} (h : readInside? s = some (octets, after)) :
    after.length < s.length := by
  fun_induction readInside? s generalizing octets with
  | case1 => cases h
  | case2 c rest =>
    cases h
    exact Nat.lt_succ_self _
  | case3 | case4 => cases h
  | case5 c rest _ _ _ octet behind hescape ih =>
    obtain ⟨⟨_, _⟩, hrest, heq⟩ := Option.map_eq_some_iff.1 h
    cases heq
    exact (ih hrest).trans ((length_lt_of_readEscape? hescape).trans (Nat.lt_succ_self _))
  | case6 c rest _ _ _ ih =>
    obtain ⟨⟨_, _⟩, hrest, heq⟩ := Option.map_eq_some_iff.1 h
    cases heq
    exact (ih hrest).trans (Nat.lt_succ_self _)

def isBlank (c : UInt8) : Bool := c == 32 || (9 ≤ c && c ≤ 13)

/-- The text that adjacent literals denote, if there is nothing but blanks between them. -/
def readLiterals? (s : Bytes) : Option Bytes :=
  match s with
  | [] => some []
  | c :: rest =>
    if isBlank c then readLiterals? rest
    else if c == 34 then
      match _h : readInside? rest with
      | none => none
      | some (octets, after) => (readLiterals? after).map (octets ++ ·)
    else none
termination_by s.length
decreasing_by
  · exact Nat.lt_succ_self _
  · exact (length_le_of_readInside? _h).trans (Nat.lt_succ_self _)

/-- The text that a piece of C source denotes, if it is made of string literals. -/
def denoted? (source : Bytes) : Option Bytes := readLiterals? (joinLines (replaceTrigraphs source))

/-! ## What nothing changes before tokens -/

/-- Two characters that begin neither a trigraph nor the end of a joined line. -/
def Apart (a b : UInt8) : Prop := ¬ (a = 63 ∧ b = 63) ∧ ¬ (a = 92 ∧ b = 10)

lemma replaceTrigraphs_of_apart (h : s.IsChain Apart) : replaceTrigraphs s = s := by
  fun_induction replaceTrigraphs s with
  | case1 | case2 => exact absurd ⟨rfl, rfl⟩ h.rel.1
  | case3 c rest _ ih => rw [ih h.tail]
  | case4 => rfl

lemma joinLines_of_apart (h : s.IsChain Apart) : joinLines s = s := by
  fun_induction joinLines s with
  | case1 => exact absurd ⟨rfl, rfl⟩ h.rel.2
  | case2 c rest _ ih => rw [ih h.tail]
  | case3 => rfl

lemma denoted?_of_apart (h : s.IsChain Apart) : denoted? s = readLiterals? s := by
  rw [denoted?, replaceTrigraphs_of_apart h, joinLines_of_apart h]

/-- A blank or a quote makes nothing with what follows. -/
lemma apart_of_ne {a : UInt8} (hquestion : a ≠ 63) (hslash : a ≠ 92) (b : UInt8) : Apart a b :=
  ⟨fun h => hquestion h.1, fun h => hslash h.1⟩

/-! ## The inside of a literal -/

lemma isOctal_hexDigit :
    ∀ d < 8, isOctal (Integer.hexDigit d) = true ∧ (Integer.hexDigit d).toNat - 48 = d := by
  decide

lemma readOctal_hexDigit {d : Nat} (hd : d < 8) (limit n : Nat) (rest : Bytes) :
    readOctal (limit + 1) n (Integer.hexDigit d :: rest) = readOctal limit (n * 8 + d) rest := by
  rw [readOctal, if_pos (isOctal_hexDigit d hd).1, (isOctal_hexDigit d hd).2]

/-- Three octal digits are taken for what they are, whatever follows. -/
lemma readEscape?_octal (c : UInt8) (rest : Bytes) :
    readEscape? (Integer.fixedWidth 8 3 c.toNat ++ rest) = some (c, rest) := by
  have hc := c.toNat_lt
  have hfirst : c.toNat / 8 / 8 % 8 < 8 := by omega
  have hvalue : (c.toNat / 8 / 8 % 8 * 8 + c.toNat / 8 % 8) * 8 + c.toNat % 8 = c.toNat := by omega
  change readEscape? (Integer.hexDigit (c.toNat / 8 / 8 % 8) :: Integer.hexDigit
    (c.toNat / 8 % 8) :: Integer.hexDigit (c.toNat % 8) :: rest) = _
  rw [readEscape?, if_pos (isOctal_hexDigit _ hfirst).1, (isOctal_hexDigit _ hfirst).2,
    readOctal_hexDigit (Nat.mod_lt _ (by decide)), readOctal_hexDigit
      (Nat.mod_lt _ (by decide)), hvalue]
  simp [readOctal, hc]

lemma readInside?_escape (h : readEscape? s = some (octet, behind)) :
    readInside? (92 :: s) = (readInside? behind).map (Prod.map (octet :: ·) id) := by
  rw [readInside?, if_neg (by decide), if_neg (by decide), if_pos (by decide)]
  split
  · next hnone => rw [hnone] at h; cases h
  · next octet' behind' hsome =>
    rw [hsome] at h
    cases h
    rfl

lemma readInside?_plain {c : UInt8} (hquote : c ≠ 34) (hline : c ≠ 10) (hslash : c ≠ 92)
    (rest : Bytes) : readInside? (c :: rest) = (readInside? rest).map (Prod.map (c :: ·) id) := by
  rw [readInside?, if_neg (by simpa using hquote), if_neg (by simpa using hline), if_neg
    (by simpa using hslash)]

lemma readInside?_question (rest : Bytes) :
    readInside? (92 :: 63 :: rest) = readInside? (63 :: rest) := by
  have hescape : readEscape? (63 :: rest) = some (63, rest) := rfl
  rw [readInside?_escape hescape, readInside?_plain (by decide) (by decide) (by decide)]

lemma readInside?_escapeOctet (c : UInt8) (next : Option UInt8) (rest : Bytes)
    (hnext : next = some 63 → ∃ tail, rest = 63 :: tail) :
    readInside? (escapeOctet c next ++ rest) = (readInside? rest).map (Prod.map (c :: ·) id) := by
  unfold escapeOctet
  split_ifs with h34 h92 h10 h13 h9 h63 hquestion hcontrol
  all_goals simp only [beq_iff_eq] at *
  · subst h34
    exact readInside?_escape rfl
  · subst h92
    exact readInside?_escape rfl
  · subst h10
    exact readInside?_escape rfl
  · subst h13
    exact readInside?_escape rfl
  · subst h9
    exact readInside?_escape rfl
  · obtain ⟨tail, rfl⟩ := hnext hquestion
    subst h63
    rw [List.cons_append, readInside?_plain (by decide) (by decide) (by decide)]
    exact congrArg _ (readInside?_question tail)
  · subst h63
    exact readInside?_plain (by decide) (by decide) (by decide) rest
  · exact readInside?_escape (readEscape?_octal c rest)
  · exact readInside?_plain h34 h10 h92 rest

lemma escapeOctet_question (next : Option UInt8) :
    escapeOctet 63 next = if next = some 63 then [63, 92] else [63] := by
  simp [escapeOctet]

lemma exists_escape_question (rest : Bytes) : ∃ tail, escape (63 :: rest) = 63 :: tail := by
  rw [escape, escapeOctet_question]
  split_ifs
  · exact ⟨_, rfl⟩
  · exact ⟨_, rfl⟩

lemma readInside?_escape_append (s after : Bytes) :
    readInside? (escape s ++ 34 :: after) = some (s, after) := by
  induction s with
  | nil => rw [escape, List.nil_append, readInside?, if_pos (by decide)]
  | cons c rest ih =>
    have hnext : rest.head? = some 63 → ∃ tail, escape rest ++ 34 :: after = 63 :: tail := by
      intro h
      obtain ⟨behind, rfl⟩ := List.head?_eq_some_iff.1 h
      obtain ⟨tail, htail⟩ := exists_escape_question behind
      exact ⟨tail ++ 34 :: after, by rw [htail, List.cons_append]⟩
    rw [escape, List.append_assoc, readInside?_escapeOctet c rest.head? _ hnext, ih]
    rfl

/-! ## Literals -/

lemma isOctal_of_mem_fixedWidth {width n : Nat} (hb : b ∈ Integer.fixedWidth 8 width n) :
    isOctal b = true := by
  induction width generalizing n with
  | zero => simp [Integer.fixedWidth] at hb
  | succ width ih =>
    rw [Integer.fixedWidth, List.mem_append, List.mem_singleton] at hb
    obtain hb | rfl := hb
    · exact ih hb
    · exact (isOctal_hexDigit _ (Nat.mod_lt _ (by decide))).1

/-- Question marks apart, what stands for an octet has none in it, and no end of a line. -/
lemma free_escapeOctet {c : UInt8} (hc : c ≠ 63) (next : Option UInt8) :
    escapeOctet c next ≠ [] ∧ ∀ b ∈ escapeOctet c next, b ≠ 63 ∧ b ≠ 10 := by
  have hcode : ∀ b ∈ Integer.fixedWidth 8 3 c.toNat, b ≠ 63 ∧ b ≠ 10 := by
    intro b hb
    have hoctal := isOctal_of_mem_fixedWidth hb
    constructor
    · rintro rfl
      cases hoctal
    · rintro rfl
      cases hoctal
  unfold escapeOctet
  split_ifs
  all_goals simp_all

lemma head?_escape (h : (escape s ++ 34 :: after).head? = some b) :
    b ≠ 10 ∧ (b = 63 → s.head? = some 63) := by
  cases s with
  | nil =>
    cases h
    decide
  | cons c rest =>
    by_cases hc : c = 63
    · subst hc
      obtain ⟨tail, htail⟩ := exists_escape_question rest
      rw [htail] at h
      cases h
      exact ⟨by decide, fun _ => rfl⟩
    · obtain ⟨hne, hfree⟩ := free_escapeOctet hc rest.head?
      rw [escape, List.append_assoc, List.head?_append_of_ne_nil _ hne] at h
      have hb := hfree b (List.mem_of_head? h)
      exact ⟨hb.2, fun h63 => absurd h63 hb.1⟩

/-- Characters that are neither question marks nor ends of lines make nothing with each other. -/
lemma isChain_append_of_free {front : Bytes} (hfront : ∀ b ∈ front, b ≠ 63 ∧ b ≠ 10)
    (hrest : rest.IsChain Apart) (hhead : ∀ b ∈ rest.head?, b ≠ 10) :
    (front ++ rest).IsChain Apart := by
  induction front with
  | nil => exact hrest
  | cons a front ih =>
    rw [List.forall_mem_cons] at hfront
    refine List.isChain_cons.2 ⟨fun b hb => ⟨fun h => hfront.1.1 h.1, fun h => ?_⟩, ih hfront.2⟩
    -- The next character stands in front of the rest or begins it.
    cases front with
    | nil => exact hhead b hb h.2
    | cons c front =>
      cases hb
      exact (hfront.2 _ (by simp)).2 h.2

lemma isChain_escape (hafter : (34 :: after).IsChain Apart) :
    (escape s ++ 34 :: after).IsChain Apart := by
  induction s with
  | nil => exact hafter
  | cons c rest ih =>
    have hhead : ∀ b ∈ (escape rest ++ 34 :: after).head?, b ≠ 10 := fun b hb => (head?_escape hb).1
    rw [escape, List.append_assoc]
    by_cases hc : c = 63
    · subst hc
      rw [escapeOctet_question]
      split_ifs with hnext
      · have hslash : ([92] ++ (escape rest ++ 34 :: after)).IsChain Apart :=
          isChain_append_of_free (by simp) ih hhead
        exact List.isChain_cons.2 ⟨fun b hb => by cases hb; exact ⟨by decide, by decide⟩, hslash⟩
      · exact List.isChain_cons.2
          ⟨fun b hb => ⟨fun h => hnext ((head?_escape hb).2 h.2), by simp⟩, ih⟩
    · exact isChain_append_of_free (free_escapeOctet hc rest.head?).2 ih hhead

lemma isChain_blanks_append (hblanks : ∀ c ∈ blanks, isBlank c) (hrest : rest.IsChain Apart) :
    (blanks ++ rest).IsChain Apart := by
  induction blanks with
  | nil => exact hrest
  | cons c blanks ih =>
    rw [List.forall_mem_cons] at hblanks
    have hquestion : c ≠ 63 := by
      rintro rfl
      exact absurd hblanks.1 (by decide)
    have hslash : c ≠ 92 := by
      rintro rfl
      exact absurd hblanks.1 (by decide)
    exact List.isChain_cons.2 ⟨fun b _ => apart_of_ne hquestion hslash b, ih hblanks.2⟩

lemma quote_append (text rest : Bytes) :
    quote text ++ rest = 34 :: (escape text ++ 34 :: rest) := by
  simp [quote]

lemma isChain_quote_append {text : Bytes} (hrest : rest.IsChain Apart) :
    (quote text ++ rest).IsChain Apart := by
  have hquote : ∀ {s : Bytes}, s.IsChain Apart → (34 :: s).IsChain Apart :=
    fun hs => List.isChain_cons.2 ⟨fun b _ => apart_of_ne (by decide) (by decide) b, hs⟩
  rw [quote_append]
  exact hquote (isChain_escape (hquote hrest))

/-- Literals with blanks in front of each make nothing with each other. -/
lemma isChain_quotes (hblanks : ∀ c ∈ blanks, isBlank c) (texts : List Bytes) :
    (texts.flatMap fun text => blanks ++ quote text).IsChain Apart := by
  induction texts with
  | nil => exact .nil
  | cons text texts ih =>
    rw [List.flatMap_cons, List.append_assoc]
    exact isChain_blanks_append hblanks (isChain_quote_append ih)

lemma readLiterals?_blanks (hblanks : ∀ c ∈ blanks, isBlank c) (rest : Bytes) :
    readLiterals? (blanks ++ rest) = readLiterals? rest := by
  induction blanks with
  | nil => rfl
  | cons c blanks ih =>
    rw [List.cons_append, readLiterals?, if_pos (hblanks c (by simp)), ih fun d hd =>
      hblanks d (by simp [hd])]

lemma readLiterals?_quote (text rest : Bytes) :
    readLiterals? (quote text ++ rest) = (readLiterals? rest).map (text ++ ·) := by
  have hinside := readInside?_escape_append text rest
  rw [quote_append, readLiterals?, if_neg (by decide), if_pos (by decide)]
  split
  · next hnone => rw [hnone] at hinside; cases hinside
  · next octets after hsome =>
    rw [hsome] at hinside
    cases hinside
    rfl

/-- Literals denote the texts they were made from, one behind the other, whatever blanks stand in
front of each. -/
theorem denoted_quotes (hblanks : ∀ c ∈ blanks, isBlank c) (texts : List Bytes) :
    denoted? (texts.flatMap fun text => blanks ++ quote text) = some texts.flatten := by
  rw [denoted?_of_apart (isChain_quotes hblanks texts)]
  induction texts with
  | nil => rw [List.flatMap_nil, readLiterals?, List.flatten_nil]
  | cons text texts ih =>
    rw [List.flatMap_cons, List.append_assoc, readLiterals?_blanks hblanks, readLiterals?_quote, ih]
    rfl

end UiCodegen.C
