import UiCodegen.Proofs.JsonTokens

/-!
# The grammar of JSON documents

The grammar of RFC 8259 as relations between octets and what they stand for.  Two things go beyond
it, inside strings: an octet that is part of no character stands for U+FFFD, and so does a surrogate
escape that is no part of a pair.

The scanners of numbers and strings accept what the grammar says, and nothing else.
-/

namespace UiCodegen.Document.Json

open Utf8

/-! ## White space -/

/-- Blank, tab, line feed and carriage return. -/
def spaceOctets : List UInt8 := [0x20, 0x09, 0x0A, 0x0D]

/-- A run of white space, which may be empty. -/
def IsSpaces (s : Bytes) : Prop := ∀ c ∈ s, c ∈ spaceOctets

/-! ## Numbers -/

def IsDigits (s : Bytes) : Prop := s ≠ [] ∧ ∀ c ∈ s, Bytes.isDigit c

/-- Zero, or digits of which the first is not zero. -/
def IsInteger (s : Bytes) : Prop := s = [48] ∨ IsDigits s ∧ s.head? ≠ some 48

def IsFraction (s : Bytes) : Prop := ∃ digits, s = 46 :: digits ∧ IsDigits digits

/-- The letter `e` or `E`, a sign or none, and digits. -/
def IsExponent (s : Bytes) : Prop :=
  ∃ e sign digits, s = e :: (sign ++ digits) ∧ e ∈ [0x65, 0x45] ∧ sign ∈ [[], [43], [45]] ∧
    IsDigits digits

/-- Something or nothing. -/
def Optional (P : Bytes → Prop) (s : Bytes) : Prop := s = [] ∨ P s

/-- What follows the integer of a number: a fraction or none, and an exponent or none. -/
def IsTail (s : Bytes) : Prop :=
  ∃ frac exp, s = frac ++ exp ∧ Optional IsFraction frac ∧ Optional IsExponent exp

/-- A minus sign or none, an integer, and what may follow it. -/
def IsNumeral (s : Bytes) : Prop :=
  ∃ minus int tail, s = minus ++ (int ++ tail) ∧ minus ∈ [[], [45]] ∧ IsInteger int ∧ IsTail tail

/-! ## Strings -/

/-- The octets that make an escape with the backslash in front of them, and what the escape stands
for. -/
def simpleEscapes : List (UInt8 × UInt8) :=
  [(34, 34), (92, 92), (47, 47), (98, 8), (102, 12), (110, 10), (114, 13), (116, 9)]

def hexValue? (c : UInt8) : Option Nat :=
  if 48 ≤ c ∧ c ≤ 57 then some (c.toNat - 48)
  else if 97 ≤ c ∧ c ≤ 102 then some (c.toNat - 87)
  else if 65 ≤ c ∧ c ≤ 70 then some (c.toNat - 55)
  else none

def hexUnit? (a b c d : UInt8) : Option Nat := do
  let w ← hexValue? a
  let x ← hexValue? b
  let y ← hexValue? c
  let z ← hexValue? d
  pure (((w * 16 + x) * 16 + y) * 16 + z)

def IsHigh (n : Nat) : Prop := 0xD800 ≤ n ∧ n ≤ 0xDBFF

def IsLow (n : Nat) : Prop := 0xDC00 ≤ n ∧ n ≤ 0xDFFF

def pairCode (high low : Nat) : Nat := 0x10000 + (high - 0xD800) * 0x400 + (low - 0xDC00)

def LowComes (s : Bytes) : Prop :=
  ∃ a b c d low rest, s = 92 :: 117 :: a :: b :: c :: d :: rest ∧ hexUnit? a b c d =
    some low ∧ IsLow low

/-- What stands between the quotes of a string, and the text that it stands for. -/
inductive Spells : (inside text : Bytes) → Prop
  | nil : Spells [] []
  /-- A character that is not escaped. -/
  | char {code : Nat} {rest text : Bytes} (hcode : IsScalar code) (hcontrol : 0x20 ≤ code)
      (hquote : code ≠ 34)
      (hslash : code ≠ 92) (hrest : Spells rest text) : Spells (encode code ++ rest)
        (encode code ++ text)
  /-- An octet with which no character begins. -/
  | stray {b : UInt8} {rest text : Bytes} (hb : ∀ code, IsScalar code → ¬ encode code <+: b :: rest)
      (hrest : Spells rest text) : Spells (b :: rest) (encode replacement ++ text)
  | escape {e octet : UInt8} {rest text : Bytes} (he : (e, octet) ∈ simpleEscapes)
      (hrest : Spells rest text) : Spells (92 :: e :: rest) (octet :: text)
  | unit {a b c d : UInt8} {n : Nat} {rest text : Bytes} (hunit : hexUnit? a b c d = some n)
      (hn : IsScalar n)
      (hrest : Spells rest text) : Spells (92 :: 117 :: a :: b :: c :: d :: rest) (encode n ++ text)
  | pair {a b c d e f g h : UInt8} {high low : Nat} {rest text : Bytes}
      (hhigh : hexUnit? a b c d = some high)
      (hlow : hexUnit? e f g h = some low) (hpair : IsHigh high ∧ IsLow low)
        (hrest : Spells rest text) :
      Spells (92 :: 117 :: a :: b :: c :: d :: 92 :: 117 :: e :: f :: g :: h :: rest)
        (encode (pairCode high low) ++ text)
  /-- A surrogate that is no part of a pair. -/
  | lone {a b c d : UInt8} {n : Nat} {rest text : Bytes} (hunit : hexUnit? a b c d = some n)
      (hn : IsHigh n ∧ ¬ LowComes rest ∨ IsLow n) (hrest : Spells rest text) :
      Spells (92 :: 117 :: a :: b :: c :: d :: rest) (encode replacement ++ text)

/-! ## Values -/

mutual

/-- The text of a value. -/
inductive ValueText : Bytes → Value → Prop
  | null : ValueText "null" .null
  | yes : ValueText "true" (.bool true)
  | no : ValueText "false" (.bool false)
  | number {s : Bytes} (h : IsNumeral s) : ValueText s (.num s)
  | string {inside text : Bytes} (h : Spells inside text) : ValueText (34 :: (inside ++ [34]))
      (.str text)
  | emptyArray {b : Bytes} (hb : IsSpaces b) : ValueText (91 :: (b ++ [93])) (.arr [])
  | array {b s tail : Bytes} {v : Value} {items : List Value} (hb : IsSpaces b) (hv : ValueText s v)
      (htail : ItemsText tail items) : ValueText (91 :: (b ++ (s ++ (tail ++ [93]))))
        (.arr (v :: items))
  | emptyObject {b : Bytes} (hb : IsSpaces b) : ValueText (123 :: (b ++ [125])) (.obj [])
  | object {b s tail : Bytes} {pair : Bytes × Value} {pairs : Fields} (hb : IsSpaces b)
      (hpair : PairText s pair)
      (htail : PairsText tail pairs) : ValueText (123 :: (b ++ (s ++ (tail ++ [125]))))
        (.obj (pair :: pairs))

/-- The elements of an array from the second on, each behind a comma. -/
inductive ItemsText : Bytes → List Value → Prop
  | nil {b : Bytes} (hb : IsSpaces b) : ItemsText b []
  | cons {b b' s rest : Bytes} {v : Value} {items : List Value} (hb : IsSpaces b)
      (hb' : IsSpaces b')
      (hv : ValueText s v) (hrest : ItemsText rest items) :
        ItemsText (b ++ 44 :: (b' ++ (s ++ rest))) (v :: items)

/-- A key, a colon and a value. -/
inductive PairText : Bytes → Bytes × Value → Prop
  | mk {inside key b b' s : Bytes} {v : Value} (hkey : Spells inside key) (hb : IsSpaces b)
      (hb' : IsSpaces b') (hv : ValueText s v) :
      PairText (34 :: (inside ++ 34 :: (b ++ 58 :: (b' ++ s)))) (key, v)

/-- The pairs of an object from the second on, each behind a comma. -/
inductive PairsText : Bytes → Fields → Prop
  | nil {b : Bytes} (hb : IsSpaces b) : PairsText b []
  | cons {b b' s rest : Bytes} {pair : Bytes × Value} {pairs : Fields} (hb : IsSpaces b)
      (hb' : IsSpaces b') (hpair : PairText s pair) (hrest : PairsText rest pairs) :
      PairsText (b ++ 44 :: (b' ++ (s ++ rest))) (pair :: pairs)

end

def DocumentText (s : Bytes) (v : Value) : Prop :=
  ∃ before body after, s = before ++ (body ++ after) ∧ IsSpaces before ∧ ValueText body v ∧
    IsSpaces after

variable {n : Nat} {rest s text : Bytes} {a b c d e : UInt8} {state : NumberState}

/-! ## Numbers that are read -/

def Completes (state : NumberState) (s : Bytes) : Prop :=
  ∃ last, s.foldlM NumberState.step? state = some last ∧ last.complete

lemma completes_nil : Completes state [] ↔ state.complete := by
  simp [Completes]

lemma completes_cons :
    Completes state (c :: s) ↔ ∃ next, state.step? c = some next ∧ Completes next s := by
  simp only [Completes, List.foldlM_cons, Option.bind_eq_bind, Option.bind_eq_some_iff]
  constructor
  · rintro ⟨last, ⟨next, hstep, hrest⟩, hlast⟩
    exact ⟨next, hstep, last, hrest, hlast⟩
  · rintro ⟨next, hstep, last, hrest, hlast⟩
    exact ⟨last, ⟨next, hstep, hrest⟩, hlast⟩

lemma scanNumber_eq_ok_nil_iff : (∃ m, scanNumber state n s = .ok (m, [])) ↔ Completes state s := by
  induction s generalizing state n with
  | nil =>
    rw [completes_nil, scanNumber]
    cases state.complete <;> simp
  | cons c rest ih =>
    rw [completes_cons, scanNumber]
    cases state.step? c with
    | none => cases state.complete <;> simp
    | some next => simp [ih]

lemma completes_exponentDigits : Completes .exponentDigits s ↔ ∀ c ∈ s, Bytes.isDigit c := by
  induction s with
  | nil => simp [completes_nil, NumberState.complete]
  | cons c rest ih =>
    rw [completes_cons, List.forall_mem_cons, ← ih]
    simp [NumberState.step?]

lemma completes_exponentSign : Completes .exponentSign s ↔ IsDigits s := by
  cases s with
  | nil => simp [completes_nil, NumberState.complete, IsDigits]
  | cons c rest =>
    rw [completes_cons, IsDigits, List.forall_mem_cons, ← completes_exponentDigits]
    simp [NumberState.step?]

lemma completes_exponent : Completes .exponent s ↔
    ∃ sign digits, s = sign ++ digits ∧ sign ∈ [[], [43], [45]] ∧ IsDigits digits := by
  cases s with
  | nil => simp [completes_nil, NumberState.complete, IsDigits]
  | cons c rest =>
    rw [completes_cons]
    constructor
    · rintro ⟨next, hstep, hrest⟩
      simp only [NumberState.step?, Bool.or_eq_true, beq_iff_eq] at hstep
      split_ifs at hstep with hsign hdigit
      · cases hstep
        refine ⟨[c], rest, rfl, ?_, completes_exponentSign.1 hrest⟩
        obtain rfl | rfl := hsign <;> simp
      · cases hstep
        exact ⟨[], c :: rest, rfl, by simp, by simp,
          List.forall_mem_cons.2 ⟨hdigit, completes_exponentDigits.1 hrest⟩⟩
    · rintro ⟨sign, digits, hs, hsign, hdigits⟩
      simp only [List.mem_cons, List.not_mem_nil, or_false] at hsign
      obtain rfl | rfl | rfl := hsign
      · subst hs
        obtain ⟨hdigit, hrest⟩ := List.forall_mem_cons.1 hdigits.2
        have hsign : ¬ (c = 43 ∨ c = 45) := by
          rintro (rfl | rfl) <;> exact absurd hdigit (by decide)
        exact ⟨.exponentDigits, by simp [NumberState.step?, hsign, hdigit],
          completes_exponentDigits.2 hrest⟩
      · cases hs
        exact ⟨.exponentSign, rfl, completes_exponentSign.2 hdigits⟩
      · cases hs
        exact ⟨.exponentSign, rfl, completes_exponentSign.2 hdigits⟩

lemma lowerByte_eq_iff : Bytes.lowerByte c = 101 ↔ c ∈ [0x65, 0x45] := by
  revert c
  decide +kernel

lemma isExponent_cons : IsExponent (c :: s) ↔ c ∈ [0x65, 0x45] ∧ Completes .exponent s := by
  rw [completes_exponent]
  constructor
  · rintro ⟨e, sign, digits, heq, he, hsign, hdigits⟩
    cases heq
    exact ⟨he, sign, digits, rfl, hsign, hdigits⟩
  · rintro ⟨he, sign, digits, rfl, hsign, hdigits⟩
    exact ⟨c, sign, digits, rfl, he, hsign, hdigits⟩

/-- The states in which a number may end or go on with an exponent. -/
lemma completes_of_isExponent (hcomplete : state.complete)
    (hstep : state.step? 0x65 = some .exponent ∧ state.step? 0x45 = some .exponent)
    (h : Optional IsExponent s) :
    Completes state s := by
  cases s with
  | nil => exact completes_nil.2 hcomplete
  | cons c rest =>
    obtain h | h := h
    · cases h
    · obtain ⟨hc, hrest⟩ := isExponent_cons.1 h
      refine completes_cons.2 ⟨.exponent, ?_, hrest⟩
      simp only [List.mem_cons, List.not_mem_nil, or_false] at hc
      obtain rfl | rfl := hc
      · exact hstep.1
      · exact hstep.2

lemma completes_fraction : Completes .fraction s ↔
    ∃ digits exp, s = digits ++ exp ∧ (∀ c ∈ digits, Bytes.isDigit c) ∧
    Optional IsExponent exp := by
  constructor
  · intro h
    induction s with
    | nil => exact ⟨[], [], rfl, by simp, .inl rfl⟩
    | cons c rest ih =>
      obtain ⟨next, hstep, hrest⟩ := completes_cons.1 h
      simp only [NumberState.step?, beq_iff_eq] at hstep
      split_ifs at hstep with hdigit hletter
      · cases hstep
        obtain ⟨digits, exp, rfl, hdigits, hexp⟩ := ih hrest
        exact ⟨c :: digits, exp, rfl, List.forall_mem_cons.2 ⟨hdigit, hdigits⟩, hexp⟩
      · cases hstep
        exact ⟨[], c :: rest, rfl, by simp,
          .inr (isExponent_cons.2 ⟨lowerByte_eq_iff.1 hletter, hrest⟩)⟩
  · rintro ⟨digits, exp, rfl, hdigits, hexp⟩
    induction digits with
    | nil => exact completes_of_isExponent rfl ⟨rfl, rfl⟩ hexp
    | cons c rest ih =>
      obtain ⟨hdigit, hdigits⟩ := List.forall_mem_cons.1 hdigits
      exact completes_cons.2 ⟨.fraction, by simp [NumberState.step?, hdigit], ih hdigits⟩

lemma completes_point : Completes .point s ↔
    ∃ digits exp, s = digits ++ exp ∧ IsDigits digits ∧ Optional IsExponent exp := by
  cases s with
  | nil => simp [completes_nil, NumberState.complete, IsDigits]
  | cons c rest =>
    rw [completes_cons]
    constructor
    · rintro ⟨next, hstep, hrest⟩
      simp only [NumberState.step?] at hstep
      split_ifs at hstep with hdigit
      cases hstep
      obtain ⟨digits, exp, rfl, hdigits, hexp⟩ := completes_fraction.1 hrest
      exact ⟨c :: digits, exp, rfl, ⟨by simp, List.forall_mem_cons.2 ⟨hdigit, hdigits⟩⟩, hexp⟩
    · rintro ⟨digits, exp, hs, ⟨hne, hdigits⟩, hexp⟩
      obtain ⟨d, digits, rfl⟩ := List.exists_cons_of_ne_nil hne
      cases hs
      obtain ⟨hdigit, hdigits⟩ := List.forall_mem_cons.1 hdigits
      exact ⟨.fraction, by simp [NumberState.step?, hdigit], completes_fraction.2
        ⟨digits, exp, rfl, hdigits, hexp⟩⟩

lemma isTail_point : IsTail (46 :: s) ↔ Completes .point s := by
  rw [completes_point]
  constructor
  · rintro ⟨frac, exp, hs, hfrac, hexp⟩
    obtain rfl | ⟨digits, rfl, hdigits⟩ := hfrac
    · cases hs
      obtain hexp | ⟨_, _, _, heq, he, -⟩ := hexp
      · cases hexp
      · cases heq
        exact absurd he (by decide)
    · cases hs
      exact ⟨digits, exp, rfl, hdigits, hexp⟩
  · rintro ⟨digits, exp, rfl, hdigits, hexp⟩
    exact ⟨46 :: digits, exp, rfl, .inr ⟨digits, rfl, hdigits⟩, hexp⟩

/-- Where a number may end or go on with a fraction or an exponent, it goes on with a tail. -/
lemma completes_of_isTail (hcomplete : state.complete) (hpoint : state.step? 46 = some .point)
    (hstep : state.step? 0x65 = some .exponent ∧ state.step? 0x45 = some .exponent) (h : IsTail s) :
    Completes state s := by
  obtain ⟨frac, exp, rfl, hfrac, hexp⟩ := h
  obtain rfl | ⟨digits, rfl, hdigits⟩ := hfrac
  · exact completes_of_isExponent hcomplete hstep hexp
  · exact completes_cons.2 ⟨.point, hpoint, completes_point.2 ⟨digits, exp, rfl, hdigits, hexp⟩⟩

lemma completes_zero : Completes .zero s ↔ IsTail s := by
  constructor
  · intro h
    cases s with
    | nil => exact ⟨[], [], rfl, .inl rfl, .inl rfl⟩
    | cons c rest =>
      obtain ⟨next, hstep, hrest⟩ := completes_cons.1 h
      simp only [NumberState.step?, beq_iff_eq] at hstep
      split_ifs at hstep with hpoint hletter
      · cases hstep
        subst hpoint
        exact isTail_point.2 hrest
      · cases hstep
        exact ⟨[], c :: rest, rfl, .inl rfl,
          .inr (isExponent_cons.2 ⟨lowerByte_eq_iff.1 hletter, hrest⟩)⟩
  · exact completes_of_isTail rfl rfl ⟨rfl, rfl⟩

lemma completes_integer : Completes .integer s ↔
    ∃ digits tail, s = digits ++ tail ∧ (∀ c ∈ digits, Bytes.isDigit c) ∧ IsTail tail := by
  constructor
  · intro h
    induction s with
    | nil => exact ⟨[], [], rfl, by simp, [], [], rfl, .inl rfl, .inl rfl⟩
    | cons c rest ih =>
      obtain ⟨next, hstep, hrest⟩ := completes_cons.1 h
      simp only [NumberState.step?, beq_iff_eq] at hstep
      split_ifs at hstep with hdigit hpoint hletter
      · cases hstep
        obtain ⟨digits, tail, rfl, hdigits, htail⟩ := ih hrest
        exact ⟨c :: digits, tail, rfl, List.forall_mem_cons.2 ⟨hdigit, hdigits⟩, htail⟩
      · cases hstep
        subst hpoint
        exact ⟨[], 46 :: rest, rfl, by simp, isTail_point.2 hrest⟩
      · cases hstep
        exact ⟨[], c :: rest, rfl, by simp, [], c :: rest, rfl, .inl rfl,
          .inr (isExponent_cons.2 ⟨lowerByte_eq_iff.1 hletter, hrest⟩)⟩
  · rintro ⟨digits, tail, rfl, hdigits, htail⟩
    induction digits with
    | nil => exact completes_of_isTail rfl rfl ⟨rfl, rfl⟩ htail
    | cons c rest ih =>
      obtain ⟨hdigit, hdigits⟩ := List.forall_mem_cons.1 hdigits
      exact completes_cons.2 ⟨.integer, by simp [NumberState.step?, hdigit], ih hdigits⟩

lemma integer_cons : (∃ int tail, c :: s = int ++ tail ∧ IsInteger int ∧ IsTail tail) ↔
      c = 48 ∧ Completes .zero s ∨ c ≠ 48 ∧ Bytes.isDigit c ∧ Completes .integer s := by
  rw [completes_zero, completes_integer]
  constructor
  · rintro ⟨int, tail, hs, rfl | ⟨⟨hne, hdigits⟩, hzero⟩, htail⟩
    · cases hs
      exact .inl ⟨rfl, htail⟩
    · obtain ⟨d, digits, rfl⟩ := List.exists_cons_of_ne_nil hne
      cases hs
      obtain ⟨hdigit, hdigits⟩ := List.forall_mem_cons.1 hdigits
      exact .inr ⟨by simpa using hzero, hdigit, digits, tail, rfl, hdigits, htail⟩
  · rintro (⟨rfl, htail⟩ | ⟨hzero, hdigit, digits, tail, rfl, hdigits, htail⟩)
    · exact ⟨[48], s, rfl, .inl rfl, htail⟩
    · refine ⟨c :: digits, tail, rfl,
        .inr ⟨⟨by simp, List.forall_mem_cons.2 ⟨hdigit, hdigits⟩⟩, ?_⟩, htail⟩
      simpa using hzero

lemma completes_minus :
    Completes .minus s ↔ ∃ int tail, s = int ++ tail ∧ IsInteger int ∧ IsTail tail := by
  cases s with
  | nil =>
    simp only [completes_nil, NumberState.complete, Bool.false_eq_true, false_iff]
    rintro ⟨int, tail, hs, hint, -⟩
    obtain ⟨rfl, rfl⟩ := List.append_eq_nil_iff.1 hs.symm
    obtain hint | ⟨⟨hne, -⟩, -⟩ := hint
    · cases hint
    · exact hne rfl
  | cons c rest =>
    rw [integer_cons, completes_cons]
    by_cases hzero : c = 48
    · subst hzero
      simp [NumberState.step?]
    · simp [NumberState.step?, hzero]

lemma isNumeral_iff : IsNumeral s ↔
    (∃ int tail, s = int ++ tail ∧ IsInteger int ∧ IsTail tail) ∨ ∃ rest, s = 45 :: rest ∧
    Completes .minus rest := by
  simp only [completes_minus]
  constructor
  · rintro ⟨minus, int, tail, rfl, hminus, hint, htail⟩
    simp only [List.mem_cons, List.not_mem_nil, or_false] at hminus
    obtain rfl | rfl := hminus
    · exact .inl ⟨int, tail, rfl, hint, htail⟩
    · exact .inr ⟨int ++ tail, rfl, int, tail, rfl, hint, htail⟩
  · rintro (⟨int, tail, rfl, hint, htail⟩ | ⟨rest, rfl, int, tail, rfl, hint, htail⟩)
    · exact ⟨[], int, tail, rfl, by simp, hint, htail⟩
    · exact ⟨[45], int, tail, rfl, by simp, hint, htail⟩

lemma isNumber_iff_isNumeral : isNumber s = true ↔ IsNumeral s := by
  rw [isNumeral_iff]
  cases s with
  | nil =>
    rw [← completes_minus]
    simp [isNumber, completes_nil, NumberState.complete]
  | cons c rest =>
    have hscan : isNumber (c :: rest) = true ↔ ∃ state, numberStart? c = some state ∧
        Completes state rest := by
      simp only [isNumber_cons, exists_and_left, scanNumber_eq_ok_nil_iff]
    rw [hscan, integer_cons]
    by_cases hminus : c = 45
    · subst hminus
      simp [numberStart?, Bytes.isDigit]
    · by_cases hzero : c = 48
      · subst hzero
        simp [numberStart?]
      · simp [numberStart?, hminus, hzero]

/-! ## Strings that are read -/

lemma IsHigh.not_isScalar (h : IsHigh n) : ¬ IsScalar n := by
  unfold IsHigh at h
  unfold IsScalar
  omega

lemma mem_simpleEscapes {octet : UInt8} :
    (e, octet) ∈ simpleEscapes ↔ e ∈ escapeOctets ∧ octet = escapedOctet e := by
  have htable : simpleEscapes = escapeOctets.map fun e => (e, escapedOctet e) := rfl
  simp only [htable, List.mem_map, Prod.mk.injEq]
  constructor
  · rintro ⟨_, he, rfl, rfl⟩
    exact ⟨he, rfl⟩
  · rintro ⟨he, rfl⟩
    exact ⟨e, he, rfl, rfl⟩

lemma hexValue?_eq (c : UInt8) :
    hexValue? c = if isHexDigit c then some ((Integer.digit? c).getD 0) else none := by
  revert c
  decide +kernel

lemma hexUnit?_eq_some_iff :
    hexUnit? a b c d = some n ↔ (∀ x ∈ [a, b, c, d], isHexDigit x) ∧ hex4 a b c d = n := by
  simp only [hexUnit?, hexValue?_eq, Option.bind_eq_bind, Option.bind_eq_some_iff,
    Option.ite_none_right_eq_some,
    Option.some.injEq, Option.pure_def, hex4, List.foldl_cons, List.foldl_nil,
      Nat.zero_mul, Nat.zero_add,
    List.forall_mem_cons, List.not_mem_nil]
  constructor
  · rintro ⟨_, ⟨ha, rfl⟩, _, ⟨hb, rfl⟩, _, ⟨hc, rfl⟩, _, ⟨hd, rfl⟩, rfl⟩
    exact ⟨⟨ha, hb, hc, hd, by simp⟩, rfl⟩
  · rintro ⟨⟨ha, hb, hc, hd, -⟩, rfl⟩
    exact ⟨_, ⟨ha, rfl⟩, _, ⟨hb, rfl⟩, _, ⟨hc, rfl⟩, _, ⟨hd, rfl⟩, rfl⟩

lemma surrogate_of_hexUnit? (h : hexUnit? a b c d = some n) (hn : ¬ IsScalar n) :
    IsHigh n ∨ IsLow n := by
  have hdigit : ∀ c, ∀ w ∈ hexValue? c, w < 16 := by
    decide +kernel
  simp only [hexUnit?, Option.bind_eq_bind, Option.bind_eq_some_iff, Option.pure_def,
    Option.some.injEq] at h
  obtain ⟨w, hw, x, hx, y, hy, z, hz, rfl⟩ := h
  have hw := hdigit a w hw
  have hx := hdigit b x hx
  have hy := hdigit c y hy
  have hz := hdigit d z hz
  unfold IsScalar at hn
  unfold IsHigh IsLow
  omega

lemma le_of_stray (hb : ∀ code, IsScalar code → ¬ encode code <+: b :: rest) : 0x80 ≤ b := by
  by_contra hsmall
  have hlt := UInt8.not_le.1 hsmall
  refine hb b.toNat (isScalar_of_lt (UInt8.lt_iff_toNat_lt.1 hlt)) ?_
  rw [encode_toNat hlt]
  exact ⟨rest, rfl⟩

/-- A character is accepted between quotes unless it has to be escaped. -/
lemma Inside.encode_append {code : Nat} (hcontrol : 0x20 ≤ code) (hquote : code ≠ 34)
    (hslash : code ≠ 92) (hrest : Inside rest) : Inside (encode code ++ rest) := by
  have hplain : ∀ front : Bytes, (∀ c ∈ front, c ≠ 34 ∧ c ≠ 92 ∧ 0x20 ≤ c) →
      Inside (front ++ rest) := by
    intro front hfront
    induction front with
    | nil => exact hrest
    | cons c front ih =>
      obtain ⟨⟨hquote, hslash, hcontrol⟩, hfront⟩ := List.forall_mem_cons.1 hfront
      exact .plain hquote hslash hcontrol (ih hfront)
  refine hplain _ fun b hb => ⟨?_, ne_of_mem_encode hslash b hb, ?_⟩
  · rintro rfl
    exact hquote (eq_of_mem_encode (by decide) hb)
  · by_contra hsmall
    have hlt := UInt8.lt_iff_toNat_lt.1 (UInt8.not_le.1 hsmall)
    have hcode := eq_of_mem_encode (UInt8.lt_iff_toNat_lt.2 (hlt.trans (by decide))) hb
    exact absurd hcontrol (Nat.not_le.2 (hcode ▸ hlt))

lemma Spells.inside (h : Spells s text) : Inside s := by
  induction h with
  | nil => exact .nil
  | char hcode hcontrol hquote hslash _ ih => exact .encode_append hcontrol hquote hslash ih
  | @stray b rest text hb _ ih =>
    have hlarge := le_of_stray hb
    refine .plain ?_ ?_ (UInt8.le_trans (by decide) hlarge) ih
    all_goals
      rintro rfl
      exact absurd hlarge (by decide)
  | escape he _ ih => exact .escape (mem_simpleEscapes.1 he).1 ih
  | unit hunit _ _ ih => exact .hex (hexUnit?_eq_some_iff.1 hunit).1 ih
  | pair hhigh hlow _ _ ih =>
      exact .hex (hexUnit?_eq_some_iff.1 hhigh).1 (.hex (hexUnit?_eq_some_iff.1 hlow).1 ih)
  | lone hunit _ _ ih => exact .hex (hexUnit?_eq_some_iff.1 hunit).1 ih

lemma ofCodes_codes_cons (hc : c < 0x80) (rest : Bytes) :
    ofCodes (codes (c :: rest)) = c :: ofCodes (codes rest) := by
  rw [codes_cons_of_lt hc, ofCodes, List.flatMap_cons, encode_toNat hc]
  rfl

lemma ofCodes_codes_hex (h : ∀ x ∈ [a, b, c, d], isHexDigit x) (rest : Bytes) :
    ofCodes (codes (92 :: 117 :: a :: b :: c :: d :: rest)) =
      92 :: 117 :: a :: b :: c :: d :: ofCodes (codes rest) := by
  simp only [List.forall_mem_cons] at h
  obtain ⟨ha, hb, hc, hd, -⟩ := h
  rw [ofCodes_codes_cons (by decide), ofCodes_codes_cons (by decide), ofCodes_codes_cons
    (ascii_of_isHexDigit ha),
    ofCodes_codes_cons (ascii_of_isHexDigit hb), ofCodes_codes_cons (ascii_of_isHexDigit hc),
    ofCodes_codes_cons (ascii_of_isHexDigit hd)]

/-- Escapes stay where they are when characters are repaired. -/
lemma lowComes_of_ofCodes (h : Inside s)
    (hs : ofCodes (codes s) = 92 :: 117 :: a :: b :: c :: d :: rest) (hlow : IsLow (hex4 a b c d)) :
    LowComes s := by
  cases h with
  | nil => cases hs
  | @plain x after hquote hslash hcontrol hrest =>
    by_cases hx : x < 0x80
    · rw [ofCodes_codes_cons hx] at hs
      exact absurd (List.cons.inj hs).1 hslash
    · obtain ⟨code, _, _, -, -, -, -, hlarge, hcodes⟩ := codes_cons_of_le (UInt8.not_lt.1 hx) after
      obtain ⟨y, tail, hencode⟩ := List.exists_cons_of_ne_nil (encode_ne_nil code)
      rw [hcodes, ofCodes, List.flatMap_cons, hencode, List.cons_append] at hs
      obtain rfl := (List.cons.inj hs).1
      exact absurd (le_of_mem_encode hlarge (b := 92) (by simp [hencode])) (by decide)
  | @escape e after he hrest =>
    obtain ⟨hascii, hne⟩ := ascii_escapeOctets e he
    rw [ofCodes_codes_cons (by decide), ofCodes_codes_cons hascii] at hs
    exact absurd (List.cons.inj (List.cons.inj hs).2).1 hne
  | hex hdigits hrest =>
    rw [ofCodes_codes_hex hdigits] at hs
    cases hs
    exact ⟨_, _, _, _, _, _, rfl, hexUnit?_eq_some_iff.2 ⟨hdigits, rfl⟩, hlow⟩

lemma unescape_pair {f g h : UInt8} (hhigh : IsHigh (hex4 a b c d)) (hlow : IsLow (hex4 e f g h))
    (acc rest : Bytes) :
    unescape acc (92 :: 117 :: a :: b :: c :: d :: 92 :: 117 :: e :: f :: g :: h :: rest) =
      unescape ((encode (pairCode (hex4 a b c d) (hex4 e f g h))).reverse ++ acc) rest := by
  rw [unescape]
  dsimp only
  rw [if_pos]
  · rfl
  · simp [hhigh.1, hhigh.2, hlow.1, hlow.2]

/-- A unit stands alone unless it is the first one of a pair. -/
lemma unescape_unit (hno : IsHigh (hex4 a b c d) → ∀ e f g h after,
      rest = 92 :: 117 :: e :: f :: g :: h :: after → ¬ IsLow (hex4 e f g h)) (acc : Bytes) :
    unescape acc (92 :: 117 :: a :: b :: c :: d :: rest) =
      unescape ((encode (hex4 a b c d)).reverse ++ acc) rest := by
  by_cases hnext : ∃ e f g h after, rest = 92 :: 117 :: e :: f :: g :: h :: after
  · obtain ⟨e, f, g, h, after, rfl⟩ := hnext
    rw [unescape]
    dsimp only
    rw [if_neg]
    simp only [Bool.and_eq_true, decide_eq_true_eq]
    rintro ⟨⟨⟨hhigh, hhigh'⟩, hlow⟩, hlow'⟩
    exact hno ⟨hhigh, hhigh'⟩ e f g h after rfl ⟨hlow, hlow'⟩
  · rw [unescape]
    exact fun e f g h after heq => hnext ⟨e, f, g, h, after, heq⟩

/-- What is no code point is written as U+FFFD. -/
lemma encode_surrogate (h : IsHigh n ∨ IsLow n) : encode n = encode replacement := by
  unfold IsHigh IsLow at h
  simp only [encode, replacement, Bool.or_eq_true, Bool.and_eq_true, decide_eq_true_eq]
  rw [if_neg (by omega), if_neg (by omega), if_pos (by omega)]
  rfl

/-- What is spelled is well-formed text, whatever octets and escapes it is spelled with. -/
lemma Spells.isText (h : Spells s text) : IsText text := by
  induction h with
  | nil => exact .nil
  | char hcode _ _ _ _ ih => exact .char hcode ih
  | stray _ _ ih => exact .char isScalar_replacement ih
  | @escape e octet _ _ he _ ih =>
    have hascii : octet < 0x80 := by
      simp only [simpleEscapes, List.mem_cons, Prod.mk.injEq, List.not_mem_nil, or_false] at he
      rcases he with ⟨-, rfl⟩ | ⟨-, rfl⟩ | ⟨-, rfl⟩ | ⟨-, rfl⟩ | ⟨-, rfl⟩ | ⟨-, rfl⟩ | ⟨-,
        rfl⟩ | ⟨-, rfl⟩ <;> decide
    have htext : IsText [octet] := isText_of_ascii (by simpa using hascii)
    exact htext.append ih
  | unit _ hn _ ih => exact .char hn ih
  | pair _ _ _ _ ih => exact (isText_encode _).append ih
  | lone _ _ _ ih => exact .char isScalar_replacement ih

lemma Spells.stringText {s text : Bytes} (h : Spells s text) : stringText s = text := by
  have hread : ∀ acc, unescape acc (ofCodes (codes s)) = acc.reverse ++ text := by
    induction h with
    | nil => intro acc; simp [codes, symbols, symbolsFrom, ofCodes, unescape]
    | char hcode hcontrol hquote hslash _ ih =>
      intro acc
      rw [codes_encode_append hcode, ofCodes, List.flatMap_cons, unescape_plain
        (ne_of_mem_encode hslash)]
      change unescape _ (ofCodes _) = _
      rw [ih, List.reverse_append, List.reverse_reverse, List.append_assoc]
    | @stray b rest text hb _ ih =>
      intro acc
      have hfirst : first? (b :: rest) = none := by
        cases hfirst : first? (b :: rest) with
        | none => rfl
        | some p =>
          obtain ⟨hcode, ⟨after, hafter⟩, -⟩ := eq_encode_of_first? hfirst
          exact absurd ⟨after, hafter.symm⟩ (hb _ hcode)
      have hcodes : codes (b :: rest) = replacement :: codes rest := by
        rw [codes, symbols_of_first?_eq_none hfirst]
        rfl
      rw [hcodes, ofCodes, List.flatMap_cons, unescape_plain (ne_of_mem_encode (by decide))]
      change unescape _ (ofCodes _) = _
      rw [ih, List.reverse_append, List.reverse_reverse, List.append_assoc]
    | escape he _ ih =>
      intro acc
      obtain ⟨hmem, rfl⟩ := mem_simpleEscapes.1 he
      obtain ⟨hascii, hne⟩ := ascii_escapeOctets _ hmem
      rw [ofCodes_codes_cons (by decide), ofCodes_codes_cons hascii, unescape_escape hne, ih,
        List.reverse_cons, List.append_assoc]
      rfl
    | unit hunit hn _ ih =>
      intro acc
      obtain ⟨hdigits, rfl⟩ := hexUnit?_eq_some_iff.1 hunit
      rw [ofCodes_codes_hex hdigits, unescape_unit fun hhigh => absurd hn hhigh.not_isScalar, ih,
        List.reverse_append, List.reverse_reverse, List.append_assoc]
    | pair hhigh hlow hpair _ ih =>
      intro acc
      obtain ⟨hdigits, rfl⟩ := hexUnit?_eq_some_iff.1 hhigh
      obtain ⟨hdigits', rfl⟩ := hexUnit?_eq_some_iff.1 hlow
      rw [ofCodes_codes_hex hdigits, ofCodes_codes_hex hdigits', unescape_pair hpair.1 hpair.2, ih,
        List.reverse_append, List.reverse_reverse, List.append_assoc]
    | lone hunit hn hrest ih =>
      intro acc
      obtain ⟨hdigits, rfl⟩ := hexUnit?_eq_some_iff.1 hunit
      rw [ofCodes_codes_hex hdigits, unescape_unit, ih, List.reverse_append, List.reverse_reverse,
        List.append_assoc, encode_surrogate (hn.imp_left And.left)]
      intro hhigh e f g h after hafter hlow
      obtain ⟨-, halone⟩ | hlow' := hn
      · exact halone (lowComes_of_ofCodes hrest.inside hafter hlow)
      · unfold IsHigh at hhigh
        unfold IsLow at hlow'
        omega
  exact hread []

lemma Inside.of_hex (h : Inside (92 :: 117 :: a :: b :: c :: d :: rest)) : Inside rest := by
  cases h with
  | plain _ hslash _ _ => exact absurd rfl hslash
  | escape he _ => exact absurd rfl (ascii_escapeOctets _ he).2
  | hex _ hrest => exact hrest

lemma Inside.exists_spells (h : Inside s) : ∃ text, Spells s text := by
  -- A character takes several octets and a pair two escapes, so the induction is on the length.
  induction hlength : s.length using Nat.strong_induction_on generalizing s with
  | _ length ih =>
    subst hlength
    cases h with
    | nil => exact ⟨[], .nil⟩
    | @plain c rest hquote hslash hcontrol hrest =>
      by_cases hc : c < 0x80
      · obtain ⟨text, htext⟩ := ih _ (by simp) hrest rfl
        have hchar : Spells (encode c.toNat ++ rest) (encode c.toNat ++ text) :=
          .char (isScalar_of_lt (UInt8.lt_iff_toNat_lt.1 hc)) (UInt8.le_iff_toNat_le.1 hcontrol)
            (fun heq => hquote (UInt8.toNat_inj.1 heq))
              (fun heq => hslash (UInt8.toNat_inj.1 heq)) htext
        rw [encode_toNat hc] at hchar
        exact ⟨_, hchar⟩
      cases hfirst : first? (c :: rest) with
      | none =>
        obtain ⟨text, htext⟩ := ih _ (by simp) hrest rfl
        refine ⟨_, .stray (fun code hcode hbegins => ?_) htext⟩
        obtain ⟨after, hafter⟩ := hbegins
        rw [← hafter, first?_encode_append hcode] at hfirst
        cases hfirst
      | some p =>
        obtain ⟨hcode, ⟨after, hafter⟩, -⟩ := eq_encode_of_first? hfirst
        have hlarge := le_of_cons_eq_encode_append (UInt8.not_lt.1 hc) hafter
        have hinside : Inside after :=
          Inside.of_append (fun x => le_of_mem_encode hlarge)
            (hafter ▸ Inside.plain hquote hslash hcontrol hrest)
        have hpos := List.length_pos_iff.2 (encode_ne_nil p.1)
        obtain ⟨text, htext⟩ :=
          ih after.length (by rw [hafter, List.length_append]; omega) hinside rfl
        rw [hafter]
        exact ⟨_, .char hcode (by omega) (by omega) (by omega) htext⟩
    | @escape e rest he hrest =>
      obtain ⟨text, htext⟩ := ih _ (by simp only [List.length_cons]; omega) hrest rfl
      exact ⟨_, .escape (mem_simpleEscapes.2 ⟨he, rfl⟩) htext⟩
    | @hex a b c d rest hdigits hrest =>
      have hunit : hexUnit? a b c d = some (hex4 a b c d) := hexUnit?_eq_some_iff.2 ⟨hdigits, rfl⟩
      obtain ⟨text, htext⟩ := ih _ (by simp only [List.length_cons]; omega) hrest rfl
      by_cases hscalar : IsScalar (hex4 a b c d)
      · exact ⟨_, .unit hunit hscalar htext⟩
      by_cases hpair : IsHigh (hex4 a b c d) ∧ LowComes rest
      · obtain ⟨hhigh, e, f, g, h, low, after, rfl, hlow, hislow⟩ := hpair
        obtain ⟨text, htext⟩ :=
          ih after.length (by simp only [List.length_cons]; omega) hrest.of_hex rfl
        exact ⟨_, .pair hunit hlow ⟨hhigh, hislow⟩ htext⟩
      · refine ⟨_, .lone hunit ?_ htext⟩
        obtain hhigh | hlow := surrogate_of_hexUnit? hunit hscalar
        · exact .inl ⟨hhigh, fun hcomes => hpair ⟨hhigh, hcomes⟩⟩
        · exact .inr hlow

/-- The grammar of strings is what the scanner accepts, with the text that it yields. -/
lemma spells_iff : Spells s text ↔ Inside s ∧ stringText s = text := by
  refine ⟨fun h => ⟨h.inside, h.stringText⟩, ?_⟩
  rintro ⟨h, rfl⟩
  obtain ⟨text, htext⟩ := h.exists_spells
  rw [htext.stringText]
  exact htext

end UiCodegen.Document.Json
