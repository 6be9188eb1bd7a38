import UiCodegen.Proofs.DocumentNumbers
import UiCodegen.Proofs.Formatting
import UiCodegen.Proofs.Numerals
import UiCodegen.Proofs.TextValues

/-!
# Numbers as constants of C

The constants of C are described by their grammar, with the number that each of them denotes.  A
number of a document is written into the code as it stands, with a cast or a suffix where its class
asks for one.  That is a constant, and it denotes the number, for every number that is written by
the grammar of documents: no zero stands in front of its digits, where C would take them for octal
ones.

The doubles that are not finite have no constants.  Their texts have neither a point nor an
exponent, so they are taken for integers, and code comes out that names `Inf` or `NaN`.
-/

namespace UiCodegen.C

open Numeral (AreDigits value)

/-! ## Constants -/

def integerSuffixes : List Bytes :=
  let unsigned : List Bytes := ["u", "U"]
  let long : List Bytes := ["l", "L", "ll", "LL"]
  [[]] ++ unsigned ++ long ++ unsigned.flatMap (fun u => long.map (u ++ ·)) ++
    long.flatMap (fun l => unsigned.map (l ++ ·))

def floatingSuffixes : List Bytes := ["", "f", "F", "l", "L"]

/-- An integer constant and the number that it denotes.  Zero is an octal one. -/
inductive IntegerConstant : Bytes → ℚ → Prop
  | decimal {s suffix : Bytes} {d : Nat} {ds : List Nat} (hs : AreDigits 10 s (d :: ds))
      (hd : d ≠ 0) (hsuffix : suffix ∈ integerSuffixes) :
      IntegerConstant (s ++ suffix) (value 10 (d :: ds))
  | octal {s suffix : Bytes} {ds : List Nat} (hs : AreDigits 8 s ds)
      (hsuffix : suffix ∈ integerSuffixes) : IntegerConstant (48 :: (s ++ suffix)) (value 8 ds)
  | hexadecimal {x : UInt8} {s suffix : Bytes} {d : Nat} {ds : List Nat} (hx : x ∈ [0x78, 0x58])
      (hs : AreDigits 16 s (d :: ds)) (hsuffix : suffix ∈ integerSuffixes) :
      IntegerConstant (48 :: x :: (s ++ suffix)) (value 16 (d :: ds))

/-- The exponent of a floating constant: the letter, a sign or none, and digits. -/
inductive ExponentPart : Bytes → ℤ → Prop
  | mk {e : UInt8} {sign s : Bytes} {d : Nat} {ds : List Nat} (he : e ∈ [0x65, 0x45])
      (hsign : sign ∈ [[], [43], [45]]) (hs : AreDigits 10 s (d :: ds)) :
      ExponentPart (e :: (sign ++ s)) (if sign = [45] then -(value 10 (d :: ds) : ℤ) else value 10
        (d :: ds))

def OptionalExponent (s : Bytes) (e : ℤ) : Prop := s = [] ∧ e = 0 ∨ ExponentPart s e

/-- A decimal floating constant, and the number that it denotes before it is rounded to its type. -/
inductive FloatingConstant : Bytes → ℚ → Prop
  /-- With a point; digits may be missing on one side of it, and the exponent may be missing. -/
  | point {whole fraction exponent suffix : Bytes} {ds es : List Nat} {e : ℤ}
      (hwhole : AreDigits 10 whole ds) (hfraction : AreDigits 10 fraction es)
        (hdigits : ds ++ es ≠ [])
      (hexponent : OptionalExponent exponent e) (hsuffix : suffix ∈ floatingSuffixes) :
      FloatingConstant (whole ++ 46 :: (fraction ++ (exponent ++ suffix)))
        (value 10 (ds ++ es) * 10 ^ (e - fraction.length))
  /-- Without a point, but with an exponent. -/
  | exponent {whole exponent suffix : Bytes} {d : Nat} {ds : List Nat} {e : ℤ}
      (hwhole : AreDigits 10 whole (d :: ds))
      (hexponent : ExponentPart exponent e) (hsuffix : suffix ∈ floatingSuffixes) :
      FloatingConstant (whole ++ (exponent ++ suffix)) (value 10 (d :: ds) * 10 ^ e)

def Negatable (Constant : Bytes → ℚ → Prop) (text : Bytes) (q : ℚ) : Prop :=
  Constant text q ∨ ∃ c r, text = 45 :: c ∧ Constant c r ∧ q = -r

def LeadsNumber (text : Bytes) : Prop := ∃ c rest, text = c :: rest ∧ (Bytes.isDigit c ∨ c = 46)

lemma leadsNumber_append {s : Bytes} {d : Nat} {ds : List Nat} (hs : AreDigits 10 s (d :: ds))
    (behind : Bytes) : LeadsNumber (s ++ behind) := by
  cases hs with
  | cons hc _ => exact ⟨_, _, rfl, .inl (Numeral.hexValue?_lt_ten_iff.1 hc).1⟩

lemma IntegerConstant.leadsNumber {text : Bytes} {q : ℚ} (h : IntegerConstant text q) :
    LeadsNumber text := by
  cases h with
  | decimal hs => exact leadsNumber_append hs _
  | octal | hexadecimal => exact ⟨48, _, rfl, .inl (by decide)⟩

lemma FloatingConstant.leadsNumber {text : Bytes} {q : ℚ} (h : FloatingConstant text q) :
    LeadsNumber text := by
  cases h with
  | exponent hs => exact leadsNumber_append hs _
  | point hwhole =>
    cases hwhole with
    | nil => exact ⟨46, _, rfl, .inr rfl⟩
    | cons hd hrest => exact leadsNumber_append (.cons hd hrest) _

/-- What begins with the text of a double that is not finite is no constant. -/
lemma not_negatable_of_notFinite {Constant : Bytes → ℚ → Prop}
    (hleads : ∀ text q, Constant text q → LeadsNumber text)
    {literal : Bytes} (h : literal ∈ Document.notFinite) (behind : Bytes) (q : ℚ) :
    ¬ Negatable Constant (literal ++ behind) q := by
  simp only [Document.notFinite, List.mem_cons, List.not_mem_nil, or_false] at h
  rintro (hconstant | ⟨c, r, htext, hconstant, -⟩)
  · obtain ⟨c, rest, hc, hlead⟩ := hleads _ _ hconstant
    obtain rfl | rfl | rfl := h <;> (cases hc; exact absurd hlead (by decide))
  · obtain ⟨b, rest, rfl, hlead⟩ := hleads _ _ hconstant
    obtain rfl | rfl | rfl := h <;> cases htext
    exact absurd hlead (by decide)

end UiCodegen.C

namespace UiCodegen.Decimal

open Document.Json (IsDigits IsInteger IsFraction IsExponent IsTail IsNumeral Optional)
open Numeral (AreDigits value value_cons value_append)
open C (ExponentPart OptionalExponent IntegerConstant FloatingConstant Negatable)

variable {sign tail : Bytes}

/-! ## Reading constants -/

def rational? (s : Bytes) : Option ℚ :=
  (parts? s).map fun (negative, digits, power) => (if negative then -1 else 1) *
    (digits * 10 ^ power)

variable {s whole fraction exponent : Bytes} {ds es : List Nat} {d : Nat} {e : ℤ}

lemma foldl_digits (hs : AreDigits 10 s ds) (acc : Nat) :
    s.foldl (fun n b => n * 10 + (b.toNat - 48)) acc = acc * 10 ^ s.length + value 10 ds := by
  induction hs generalizing acc with
  | nil => simp [value]
  | cons hc hrest ih =>
    rw [List.foldl_cons, ih, value_cons, ← hrest.length_eq, List.length_cons, pow_succ,
      (Numeral.hexValue?_lt_ten_iff.1 hc).2]
    ring

lemma digitsValue_eq (hs : AreDigits 10 s ds) : digitsValue s = value 10 ds := by
  rw [digitsValue, foldl_digits hs, zero_mul, zero_add]

/-- Digits end where something else comes. -/
lemma span_digits (hs : AreDigits 10 s ds) (behind : Bytes)
    (hbehind : ∀ c ∈ behind.head?, Bytes.isDigit c = false) :
    (s ++ behind).takeWhile Bytes.isDigit = s ∧ (s ++ behind).dropWhile Bytes.isDigit = behind := by
  have htake : behind.takeWhile Bytes.isDigit = [] ∧ behind.dropWhile Bytes.isDigit = behind := by
    cases behind with
    | nil => simp
    | cons c rest => simp [hbehind c rfl]
  rw [List.takeWhile_append_of_pos hs.isDigit, List.dropWhile_append_of_pos hs.isDigit,
    htake.1, htake.2]
  simp

/-- A digit in front is no sign, so a plus may stand before it. -/
lemma plus_digit {c : UInt8} (hc : Bytes.isDigit c) (rest : Bytes) :
    power? (c :: rest) = power? (43 :: c :: rest) ∧ parts? (c :: rest) = parts?
    (43 :: c :: rest) := by
  have hmem : c ∈ [48, 49, 50, 51, 52, 53, 54, 55, 56, 57] := by
    revert c
    decide +kernel
  simp only [List.mem_cons, List.not_mem_nil, or_false] at hmem
  obtain rfl | rfl | rfl | rfl | rfl | rfl | rfl | rfl | rfl | rfl := hmem <;> exact ⟨rfl, rfl⟩

/-- A minus changes the sign and nothing else. -/
lemma parts?_minus (s : Bytes) :
    parts? (45 :: s) = (parts? (43 :: s)).map fun parts => (true, parts.2) := by
  simp only [parts?]
  split_ifs
  · rfl
  · rw [Option.map_map]
    rfl

lemma power?_digits (hsign : sign ∈ [[], [43], [45]]) (hs : AreDigits 10 s (d :: ds)) :
    power? (sign ++ s) = some
    (if sign = [45] then -(value 10 (d :: ds) : ℤ) else value 10 (d :: ds)) := by
  have hall : s.all Bytes.isDigit = true := List.all_eq_true.2 hs.isDigit
  have hvalue := digitsValue_eq hs
  cases hs with
  | cons hc _ =>
    simp only [List.mem_cons, List.not_mem_nil, or_false] at hsign
    obtain rfl | rfl | rfl := hsign
    · rw [List.nil_append, (plus_digit (Numeral.hexValue?_lt_ten_iff.1 hc).1 _).1]
      simp [power?, hall, hvalue]
    · simp [power?, hall, hvalue]
    · simp [power?, hall, hvalue]

/-- An exponent is read as the power of ten that it stands for, and digits end before it. -/
lemma exists_of_exponentPart (h : ExponentPart exponent e) :
    ∃ c rest, exponent = c :: rest ∧ Bytes.lowerByte c = 101 ∧ Bytes.isDigit c = false ∧ c ≠ 46 ∧
      power? rest = some e := by
  obtain ⟨he, hsign, hs⟩ := h
  refine ⟨_, _, rfl, Document.Json.lowerByte_eq_iff.2 he, ?_, ?_, power?_digits hsign hs⟩
  all_goals
    simp only [List.mem_cons, List.not_mem_nil, or_false] at he
    obtain rfl | rfl := he <;> decide

/-- Digits, a point and more digits, and an exponent or none. -/
lemma parts?_point (hwhole : AreDigits 10 whole (d :: ds)) (hfraction : AreDigits 10 fraction es)
    (hexponent : OptionalExponent exponent e) :
    parts? (43 :: (whole ++ 46 :: (fraction ++ exponent))) =
      some (false, value 10 (d :: ds ++ es), e - fraction.length) := by
  have hne : whole.isEmpty = false := by
    cases hwhole
    rfl
  have hvalue := digitsValue_eq (hwhole.append hfraction)
  obtain ⟨htake, hdrop⟩ :=
    span_digits hwhole (46 :: (fraction ++ exponent)) (by simp [Bytes.isDigit])
  obtain ⟨rfl, rfl⟩ | hexponent := hexponent
  · obtain ⟨htakeF, hdropF⟩ := span_digits hfraction [] (by simp)
    simp only [parts?, htake, hdrop, htakeF, hdropF, hne, Bool.false_and, Bool.false_eq_true,
      if_false, Option.map_some, hvalue]
  · obtain ⟨c, rest, rfl, hlower, hdigit, -, hpower⟩ := exists_of_exponentPart hexponent
    obtain ⟨htakeF, hdropF⟩ := span_digits hfraction (c :: rest) (by simpa using hdigit)
    simp only [parts?, htake, hdrop, htakeF, hdropF, hne, Bool.false_and, Bool.false_eq_true,
      if_false, hlower, beq_self_eq_true, if_true, hpower, Option.map_some, hvalue]

/-- Digits without a point, and an exponent or none. -/
lemma parts?_whole (hwhole : AreDigits 10 whole (d :: ds))
    (hexponent : OptionalExponent exponent e) :
    parts? (43 :: (whole ++ exponent)) = some (false, value 10 (d :: ds), e) := by
  have hne : whole.isEmpty = false := by
    cases hwhole
    rfl
  have hvalue := digitsValue_eq hwhole
  obtain ⟨rfl, rfl⟩ | hexponent := hexponent
  · obtain ⟨htake, hdrop⟩ := span_digits hwhole [] (by simp)
    simp only [parts?, htake, hdrop]
    simp [hne, hvalue]
  · obtain ⟨c, rest, rfl, hlower, hdigit, hpoint, hpower⟩ := exists_of_exponentPart hexponent
    obtain ⟨htake, hdrop⟩ := span_digits hwhole (c :: rest) (by simpa using hdigit)
    simp only [parts?, htake, hdrop]
    simp [hne, hvalue, hlower, hpoint, hpower]

/-! ## Numbers of documents as constants -/

def signed (sign : Bytes) (q : ℚ) : ℚ := if sign = [45] then -q else q

lemma rational?_signed (hsign : sign ∈ [[], [45]]) (hwhole : AreDigits 10 whole (d :: ds))
    {rest : Bytes}
    {digits : Nat} {power : ℤ} (h : parts? (43 :: (whole ++ rest)) = some (false, digits, power)) :
    rational? (sign ++ (whole ++ rest)) = some (signed sign (digits * 10 ^ power)) := by
  simp only [List.mem_cons, List.not_mem_nil, or_false] at hsign
  obtain rfl | rfl := hsign
  · cases hwhole with
    | cons hc _ =>
      rw [List.nil_append, rational?, List.cons_append,
        (plus_digit (Numeral.hexValue?_lt_ten_iff.1 hc).1 _).2, ← List.cons_append, h]
      simp [signed]
  · have hminus := parts?_minus (whole ++ rest)
    simp [rational?, signed, hminus, h]

lemma negatable_signed {Constant : Bytes → ℚ → Prop} {text : Bytes} (hsign : sign ∈ [[], [45]])
    {q : ℚ} (h : Constant text q) : Negatable Constant (sign ++ text) (signed sign q) := by
  simp only [List.mem_cons, List.not_mem_nil, or_false] at hsign
  obtain rfl | rfl := hsign
  · exact .inl h
  · exact .inr ⟨text, q, rfl, h, rfl⟩

lemma areDigits_of_isDigits (h : IsDigits s) : ∃ d ds, AreDigits 10 s (d :: ds) := by
  have hdigits := Numeral.areDigits_of_isDigit h.2
  obtain ⟨c, rest, rfl⟩ := List.exists_cons_of_ne_nil h.1
  exact ⟨_, _, hdigits⟩

lemma isDigits_of_isInteger (h : IsInteger s) : IsDigits s := by
  obtain rfl | ⟨hs, -⟩ := h
  · exact ⟨by simp, by simp [Bytes.isDigit]⟩
  · exact hs

/-- An integer of a document is an integer constant: decimal, or the octal zero. -/
lemma integerConstant_of_isInteger (h : IsInteger s) (hs : AreDigits 10 s (d :: ds)) :
    IntegerConstant s (value 10 (d :: ds)) := by
  have hsuffix : [] ∈ C.integerSuffixes := by simp [C.integerSuffixes]
  cases hs with
  | @cons c _ rest _ hc hrest =>
    obtain ⟨hdigit, rfl⟩ := Numeral.hexValue?_lt_ten_iff.1 hc
    obtain hzero | ⟨-, hhead⟩ := h
    · cases hzero
      cases hrest
      exact .octal .nil hsuffix
    · have hfirst : c.toNat - 48 ≠ 0 := by
        intro hzero
        have hle : 48 ≤ c.toNat := by
          simpa [UInt8.le_iff_toNat_le] using (Bool.and_eq_true_iff.1 hdigit).1
        exact hhead (congrArg some (UInt8.toNat_inj.1 (by simp; omega)))
      have hconstant := IntegerConstant.decimal (.cons hc hrest) hfirst hsuffix
      rwa [List.append_nil] at hconstant

lemma exists_exponentPart (h : Optional IsExponent exponent) :
    ∃ e, OptionalExponent exponent e := by
  obtain rfl | ⟨c, sign, digits, rfl, hc, hsign, hdigits⟩ := h
  · exact ⟨0, .inl ⟨rfl, rfl⟩⟩
  · obtain ⟨d, ds, hs⟩ := areDigits_of_isDigits hdigits
    exact ⟨_, .inr (.mk hc hsign hs)⟩

def hasMark (literal : Bytes) : Bool := literal.any fun b => b == 46 || b == 101 || b == 69

lemma hasMark_of_isDigit (h : ∀ c ∈ s, Bytes.isDigit c) : hasMark s = false := by
  rw [hasMark, List.any_eq_false]
  intro c hc
  have hdigit := h c hc
  clear hc
  revert c
  decide +kernel

/-- A number without a point and an exponent. -/
lemma constants_of_integer (hsign : sign ∈ [[], [45]]) (h : IsInteger whole) :
    ∃ q, rational? (sign ++ whole) = some q ∧ Negatable IntegerConstant (sign ++ whole) q ∧
      ∀ suffix ∈ C.floatingSuffixes, Negatable FloatingConstant
      (sign ++ whole ++ ".0" ++ suffix) q := by
  obtain ⟨d, ds, hwhole⟩ := areDigits_of_isDigits (isDigits_of_isInteger h)
  have hparts := parts?_whole hwhole (.inl ⟨rfl, rfl⟩)
  have hrational := rational?_signed hsign hwhole hparts
  refine ⟨signed sign (value 10 (d :: ds)), ?_, ?_, fun suffix hsuffix => ?_⟩
  · simpa using hrational
  · exact negatable_signed hsign (integerConstant_of_isInteger h hwhole)
  · have hzero : AreDigits 10 [48] [0] := .cons (by decide) .nil
    have hconstant := FloatingConstant.point hwhole hzero (by simp) (.inl ⟨rfl, rfl⟩) hsuffix
    have hvalue : ((value 10 (d :: ds ++ [0]) : ℕ) : ℚ) * 10 ^ (0 - (([48] : Bytes).length : ℤ)) =
        value 10 (d :: ds) := by
      rw [value_append]
      simp [value]
    rw [hvalue] at hconstant
    have hnegatable := negatable_signed hsign hconstant
    simp only [List.append_assoc]
    exact hnegatable

lemma constants_of_tail (hsign : sign ∈ [[], [45]]) (h : IsInteger whole) (htail : IsTail tail)
    (hne : tail ≠ []) : ∃ q, rational? (sign ++ (whole ++ tail)) = some q ∧
      ∀ suffix ∈ C.floatingSuffixes, Negatable FloatingConstant
      (sign ++ (whole ++ tail) ++ suffix) q := by
  obtain ⟨d, ds, hwhole⟩ := areDigits_of_isDigits (isDigits_of_isInteger h)
  obtain ⟨frac, exponent, rfl, hfrac, hexp⟩ := htail
  obtain ⟨e, hexponent⟩ := exists_exponentPart hexp
  obtain rfl | ⟨fraction, rfl, hfraction⟩ := hfrac
  · obtain ⟨rfl, -⟩ | hpart := hexponent
    · exact absurd rfl hne
    · refine ⟨_, rational?_signed hsign hwhole (parts?_whole hwhole (.inr hpart)),
        fun suffix hsuffix => ?_⟩
      have hconstant := negatable_signed hsign (FloatingConstant.exponent hwhole hpart hsuffix)
      simpa only [List.append_assoc, List.nil_append] using hconstant
  · obtain ⟨d', es, hfraction⟩ := areDigits_of_isDigits hfraction
    refine ⟨_, rational?_signed hsign hwhole (parts?_point hwhole hfraction hexponent),
      fun suffix hsuffix => ?_⟩
    have hconstant := negatable_signed hsign
      (FloatingConstant.point hwhole hfraction (by simp) hexponent hsuffix)
    simpa only [List.append_assoc, List.cons_append] using hconstant

lemma hasMark_of_tail (htail : IsTail tail) (hne : tail ≠ []) (front : Bytes) :
    hasMark (front ++ tail) = true := by
  obtain ⟨frac, exponent, rfl, hfrac, hexp⟩ := htail
  rw [hasMark, List.any_append, List.any_append]
  obtain rfl | ⟨fraction, rfl, -⟩ := hfrac
  · obtain rfl | ⟨c, sign, digits, rfl, hc, -⟩ := hexp
    · exact absurd rfl hne
    · simp only [List.mem_cons, List.not_mem_nil, or_false] at hc
      obtain rfl | rfl := hc <;> simp
  · simp

end UiCodegen.Decimal

namespace UiCodegen.Transpile

open Document.Json (IsNumeral IsInteger)
open C (IntegerConstant FloatingConstant Negatable)
open Decimal (hasMark rational?)

/-- A number of a document that was read, in either format. -/
def ReadNumber (literal : Bytes) : Prop :=
  ∃ s v, (Document.Json.decode s = .ok v ∨ Document.Yaml.decode s = .ok v) ∧
    Document.Json.Within (.num literal) v

def ConstantFor (cls : Api.TypeClass) (ctype text : Bytes) (q : ℚ) : Prop :=
  match cls with
  | .int => Negatable IntegerConstant text q
  | .enum =>
    ∃ constant, text = Bytes.ofString "(" ++ ctype ++ Bytes.ofString ")" ++ constant ∧
      Negatable IntegerConstant constant q
  | .float => Negatable FloatingConstant text q
  | _ => False

/-- A number without a point and an exponent; those that are not finite count as such. -/
def IsWhole (literal : Bytes) : Prop :=
  (∃ sign int, literal = sign ++ int ∧ sign ∈ [[], [45]] ∧ IsInteger int) ∨
    literal ∈ Document.notFinite

def Takes (info : Api.TypeInfo) (literal : Bytes) : Prop :=
  match info.cls with
  | .int => IsWhole literal ∧ (info.isUnsigned = true → ¬ literal.head? = some 45)
  | .enum => IsWhole literal
  | .float => True
  | _ => False

def constantText (info : Api.TypeInfo) (ctype literal : Bytes) : Bytes :=
  match info.cls with
  | .enum => Bytes.ofString "(" ++ ctype ++ Bytes.ofString ")" ++ literal
  | .float =>
      literal ++ Bytes.onlyIf (!hasMark literal) ".0" ++ Bytes.onlyIf (info.prim == "float") "f"
  | _ => literal

variable {literal ctype : Bytes} {info : Api.TypeInfo}

lemma hasMark_eq_false_iff (h : IsNumeral literal ∨ literal ∈ Document.notFinite) :
    hasMark literal = false ↔ IsWhole literal := by
  constructor
  · intro hmark
    obtain ⟨sign, int, tail, rfl, hsign, hint, htail⟩ | hfinite := h
    · by_cases hne : tail = []
      · subst hne
        exact .inl ⟨sign, int, by simp, hsign, hint⟩
      · rw [← List.append_assoc, Decimal.hasMark_of_tail htail hne] at hmark
        cases hmark
    · exact .inr hfinite
  · rintro (⟨sign, int, rfl, hsign, hint⟩ | hfinite)
    · rw [hasMark, List.any_append, ← hasMark, ← hasMark,
        Decimal.hasMark_of_isDigit (Decimal.isDigits_of_isInteger hint).2]
      simp only [List.mem_cons, List.not_mem_nil, or_false] at hsign
      obtain rfl | rfl := hsign <;> rfl
    · simp only [Document.notFinite, List.mem_cons, List.not_mem_nil, or_false] at hfinite
      obtain rfl | rfl | rfl := hfinite <;> rfl

lemma outcome_formatNumber (p : Place) (h : IsNumeral literal ∨ literal ∈ Document.notFinite)
    (hcls : info.cls ∈ [.int, .enum, .float]) {st st' : State} {e : Expr} :
    (formatNumber p literal ctype info).outcome st = some (.ok e, st') ↔
      Takes info literal ∧ e = .text (constantText info ctype literal) ∧ st' = st := by
  have hwhole := hasMark_eq_false_iff h
  have hminus : Bytes.startsWith literal "-" = true ↔ literal.head? = some 45 := by
    change List.isPrefixOf [45] literal = true ↔ _
    cases literal with
    | nil => simp
    | cons c rest =>
      simp only [List.isPrefixOf, Bool.and_true, beq_iff_eq, List.head?_cons, Option.some.injEq]
      exact eq_comm
  simp only [List.mem_cons, List.not_mem_nil, or_false] at hcls
  simp only [formatNumber, Takes, constantText, ← hwhole, ← Bool.not_eq_true, ← hminus]
  simp only [hasMark]
  generalize literal.any _ = mark
  obtain hcls | hcls | hcls := hcls <;> simp only [hcls]
  · cases mark
    · cases info.isUnsigned <;> cases Bytes.startsWith literal "-" <;> simp [fail, eq_comm]
    · simp [fail]
  · cases mark <;> simp [fail, eq_comm]
  · simp [eq_comm]

lemma integerConstant_of_isWhole (hfinite : literal ∉ Document.notFinite) (h : IsWhole literal) :
    ∃ q, rational? literal = some q ∧ Negatable IntegerConstant literal q := by
  obtain ⟨sign, int, rfl, hsign, hint⟩ | hnot := h
  · obtain ⟨q, hq, hconstant, -⟩ := Decimal.constants_of_integer hsign hint
    exact ⟨q, hq, hconstant⟩
  · exact absurd hnot hfinite

/-- A point and a zero are added just where the number has neither a point nor an exponent. -/
lemma floatingConstant_of_isNumeral (h : IsNumeral literal) {suffix : Bytes}
    (hsuffix : suffix ∈ C.floatingSuffixes) : ∃ q, rational? literal = some q ∧
      Negatable FloatingConstant (literal ++ Bytes.onlyIf (!hasMark literal) ".0" ++ suffix) q := by
  have hwhole := hasMark_eq_false_iff (.inl h)
  obtain ⟨sign, int, tail, rfl, hsign, hint, htail⟩ := h
  by_cases hne : tail = []
  · subst hne
    rw [List.append_nil] at hwhole ⊢
    obtain ⟨q, hq, -, hconstant⟩ := Decimal.constants_of_integer hsign hint
    refine ⟨q, hq, ?_⟩
    rw [hwhole.2 (.inl ⟨sign, int, rfl, hsign, hint⟩)]
    exact hconstant suffix hsuffix
  · have hmark : hasMark (sign ++ (int ++ tail)) = true := by
      rw [← List.append_assoc]
      exact Decimal.hasMark_of_tail htail hne _
    obtain ⟨q, hq, hconstant⟩ := Decimal.constants_of_tail hsign hint htail hne
    refine ⟨q, hq, ?_⟩
    rw [hmark, Bytes.onlyIf, if_neg (by simp), List.append_nil]
    exact hconstant suffix hsuffix

lemma constantFor_constantText (hcls : info.cls ∈ [.int, .enum, .float])
    (hfinite : literal ∉ Document.notFinite) (h : IsNumeral literal) (htakes : Takes info literal) :
    ∃ q, rational? literal = some q ∧ ConstantFor info.cls ctype
    (constantText info ctype literal) q := by
  simp only [List.mem_cons, List.not_mem_nil, or_false] at hcls
  unfold Takes at htakes
  unfold ConstantFor constantText
  obtain hcls | hcls | hcls := hcls <;> simp only [hcls] at htakes ⊢
  · exact integerConstant_of_isWhole hfinite htakes.1
  · obtain ⟨q, hq, hconstant⟩ := integerConstant_of_isWhole hfinite htakes
    exact ⟨q, hq, literal, rfl, hconstant⟩
  · refine floatingConstant_of_isNumeral h ?_
    cases info.prim == Bytes.ofString "float" <;> decide

/-- What is written for a number that is not finite is no constant. -/
lemma not_constantFor_constantText (hcls : info.cls ∈ [.int, .enum, .float])
    (hnot : literal ∈ Document.notFinite)
    (q : ℚ) : ¬ ConstantFor info.cls ctype (constantText info ctype literal) q := by
  have hinteger : ¬ Negatable IntegerConstant (literal ++ []) q :=
    C.not_negatable_of_notFinite (fun _ _ h => h.leadsNumber) hnot [] q
  rw [List.append_nil] at hinteger
  simp only [List.mem_cons, List.not_mem_nil, or_false] at hcls
  unfold ConstantFor constantText
  obtain hcls | hcls | hcls := hcls <;> simp only [hcls]
  · exact hinteger
  · rintro ⟨constant, htext, hconstant⟩
    exact hinteger (List.append_cancel_left htext ▸ hconstant)
  · rw [List.append_assoc]
    exact C.not_negatable_of_notFinite (fun _ _ h => h.leadsNumber) hnot _ q

/-- **Numbers become constants of C.**  A number of a document that an argument of an integer,
enumeration or floating type takes is written as a constant that denotes it, with a minus in front
of it or none and behind a cast for an enumeration, unless the number is not finite: then what is
written is no constant at all. -/
theorem numbers_become_constants (hread : ReadNumber literal)
    (hcls : info.cls ∈ [.int, .enum, .float]) (p : Place) (ctype : Bytes) (st : State) :
    ((∃ e st', (formatNumber p literal ctype info).outcome st = some (.ok e, st')) ↔
      Takes info literal) ∧
      ∀ e st', (formatNumber p literal ctype info).outcome st = some (.ok e, st') →
        (literal ∉ Document.notFinite → ∃ q, rational? literal = some q ∧
          ConstantFor info.cls ctype e.render q) ∧
        (literal ∈ Document.notFinite → ∀ q, ¬ ConstantFor info.cls ctype e.render q) := by
  obtain ⟨s, v, hdecode, hwithin⟩ := hread
  have hwritten := Document.isNumeral_or_of_decode hdecode hwithin
  refine ⟨⟨?_, fun htakes => ?_⟩, fun e st' h => ?_⟩
  · rintro ⟨e, st', h⟩
    exact ((outcome_formatNumber p hwritten hcls).1 h).1
  · exact ⟨_, _, (outcome_formatNumber p hwritten hcls).2 ⟨htakes, rfl, rfl⟩⟩
  · obtain ⟨htakes, rfl, -⟩ := (outcome_formatNumber p hwritten hcls).1 h
    rw [Expr.render]
    exact ⟨fun hfinite => constantFor_constantText hcls hfinite
      (hwritten.resolve_right hfinite) htakes, not_constantFor_constantText hcls⟩

/-- A number below zero with a fraction and an exponent, for a `float`. -/
theorem fraction_becomes_constant :
    ReadNumber "-12.50e+3" ∧
      (formatNumber plainPlace "-12.50e+3" "float" (bareSettings.index.describe "float")).outcome
        {} = some (.ok (.text "-12.50e+3f"), {}) ∧
      rational? "-12.50e+3" = some (-12500) ∧ ConstantFor .float "float" "-12.50e+3f" (-12500) := by
  have hread : ReadNumber "-12.50e+3" :=
    ⟨"[-12.50e+3]", .arr [.num "-12.50e+3"], .inl (by cbv), .item List.mem_cons_self .refl⟩
  have hcls : (bareSettings.index.describe "float").cls ∈ [.int, .enum, .float] := by decide +kernel
  have hrun :
      (formatNumber plainPlace "-12.50e+3" "float" (bareSettings.index.describe "float")).outcome
        {} =
      some (.ok (.text "-12.50e+3f"), {}) := by cbv
  have hrational : rational? "-12.50e+3" = some (-12500) := by
    have hparts : Decimal.parts? "-12.50e+3" = some (true, 1250, 1) := by decide
    simp only [rational?, hparts]
    norm_num
  refine ⟨hread, hrun, hrational, ?_⟩
  obtain ⟨q, hq, hconstant⟩ :=
    ((numbers_become_constants hread hcls plainPlace "float" {}).2 _ _ hrun).1 (by decide)
  obtain rfl := Option.some.inj (hrational.symm.trans hq)
  exact hconstant

lemma decode_infinity : Document.Yaml.decode ".inf" = .ok (.num "+Inf") := by
  have hinput : Document.Yaml.Input.ofBytes ".inf" = ⟨[46, 105, 110, 102], [4], none⟩ := by cbv
  have hread : Document.Yaml.readRoot ".inf" =
      .ok (some (.scalar 1 [] [46, 105, 110, 102] true), []) := by
    rw [Document.Yaml.readRoot, hinput]
    rfl
  have hscalar : Document.Yaml.scalarValue [] [46, 105, 110, 102] true = .ok (.num "+Inf") := rfl
  unfold Document.Yaml.decode
  rw [hread]
  dsimp only
  rw [Document.Yaml.valueOf, Document.Yaml.valueWith]
  simp only [hscalar, Option.getD_some]

/-- The infinity of a YAML document is taken for an integer, and what is written for it is no
constant. -/
theorem infinity_taken_for_integer :
    Document.Yaml.decode ".inf" = .ok (.num "+Inf") ∧
    (bareSettings.index.describe "int32_t").cls = .int ∧
      (formatNumber plainPlace "+Inf" "int32_t" (bareSettings.index.describe "int32_t")).outcome
        {} = some (.ok (.text "+Inf"), {}) ∧
      ∀ q, ¬ ConstantFor .int "int32_t" "+Inf" q := by
  have hinteger : (bareSettings.index.describe "int32_t").cls = .int := by decide +kernel
  have hcls : (bareSettings.index.describe "int32_t").cls ∈
      [.int, .enum, .float] := by simp [hinteger]
  have hnot : ∀ q, ¬ ConstantFor (bareSettings.index.describe "int32_t").cls "int32_t"
      (constantText (bareSettings.index.describe "int32_t") "int32_t" "+Inf") q :=
    not_constantFor_constantText hcls (by decide)
  simp only [constantText, hinteger] at hnot
  exact ⟨decode_infinity, hinteger, by cbv, hnot⟩

end UiCodegen.Transpile
