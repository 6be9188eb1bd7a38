import UiCodegen.Proofs.Numerals
import UiCodegen.Proofs.TypeSpelling

/-!
# Forms of strings

A string says by its first and last octets what it stands for.  Two things are expected of that.

The sign of a reference, a variable, a static string or a percentage, put behind the string, escapes
it: the string is then text.  So it is, except for percentages with white space in front of or
behind their digits.  The white space is passed over where a percentage is read, and not where an
escaped one is (`escaped_is_literal_iff`).

A colour is `#` and three, six or eight hexadecimal digits.  The first two octets of eight say how
transparent the colour is and are dropped before anything is read, so they need not be digits
(`colors_follow_grammar_iff`).
-/

namespace UiCodegen

variable {rgb : Nat} {s : Bytes} {b sign : UInt8} {n : Int} {digits name : Bytes} {g r : UInt8}

/-! ## Escapes -/

namespace Blank

lemma trim_of_parse? (h : Integer.parse? (.fixed 10) s = some n) : trim s = s := by
  refine trim_of_ink fun b hb => ?_
  obtain hdigit | rfl | rfl := (Integer.parse?_eq_some h).1 b hb
  · exact Api.CType.isInk_of_isDigit hdigit
  · decide
  · decide

end Blank

namespace Form

/-- The sign that marks a form at one end of a string, and escapes it when put at the other. -/
def sign? : Form → Option UInt8
  | .ref _ => some 64
  | .contextVar _ => some 36
  | .staticText _ => some 33
  | .percent _ => some 37
  | _ => none

def IsSpacedPercentage (s : Bytes) : Prop :=
  ∃ body n, s = body ++ "%" ∧ ofString s = .percent n ∧ Blank.trim body ≠ body

lemma ofString_marked (hsign : sign = 64 ∨ sign = 36 ∨ sign = 33) (hname : name ≠ []) :
      ofString (sign :: name) = if name.getLast? = some sign then .literal (sign :: name).dropLast
      else if sign = 64 then .ref name else if sign = 36 then .contextVar name
      else .staticText name := by
  have hlast : (sign :: name).getLast? = name.getLast? := by
    rw [List.getLast?_cons, List.getLast?_eq_some_getLast hname]
    rfl
  obtain rfl | rfl | rfl := hsign
  all_goals simp [ofString, hname, hlast]

/-- A string that is marked by a sign at its front begins with that sign, and something follows it.
-/
lemma eq_cons_of_sign? (h : (ofString s).sign? = some sign) (hpercent : sign ≠ 37) :
    (sign = 64 ∨ sign = 36 ∨ sign = 33) ∧ ∃ name, s = sign :: name ∧ name ≠ [] := by
  unfold ofString at h
  split at h
  · cases h
  · rename_i first name
    split at h
    · rename_i hmarked
      obtain ⟨hfirst, hname⟩ : (first = 64 ∨ first = 36 ∨ first = 33) ∧ name ≠ [] := by
        simpa [or_assoc] using hmarked
      split_ifs at h with hlast href hvar
      · cases h
      · cases h
        exact ⟨.inl rfl, name, by simpa using href, hname⟩
      · cases h
        exact ⟨.inr (.inl rfl), name, by simpa using hvar, hname⟩
      · cases h
        refine ⟨.inr (.inr rfl), name, ?_, hname⟩
        simp only [beq_iff_eq] at href hvar
        rw [(hfirst.resolve_left href).resolve_left hvar]
    · split at h
      · split at h <;> cases h
      · split at h
        · split at h <;> cases h
        · split at h
          · split at h
            · exact absurd (Option.some.inj h).symm hpercent
            · cases h
          · cases h

lemma ofString_escaped (h : (ofString s).sign? = some sign) (hpercent : sign ≠ 37) :
    ofString (s ++ [sign]) = .literal s := by
  obtain ⟨hsign, name, rfl, -⟩ := eq_cons_of_sign? h hpercent
  rw [List.cons_append, ofString_marked hsign (by simp), if_pos (by simp), ← List.cons_append,
    List.dropLast_concat]

/-- A percentage begins with none of the signs, and an integer stands in front of its `%`. -/
lemma ofString_eq_percent (h : ofString s = .percent n) :
    ∃ first name body, s = first :: name ∧ (first ≠ 64 ∧ first ≠ 36 ∧ first ≠ 33 ∧ first ≠ 35) ∧
      s = body ++ "%" ∧ Integer.parse? (.fixed 10) (Blank.trim body) = some n := by
  unfold ofString at h
  split at h
  · cases h
  · rename_i first name
    split at h
    · split_ifs at h
    · rename_i hmarked
      split at h
      · split at h <;> cases h
      · rename_i hcolor
        split at h
        · split at h <;> cases h
        · split at h
          · rename_i body htail
            split at h
            · rename_i m hparse
              cases h
              have hs : first :: name = body ++ Bytes.ofString "%" :=
                Api.CType.eq_append_of_dropTail? htail
              refine ⟨first, name, body, rfl, ?_, hs, hparse⟩
              -- A sign by itself has no `%` at its end.
              have hname : first = 64 ∨ first = 36 ∨ first = 33 → name ≠ [] := by
                rintro hfirst rfl
                rw [show Bytes.ofString "%" = [37] by decide] at hs
                have hlast : first = 37 := by simpa using congrArg List.getLast? hs
                rw [hlast] at hfirst
                revert hfirst
                decide
              simp only [beq_iff_eq, Bool.and_eq_true, Bool.or_eq_true, Bool.not_eq_true',
                List.isEmpty_eq_false_iff, not_and, or_assoc] at hmarked hcolor
              grind
            · cases h
          · cases h

/-- A percentage with one more sign is text if its digits can be read with nothing trimmed off. -/
lemma ofString_escaped_percentage {first : UInt8} {body : Bytes}
    (hfirst : first ≠ 64 ∧ first ≠ 36 ∧ first ≠ 33 ∧ first ≠ 35)
    (hs : first :: name = body ++ "%") :
    ofString (first :: name ++ [37]) =
      if (Integer.parse? (.fixed 10) body).isSome then .literal (first :: name)
      else .ident (first :: name ++ [37]) := by
  obtain ⟨href, hvar, hstatic, hcolor⟩ := hfirst
  have htail : Bytes.dropTail? (first :: (name ++ [37])) "%%" = some body := by
    have hmore : first :: (name ++ [37]) = body ++ Bytes.ofString "%%" := by
      rw [← List.cons_append, hs, List.append_assoc]
      rfl
    rw [hmore, Bytes.dropTail?_append]
  have hlast : (first :: (name ++ [37])).dropLast = first :: name := by
    rw [← List.cons_append, List.dropLast_concat]
  rw [List.cons_append, ofString]
  simp only [beq_eq_false_iff_ne.2 href, beq_eq_false_iff_ne.2 hvar, beq_eq_false_iff_ne.2 hstatic,
    beq_eq_false_iff_ne.2 hcolor, htail, hlast, Bool.or_self, Bool.false_and,
      Bool.false_eq_true, if_false]
  cases Integer.parse? (.fixed 10) body <;> rfl

/-- **Escapes.**  The sign of a form, put behind a string of that form, makes the string text,
unless the string is a percentage with white space around its digits.  Such a string with one more
sign stands for itself, sign and all. -/
theorem escaped_is_literal_iff {s : Bytes} {sign : UInt8} (h : (ofString s).sign? = some sign) :
    (ofString (s ++ [sign]) = .literal s ↔ ¬ IsSpacedPercentage s) ∧
      (IsSpacedPercentage s → ofString (s ++ [sign]) = .ident (s ++ [sign])) := by
  by_cases hpercent : sign = 37
  · subst hpercent
    obtain ⟨n, hn⟩ : ∃ n, ofString s = .percent n := by
      cases hs : ofString s with
      | percent n => exact ⟨n, rfl⟩
      | _ => simp [hs, sign?] at h
    obtain ⟨first, name, body, rfl, hfirst, hbody, hparse⟩ := ofString_eq_percent hn
    have hspaced : IsSpacedPercentage (first :: name) ↔ Blank.trim body ≠ body := by
      constructor
      · rintro ⟨other, m, hother, -, htrim⟩
        rwa [List.append_cancel_right (hbody.symm.trans hother)]
      · exact fun htrim => ⟨body, n, hbody, hn, htrim⟩
    have hread : (Integer.parse? (.fixed 10) body).isSome ↔ Blank.trim body = body := by
      constructor
      · intro hsome
        obtain ⟨m, hm⟩ := Option.isSome_iff_exists.1 hsome
        exact Blank.trim_of_parse? hm
      · intro htrim
        rw [← htrim, hparse]
        rfl
    rw [ofString_escaped_percentage hfirst hbody, hspaced, ne_eq, not_not, ← hread]
    constructor
    · split <;> simp_all
    · exact fun hnot => if_neg hnot
  · have hliteral := ofString_escaped h hpercent
    have hplain : ¬ IsSpacedPercentage s := by
      rintro ⟨body, n, -, hn, -⟩
      rw [hn] at h
      exact hpercent (Option.some.inj h).symm
    exact ⟨iff_of_true hliteral hplain, fun hspaced => absurd hspaced hplain⟩

theorem negative_percentage_escaped :
    (ofString "-10%").sign? = some 37 ∧ ofString (Bytes.ofString "-10%" ++ [37]) =
    .literal "-10%" := by
  have hsign : (ofString "-10%").sign? = some 37 := by decide
  refine ⟨hsign, (escaped_is_literal_iff hsign).1.2 ?_⟩
  rintro ⟨body, n, hbody, -, htrim⟩
  have hdigits : Bytes.ofString "-10%" = Bytes.ofString "-10" ++ Bytes.ofString "%" := by decide
  obtain rfl : Bytes.ofString "-10" = body := List.append_cancel_right (hdigits.symm.trans hbody)
  exact htrim (by decide)

/-- With a space in front of its sign a percentage is read, and not when it is escaped. -/
theorem spaced_percentage_not_escaped :
    ofString "50 %" = .percent 50 ∧ ofString (Bytes.ofString "50 %" ++ [37]) = .ident "50 %%" ∧
      ofString (Bytes.ofString "50 %" ++ [37]) ≠ .literal "50 %" := by
  decide

/-! ## Colours -/

open Numeral (AreDigits value areDigits_of_digits digits_of_areDigits)

/-- The texts of colours, and the colours that they stand for. -/
inductive IsColor : Bytes → Nat → Prop
  | short {r g b : UInt8} {x y z : Nat} (h : AreDigits 16 [r, g, b] [x, y, z]) :
      IsColor [35, r, g, b] (value 16 [x, x, y, y, z, z])
  | long {s : Bytes} {ds : List Nat} (h : AreDigits 16 s ds) (hlength : s.length = 6) :
      IsColor (35 :: s) (value 16 ds)
  /-- The first two of eight digits are not part of the colour. -/
  | alpha {s : Bytes} {ds : List Nat} (h : AreDigits 16 s ds) (hlength : s.length = 8) :
      IsColor (35 :: s) (value 16 (ds.drop 2))

/-- Two octets that are not both hexadecimal digits in front of the six digits of a colour. -/
def IsLooseColor (s : Bytes) (rgb : Nat) : Prop :=
  ∃ a b rest ds, s = 35 :: a :: b :: rest ∧ rest.length = 6 ∧ AreDigits 16 rest ds ∧
    rgb = value 16 ds ∧ ∀ x y, ¬ AreDigits 16 [a, b] [x, y]

/-- Six octets are read as a number just if they are digits. -/
lemma hexValue?_eq_some_iff {n : Nat} (hlength : s.length = 6) :
    hexValue? s = some n ↔ ∃ ds, AreDigits 16 s ds ∧ n = value 16 ds := by
  have hne : s.isEmpty = false := by
    cases s with
    | nil => cases hlength
    | cons => rfl
  rw [hexValue?, Integer.parseUnsigned?_eq_some_iff, Integer.parseUnsigned, hne]
  simp only [Bool.false_eq_true, if_false]
  constructor
  · intro h
    simpa using areDigits_of_digits le_rfl h
  · rintro ⟨ds, hds, rfl⟩
    have hlt := hds.value_lt (by decide)
    rw [hlength] at hlt
    simpa using digits_of_areDigits hds false 0 (by omega)

/-- Six digits of which the second, fourth and sixth repeat the one in front of them are three
digits, twice each. -/
lemma areDigits_doubled_iff {n : Nat} :
      (∃ ds, AreDigits 16 [r, r, g, g, b, b] ds ∧ n = value 16 ds) ↔
      ∃ x y z, AreDigits 16 [r, g, b] [x, y, z] ∧ n = value 16 [x, x, y, y, z, z] := by
  constructor
  · rintro ⟨ds, hds, rfl⟩
    rcases hds with _ | ⟨hx, _ | ⟨hx', _ | ⟨hy, _ | ⟨hy', _ | ⟨hz, _ | ⟨hz', _ | _⟩⟩⟩⟩⟩⟩
    cases hx.1.symm.trans hx'.1
    cases hy.1.symm.trans hy'.1
    cases hz.1.symm.trans hz'.1
    exact ⟨_, _, _, .cons hx (.cons hy (.cons hz .nil)), rfl⟩
  · rintro ⟨x, y, z, hxyz, rfl⟩
    rcases hxyz with _ | ⟨hx, _ | ⟨hy, _ | ⟨hz, -⟩⟩⟩
    exact ⟨_, .cons hx (.cons hx (.cons hy (.cons hy (.cons hz (.cons hz .nil))))), rfl⟩

lemma hexColor?_of_length (h : digits.length ≠ 3) : hexColor? (35 :: digits) =
    if digits.length = 6 then hexValue? digits else if digits.length = 8 then hexValue?
    (digits.drop 2) else none := by
  simp only [hexColor?, beq_iff_eq]
  split
  · exact absurd rfl h
  · rfl

/-- Three octets are a colour just if they are digits. -/
lemma isColor_short_or_loose_iff : IsColor [35, r, g, b] rgb ∨ IsLooseColor [35, r, g, b] rgb ↔
      ∃ x y z, AreDigits 16 [r, g, b] [x, y, z] ∧ rgb = value 16 [x, x, y, y, z, z] := by
  constructor
  · rintro (h | ⟨_, _, _, _, hs, hlength, -⟩)
    · cases h with
      | short h => exact ⟨_, _, _, h, rfl⟩
      | long _ hlength => cases hlength
      | alpha _ hlength => cases hlength
    · cases hs
      cases hlength
  · rintro ⟨x, y, z, hxyz, rfl⟩
    exact .inl (.short hxyz)

/-- Six octets are a colour just if they are digits. -/
lemma isColor_long_or_loose_iff (hsix : digits.length = 6) :
    IsColor (35 :: digits) rgb ∨ IsLooseColor (35 :: digits) rgb ↔
      ∃ ds, AreDigits 16 digits ds ∧ rgb = value 16 ds := by
  constructor
  · rintro (h | ⟨_, _, _, _, hs, hlength, -⟩)
    · cases h with
      | short => cases hsix
      | long h _ => exact ⟨_, h, rfl⟩
      | alpha _ hlength => omega
    · cases hs
      simp only [List.length_cons] at hsix
      omega
  · rintro ⟨ds, hds, rfl⟩
    exact .inl (.long hds hsix)

/-- Two octets and six digits are a colour, whether or not the two octets are digits. -/
lemma isColor_alpha_or_loose_iff {a : UInt8} {rest : Bytes} (hrest : rest.length = 6) :
    IsColor (35 :: a :: b :: rest) rgb ∨ IsLooseColor (35 :: a :: b :: rest) rgb ↔
      ∃ ds, AreDigits 16 rest ds ∧ rgb = value 16 ds := by
  constructor
  · rintro (h | ⟨_, _, _, ds, heq, -, hds, hrgb, -⟩)
    · cases h with
      | short => cases hrest
      | long _ hlength => simp only [List.length_cons] at hlength; omega
      | alpha hds =>
        cases hds with
        | cons _ hds =>
          cases hds with
          | cons _ hds => exact ⟨_, hds, rfl⟩
    · cases heq
      exact ⟨ds, hds, hrgb⟩
  · rintro ⟨ds, hds, rfl⟩
    by_cases halpha : ∃ x y, AreDigits 16 [a, b] [x, y]
    · obtain ⟨x, y, hxy⟩ := halpha
      have hdigits : AreDigits 16 (a :: b :: rest) (x :: y :: ds) := hxy.append hds
      exact .inl (.alpha hdigits (by simp [hrest]))
    · exact .inr ⟨a, b, rest, ds, rfl, hrest, hds, rfl, fun x y hxy => halpha ⟨x, y, hxy⟩⟩

lemma hexColor?_eq_some_iff : hexColor? s = some rgb ↔ IsColor s rgb ∨ IsLooseColor s rgb := by
  by_cases hhash : s.head? = some 35
  swap
  · -- What does not begin with the sign is neither read nor the text of a colour.
    have hnone : hexColor? s = none := by
      unfold hexColor?
      split
      · simp at hhash
      · rfl
    rw [hnone]
    simp only [reduceCtorEq, false_iff, not_or]
    exact ⟨fun h => by cases h <;> exact hhash rfl, fun ⟨_, _, _, _, hs, _⟩ => hhash (hs ▸ rfl)⟩
  obtain ⟨digits, rfl⟩ := List.head?_eq_some_iff.1 hhash
  by_cases hthree : digits.length = 3
  · obtain ⟨r, g, b, rfl⟩ := List.length_eq_three.1 hthree
    rw [hexColor?, hexValue?_eq_some_iff rfl, areDigits_doubled_iff, isColor_short_or_loose_iff]
  rw [hexColor?_of_length hthree]
  split_ifs with hsix height
  · rw [hexValue?_eq_some_iff hsix, isColor_long_or_loose_iff hsix]
  · obtain ⟨a, b, rest, rfl⟩ : ∃ a b rest, digits = a :: b :: rest := by
      match digits, height with
      | a :: b :: rest, _ => exact ⟨a, b, rest, rfl⟩
    have hrest : rest.length = 6 := by simpa using height
    rw [isColor_alpha_or_loose_iff hrest, List.drop_succ_cons, List.drop_succ_cons, List.drop_zero,
      hexValue?_eq_some_iff hrest]
  · simp only [false_iff, not_or]
    refine ⟨fun h => ?_, fun ⟨_, _, _, _, hs, hlength, _⟩ => ?_⟩
    · cases h with
      | short => exact hthree rfl
      | long _ hlength => exact hsix hlength
      | alpha _ hlength => exact height hlength
    · cases hs
      simp [hlength] at height

lemma hexColor?_lt (h : hexColor? s = some rgb) : rgb < 2 ^ 24 := by
  have hsix : ∀ {s : Bytes} {ds : List Nat}, s.length = 6 → AreDigits 16 s ds →
      value 16 ds < 2 ^ 24 := by
    intro s ds hlength hds
    have hlt := hds.value_lt (by norm_num)
    rwa [hlength] at hlt
  obtain hcolor | ⟨_, _, rest, ds, -, hlength, hds, rfl, -⟩ := hexColor?_eq_some_iff.1 h
  · cases hcolor with
    | @short r g b x y z hxyz =>
      obtain ⟨ds, hds, hnumber⟩ := areDigits_doubled_iff.2 ⟨x, y, z, hxyz, rfl⟩
      rw [hnumber]
      exact hsix rfl hds
    | long hds hlength => exact hsix hlength hds
    | alpha hds hlength => exact hsix (by simp [hlength]) (hds.drop 2)
  · exact hsix hlength hds

/-- **Colours.**  A text is read as a colour just if it is one by the grammar, or has any two octets
where the grammar has the two digits that are dropped.  A colour has 24 bits.  So reading follows
the grammar exactly except for the texts of the second kind. -/
theorem colors_follow_grammar_iff (s : Bytes) :
    (∀ rgb, hexColor? s = some rgb ↔ IsColor s rgb ∨ IsLooseColor s rgb) ∧
      (∀ rgb, hexColor? s = some rgb → rgb < 2 ^ 24) ∧
      ((∀ rgb, hexColor? s = some rgb ↔ IsColor s rgb) ↔ ∀ rgb, ¬ IsLooseColor s rgb) := by
  refine ⟨fun rgb => hexColor?_eq_some_iff, fun rgb => hexColor?_lt, ?_⟩
  constructor
  · rintro hgrammar rgb hloose
    have hcolor := (hgrammar rgb).1 (hexColor?_eq_some_iff.2 (.inr hloose))
    obtain ⟨a, b, rest, ds, rfl, hlength, -, -, hnot⟩ := hloose
    cases hcolor with
    | short => cases hlength
    | long _ hlong =>
      simp only [List.length_cons] at hlong
      omega
    | alpha h _ =>
      cases h with
      | cons ha h =>
        cases h with
        | cons hb _ => exact hnot _ _ (.cons ha (.cons hb .nil))
  · intro hstrict rgb
    rw [hexColor?_eq_some_iff, or_iff_left (hstrict rgb)]

/-- The two octets in front of six digits make no difference. -/
theorem loose_alpha_is_read :
    hexColor? "#zz112233" = some 0x112233 ∧ (∀ rgb, ¬ IsColor "#zz112233" rgb) ∧
      ofString "#zz112233" = .color 0x112233 := by
  have hread : hexColor? "#zz112233" = some 0x112233 := by decide
  refine ⟨hread, fun rgb h => ?_, by decide⟩
  have hz : Document.Json.hexValue? 122 = none := by decide
  have htext : Bytes.ofString "#zz112233" = [35, 122, 122, 49, 49, 50, 50, 51, 51] := by decide
  rw [htext] at h
  cases h with
  | long _ hlength => cases hlength
  | alpha h _ =>
    cases h with
    | cons hfirst _ => simp [hz] at hfirst

end Form

end UiCodegen
