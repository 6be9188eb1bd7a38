import Mathlib.Data.Set.Basic
import UiCodegen.Document.Value

/-!
# Equality of drafts

Comparing two drafts walks through both of them.  Where it gives an answer, the answer is whether
they stand for the same document, an absent object standing for one without pairs
(`eq_true_iff_of_equal?`).  It gives none exactly if the walk meets an absent object on the first
side and an object without pairs on the second (`equal?_eq_none_iff`); on the second side an absent
object does no harm.

A draft compared with itself is walked through to its end, so that every absent object in it is met.
On a set of drafts the comparison is therefore an equivalence exactly if all of them are whole.
-/

namespace UiCodegen.Draft

/-! ## What a draft stands for -/

mutual

def fill : Draft → Value
  | .null => .null
  | .bool b => .bool b
  | .num literal => .num literal
  | .str text => .str text
  | .arr items => .arr (fillItems items)
  | .obj pairs => .obj (fillFields pairs)
  | .absent => .obj []

def fillItems : List Draft → List Value
  | [] => []
  | v :: vs => fill v :: fillItems vs

def fillFields : List (Bytes × Draft) → Fields
  | [] => []
  | (k, v) :: rest => (k, fill v) :: fillFields rest

end

mutual

def whole : Draft → Bool
  | .arr items => wholeItems items
  | .obj pairs => wholeFields pairs
  | .absent => false
  | _ => true

def wholeItems : List Draft → Bool
  | [] => true
  | v :: vs => whole v && wholeItems vs

def wholeFields : List (Bytes × Draft) → Bool
  | [] => true
  | (_, v) :: rest => whole v && wholeFields rest

end

mutual

theorem whole_and_fill_ofValue : ∀ v : Value, (ofValue v).whole = true ∧ (ofValue v).fill = v
  | .null | .bool _ | .num _ | .str _ => ⟨rfl, rfl⟩
  | .arr items => by
    have hitems := whole_and_fill_ofItems items
    exact ⟨hitems.1, congrArg Value.arr hitems.2⟩
  | .obj pairs => by
    have hpairs := whole_and_fill_ofFields pairs
    exact ⟨hpairs.1, congrArg Value.obj hpairs.2⟩

theorem whole_and_fill_ofItems :
    ∀ vs : List Value, wholeItems (ofItems vs) = true ∧ fillItems (ofItems vs) = vs
  | [] => ⟨rfl, rfl⟩
  | v :: vs => by
    have hfirst := whole_and_fill_ofValue v
    have hrest := whole_and_fill_ofItems vs
    simp [ofItems, wholeItems, fillItems, hfirst, hrest]

theorem whole_and_fill_ofFields : ∀ fields : Fields,
    wholeFields (ofFields fields) = true ∧ fillFields (ofFields fields) = fields
  | [] => ⟨rfl, rfl⟩
  | (_, v) :: rest => by
    have hfirst := whole_and_fill_ofValue v
    have hrest := whole_and_fill_ofFields rest
    simp [ofFields, wholeFields, fillFields, hfirst, hrest]

end

mutual

theorem clone_eq : ∀ v : Draft, v.clone = v
  | .null | .bool _ | .num _ | .str _ | .absent => rfl
  | .arr items => congrArg Draft.arr (cloneItems_eq items)
  | .obj pairs => congrArg Draft.obj (cloneFields_eq pairs)

theorem cloneItems_eq : ∀ vs : List Draft, cloneItems vs = vs
  | [] => rfl
  | v :: vs => by rw [cloneItems, clone_eq v, cloneItems_eq vs]

theorem cloneFields_eq : ∀ pairs : List (Bytes × Draft), cloneFields pairs = pairs
  | [] => rfl
  | (_, v) :: rest => by rw [cloneFields, clone_eq v, cloneFields_eq rest]

end

/-! ## Answers -/

mutual

/-- The walk through two drafts meets an absent object on the first side and one without pairs on
the second. -/
inductive Meets : Draft → Draft → Prop where
  | absent {b : Draft} (hb : b.pairs? = some []) : Meets .absent b
  | arr {as bs : List Draft} (hlength : as.length = bs.length) (h : MeetsItems as bs) :
      Meets (.arr as) (.arr bs)
  | obj {as bs : List (Bytes × Draft)} {b : Draft} (hb : b.pairs? = some bs)
      (hlength : as.length = bs.length) (h : MeetsFields as bs) : Meets (.obj as) b

/-- It does so in two items, and those in front of them are the same. -/
inductive MeetsItems : List Draft → List Draft → Prop where
  | here {a b : Draft} {as bs : List Draft} (h : Meets a b) : MeetsItems (a :: as) (b :: bs)
  | later {a b : Draft} {as bs : List Draft} (hsame : a.fill = b.fill) (h : MeetsItems as bs) :
      MeetsItems (a :: as) (b :: bs)

inductive MeetsFields : List (Bytes × Draft) → List (Bytes × Draft) → Prop where
  | here {k : Bytes} {a b : Draft} {as bs : List (Bytes × Draft)} (h : Meets a b) :
      MeetsFields ((k, a) :: as) ((k, b) :: bs)
  | later {k : Bytes} {a b : Draft} {as bs : List (Bytes × Draft)} (hsame : a.fill = b.fill)
      (h : MeetsFields as bs) : MeetsFields ((k, a) :: as) ((k, b) :: bs)

end

/-- What a comparison answers: nothing if the walk is stuck, and otherwise whether both sides are
the same. -/
inductive Answers (stuck same : Prop) : Option Bool → Prop where
  | nothing (h : stuck) : Answers stuck same none
  | sameness {r : Bool} (h : ¬ stuck) (hr : r = true ↔ same) : Answers stuck same (some r)

section

variable {stuck same stuck' same' : Prop} {answer answer' : Option Bool}

lemma Answers.no (h : ¬ stuck) (hne : ¬ same) : Answers stuck same (some false) :=
  .sameness h (by simpa using hne)

/-- The rest is compared only behind two parts that are the same. -/
lemma Answers.followed (h : Answers stuck same answer) (h' : Answers stuck' same' answer') :
    Answers (stuck ∨ same ∧ stuck') (same ∧ same')
    (answer.bind fun r => if r then answer' else some false) := by
  cases h with
  | nothing hstuck => exact .nothing (.inl hstuck)
  | @sameness r hstuck hr =>
    cases r with
    | false =>
      have hne : ¬ same := by simpa using hr
      exact .no (by simp [hstuck, hne]) (by simp [hne])
    | true =>
      have hsame : same := hr.1 rfl
      simpa [hstuck, hsame] using h'

lemma Answers.congr (h : Answers stuck same answer) (hstuck : stuck ↔ stuck')
    (hsame : same ↔ same') : Answers stuck' same' answer := by
  rwa [hstuck, hsame] at h

lemma Answers.eq_none_iff (h : Answers stuck same answer) : answer = none ↔ stuck := by
  cases h with
  | nothing h => simp [h]
  | sameness h => simp [h]

lemma Answers.eq_true_iff {r : Bool} (h : Answers stuck same answer) (hr : answer = some r) :
    r = true ↔ same := by
  cases h with
  | nothing => cases hr
  | sameness _ hsame =>
    cases hr
    exact hsame

end

lemma fill_of_pairs? {v : Draft} {pairs : List (Bytes × Draft)} (h : v.pairs? = some pairs) :
    v.fill = .obj (fillFields pairs) := by
  cases v <;> cases h <;> rfl

lemma fill_ne_obj {v : Draft} (h : v.pairs? = none) (fields : Fields) : v.fill ≠ .obj fields := by
  cases v <;> simp [pairs?, fill] at h ⊢

lemma length_fillItems (vs : List Draft) : (fillItems vs).length = vs.length := by
  induction vs with
  | nil => rfl
  | cons v vs ih => simp [fillItems, ih]

lemma length_fillFields (pairs : List (Bytes × Draft)) :
    (fillFields pairs).length = pairs.length := by
  induction pairs with
  | nil => rfl
  | cons p rest ih => simp [fillFields, ih]

variable {a b : Draft}

lemma meetsItems_cons {as bs : List Draft} :
    MeetsItems (a :: as) (b :: bs) ↔ Meets a b ∨ a.fill = b.fill ∧ MeetsItems as bs := by
  constructor
  · rintro (h | ⟨hsame, h⟩)
    · exact .inl h
    · exact .inr ⟨hsame, h⟩
  · rintro (h | ⟨hsame, h⟩)
    · exact .here h
    · exact .later hsame h

lemma meetsFields_cons {k : Bytes} {as bs : List (Bytes × Draft)} :
    MeetsFields ((k, a) :: as) ((k, b) :: bs) ↔ Meets a b ∨ a.fill = b.fill ∧
    MeetsFields as bs := by
  constructor
  · rintro (h | ⟨hsame, h⟩)
    · exact .inl h
    · exact .inr ⟨hsame, h⟩
  · rintro (h | ⟨hsame, h⟩)
    · exact .here h
    · exact .later hsame h

/-- A scalar is compared without a walk. -/
lemma not_meets_of_scalar (hitems : ∀ items, a ≠ .arr items) (hpairs : a.pairs? = none) :
    ¬ Meets a b := by
  rintro (_ | _ | _)
  · cases hpairs
  · exact hitems _ rfl
  · cases hpairs

mutual

theorem equal?_answers : ∀ a b : Draft, Answers (Meets a b) (a.fill = b.fill) (a.equal? b)
  | .null, b | .bool _, b | .num _, b | .str _, b => by
    cases b <;> simp only [equal?] <;> exact .sameness (not_meets_of_scalar (by simp) rfl)
      (by simp [fill])
  | .arr as, .arr bs => by
    by_cases hlength : as.length = bs.length
    · have hitems := equalItems?_answers as bs hlength
      rw [equal?, if_pos (by simpa using hlength)]
      refine hitems.congr ⟨.arr hlength, ?_⟩ (by simp [fill])
      rintro (_ | ⟨-, h⟩)
      exact h
    · rw [equal?, if_neg (by simpa using hlength)]
      refine .no ?_ fun hsame => hlength ?_
      · rintro (_ | ⟨h, -⟩)
        exact hlength h
      · rw [← length_fillItems, ← length_fillItems,
          (Value.arr.inj hsame : fillItems as = fillItems bs)]
  | .arr _, .null | .arr _, .bool _ | .arr _, .num _ | .arr _, .str _ | .arr _,
      .obj _ | .arr _, .absent => by
    simp only [equal?]
    refine .no ?_ (by simp [fill])
    rintro ⟨⟩
  | .obj as, b => by
    cases hb : b.pairs? with
    | none =>
      simp only [equal?, hb]
      refine .no ?_ fun hsame => fill_ne_obj hb _ hsame.symm
      rintro (_ | _ | ⟨hb', -⟩)
      cases hb.symm.trans hb'
    | some bs =>
      have hmeets : Meets (.obj as) b ↔ as.length = bs.length ∧ MeetsFields as bs := by
        refine ⟨?_, fun h => .obj hb h.1 h.2⟩
        rintro (_ | _ | ⟨hb', hlength, h⟩)
        cases hb.symm.trans hb'
        exact ⟨hlength, h⟩
      rw [hmeets, fill_of_pairs? hb]
      simp only [equal?, hb]
      by_cases hlength : as.length = bs.length
      · have hfields := equalFields?_answers as bs hlength
        rw [if_pos (by simpa using hlength)]
        exact hfields.congr (by simp [hlength]) (by simp [fill])
      · rw [if_neg (by simpa using hlength)]
        refine .no (by simp [hlength]) fun hsame => hlength ?_
        rw [← length_fillFields, ← length_fillFields,
          (Value.obj.inj hsame : fillFields as = fillFields bs)]
  | .absent, b => by
    have hmeets : Meets .absent b ↔ b.pairs? = some [] := ⟨fun h => by cases h; assumption, .absent⟩
    rw [hmeets]
    cases hb : b.pairs? with
    | none =>
      simp only [equal?, hb]
      exact .no (by simp) fun hsame => fill_ne_obj hb _ hsame.symm
    | some bs =>
      rw [fill_of_pairs? hb]
      simp only [equal?, hb]
      cases bs with
      | nil => exact .nothing rfl
      | cons p rest => exact .no (by simp) (by simp [fill, fillFields])

theorem equalItems?_answers : ∀ as bs : List Draft, as.length = bs.length →
    Answers (MeetsItems as bs) (fillItems as = fillItems bs) (equalItems? as bs)
  | [], [], _ => .sameness (by rintro ⟨⟩) (by simp)
  | a :: as, b :: bs, h => by
    have hfirst := equal?_answers a b
    have hrest := equalItems?_answers as bs (by simpa using h)
    exact (hfirst.followed hrest).congr meetsItems_cons.symm (by simp [fillItems])

theorem equalFields?_answers : ∀ as bs : List (Bytes × Draft), as.length = bs.length →
    Answers (MeetsFields as bs) (fillFields as = fillFields bs) (equalFields? as bs)
  | [], [], _ => .sameness (by rintro ⟨⟩) (by simp)
  | (k, a) :: as, (l, b) :: bs, h => by
    by_cases hkey : k = l
    · subst hkey
      have hfirst := equal?_answers a b
      have hrest := equalFields?_answers as bs (by simpa using h)
      rw [equalFields?, if_pos (by simp)]
      exact (hfirst.followed hrest).congr meetsFields_cons.symm (by simp [fillFields])
    · rw [equalFields?, if_neg (by simpa using hkey)]
      refine .no ?_ (by simp [fillFields, hkey])
      rintro (_ | _) <;> exact hkey rfl

end

lemma equal?_eq_none_iff : a.equal? b = none ↔ Meets a b := (equal?_answers a b).eq_none_iff

lemma eq_true_iff_of_equal? {r : Bool} (h : a.equal? b = some r) : r = true ↔ a.fill = b.fill :=
  (equal?_answers a b).eq_true_iff h

/-! ## Whole drafts -/

mutual

/-- A whole draft has no absent object to meet, whatever it is compared with. -/
theorem not_meets_of_whole : ∀ {a b : Draft}, a.whole = true → ¬ Meets a b
  | .null, _, _, h | .bool _, _, _, h | .num _, _, _, h | .str _, _, _, h => by cases h
  | .arr _, _, hwhole, .arr _ h => not_meetsItems_of_whole hwhole h
  | .obj _, _, hwhole, .obj _ _ h => not_meetsFields_of_whole hwhole h

theorem not_meetsItems_of_whole : ∀ {as bs : List Draft}, wholeItems as = true → ¬ MeetsItems as bs
  | _ :: _, _ :: _, hwhole, h => by
    rw [wholeItems, Bool.and_eq_true] at hwhole
    obtain hhere | ⟨-, hlater⟩ := meetsItems_cons.1 h
    · exact not_meets_of_whole hwhole.1 hhere
    · exact not_meetsItems_of_whole hwhole.2 hlater

theorem not_meetsFields_of_whole :
    ∀ {as bs : List (Bytes × Draft)}, wholeFields as = true → ¬ MeetsFields as bs
  | (_, _) :: _, _, hwhole, h => by
    rw [wholeFields, Bool.and_eq_true] at hwhole
    cases h with
    | here hhere => exact not_meets_of_whole hwhole.1 hhere
    | later _ hlater => exact not_meetsFields_of_whole hwhole.2 hlater

end

mutual

/-- Compared with itself, a draft is walked through up to its first absent object. -/
theorem meets_self : ∀ {a : Draft}, a.whole = false → Meets a a
  | .arr _, h => .arr rfl (meetsItems_self h)
  | .obj _, h => .obj rfl rfl (meetsFields_self h)
  | .absent, _ => .absent rfl

theorem meetsItems_self : ∀ {as : List Draft}, wholeItems as = false → MeetsItems as as
  | a :: as, h => by
    rw [wholeItems, Bool.and_eq_false_iff] at h
    obtain hfirst | hrest := h
    · exact .here (meets_self hfirst)
    · exact .later rfl (meetsItems_self hrest)

theorem meetsFields_self : ∀ {as : List (Bytes × Draft)}, wholeFields as = false → MeetsFields as as
  | (_, a) :: as, h => by
    rw [wholeFields, Bool.and_eq_false_iff] at h
    obtain hfirst | hrest := h
    · exact .here (meets_self hfirst)
    · exact .later rfl (meetsFields_self hrest)

end

/-- Comparing drafts of a set always has an answer, and "equal" is an equivalence on it to which
copies belong. -/
structure EquivalenceOn (drafts : Set Draft) : Prop where
  answers : ∀ a ∈ drafts, ∀ b ∈ drafts, a.equal? b ≠ none
  refl : ∀ a ∈ drafts, a.equal? a = some true
  symm : ∀ a ∈ drafts, ∀ b ∈ drafts, a.equal? b = some true → b.equal? a = some true
  trans : ∀ a ∈ drafts, ∀ b ∈ drafts, ∀ c ∈ drafts,
    a.equal? b = some true → b.equal? c = some true → a.equal? c = some true
  clone : ∀ a ∈ drafts, a.equal? a.clone = some true

lemma equal?_of_whole (h : a.whole = true) (b : Draft) :
    ∃ r, a.equal? b = some r ∧ (r = true ↔ a.fill = b.fill) := by
  have hanswered : a.equal? b ≠ none :=
    fun hnone => not_meets_of_whole h (equal?_eq_none_iff.1 hnone)
  obtain ⟨r, hr⟩ := Option.ne_none_iff_exists'.1 hanswered
  exact ⟨r, hr, eq_true_iff_of_equal? hr⟩

lemma equivalenceOn_of_whole {drafts : Set Draft} (h : ∀ v ∈ drafts, v.whole = true) :
    EquivalenceOn drafts := by
  have hequal : ∀ a ∈ drafts, ∀ b, a.equal? b = some true ↔ a.fill = b.fill := by
    intro a ha b
    obtain ⟨r, hr, hsame⟩ := equal?_of_whole (h a ha) b
    simp [hr, hsame]
  constructor
  · intro a ha b _ hnone
    obtain ⟨r, hr, -⟩ := equal?_of_whole (h a ha) b
    cases hnone.symm.trans hr
  · intro a ha
    exact (hequal a ha a).2 rfl
  · intro a ha b hb hab
    exact (hequal b hb a).2 ((hequal a ha b).1 hab).symm
  · intro a ha b hb c _ hab hbc
    exact (hequal a ha c).2 (((hequal a ha b).1 hab).trans ((hequal b hb c).1 hbc))
  · intro a ha
    exact (hequal a ha _).2 (by rw [clone_eq])

lemma equal?_ofValue (v w : Value) : (ofValue v).equal? (ofValue w) = some (decide (v = w)) := by
  obtain ⟨hwhole, hfill⟩ := whole_and_fill_ofValue v
  obtain ⟨r, hr, hsame⟩ := equal?_of_whole hwhole (ofValue w)
  rw [hfill, (whole_and_fill_ofValue w).2] at hsame
  rw [hr, Option.some.injEq, Bool.eq_iff_iff, hsame, decide_eq_true_iff]

/-- Comparing two drafts has no answer exactly if the walk through them meets an absent object
against one without pairs, and every answer says whether they stand for the same document; documents
are compared by what they are.  On a set of drafts equality is an equivalence, always answered and
true of copies, exactly if no object in them is absent. -/
theorem equal?_equivalence_iff_whole (drafts : Set Draft) :
    (EquivalenceOn drafts ↔ ∀ v ∈ drafts, v.whole = true) ∧
      (∀ a b : Draft, a.equal? b = none ↔ Meets a b) ∧
      (∀ (a b : Draft) (r : Bool), a.equal? b = some r → (r = true ↔ a.fill = b.fill)) ∧
      ∀ v w : Value, (ofValue v).equal? (ofValue w) = some (decide (v = w)) := by
  refine ⟨⟨fun h v hv => ?_, equivalenceOn_of_whole⟩, fun a b => equal?_eq_none_iff, fun a b r =>
    eq_true_iff_of_equal?,
    equal?_ofValue⟩
  by_contra hpart
  have hstuck : v.equal? v = none := equal?_eq_none_iff.2 (meets_self (by simpa using hpart))
  exact h.answers v hv v hv hstuck

/-- An absent object has no answer against itself, its copy and an object without pairs, although
that one equals it; the same holds inside an array. -/
theorem absent_has_no_answer :
    absent.equal? absent = none ∧ absent.equal? absent.clone = none ∧ Object.equal? none
    (some []) = none ∧
      Object.equal? (some []) none = some true ∧ Draft.equal? (.arr [absent])
      (.arr [absent]) = none := by
  decide

end UiCodegen.Draft
