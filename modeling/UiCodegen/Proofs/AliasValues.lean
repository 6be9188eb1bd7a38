import UiCodegen.Proofs.Formatting
import UiCodegen.Proofs.SizeHistory
import UiCodegen.Proofs.TypeAliases

/-!
# Values for other names of types

What a value is written as depends on the class, the scalar and the record of the type that it is
written for, and on nothing else but the name of the type in messages and in the code, unless the
value is a percentage.  So a type and another name of it accept the same values, as far as the same
is known about them (`aliases_agree`).  Where something is known by name there are exceptions
(`nicknamesApi_aliases_disagree`).
-/

namespace UiCodegen.Transpile

open Run

/-! ## Values -/

namespace Run

variable {α β γ δ : Type}

/-- Steps that succeed in the same states, and leave the same states whether or not they succeed. -/
def Alike (x : Run α) (y : Run β) : Prop :=
  ∀ st, (x.outcome st).map (fun r => (r.1.isOk, r.2)) = (y.outcome st).map fun r => (r.1.isOk, r.2)

lemma Alike.refl (x : Run α) : x.Alike x := fun _ => rfl

lemma alike_pure (a : α) (b : β) : (pure a : Run α).Alike (pure b : Run β) := fun _ => rfl

lemma alike_throw (fault fault' : Fault) : (throw fault : Run α).Alike (throw fault' : Run β) :=
  fun _ => rfl

lemma Alike.bind {x : Run α} {y : Run β} {k : α → Run γ} {l : β → Run δ} (hx : x.Alike y)
    (hk : ∀ a b, (k a).Alike (l b)) : (x >>= k).Alike (y >>= l) := by
  intro st
  have hst := hx st
  rw [outcome_bind, outcome_bind]
  match hxr : x.outcome st, hyr : y.outcome st, hst with
  | none, none, _ => rfl
  | some (.ok a, st₁), some (.ok b, st₂), hst =>
    obtain ⟨-, rfl⟩ := Prod.mk.inj (Option.some.inj hst)
    exact hk a b st₁
  | some (.error _, st₁), some (.error _, st₂), hst =>
    obtain ⟨-, rfl⟩ := Prod.mk.inj (Option.some.inj hst)
    rfl

end Run

/-- The value is a percentage, or a variable that stands for one. -/
inductive IsPercent : Scope → Value → Prop
  | text {s : Scope} {text : Bytes} {n : Int} (h : Form.ofString text = .percent n) :
      IsPercent s (.str text)
  | var {s outer : Scope} {text name : Bytes} {bound : Value}
      (h : Form.ofString text = .contextVar name)
      (hbound : s.lookup? name = some (bound, outer)) (hpercent : IsPercent outer bound) :
        IsPercent s (.str text)

/-- Types that are neither pointers nor arrays, and about which the same is known. -/
structure InfoAlike (t u : Api.TypeInfo) : Prop where
  cls : t.cls = u.cls
  prim : t.prim = u.prim
  record : t.record = u.record
  noArray : u.cls ≠ .coordArray
  noPointer : t.ctype.pointers = 0 ∧ u.ctype.pointers = 0

namespace InfoAlike

variable {t u : Api.TypeInfo} (h : InfoAlike t u) (p : Place) (a b : Bytes)

include h

lemma isPointer : t.ctype.isPointer = false ∧ u.ctype.isPointer = false := by
  simp [Api.CType.isPointer, h.noPointer]

lemma isStringLike : t.isStringLike = u.isStringLike := by
  simp [Api.TypeInfo.isStringLike, h.noPointer, h.cls]

lemma isUnsigned : t.isUnsigned = u.isUnsigned := by
  simp only [Api.TypeInfo.isUnsigned, h.prim]

lemma formatNull : (Transpile.formatNull p a t).Alike (Transpile.formatNull p b u) := by
  unfold Transpile.formatNull
  rw [h.isPointer.1, h.isPointer.2, h.cls]
  split
  · exact alike_pure _ _
  · exact alike_throw _ _

lemma formatBool (v : Bool) :
    (Transpile.formatBool p v a t).Alike (Transpile.formatBool p v b u) := by
  unfold Transpile.formatBool
  rw [h.cls]
  split
  · exact alike_pure _ _
  · exact alike_pure _ _
  · exact alike_pure _ _
  · exact alike_throw _ _

lemma formatNumber (literal : Bytes) :
    (Transpile.formatNumber p literal a t).Alike (Transpile.formatNumber p literal b u) := by
  -- Types of pointers take no number but zero.
  have hnull : (if literal == "0" then pure (.text "NULL") else fail (.needsNull a literal) p.at_ :
      Run Expr).Alike
      (if literal == "0" then pure (.text "NULL") else fail (.needsNull b literal) p.at_ :
        Run Expr) := by
    split_ifs
    · exact alike_pure _ _
    · exact alike_throw _ _
  unfold Transpile.formatNumber
  dsimp only
  rw [h.cls, h.isUnsigned, h.prim]
  split
  · split_ifs
    · exact alike_throw _ _
    · exact alike_throw _ _
    · exact alike_pure _ _
  · split_ifs
    · exact alike_pure _ _
    · exact alike_throw _ _
  · exact alike_pure _ _
  · exact .refl _
  · exact .refl _
  · exact hnull
  · exact hnull
  · exact hnull
  · exact hnull
  · exact alike_pure _ _
  · exact alike_throw _ _

lemma formatColor (rgb : Nat) :
    (Transpile.formatColor p rgb a t).Alike (Transpile.formatColor p rgb b u) := by
  unfold Transpile.formatColor
  rw [h.cls, h.isStringLike]
  split_ifs
  · exact alike_pure _ _
  · exact alike_pure _ _
  · exact alike_pure _ _
  · exact alike_throw _ _

lemma formatPercent (hpercent : isPercentType t.ctype = isPercentType u.ctype) (n : Int) :
    (Transpile.formatPercent p n a t).Alike (Transpile.formatPercent p n b u) := by
  unfold Transpile.formatPercent
  rw [hpercent, h.isStringLike]
  split_ifs
  · exact alike_pure _ _
  · exact alike_pure _ _
  · exact alike_throw _ _

lemma formatIdent (cfg : Settings) (text : Bytes) :
    (Transpile.formatIdent cfg p text a t).Alike (Transpile.formatIdent cfg p text b u) := by
  unfold Transpile.formatIdent
  rw [h.isStringLike]
  split
  · exact alike_pure _ _
  split
  · exact alike_pure _ _
  split
  · exact alike_pure _ _
  · exact alike_throw _ _

lemma formatRef (name : Bytes) :
    (Transpile.formatRef p name a t).Alike (Transpile.formatRef p name b u) := by
  unfold Transpile.formatRef
  rw [h.isPointer.1, h.isPointer.2]
  exact alike_throw _ _

lemma formatString (cfg : Settings) {s : Bytes}
    (hpercent : ∀ n, Form.ofString s = .percent n → isPercentType t.ctype = isPercentType u.ctype) :
    (Transpile.formatString cfg p s a t).Alike (Transpile.formatString cfg p s b u) := by
  unfold Transpile.formatString
  split
  · exact h.formatRef p a b _
  · rw [h.isStringLike]
    split
    · exact .refl _
    · exact alike_throw _ _
  · rw [h.isStringLike]
    split
    · exact .refl _
    · exact alike_throw _ _
  · exact h.formatColor p a b _
  · rename_i n hform
    exact h.formatPercent p a b (hpercent n hform) n
  · exact h.formatIdent p a b cfg _
  · exact alike_throw _ _

end InfoAlike

/-- The name of a record only shows in messages. -/
lemma alike_formatFields (cfg : Settings) (p : Place) (a b : Bytes) (record : Api.StructRecord)
    (fields : List (Bytes × Value)) :
    (formatFields cfg p a record fields).Alike (formatFields cfg p b record fields) := by
  induction fields with
  | nil =>
    rw [formatFields, formatFields]
    exact alike_pure _ _
  | cons field rest ih =>
    obtain ⟨key, v⟩ := field
    rw [formatFields, formatFields]
    split
    · exact alike_throw _ _
    · exact (Alike.refl _).bind fun _ _ => ih.bind fun _ _ => alike_pure _ _

/-- The induction is over the scope, which gets smaller when a variable is followed.  What an array
or an object consists of is formatted for the same types on both sides. -/
lemma alike_format {cfg : Settings} {a b : Bytes}
    (h : InfoAlike (cfg.index.describe a) (cfg.index.describe b)) (p : Place) (v : Value)
    (hpercent : IsPercent p.scope v →
      isPercentType (cfg.index.describe a).ctype = isPercentType (cfg.index.describe b).ctype) :
    (format cfg p v a).Alike (format cfg p v b) := by
  unfold format
  cases v with
  | null => exact h.formatNull p a b
  | bool v => exact h.formatBool p a b v
  | num literal => exact h.formatNumber p a b literal
  | str s =>
    dsimp only
    split
    · rename_i name hform
      split
      · rename_i bound outer hbound
        have : outer.length < p.scope.length := Scope.length_lookup?_lt hbound
        exact alike_format h { p with scope := outer } bound fun hp =>
          hpercent (.var hform hbound hp)
      · exact .refl _
    · exact h.formatString p a b cfg fun n hform => hpercent (.text hform)
  | arr items =>
    dsimp only
    rw [h.cls, h.record]
    split
    · rename_i hcls
      exact absurd hcls h.noArray
    on_goal 3 => exact alike_throw _ _
    -- A record, or a colour, which has one too.
    all_goals
      split
      · exact alike_throw _ _
      · split
        · exact alike_throw _ _
        · exact (Alike.refl _).bind fun _ _ => alike_pure _ _
  | obj fields =>
    dsimp only
    rw [h.cls, h.record]
    split
    · exact .refl _
    · exact .refl _
    · split
      · split
        · exact alike_throw _ _
        · exact (alike_formatFields cfg p a b _ fields).bind fun _ _ => alike_pure _ _
      · exact alike_throw _ _
termination_by p.scope.length

/-! ## The main statement -/

section

variable {ix : Api.Index} {a b : Bytes}

lemma ctype_describe (h : Api.CType.parse? a = some { base := a }) :
    (ix.describe a).ctype = { base := a } := by
  rw [Api.Index.describe_name h]
  unfold Api.Index.describeBase
  dsimp only
  split_ifs
  · rfl
  · rfl
  · split <;> rfl

lemma scalarClass_ne_coordArray (name : Bytes) : Api.scalarClass name ≠ .coordArray := by
  unfold Api.scalarClass
  split_ifs <;> exact nofun

lemma cls_describe_ne_coordArray (h : Api.CType.parse? a = some { base := a }) :
    (ix.describe a).cls ≠ .coordArray := by
  have hview : (ix.describe a).cls = ((ix.describeBase { base := a }).view).1 := by
    rw [Api.Index.describe_name h]
    rfl
  rw [hview, Api.Index.view_describeBase]
  split_ifs
  · exact nofun
  · exact nofun
  · unfold Api.Index.endView
    split
    · exact scalarClass_ne_coordArray _
    · exact scalarClass_ne_coordArray _
    all_goals exact nofun

lemma infoAlike_of_isAlias (h : ix.IsAlias a b) (hclassed : ix.ClassedAlike a b) :
    InfoAlike (ix.describe a) (ix.describe b) := by
  obtain ⟨hcls, hrest⟩ := Prod.mk.inj (h.view_eq hclassed)
  obtain ⟨hprim, hrecord⟩ := Prod.mk.inj hrest
  refine ⟨hcls, hprim, hrecord, cls_describe_ne_coordArray h.target, ?_⟩
  rw [ctype_describe h.name, ctype_describe h.target]
  exact ⟨rfl, rfl⟩

end

/-- **Typedefs are transparent, but for what is known by name.**  Another name of a type has the
class, the scalar and the record of the type, if neither of the two is the colour type or, alone, a
name that members of enums are typed by. Then values are accepted for one as for the other, up to
percentages, which are taken by name.  It has the size of the type, if the sizes that are listed for
the names agree with it.  The colour type has its class whatever it stands for, and the record of
that. -/
theorem aliases_agree (d : Api.Description) {a b : Bytes}
    (h : (Api.Index.ofDescription d).IsAlias a b) :
    let ix := Api.Index.ofDescription d
    (ix.ClassedAlike a b →
      (ix.describe a).view = (ix.describe b).view ∧
      ∀ (cfg : Settings) (p : Place) (v : Value), cfg.index = ix →
        (IsPercent p.scope v → isPercentType { base := a } = isPercentType { base := b }) →
        (format cfg p v a).Alike (format cfg p v b)) ∧
    (ix.SizedAlike a b → ∀ queries,
      ((ix.sizeOf a).run (ix.sizesAfter queries)).1 =
        ((ix.sizeOf b).run (ix.sizesAfter queries)).1) ∧
    (a = Api.colorType → (ix.describe a).view = (.color, [], ix.struct? b)) := by
  intro ix
  refine ⟨fun hclassed => ⟨h.view_eq hclassed, fun cfg p v hcfg hpercent => ?_⟩,
    fun hsized queries => ?_, h.view_color⟩
  · have hinfo : InfoAlike (cfg.index.describe a) (cfg.index.describe b) := by
      rw [hcfg]
      exact infoAlike_of_isAlias h hclassed
    refine alike_format hinfo p v ?_
    rwa [ctype_describe h.name, ctype_describe h.target]
  · have hs := ix.honest_sizesAfter queries
    exact h.size_eq hsized (Api.Index.sizeOf_honest a hs).1 (Api.Index.sizeOf_honest b hs).1

/-! ### An API with other names -/

def namedType (name : Bytes) (kind : Api.Kind) : Option Api.TypeNode :=
  some (.mk kind name [] none [] none)

lemma isAlias_of_namedType {ix : Api.Index} {a b : Bytes} {kind : Api.Kind} {n : Nat}
    {r : Api.Resolved}
    (hnames : Api.CType.parse? a = some { base := a } ∧ Api.CType.parse? b = some { base := b })
    (halone : Api.CType.isPrimitiveName a = false ∧ a ∉ ix.enumNames)
      (hrecord : ix.record? a = none)
    (htype : (ix.typedef? a).bind (·.type) = namedType b kind)
      (hkind : kind = .library ∨ kind = .typedef)
    (hne : b ≠ a) (hend : ix.end? n a = some r) (hn : n ≤ Api.chainLimit + 1) : ix.IsAlias a b := by
  obtain ⟨t, ht, hnode⟩ := Option.bind_eq_some_iff.1 htype
  exact ⟨hnames.1, hnames.2, halone.1, hrecord, halone.2, ⟨t, _, ht, hnode, hkind, rfl, hne⟩,
    Api.Index.chainFits_of_end? hend hn⟩

def scalarField (name type : Bytes) : Api.FieldRecord where
  name
  type := namedType type .stdlib

/-- An API in which the colour type stands for a record and has another name, in which the members
of an enum are typed by another name of a number, in which a listed name of a number stands for one
that is not listed, and in which one of C's own names is given to a number. -/
def nicknamesApi : Api.Description where
  structs := [
    { name := "lv_color32_t",
      fields := [scalarField "blue" "uint8_t", scalarField "alpha" "uint8_t"] },
    { name := "lv_point_t", fields := [scalarField "x" "int32_t", scalarField "y" "int32_t"] }]
  enums :=
    [{ type := namedType "lv_part_t" .library,
       members := [{ name := "LV_PART_MAIN", value := "0" }] }]
  typedefs := [
    { name := "spot_t", type := namedType "lv_point_t" .library },
    { name := "lv_color_t", type := namedType "lv_color32_t" .library },
    { name := "tint_t", type := namedType "lv_color_t" .library },
    { name := "lv_part_t", type := namedType "uint8_t" .stdlib },
    { name := "piece_t", type := namedType "lv_part_t" .library },
    { name := "int64_t", type := namedType "__int64_t" .typedef },
    { name := "__int64_t", type := namedType "long int" .primitive },
    { name := "lv_bool_t", type := namedType "uint8_t" .stdlib },
    { name := "bool", type := namedType "lv_bool_t" .library }]

/-- A point under another name is a point. -/
theorem nicknamesApi_aliases_agree :
    let ix := Api.Index.ofDescription nicknamesApi
    ix.IsAlias "spot_t" "lv_point_t" ∧ ix.ClassedAlike "spot_t" "lv_point_t" ∧
      ix.SizedAlike "spot_t" "lv_point_t" ∧
      (ix.describe "spot_t").view = (ix.describe "lv_point_t").view ∧
      ((ix.sizeOf "spot_t").run []).1 = ((ix.sizeOf "lv_point_t").run []).1 ∧
      ∀ p, (format { index := ix, enums := .build [] } p (.arr [.num "1", .num "2"]) "spot_t").Alike
        (format { index := ix, enums := .build [] } p (.arr [.num "1", .num "2"])
          "lv_point_t") := by
  intro ix
  have halias : ix.IsAlias "spot_t" "lv_point_t" :=
    isAlias_of_namedType (by decide +kernel) (by decide +kernel) rfl rfl (.inl rfl) (by decide)
      (n := 2) rfl (by decide)
  have hclassed : ix.ClassedAlike "spot_t" "lv_point_t" :=
    ⟨by decide, by decide, .inl (by decide +kernel)⟩
  have hsized : ix.SizedAlike "spot_t" "lv_point_t" := .inl (by decide +kernel)
  obtain ⟨hagree, hsize, -⟩ := aliases_agree nicknamesApi halias
  obtain ⟨hview, hformat⟩ := hagree hclassed
  exact ⟨halias, hclassed, hsized, hview, hsize hsized [], fun p => hformat _ p _ rfl nofun⟩

/-- What is known by name does not carry over: the class of the colour type, to or from another
name; the class and size of a name that members of enums are typed by; a listed size; what one of
C's own names means. -/
theorem nicknamesApi_aliases_disagree :
    let ix := Api.Index.ofDescription nicknamesApi
    (ix.IsAlias "lv_color_t" "lv_color32_t" ∧
      (ix.describe "lv_color_t").cls = .color ∧ (ix.describe "lv_color32_t").cls = .struct) ∧
    (ix.IsAlias "tint_t" "lv_color_t" ∧
      (ix.describe "tint_t").cls = .struct ∧ (ix.describe "lv_color_t").cls = .color) ∧
    (ix.IsAlias "piece_t" "lv_part_t" ∧
      (ix.describe "piece_t").cls = .int ∧ (ix.describe "lv_part_t").cls = .enum ∧
      ((ix.sizeOf "piece_t").run []).1 = 1 ∧ ((ix.sizeOf "lv_part_t").run []).1 = 4) ∧
    (ix.IsAlias "int64_t" "__int64_t" ∧
      ((ix.sizeOf "int64_t").run []).1 = 8 ∧ ((ix.sizeOf "__int64_t").run []).1 = -1) ∧
    ((ix.typedef? "bool").bind (·.type) = namedType "lv_bool_t" .library ∧
      ix.record? "bool" = none ∧ ("bool" : Bytes) ∉ ix.enumNames ∧ ix.ChainFits "bool" ∧
      (ix.describe "bool").cls = .bool ∧ (ix.describe "lv_bool_t").cls = .int) := by
  refine ⟨⟨?_, by decide +kernel⟩, ⟨?_, by decide +kernel⟩, ⟨?_, by decide +kernel⟩,
    ⟨?_, by decide +kernel⟩,
    rfl, rfl, by decide +kernel, Api.Index.chainFits_of_end? (n := 1) rfl
      (by decide), by decide +kernel⟩
  · exact isAlias_of_namedType (by decide +kernel) (by decide +kernel) rfl rfl (.inl rfl)
      (by decide) (n := 2) rfl (by decide)
  · exact isAlias_of_namedType (by decide +kernel) (by decide +kernel) rfl rfl (.inl rfl)
      (by decide) (n := 3) rfl (by decide)
  · exact isAlias_of_namedType (by decide +kernel) (by decide +kernel) rfl rfl (.inl rfl)
      (by decide) (n := 2) rfl (by decide)
  · exact isAlias_of_namedType (by decide +kernel) (by decide +kernel) rfl rfl (.inr rfl)
      (by decide) (n := 2) rfl (by decide)

end UiCodegen.Transpile
