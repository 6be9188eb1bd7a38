import UiCodegen.Proofs.Sizes

/-!
# Other names of types

A typedef gives a type another name.  Following typedefs from either name comes to the same end
(`sameEnd_of_isAlias`), unless the limit on the number of links gets in between.  What is known
about a type is found at that end, except for what is known by name: the colour type has a class of
its own, the names that the members of enums are typed by are enums, and scalars have their sizes
listed.  Two names that are treated alike in this respect have the same class, scalar and record
(`IsAlias.view_eq`) and the same size (`IsAlias.size_eq`).
-/

namespace UiCodegen.Api

namespace Index

/-! ## The end of a chain of typedefs -/

/-- What a chain of at most so many names ends in. -/
def end? (ix : Index) : (names : Nat) → Bytes → Option Resolved
  | 0, _ => none
  | names + 1, name =>
    match ix.link name with
    | .error found => some found
    | .ok next => end? ix names next

variable {ix : Index} {name : Bytes} {r : Resolved}

lemma end?_of_error {found : Resolved} (h : ix.link name = .error found) (n : Nat) :
    ix.end? (n + 1) name = some found := by
  rw [end?, h]

lemma end?_of_ok {next : Bytes} (h : ix.link name = .ok next) (n : Nat) :
    ix.end? (n + 1) name = ix.end? n next := by
  rw [end?, h]

lemma end?_succ {n : Nat} (h : ix.end? n name = some r) : ix.end? (n + 1) name = some r := by
  induction n generalizing name with
  | zero => cases h
  | succ n ih =>
    cases hlink : ix.link name with
    | error found =>
      rw [end?_of_error hlink] at h ⊢
      exact h
    | ok next =>
      rw [end?_of_ok hlink] at h ⊢
      exact ih h

/-- The names on the way to an end are as many steps away from it as are left, so none of them is
met twice. -/
lemma underlyingWithin_of_end? {n links : Nat} {seen : List Bytes}
    (hend : ix.end? (n + 1) name = some r)
    (hfirst : ix.end? n name = none) (hseen : ∀ m ∈ seen, ix.end? (n + 1) m = none)
    (hlinks : n < links) :
    ix.underlyingWithin seen links name = r := by
  induction links generalizing n name seen with
  | zero => exact absurd hlinks (Nat.not_lt_zero n)
  | succ links ih =>
    have hnew : ¬seen.contains name := by
      intro hmem
      have hnone := hseen name (List.contains_iff_mem.1 hmem)
      rw [hend] at hnone
      cases hnone
    rw [underlyingWithin, if_neg hnew]
    cases hlink : ix.link name with
    | error found =>
      rw [end?_of_error hlink] at hend
      exact Option.some.inj hend
    | ok next =>
      rw [end?_of_ok hlink] at hend
      cases n with
      | zero => cases hend
      | succ n =>
        have hseen' : ∀ m ∈ seen, ix.end? (n + 1) m = none :=
          fun m hm => Option.eq_none_iff_forall_ne_some.2 fun found hfound =>
            Option.some_ne_none found ((end?_succ hfound).symm.trans (hseen m hm))
        have hnext : ix.end? n next = none := by rwa [end?_of_ok hlink] at hfirst
        exact ih hend hnext (List.forall_mem_cons.2 ⟨hfirst, hseen'⟩)
          (Nat.lt_of_succ_lt_succ hlinks)

lemma kind_underlyingWithin_of_endless (h : ∀ n, ix.end? n name = none) (seen : List Bytes)
    (links : Nat) : (ix.underlyingWithin seen links name).kind = .unknown := by
  induction links generalizing name seen with
  | zero => rfl
  | succ links ih =>
    rw [underlyingWithin]
    split_ifs
    · rfl
    · cases hlink : ix.link name with
      | error found =>
        have hnone := h 1
        rw [end?_of_error hlink] at hnone
        cases hnone
      | ok next => exact ih (fun n => by rw [← end?_of_ok hlink, h]) _

lemma underlying_of_end? {n : Nat} (h : ix.end? n name = some r) (hn : n ≤ chainLimit + 1) :
    ix.underlying name = r := by
  induction n with
  | zero => cases h
  | succ n ih =>
    cases hfirst : ix.end? n name with
    | none => exact underlyingWithin_of_end? h hfirst (fun _ hm => absurd hm List.not_mem_nil) hn
    | some found =>
      rw [end?_succ hfirst] at h
      exact ih (hfirst.trans h) (Nat.le_of_succ_le hn)

/-- The chain of a name ends within the limit, or goes round in a circle. -/
def ChainFits (ix : Index) (name : Bytes) : Prop :=
  ∀ n r, ix.end? n name = some r → ix.end? (chainLimit + 1) name = some r

lemma chainFits_of_end? {n : Nat} (h : ix.end? n name = some r) (hn : n ≤ chainLimit + 1) :
    ix.ChainFits name := by
  have hlater : ∀ {k m r}, ix.end? k name = some r → k ≤ m → ix.end? m name = some r := by
    intro k m r hk hkm
    induction hkm with
    | refl => exact hk
    | step _ ih => exact end?_succ ih
  intro m r' hm
  have hboth := (hlater h (le_max_left n m)).symm.trans (hlater hm (le_max_right n m))
  rw [← hboth]
  exact hlater h hn

/-- A typedef makes `a` another name of `b`: as one name of the library for another.  The names are
read as they are written, and `a` is nothing besides. -/
structure IsAlias (ix : Index) (a b : Bytes) : Prop where
  name : CType.parse? a = some { base := a }
  target : CType.parse? b = some { base := b }
  scalar : CType.isPrimitiveName a = false
  record : ix.record? a = none
  enum : a ∉ ix.enumNames
  typedef : ∃ t node, ix.typedef? a = some t ∧ t.type = some node ∧
    (node.kind = .library ∨ node.kind = .typedef) ∧ node.name = b ∧ b ≠ a
  chain : ix.ChainFits a

variable {a b : Bytes}

lemma IsAlias.link (h : ix.IsAlias a b) : ix.link a = .ok b := by
  obtain ⟨t, node, htypedef, htype, hkind, rfl, hne⟩ := h.typedef
  have hnode : (ix.typedef? a).bind (·.type) =
      some node := by rw [htypedef, Option.bind_some, htype]
  have hname : (node.name.isEmpty || node.name == a) = false := by
    have hempty : node.name ≠ [] := by
      intro hnil
      have htarget := h.target
      rw [hnil] at htarget
      cases htarget
    simp [hempty, hne]
  have hfollow : ix.follow a node = .ok node.name := by
    unfold follow
    obtain hkind | hkind := hkind <;> simp only [hkind, hname] <;> rfl
  have henum : ix.enumNames.contains a = false := by simpa using h.enum
  rw [Index.link, h.scalar, henum, h.record, hnode]
  exact hfollow

def SameEnd (r r' : Resolved) : Prop := r = r' ∨ r.kind = .unknown ∧ r'.kind = .unknown

lemma sameEnd_of_isAlias (h : ix.IsAlias a b) : SameEnd (ix.underlying a) (ix.underlying b) := by
  by_cases hends : ∃ n r, ix.end? n b = some r
  · obtain ⟨n, r, hr⟩ := hends
    have ha := h.chain (n + 1) r ((end?_of_ok h.link n).trans hr)
    have hb := ha
    rw [end?_of_ok h.link] at hb
    exact .inl ((underlying_of_end? ha le_rfl).trans (underlying_of_end? hb (Nat.le_succ _)).symm)
  · push Not at hends
    have hb : ∀ n, ix.end? n b = none := fun n => Option.eq_none_iff_forall_ne_some.2 (hends n)
    have ha : ∀ n, ix.end? n a = none := by
      intro n
      cases n with
      | zero => rfl
      | succ n => exact (end?_of_ok h.link n).trans (hb n)
    exact .inr ⟨kind_underlyingWithin_of_endless ha _ _, kind_underlyingWithin_of_endless hb _ _⟩

/-! ## What is found at the end -/

def endView (ix : Index) (r : Resolved) : TypeClass × Bytes × Option StructRecord :=
  match r.kind with
  | .primitive | .stdlib => (scalarClass r.name, r.name, none)
  | .enum => (.enum, [], none)
  | .struct | .union => (.struct, [], ix.record? r.name)
  | .functionPointer => (.functionPointer, [], none)
  | .pointer => (.pointer, [], none)
  | _ => (.unknown, [], none)

def endShape (ix : Index) (r : Resolved) : Shape :=
  match r.kind with
  | .primitive | .stdlib => .fixed ((scalarSizes.lookup r.name).getD noSize)
  | .enum => .fixed 4
  | .pointer | .functionPointer => .fixed 8
  | .struct | .union => ix.recordShape r.name
  | _ => .fixed noSize

def endRecord? (ix : Index) (r : Resolved) : Option StructRecord :=
  if r.kind == .struct || r.kind == .union then ix.record? r.name else none

lemma SameEnd.eq_of_kind {α : Type} {r r' : Resolved} (h : SameEnd r r') (f : Resolved → α)
    (hunknown : ∀ name pointer name' pointer', f ⟨name, .unknown, pointer⟩ =
      f ⟨name', .unknown, pointer'⟩) :
    f r = f r' := by
  obtain rfl | ⟨hr, hr'⟩ := h
  · rfl
  · obtain ⟨name, kind, pointer⟩ := r
    obtain ⟨name', kind', pointer'⟩ := r'
    cases hr
    cases hr'
    exact hunknown _ _ _ _

end Index

/-- What is known about a type: its class, its scalar and its record. -/
def TypeInfo.view (t : TypeInfo) : TypeClass × Bytes × Option StructRecord :=
  (t.cls, t.prim, t.record)

namespace Index

variable {ix : Index} {name a b : Bytes}

lemma describe_name (h : CType.parse? name = some { base := name }) :
    ix.describe name = ix.describeBase { base := name } := by
  rw [describe, h]
  rfl

lemma view_describeBase (name : Bytes) : (ix.describeBase { base := name }).view =
      if name = colorType then (.color, [], ix.endRecord? (ix.underlying name))
      else if name ∈ ix.enumTypeNames then (.enum, [], none)
      else ix.endView (ix.underlying name) := by
  unfold describeBase
  simp only [beq_iff_eq, List.contains_iff_mem]
  split_ifs
  · rfl
  · rfl
  · unfold endView
    cases hkind : (ix.underlying name).kind <;> simp [TypeInfo.view, struct?, hkind]

/-- Neither name is that of the colour type, and both or neither are names that members of enums are
typed by, unless they stand for an enum anyway. -/
structure ClassedAlike (ix : Index) (a b : Bytes) : Prop where
  name_ne : a ≠ colorType
  target_ne : b ≠ colorType
  enum : (a ∈ ix.enumTypeNames ↔ b ∈ ix.enumTypeNames) ∨ (ix.underlying b).kind = .enum

lemma IsAlias.endView_eq (h : ix.IsAlias a b) :
    ix.endView (ix.underlying a) = ix.endView (ix.underlying b) :=
  (sameEnd_of_isAlias h).eq_of_kind ix.endView fun _ _ _ _ => rfl

lemma IsAlias.view_eq (h : ix.IsAlias a b) (hclassed : ix.ClassedAlike a b) :
    (ix.describe a).view = (ix.describe b).view := by
  rw [describe_name h.name, describe_name h.target, view_describeBase, view_describeBase,
    if_neg hclassed.name_ne, if_neg hclassed.target_ne, h.endView_eq]
  obtain hiff | hkind := hclassed.enum
  · simp only [hiff]
  · have hview : ix.endView (ix.underlying b) = (.enum, [], none) := by rw [endView, hkind]
    rw [hview, ite_self, ite_self]

lemma IsAlias.view_color (h : ix.IsAlias a b) (ha : a = colorType) :
    (ix.describe a).view = (.color, [], ix.struct? b) := by
  have hrecord : ix.endRecord? (ix.underlying a) = ix.endRecord? (ix.underlying b) :=
    (sameEnd_of_isAlias h).eq_of_kind ix.endRecord? fun _ _ _ _ => rfl
  rw [describe_name h.name, view_describeBase, if_pos ha, hrecord]
  rfl

/-! ## Sizes -/

def ownSize? (ix : Index) (name : Bytes) : Option Int64 :=
  match scalarSizes.lookup name with
  | some n => some n
  | none => if ix.enumTypeNames.contains name then some 4 else none

def IsEndSize (ix : Index) (r : Resolved) (n : Int64) : Prop :=
  Limit (fun depth => (ix.endShape r).size (ix.sizeUpTo depth)) n

/-- The names have the same sizes of their own, or none but those of what they stand for. -/
def SizedAlike (ix : Index) (a b : Bytes) : Prop :=
  ix.ownSize? a = ix.ownSize? b ∨
    ∀ name ∈ [a, b], ∀ n, ix.ownSize? name = some n → ix.IsEndSize (ix.underlying name) n

lemma shape_name (h : CType.parse? name = some { base := name }) :
    ix.shape name = ((ix.ownSize? name).map Shape.fixed).getD
      (ix.endShape (ix.underlying name)) := by
  have hshape : ix.shape name = ix.baseShape name := by
    rw [shape, h]
    rfl
  rw [hshape, baseShape, ownSize?]
  cases scalarSizes.lookup name with
  | some n => rfl
  | none =>
    dsimp only
    split_ifs
    · rfl
    · rfl

lemma isSize_iff_shape {ctype : Bytes} {n : Int64} :
    ix.IsSize ctype n ↔ Limit (fun depth => (ix.shape ctype).size (ix.sizeUpTo depth)) n := by
  refine ⟨fun h => ?_, limit_sizeUpTo⟩
  obtain ⟨depth, hdepth⟩ | ⟨hnone, rfl⟩ := h
  · cases depth with
    | zero => cases hdepth
    | succ depth => exact .inl ⟨depth, hdepth⟩
  · exact .inr ⟨fun depth => hnone (depth + 1), rfl⟩

lemma isSize_own (h : CType.parse? name = some { base := name }) {n : Int64}
    (hown : ix.ownSize? name = some n) : ix.IsSize name n := by
  rw [isSize_iff_shape, shape_name h, hown]
  exact .inl ⟨0, rfl⟩

lemma IsEndSize.unique {r : Resolved} {n n' : Int64} (h : ix.IsEndSize r n)
    (h' : ix.IsEndSize r n') : n = n' :=
  Limit.unique (fun _ _ hle _ => Shape.size_mono fun ctype _ hn => steady_sizeUpTo ctype hle hn) h
    h'

/-- A name has the size of what it stands for if it has none of its own but that. -/
lemma isEndSize_of_isSize (h : CType.parse? name = some { base := name })
    (hown : ∀ n, ix.ownSize? name = some n → ix.IsEndSize (ix.underlying name) n) {n : Int64}
    (hn : ix.IsSize name n) : ix.IsEndSize (ix.underlying name) n := by
  cases hsize : ix.ownSize? name with
  | some k =>
    rw [hn.unique (isSize_own h hsize)]
    exact hown k hsize
  | none =>
    rw [isSize_iff_shape, shape_name h, hsize] at hn
    exact hn

lemma IsAlias.size_eq (h : ix.IsAlias a b) (hsized : ix.SizedAlike a b) {n m : Int64}
    (hn : ix.IsSize a n) (hm : ix.IsSize b m) : n = m := by
  have hends : ix.endShape (ix.underlying a) = ix.endShape (ix.underlying b) :=
    (sameEnd_of_isAlias h).eq_of_kind ix.endShape fun _ _ _ _ => rfl
  -- Names whose sizes are those of what they stand for.
  have hsame : (∀ name ∈ [a, b], ∀ n, ix.ownSize? name = some n → ix.IsEndSize (ix.underlying name)
      n) → n = m := by
    intro hown
    have hn' := isEndSize_of_isSize h.name (hown a (by simp)) hn
    have hm' := isEndSize_of_isSize h.target (hown b (by simp)) hm
    rw [IsEndSize, hends] at hn'
    exact IsEndSize.unique hn' hm'
  obtain hown | hown := hsized
  · cases ha : ix.ownSize? a with
    | some k =>
      rw [hn.unique (isSize_own h.name ha), hm.unique (isSize_own h.target (hown ▸ ha))]
    | none =>
      refine hsame fun name hname n hsome => ?_
      have hnone : ix.ownSize? name = none := by
        obtain rfl | rfl : name = a ∨ name = b := by simpa using hname
        · exact ha
        · exact hown ▸ ha
      rw [hnone] at hsome
      cases hsome
  · exact hsame hown

end Index

end UiCodegen.Api
