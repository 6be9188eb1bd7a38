import UiCodegen.Api.Representable
import UiCodegen.Proofs.TypeText

/-!
# Sizes do not depend on earlier queries

A query for the size of a type keeps what it finds, marks the types that it is looking into as
having no size, and gives up beyond a depth.  None of this shows in the answer.  `sizeUpTo` measures
types without keeping anything; a type that it never gets to the end of contains itself and has no
size.  Queries answer with these sizes (`sizeOf_honest`), from whatever sizes are known, as long as
those came from queries.

The mark of a type can only be met while the type is being looked into.  Such a type contains
itself, so the mark is its size.  This is the invariant of the recursion (`Below`): whenever a
marked type has a size that is found within a depth, the type at hand has one that is found within a
smaller depth.
-/

namespace UiCodegen.Api

variable {α β : Type} {ctype : Bytes} {ix : Index} {n : Int64} {s : Sizes} {query : StateM Sizes α}
  {shape : Shape} {fields : List Bytes} {f g : Bytes → Option Int64} {next : α → StateM Sizes β}

/-! ## Sizes without keeping them -/

/-- What measurements within growing depths come to: the size that one of them finds, and no size if
none does. -/
def Limit (measured : Nat → Option Int64) (n : Int64) : Prop :=
  (∃ depth, measured depth = some n) ∨ ((∀ depth, measured depth = none) ∧ n = noSize)

/-- Measurements that find a size within a depth find it within every larger one. -/
def Steady (measured : Nat → Option Int64) : Prop :=
  ∀ ⦃depth depth' : Nat⦄, depth ≤ depth' → ∀ ⦃n⦄, measured depth = some n → measured depth' = some n

lemma Steady.unique {measured : Nat → Option Int64} (h : Steady measured) {d d' : Nat} {n' : Int64}
    (hn : measured d = some n) (hn' : measured d' = some n') : n = n' := by
  have hmax := h (le_max_left d d') hn
  rw [h (le_max_right d d') hn'] at hmax
  exact (Option.some.inj hmax).symm

lemma Limit.unique {measured : Nat → Option Int64} (hsteady : Steady measured) {n n' : Int64}
    (h : Limit measured n) (h' : Limit measured n') : n = n' := by
  obtain ⟨d, hd⟩ | ⟨hnone, rfl⟩ := h <;> obtain ⟨d', hd'⟩ | ⟨hnone', rfl⟩ := h'
  · exact hsteady.unique hd hd'
  · simp [hnone'] at hd
  · simp [hnone] at hd'
  · rfl

/-- What is measured in two steps, where the second does not look further if the first finds no
size. -/
lemma Limit.bind {first : Nat → Option Int64} {second : Int64 → Nat → Option Int64}
    (hfirst : Steady first)
    (hsecond : ∀ n, Steady (second n)) (hnone : ∀ d, second noSize d = some noSize) {n r : Int64}
    (hn : Limit first n) (hr : Limit (second n) r) :
    Limit (fun d => (first d).bind (second · d)) r := by
  obtain ⟨d, hd⟩ | ⟨hunsized, rfl⟩ := hn
  · obtain ⟨e, he⟩ | ⟨hunsized, rfl⟩ := hr
    · refine .inl ⟨max d e, ?_⟩
      simp only [hfirst (le_max_left d e) hd, Option.bind_some]
      exact hsecond n (le_max_right d e) he
    · refine .inr ⟨fun e => ?_, rfl⟩
      dsimp only
      cases hk : first e with
      | none => rfl
      | some k =>
        obtain rfl := hfirst.unique hk hd
        exact hunsized e
  · obtain rfl : r = noSize := hr.unique (hsecond noSize) (.inl ⟨0, hnone 0⟩)
    exact .inr ⟨fun d => by simp only [hunsized, Option.bind_none], rfl⟩

/-- What is measured from more sizes is measured in the same way. -/
lemma recordSize_mono (h : ∀ c n, f c = some n → g c = some n) {isUnion : Bool} {layout : Layout}
    (hn : recordSize f isUnion layout fields = some n) :
    recordSize g isUnion layout fields = some n := by
  induction fields generalizing layout with
  | nil => exact hn
  | cons ctype rest ih =>
    obtain ⟨k, hk, hrest⟩ := Option.bind_eq_some_iff.1 hn
    refine Option.bind_eq_some_iff.2 ⟨k, h _ _ hk, ?_⟩
    split_ifs at hrest ⊢
    · exact hrest
    · exact ih hrest

lemma Shape.size_mono (h : ∀ c n, f c = some n → g c = some n) (hn : shape.size f = some n) :
    shape.size g = some n := by
  cases shape with
  | fixed _ => exact hn
  | array elem count =>
    obtain ⟨k, hk, hrest⟩ := Option.bind_eq_some_iff.1 hn
    exact Option.bind_eq_some_iff.2 ⟨k, h _ _ hk, hrest⟩
  | record isUnion fields => exact recordSize_mono h hn

namespace Index

variable (ix : Index)

/-- The size of a type if it is found within so many types inside each other. -/
def sizeUpTo : (depth : Nat) → Bytes → Option Int64
  | 0, _ => none
  | depth + 1, ctype => (ix.shape ctype).size (sizeUpTo depth)

variable {ix}

lemma sizeUpTo_succ (depth : Nat) (hn : ix.sizeUpTo depth ctype = some n) :
    ix.sizeUpTo (depth + 1) ctype = some n := by
  induction depth generalizing ctype n with
  | zero => cases hn
  | succ depth ih => exact Shape.size_mono (fun _ _ => ih) hn

lemma steady_sizeUpTo (ctype : Bytes) : Steady (ix.sizeUpTo · ctype) := by
  intro depth depth' hle n hn
  induction hle with
  | refl => exact hn
  | step _ ih => exact sizeUpTo_succ _ ih

lemma steady_recordSize (isUnion : Bool) (layout : Layout) (fields : List Bytes) :
    Steady fun d => recordSize (ix.sizeUpTo d) isUnion layout fields :=
  fun _ _ hle _ => recordSize_mono fun ctype _ hn => steady_sizeUpTo ctype hle hn

variable (ix) in
/-- The size of a type, negative if it is unknown. -/
def IsSize (ctype : Bytes) (n : Int64) : Prop := Limit (ix.sizeUpTo · ctype) n

lemma IsSize.unique {ctype : Bytes} {n n' : Int64} (h : ix.IsSize ctype n)
    (h' : ix.IsSize ctype n') : n = n' :=
  Limit.unique (steady_sizeUpTo ctype) h h'

end Index

/-! ## What is kept on the way -/

/-- The sizes are right, apart from the marks of the types that are being looked into. -/
def Sizes.Honest (ix : Index) (pending : List Bytes) (s : Sizes) : Prop :=
  ∀ ctype n, s.lookup ctype = some n → (ctype ∈ pending ∧ n = noSize) ∨ ix.IsSize ctype n

/-- If a type that is being looked into is measured within a depth, so is what is at hand, within a
smaller one. -/
def Below (ix : Index) (pending : List Bytes) (measured : Nat → Option Int64) : Prop :=
  ∀ ctype ∈ pending, ∀ depth, (ix.sizeUpTo depth ctype).isSome → ∃ e < depth, (measured e).isSome

lemma Below.first {ix : Index} {pending : List Bytes} {first : Nat → Option Int64}
    (second : Int64 → Nat → Option Int64)
    (h : Below ix pending fun d => (first d).bind (second · d)) :
    Below ix pending first := by
  intro ctype hctype depth hdepth
  obtain ⟨e, he, hsome⟩ := h ctype hctype depth hdepth
  exact ⟨e, he, Option.isSome_of_isSome_bind hsome⟩

lemma Below.second {ix : Index} {pending : List Bytes} {first : Nat → Option Int64}
    {second : Int64 → Nat → Option Int64} (hfirst : Steady first)
    (hnone : ∀ d, second noSize d = some noSize) {n : Int64} (hn : Limit first n)
    (h : Below ix pending fun d => (first d).bind (second · d)) : Below ix pending (second n) := by
  intro ctype hctype depth hdepth
  obtain ⟨e, he, hsome⟩ := h ctype hctype depth hdepth
  obtain ⟨d, hd⟩ | ⟨-, rfl⟩ := hn
  · obtain ⟨k, hk⟩ := Option.isSome_iff_exists.1 (Option.isSome_of_isSome_bind hsome)
    obtain rfl := hfirst.unique hk hd
    exact ⟨e, he, by simpa only [hk, Option.bind_some] using hsome⟩
  · exact ⟨e, he, by simp [hnone]⟩

def Sizes.types (s : Sizes) : List Bytes := s.map Prod.fst

lemma Sizes.lookup_eq_none_iff {s : Sizes} {ctype : Bytes} :
    s.lookup ctype = none ↔ ctype ∉ s.types := by
  rw [List.lookup_eq_none_iff]
  simp [Sizes.types]
  grind

/-- A measurement from sizes `s` that came to `n` and left the sizes `s'`. -/
structure Measured (ix : Index) (pending : List Bytes) (s s' : Sizes)
    (measured : Nat → Option Int64) (n : Int64) : Prop where
  limit : Limit measured n
  honest : s'.Honest ix pending
  grows : s.types ⊆ s'.types

def unknown (types : List Bytes) (s : Sizes) : Finset Bytes := types.toFinset \ s.types.toFinset

lemma card_unknown_le (types : List Bytes) {s' : Sizes} (h : s.types ⊆ s'.types) :
    (unknown types s').card ≤ (unknown types s).card := by
  refine Finset.card_le_card (Finset.sdiff_subset_sdiff subset_rfl fun ctype hknown => ?_)
  simpa using h (by simpa using hknown)

/-- A type is no longer unknown once it is marked. -/
lemma card_unknown_mark_lt {types : List Bytes} (hmem : ctype ∈ types) (hunknown : ctype ∉ s.types)
    (n : Int64) : (unknown types ((ctype, n) :: s)).card < (unknown types s).card := by
  refine Finset.card_lt_card ⟨fun other hother => ?_, fun hsub => ?_⟩
  · simp only [unknown, Sizes.types, List.map_cons, Finset.mem_sdiff, List.mem_toFinset,
      List.mem_cons, not_or] at hother ⊢
    exact ⟨hother.1, hother.2.2⟩
  · have hmarked : ctype ∈ unknown types ((ctype, n) :: s) :=
      hsub (by simpa [unknown] using ⟨hmem, hunknown⟩)
    simp [unknown, Sizes.types] at hmarked

section

variable {ix : Index} {pending types : List Bytes} {depth : Nat}
  {measure : Bytes → StateM Sizes Int64}

/-- Types of a list can be measured, as long as the depth suffices for those that are not known. -/
def MeasuresAll (ix : Index) (pending types : List Bytes) (depth : Nat)
    (measure : Bytes → StateM Sizes Int64) (parts : List Bytes) : Prop :=
  ∀ ctype ∈ parts, ∀ s : Sizes, s.Honest ix pending → Below ix pending (ix.sizeUpTo · ctype) →
    (unknown types s).card < depth →
    Measured ix pending s ((measure ctype).run s).2 (ix.sizeUpTo · ctype) ((measure ctype).run s).1

lemma Measured.bind {s s₁ s₂ : Sizes} {first : Nat → Option Int64}
    {second : Int64 → Nat → Option Int64}
    (hfirst : Steady first) (hsecond : ∀ n, Steady (second n))
    (hnone : ∀ d, second noSize d = some noSize)
    {n r : Int64} (hn : Measured ix pending s s₁ first n)
    (hr : Measured ix pending s₁ s₂ (second n) r) :
    Measured ix pending s s₂ (fun d => (first d).bind (second · d)) r where
  limit := hn.limit.bind hfirst hsecond hnone hr.limit
  honest := hr.honest
  grows := List.Subset.trans hn.grows hr.grows

lemma measured_recordSize (isUnion : Bool)
    (hmeasure : MeasuresAll ix pending types depth measure fields) (layout : Layout)
    (hs : s.Honest ix pending)
    (hbelow : Below ix pending fun d => recordSize (ix.sizeUpTo d) isUnion layout fields)
    (hdepth : (unknown types s).card < depth) :
    Measured ix pending s ((recordSize measure isUnion layout fields).run s).2
      (fun d => recordSize (ix.sizeUpTo d) isUnion layout fields)
      ((recordSize measure isUnion layout fields).run s).1 := by
  induction fields generalizing layout s with
  | nil => exact ⟨.inl ⟨0, rfl⟩, hs, fun _ h => h⟩
  | cons ctype rest ih =>
    let second (n : Int64) (d : Nat) : Option Int64 :=
      if n < 0 then some noSize else recordSize (ix.sizeUpTo d) isUnion (layout.add isUnion n) rest
    have hsecond : ∀ n, Steady (second n) := by
      intro n d d' hle r hr
      dsimp only [second] at hr ⊢
      split_ifs at hr ⊢
      · exact hr
      · exact Index.steady_recordSize isUnion _ rest hle hr
    have hnone : ∀ d, second noSize d = some noSize := fun _ => rfl
    have hfirst : Steady (ix.sizeUpTo · ctype) := Index.steady_sizeUpTo ctype
    have hn := hmeasure ctype (by simp) s hs (Below.first second hbelow) hdepth
    have hrun : (recordSize measure isUnion layout (ctype :: rest)).run s =
        (if ((measure ctype).run s).1 < 0 then pure noSize
          else recordSize measure isUnion (layout.add isUnion ((measure ctype).run s).1) rest).run
          ((measure ctype).run s).2 := rfl
    refine Measured.bind hfirst hsecond hnone hn ?_
    rw [hrun]
    generalize (measure ctype).run s = r at hn ⊢
    obtain ⟨n, s₁⟩ := r
    have hbelow := Below.second hfirst hnone hn.limit hbelow
    dsimp only [second] at hbelow ⊢
    split_ifs with hneg
    · exact ⟨.inl ⟨0, rfl⟩, hn.honest, fun _ h => h⟩
    · simp only [if_neg hneg] at hbelow
      exact ih (fun other hother => hmeasure other (by simp [hother])) _ hn.honest hbelow
        ((card_unknown_le types hn.grows).trans_lt hdepth)

lemma measured_shape (hmeasure : MeasuresAll ix pending types depth measure shape.parts)
    (hs : s.Honest ix pending) (hbelow : Below ix pending fun d => shape.size (ix.sizeUpTo d))
    (hdepth : (unknown types s).card < depth) :
    Measured ix pending s ((shape.size measure).run s).2 (fun d => shape.size (ix.sizeUpTo d))
      ((shape.size measure).run s).1 := by
  cases shape with
  | fixed n => exact ⟨.inl ⟨0, rfl⟩, hs, fun _ h => h⟩
  | array elem count =>
    let second (n : Int64) (_ : Nat) : Option Int64 := some (if n < 0 then noSize else n * count)
    have hsecond : ∀ n, Steady (second n) := fun _ _ _ _ _ hr => hr
    have hnone : ∀ d, second noSize d = some noSize := fun _ => rfl
    have hn := hmeasure elem (by simp [Shape.parts]) s hs (Below.first second hbelow) hdepth
    exact Measured.bind (Index.steady_sizeUpTo elem) hsecond hnone hn
      ⟨.inl ⟨0, rfl⟩, hn.honest, fun _ h => h⟩
  | record isUnion fields => exact measured_recordSize isUnion hmeasure {} hs hbelow hdepth

/-- A type is measured once its shape is. -/
lemma limit_sizeUpTo
    (h : Limit (fun d => (ix.shape ctype).size (ix.sizeUpTo d)) n) : ix.IsSize ctype n := by
  obtain ⟨d, hd⟩ | ⟨hnone, rfl⟩ := h
  · exact .inl ⟨d + 1, hd⟩
  · refine .inr ⟨fun d => ?_, rfl⟩
    cases d with
    | zero => rfl
    | succ d => exact hnone d

/-- The mark of a type that is being looked into is its size, since the type contains itself. -/
lemma isSize_of_below (hpending : ctype ∈ pending)
    (hbelow : Below ix pending (ix.sizeUpTo · ctype)) : ix.IsSize ctype noSize := by
  refine .inr ⟨fun d => ?_, rfl⟩
  induction d using Nat.strong_induction_on with
  | _ d ih =>
    by_contra hsome
    obtain ⟨e, he, hsome⟩ := hbelow ctype hpending d (Option.isSome_iff_ne_none.2 hsome)
    simp [ih e he] at hsome

lemma below_shape (hbelow : Below ix pending (ix.sizeUpTo · ctype)) :
    Below ix (ctype :: pending) fun d => (ix.shape ctype).size (ix.sizeUpTo d) := by
  have hself : ∀ d, (ix.sizeUpTo d ctype).isSome →
      ∃ e < d, ((ix.shape ctype).size (ix.sizeUpTo e)).isSome := by
    intro d hd
    cases d with
    | zero => cases hd
    | succ d => exact ⟨d, Nat.lt_succ_self d, hd⟩
  intro other hother d hd
  rcases List.mem_cons.1 hother with rfl | hother
  · exact hself d hd
  · obtain ⟨e, he, hsome⟩ := hbelow other hother d hd
    obtain ⟨e', he', hsome'⟩ := hself e hsome
    exact ⟨e', he'.trans he, hsome'⟩

/-- A query looks into a type that is neither known nor marked, and keeps what it finds. -/
lemma run_sizeWithin_succ (ix : Index) (depth : Nat) (ctype : Bytes) (s : Sizes) :
    (ix.sizeWithin (depth + 1) ctype).run s =
      match s.lookup ctype with
      | some n => (n, s)
      | none =>
        let r := ((ix.shape ctype).size (ix.sizeWithin depth)).run ((ctype, noSize) :: s)
        (r.1, (ctype, r.1) :: r.2) := by
  unfold Index.sizeWithin
  change StateT.run (match s.lookup ctype with
    | some n => pure n
    | none => _) s = _
  cases s.lookup ctype with
  | none => rfl
  | some n => rfl

/-- Queries within a depth that suffices for the types that are not known answer with sizes. -/
lemma measuresAll_sizeWithin (hclosed : ∀ ctype ∈ types, (ix.shape ctype).parts ⊆ types)
    (depth : Nat)
    (pending : List Bytes) : MeasuresAll ix pending types depth (ix.sizeWithin depth) types := by
  induction depth generalizing pending with
  | zero => exact fun _ _ _ _ _ hcard => absurd hcard (Nat.not_lt_zero _)
  | succ depth ih =>
    intro ctype hmem s hs hbelow hcard
    rw [run_sizeWithin_succ]
    cases hlookup : s.lookup ctype with
    | some n =>
      refine ⟨?_, hs, fun _ h => h⟩
      obtain ⟨hpending, rfl⟩ | hsize := hs ctype n hlookup
      · exact isSize_of_below hpending hbelow
      · exact hsize
    | none =>
      have hunknown : ctype ∉ s.types := Sizes.lookup_eq_none_iff.1 hlookup
      have hmark : Sizes.Honest ix (ctype :: pending) ((ctype, noSize) :: s) := by
        intro other n hn
        rw [List.lookup_cons] at hn
        split at hn
        · rename_i heq
          cases hn
          exact .inl ⟨by simp [eq_of_beq heq], rfl⟩
        · exact (hs other n hn).imp_left fun h => ⟨by simp [h.1], h.2⟩
      have hcard : (unknown types ((ctype, noSize) :: s)).card < depth :=
        (card_unknown_mark_lt hmem hunknown noSize).trans_le (Nat.le_of_lt_succ hcard)
      have hshape :=
        measured_shape (fun part hpart => ih (ctype :: pending) part (hclosed ctype hmem hpart))
        hmark (below_shape hbelow) hcard
      dsimp only
      refine ⟨limit_sizeUpTo hshape.limit, ?_, ?_⟩
      · intro other n hn
        rw [List.lookup_cons] at hn
        split at hn
        · rename_i heq
          cases hn
          rw [eq_of_beq heq]
          exact .inr (limit_sizeUpTo hshape.limit)
        · rename_i hne
          refine (hshape.honest other n hn).imp_left fun h => ⟨?_, h.2⟩
          exact (List.mem_cons.1 h.1).resolve_left (by simpa using hne)
      · have hmarked : s.types ⊆ Sizes.types ((ctype, noSize) :: s) := List.subset_cons_self _ _
        exact List.Subset.trans hmarked (List.Subset.trans hshape.grows (List.subset_cons_self _ _))

end

/-! ## The depth suffices -/

namespace Index

variable (ix : Index)

def fieldTypes : List Bytes := ix.records.flatMap fun record => record.fields.map ix.fieldType

/-- A type without its array part. -/
def elemType (ctype : Bytes) : Bytes :=
  match CType.parse? ctype with
  | some c => ({ c with dim := -1 } : CType).text
  | none => ctype

def reachableTypes (ctype : Bytes) : List Bytes :=
  (ctype :: ix.fieldTypes).flatMap fun t => [t, elemType t]

variable {ix}

lemma card_reachableTypes_lt (ctype : Bytes) :
    (ix.reachableTypes ctype).toFinset.card < ix.nesting := by
  have hfields : ix.fieldTypes.length = (ix.records.flatMap (·.fields)).length := by
    simp [fieldTypes, List.length_flatMap]
  have hlength : (ix.reachableTypes ctype).length = 2 * ix.fieldTypes.length + 2 := by
    simp [reachableTypes, List.length_flatMap]
    omega
  have hcard := List.toFinset_card_le (ix.reachableTypes ctype)
  unfold nesting
  omega

lemma mem_of_lastNamed? {nameOf : α → Bytes} {name : Bytes} {xs : List α} {x : α}
    (h : lastNamed? nameOf name xs = some x) : x ∈ xs := by
  rw [lastNamed?_eq_find?] at h
  exact List.mem_reverse.1 (List.mem_of_find?_eq_some h)

lemma parts_recordShape_subset (tag : Bytes) : (ix.recordShape tag).parts ⊆ ix.fieldTypes := by
  unfold recordShape
  split
  · exact List.nil_subset _
  · rename_i record hfound
    have hmem : record ∈ ix.records := mem_of_lastNamed? hfound
    exact fun t ht => List.mem_flatMap.2 ⟨record, hmem, ht⟩

lemma parts_baseShape_subset (name : Bytes) : (ix.baseShape name).parts ⊆ ix.fieldTypes := by
  unfold baseShape
  split
  · exact List.nil_subset _
  split
  · exact List.nil_subset _
  dsimp only
  cases (ix.underlying name).kind with
  | struct | union => exact parts_recordShape_subset _
  | _ => exact List.nil_subset _

lemma parts_shape_subset (t : Bytes) : (ix.shape t).parts ⊆ elemType t :: ix.fieldTypes := by
  unfold shape elemType
  cases CType.parse? t with
  | none => exact List.nil_subset _
  | some c =>
    dsimp only
    split_ifs
    · exact fun _ h => List.mem_cons.2 (.inl (List.mem_singleton.1 h))
    · exact List.nil_subset _
    · exact List.subset_cons_of_subset _ (parts_baseShape_subset _)

/-- The element of an array is made of types of fields only. -/
lemma parts_shape_elemType_subset (t : Bytes) : (ix.shape (elemType t)).parts ⊆ ix.fieldTypes := by
  unfold shape
  split
  · exact List.nil_subset _
  · rename_i c hc
    have hdim : c.dim = -1 := by
      unfold elemType at hc
      split at hc
      · exact CType.dim_parse?_elem ‹_› hc
      · simp_all
    rw [if_neg (by omega)]
    split_ifs
    · exact List.nil_subset _
    · exact parts_baseShape_subset _

lemma reachableTypes_closed (ctype : Bytes) :
    ∀ t ∈ ix.reachableTypes ctype, (ix.shape t).parts ⊆ ix.reachableTypes ctype := by
  have hfields : ix.fieldTypes ⊆ ix.reachableTypes ctype :=
    fun t ht => List.mem_flatMap.2 ⟨t, by simp [ht], by simp⟩
  intro t ht
  obtain ⟨a, ha, ht⟩ := List.mem_flatMap.1 ht
  simp only [List.mem_cons, List.not_mem_nil, or_false] at ht
  obtain rfl | rfl := ht
  · have helem : elemType t ∈ ix.reachableTypes ctype := List.mem_flatMap.2 ⟨t, ha, by simp⟩
    exact List.Subset.trans (parts_shape_subset t) (List.cons_subset.2 ⟨helem, hfields⟩)
  · exact List.Subset.trans (parts_shape_elemType_subset a) hfields

/-- A query answers with the size of the type, and what it keeps is right. -/
lemma sizeOf_honest (ctype : Bytes) (hs : s.Honest ix []) :
    ix.IsSize ctype ((ix.sizeOf ctype).run s).1 ∧ ((ix.sizeOf ctype).run s).2.Honest ix [] := by
  have hself : ctype ∈ ix.reachableTypes ctype := List.mem_flatMap.2 ⟨ctype, by simp, by simp⟩
  have hcard : (unknown (ix.reachableTypes ctype) s).card < ix.nesting :=
    (Finset.card_le_card Finset.sdiff_subset).trans_lt (card_reachableTypes_lt ctype)
  have hmeasured :=
    measuresAll_sizeWithin (reachableTypes_closed ctype) ix.nesting [] ctype hself s hs
    (fun _ h => absurd h List.not_mem_nil) hcard
  exact ⟨hmeasured.limit, hmeasured.honest⟩

end Index

/-! ## Queries about functions -/

def answer {α : Type} (query : StateM Sizes α) : α := (query.run []).1

/-- The answer of a query does not depend on what is known. -/
def HistoryFree {α : Type} (ix : Index) (query : StateM Sizes α) : Prop :=
  ∀ s : Sizes, s.Honest ix [] → (query.run s).1 = answer query ∧ (query.run s).2.Honest ix []

lemma honest_nil (ix : Index) : Sizes.Honest ix [] [] := fun _ _ h => by cases h

@[simp] lemma answer_pure (a : α) : answer (pure a) = a := rfl

lemma historyFree_pure (ix : Index) (a : α) : HistoryFree ix (pure a) := fun _ hs => ⟨rfl, hs⟩

lemma run_query_bind (query : StateM Sizes α) (next : α → StateM Sizes β) (s : Sizes) :
    (query >>= next).run s = (next (query.run s).1).run (query.run s).2 :=
  rfl

/-- Queries one after the other answer like queries that each begin with nothing known. -/
lemma answer_bind
    (h : HistoryFree ix query) (hnext : ∀ a, HistoryFree ix (next a)) :
    answer (query >>= next) = answer (next (answer query)) :=
  (hnext (answer query) _ (h [] (honest_nil ix)).2).1

lemma HistoryFree.bind
    (h : HistoryFree ix query) (hnext : ∀ a, HistoryFree ix (next a)) :
    HistoryFree ix (query >>= next) := by
  intro s hs
  obtain ⟨hanswer, hhonest⟩ := h s hs
  obtain ⟨hsecond, hhonest'⟩ := hnext (query.run s).1 _ hhonest
  refine ⟨?_, hhonest'⟩
  calc ((next (query.run s).1).run (query.run s).2).1
      = answer (next (answer query)) := by rw [hsecond, hanswer]
    _ = answer (query >>= next) := (answer_bind h hnext).symm

/-- The second of two queries is put when nothing but true sizes is known. -/
lemma HistoryFree.of_run_bind
    (h : HistoryFree ix query) (hs : s.Honest ix []) {b : β}
    (hrun : ((query >>= next).run s).1 = b) :
    ∃ s', s'.Honest ix [] ∧ ((next (answer query)).run s').1 = b := by
  obtain ⟨hanswer, hhonest⟩ := h s hs
  refine ⟨(query.run s).2, hhonest, ?_⟩
  rw [← hanswer]
  exact hrun

namespace Index

variable {ix : Index}

lemma historyFree_sizeOf (ctype : Bytes) : HistoryFree ix (ix.sizeOf ctype) := by
  intro s hs
  obtain ⟨hsize, hhonest⟩ := sizeOf_honest ctype hs
  exact ⟨hsize.unique (sizeOf_honest ctype (honest_nil ix)).1, hhonest⟩

lemma historyFree_isSmallStruct (ctype : Bytes) : HistoryFree ix (ix.isSmallStruct ctype) := by
  unfold isSmallStruct
  split
  · exact historyFree_pure ix _
  · split
    · exact historyFree_pure ix _
    · exact (historyFree_sizeOf ctype).bind fun _ => historyFree_pure ix _

/-- A struct that can pass by value is described, and its fields are scalars. -/
lemma record_of_isSmallStruct (h : answer (ix.isSmallStruct ctype) = true) :
    ∃ record, (ix.describe ctype).record = some record ∧ ∀ f ∈ record.fields,
    ix.isScalarField f := by
  unfold isSmallStruct at h
  cases hrecord : (ix.describe ctype).record with
  | none => simp [hrecord] at h
  | some record =>
    simp only [hrecord] at h
    split at h
    · cases h
    · rw [answer_bind (historyFree_sizeOf ctype) fun _ => historyFree_pure ix _] at h
      simp only [answer_pure, Bool.and_eq_true] at h
      exact ⟨record, rfl, List.all_eq_true.1 h.2⟩

lemma historyFree_structObstacle? (ctype : Bytes) (record : Option StructRecord) :
    HistoryFree ix (ix.structObstacle? ctype record) := by
  unfold structObstacle?
  split
  · exact historyFree_pure ix _
  · refine (historyFree_sizeOf ctype).bind fun n => ?_
    split
    · exact historyFree_pure ix _
    split
    · exact historyFree_pure ix _
    refine (historyFree_isSmallStruct ctype).bind fun isSmall => ?_
    split
    · exact historyFree_pure ix _
    · exact historyFree_pure ix _

lemma historyFree_typeObstacle? (ctype : Bytes) (chain : Option TypeNode) (isResult : Bool) :
    HistoryFree ix (ix.typeObstacle? ctype chain isResult) := by
  unfold typeObstacle?
  split
  · exact historyFree_pure ix _
  dsimp only
  split
  · exact historyFree_pure ix _
  split
  · exact historyFree_pure ix _
  · exact historyFree_pure ix _
  · exact historyFree_pure ix _
  · exact historyFree_structObstacle? ctype _
  · exact historyFree_pure ix _

lemma historyFree_paramsObstacle? (function : Bytes) (params : List Param) :
    HistoryFree ix (ix.paramsObstacle? function params) := by
  induction params with
  | nil => exact historyFree_pure ix _
  | cons p rest ih =>
    refine (historyFree_typeObstacle? p.ctype p.chain false).bind fun obstacle => ?_
    split
    · exact historyFree_pure ix _
    · exact ih

lemma historyFree_unrepresentable? (f : FunctionInfo) : HistoryFree ix (ix.unrepresentable? f) := by
  unfold unrepresentable?
  split
  · exact historyFree_pure ix _
  · refine (historyFree_typeObstacle? f.result f.resultChain true).bind fun obstacle => ?_
    split
    · exact historyFree_pure ix _
    · exact historyFree_paramsObstacle? f.name f.params

end Index

end UiCodegen.Api
