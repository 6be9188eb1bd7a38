import UiCodegen.Proofs.Selection

/-!
# Listing and lookup

An API may declare a name more than once.  A listing shows each name once, with its first
declaration, in the order of these; a lookup finds the last declaration.  The two agree exactly if
every name is declared last as it is declared first.
-/

namespace UiCodegen.Api

section Generic

variable {α : Type} (nameOf : α → Bytes) {name : Bytes} {xs : List α}

/-- Listing and lookup of one kind of declaration agree. -/
structure Coherent (listing : List α) (lookup? : Bytes → Option α) : Prop where
  nodup : (listing.map nameOf).Nodup
  names : ∀ name, name ∈ listing.map nameOf ↔ (lookup? name).isSome
  found : ∀ x ∈ listing, lookup? (nameOf x) = some x

def FirstIsLast (xs : List α) : Prop :=
  ∀ name, xs.find? (nameOf · == name) = xs.reverse.find? (nameOf · == name)

lemma firstOfEachName_concat (xs : List α) (x : α) : firstOfEachName nameOf (xs ++ [x]) =
      if nameOf x ∈ (firstOfEachName nameOf xs).map nameOf then firstOfEachName nameOf xs
      else firstOfEachName nameOf xs ++ [x] := by
  simp only [firstOfEachName, List.foldl_concat, List.map_reverse, List.mem_reverse]
  rw [apply_ite List.reverse, List.reverse_cons]
  simp only [List.any_eq_true, beq_iff_eq, List.mem_map]

lemma mem_names_firstOfEachName :
    name ∈ (firstOfEachName nameOf xs).map nameOf ↔ name ∈ xs.map nameOf := by
  induction xs using List.reverseRecOn with
  | nil => rfl
  | append_singleton xs x ih =>
    rw [firstOfEachName_concat, List.map_append, List.mem_append, ← ih, List.map_singleton,
      List.mem_singleton]
    split
    · rename_i hold
      exact ⟨.inl, fun h => h.elim id fun hname => hname ▸ hold⟩
    · simp

/-- A further declaration is listed if its name is new. -/
lemma firstOfEachName_concat' (xs : List α) (x : α) : firstOfEachName nameOf (xs ++ [x]) =
      if nameOf x ∈ xs.map nameOf then firstOfEachName nameOf xs else firstOfEachName nameOf xs ++
      [x] := by
  simp only [firstOfEachName_concat, mem_names_firstOfEachName]

lemma find?_eq_none_iff_notMem : xs.find? (nameOf · == name) = none ↔ name ∉ xs.map nameOf := by
  simp [List.find?_eq_none]

lemma mem_firstOfEachName {x : α} :
    x ∈ firstOfEachName nameOf xs ↔ xs.find? (nameOf · == nameOf x) = some x := by
  induction xs using List.reverseRecOn with
  | nil => simp [firstOfEachName]
  | append_singleton xs y ih =>
    rw [firstOfEachName_concat', List.find?_append]
    by_cases hx : nameOf x ∈ xs.map nameOf
    -- The name was declared before: the last declaration is not the first one of the name.
    · obtain ⟨z, hz⟩ : ∃ z, xs.find? (nameOf · == nameOf x) = some z :=
        Option.ne_none_iff_exists'.1 fun hnone => (find?_eq_none_iff_notMem nameOf).1 hnone hx
      rw [hz] at ih ⊢
      rw [Option.some_or, ← ih]
      split
      · rfl
      · rename_i hnew
        have hne : x ≠ y := fun h => hnew (h ▸ hx)
        simp [hne]
    · have hnone := (find?_eq_none_iff_notMem nameOf).2 hx
      have hold : x ∉ firstOfEachName nameOf xs := by
        rw [ih, hnone]
        exact Option.some_ne_none x ∘ Eq.symm
      rw [hnone, Option.none_or]
      split
      · rename_i hmem
        have hne : nameOf y ≠ nameOf x := fun h => hx (h ▸ hmem)
        simp [hold, hne]
      · by_cases hxy : y = x
        · simp [hxy]
        · simp [hold, hxy, Ne.symm hxy]

/-- A listing agrees with a lookup exactly if every name is declared last as it is declared first.
-/
lemma coherent_iff : Coherent nameOf (firstOfEachName nameOf xs) (lastNamed? nameOf · xs) ↔
    FirstIsLast nameOf xs := by
  have hnames : ∀ name, name ∈ (firstOfEachName nameOf xs).map nameOf ↔
      (lastNamed? nameOf name xs).isSome := by
    intro name
    rw [mem_names_firstOfEachName, lastNamed?_eq_find?, Option.isSome_iff_ne_none, ne_eq,
      find?_eq_none_iff_notMem, not_not, List.map_reverse, List.mem_reverse]
  constructor
  · intro h name
    rw [← lastNamed?_eq_find?]
    cases hfirst : xs.find? (nameOf · == name) with
    | none =>
      rw [find?_eq_none_iff_notMem, ← mem_names_firstOfEachName, hnames,
        Option.not_isSome_iff_eq_none] at hfirst
      exact hfirst.symm
    | some x =>
      have hname : nameOf x = name := by simpa using List.find?_some hfirst
      subst hname
      exact (h.found x ((mem_firstOfEachName nameOf).2 hfirst)).symm
  · intro h
    refine ⟨nodup_firstOfEachName nameOf xs, hnames, fun x hx => ?_⟩
    rw [lastNamed?_eq_find?, ← h, (mem_firstOfEachName nameOf).1 hx]

section Nodup

variable {nameOf} {xs : List α} (hxs : (xs.map nameOf).Nodup)

include hxs

/-- What is declared once is listed as it is declared. -/
lemma firstOfEachName_of_nodup : firstOfEachName nameOf xs = xs := by
  induction xs using List.reverseRecOn with
  | nil => rfl
  | append_singleton xs x ih =>
    rw [List.map_append, List.nodup_append] at hxs
    have hnew : nameOf x ∉ xs.map nameOf := fun h => hxs.2.2 _ h _ (by simp) rfl
    rw [firstOfEachName_concat', if_neg hnew, ih hxs.1]

lemma find?_eq_some_iff_of_nodup {name : Bytes} {x : α} :
    xs.find? (nameOf · == name) = some x ↔ x ∈ xs ∧ nameOf x = name := by
  constructor
  · intro h
    exact ⟨List.mem_of_find?_eq_some h, by simpa using List.find?_some h⟩
  · rintro ⟨hx, rfl⟩
    rw [← mem_firstOfEachName, firstOfEachName_of_nodup hxs]
    exact hx

lemma firstIsLast_of_nodup : FirstIsLast nameOf xs := by
  have hreverse : (xs.reverse.map nameOf).Nodup := by
    rw [List.map_reverse, List.nodup_reverse]
    exact hxs
  intro name
  refine Option.ext fun x => ?_
  rw [find?_eq_some_iff_of_nodup hxs, find?_eq_some_iff_of_nodup hreverse, List.mem_reverse]

end Nodup

end Generic

/-! ## Functions and members of enums -/

open Index (ofDescription)

lemma names_declaredFunctions (d : Description) :
    (ofDescription d).declaredFunctions.map (·.name) = (d.functions.map (·.name)).filter
    (!·.isEmpty) := by
  rw [List.filter_map]
  simp only [ofDescription, List.map_map]
  rfl

/-- Where no name of a function is declared twice, the functions are those declared, and each is
found by its name. -/
lemma functions_of_nodup {d : Description}
    (h : ((d.functions.map (·.name)).filter (!·.isEmpty)).Nodup) :
    (ofDescription d).functions = (ofDescription d).declaredFunctions ∧
      ∀ f ∈ (ofDescription d).functions, (ofDescription d).function? f.name = some f := by
  rw [← names_declaredFunctions] at h
  exact ⟨firstOfEachName_of_nodup h, ((coherent_iff _).2 (firstIsLast_of_nodup h)).found⟩

/-- **When listing and lookup agree.**  No name is listed twice, neither among the functions of an
API nor among the members of its enums.  A listing holds the first declarations and a lookup finds
the last ones, so they agree exactly if every name of their kind is declared last as it is declared
first. -/
theorem index_coherent_iff (d : Description) :
    ((ofDescription d).functions.map (·.name)).Nodup ∧
    ((ofDescription d).members.map (·.name)).Nodup ∧
      (Coherent (·.name) (ofDescription d).functions (ofDescription d).function? ↔
        FirstIsLast (·.name) (ofDescription d).declaredFunctions) ∧
      (Coherent (·.name) (ofDescription d).members (ofDescription d).member? ↔
        FirstIsLast (·.name) (ofDescription d).declaredMembers) :=
  ⟨nodup_functions d, nodup_firstOfEachName _ _, coherent_iff _, coherent_iff _⟩

/-- A function declared without and then with a parameter, and a member of an enum declared with two
values. -/
def twiceDeclared : Description where
  functions :=
    [{ name := "lv_a" }, { name := "lv_a", args := [some (.mk .primitive "int" [] none [] none)] }]
  enums :=
    [{ name := "e", members := [{ name := "A", value := "1" }, { name := "A", value := "2" }] }]

theorem twiceDeclared_not_coherent :
    ¬ Coherent (·.name) (ofDescription twiceDeclared).functions
    (ofDescription twiceDeclared).function? ∧
      ¬ Coherent (·.name) (ofDescription twiceDeclared).members
      (ofDescription twiceDeclared).member? := by
  constructor
  · intro h
    have hsame : FirstIsLast (·.name) (ofDescription twiceDeclared).declaredFunctions :=
      (coherent_iff _).1 h
    exact absurd (congrArg (Option.map FunctionInfo.arity) (hsame "lv_a")) (by decide +kernel)
  · intro h
    have hsame : FirstIsLast (·.name) (ofDescription twiceDeclared).declaredMembers :=
      (coherent_iff _).1 h
    exact absurd (congrArg (Option.map MemberInfo.value) (hsame "A")) (by decide +kernel)

end UiCodegen.Api
