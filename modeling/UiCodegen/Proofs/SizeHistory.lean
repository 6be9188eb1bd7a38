import UiCodegen.Proofs.Sizes

/-!
# An index answers like a new one

The sizes that an index keeps come from whatever was asked before: the size of a type, whether a
struct can pass by value, whether a function can be called.  A type that is asked for while it is
being looked into is answered by its mark, and what is found that way is kept as well.  The answers
do not show any of this (`sizeOf_history_independent`): from the sizes that any queries have left, a
query for a size ends, and answers as if nothing had been asked before.

That a query ends is said of the recursion itself.  `sizeSearch` looks into types like a query and
has no answer if it would have to look into more of them inside each other than it is allowed to.
Each type that it looks into is marked, so the types that are not known get fewer on the way down,
and the types that a query can come to are those of fields, besides the one it asks for.
-/

namespace UiCodegen.Api

variable {s : Sizes}

/-! ## Queries end -/

/-- The search for a size, which has no answer where it would look into more than `depth` types
inside each other. -/
def Index.sizeSearch (ix : Index) : (depth : Nat) → Bytes → StateT Sizes Option Int64
  | 0, _ => fun _ => none
  | depth + 1, ctype => do
    match (← get).lookup ctype with
    | some n => pure n
    | none =>
      modify ((ctype, noSize) :: ·)
      let n ← (ix.shape ctype).size (sizeSearch ix depth)
      modify ((ctype, n) :: ·)
      pure n

/-- A search comes to what a query comes to, and nothing that was known before gets lost. -/
structure Finds (search : StateT Sizes Option Int64) (query : StateM Sizes Int64) (s : Sizes) :
    Prop where
  found : search.run s = some (query.run s)
  grows : s.types ⊆ (query.run s).2.types

section

variable {ix : Index} {types : List Bytes} {depth : Nat}
  {search : Bytes → StateT Sizes Option Int64} {query : Bytes → StateM Sizes Int64}

/-- Searches for the listed types come to what queries come to, as long as the depth suffices for
those that are not known. -/
def FindsAll (types : List Bytes) (depth : Nat) (search : Bytes → StateT Sizes Option Int64)
    (query : Bytes → StateM Sizes Int64) (parts : List Bytes) : Prop :=
  ∀ ctype ∈ parts, ∀ s : Sizes, (unknown types s).card < depth → Finds (search ctype)
    (query ctype) s

lemma finds_pure (n : Int64) (s : Sizes) : Finds (pure n) (pure n) s := ⟨rfl, fun _ h => h⟩

lemma Finds.bind {first : StateT Sizes Option Int64} {first' : StateM Sizes Int64}
    {next : Int64 → StateT Sizes Option Int64} {next' : Int64 → StateM Sizes Int64}
    (h : Finds first first' s)
    (hnext : Finds (next (first'.run s).1) (next' (first'.run s).1) (first'.run s).2) :
    Finds (first >>= next) (first' >>= next') s where
  found := by
    rw [StateT.run_bind, h.found]
    exact hnext.found
  grows := List.Subset.trans h.grows hnext.grows

lemma finds_recordSize (isUnion : Bool) {fields : List Bytes}
    (hall : FindsAll types depth search query fields)
    (layout : Layout) (hcard : (unknown types s).card < depth) :
    Finds (recordSize search isUnion layout fields) (recordSize query isUnion layout fields) s := by
  induction fields generalizing layout s with
  | nil => exact finds_pure _ s
  | cons ctype rest ih =>
    have hfirst := hall ctype (by simp) s hcard
    refine hfirst.bind ?_
    split_ifs
    · exact finds_pure _ _
    · exact ih (fun other hother => hall other (by simp [hother])) _
        ((card_unknown_le types hfirst.grows).trans_lt hcard)

lemma finds_shape {shape : Shape} (hall : FindsAll types depth search query shape.parts)
    (hcard : (unknown types s).card < depth) : Finds (shape.size search) (shape.size query) s := by
  cases shape with
  | fixed n => exact finds_pure n s
  | array elem count => exact (hall elem (by simp [Shape.parts]) s hcard).bind (finds_pure _ _)
  | record isUnion fields => exact finds_recordSize isUnion hall {} hcard

lemma run_sizeSearch_succ (ix : Index) (depth : Nat) (ctype : Bytes) (s : Sizes) :
    (ix.sizeSearch (depth + 1) ctype).run s =
      match s.lookup ctype with
      | some n => some (n, s)
      | none =>
        (((ix.shape ctype).size (ix.sizeSearch depth)).run ((ctype, noSize) :: s)).map fun r =>
          (r.1, (ctype, r.1) :: r.2) := by
  rw [Index.sizeSearch, StateT.run_bind, StateT.run_get]
  dsimp only [bind, pure, Option.bind_some]
  cases s.lookup ctype with
  | some n => rfl
  | none =>
    dsimp only
    change (((ix.shape ctype).size (ix.sizeSearch depth)).run ((ctype, noSize) :: s)).bind _ = _
    cases ((ix.shape ctype).size (ix.sizeSearch depth)).run ((ctype, noSize) :: s) <;> rfl

/-- The induction is on the depth.  A type that is looked into is marked before its parts are asked
for, so for these one level less suffices. -/
lemma findsAll_sizeSearch (hclosed : ∀ ctype ∈ types, (ix.shape ctype).parts ⊆ types)
    (depth : Nat) : FindsAll types depth (ix.sizeSearch depth) (ix.sizeWithin depth) types := by
  induction depth with
  | zero => exact fun _ _ _ hcard => absurd hcard (Nat.not_lt_zero _)
  | succ depth ih =>
    intro ctype hmem s hcard
    cases hlookup : s.lookup ctype with
    | some n =>
      constructor
      · rw [run_sizeSearch_succ, run_sizeWithin_succ, hlookup]
      · rw [run_sizeWithin_succ, hlookup]
        exact fun _ h => h
    | none =>
      have hcard : (unknown types ((ctype, noSize) :: s)).card < depth :=
        (card_unknown_mark_lt hmem (Sizes.lookup_eq_none_iff.1 hlookup) noSize).trans_le
          (Nat.le_of_lt_succ hcard)
      have hshape := finds_shape (fun part hpart => ih part (hclosed ctype hmem hpart)) hcard
      constructor
      · rw [run_sizeSearch_succ, run_sizeWithin_succ, hlookup]
        dsimp only
        rw [hshape.found]
        rfl
      · rw [run_sizeWithin_succ, hlookup]
        have hmarked : s.types ⊆ Sizes.types ((ctype, noSize) :: s) := List.subset_cons_self _ _
        exact List.Subset.trans hmarked (List.Subset.trans hshape.grows (List.subset_cons_self _ _))

end

/-! ## Earlier queries -/

/-- What an index can be asked that sizes are looked for on the way to the answer. -/
inductive Query where
  | size (ctype : Bytes)
  | smallStruct (ctype : Bytes)
  | representable (f : FunctionInfo)

namespace Index

variable (ix : Index)

def keep (s : Sizes) : Query → Sizes
  | .size ctype => ((ix.sizeOf ctype).run s).2
  | .smallStruct ctype => ((ix.isSmallStruct ctype).run s).2
  | .representable f => ((ix.unrepresentable? f).run s).2

def sizesAfter (queries : List Query) : Sizes := queries.foldl ix.keep []

variable {ix}

lemma honest_keep (hs : s.Honest ix []) (query : Query) : (ix.keep s query).Honest ix [] := by
  cases query with
  | size ctype => exact (historyFree_sizeOf ctype s hs).2
  | smallStruct ctype => exact (historyFree_isSmallStruct ctype s hs).2
  | representable f => exact (historyFree_unrepresentable? f s hs).2

variable (ix) in
lemma honest_sizesAfter (queries : List Query) : (ix.sizesAfter queries).Honest ix [] := by
  have hkept : ∀ s : Sizes, s.Honest ix [] → (queries.foldl ix.keep s).Honest ix [] := by
    induction queries with
    | nil => exact fun _ hs => hs
    | cons query rest ih => exact fun s hs => ih _ (honest_keep hs query)
  exact hkept [] (honest_nil ix)

lemma eq_answer_of_lookup (hs : s.Honest ix []) {ctype : Bytes} {n : Int64}
    (hn : s.lookup ctype = some n) : n = answer (ix.sizeOf ctype) := by
  obtain ⟨hpending, -⟩ | hsize := hs ctype n hn
  · cases hpending
  · exact hsize.unique (sizeOf_honest ctype (honest_nil ix)).1

/-- A search of any depth that suffices ends with the answer of a new index. -/
lemma run_sizeSearch (hs : s.Honest ix []) (ctype : Bytes) {depth : Nat}
    (hdepth : ix.nesting ≤ depth) :
    ∃ s', (ix.sizeSearch depth ctype).run s = some (answer (ix.sizeOf ctype), s') := by
  have hself : ctype ∈ ix.reachableTypes ctype := List.mem_flatMap.2 ⟨ctype, by simp, by simp⟩
  have hcard : (unknown (ix.reachableTypes ctype) s).card < depth :=
    ((Finset.card_le_card Finset.sdiff_subset).trans_lt (card_reachableTypes_lt ctype)).trans_le
      hdepth
  have hfound := (findsAll_sizeSearch (reachableTypes_closed ctype) depth ctype hself s hcard).found
  have hmeasured := measuresAll_sizeWithin (reachableTypes_closed ctype) depth [] ctype hself s hs
    (fun _ h => absurd h List.not_mem_nil) hcard
  have hanswer : ((ix.sizeWithin depth ctype).run s).1 = answer (ix.sizeOf ctype) :=
    IsSize.unique hmeasured.limit (sizeOf_honest ctype (honest_nil ix)).1
  exact ⟨((ix.sizeWithin depth ctype).run s).2, by rw [hfound, ← hanswer, Prod.eta]⟩

end Index

/-- **Sizes do not depend on earlier queries.**  Whatever an index has been asked before, the search
for the size of a type ends, with the answer that a new index gives; that answer is the size of the
type as it is measured without keeping anything, and so is every size that is kept. -/
theorem sizeOf_history_independent (d : Description) (queries : List Query) (ctype : Bytes) :
    let ix := Index.ofDescription d
    let s := ix.sizesAfter queries
    (∀ extra, ∃ s', (ix.sizeSearch (ix.nesting + extra) ctype).run s = some
      (((ix.sizeOf ctype).run s).1, s')) ∧
      ((ix.sizeOf ctype).run s).1 = ((ix.sizeOf ctype).run []).1 ∧
      ix.IsSize ctype ((ix.sizeOf ctype).run s).1 ∧
      ∀ t n, s.lookup t = some n → n = ((ix.sizeOf t).run []).1 := by
  intro ix s
  have hs : s.Honest ix [] := ix.honest_sizesAfter queries
  have hanswer : ((ix.sizeOf ctype).run s).1 = answer (ix.sizeOf ctype) :=
    (Index.historyFree_sizeOf ctype s hs).1
  refine ⟨fun extra => ?_, hanswer, (Index.sizeOf_honest ctype hs).1, fun t n hn =>
    Index.eq_answer_of_lookup hs hn⟩
  rw [hanswer]
  exact Index.run_sizeSearch hs ctype (Nat.le_add_right _ _)

/-! ### Records that contain each other -/

/-- Two records that contain each other, one of them under another name, and a record that holds an
array of a fourth. -/
def ringApi : Description where
  structs := [
    { name := "a", fields := [{ name := "b", type := some (.mk .library "b" [] none [] none) }] },
    { name := "b", fields := [{ name := "n", type := some (.mk .primitive "int" [] none [] none) },
      { name := "a", type := some (.mk .library "alias_t" [] none [] none) }] },
    { name := "c"
      fields := [{ name := "x"
                   type := some (.wrap .array (.mk .library "d" [] none [] none) (some 3)) }] },
    { name := "d"
      fields := [{ name := "n", type := some (.mk .stdlib "int16_t" [] none [] none) }] }]
  typedefs := [{ name := "alias_t", type := some (.mk .library "a" [] none [] none) }]

/-- The size of `b` is asked for while `a` is looked into, and stays unknown; that of `d` is kept on
the way to `c`. -/
theorem ringApi_history_independent :
    let ix := Index.ofDescription ringApi
    let s := ix.sizesAfter [.size "a", .smallStruct "c"]
    s.lookup ("b" : Bytes) = some (-1) ∧ s.lookup ("d" : Bytes) = some 2 ∧
      (ix.sizeOf "b" |>.run []).1 = -1 ∧ (ix.sizeOf "d" |>.run []).1 = 2 := by
  intro ix s
  have hb : s.lookup ("b" : Bytes) = some (-1) := by decide +kernel
  have hd : s.lookup ("d" : Bytes) = some 2 := by decide +kernel
  obtain ⟨-, -, -, hkept⟩ := sizeOf_history_independent ringApi [.size "a", .smallStruct "c"] "b"
  exact ⟨hb, hd, (hkept _ _ hb).symm, (hkept _ _ hd).symm⟩

end UiCodegen.Api
