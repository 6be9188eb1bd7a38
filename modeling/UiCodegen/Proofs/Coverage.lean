import UiCodegen.Proofs.InvokeTable

/-!
# What the tables of the interpreter cover

The tables are made for the functions that a filter selects.  They should hold these functions and
the types that their parameters need, and nothing else (`Covers`).  They do, as long as there is
something to group: if no function is left but constructors, the invokers are those of the whole API
(`invoked_of_forall`).  Groups are found by the keys of signatures, so these also have to tell
signatures apart.

Functions are selected if documents can call them, and their parameters then need readers.  Which
types can take part in a call and which types have readers are two questions with answers that
differ in two cases: integers of unusual spellings, and small records with bit fields or such
integers (`isGap`).  One function with such a parameter is enough to make a run fail.
-/

namespace UiCodegen.Interpreter

open Api TypeTable

variable {ctype : Bytes} {ix : Index} {table : InvokeTable} {f : FunctionInfo}

/-! ## Functions -/

/-- A row calls a function through an invoker that knows the function; constructors have an invoker
of their own. -/
structure RowFor (invokers : List Invoker) (row : InvokeRow) (f : FunctionInfo) : Prop where
  name : row.name = f.name
  arity : row.arity = f.arity
  result : row.result = f.result
  invoker : if isConstructor f then row.invoker = "invoke_create"
    else ∃ s ∈ invokers, s.name = row.invoker ∧ f ∈ s.functions

/-- Tables cover what was selected, and nothing else. -/
structure Covers (ix : Index) (filter : Filter) (tables : Tables) (table : InvokeTable) : Prop where
  /-- The rows are those of the functions selected, in their order. -/
  rows : List.Forall₂ (RowFor table.invokers) table.rows tables.selection.included
  /-- The invokers divide the functions selected among them, constructors aside. -/
  functions : (table.invokers.flatMap (·.functions)).Perm
    (tables.selection.included.filter (!isConstructor ·))
  once : ((table.invokers.flatMap (·.functions)).map (·.name)).Nodup
  signatures : ∀ s ∈ table.invokers, ∀ f ∈ s.functions, f.signature = s.signature
  selected : ∀ s ∈ table.invokers, ∀ f ∈ s.functions,
    filter.allows f.name ∧ f.name ∉ tables.selection.skipped.map (·.1.name)
  /-- The types are those of parameters of the functions selected, with their fields. -/
  types : GrownBy ix (fun c => ∃ f ∈ tables.selection.included,
    isConstructor f = false ∧ ∃ p ∈ f.params, AskedWith ix p.ctype c) {} tables.types

section

variable {ix : Index} {functions : List FunctionInfo}

lemma invoked_of_exists (h : ∃ f ∈ functions, isConstructor f = false) :
    invoked ix functions = functions.filter (!isConstructor ·) := by
  have hsome : functions.filter (!isConstructor ·) ≠ [] := by simpa [List.filter_eq_nil_iff] using h
  exact if_neg (by simpa using hsome)

lemma invoked_of_forall (h : ∀ f ∈ functions, isConstructor f) :
    invoked ix functions = ix.functions := by
  have hnone : functions.filter (!isConstructor ·) = [] := by simpa [List.filter_eq_nil_iff] using h
  exact if_pos (by simp [hnone])

/-- The functions that get invokers are the functions selected, unless there are none of these. -/
lemma invoked_perm_iff : (invoked ix functions).Perm (functions.filter (!isConstructor ·)) ↔
    (∃ f ∈ functions, isConstructor f = false) ∨ ix.functions = [] := by
  by_cases h : ∃ f ∈ functions, isConstructor f = false
  · simp [invoked_of_exists h, h]
  · have hall : ∀ f ∈ functions, isConstructor f := by simpa using h
    have hnone : functions.filter (!isConstructor ·) =
        [] := by simpa [List.filter_eq_nil_iff] using hall
    simp only [invoked_of_forall hall, hnone, h, List.perm_nil, false_or]

end

/-- The row of a function calls it, if the function has an invoker and its name is its own. -/
lemma rowFor_rowOf {invokers : List Invoker}
    (hinvoked : isConstructor f = false → ∃ s ∈ invokers, f ∈ s.functions)
    (hname : ∀ s ∈ invokers, ∀ f' ∈ s.functions, f'.name = f.name → f' = f) :
    RowFor invokers (rowOf ix invokers f) f := by
  refine ⟨rfl, rfl, rfl, ?_⟩
  cases hconstructor : isConstructor f with
  | true => simp [rowOf, hconstructor]
  | false =>
    obtain ⟨s₀, hs₀, hf⟩ := hinvoked hconstructor
    -- The search may meet another invoker than `s₀` first, but then that one calls `f` as well.
    obtain ⟨s, hs⟩ : ∃ s, (invokers.reverse.find? fun s => s.functions.any (·.name == f.name)) =
        some s := by
      rw [← Option.isSome_iff_exists, List.find?_isSome]
      exact ⟨s₀, by simpa using hs₀, List.any_eq_true.2 ⟨f, hf, by simp⟩⟩
    have hmem : s ∈ invokers := by simpa using List.mem_of_find?_eq_some hs
    obtain ⟨f', hf', heq⟩ : ∃ f' ∈ s.functions, f'.name =
        f.name := by simpa using List.find?_some hs
    obtain rfl := hname s hmem f' hf' heq
    simp only [rowOf, hconstructor, invokerOf, hs]
    exact ⟨s, hmem, rfl, hf'⟩

section

variable {d : Description} {filter : Filter}

lemma nodup_included :
    ((Tables.build (.ofDescription d) filter).selection.included.map (·.name)).Nodup := by
  rw [included_build]
  exact (nodup_functions d).sublist (List.filter_sublist.map _)

/-- A function selected was allowed, and no function of its name was skipped. -/
lemma selected_of_mem
    (hf : f ∈ (Tables.build (.ofDescription d) filter).selection.included) :
    filter.allows f.name ∧
      f.name ∉ (Tables.build (.ofDescription d) filter).selection.skipped.map (·.1.name) := by
  rw [included_build, List.mem_filter, Bool.and_eq_true] at hf
  obtain ⟨hf, hallowed, hrepresentable⟩ := hf
  refine ⟨hallowed, fun hskipped => ?_⟩
  obtain ⟨f', hf', hname⟩ :
      ∃ f' ∈ (Tables.build (.ofDescription d) filter).selection.skipped.map Prod.fst,
      f'.name = f.name := by
    simpa using hskipped
  rw [skipped_build, List.mem_filter, Bool.and_eq_true] at hf'
  obtain rfl : f' = f := List.inj_on_of_nodup_map (nodup_functions d) hf'.1 hf hname
  simp [hrepresentable] at hf'

/-- The types that were asked for are those of the parameters of the functions that get invokers. -/
lemma types_build (ix : Index) : GrownBy ix
    (fun c => ∃ f ∈ invoked ix (Tables.build ix filter).selection.included,
      ∃ p ∈ f.params, AskedWith ix p.ctype c) {} (Tables.build ix filter).types := by
  have htypes := congrArg Prod.snd (tables_build ix filter)
  rw [attempt_buildTable] at htypes
  rw [show (Tables.build ix filter).types = _ from htypes]
  refine grownBy_invokersOf 0 (fun g hg c hc c' hasked => ?_) {}
  obtain ⟨f, hf, p, hp, rfl⟩ := mem_args_groupBySignature (List.mem_flatMap.2 ⟨g, hg, hc⟩)
  exact ⟨f, hf, p, hp, hasked⟩

/-- The invokers call the functions that get invokers, each once. -/
lemma functions_build
    (hbuilt : (Tables.build ix filter).invokers = .ok table) :
    (table.invokers.flatMap (·.functions)).Perm
      (invoked ix (Tables.build ix filter).selection.included) := by
  rw [(build_ok hbuilt).1, flatMap_numbered]
  exact groupBySignature_perm _

lemma signatures_build
    (hbuilt : (Tables.build ix filter).invokers = .ok table) :
    (∀ s ∈ table.invokers, ∀ f ∈ s.functions, f.signature = s.signature) ↔
      ∀ f ∈ invoked ix (Tables.build ix filter).selection.included,
        ∀ f' ∈ invoked ix (Tables.build ix filter).selection.included,
          f.signature.key = f'.signature.key → f.signature = f'.signature := by
  have hgroups :=
    wellGrouped_groupBySignature (invoked ix (Tables.build ix filter).selection.included)
  rw [(build_ok hbuilt).1, forall_numbered
    (P := fun s functions => ∀ f ∈ functions, f.signature = s), hgroups.signature_eq_iff]
  simp only [(groupBySignature_perm _).mem_iff]

/-- The tables of an API cover what was selected exactly if something other than constructors was
selected, or the API has no functions at all, and if the keys of the functions selected tell their
signatures apart.  Where only constructors or no functions were selected, every function of the API
gets an invoker. -/
theorem tables_cover_selection_iff (d : Description) (filter : Filter) (table : InvokeTable)
    (hbuilt : (Tables.build (.ofDescription d) filter).invokers = .ok table) :
    Covers (.ofDescription d) filter (Tables.build (.ofDescription d) filter) table ↔
      ((∃ f ∈ (Tables.build (.ofDescription d) filter).selection.included,
          isConstructor f = false) ∨ (Index.ofDescription d).functions = []) ∧
        ∀ f ∈ (Tables.build (.ofDescription d) filter).selection.included.filter (!isConstructor ·),
          ∀ f' ∈ (Tables.build (.ofDescription d) filter).selection.included.filter
            (!isConstructor ·), f.signature.key = f'.signature.key →
            f.signature = f'.signature := by
  have hfunctions := functions_build hbuilt
  have hsignatures := signatures_build hbuilt
  constructor
  · intro h
    have hinvoked := hfunctions.symm.trans h.functions
    have hkeys := hsignatures.1 h.signatures
    simp only [hinvoked.mem_iff] at hkeys
    exact ⟨invoked_perm_iff.1 hinvoked, hkeys⟩
  · rintro ⟨hsome, hkeys⟩
    have hinvoked := invoked_perm_iff.2 hsome
    have hmem : ∀ f, (∃ s ∈ table.invokers, f ∈ s.functions) ↔
        f ∈ (Tables.build (.ofDescription d) filter).selection.included ∧
          isConstructor f = false := by
      intro f
      rw [← List.mem_flatMap, (hfunctions.trans hinvoked).mem_iff, List.mem_filter,
        Bool.not_eq_true']
    have hincluded := fun s hs f hf => ((hmem f).1 ⟨s, hs, hf⟩).1
    refine ⟨?_, hfunctions.trans hinvoked, ?_, ?_, ?_, ?_⟩
    · rw [(build_ok hbuilt).2, List.forall₂_map_left_iff, List.forall₂_same]
      exact fun f hf => rowFor_rowOf (fun hplain => (hmem f).2 ⟨hf, hplain⟩) fun s hs f' hf' =>
        List.inj_on_of_nodup_map nodup_included (hincluded s hs f' hf') hf
    · exact ((hfunctions.trans hinvoked).map _).nodup_iff.2
        (nodup_included.sublist (List.filter_sublist.map _))
    · exact hsignatures.2 (by simpa only [hinvoked.mem_iff] using hkeys)
    · exact fun s hs f hf => selected_of_mem (hincluded s hs f hf)
    · refine (types_build (.ofDescription d)).mono fun c ⟨f, hf, hasked⟩ => ?_
      rw [hinvoked.mem_iff, List.mem_filter, Bool.not_eq_true'] at hf
      exact ⟨f, hf.1, hf.2, hasked⟩

def widgetPointer : TypeNode := .wrap .pointer (.mk .library "lv_obj_t" [] none [] none)

def labelApi : Description where
  functions :=
    [{ name := "lv_label_create", type := some widgetPointer, args := [some widgetPointer] },
     { name := "lv_label_set_text",
       args :=
         [some widgetPointer, some (.wrap .pointer (.mk .primitive "char" [] none [] none))] },
     { name := "lv_obj_clean", args := [some widgetPointer] },
     { name := "lv_obj_invalidate", args := [some widgetPointer] }]

theorem labelApi_tables_cover :
    ∃ table, (Tables.build (.ofDescription labelApi) {}).invokers = .ok table ∧
    Covers (.ofDescription labelApi) {} (Tables.build (.ofDescription labelApi) {}) table := by
  have hsome : (Tables.build (.ofDescription labelApi) {}).selection.included.any
      (!isConstructor ·) := by
    decide +kernel
  have hkeys : ((Tables.build (.ofDescription labelApi) {}).selection.included.filter
      (!isConstructor ·)).all
      fun f => ((Tables.build (.ofDescription labelApi) {}).selection.included.filter
        (!isConstructor ·)).all
        fun f' => f.signature.key != f'.signature.key || f.signature == f'.signature := by
    decide +kernel
  have hbuilt : (Tables.build (.ofDescription labelApi) {}).invokers.toBool := by
    decide +kernel
  cases htable : (Tables.build (.ofDescription labelApi) {}).invokers with
  | error e => simp [htable, Except.toBool] at hbuilt
  | ok table =>
    refine ⟨table, rfl, (tables_cover_selection_iff labelApi {} table htable).2 ⟨.inl ?_, ?_⟩⟩
    · simpa using hsome
    · simpa [or_iff_not_imp_left] using hkeys

def rejectAll : Filter := { unwanted := [.empty] }

/-- Nothing is selected, and yet there are invokers. -/
theorem rejectAll_tables_do_not_cover :
    ∃ table, (Tables.build (.ofDescription labelApi) rejectAll).invokers = .ok table ∧
      ¬ Covers (.ofDescription labelApi) rejectAll
      (Tables.build (.ofDescription labelApi) rejectAll) table := by
  have hnone : (Tables.build (.ofDescription labelApi) rejectAll).selection.included.isEmpty := by
    decide +kernel
  have hbuilt : (Tables.build (.ofDescription labelApi) rejectAll).invokers.toBool := by
    decide +kernel
  cases htable : (Tables.build (.ofDescription labelApi) rejectAll).invokers with
  | error e => simp [htable, Except.toBool] at hbuilt
  | ok table =>
    refine ⟨table, rfl, fun h => ?_⟩
    have hinvoked := invoked_perm_iff.1 ((functions_build htable).symm.trans h.functions)
    rw [List.isEmpty_iff.1 hnone] at hinvoked
    obtain ⟨f, hf, -⟩ | hempty := hinvoked
    · cases hf
    · exact absurd hempty (by decide)

end

/-! ## Readers -/

section

variable {ix : Index} {filter : Filter}

/-- The reader that a type gets when functions have been selected and other types asked for. -/
def readerAfter (ix : Index) (filter : Filter) (earlier : List Bytes) (ctype : Bytes) :
    Option Bytes :=
  (((addAll ix earlier >>= fun _ => TypeTable.add ix ctype).run {}).run
    ((ix.select filter).run []).2).1.1

lemma readerAfter_eq (earlier : List Bytes) (ctype : Bytes) : readerAfter ix filter earlier ctype =
    (after (TypeTable.add ix ctype) (after (addAll ix earlier) {}).2).1 := by
  have hhonest : ((ix.select filter).run []).2.Honest ix [] :=
    (Index.select_honest (honest_nil ix)).2.2
  have hfree : SizeFree ix (addAll ix earlier >>= fun _ => TypeTable.add ix ctype) :=
    (sizeFree_addAll earlier).bind fun _ => sizeFree_add ctype
  rw [readerAfter, (hfree {} _ hhonest).1]
  exact congrArg Prod.fst (after_bind (sizeFree_addAll earlier) (fun _ => sizeFree_add ctype) {})

/-- A type always gets a reader exactly if it can be read on its own account. -/
lemma forall_readerAfter_iff :
    (∀ earlier, (readerAfter ix filter earlier ctype).isSome) ↔ readable ix ctype := by
  constructor
  · intro h
    have hfirst := h []
    rw [readerAfter_eq] at hfirst
    obtain hreadable | ⟨-, hnamed⟩ := ((sound_empty ix).add ctype).served hfirst
    · exact hreadable
    · simp [Named] at hnamed
  · intro hreadable earlier
    have hsettled : Settled ix {} := fun c hc _ => (complete_empty ix).readers c hc
    obtain ⟨⟨done, hsound⟩, hsettled⟩ := (sound_empty ix).addAll hsettled earlier
    rw [readerAfter_eq]
    exact hsound.isSome_add_of_readable hsettled hreadable

/-- A table can be built exactly if the arguments of the invokers get readers in their turn. -/
lemma build_ok_iff : (∃ table, (Tables.build ix filter).invokers = .ok table) ↔
    ServedInOrder ix [] ((groupBySignature (invoked ix
      (Tables.build ix filter).selection.included)).flatMap (·.signature.args)) := by
  have hattempt := congrArg Prod.fst (tables_build ix filter)
  rw [attempt_buildTable] at hattempt
  rw [← (complete_empty ix).invokers_iff 0, show (Tables.build ix filter).invokers =
    _ from hattempt]
  generalize (attempt (invokersOf ix 0 (groupBySignature (invoked ix
    (Tables.build ix filter).selection.included))) {}).1 = r
  cases r with
  | error e => simp [Except.map]
  | ok invokers => simp [Except.map]

/-- A run without a document fails only if its table cannot be built. -/
lemma generate_ok_iff (cfg : Settings) :
    (∃ output, (generate { cfg with ui := none }).1 = .ok output) ↔
    ∃ table, (Tables.build cfg.index cfg.filter).invokers = .ok table := by
  unfold generate
  dsimp only
  cases hbuilt : (Tables.build cfg.index cfg.filter).invokers with
  | error e => simp
  | ok table => simp

/-! ## Types without readers -/

def isUnreadInteger (ix : Index) (ctype : Bytes) : Bool :=
  let info := ix.describe ctype
  !isBase ctype && info.cls == .int && info.ctype.base != "lv_coord_t" && info.ctype.base
    != "lv_opa_t" && (integerReaders.lookup info.prim).isNone

/-- Whether a function may take a type that has no reader: an integer of an unusual spelling, or a
record that has such an integer or a bit field. -/
def isGap (ix : Index) (ctype : Bytes) : Bool :=
  isUnreadInteger ix ctype ||
    (!isBase ctype && isRecord ix ctype &&
      (fieldsOf ix ctype).any fun f => f.isBitField || isUnreadInteger ix (ix.fieldType f))

/-- Besides integers of unusual spellings only records may have no reader. -/
lemma isBase_or_plainReadable (hvoid : (ix.describe ctype).cls ≠ .void)
    (hunknown : (ix.describe ctype).cls ≠ .unknown) (hrecord : isRecord ix ctype = false) :
    (isBase ctype || plainReadable ix ctype) = !isUnreadInteger ix ctype := by
  unfold isRecord at hrecord
  unfold plainReadable isUnreadInteger
  cases hcls : (ix.describe ctype).cls with
  | void => exact absurd hcls hvoid
  | unknown => exact absurd hcls hunknown
  | struct => simp [hcls] at hrecord
  | int => simp [hcls, bne, Bool.or_assoc]
  | _ => simp [hcls]

lemma fieldReadable_eq {f : FieldRecord} (hscalar : ix.isScalarField f) :
    fieldReadable ix f = !(f.isBitField || isUnreadInteger ix (ix.fieldType f)) := by
  rw [fieldReadable, isBase_or_plainReadable ?_ ?_ (isRecord_of_isScalarField hscalar), Bool.not_or]
  · intro hcls
    simp [Index.isScalarField, hcls] at hscalar
  · intro hcls
    simp [Index.isScalarField, hcls] at hscalar

/-- The parameters of functions that can be called have readers, apart from those gaps. -/
lemma readable_param (hf : ix.isRepresentable f) {p : Param} (hp : p ∈ f.params) :
    readable ix p.ctype = !isGap ix p.ctype := by
  obtain ⟨hvoid, hunknown, hsmall⟩ :=
    Index.typeObstacle?_param (Index.typeObstacle?_of_isRepresentable hf hp)
  cases hrecord : isRecord ix p.ctype with
  | false =>
    rw [readable, isBase_or_plainReadable hvoid hunknown hrecord]
    simp [isSmallRecord, isGap, hrecord]
  | true =>
    have hcls : (ix.describe p.ctype).cls = .struct := by simpa [isRecord] using hrecord
    have hsmall := isSmallRecord_of_isSmallStruct hrecord (hsmall hcls)
    have hfields : (fieldsOf ix p.ctype).all (fieldReadable ix) =
        !(fieldsOf ix p.ctype).any fun f => f.isBitField || isUnreadInteger ix
          (ix.fieldType f) := by
      rw [List.not_any_eq_all_not, Bool.eq_iff_iff, List.all_eq_true, List.all_eq_true]
      exact forall₂_congr fun f hf => by
        rw [fieldReadable_eq (isScalarField_of_isSmallRecord hsmall f hf)]
    simp [readable, isGap, plainReadable, isUnreadInteger, hcls, hrecord, hsmall, hfields]

end

/-- What can be called and what can be read agree exactly if no function selected takes a type
without a reader and, where nothing but constructors is selected, the arguments of all functions of
the API get readers in their turn.  They agree if each parameter of a function selected gets a
reader, whatever types were asked for before, and a run without a document succeeds. -/
theorem selection_agrees_with_readers_iff (cfg : Settings) :
    (∀ f ∈ (Tables.build cfg.index cfg.filter).selection.included, ∀ p ∈ f.params, ∀ earlier,
        (readerAfter cfg.index cfg.filter earlier p.ctype).isSome) ∧
      (∃ output, (generate { cfg with ui := none }).1 = .ok output) ↔
    (∀ f ∈ (Tables.build cfg.index cfg.filter).selection.included, ∀ p ∈ f.params,
        isGap cfg.index p.ctype = false) ∧
      ((∀ f ∈ (Tables.build cfg.index cfg.filter).selection.included, isConstructor f) →
        ServedInOrder cfg.index []
          ((groupBySignature cfg.index.functions).flatMap (·.signature.args))) := by
  have hreadable : ∀ f ∈ (Tables.build cfg.index cfg.filter).selection.included, ∀ p ∈ f.params,
      readable cfg.index p.ctype = !isGap cfg.index p.ctype := by
    intro f hf p hp
    rw [included_build, List.mem_filter, Bool.and_eq_true] at hf
    exact readable_param hf.2.2 hp
  simp only [generate_ok_iff, build_ok_iff, forall_readerAfter_iff]
  generalize (Tables.build cfg.index cfg.filter).selection.included = included at *
  have hgap : (∀ f ∈ included, ∀ p ∈ f.params, readable cfg.index p.ctype) ↔
      ∀ f ∈ included, ∀ p ∈ f.params, isGap cfg.index p.ctype = false :=
    forall₂_congr fun f hf => forall₂_congr fun p hp => by simp [hreadable f hf p hp]
  rw [← hgap]
  refine and_congr_right fun hreadable => ?_
  by_cases hall : ∀ f ∈ included, isConstructor f
  · rw [invoked_of_forall hall]
    exact (imp_iff_right hall).symm
  · refine iff_of_true (servedInOrder_of_readable (fun c hc => ?_) []) (fun h => absurd h hall)
    obtain ⟨f, hf, p, hp, rfl⟩ := mem_args_groupBySignature hc
    rw [invoked_of_exists (by simpa using hall)] at hf
    exact hreadable f (List.mem_filter.1 hf).1 p hp

def seekApi : Description where
  functions := [{ name := "lv_seek", args := [some (.mk .primitive "long int" [] none [] none)] }]

/-- The function can be called, but its argument cannot be read, and there is no interpreter at all.
-/
theorem seekApi_run_fails :
    (Tables.build (.ofDescription seekApi) {}).selection.included.map (·.name) = ["lv_seek"] ∧
      ∀ enums, (generate { index := .ofDescription seekApi, enums }).1 =
        .error (.missingReader ⟨"long int", ⟨"void", ["long int"]⟩⟩) := by
  refine ⟨by decide +kernel, fun enums => ?_⟩
  have hfailed : (Tables.build (.ofDescription seekApi) {}).invokers.map (fun _ => ()) =
      .error ⟨"long int", ⟨"void", ["long int"]⟩⟩ := by
    decide +kernel
  cases htable : (Tables.build (.ofDescription seekApi) {}).invokers with
  | ok table => simp [htable, Except.map] at hfailed
  | error m =>
    simp only [htable, Except.map, Except.error.injEq] at hfailed
    simp [generate, htable, hfailed]

end UiCodegen.Interpreter
