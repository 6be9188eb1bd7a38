import UiCodegen.Interpreter.Output
import UiCodegen.Proofs.Readers
import UiCodegen.Proofs.Selection

/-!
# How the invoke table comes about

Invokers are made group by group, and each group asks for readers of its argument types; the first
type without a reader ends the run.  Whether a type has a reader may depend on the types before it,
because records whose readers would have one name share it.  So a run succeeds exactly if each
argument gets a reader in its turn (`Complete.invokers_iff`), and what it leaves behind is known in
either case: the invokers are those of the groups in their order (`invokersOf_ok`), and every type
in the table was asked for (`grownBy_invokersOf`).

Readers of records need the sizes of types.  Sizes found on the way change no answer, so all of this
is stated for runs that begin with no sizes known (`attempt`), and `tables_build` carries it over to
the tables that the interpreter is made from.
-/

namespace UiCodegen.Interpreter

open Api TypeTable

variable {ix : Index} {t : TypeTable} {groups : List SignatureGroup} {i : Nat} {types : List Bytes}
  {P : Bytes → Prop}

/-! ## Attempts -/

section

variable {α β : Type} {steps : ExceptT MissingReader TableM α}
  {next : α → ExceptT MissingReader TableM β}

/-- What steps that may fail come to, and the table behind them. -/
def attempt (steps : ExceptT MissingReader TableM α) (t : TypeTable) :
    Except MissingReader α × TypeTable :=
  after steps.run t

lemma sizeFree_attempt_bind (h : SizeFree ix steps.run)
    (hnext : ∀ a, SizeFree ix (next a).run) : SizeFree ix (steps >>= next).run := by
  rw [ExceptT.run_bind]
  refine h.bind fun r => ?_
  cases r with
  | ok a => exact hnext a
  | error e => exact sizeFree_pure _

/-- A sequence comes to what its second part comes to, unless its first part fails. -/
lemma attempt_bind
    (h : SizeFree ix steps.run) (hnext : ∀ a, SizeFree ix (next a).run) (t : TypeTable) :
    attempt (steps >>= next) t =
      match attempt steps t with
      | (.ok a, t') => attempt (next a) t'
      | (.error e, t') => (.error e, t') := by
  unfold attempt
  rw [ExceptT.run_bind, after_bind h fun r => ?_]
  · generalize after steps.run t = r
    obtain ⟨_ | _, _⟩ := r
    · rfl
    · rfl
  · cases r with
    | ok a => exact hnext a
    | error e => exact sizeFree_pure _

end

/-! ## Arguments -/

lemma run_addArgs_cons (s : Signature) (ctype : Bytes) (rest : List Bytes) :
    (addArgs ix s (ctype :: rest)).run = TypeTable.add ix ctype >>= fun reader =>
      match reader with
      | some _ => (addArgs ix s rest).run
      | none => pure (.error ⟨ctype, s⟩) := by
  conv_lhs => unfold addArgs
  rw [ExceptT.run_bind, ExceptT.run_monadLift, bind_map_left]
  congr

lemma sizeFree_addArgs (s : Signature) (types : List Bytes) :
    SizeFree ix (addArgs ix s types).run := by
  induction types with
  | nil => exact sizeFree_pure _
  | cons ctype rest ih =>
    rw [run_addArgs_cons]
    refine (sizeFree_add ctype).bind fun reader => ?_
    cases reader with
    | none => exact sizeFree_pure _
    | some _ => exact ih

/-- Types are asked for up to the first that has no reader. -/
lemma attempt_addArgs_cons (s : Signature) (ctype : Bytes) (rest : List Bytes) (t : TypeTable) :
    attempt (addArgs ix s (ctype :: rest)) t =
      match after (TypeTable.add ix ctype) t with
      | (some _, t') => attempt (addArgs ix s rest) t'
      | (none, t') => (.error ⟨ctype, s⟩, t') := by
  unfold attempt
  rw [run_addArgs_cons, after_bind (sizeFree_add ctype) fun reader => ?_]
  · generalize after (TypeTable.add ix ctype) t = r
    obtain ⟨_ | _, _⟩ := r
    · rfl
    · rfl
  · cases reader with
    | none => exact sizeFree_pure _
    | some _ => exact sizeFree_addArgs s rest

def ServedInOrder (ix : Index) : (done : List Bytes) → List Bytes → Prop
  | _, [] => True
  | done, ctype :: rest => ServedAfter ix done ctype ∧ ServedInOrder ix (done ++ [ctype]) rest

lemma servedInOrder_append {done front back : List Bytes} : ServedInOrder ix done (front ++ back) ↔
      ServedInOrder ix done front ∧ ServedInOrder ix (done ++ front) back := by
  induction front generalizing done with
  | nil => simp [ServedInOrder]
  | cons ctype rest ih => simp [ServedInOrder, ih, and_assoc]

lemma servedInOrder_of_readable (h : ∀ c ∈ types, readable ix c) (done : List Bytes) :
    ServedInOrder ix done types := by
  induction types generalizing done with
  | nil => trivial
  | cons ctype rest ih => exact ⟨.inl (h ctype (by simp)), ih (fun c hc => h c (by simp [hc])) _⟩

/-- The table of a run that has not failed: the types `done` were asked for, and all have readers.
-/
structure Complete (ix : Index) (done : List Bytes) (t : TypeTable) : Prop where
  sound : Sound ix done t
  readers : ∀ c ∈ t.seen, (t.reader? c).isSome

lemma Complete.add {done : List Bytes} {t : TypeTable} (h : Complete ix done t) (ctype : Bytes) :
    ((after (TypeTable.add ix ctype) t).1.isSome ↔ ServedAfter ix done ctype) ∧
      ((after (TypeTable.add ix ctype) t).1.isSome →
        Complete ix (done ++ [ctype]) (after (TypeTable.add ix ctype) t).2) := by
  have hstep := h.sound.add ctype
  refine ⟨⟨hstep.served, fun hserved => ?_⟩, fun hfound => ⟨?_, fun c hc => ?_⟩⟩
  · by_cases hseen : ctype ∈ t.seen
    · rw [TypeTable.add, after_addWith_seen hseen]
      exact h.readers ctype hseen
    · exact hstep.complete hseen hserved
  · simpa [hfound] using hstep.sound
  · exact (hstep.readers hfound c hc).elim (fun hold => hstep.keeps c (h.readers c hold)) id

/-- The table in which nothing was asked for. -/
lemma complete_empty (ix : Index) : Complete ix [] {} :=
  ⟨sound_empty ix, fun c hc => ((sound_empty ix).base c (by simpa [isBase] using hc)).2⟩

/-- Arguments can be read exactly if each of them gets a reader in its turn. -/
lemma Complete.args_served {done : List Bytes} (h : Complete ix done t) (s : Signature)
    (types : List Bytes) :
    (ServedInOrder ix done types ∧ (attempt (addArgs ix s types) t).1 = .ok () ∧
        Complete ix (done ++ types) (attempt (addArgs ix s types) t).2) ∨
      (¬ ServedInOrder ix done types ∧ ∃ e, (attempt (addArgs ix s types) t).1 = .error e) := by
  induction types generalizing done t with
  | nil => exact .inl ⟨trivial, rfl, (List.append_nil done).symm ▸ h⟩
  | cons ctype rest ih =>
    obtain ⟨hserved, hcomplete⟩ := h.add ctype
    rw [attempt_addArgs_cons]
    generalize after (TypeTable.add ix ctype) t = r at hserved hcomplete ⊢
    obtain ⟨_ | reader, t₁⟩ := r
    · exact .inr ⟨fun hall => by simpa using hserved.2 hall.1, _, rfl⟩
    · have hctype : ServedAfter ix done ctype := hserved.1 rfl
      obtain ⟨hrest, hok, hdone⟩ | ⟨hrest, hfailed⟩ := ih (hcomplete rfl)
      · exact .inl ⟨⟨hctype, hrest⟩, hok, by simpa using hdone⟩
      · exact .inr ⟨fun hall => hrest hall.2, hfailed⟩

lemma grownBy_addArgs (s : Signature) (hP : ∀ c ∈ types, ∀ c', AskedWith ix c c' → P c')
    (t : TypeTable) : GrownBy ix P t (attempt (addArgs ix s types) t).2 := by
  induction types generalizing t with
  | nil => exact .refl P t
  | cons ctype rest ih =>
    have hfirst := (grownBy_add ctype t).mono (hP ctype (by simp))
    rw [attempt_addArgs_cons]
    generalize after (TypeTable.add ix ctype) t = r at hfirst ⊢
    obtain ⟨_ | reader, t₁⟩ := r
    · exact hfirst
    · exact hfirst.trans (ih (fun c hc => hP c (by simp [hc])) t₁)

/-! ## Invokers -/

lemma sizeFree_invokersOf (i : Nat) (groups : List SignatureGroup) :
    SizeFree ix (invokersOf ix i groups).run := by
  induction groups generalizing i with
  | nil => exact sizeFree_pure _
  | cons g rest ih =>
    exact sizeFree_attempt_bind (sizeFree_addArgs _ _) fun _ =>
      sizeFree_attempt_bind (ih (i + 1)) fun _ => sizeFree_pure _

/-- The arguments of a group are asked for, and then those of the others. -/
lemma attempt_invokersOf_cons (i : Nat) (g : SignatureGroup) (rest : List SignatureGroup)
    (t : TypeTable) : attempt (invokersOf ix i (g :: rest)) t =
      match attempt (addArgs ix g.signature g.signature.args) t with
      | (.error e, t') => (.error e, t')
      | (.ok (), t') =>
        ((attempt (invokersOf ix (i + 1) rest) t').1.map (invokerFor ix i g :: ·),
          (attempt (invokersOf ix (i + 1) rest) t').2) := by
  have hpure : ∀ others : List Invoker,
      SizeFree ix (pure (invokerFor ix i g :: others) : ExceptT MissingReader TableM
        (List Invoker)).run :=
    fun _ => sizeFree_pure _
  have hrest : SizeFree ix (invokersOf ix (i + 1) rest).run := sizeFree_invokersOf (i + 1) rest
  conv_lhs => unfold invokersOf
  rw [attempt_bind (sizeFree_addArgs _ _) fun _ => sizeFree_attempt_bind hrest hpure]
  generalize attempt (addArgs ix g.signature g.signature.args) t = r
  obtain ⟨_ | _, t₁⟩ := r
  · rfl
  · dsimp only
    rw [attempt_bind hrest hpure]
    generalize attempt (invokersOf ix (i + 1) rest) t₁ = r
    obtain ⟨_ | _, _⟩ := r
    · rfl
    · rfl

/-- The invokers of groups, numbered from `i` on. -/
def numbered (ix : Index) (i : Nat) (groups : List SignatureGroup) : List Invoker :=
  (groups.zipIdx i).map fun (g, j) => invokerFor ix j g

lemma flatMap_numbered (ix : Index) (i : Nat) (groups : List SignatureGroup) :
    (numbered ix i groups).flatMap (·.functions) = grouped groups := by
  induction groups generalizing i with
  | nil => rfl
  | cons g rest ih => exact congrArg (g.functions ++ ·) (ih (i + 1))

lemma forall_numbered {P : Signature → List FunctionInfo → Prop} :
    (∀ s ∈ numbered ix i groups, P s.signature s.functions) ↔ ∀ g ∈ groups,
    P g.signature g.functions := by
  induction groups generalizing i with
  | nil => simp [numbered]
  | cons g rest ih =>
    have hcons : numbered ix i (g :: rest) = invokerFor ix i g :: numbered ix (i + 1) rest := rfl
    simp [hcons, ih, invokerFor]

/-- Invokers can be made exactly if each argument gets a reader in its turn. -/
lemma Complete.invokers_iff {done : List Bytes} (h : Complete ix done t) (i : Nat)
    (groups : List SignatureGroup) :
    (∃ invokers, (attempt (invokersOf ix i groups) t).1 = .ok invokers) ↔
      ServedInOrder ix done (groups.flatMap (·.signature.args)) := by
  induction groups generalizing done t i with
  | nil => exact ⟨fun _ => trivial, fun _ => ⟨[], rfl⟩⟩
  | cons g rest ih =>
    have hargs := h.args_served g.signature g.signature.args
    rw [attempt_invokersOf_cons, List.flatMap_cons, servedInOrder_append]
    generalize attempt (addArgs ix g.signature g.signature.args) t = r at hargs ⊢
    obtain ⟨e | _, t₁⟩ := r
    · obtain ⟨-, hok, -⟩ | ⟨hnot, -⟩ := hargs
      · cases hok
      · simp [hnot]
    · obtain ⟨hserved, -, hcomplete⟩ | ⟨-, e, he⟩ := hargs
      · rw [← ih hcomplete (i + 1)]
        cases hothers : (attempt (invokersOf ix (i + 1) rest) t₁).1 with
        | error e => simp [hothers, Except.map]
        | ok others => simp [hothers, Except.map, hserved]
      · cases he

lemma invokersOf_ok {invokers : List Invoker}
    (h : (attempt (invokersOf ix i groups) t).1 = .ok invokers) :
    invokers = numbered ix i groups := by
  induction groups generalizing i t invokers with
  | nil =>
    cases h
    rfl
  | cons g rest ih =>
    rw [attempt_invokersOf_cons] at h
    generalize attempt (addArgs ix g.signature g.signature.args) t = r at h
    obtain ⟨e | _, t₁⟩ := r
    · cases h
    · cases hothers : (attempt (invokersOf ix (i + 1) rest) t₁).1 with
      | error e => simp [hothers, Except.map] at h
      | ok others =>
        simp only [hothers, Except.map, Except.ok.injEq] at h
        rw [← h, ih hothers]
        rfl

lemma grownBy_invokersOf (i : Nat)
    (hP : ∀ g ∈ groups, ∀ c ∈ g.signature.args, ∀ c', AskedWith ix c c' → P c') (t : TypeTable) :
    GrownBy ix P t (attempt (invokersOf ix i groups) t).2 := by
  induction groups generalizing i t with
  | nil => exact .refl P t
  | cons g rest ih =>
    have hfirst := grownBy_addArgs g.signature (hP g (by simp)) t
    rw [attempt_invokersOf_cons]
    generalize attempt (addArgs ix g.signature g.signature.args) t = r at hfirst ⊢
    obtain ⟨e | _, t₁⟩ := r
    · exact hfirst
    · exact hfirst.trans (ih (i + 1) (fun g' hg' => hP g' (by simp [hg'])) t₁)

/-! ## The tables of an API -/

section

variable {filter : Filter}

lemma sizeFree_buildTable (functions : List FunctionInfo) :
    SizeFree ix (buildTable ix functions).run :=
  sizeFree_attempt_bind (sizeFree_invokersOf _ _) fun _ => sizeFree_pure _

lemma attempt_buildTable (functions : List FunctionInfo) (t : TypeTable) :
      attempt (buildTable ix functions) t =
      ((attempt (invokersOf ix 0 (groupBySignature (invoked ix functions))) t).1.map fun invokers =>
          { invokers, rows := functions.map (rowOf ix invokers),
            creates := functions.any isConstructor },
        (attempt (invokersOf ix 0 (groupBySignature (invoked ix functions))) t).2) := by
  have hpure : ∀ invokers : List Invoker, SizeFree ix (pure
      { invokers, rows := functions.map (rowOf ix invokers),
        creates := functions.any isConstructor } :
        ExceptT MissingReader TableM InvokeTable).run :=
    fun _ => sizeFree_pure _
  unfold buildTable
  rw [attempt_bind (sizeFree_invokersOf _ _) hpure]
  generalize attempt (invokersOf ix 0 (groupBySignature (invoked ix functions))) t = r
  obtain ⟨_ | _, _⟩ := r
  · rfl
  · rfl

/-- The functions that a filter includes, in the order of the API. -/
lemma included_build : (Tables.build ix filter).selection.included =
    ix.functions.filter fun f => filter.allows f.name && ix.isRepresentable f :=
  (Index.select_honest (honest_nil ix)).1

lemma skipped_build : (Tables.build ix filter).selection.skipped.map Prod.fst =
    ix.functions.filter fun f => filter.allows f.name && !ix.isRepresentable f :=
  (Index.select_honest (honest_nil ix)).2.1

/-- The sizes that were found while functions were selected do not show in the tables. -/
lemma tables_build (ix : Index) (filter : Filter) :
    ((Tables.build ix filter).invokers, (Tables.build ix filter).types) =
    attempt (buildTable ix (Tables.build ix filter).selection.included) {} := by
  have hhonest : ((ix.select filter).run []).2.Honest ix [] :=
    (Index.select_honest (honest_nil ix)).2.2
  exact (sizeFree_buildTable _ {} _ hhonest).1

/-- A table that was built has the invokers of the groups and a row for each function selected. -/
lemma build_ok {table : InvokeTable} (h : (Tables.build ix filter).invokers = .ok table) :
    table.invokers = numbered ix 0
        (groupBySignature (invoked ix (Tables.build ix filter).selection.included)) ∧
      table.rows = (Tables.build ix filter).selection.included.map (rowOf ix table.invokers) := by
  have hattempt := congrArg Prod.fst (tables_build ix filter)
  rw [attempt_buildTable, h] at hattempt
  cases hinvokers : (attempt (invokersOf ix 0
      (groupBySignature (invoked ix (Tables.build ix filter).selection.included))) {}).1 with
  | error e => simp [hinvokers, Except.map] at hattempt
  | ok invokers =>
    simp only [hinvokers, Except.map, Except.ok.injEq] at hattempt
    subst hattempt
    exact ⟨invokersOf_ok hinvokers, rfl⟩

end

end UiCodegen.Interpreter
