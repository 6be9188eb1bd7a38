import UiCodegen.Proofs.Readers

/-!
# The names of readers

A reader that is made for an enum type or a record is named after the type, and it is made once for
each name. Names are in small letters with underscores, so two types can have the same one: then both have
a row, and both rows name the reader that was made for the type that came first.

For every table that is filled from the start this file says that no two rows are for the same type,
that a reader named by a row is made exactly once, and that it is made for the type of the row
unless the names of two types fall together (`TypeTable.readers_unshared_iff`).

A record is looked at while the types of its fields enter the table, and a reader is made before its
row is there. The invariant `Consistent` therefore lists the readers that still wait for their row;
every step that is over leaves none.
-/

namespace UiCodegen.Interpreter

open Api

variable {ctype : Bytes} {row : TypeRow} {reader : Option Bytes}

/-! ## Steps, whatever sizes are known -/

section

variable {α β : Type} {t : TypeTable} {P : α → TypeTable → Prop} {Q : β → TypeTable → Prop}

/-- What is true of the value of a step and the table behind it, whatever sizes are known before. -/
def Leaves (step : TableM α) (t : TypeTable) (P : α → TypeTable → Prop) : Prop :=
  ∀ sizes, P ((step.run t).run sizes).1.1 ((step.run t).run sizes).1.2

lemma leaves_pure {a : α} (h : P a t) : Leaves (pure a) t P := fun _ => h

lemma Leaves.bind {step : TableM α} {next : α → TableM β} (h : Leaves step t P)
    (hnext : ∀ a t', P a t' → Leaves (next a) t' Q) : Leaves (step >>= next) t Q :=
  fun sizes => hnext _ _ (h sizes) _

lemma leaves_get_bind {next : TypeTable → TableM β} (h : Leaves (next t) t Q) :
    Leaves (get >>= next) t Q := h

lemma leaves_modify_bind {f : TypeTable → TypeTable} {next : Unit → TableM β}
    (h : Leaves (next ()) (f t) Q) : Leaves (modify f >>= next) t Q := h

lemma leaves_query_bind {query : StateM Sizes α} {next : α → TableM β}
    (h : ∀ a, Leaves (next a) t Q) : Leaves ((query : TableM α) >>= next) t Q :=
  fun _ => h _ _

end

namespace TypeTable

variable {ix : Index} {t t' t'' : TypeTable}

/-! ## The invariant -/

def made (t : TypeTable) : List (Bytes × Bytes) :=
  t.enums.map (fun r => (r.function, r.ctype)) ++ t.records.map (fun r => (r.function, r.ctype))

def isEnumReader (reader : Bytes) : Bool := Bytes.startsWith reader "unmarshal_enum_"

def isMadeReader (reader : Bytes) :
    Bool := isEnumReader reader || Bytes.startsWith reader "unmarshal_struct_"

def enumFunction (name : Bytes) : Bytes := "unmarshal_enum_" ++ C.identifier name

/-- The type that a reader is made for: qualifiers do not count. -/
def ownType (ix : Index) (ctype : Bytes) : Bytes := (ix.describe ctype).ctype.unqualified.text

def NamedAfter (ix : Index) (ctype reader : Bytes) : Prop :=
  ((ix.describe ctype).cls = .enum ∧ reader = enumFunction (ownType ix ctype)) ∨
  ((ix.describe ctype).cls = .struct ∧ reader = recordFunction (ownType ix ctype))

/-- What is true of every table, but for the readers that wait for a row. -/
structure Consistent (ix : Index) (waiting : List (Bytes × Bytes)) (t : TypeTable) : Prop where
  rows_seen : ∀ row ∈ t.rows, row.ctype ∈ t.seen
  rows_nodup : (t.rows.map (·.ctype)).Nodup
  mem_defined : ∀ name, name ∈ t.defined ↔ name ∈ t.made.map Prod.fst
  made_nodup : (t.made.map Prod.fst).Nodup
  row_made : ∀ row ∈ t.rows, isMadeReader row.reader → row.reader ∈ t.defined ∧
    NamedAfter ix row.ctype row.reader
  made_row : ∀ d ∈ t.made, d ∈ waiting ∨ ∃ row ∈ t.rows, row.reader = d.1 ∧
    ownType ix row.ctype = d.2

/-- No row is added for a type that was asked for, and the readers that are made have these names.
-/
structure Extends (P : Bytes → Prop) (t t' : TypeTable) : Prop where
  seen : ∀ c ∈ t.seen, c ∈ t'.seen
  rows : ∀ c ∈ t.seen, c ∈ t'.rows.map (·.ctype) → c ∈ t.rows.map (·.ctype)
  defined : ∀ name ∈ t'.defined, name ∈ t.defined ∨ P name

namespace Extends

variable {P Q : Bytes → Prop}

lemma refl (P : Bytes → Prop) (t : TypeTable) : Extends P t t :=
  ⟨fun _ => id, fun _ _ => id, fun _ => .inl⟩

lemma trans (h : Extends P t t') (h' : Extends P t' t'') : Extends P t t'' where
  seen c hc := h'.seen c (h.seen c hc)
  rows c hc hrow := h.rows c hc (h'.rows c (h.seen c hc) hrow)
  defined name hname := (h'.defined name hname).elim (h.defined name) .inr

lemma mono (hPQ : ∀ name, P name → Q name) (h : Extends P t t') : Extends Q t t' :=
  ⟨h.seen, h.rows, fun name hname => (h.defined name hname).imp_right (hPQ name)⟩

end Extends

/-- What the search for a reader leaves: the reader waits for the row of the type. -/
structure Found (ix : Index) (P : Bytes → Prop) (ctype : Bytes) (t : TypeTable)
    (reader : Option Bytes) (t' : TypeTable) : Prop where
  grown : Extends P t t'
  consistent : Consistent ix (reader.map (·, ownType ix ctype)).toList t'
  named : ∀ r ∈ reader, isMadeReader r → r ∈ t'.defined ∧ NamedAfter ix ctype r

namespace Consistent

variable {waiting : List (Bytes × Bytes)}

lemma initial (ix : Index) : Consistent ix [] {} where
  rows_seen _ := List.mem_map_of_mem
  rows_nodup := by decide +kernel
  mem_defined _ := .rfl
  made_nodup := .nil
  row_made row hrow hmade := by
    have hbase : ∀ row ∈ baseRows, isMadeReader row.reader = false := by decide +kernel
    rw [hbase row hrow] at hmade
    exact absurd hmade (by decide)
  made_row _ hd := absurd hd List.not_mem_nil

lemma wait (h : Consistent ix [] t) : Consistent ix waiting t :=
  { h with made_row := fun d hd => .inr ((h.made_row d hd).resolve_left List.not_mem_nil) }

lemma marked (h : Consistent ix waiting t) (ctype : Bytes) :
    Consistent ix waiting (t.marked ctype) :=
  { h with rows_seen := fun row hrow => .tail _ (h.rows_seen row hrow) }

/-- A reader of a new name waits for its row when it is made. -/
lemma make {name own : Bytes} (h : Consistent ix [] t) (hname : name ∉ t.defined)
    (hrows : t'.rows = t.rows)
    (hseen : t'.seen = t.seen) (hdefined : t'.defined = name :: t.defined)
    (hmade : t'.made.Perm ((name, own) :: t.made)) : Consistent ix [(name, own)] t' where
  rows_seen := by
    rw [hrows, hseen]
    exact h.rows_seen
  rows_nodup := by
    rw [hrows]
    exact h.rows_nodup
  mem_defined other := by
    rw [hdefined, (hmade.map Prod.fst).mem_iff, List.map_cons, List.mem_cons, List.mem_cons,
      h.mem_defined]
  made_nodup := by
    rw [(hmade.map Prod.fst).nodup_iff, List.map_cons, List.nodup_cons, ← h.mem_defined]
    exact ⟨hname, h.made_nodup⟩
  row_made row hrow hreader := by
    rw [hrows] at hrow
    rw [hdefined]
    exact (h.row_made row hrow hreader).imp_left (.tail _)
  made_row d hd := by
    rw [hrows]
    rcases List.mem_cons.1 (hmade.mem_iff.1 hd) with rfl | hd
    · exact .inl (List.mem_singleton.2 rfl)
    · exact .inr ((h.made_row d hd).resolve_left List.not_mem_nil)

end Consistent

lemma withRow_none (t : TypeTable) (ctype : Bytes) : t.withRow ctype none = t := by
  simp [withRow]

/-- The row of a type that has none ends the wait of its reader. -/
lemma Found.consistent_withRow {P : Bytes → Prop}
    (h : Found ix P ctype t reader t') (hseen : ctype ∈ t'.seen)
    (hrow : ctype ∉ t'.rows.map (·.ctype)) :
    Consistent ix [] (t'.withRow ctype reader) := by
  have hconsistent := h.consistent
  have hnamed := h.named
  cases reader with
  | none =>
    rw [withRow_none]
    exact hconsistent
  | some reader =>
    have hrows : (t'.withRow ctype (some reader)).rows = t'.rows ++ [⟨ctype, reader⟩] := rfl
    refine ⟨fun row hmem => ?_, ?_, hconsistent.mem_defined, hconsistent.made_nodup,
      fun row hmem hreader => ?_, fun d hd => .inr ?_⟩
    · rcases List.mem_append.1 hmem with hmem | hmem
      · exact hconsistent.rows_seen row hmem
      · rw [List.mem_singleton.1 hmem]
        exact hseen
    · rw [hrows, List.map_append, List.nodup_append]
      refine ⟨hconsistent.rows_nodup, List.nodup_singleton _, fun c hc c' hc' heq => hrow ?_⟩
      have hlast : c' = ctype := List.mem_singleton.1 hc'
      rw [← hlast, ← heq]
      exact hc
    · rcases List.mem_append.1 hmem with hmem | hmem
      · exact hconsistent.row_made row hmem hreader
      · rw [List.mem_singleton.1 hmem] at hreader ⊢
        exact hnamed reader rfl hreader
    · rcases hconsistent.made_row d hd with hd | ⟨row, hmem, heq⟩
      · rw [List.mem_singleton.1 hd]
        exact ⟨⟨ctype, reader⟩, List.mem_append_right _ (.head _), rfl, rfl⟩
      · exact ⟨row, List.mem_append_left _ hmem, heq⟩

/-! ## Step by step -/

section

variable {P : Bytes → Prop} {ctype : Bytes}

/-- A type enters a consistent table, if the search for its reader leaves one. -/
lemma leaves_addWith {make : Bytes → TableM (Option Bytes)}
    (hmake : ∀ t, Consistent ix [] t → Leaves (make ctype) t (Found ix P ctype t))
    (h : Consistent ix [] t) :
    Leaves (addWith make ctype) t fun _ t' => Extends P t t' ∧ Consistent ix [] t' := by
  refine leaves_get_bind ?_
  split
  case isTrue hseen => exact leaves_get_bind (leaves_pure ⟨.refl P t, h⟩)
  case isFalse hseen =>
    have hnew : ctype ∉ t.seen := by simpa using hseen
    have hnone : ctype ∉ t.rows.map (·.ctype) := by
      intro hrow
      obtain ⟨row, hmem, heq⟩ := List.mem_map.1 hrow
      exact hnew (heq ▸ h.rows_seen row hmem)
    refine leaves_modify_bind
      ((hmake (t.marked ctype) (h.marked ctype)).bind fun reader t' hfound => ?_)
    have hnone' : ctype ∉ t'.rows.map (·.ctype) :=
      fun hrow => hnone (hfound.grown.rows ctype (.head _) hrow)
    have hconsistent := hfound.consistent_withRow (hfound.grown.seen ctype (.head _)) hnone'
    have hgrown : Extends P t (t'.withRow ctype reader) := by
      refine ⟨fun c hc => hfound.grown.seen c (.tail _ hc), fun c hc hrow =>
        ?_, hfound.grown.defined⟩
      rw [TypeTable.withRow, List.map_append, List.mem_append] at hrow
      rcases hrow with hrow | hrow
      · exact hfound.grown.rows c (.tail _ hc) hrow
      · obtain ⟨row, hmem, rfl⟩ := List.mem_map.1 hrow
        obtain ⟨_, -, rfl⟩ := Option.map_eq_some_iff.1 (Option.mem_toList.1 hmem)
        exact absurd hc hnew
    cases reader with
    | none =>
      rw [withRow_none] at hgrown hconsistent
      exact leaves_pure ⟨hgrown, hconsistent⟩
    | some reader => exact leaves_modify_bind (leaves_pure ⟨hgrown, hconsistent⟩)

/-- A reader that is always there waits for nothing. -/
lemma Found.fixed (h : Consistent ix [] t)
    (hreader : ∀ r ∈ reader, isMadeReader r = false) : Found ix P ctype t reader t := by
  refine ⟨.refl P t, h.wait, fun r hr hmade => ?_⟩
  rw [hreader r hr] at hmade
  exact absurd hmade (by decide)

lemma isEnumReader_enumFunction (name : Bytes) : isEnumReader (enumFunction name) = true := by
  rw [isEnumReader, enumFunction, Bytes.startsWith]
  simp

lemma isEnumReader_recordFunction (name : Bytes) : isEnumReader (recordFunction name) = false := by
  cbv

/-- The reader of an enum type waits for a row of the type, or was made under the same name before.
-/
lemma leaves_enumReader (henum : (ix.describe ctype).cls = .enum) (h : Consistent ix [] t) :
    Leaves (enumReader (ix.describe ctype)) t fun reader t' =>
      Found ix (isEnumReader ·) ctype t (some reader) t' := by
  have hnamed : NamedAfter ix ctype (enumFunction (ownType ix ctype)) := .inl ⟨henum, rfl⟩
  refine leaves_get_bind ?_
  split
  case isTrue hnew =>
    have hnew : enumFunction (ownType ix ctype) ∉ t.defined := by
      simpa [enumFunction, ownType] using hnew
    refine leaves_modify_bind (leaves_pure ⟨⟨fun _ => id, fun _ _ => id, fun name hname => ?_⟩,
      h.make hnew rfl rfl rfl ?_, fun r hr _ => ?_⟩)
    · rcases List.mem_cons.1 hname with rfl | hname
      · exact .inr (isEnumReader_enumFunction _)
      · exact .inl hname
    · simp only [made, List.map_append, List.append_assoc]
      exact List.perm_middle
    · cases hr
      exact ⟨.head _, hnamed⟩
  case isFalse hold =>
    have hold : enumFunction (ownType ix ctype) ∈
        t.defined := by simpa [enumFunction, ownType] using hold
    refine leaves_pure ⟨.refl _ t, h.wait, fun r hr _ => ?_⟩
    cases hr
    exact ⟨hold, hnamed⟩

lemma isMadeReader_integerReaders {prim reader : Bytes}
    (h : integerReaders.lookup prim = some reader) : isMadeReader reader = false := by
  have hall : ∀ p ∈ integerReaders, isMadeReader p.2 = false := by decide +kernel
  obtain ⟨before, behind, heq, -⟩ := List.lookup_eq_some_iff.1 h
  exact hall (prim, reader) (heq ▸ List.mem_append_right before (.head behind))

/-- Looking for a reader of a type that is no record makes readers of enums only. -/
lemma leaves_plainReader (ctype : Bytes) (h : Consistent ix [] t) :
    Leaves (plainReader ix ctype) t (Found ix (isEnumReader ·) ctype t) := by
  have hfixed : ∀ reader : Bytes, isMadeReader reader = false →
      Leaves (pure (some reader)) t (Found ix (isEnumReader ·) ctype t) :=
    fun reader hreader => leaves_pure (.fixed h fun r hr => by cases hr; exact hreader)
  unfold plainReader
  dsimp only
  cases hclass : (ix.describe ctype).cls with
  | int =>
    dsimp only
    split
    · exact hfixed _ (by decide +kernel)
    split
    · exact hfixed _ (by decide +kernel)
    · exact leaves_pure (.fixed h fun _ => isMadeReader_integerReaders)
  | enum => exact (leaves_enumReader hclass h).bind fun _ _ hfound => leaves_pure hfound
  | float | pointer | functionPointer =>
    refine hfixed _ ?_
    split <;> decide +kernel
  | bool | color | string | coordArray => exact hfixed _ (by decide +kernel)
  | unknown | void | struct => exact leaves_pure (.fixed h fun _ hr => by cases hr)

/-- The fields of a record are asked for one after the other, up to the first that has no reader. -/
lemma leaves_fieldRows? (fields : List FieldRecord) (h : Consistent ix [] t) :
    Leaves (fieldRows? ix fields) t fun _ t' =>
      Extends (isEnumReader ·) t t' ∧ Consistent ix [] t' := by
  induction fields generalizing t with
  | nil => exact leaves_pure ⟨.refl _ t, h⟩
  | cons f rest ih =>
    unfold fieldRows?
    split
    · exact leaves_pure ⟨.refl _ t, h⟩
    refine (leaves_addWith (fun _ => leaves_plainReader _) h).bind fun reader t₁ hfirst => ?_
    obtain ⟨hgrown, h₁⟩ := hfirst
    cases reader with
    | none => exact leaves_pure ⟨hgrown, h₁⟩
    | some _ =>
      refine (ih h₁).bind fun rows t₂ hrest => ?_
      obtain ⟨hgrown', h₂⟩ := hrest
      cases rows with
      | none | some _ => exact leaves_pure ⟨hgrown.trans hgrown', h₂⟩

/-- The reader of a record waits for a row of the type, or was made under the same name before. -/
lemma leaves_fieldsReader? (hrecord : (ix.describe ctype).cls = .struct) (fields : List FieldRecord)
    (h : Consistent ix [] t) :
    Leaves (fieldsReader? ix (ownType ix ctype) fields) t (Found ix (fun _ => True) ctype t) := by
  have hnamed : NamedAfter ix ctype (recordFunction (ownType ix ctype)) := .inr ⟨hrecord, rfl⟩
  refine leaves_get_bind ?_
  split
  case isTrue hold =>
    have hold : recordFunction (ownType ix ctype) ∈ t.defined := by simpa using hold
    refine leaves_pure ⟨.refl _ t, h.wait, fun r hr _ => ?_⟩
    cases hr
    exact ⟨hold, hnamed⟩
  case isFalse hnew =>
    have hnew : recordFunction (ownType ix ctype) ∉ t.defined := by simpa using hnew
    refine (leaves_fieldRows? fields h).bind fun rows t₁ hfields => ?_
    obtain ⟨hgrown, h₁⟩ := hfields
    have hgrown' : Extends (fun _ => True) t t₁ := hgrown.mono fun _ _ => trivial
    cases rows with
    | none => exact leaves_pure ⟨hgrown', h₁, fun _ hr => by cases hr⟩
    | some rows =>
      -- the readers made for the fields are readers of enums, so the name is still free
      have hfree : recordFunction (ownType ix ctype) ∉ t₁.defined := by
        intro hmem
        rcases hgrown.defined _ hmem with hmem | hmem
        · exact hnew hmem
        · rw [isEnumReader_recordFunction] at hmem
          exact absurd hmem (by decide)
      refine leaves_modify_bind (leaves_pure ⟨⟨hgrown'.seen, hgrown'.rows, fun _ _ => .inr trivial⟩,
        h₁.make hfree rfl rfl rfl ?_, fun r hr _ => ?_⟩)
      · simp only [made, List.map_append, ← List.append_assoc]
        exact List.perm_append_singleton _ _
      · cases hr
        exact ⟨.head _, hnamed⟩

lemma leaves_makeReader (ctype : Bytes) (h : Consistent ix [] t) :
    Leaves (makeReader ix ctype) t (Found ix (fun _ => True) ctype t) := by
  have hnone : Found ix (fun _ => True) ctype t none t := .fixed h fun _ hr => by cases hr
  unfold makeReader
  dsimp only
  split
  case isTrue hrecord =>
    unfold recordReader?
    split
    · exact leaves_pure hnone
    refine leaves_query_bind fun isSmall => ?_
    split
    · exact leaves_fieldsReader? (by simpa using hrecord) _ h
    · exact leaves_pure hnone
  case isFalse =>
    intro sizes
    have hfound := leaves_plainReader ctype h sizes
    exact ⟨hfound.grown.mono fun _ _ => trivial, hfound.consistent, hfound.named⟩

/-- Whatever is asked for, in any order, the table stays consistent. -/
lemma leaves_addAll (types : List Bytes) (h : Consistent ix [] t) :
    Leaves (addAll ix types) t fun _ t' => Consistent ix [] t' := by
  induction types generalizing t with
  | nil => exact leaves_pure h
  | cons ctype rest ih =>
    exact (leaves_addWith (fun _ => leaves_makeReader ctype) h).bind fun _ _ hstep => ih hstep.2

end

/-! ## Shared readers -/

/-- The table in which these types were asked for, one after the other. -/
def filled (ix : Index) (sizes : Sizes) (types : List Bytes) : TypeTable :=
  (((addAll ix types).run {}).run sizes).1.2

/-- Every reader that a row names is made once, for the type of the row, and is the reader of no
other type. -/
structure Unshared (ix : Index) (t : TypeTable) : Prop where
  made_own : ∀ row ∈ t.rows, isMadeReader row.reader →
    t.made.filter (·.1 == row.reader) = [(row.reader, ownType ix row.ctype)]
  own_type : ∀ row ∈ t.rows, ∀ other ∈ t.rows, isMadeReader row.reader → row.reader = other.reader →
    ownType ix row.ctype = ownType ix other.ctype

def IdentifiersApart (ix : Index) (t : TypeTable) : Prop :=
  ∀ row ∈ t.rows, ∀ other ∈ t.rows, isMadeReader row.reader → isMadeReader other.reader →
    (ix.describe row.ctype).cls = (ix.describe other.ctype).cls →
    C.identifier (ownType ix row.ctype) = C.identifier (ownType ix other.ctype) →
    ownType ix row.ctype = ownType ix other.ctype

/-- Readers that are named after types have the same name just if the types are of one class and
fall together. -/
lemma NamedAfter.eq_iff {other reader reader' : Bytes} (h : NamedAfter ix ctype reader)
    (h' : NamedAfter ix other reader') :
    reader = reader' ↔ (ix.describe ctype).cls = (ix.describe other).cls ∧
      C.identifier (ownType ix ctype) = C.identifier (ownType ix other) := by
  rcases h with ⟨hclass, rfl⟩ | ⟨hclass, rfl⟩ <;> rcases h' with ⟨hclass', rfl⟩ | ⟨hclass', rfl⟩ <;>
    rw [hclass, hclass']
  · simp [enumFunction]
  · exact iff_of_false (recordFunction_ne_enum _ _).symm (by simp)
  · exact iff_of_false (recordFunction_ne_enum _ _) (by simp)
  · simp [recordFunction]

namespace Consistent

/-- A reader that a row names is made exactly once. -/
lemma count_made (h : Consistent ix [] t) (hrow : row ∈ t.rows) (hmade : isMadeReader row.reader) :
    (t.made.map Prod.fst).count row.reader = 1 :=
  List.count_eq_one_of_mem h.made_nodup ((h.mem_defined _).1 (h.row_made row hrow hmade).1)

lemma exists_row_of_made (h : Consistent ix [] t) (hrow : row ∈ t.rows)
    (hmade : isMadeReader row.reader) : ∃ first ∈ t.rows, first.reader = row.reader ∧
      t.made.filter (·.1 == row.reader) = [(row.reader, ownType ix first.ctype)] := by
  have hlength : (t.made.filter (·.1 == row.reader)).length = 1 := by
    have hcount := h.count_made hrow hmade
    rwa [List.count_eq_countP, List.countP_map, List.countP_eq_length_filter] at hcount
  obtain ⟨d, hd⟩ := List.length_eq_one_iff.1 hlength
  have hd' : d ∈ t.made.filter (·.1 == row.reader) := hd ▸ List.mem_singleton_self d
  obtain ⟨hmem, hname⟩ := List.mem_filter.1 hd'
  have hname : d.1 = row.reader := by simpa using hname
  obtain ⟨first, hfirst, hreader, hown⟩ := (h.made_row d hmem).resolve_left List.not_mem_nil
  refine ⟨first, hfirst, hreader.trans hname, ?_⟩
  rw [hd, hown, ← hname]

lemma reader_eq_iff (h : Consistent ix [] t) {other : TypeRow} (hrow : row ∈ t.rows)
    (hother : other ∈ t.rows)
    (hmade : isMadeReader row.reader) (hmade' : isMadeReader other.reader) :
    row.reader = other.reader ↔ (ix.describe row.ctype).cls = (ix.describe other.ctype).cls ∧
      C.identifier (ownType ix row.ctype) = C.identifier (ownType ix other.ctype) :=
  (h.row_made row hrow hmade).2.eq_iff (h.row_made other hother hmade').2

lemma unshared_iff (h : Consistent ix [] t) : Unshared ix t ↔ IdentifiersApart ix t := by
  constructor
  · intro hunshared row hrow other hother hmade hmade' hclass hidentifier
    have hsame : row.reader = other.reader :=
      (h.reader_eq_iff hrow hother hmade hmade').2 ⟨hclass, hidentifier⟩
    exact hunshared.own_type row hrow other hother hmade hsame
  · intro hapart
    have hown : ∀ row ∈ t.rows, ∀ other ∈ t.rows, isMadeReader row.reader → row.reader =
        other.reader → ownType ix row.ctype = ownType ix other.ctype := by
      intro row hrow other hother hmade hsame
      have hmade' : isMadeReader other.reader := hsame ▸ hmade
      obtain ⟨hclass, hidentifier⟩ := (h.reader_eq_iff hrow hother hmade hmade').1 hsame
      exact hapart row hrow other hother hmade hmade' hclass hidentifier
    refine ⟨fun row hrow hmade => ?_, hown⟩
    obtain ⟨first, hfirst, hreader, hfilter⟩ := h.exists_row_of_made hrow hmade
    rw [hfilter, hown row hrow first hfirst hmade hreader.symm]

end Consistent

/-- Whatever is asked for, no two rows are for the same type, and a reader that a row names is made
exactly once. It is made for the type of the row, and no two types share a reader, unless two types
fall together as identifiers. -/
theorem readers_unshared_iff (ix : Index) (sizes : Sizes) (types : List Bytes) :
    ((filled ix sizes types).rows.map (·.ctype)).Nodup ∧
    (∀ row ∈ (filled ix sizes types).rows, isMadeReader row.reader →
      ((filled ix sizes types).made.map Prod.fst).count row.reader = 1) ∧
    (Unshared ix (filled ix sizes types) ↔ IdentifiersApart ix (filled ix sizes types)) := by
  have h : Consistent ix [] (filled ix sizes types) := leaves_addAll types (.initial ix) sizes
  exact ⟨h.rows_nodup, fun row hrow hmade => h.count_made hrow hmade, h.unshared_iff⟩

def camelCaseApi : Description where
  structs := [
    { name := "lv_fooBar_t", kind := .struct,
      fields := [{ name := "x", type := some (.mk .stdlib "int32_t" [] none [] none) }] },
    { name := "lv_foo_bar_t", kind := .struct,
      fields := [{ name := "a", type := some (.mk .stdlib "uint8_t" [] none [] none) }] }]

/-- A record of one octet is read by the reader of a record of four. -/
theorem camelCase_record_misread :
    ¬ Unshared (Index.ofDescription camelCaseApi)
        (filled (Index.ofDescription camelCaseApi) [] ["lv_fooBar_t", "lv_foo_bar_t"]) ∧
      (filled (Index.ofDescription camelCaseApi) [] ["lv_fooBar_t", "lv_foo_bar_t"]).reader?
        "lv_foo_bar_t" = some "unmarshal_struct_lv_foo_bar_t" ∧
      (filled (Index.ofDescription camelCaseApi) [] ["lv_fooBar_t", "lv_foo_bar_t"]).records =
        [⟨"unmarshal_struct_lv_foo_bar_t", "lv_fooBar_t", [⟨"x", "int32_t"⟩]⟩] := by
  refine ⟨fun h => ?_, by decide +kernel, by decide +kernel⟩
  have hsame := h.own_type ⟨"lv_fooBar_t", "unmarshal_struct_lv_foo_bar_t"⟩ (by decide +kernel)
    ⟨"lv_foo_bar_t", "unmarshal_struct_lv_foo_bar_t"⟩ (by decide +kernel) (by decide +kernel) rfl
  exact absurd hsame (by decide +kernel)

end TypeTable

end UiCodegen.Interpreter
