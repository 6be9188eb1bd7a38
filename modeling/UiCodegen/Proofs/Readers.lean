import UiCodegen.Interpreter.TypeTable
import UiCodegen.Proofs.Sizes

/-!
# Which types have readers

A type table is filled by asking for types.  This file says which of them get a reader (an unmarshaler), whatever was
asked for before.  `readable` decides it for a type on its own: a type that is always there, a
scalar, pointer or string with a reader, or a small record all of whose fields have readers and none
of which is a bit-field.  There is one way to get a reader besides: a small record whose reader
would have the name of one that was made for another record before is read by that one.

Since sizes do not depend on what is known, the steps that fill a table are functions of the table
alone (`after`), and one step lemma (`Sound.add`) carries the invariant through every sequence of
them.
-/

namespace UiCodegen.Interpreter

open Api

variable {found : Prop} {c ctype : Bytes} {t : TypeTable} {f : FieldRecord}
  {fields : List FieldRecord} {make : Bytes → TableM (Option Bytes)}

/-! ## Steps on a table -/

section

variable {α β : Type} {ix : Index}

def after (step : TableM α) (t : TypeTable) : α × TypeTable := answer (step.run t)

def SizeFree (ix : Index) (step : TableM α) : Prop := ∀ t, HistoryFree ix (step.run t)

lemma sizeFree_pure (a : α) : SizeFree ix (pure a) := fun _ => historyFree_pure ix _

lemma sizeFree_get : SizeFree ix (get : TableM TypeTable) := fun _ => historyFree_pure ix _

lemma sizeFree_modify (f : TypeTable → TypeTable) : SizeFree ix (modify f : TableM Unit) :=
  fun _ => historyFree_pure ix _

lemma sizeFree_query {query : StateM Sizes α} (h : HistoryFree ix query) :
    SizeFree ix (query : TableM α) := fun t => h.bind fun a => historyFree_pure ix (a, t)

lemma SizeFree.bind {step : TableM α} {next : α → TableM β} (h : SizeFree ix step)
    (hnext : ∀ a, SizeFree ix (next a)) : SizeFree ix (step >>= next) :=
  fun t => (h t).bind fun r => hnext r.1 r.2

lemma sizeFree_option {next : Option α → TableM β} (hnone : SizeFree ix (next none))
    (hsome : ∀ a, SizeFree ix (next (some a))) : ∀ found, SizeFree ix (next found) :=
  Option.forall.2 ⟨hnone, hsome⟩

lemma after_bind {step : TableM α} {next : α → TableM β} (h : SizeFree ix step)
    (hnext : ∀ a, SizeFree ix (next a)) (t : TypeTable) :
    after (step >>= next) t = after (next (after step t).1) (after step t).2 :=
  answer_bind (h t) fun r => hnext r.1 r.2

@[simp] lemma after_pure (a : α) (t : TypeTable) : after (pure a) t = (a, t) := rfl

lemma after_query {query : StateM Sizes α} (h : HistoryFree ix query) (t : TypeTable) :
    after (query : TableM α) t = (answer query, t) :=
  answer_bind h fun _ => historyFree_pure ix _

end

namespace TypeTable

variable {ix : Index}

/-! ## Types that can be read -/

/-- Whether a type is in every table. -/
def isBase (ctype : Bytes) : Bool := (baseRows.map (·.ctype)).contains ctype

def isRecord (ix : Index) (ctype : Bytes) : Bool := (ix.describe ctype).cls == .struct

/-- Whether a type that is no record has a reader. -/
def plainReadable (ix : Index) (ctype : Bytes) : Bool :=
  let info := ix.describe ctype
  match info.cls with
  | .int =>
    info.ctype.base == "lv_coord_t" || info.ctype.base == "lv_opa_t" ||
      (integerReaders.lookup info.prim).isSome
  | .void | .unknown | .struct => false
  | _ => true

def fieldReadable (ix : Index) (f : FieldRecord) : Bool :=
  !f.isBitField && (isBase (ix.fieldType f) || plainReadable ix (ix.fieldType f))

def isSmallRecord (ix : Index) (ctype : Bytes) : Bool :=
  isRecord ix ctype && (ix.describe ctype).record.isSome && answer (ix.isSmallStruct ctype)

def fieldsOf (ix : Index) (ctype : Bytes) : List FieldRecord :=
  ((ix.describe ctype).record.map (·.fields)).getD []

def readable (ix : Index) (ctype : Bytes) : Bool :=
  isBase ctype || plainReadable ix ctype ||
    (isSmallRecord ix ctype && (fieldsOf ix ctype).all (fieldReadable ix))

def recordReaderName (ix : Index) (ctype : Bytes) : Bytes :=
  recordFunction (ix.describe ctype).ctype.unqualified.text

/-! ## The steps -/

lemma sizeFree_enumReader (info : TypeInfo) : SizeFree ix (enumReader info) := by
  refine sizeFree_get.bind fun t => ?_
  split
  · exact (sizeFree_modify _).bind fun _ => sizeFree_pure _
  · exact sizeFree_pure _

/-- The readers of enums are made, and the others are always there. -/
lemma plainReader_cases {motive : TableM (Option Bytes) → Prop}
    (hfixed : ∀ reader, motive (pure reader))
    (henum : motive (some <$> enumReader (ix.describe ctype))) : motive (plainReader ix ctype) := by
  unfold plainReader
  dsimp only
  cases (ix.describe ctype).cls with
  | int =>
    dsimp only
    split_ifs
    all_goals exact hfixed _
  | enum => exact henum
  | _ => exact hfixed _

lemma sizeFree_plainReader (ctype : Bytes) : SizeFree ix (plainReader ix ctype) :=
  plainReader_cases sizeFree_pure ((sizeFree_enumReader _).bind fun _ => sizeFree_pure _)

section

variable {make : Bytes → TableM (Option Bytes)}

def marked (t : TypeTable) (ctype : Bytes) : TypeTable := { t with seen := ctype :: t.seen }

def withRow (t : TypeTable) (ctype : Bytes) (reader : Option Bytes) : TypeTable :=
  { t with rows := t.rows ++ (reader.map (⟨ctype, ·⟩)).toList }

lemma sizeFree_addWith (hmake : ∀ c, SizeFree ix (make c)) (ctype : Bytes) :
    SizeFree ix (addWith make ctype) := by
  refine sizeFree_get.bind fun t => ?_
  split
  · exact sizeFree_get.bind fun _ => sizeFree_pure _
  · exact (sizeFree_modify _).bind fun _ => (hmake ctype).bind
      (sizeFree_option (sizeFree_pure _) fun _ =>
      (sizeFree_modify _).bind fun _ => sizeFree_pure _)

lemma after_addWith_seen (h : ctype ∈ t.seen) :
    after (addWith make ctype) t = (t.reader? ctype, t) := by
  change after (if t.seen.contains ctype then _ else _) t = _
  rw [if_pos (by simpa using h)]
  rfl

lemma after_mark_bind {α : Type} (ctype : Bytes) (next : Unit → TableM α) (t : TypeTable) :
    after (modify (fun t => { t with seen := ctype :: t.seen }) >>= next) t =
      after (next ()) (t.marked ctype) :=
  rfl

/-- A type that was not asked for enters the table if there is a reader for it. -/
lemma after_addWith_new (hmake : ∀ c, SizeFree ix (make c)) (h : ctype ∉ t.seen) :
      after (addWith make ctype) t = ((after (make ctype) (t.marked ctype)).1,
        (after (make ctype) (t.marked ctype)).2.withRow ctype
        (after (make ctype) (t.marked ctype)).1) := by
  change after (if t.seen.contains ctype then _ else _) t = _
  rw [if_neg (by simpa using h), after_mark_bind, after_bind (hmake ctype) fun reader => ?_]
  · generalize after (make ctype) (t.marked ctype) = r
    obtain ⟨_ | reader, t'⟩ := r
    · simp [withRow]
    · rfl
  · cases reader with
    | none => exact sizeFree_pure _
    | some reader => exact (sizeFree_modify _).bind fun _ => sizeFree_pure _

end

/-- Whether a type that is no record has a reader does not depend on the table. -/
lemma isSome_plainReader (ctype : Bytes) (t : TypeTable) :
    (after (plainReader ix ctype) t).1.isSome = plainReadable ix ctype := by
  unfold plainReader plainReadable
  dsimp only
  cases (ix.describe ctype).cls with
  | int =>
    dsimp only
    split
    · simp [*]
    split
    · simp [*]
    · simp [*]
  | enum => rfl
  | _ => rfl

lemma sizeFree_fieldRows? (fields : List FieldRecord) : SizeFree ix (fieldRows? ix fields) := by
  induction fields with
  | nil => exact sizeFree_pure _
  | cons f rest ih =>
    unfold fieldRows?
    split
    · exact sizeFree_pure _
    exact (sizeFree_addWith sizeFree_plainReader _).bind (sizeFree_option (sizeFree_pure _) fun _ =>
      ih.bind (sizeFree_option (sizeFree_pure _) fun _ => sizeFree_pure _))

/-- The fields are asked for one after the other, up to the first that has no reader. -/
lemma after_fieldRows?_cons (hplain : f.isBitField = false) (rest : List FieldRecord)
    (t : TypeTable) : after (fieldRows? ix (f :: rest)) t =
      match after (addWith (plainReader ix) (ix.fieldType f)) t with
      | (none, t') => (none, t')
      | (some _, t') =>
        ((after (fieldRows? ix rest) t').1.map (⟨f.name, ix.fieldType f⟩ :: ·),
          (after (fieldRows? ix rest) t').2) := by
  conv_lhs => unfold fieldRows?
  rw [if_neg (by simp [hplain]), after_bind (sizeFree_addWith sizeFree_plainReader _) fun reader =>
    ?_]
  · generalize after (addWith (plainReader ix) (ix.fieldType f)) t = r
    obtain ⟨_ | reader, t'⟩ := r
    · rfl
    · dsimp only
      rw [after_bind (sizeFree_fieldRows? rest) fun rows => ?_]
      · generalize after (fieldRows? ix rest) t' = r
        obtain ⟨_ | rows, t''⟩ := r
        · rfl
        · rfl
      · cases rows with
        | none => exact sizeFree_pure _
        | some _ => exact sizeFree_pure _
  · cases reader with
    | none => exact sizeFree_pure _
    | some _ =>
        exact (sizeFree_fieldRows? rest).bind (sizeFree_option (sizeFree_pure _) fun _ =>
          sizeFree_pure _)

lemma sizeFree_fieldsReader? (name : Bytes) (fields : List FieldRecord) :
    SizeFree ix (fieldsReader? ix name fields) := by
  refine sizeFree_get.bind fun t => ?_
  split
  · exact sizeFree_pure _
  exact (sizeFree_fieldRows? _).bind (sizeFree_option (sizeFree_pure _) fun _ =>
    (sizeFree_modify _).bind fun _ => sizeFree_pure _)

/-- A record has the reader that was made under its name; otherwise one is made from its fields. -/
lemma after_fieldsReader? (name : Bytes) (fields : List FieldRecord) (t : TypeTable) :
    after (fieldsReader? ix name fields) t =
      if recordFunction name ∈ t.defined then (some (recordFunction name), t)
      else match after (fieldRows? ix fields) t with
        | (none, t') => (none, t')
        | (some rows, t') =>
          (some (recordFunction name),
            { t' with
              defined := recordFunction name :: t'.defined
              records := t'.records ++ [⟨recordFunction name, name, rows⟩] }) := by
  change after (if t.defined.contains (recordFunction name) then _ else _) t = _
  by_cases hdefined : recordFunction name ∈ t.defined
  · rw [if_pos (by simpa using hdefined), if_pos hdefined]
    rfl
  · rw [if_neg (by simpa using hdefined), if_neg hdefined, after_bind (sizeFree_fieldRows? fields)
      fun rows => ?_]
    · generalize after (fieldRows? ix fields) t = r
      obtain ⟨_ | rows, t'⟩ := r
      · rfl
      · rfl
    · cases rows with
      | none => exact sizeFree_pure _
      | some _ => exact (sizeFree_modify _).bind fun _ => sizeFree_pure _

lemma sizeFree_recordReader? (ctype : Bytes) (info : TypeInfo) :
    SizeFree ix (recordReader? ix ctype info) := by
  unfold recordReader?
  split
  · exact sizeFree_pure _
  refine (sizeFree_query (Index.historyFree_isSmallStruct ctype)).bind fun isSmall => ?_
  split
  · exact sizeFree_fieldsReader? _ _
  · exact sizeFree_pure _

lemma sizeFree_makeReader (ctype : Bytes) : SizeFree ix (makeReader ix ctype) := by
  unfold makeReader
  dsimp only
  split
  · exact sizeFree_recordReader? ctype _
  · exact sizeFree_plainReader ctype

lemma sizeFree_add (ctype : Bytes) : SizeFree ix (add ix ctype) :=
  sizeFree_addWith sizeFree_makeReader ctype

/-- Small records are read field by field, and other records are not read. -/
lemma after_recordReader? (hrecord : isRecord ix ctype = true) (t : TypeTable) :
    after (recordReader? ix ctype (ix.describe ctype)) t =
      if isSmallRecord ix ctype then
        after (fieldsReader? ix (ix.describe ctype).ctype.unqualified.text (fieldsOf ix ctype)) t
      else (none, t) := by
  unfold recordReader? isSmallRecord fieldsOf
  rw [hrecord]
  cases (ix.describe ctype).record with
  | none => rfl
  | some record =>
    have hquery : HistoryFree ix (ix.isSmallStruct ctype) := Index.historyFree_isSmallStruct ctype
    refine (after_bind (sizeFree_query hquery) (fun isSmall => ?_) t).trans ?_
    · split
      · exact sizeFree_fieldsReader? _ _
      · exact sizeFree_pure _
    · rw [after_query hquery]
      dsimp only
      cases answer (ix.isSmallStruct ctype) with
      | false => rfl
      | true => rfl

/-! ## What is true of every table -/

def Named (ix : Index) (done : List Bytes) (ctype : Bytes) : Prop :=
  ∃ e ∈ done, isRecord ix e ∧ !isBase e ∧ recordReaderName ix e = recordReaderName ix ctype

/-- A type gets a reader if these types got one before. -/
def ServedAfter (ix : Index) (done : List Bytes) (ctype : Bytes) : Prop :=
  readable ix ctype ∨ (isSmallRecord ix ctype ∧ Named ix done ctype)

/-- What is true of a table in which the types `done` have got readers. -/
structure Sound (ix : Index) (done : List Bytes) (t : TypeTable) : Prop where
  base : ∀ c, isBase c → c ∈ t.seen ∧ (t.reader? c).isSome
  /-- So have the types asked for that are no records and can be read. -/
  plain : ∀ c ∈ t.seen, plainReadable ix c → (t.reader? c).isSome
  served : ∀ c, (t.reader? c).isSome → ServedAfter ix done c
  /-- The readers of records that were made are those of the types `done`. -/
  defined : ∀ c, recordReaderName ix c ∈ t.defined ↔ Named ix done c
  /-- A record with a reader is among the types `done`. -/
  made : ∀ c, (t.reader? c).isSome → isRecord ix c → isBase c ∨ c ∈ done

def Keeps (t t' : TypeTable) : Prop := ∀ c, (t.reader? c).isSome → (t'.reader? c).isSome

lemma isSome_reader? : (t.reader? c).isSome ↔ ∃ row ∈ t.rows, row.ctype = c := by
  simp [reader?, List.find?_isSome]

/-- A row is the reader of its type, and changes nothing for others. -/
lemma isSome_reader?_withRow {reader : Option Bytes} :
    ((t.withRow ctype reader).reader? c).isSome ↔ (t.reader? c).isSome ∨
    (reader.isSome ∧ c = ctype) := by
  cases reader with
  | none => simp [isSome_reader?, withRow]
  | some reader =>
    simp only [isSome_reader?, withRow, List.mem_append, Option.map_some, Option.toList_some,
      List.mem_singleton, Option.isSome_some, true_and]
    constructor
    · rintro ⟨row, hrow | rfl, rfl⟩
      · exact .inl ⟨row, hrow, rfl⟩
      · exact .inr rfl
    · rintro (⟨row, hrow, rfl⟩ | rfl)
      · exact ⟨row, .inl hrow, rfl⟩
      · exact ⟨_, .inr rfl, rfl⟩

lemma isSome_reader?_addWith (hmake : ∀ c, SizeFree ix (make c))
    (h : (after (addWith make ctype) t).1.isSome) :
    ((after (addWith make ctype) t).2.reader? ctype).isSome := by
  by_cases hseen : ctype ∈ t.seen
  · rwa [after_addWith_seen hseen] at h ⊢
  · rw [after_addWith_new hmake hseen] at h ⊢
    exact isSome_reader?_withRow.2 (.inr ⟨h, rfl⟩)

lemma recordFunction_ne_enum (name other : Bytes) :
    recordFunction name ≠ "unmarshal_enum_" ++ C.identifier other := by
  intro h
  have htake := congrArg (List.take 11) h
  have hrecord : (recordFunction name).take 11 = Bytes.ofString "unmarshal_s" := by cbv
  have henum : (Bytes.ofString "unmarshal_enum_" ++ C.identifier other).take 11 =
      Bytes.ofString "unmarshal_e" := by cbv
  rw [hrecord, henum] at htake
  exact absurd htake (by decide)

/-- The second table differs from the first in readers of enums only, and in those of one type. -/
structure EnumChange (ix : Index) (ctype : Bytes) (t t' : TypeTable) : Prop where
  rows : t'.rows = t.rows
  seen : t'.seen = t.seen
  records : t'.records = t.records
  defined : ∀ name, recordFunction name ∈ t'.defined ↔ recordFunction name ∈ t.defined
  enums : ∀ r ∈ t'.enums, r ∈ t.enums ∨ r.ctype = (ix.describe ctype).ctype.unqualified.text

lemma EnumChange.refl (ctype : Bytes) (t : TypeTable) : EnumChange ix ctype t t :=
  ⟨rfl, rfl, rfl, fun _ => .rfl, fun _ => .inl⟩

lemma enumChange_enumReader (ctype : Bytes) (t : TypeTable) :
    EnumChange ix ctype t (after (enumReader (ix.describe ctype)) t).2 := by
  change EnumChange ix ctype t (after (if !t.defined.contains _ then _ else _) t).2
  split
  · refine ⟨rfl, rfl, rfl, fun name => ?_, fun r hr => ?_⟩
    · exact ⟨fun h => (List.mem_cons.1 h).resolve_left (recordFunction_ne_enum _ _), .tail _⟩
    · rcases List.mem_append.1 hr with hr | hr
      · exact .inl hr
      · exact .inr (by rw [List.mem_singleton.1 hr])
  · exact .refl ctype t

/-- Finding a reader for a type that is no record changes the readers of enums only. -/
lemma enumChange_plainReader (ctype : Bytes) (t : TypeTable) :
    EnumChange ix ctype t (after (plainReader ix ctype) t).2 :=
  plainReader_cases (motive := fun step => EnumChange ix ctype t (after step t).2)
    (fun _ => .refl ctype t) (enumChange_enumReader ctype t)

/-! ## What asking for a type preserves -/

section

variable {done done' : List Bytes} {t t' : TypeTable} {ctype : Bytes}

lemma Named.mono (h : done ⊆ done') : Named ix done c → Named ix done' c :=
  fun ⟨e, he, hname⟩ => ⟨e, h he, hname⟩

lemma ServedAfter.mono (h : done ⊆ done') : ServedAfter ix done c → ServedAfter ix done' c :=
  Or.imp_right fun ⟨hsmall, hnamed⟩ => ⟨hsmall, hnamed.mono h⟩

lemma isRecord_eq_false_of_plainReadable (h : plainReadable ix ctype) :
    isRecord ix ctype = false := by
  unfold plainReadable at h
  unfold isRecord
  cases hcls : (ix.describe ctype).cls <;> simp_all

/-- A table in which one more type was asked for; `found` says whether it has got a reader. -/
lemma Sound.asked (h : Sound ix done t) (hdone : done ⊆ done')
    (hseen : ∀ c, c ∈ t'.seen ↔ c ∈ t.seen ∨ c = ctype)
    (hreader : ∀ c, (t'.reader? c).isSome ↔ (t.reader? c).isSome ∨ (found ∧ c = ctype))
    (hdefined : ∀ c, recordReaderName ix c ∈ t'.defined ↔ Named ix done' c)
    (hplain : plainReadable ix ctype → found) (hserved : found → ServedAfter ix done' ctype)
    (hmade : found → isRecord ix ctype → isBase ctype ∨ ctype ∈ done') : Sound ix done' t' where
  base c hc := ⟨(hseen c).2 (.inl (h.base c hc).1), (hreader c).2 (.inl (h.base c hc).2)⟩
  plain c hc hreadable := by
    refine (hreader c).2 ?_
    obtain hold | rfl := (hseen c).1 hc
    · exact .inl (h.plain c hold hreadable)
    · exact .inr ⟨hplain hreadable, rfl⟩
  served c hc := by
    obtain hold | ⟨hfound, rfl⟩ := (hreader c).1 hc
    · exact (h.served c hold).mono hdone
    · exact hserved hfound
  defined := hdefined
  made c hc hrecord := by
    obtain hold | ⟨hfound, rfl⟩ := (hreader c).1 hc
    · exact (h.made c hold hrecord).imp_right fun hmem => hdone hmem
    · exact hmade hfound hrecord

/-- Types that are no records were asked for; `found` says whether all of them have got readers. -/
structure PlainStep (ix : Index) (done : List Bytes) (found : Prop) (t t' : TypeTable) : Prop where
  sound : Sound ix done t'
  keeps : Keeps t t'
  seen : t.seen ⊆ t'.seen
  plain : ∀ c ∈ t'.seen, c ∈ t.seen ∨ isRecord ix c = false
  readers : found → ∀ c ∈ t'.seen, c ∈ t.seen ∨ (t'.reader? c).isSome

lemma PlainStep.refl (h : Sound ix done t) (found : Prop) : PlainStep ix done found t t :=
  ⟨h, fun _ => id, fun _ => id, fun _ => .inl, fun _ _ => .inl⟩

lemma PlainStep.trans {found' : Prop} {t'' : TypeTable} (h : PlainStep ix done found t t')
    (h' : PlainStep ix done found' t' t'') : PlainStep ix done (found ∧ found') t t'' where
  sound := h'.sound
  keeps c hc := h'.keeps c (h.keeps c hc)
  seen := List.Subset.trans h.seen h'.seen
  plain c hc := (h'.plain c hc).elim (h.plain c) .inr
  readers := fun ⟨hfound, hfound'⟩ c hc => (h'.readers hfound' c hc).elim
    (fun hc => (h.readers hfound c hc).imp_right (h'.keeps c)) .inr

/-- A type that is no record can be read if it has a reader on its own account. -/
lemma readable_iff_of_not_isRecord (hrecord : isRecord ix ctype = false) :
    readable ix ctype ↔ isBase ctype ∨ plainReadable ix ctype := by
  simp [readable, isSmallRecord, hrecord]

lemma servedAfter_iff_of_not_isRecord (hrecord : isRecord ix ctype = false) :
    ServedAfter ix done ctype ↔ isBase ctype ∨ plainReadable ix ctype := by
  simp [ServedAfter, readable_iff_of_not_isRecord hrecord, isSmallRecord, hrecord]

lemma Sound.isBase_eq_false (h : Sound ix done t) (hnew : ctype ∉ t.seen) : isBase ctype = false :=
  eq_false_of_ne_true fun hbase => hnew (h.base ctype hbase).1

/-- Whether a type that is no record has a reader does not depend on what was asked for before. -/
lemma Sound.addPlain (h : Sound ix done t) (hrecord : isRecord ix ctype = false) :
    ((after (addWith (plainReader ix) ctype) t).1.isSome ↔ isBase ctype ∨ plainReadable ix ctype) ∧
      PlainStep ix done (isBase ctype ∨ plainReadable ix ctype) t
        (after (addWith (plainReader ix) ctype) t).2 := by
  by_cases hseen : ctype ∈ t.seen
  · rw [after_addWith_seen hseen]
    refine ⟨⟨fun hsome => (servedAfter_iff_of_not_isRecord hrecord).1 (h.served _ hsome), ?_⟩,
      PlainStep.refl h _⟩
    rintro (hbase | hplain)
    · exact (h.base ctype hbase).2
    · exact h.plain ctype hseen hplain
  · have hbase := h.isBase_eq_false hseen
    have hfound : (after (plainReader ix ctype) (t.marked ctype)).1.isSome =
        plainReadable ix ctype :=
      isSome_plainReader ctype _
    have hchange : EnumChange ix ctype (t.marked ctype)
        (after (plainReader ix ctype) (t.marked ctype)).2 :=
      enumChange_plainReader ctype _
    rw [after_addWith_new sizeFree_plainReader hseen]
    generalize after (plainReader ix ctype) (t.marked ctype) = r at hfound hchange ⊢
    obtain ⟨reader, t₁⟩ := r
    dsimp only at hfound hchange ⊢
    have hfound : reader.isSome ↔ isBase ctype ∨ plainReadable ix ctype := by simp [hfound, hbase]
    have hreader : ∀ c, ((t₁.withRow ctype reader).reader? c).isSome ↔
        (t.reader? c).isSome ∨ ((isBase ctype ∨ plainReadable ix ctype) ∧ c = ctype) := by
      intro c
      rw [isSome_reader?_withRow, hfound, isSome_reader?, hchange.rows, ← isSome_reader?]
      rfl
    have hseen₁ : ∀ c, c ∈ (t₁.withRow ctype reader).seen ↔ c ∈ t.seen ∨ c = ctype := by
      intro c
      rw [or_comm, ← List.mem_cons]
      exact iff_of_eq (congrArg (c ∈ ·) hchange.seen)
    refine ⟨hfound, ?_, fun c hc => (hreader c).2 (.inl hc), fun c hc => (hseen₁ c).2
      (.inl hc), ?_, ?_⟩
    · exact h.asked (fun _ => id) hseen₁ hreader
        (fun c => (hchange.defined _).trans (h.defined c)) .inr
        (servedAfter_iff_of_not_isRecord hrecord).2
          fun _ hisRecord => by simp [hrecord] at hisRecord
    · intro c hc
      obtain hold | rfl := (hseen₁ c).1 hc
      · exact .inl hold
      · exact .inr hrecord
    · intro hreadable c hc
      exact ((hseen₁ c).1 hc).imp_right fun heq => (hreader c).2 (.inr ⟨hreadable, heq⟩)

lemma Sound.addFields (h : Sound ix done t)
    (hfields : ∀ f ∈ fields, isRecord ix (ix.fieldType f) = false) :
    ((after (fieldRows? ix fields) t).1.isSome ↔ ∀ f ∈ fields, fieldReadable ix f) ∧
      PlainStep ix done (∀ f ∈ fields, fieldReadable ix f) t
      (after (fieldRows? ix fields) t).2 := by
  induction fields generalizing t with
  | nil => exact ⟨by simp [fieldRows?], PlainStep.refl h _⟩
  | cons f rest ih =>
    cases hbits : f.isBitField with
    | true =>
      have hstep : after (fieldRows? ix (f :: rest)) t = (none, t) := by
        unfold fieldRows?
        rw [if_pos hbits]
        rfl
      have hnone : ¬ fieldReadable ix f := by simp [fieldReadable, hbits]
      rw [hstep]
      exact ⟨by simp [hnone], PlainStep.refl h _⟩
    | false =>
      obtain ⟨hfound, hplain⟩ := h.addPlain (hfields f (by simp))
      have hreadable : fieldReadable ix f ↔ isBase (ix.fieldType f) ∨ plainReadable ix
          (ix.fieldType f) := by
        simp [fieldReadable, hbits]
      rw [after_fieldRows?_cons hbits]
      generalize after (addWith (plainReader ix) (ix.fieldType f)) t = r at hfound hplain ⊢
      obtain ⟨_ | reader, t₁⟩ := r
      · have hnone : ¬ fieldReadable ix f := by rw [hreadable, ← hfound]; simp
        refine ⟨by simp [hnone], hplain.sound, hplain.keeps, hplain.seen, hplain.plain, ?_⟩
        exact fun hall => absurd (hall f (by simp)) hnone
      · obtain ⟨hrest, hsteps⟩ := ih hplain.sound fun f' hf' => hfields f' (by simp [hf'])
        have hf : fieldReadable ix f := hreadable.2 (hfound.1 rfl)
        refine ⟨by simpa [hf] using hrest, ?_⟩
        have hboth := hplain.trans hsteps
        simpa [← hreadable, hf] using hboth

lemma isSmallRecord_of_isSmallStruct (hrecord : isRecord ix ctype)
    (h : answer (ix.isSmallStruct ctype) = true) : isSmallRecord ix ctype := by
  obtain ⟨record, hinfo, -⟩ := Index.record_of_isSmallStruct h
  simp [isSmallRecord, hrecord, hinfo, h]

lemma isScalarField_of_isSmallRecord (h : isSmallRecord ix ctype) :
    ∀ f ∈ fieldsOf ix ctype, ix.isScalarField f := by
  simp only [isSmallRecord, Bool.and_eq_true] at h
  obtain ⟨record, hinfo, hscalar⟩ := Index.record_of_isSmallStruct h.2
  simpa [fieldsOf, hinfo] using hscalar

/-- A scalar is of a known type that is no record. -/
lemma isRecord_of_isScalarField (h : ix.isScalarField f) :
    isRecord ix (ix.fieldType f) = false := by
  unfold Index.isScalarField at h
  unfold isRecord
  cases hcls : (ix.describe (ix.fieldType f)).cls <;> simp_all

lemma named_append : Named ix (done ++ [ctype]) c ↔
      Named ix done c ∨
        (isRecord ix ctype ∧ !isBase ctype ∧ recordReaderName ix ctype = recordReaderName ix c) :=
        by
  constructor
  · rintro ⟨e, he, hname⟩
    rcases List.mem_append.1 he with he | he
    · exact .inl ⟨e, he, hname⟩
    · rw [List.mem_singleton.1 he] at hname
      exact .inr hname
  · rintro (hnamed | hname)
    · exact hnamed.mono (List.subset_append_left _ _)
    · exact ⟨ctype, by simp, hname⟩

/-- A type that has a reader, but for which no reader of a record was made, changes nothing. -/
lemma Sound.again (h : Sound ix done t) (hmade : isRecord ix ctype → isBase ctype ∨ ctype ∈ done) :
    Sound ix (done ++ [ctype]) t := by
  have hdone : done ⊆ done ++ [ctype] := List.subset_append_left _ _
  refine ⟨h.base, h.plain, fun c hc => (h.served c hc).mono hdone, fun c => ?_,
    fun c hc hrecord => (h.made c hc hrecord).imp_right fun hmem => hdone hmem⟩
  rw [named_append, h.defined]
  refine ⟨.inl, ?_⟩
  rintro (hnamed | ⟨hrecord, hbase, hname⟩)
  · exact hnamed
  · obtain hbase' | hmem := hmade hrecord
    · simp [hbase'] at hbase
    · exact ⟨ctype, hmem, hrecord, hbase, hname⟩

/-- What asking for a type comes to: a reader or none, and the table behind it. -/
structure AddStep (ix : Index) (done : List Bytes) (ctype : Bytes) (t : TypeTable)
    (r : Option Bytes × TypeTable) : Prop where
  /-- The types with readers are joined by the type, if it has got one. -/
  sound : Sound ix (if r.1.isSome then done ++ [ctype] else done) r.2
  keeps : Keeps t r.2
  /-- Besides the type, only types that are no records were asked for. -/
  seen : ∀ c ∈ r.2.seen, c ∈ t.seen ∨ c = ctype ∨ isRecord ix c = false
  /-- If the type has got a reader, so have all types that were asked for with it. -/
  readers : r.1.isSome → ∀ c ∈ r.2.seen, c ∈ t.seen ∨ (r.2.reader? c).isSome
  found : r.1.isSome → (r.2.reader? ctype).isSome
  served : r.1.isSome → ServedAfter ix done ctype
  /-- A type that was not asked for before gets the reader that it can have. -/
  complete : ctype ∉ t.seen → ServedAfter ix done ctype → r.1.isSome

lemma Sound.add_seen (h : Sound ix done t) (hseen : ctype ∈ t.seen) :
    AddStep ix done ctype t (t.reader? ctype, t) where
  sound := by
    dsimp only
    split
    · exact h.again (h.made ctype ‹_›)
    · exact h
  keeps _ := id
  seen _ := .inl
  readers _ _ := .inl
  found := id
  served := h.served ctype
  complete hnew := absurd hseen hnew

lemma Sound.add_plain (h : Sound ix done t) (hrecord : isRecord ix ctype = false) :
    AddStep ix done ctype t (after (addWith (plainReader ix) ctype) t) := by
  obtain ⟨hfound, hstep⟩ := h.addPlain hrecord
  rw [← hfound] at hstep
  have hserved : ServedAfter ix done ctype ↔ (after (addWith (plainReader ix) ctype) t).1.isSome :=
    (servedAfter_iff_of_not_isRecord hrecord).trans hfound.symm
  refine ⟨?_, hstep.keeps, fun c hc => (hstep.plain c hc).imp_right .inr, hstep.readers,
    isSome_reader?_addWith sizeFree_plainReader, hserved.2, fun _ => hserved.1⟩
  split
  · exact hstep.sound.again fun hisRecord => by simp [hrecord] at hisRecord
  · exact hstep.sound

/-- A record that was asked for and has no reader changes nothing for other types. -/
lemma Sound.marked (h : Sound ix done t) (hrecord : isRecord ix ctype) :
    Sound ix done (t.marked ctype) := by
  have hreader : ∀ c, ((t.marked ctype).reader? c).isSome ↔
      (t.reader? c).isSome ∨ (False ∧ c = ctype) := fun c => by simp [TypeTable.marked, reader?]
  refine h.asked (fun _ => id) (fun c => ?_) hreader h.defined (fun hplain => ?_)
    False.elim False.elim
  · rw [or_comm]
    exact List.mem_cons
  · simp [isRecord_eq_false_of_plainReadable hplain] at hrecord

/-- A record that is not in every table can be read if it is small and its fields can be read. -/
lemma readable_record_iff (hrecord : isRecord ix ctype) (hbase : isBase ctype = false) :
    readable ix ctype ↔ isSmallRecord ix ctype ∧ ∀ f ∈ fieldsOf ix ctype, fieldReadable ix f := by
  have hplain : plainReadable ix ctype = false := by
    by_contra hplain
    simp [isRecord_eq_false_of_plainReadable (by simpa using hplain)] at hrecord
  simp [readable, hbase, hplain]

/-- A new record that gets no reader, after some of its fields were asked for. -/
lemma PlainStep.addStep_none (h : PlainStep ix done found (t.marked ctype) t')
    (hnot : ¬ ServedAfter ix done ctype) :
    AddStep ix done ctype t (none, t'.withRow ctype none) := by
  have hrow : t'.withRow ctype none = t' := by simp [withRow]
  rw [hrow]
  refine ⟨h.sound, h.keeps, fun c hc => ?_, nofun, nofun, nofun, fun _ hserved =>
    absurd hserved hnot⟩
  obtain hmem | hplain := h.plain c hc
  · obtain rfl | hmem := List.mem_cons.1 hmem
    · exact .inr (.inl rfl)
    · exact .inl hmem
  · exact .inr (.inr hplain)

/-- A new record that gets a reader, after its fields were asked for. -/
lemma PlainStep.addStep_some {t₁ t₂ : TypeTable} {reader : Bytes}
    (h : PlainStep ix done True (t.marked ctype) t₁) (hrows : t₂.rows = t₁.rows)
    (hseen : t₂.seen = t₁.seen)
    (hdefined : ∀ c, recordReaderName ix c ∈ t₂.defined ↔ Named ix (done ++ [ctype]) c)
    (hrecord : isRecord ix ctype) (hserved : ServedAfter ix done ctype) :
    AddStep ix done ctype t (some reader, t₂.withRow ctype (some reader)) := by
  have hdone : done ⊆ done ++ [ctype] := List.subset_append_left _ _
  have hreader : ∀ c, ((t₂.withRow ctype (some reader)).reader? c).isSome ↔
      (t₁.reader? c).isSome ∨ (True ∧ c = ctype) := by
    intro c
    rw [isSome_reader?_withRow, isSome_reader?, isSome_reader?, hrows]
    simp
  have hmarked : ctype ∈ t₁.seen := h.seen (by simp [TypeTable.marked])
  have hseen' : ∀ c, c ∈ (t₂.withRow ctype (some reader)).seen ↔ c ∈ t₁.seen ∨ c = ctype := by
    intro c
    change c ∈ t₂.seen ↔ _
    rw [hseen, or_iff_left_of_imp]
    rintro rfl
    exact hmarked
  refine ⟨?_, fun c hc => (hreader c).2 (.inl (h.keeps c hc)), fun c hc => ?_, fun _ c hc =>
    ?_, fun _ => ?_,
    fun _ => hserved, fun _ _ => rfl⟩
  · refine h.sound.asked hdone hseen' hreader hdefined (fun hplain => ?_)
      (fun _ => hserved.mono hdone) fun _ _ => .inr (by simp)
    simp [isRecord_eq_false_of_plainReadable hplain] at hrecord
  · obtain hmem | rfl := (hseen' c).1 hc
    · obtain hmem | hplain := h.plain c hmem
      · exact (List.mem_cons.1 hmem).elim (fun heq => .inr (.inl heq)) .inl
      · exact .inr (.inr hplain)
    · exact .inr (.inl rfl)
  · obtain hmem | rfl := (hseen' c).1 hc
    · obtain hmem | hsome := h.readers trivial c hmem
      · obtain rfl | hmem := List.mem_cons.1 hmem
        · exact .inr ((hreader _).2 (.inr ⟨trivial, rfl⟩))
        · exact .inl hmem
      · exact .inr ((hreader c).2 (.inl hsome))
    · exact .inr ((hreader _).2 (.inr ⟨trivial, rfl⟩))
  · exact (hreader ctype).2 (.inr ⟨trivial, rfl⟩)

/-- A new record gets a reader, if it is small and there is one under its name or its fields can be
read. -/
lemma Sound.add_record (h : Sound ix done t) (hrecord : isRecord ix ctype) (hnew : ctype ∉ t.seen)
    {r : Option Bytes × TypeTable}
    (hr : after (recordReader? ix ctype (ix.describe ctype)) (t.marked ctype) = r) :
    AddStep ix done ctype t (r.1, r.2.withRow ctype r.1) := by
  have hbase := h.isBase_eq_false hnew
  have hmarked := h.marked hrecord
  have hreadable := readable_record_iff hrecord hbase
  rw [after_recordReader? hrecord, after_fieldsReader?] at hr
  change (if _ then if recordReaderName ix ctype ∈ t.defined then _ else _ else _) = r at hr
  by_cases hsmall : isSmallRecord ix ctype
  · rw [if_pos hsmall] at hr
    by_cases hdefined : recordReaderName ix ctype ∈ t.defined
    · -- The reader is one that was made for a record of the same reader name.
      rw [if_pos hdefined] at hr
      subst hr
      have hnamed : Named ix done ctype := (h.defined ctype).1 hdefined
      refine PlainStep.addStep_some (PlainStep.refl hmarked True) rfl rfl (fun c => ?_) hrecord
        (.inr ⟨hsmall, hnamed⟩)
      rw [named_append, hmarked.defined, or_iff_left_of_imp]
      rintro ⟨-, -, hname⟩
      obtain ⟨e, he, hisRecord, hnotBase, hsame⟩ := hnamed
      exact ⟨e, he, hisRecord, hnotBase, hsame.trans hname⟩
    · rw [if_neg hdefined] at hr
      have hscalar := isScalarField_of_isSmallRecord hsmall
      obtain ⟨hfound, hstep⟩ :=
        hmarked.addFields fun f hf => isRecord_of_isScalarField (hscalar f hf)
      generalize after (fieldRows? ix (fieldsOf ix ctype)) (t.marked ctype) =
        fields at hfound hstep hr
      obtain ⟨_ | rows, t₁⟩ := fields
      · subst hr
        refine hstep.addStep_none ?_
        rintro (hread | ⟨-, hnamed⟩)
        · simpa using hfound.2 (hreadable.1 hread).2
        · exact hdefined ((h.defined ctype).2 hnamed)
      · subst hr
        have hall : ∀ f ∈ fieldsOf ix ctype, fieldReadable ix f := hfound.1 rfl
        have hstep : PlainStep ix done True (t.marked ctype) t₁ :=
          ⟨hstep.sound, hstep.keeps, hstep.seen, hstep.plain, fun _ => hstep.readers hall⟩
        refine PlainStep.addStep_some hstep rfl rfl (fun c => ?_) hrecord
          (.inl (hreadable.2 ⟨hsmall, hall⟩))
        rw [named_append, List.mem_cons, hstep.sound.defined, or_comm]
        simp [hrecord, hbase, eq_comm, recordReaderName]
  · rw [if_neg hsmall] at hr
    subst hr
    refine PlainStep.addStep_none (PlainStep.refl hmarked True) ?_
    rintro (hread | ⟨hsmall', -⟩)
    · exact hsmall (hreadable.1 hread).1
    · exact hsmall hsmall'

/-- One step: what asking for a type comes to in a table in which others were asked for. -/
lemma Sound.add (h : Sound ix done t) (ctype : Bytes) :
    AddStep ix done ctype t (after (add ix ctype) t) := by
  by_cases hseen : ctype ∈ t.seen
  · rw [TypeTable.add, after_addWith_seen hseen]
    exact h.add_seen hseen
  · rw [TypeTable.add, after_addWith_new sizeFree_makeReader hseen]
    cases hrecord : isRecord ix ctype with
    | true =>
      have hmake : makeReader ix ctype = recordReader? ix ctype (ix.describe ctype) := by
        unfold makeReader
        exact if_pos hrecord
      rw [hmake]
      exact h.add_record hrecord hseen rfl
    | false =>
      have hmake : makeReader ix ctype = plainReader ix ctype := by
        unfold makeReader
        exact if_neg (by simpa [isRecord] using hrecord)
      rw [hmake, ← after_addWith_new sizeFree_plainReader hseen]
      exact h.add_plain hrecord

/-- The table in which nothing was asked for. -/
lemma sound_empty (ix : Index) : Sound ix [] {} := by
  have hreader : ∀ c, (({} : TypeTable).reader? c).isSome ↔ isBase c := by
    intro c
    simp [isSome_reader?, isBase]
  refine ⟨fun c hc => ⟨by simpa [isBase] using hc, (hreader c).2 hc⟩, fun c hc _ => ?_, fun c hc =>
    ?_,
    fun c => by simp [Named], fun c hc _ => .inl ((hreader c).1 hc)⟩
  · exact (hreader c).2 (by simpa [isBase] using hc)
  · exact .inl (by simp [readable, (hreader c).1 hc])

def Settled (ix : Index) (t : TypeTable) :
    Prop := ∀ c ∈ t.seen, readable ix c → (t.reader? c).isSome

/-- A type that can be read gets a reader, whatever was asked for before. -/
lemma Sound.isSome_add_of_readable (h : Sound ix done t) (hsettled : Settled ix t)
    (hreadable : readable ix ctype) : (after (TypeTable.add ix ctype) t).1.isSome := by
  by_cases hseen : ctype ∈ t.seen
  · rw [TypeTable.add, after_addWith_seen hseen]
    exact hsettled ctype hseen hreadable
  · exact (h.add ctype).complete hseen (.inl hreadable)

lemma Settled.add (h : Settled ix t) (hsound : Sound ix done t) (ctype : Bytes) :
    Settled ix (after (TypeTable.add ix ctype) t).2 := by
  have hstep := hsound.add ctype
  intro c hc hreadable
  obtain hold | rfl | hplain := hstep.seen c hc
  · exact hstep.keeps c (h c hold hreadable)
  · exact hstep.found (hsound.isSome_add_of_readable h hreadable)
  · obtain hbase | hplain := (readable_iff_of_not_isRecord hplain).1 hreadable
    · exact (hstep.sound.base c hbase).2
    · exact hstep.sound.plain c hc hplain

/-- Asks for types one after the other, whether or not they have readers. -/
def addAll (ix : Index) : List Bytes → TableM Unit
  | [] => pure ()
  | ctype :: rest => do
    let _ ← TypeTable.add ix ctype
    addAll ix rest

lemma sizeFree_addAll (types : List Bytes) : SizeFree ix (addAll ix types) := by
  induction types with
  | nil => exact sizeFree_pure _
  | cons ctype rest ih => exact (sizeFree_add ctype).bind fun _ => ih

/-- What is true of every table stays true, whatever is asked for. -/
lemma Sound.addAll (h : Sound ix done t) (hsettled : Settled ix t) (types : List Bytes) :
    (∃ done', Sound ix done' (after (addAll ix types) t).2) ∧ Settled ix
    (after (addAll ix types) t).2 := by
  induction types generalizing done t with
  | nil => exact ⟨⟨done, h⟩, hsettled⟩
  | cons ctype rest ih =>
    have hstep : after (TypeTable.addAll ix (ctype :: rest)) t =
        after (TypeTable.addAll ix rest) (after (TypeTable.add ix ctype) t).2 :=
      after_bind (sizeFree_add ctype) (fun _ => sizeFree_addAll rest) t
    rw [hstep]
    exact ih (h.add ctype).sound (hsettled.add h ctype)

end

/-! ## Where the types of a table come from -/

/-- A type that is asked for with another: the type itself, or that of one of its fields. -/
def AskedWith (ix : Index) (ctype c : Bytes) : Prop :=
  c = ctype ∨ isRecord ix ctype ∧ ∃ f ∈ fieldsOf ix ctype, c = ix.fieldType f

/-- What the second table has besides the first is for types with a property. -/
structure GrownBy (ix : Index) (P : Bytes → Prop) (t t' : TypeTable) : Prop where
  rows : ∀ row ∈ t'.rows, row ∈ t.rows ∨ P row.ctype
  enums : ∀ r ∈ t'.enums, r ∈ t.enums ∨ ∃ c, P c ∧ r.ctype = (ix.describe c).ctype.unqualified.text
  records : ∀ r ∈ t'.records, r ∈ t.records ∨ ∃ c, P c ∧ r.ctype =
    (ix.describe c).ctype.unqualified.text

namespace GrownBy

variable {P Q : Bytes → Prop} {t t' t'' : TypeTable}

lemma refl (P : Bytes → Prop) (t : TypeTable) : GrownBy ix P t t :=
  ⟨fun _ => .inl, fun _ => .inl, fun _ => .inl⟩

lemma trans (h : GrownBy ix P t t') (h' : GrownBy ix P t' t'') : GrownBy ix P t t'' where
  rows row hrow := (h'.rows row hrow).elim (h.rows row) .inr
  enums r hr := (h'.enums r hr).elim (h.enums r) .inr
  records r hr := (h'.records r hr).elim (h.records r) .inr

lemma mono (hPQ : ∀ c, P c → Q c) (h : GrownBy ix P t t') : GrownBy ix Q t t' where
  rows row hrow := (h.rows row hrow).imp_right (hPQ _)
  enums r hr := (h.enums r hr).imp_right fun ⟨c, hc, heq⟩ => ⟨c, hPQ c hc, heq⟩
  records r hr := (h.records r hr).imp_right fun ⟨c, hc, heq⟩ => ⟨c, hPQ c hc, heq⟩

end GrownBy

section

variable {P : Bytes → Prop} {t : TypeTable} {ctype : Bytes}

lemma grownBy_withRow (h : P ctype) (reader : Option Bytes) :
    GrownBy ix P t (t.withRow ctype reader) := by
  refine ⟨fun row hrow => ?_, fun _ => .inl, fun _ => .inl⟩
  rcases List.mem_append.1 hrow with hrow | hrow
  · exact .inl hrow
  · obtain ⟨_, -, rfl⟩ := Option.map_eq_some_iff.1 (Option.mem_toList.1 hrow)
    exact .inr h

lemma grownBy_addWith (hmake : ∀ c, SizeFree ix (make c))
    (hgrown : GrownBy ix P (t.marked ctype) (after (make ctype) (t.marked ctype)).2) (h : P ctype) :
    GrownBy ix P t (after (addWith make ctype) t).2 := by
  by_cases hseen : ctype ∈ t.seen
  · rw [after_addWith_seen hseen]
    exact .refl P t
  · rw [after_addWith_new hmake hseen]
    have hmarked : GrownBy ix P t (t.marked ctype) := ⟨fun _ => .inl, fun _ => .inl, fun _ => .inl⟩
    exact (hmarked.trans hgrown).trans (grownBy_withRow h _)

lemma grownBy_plainReader (h : P ctype) (t : TypeTable) :
    GrownBy ix P t (after (plainReader ix ctype) t).2 := by
  have hchange : EnumChange ix ctype t (after (plainReader ix ctype) t).2 :=
    enumChange_plainReader ctype t
  exact ⟨fun row hrow => .inl (hchange.rows ▸ hrow),
    fun r hr => (hchange.enums r hr).imp_right fun heq => ⟨ctype, h, heq⟩,
    fun r hr => .inl (hchange.records ▸ hr)⟩

lemma grownBy_fieldRows? (h : ∀ f ∈ fields, P (ix.fieldType f)) (t : TypeTable) :
    GrownBy ix P t (after (fieldRows? ix fields) t).2 := by
  induction fields generalizing t with
  | nil => exact .refl P t
  | cons f rest ih =>
    cases hbits : f.isBitField with
    | true =>
      unfold fieldRows?
      rw [if_pos hbits]
      exact .refl P t
    | false =>
      have hf : P (ix.fieldType f) := h f (by simp)
      have hfirst : GrownBy ix P t (after (addWith (plainReader ix) (ix.fieldType f)) t).2 :=
        grownBy_addWith sizeFree_plainReader (grownBy_plainReader hf _) hf
      rw [after_fieldRows?_cons hbits]
      generalize after (addWith (plainReader ix) (ix.fieldType f)) t = r at hfirst ⊢
      obtain ⟨_ | reader, t₁⟩ := r
      · exact hfirst
      · exact hfirst.trans (ih (fun f' hf' => h f' (by simp [hf'])) t₁)

lemma grownBy_recordReader? (hrecord : isRecord ix ctype) (t : TypeTable) :
    GrownBy ix (AskedWith ix ctype) t (after (recordReader? ix ctype (ix.describe ctype)) t).2 := by
  have hfields : GrownBy ix (AskedWith ix ctype) t
      (after (fieldRows? ix (fieldsOf ix ctype)) t).2 :=
    grownBy_fieldRows? (fun f hf => .inr ⟨hrecord, f, hf, rfl⟩) t
  rw [after_recordReader? hrecord, after_fieldsReader?]
  split
  · split
    · exact .refl _ t
    · generalize after (fieldRows? ix (fieldsOf ix ctype)) t = r at hfields ⊢
      obtain ⟨_ | rows, t₁⟩ := r
      · exact hfields
      · refine hfields.trans ⟨fun _ => .inl, fun _ => .inl, fun r hr => ?_⟩
        rcases List.mem_append.1 hr with hr | hr
        · exact .inl hr
        · exact .inr ⟨ctype, .inl rfl, by rw [List.mem_singleton.1 hr]⟩
  · exact .refl _ t

lemma grownBy_add (ctype : Bytes) (t : TypeTable) :
    GrownBy ix (AskedWith ix ctype) t (after (add ix ctype) t).2 := by
  refine grownBy_addWith sizeFree_makeReader ?_ (.inl rfl)
  unfold makeReader
  dsimp only
  split
  · exact grownBy_recordReader? ‹_› _
  · exact grownBy_plainReader (.inl rfl) _

end

end TypeTable

end UiCodegen.Interpreter
