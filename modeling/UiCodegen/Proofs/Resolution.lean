import UiCodegen.Proofs.CanonicalTypes
import UiCodegen.Proofs.Declarations

/-!
# Resolving a type twice

The canonical type of a chain is printed, read, and turned into a chain again; that chain has the
same canonical type. Three things could go wrong.  The names could be read differently, which
`CType.parse_text` excludes.  A base name could be renamed a second time: but a tag is renamed to a
typedef, and a typedef keeps its name (`canonicalName_idem`). And the chain could be cut at another
place, since only so many links are followed: but each level of a canonical type was one link of the
chain, so the new chain is cut only if the old one consisted of levels up to the cut, and then
`void` stands there in both (`Canonical`).
-/

namespace UiCodegen.Api

open CType (IsBase IsBaseWord primitiveWords)

variable {name w : Bytes} {base s : Bytes} {d : Description} {chain : Option TypeNode}

/-! ## Names -/

/-- An identifier of C: a letter or `_`, then letters, digits and `_`. -/
def IsIdentifier : Bytes → Prop
  | [] => False
  | b :: rest => (Bytes.isLetter b = true ∨ b = 95) ∧
      ∀ x ∈ rest, Bytes.isLetter x = true ∨ Bytes.isDigit x = true ∨ x = 95

instance : DecidablePred IsIdentifier
  | [] => .isFalse id
  | b :: rest => inferInstanceAs (Decidable ((Bytes.isLetter b = true ∨ b = 95) ∧
      ∀ x ∈ rest, Bytes.isLetter x = true ∨ Bytes.isDigit x = true ∨ x = 95))

/-- The name of a type: an identifier that is no qualifier, or words of C's own type names with one
space between neighbours. -/
def IsTypeName (s : Bytes) : Prop :=
  (IsIdentifier s ∧ s ≠ "const" ∧ s ≠ "volatile") ∨
    ∃ ws, ws ≠ [] ∧ (∀ w ∈ ws, w ∈ primitiveWords) ∧ s = Bytes.join " " ws

/-- The octets of identifiers and of `...`. -/
lemma isInk_of_name {b : UInt8}
    (h : Bytes.isLetter b = true ∨ Bytes.isDigit b = true ∨ b = 95 ∨ b = 46) :
    Blank.IsInk b ∧ b ≠ 42 ∧ b ≠ 91 := by
  simp only [Bytes.isLetter, Bytes.isLower, Bytes.isUpper, Bytes.isDigit, Bool.or_eq_true,
    Bool.and_eq_true,
    decide_eq_true_eq, UInt8.le_iff_toNat_le, UInt8.reduceToNat, ← UInt8.toNat_inj] at h
  simp only [Blank.IsInk, ne_eq, ← UInt8.toNat_inj, UInt8.reduceToNat]
  omega

lemma isBaseWord_of_octets (hne : w ≠ []) (hconst : w ≠ "const") (hvolatile : w ≠ "volatile")
    (hw : ∀ b ∈ w, Bytes.isLetter b = true ∨ Bytes.isDigit b = true ∨ b = 95 ∨ b = 46) :
    IsBaseWord w where
  isWord := ⟨hne, fun b hb => (isInk_of_name (hw b hb)).1⟩
  ne_const := hconst
  ne_volatile := hvolatile
  star_notMem := fun hb => (isInk_of_name (hw 42 hb)).2.1 rfl
  bracket_notMem := fun hb => (isInk_of_name (hw 91 hb)).2.2 rfl

lemma isBaseWord_of_mem_primitiveWords (hw : w ∈ primitiveWords) : IsBaseWord w := by
  have hall : ∀ w ∈ primitiveWords, w ≠ [] ∧ w ≠ "const" ∧ w ≠ "volatile" ∧
      ∀ b ∈ w, Bytes.isLetter b = true ∨ Bytes.isDigit b = true ∨ b = 95 ∨ b = 46 := by
    decide +kernel
  obtain ⟨hne, hconst, hvolatile, hoctets⟩ := hall w hw
  exact isBaseWord_of_octets hne hconst hvolatile hoctets

lemma isBase_of_isBaseWord (hw : IsBaseWord w) : IsBase w :=
  ⟨[w], by simp, by simpa using hw, by simp, by simp [Bytes.join]⟩

lemma isBase_of_mem_primitiveWords (hw : w ∈ primitiveWords) : IsBase w :=
  isBase_of_isBaseWord (isBaseWord_of_mem_primitiveWords hw)

lemma IsIdentifier.octets (h : IsIdentifier s) :
    s ≠ [] ∧ ∀ b ∈ s, Bytes.isLetter b = true ∨ Bytes.isDigit b = true ∨ b = 95 ∨ b = 46 := by
  cases s with
  | nil => exact h.elim
  | cons b rest =>
    obtain ⟨hfirst, hrest⟩ := h
    refine ⟨List.cons_ne_nil b rest, fun x hx => ?_⟩
    rcases List.mem_cons.1 hx with rfl | hx
    · exact hfirst.imp id fun h => .inr (.inl h)
    · exact (hrest x hx).imp id (Or.imp id .inl)

lemma IsTypeName.isBase (h : IsTypeName s) : IsBase s := by
  rcases h with ⟨hident, hconst, hvolatile⟩ | ⟨ws, hne, hws, rfl⟩
  · obtain ⟨hne, hoctets⟩ := hident.octets
    exact isBase_of_isBaseWord (isBaseWord_of_octets hne hconst hvolatile hoctets)
  · exact ⟨ws, hne, fun w hw => isBaseWord_of_mem_primitiveWords (hws w hw), fun _ => hws, rfl⟩

lemma isBase_variadicName : IsBase variadicName :=
  isBase_of_isBaseWord (isBaseWord_of_octets (by decide) (by decide) (by decide)
    (by decide +kernel))

lemma IsBase.ne_nil (h : IsBase base) : base ≠ [] := by
  obtain ⟨ws, hne, hws, -, rfl⟩ := h
  exact Blank.join_ne_nil hne fun w hw => (hws w hw).isWord.solid

/-! ## Chains and descriptions with proper names -/

/-- The typedefs of a description have proper names, and none of them names `...`. -/
def ProperTypedefs (d : Description) : Prop :=
  ∀ t ∈ d.typedefs, (t.name = [] ∨ IsTypeName t.name) ∧ ∀ node, t.type = some node →
    node.name ≠ variadicName

/-- A chain whose links are named properly if they are named.  The names of C's own types and of
those of its library are given, and are no tags that a typedef names.  A size is a machine integer.
-/
inductive ProperChain (ix : Index) : Option TypeNode → Prop
  | none : ProperChain ix none
  | some {node : TypeNode} (name : node.name = [] ∨ IsTypeName node.name)
      (scalar : node.kind = .primitive ∨ node.kind = .stdlib →
        node.name ≠ [] ∧ ix.aliases.lookup node.name = Option.none)
      (dim : ∀ n, node.dim = Option.some n → n < 2 ^ 63) (inner : ProperChain ix node.inner) :
      ProperChain ix (some node)

section Names

variable {d : Description}

lemma isSome_typedef?_iff :
    ((Index.ofDescription d).typedef? name).isSome ↔ name ≠ [] ∧ ∃ t ∈ d.typedefs,
    t.name = name := by
  rw [Index.typedef?, lastNamed?_eq_find?, List.find?_isSome]
  simp only [List.mem_reverse, beq_iff_eq]
  constructor
  · rintro ⟨t, ht, rfl⟩
    obtain ⟨hmem, hname⟩ := List.mem_filter.1 ht
    exact ⟨by simpa using hname, t, hmem, rfl⟩
  · rintro ⟨hne, t, hmem, rfl⟩
    exact ⟨t, List.mem_filter.2 ⟨hmem, by simpa using hne⟩, rfl⟩

lemma exists_of_lookup_aliases {tag : Bytes}
    (h : (Index.ofDescription d).aliases.lookup tag = some name) :
    ∃ t ∈ d.typedefs, t.name = name ∧ name ≠ [] ∧ ∃ node, t.type = some node ∧ node.name = tag := by
  obtain ⟨front, back, hsplit, -⟩ := List.lookup_eq_some_iff.1 h
  have hmem : (tag, name) ∈ (Index.ofDescription d).aliases := by simp [hsplit]
  obtain ⟨t, ht, halias⟩ := List.mem_filterMap.1 hmem
  obtain ⟨htypedef, hname⟩ := List.mem_filter.1 ht
  obtain ⟨node, hnode, hpair⟩ := Option.bind_eq_some_iff.1 halias
  have hboth : node.name = tag ∧ t.name = name := by
    split_ifs at hpair
    split at hpair <;> simp_all
  exact ⟨t, htypedef, hboth.2, by simpa [hboth.2] using hname, node, hnode, hboth.1⟩

lemma canonicalName_cases (name : Bytes) : (Index.ofDescription d).canonicalName name = name ∨
      ∃ printed, (Index.ofDescription d).canonicalName name = printed ∧
        (Index.ofDescription d).aliases.lookup name = some printed := by
  unfold Index.canonicalName
  split_ifs
  · exact .inl rfl
  · cases h : (Index.ofDescription d).aliases.lookup name with
    | none => exact .inl rfl
    | some printed => exact .inr ⟨printed, rfl, rfl⟩

lemma canonicalName_of_lookup (h : (Index.ofDescription d).aliases.lookup name = none) :
    (Index.ofDescription d).canonicalName name = name := by
  simp [Index.canonicalName, h]

/-- A name is not printed differently a second time. -/
lemma canonicalName_idem (name : Bytes) :
    (Index.ofDescription d).canonicalName ((Index.ofDescription d).canonicalName name) =
      (Index.ofDescription d).canonicalName name := by
  obtain hsame | ⟨printed, hname, hlookup⟩ := canonicalName_cases (d := d) name
  · rw [hsame, hsame]
  · obtain ⟨t, ht, htname, hne, -⟩ := exists_of_lookup_aliases hlookup
    have htypedef := isSome_typedef?_iff.2 ⟨hne, t, ht, htname⟩
    rw [hname, Index.canonicalName, if_pos htypedef]

variable (hd : ProperTypedefs d)

include hd

lemma isTypeName_canonicalName (h : IsTypeName name) :
    IsTypeName ((Index.ofDescription d).canonicalName name) := by
  obtain hsame | ⟨printed, hname, hlookup⟩ := canonicalName_cases (d := d) name
  · rwa [hsame]
  · obtain ⟨t, ht, rfl, hne, -⟩ := exists_of_lookup_aliases hlookup
    rw [hname]
    exact (hd t ht).1.resolve_left hne

lemma canonicalName_variadicName :
    (Index.ofDescription d).canonicalName variadicName = variadicName := by
  refine canonicalName_of_lookup ?_
  cases h : (Index.ofDescription d).aliases.lookup variadicName with
  | none => rfl
  | some printed =>
    obtain ⟨t, ht, -, -, node, hnode, hname⟩ := exists_of_lookup_aliases h
    exact absurd hname ((hd t ht).2 node hnode)

end Names

/-! ## Resolving a chain -/

/-- The levels of a type: its pointer levels and the array. -/
def CType.depth (c : CType) : Nat := c.pointers + if 0 ≤ c.dim then 1 else 0

/-- What is known of the canonical type of a chain of which so many links are followed.  Each level
is one of these links; if all of them are levels, the chain was cut behind them or ended there. -/
structure Canonical (ix : Index) (pos : Position) (links : Nat) (c : CType) : Prop where
  base : IsBase c.base
  stable : CType.baseKind c.base = .library → ix.canonicalName c.base = c.base
  dim : c.dim = -1 ∨ pos = .field ∧ 0 ≤ c.dim ∧ c.dim < 2 ^ 63
  depth_le : c.depth ≤ links
  full : c.depth = links → c.base = "void" ∧ c.const = false ∧ c.volatile = false

section Resolve

variable {ix : Index} {pos : Position} {links : Nat} {c : CType}

lemma canonical_void (links : Nat) : Canonical ix pos links { base := "void" } where
  base := isBase_of_mem_primitiveWords (by decide)
  stable := fun h => absurd h (by decide +kernel)
  dim := .inl rfl
  depth_le := Nat.zero_le _
  full := fun _ => ⟨rfl, rfl, rfl⟩

lemma canonical_named (hbase : IsBase base)
    (hstable : CType.baseKind base = .library → ix.canonicalName base = base) :
    Canonical ix pos (links + 1) { base } where
  base := hbase
  stable := hstable
  dim := .inl rfl
  depth_le := Nat.zero_le _
  full := fun h => by simp [CType.depth] at h

/-- Qualifiers stand behind a link, which is no level. -/
lemma Canonical.qualify (h : Canonical ix pos links c) (hlt : c.depth < links) (node : TypeNode) :
    Canonical ix pos links (Index.qualify c node) := by
  unfold Index.qualify
  split
  · exact h
  · exact ⟨h.base, h.stable, h.dim, h.depth_le, fun heq => absurd heq (Nat.ne_of_lt hlt)⟩

lemma Canonical.succ (h : Canonical ix pos links c) : Canonical ix pos (links + 1) c where
  base := h.base
  stable := h.stable
  dim := h.dim
  depth_le := Nat.le_succ_of_le h.depth_le
  full := fun heq => absurd h.depth_le (by omega)

/-- The qualifiers of a link that is no level. -/
lemma Canonical.qualify_succ (h : Canonical ix pos links c) (node : TypeNode) :
    Canonical ix pos (links + 1) (Index.qualify c node) :=
  h.succ.qualify (Nat.lt_succ_of_le h.depth_le) node

/-- A further pointer level, and no array. -/
lemma Canonical.pointer (h : Canonical ix pos links c) :
    Canonical ix pos (links + 1) { c with dim := -1, pointers := c.pointers + 1 } := by
  have hle := h.depth_le
  refine ⟨h.base, h.stable, .inl rfl, ?_, fun heq => h.full ?_⟩
  · simp only [CType.depth] at hle ⊢
    split_ifs at hle ⊢ <;> omega
  · simp only [CType.depth] at heq hle ⊢
    split_ifs at heq hle ⊢ <;> omega

/-- An array of a type that is none. -/
lemma Canonical.array (h : Canonical ix .field links c) (hdim : c.dim < 0) {size : Nat}
    (hsize : size < 2 ^ 63) : Canonical ix .field (links + 1) { c with dim := size } := by
  have hle := h.depth_le
  have hmachine : (size : ℤ) < 2 ^ 63 := by exact_mod_cast hsize
  refine ⟨h.base, h.stable, .inr ⟨rfl, Int.natCast_nonneg size, hmachine⟩, ?_, fun heq => h.full ?_⟩
  · simp only [CType.depth] at hle ⊢
    split_ifs at hle ⊢ <;> omega
  · simp only [CType.depth] at heq hle ⊢
    split_ifs at heq hle ⊢ <;> omega

end Resolve

/-- One case for each kind of link. -/
lemma canonical_resolveWithin (hd : ProperTypedefs d) (pos : Position) (links : Nat)
    (hchain : ProperChain (Index.ofDescription d) chain) :
    Canonical (Index.ofDescription d) pos links
    ((Index.ofDescription d).resolveWithin pos links chain) := by
  induction links generalizing chain with
  | zero =>
    cases chain with
    | none => exact canonical_void 0
    | some node => exact canonical_void 0
  | succ links ih =>
    cases hchain with
    | none => exact canonical_void _
    | @some node hname hscalar hdim hinner =>
      have hinner := ih hinner
      have hnamed : node.name ≠ [] → Canonical (Index.ofDescription d) pos (links + 1)
          (Index.qualify { base := (Index.ofDescription d).canonicalName node.name } node) := by
        intro hne
        have hbase := (isTypeName_canonicalName hd (hname.resolve_left hne)).isBase
        exact (canonical_named hbase fun _ => canonicalName_idem node.name).qualify
          (by simp [CType.depth]) node
      cases hkind : node.kind with
      | returnType | argument | field =>
        simp only [Index.resolveWithin, hkind]
        exact hinner.qualify_succ node
      | pointer =>
        simp only [Index.resolveWithin, hkind]
        exact hinner.pointer
      | array =>
        simp only [Index.resolveWithin, hkind]
        split
        · rename_i size hsize
          split_ifs with hkept
          · simp only [Bool.and_eq_true, beq_iff_eq, decide_eq_true_eq] at hkept
            obtain ⟨rfl, hnone⟩ := hkept
            exact hinner.array hnone (hdim size hsize)
          · exact hinner.pointer
        · exact hinner.pointer
      | functionPointer =>
        simp only [Index.resolveWithin, hkind]
        exact (canonical_void links).pointer
      | special =>
        simp only [Index.resolveWithin, hkind]
        exact canonical_named isBase_variadicName fun _ => canonicalName_variadicName hd
      | primitive | stdlib =>
        simp only [Index.resolveWithin, hkind]
        obtain ⟨hne, hlookup⟩ := hscalar (by simp [hkind])
        exact (canonical_named (hname.resolve_left hne).isBase fun _ =>
          canonicalName_of_lookup hlookup).qualify
          (by simp [CType.depth]) node
      | typedef =>
        simp only [Index.resolveWithin, hkind]
        split_ifs with hempty
        · exact hinner.qualify_succ node
        · exact hnamed (by simpa using hempty)
      | library | enum | struct | union | forward | unknown | other =>
        simp only [Index.resolveWithin, hkind]
        split_ifs with hempty hsome
        · exact hnamed (by simpa using hempty)
        · exact hinner.qualify_succ node
        · exact canonical_named (isBase_of_mem_primitiveWords (by decide)) fun h =>
            absurd h (by decide +kernel)

/-! ## Resolving the chain of a type -/

section Rebuild

variable {ix : Index} {pos : Position} {links : Nat} {c : CType}

lemma resolveWithin_baseNode (hbase : IsBase c.base)
    (hstable : CType.baseKind c.base = .library → ix.canonicalName c.base = c.base)
    {quals : List Bytes}
    (hconst : quals.contains "const" = c.const)
    (hvolatile : quals.contains "volatile" = c.volatile) :
    ix.resolveWithin pos (links + 1)
    (some (.mk (CType.baseKind c.base) c.base quals none [] none)) =
      { c with pointers := 0, dim := -1 } := by
  have hqualify : ∀ kind, Index.qualify { base := c.base } (.mk kind c.base quals none [] none) =
      { c with pointers := 0, dim := -1 } := by
    intro kind
    simp only [Index.qualify, hconst, hvolatile, Bool.false_or]
    rfl
  have hkinds : CType.baseKind c.base = .primitive ∨ CType.baseKind c.base = .stdlib ∨
      CType.baseKind c.base = .library := by
    unfold CType.baseKind
    split_ifs <;> simp
  rcases hkinds with hkind | hkind | hkind
  · simpa only [Index.resolveWithin, hkind] using hqualify .primitive
  · simpa only [Index.resolveWithin, hkind] using hqualify .stdlib
  · have hname : c.base.isEmpty = false := List.isEmpty_eq_false_iff.2 (IsBase.ne_nil hbase)
    simpa only [Index.resolveWithin, hkind, hname, Bool.not_false, if_true, hstable hkind] using
      hqualify .library

lemma resolveWithin_wrapPointers {node : TypeNode}
    (hdim : (ix.resolveWithin pos links (some node)).dim = -1) (n : Nat) :
    ix.resolveWithin pos (links + n) (some (CType.wrapPointers node n)) =
      { ix.resolveWithin pos links (some node) with
        pointers := (ix.resolveWithin pos links (some node)).pointers + n } := by
  induction n with
  | zero => rfl
  | succ n ih =>
    rw [← Nat.add_assoc, CType.wrapPointers, TypeNode.wrap, Index.resolveWithin]
    simp only [ih, hdim, Nat.add_assoc]

lemma exists_toNode_eq (c : CType) :
    ∃ quals : List Bytes, quals.contains "const" = c.const ∧
      quals.contains "volatile" = c.volatile ∧ c.toNode = if 0 ≤ c.dim then
        .wrap .array
        (CType.wrapPointers (.mk (CType.baseKind c.base) c.base quals none [] none) c.pointers)
          (some c.dim.toNat)
      else CType.wrapPointers (.mk (CType.baseKind c.base) c.base quals none [] none)
      c.pointers := by
  refine ⟨_, ?_, ?_, rfl⟩
  all_goals cases c.const <;> cases c.volatile <;> decide

lemma Canonical.resolveWithin_toNode (h : Canonical ix pos links c) :
    ix.resolveWithin pos links (some c.toNode) = c := by
  obtain ⟨quals, hconst, hvolatile, hnode⟩ := exists_toNode_eq c
  obtain ⟨rest, hlinks⟩ := Nat.exists_eq_add_of_le h.depth_le
  -- Where no link is left for the base name, it is `void` as the cut chain has it.
  have hbase : ix.resolveWithin pos rest
      (some (.mk (CType.baseKind c.base) c.base quals none [] none)) =
      { c with pointers := 0, dim := -1 } := by
    cases rest with
    | zero =>
      obtain ⟨hvoid, hnotConst, hnotVolatile⟩ := h.full hlinks.symm
      simp [Index.resolveWithin, hvoid, hnotConst, hnotVolatile]
    | succ rest => exact resolveWithin_baseNode h.base h.stable hconst hvolatile
  have hpointers := resolveWithin_wrapPointers (by rw [hbase]) c.pointers
  rw [hbase] at hpointers
  simp only [Nat.zero_add] at hpointers
  rw [hnode, hlinks, CType.depth]
  rcases h.dim with hdim | ⟨rfl, hnonneg, -⟩
  · rw [if_neg (by omega), if_neg (by omega), Nat.add_zero, Nat.add_comm, hpointers, ← hdim]
  · rw [if_pos hnonneg, if_pos hnonneg, Nat.add_comm, ← Nat.add_assoc, TypeNode.wrap,
      Index.resolveWithin]
    simp [hpointers, Int.toNat_of_nonneg hnonneg]

lemma Canonical.unqualified (h : Canonical ix pos links c) :
    Canonical ix pos links c.unqualified where
  base := h.base
  stable := h.stable
  dim := h.dim
  depth_le := h.depth_le
  full := fun heq => ⟨(h.full heq).1, rfl, rfl⟩

lemma Canonical.resolve_toNode (h : Canonical ix pos (chainLimit + 1) c)
    (hplain : c.pointers = 0 → c.dim < 0 → c.unqualified = c) :
    ix.resolve (some c.toNode) pos = c := by
  rw [Index.resolve, h.resolveWithin_toNode]
  split_ifs with hvalue
  · simp only [Bool.and_eq_true, beq_iff_eq, decide_eq_true_eq] at hvalue
    exact hplain hvalue.1 hvalue.2
  · rfl

end Rebuild

lemma canonical_resolve (hd : ProperTypedefs d) (pos : Position)
    (hchain : ProperChain (Index.ofDescription d) chain) :
    Canonical (Index.ofDescription d) pos (chainLimit + 1)
    ((Index.ofDescription d).resolve chain pos) := by
  have hwithin := canonical_resolveWithin hd pos (chainLimit + 1) hchain
  unfold Index.resolve
  dsimp only
  split_ifs
  · exact hwithin.unqualified
  · exact hwithin

lemma unqualified_resolve (ix : Index) (chain : Option TypeNode) (pos : Position)
    (hpointers : (ix.resolve chain pos).pointers = 0) (hdim : (ix.resolve chain pos).dim < 0) :
    (ix.resolve chain pos).unqualified = ix.resolve chain pos := by
  unfold Index.resolve at hpointers hdim ⊢
  dsimp only at hpointers hdim ⊢
  split_ifs at hpointers hdim ⊢ with hvalue
  · rfl
  · exact absurd (by simp [hpointers, hdim]) hvalue

/-- The canonical type of a chain is read back from its text, and the chain that is made of it
resolves to it again. -/
theorem resolution_idempotent (d : Description) (hd : ProperTypedefs d) (pos : Position)
    (chain : Option TypeNode) (hchain : ProperChain (Index.ofDescription d) chain) :
    ∃ c, CType.parse ((Index.ofDescription d).typeText chain pos) = .ok c ∧
      c = (Index.ofDescription d).resolve chain pos ∧
      (Index.ofDescription d).typeText (some c.toNode) pos = (Index.ofDescription d).typeText
      chain pos := by
  have hcanonical := canonical_resolve hd pos hchain
  have hdim := hcanonical.dim.imp id And.right
  refine ⟨(Index.ofDescription d).resolve chain pos, CType.parse_text hcanonical.base hdim, rfl, ?_⟩
  have hsame := hcanonical.resolve_toNode (unqualified_resolve _ chain pos)
  exact congrArg CType.text hsame

def taggedApi : Description where
  typedefs := [{ name := "lv_obj_t", type := some (.mk .struct "_lv_obj_t" [] none [] none) }]

/-- A field that holds three pointers to constant objects, which are given by their tag. -/
def taggedField : Option TypeNode :=
  some (.wrap .field
    (.wrap .array (.wrap .pointer (.mk .library "_lv_obj_t" ["const"] none [] none)) (some 3)))

theorem taggedField_resolution_idempotent :
    ProperTypedefs taggedApi ∧ ProperChain (Index.ofDescription taggedApi) taggedField ∧
      (Index.ofDescription taggedApi).typeText taggedField .field = "const lv_obj_t *[3]" ∧
      ∃ c, CType.parse ((Index.ofDescription taggedApi).typeText taggedField .field) = .ok c ∧
        c = (Index.ofDescription taggedApi).resolve taggedField .field ∧
        (Index.ofDescription taggedApi).typeText (some c.toNode) .field =
          (Index.ofDescription taggedApi).typeText taggedField .field := by
  have htypedef : IsTypeName "lv_obj_t" := .inl (by decide +kernel)
  have htag : IsTypeName "_lv_obj_t" := .inl (by decide +kernel)
  have hd : ProperTypedefs taggedApi := by
    intro t ht
    rw [List.mem_singleton.1 ht]
    refine ⟨.inr htypedef, fun node hnode => ?_⟩
    cases hnode
    decide
  have hchain : ProperChain (Index.ofDescription taggedApi) taggedField := by
    refine .some (.inl rfl) (by decide) (by simp [TypeNode.wrap]) ?_
    refine .some (.inl rfl) (by decide) (by simp [TypeNode.wrap]) ?_
    refine .some (.inl rfl) (by decide) (by simp [TypeNode.wrap]) ?_
    exact .some (.inr htag) (by decide) (by simp) .none
  exact ⟨hd, hchain, by decide +kernel, resolution_idempotent taggedApi hd .field
    taggedField hchain⟩

end UiCodegen.Api
