import UiCodegen.Proofs.Inlining
import UiCodegen.Proofs.Variables

/-!
# A variable and the value it is bound to

Where a value is formatted, a variable and the value that its innermost binding gives it are the
same thing, as long as that value holds no variables itself: writing the value in place of the
variable changes nothing in what a run does. This is about the values of attributes, with what
stands inside them, and about the targets of `with` blocks.  Other parts of a document are used as
they are.
-/

namespace UiCodegen.Transpile

variable (cfg : Settings)

open Run

/-! ## Where variables are read -/

/-- What a part of a document is to the variables in it. -/
inductive Slot where
  | node
  | nodes
  /-- The inner part of a `with` block: attributes and children. -/
  | inner
  /-- A `with` block or an array of them. -/
  | blocks
  | block
  | value
  | arguments
  | fixed
  deriving DecidableEq, Repr

def attributeSlot (key : Bytes) : Slot :=
  if key == "children" then .nodes
  else if key == "with" then .blocks
  else if metaKeys.contains key then .fixed
  else .value

/-- What a field of a `with` block is. -/
def blockSlot (key : Bytes) : Slot :=
  if key == "do" then .inner else if key == "obj" then .value else .fixed

def NodeKind.slot (kind : NodeKind) (key : Bytes) : Slot :=
  match kind with
  | .component => if key == "root" || metaKeys.contains key then .fixed else .value
  | .use => if metaKeys.contains key then .fixed else .value
  | .context =>
    if key == "for" then .node
    else if key == "values" || metaKeys.contains key then .fixed else .value
  | .style | .widget _ => attributeSlot key

/-- What a field of an object of values is: the object is a call or a record. -/
def valueSlot (fields : Fields) (key : Bytes) : Slot :=
  if fields.has "call" then if key == "args" then .arguments else .fixed else .value

def objectUnder (fields : Fields) (key : Bytes) : Option Fields :=
  (fields.get? key).bind Value.fields?

def NodeKind.scope (kind : NodeKind) (node : Fields) (s : Scope) : Scope :=
  match kind with
  | .component | .use => s
  | .context => s.extend (objectUnder node "values")
  | .style | .widget _ => s.extend (objectUnder node "context")

namespace Slot

def field : Slot → Fields → Bytes → Slot
  | .node, fields => (kindOf fields).slot
  | .inner, _ => attributeSlot
  | .blocks, _ | .block, _ => blockSlot
  | .value, fields => valueSlot fields
  | _, _ => fun _ => .fixed

def scope : Slot → Fields → Scope → Scope
  | .node, fields, s => (kindOf fields).scope fields s
  | .inner, fields, s => s.extend (objectUnder fields "context")
  | _, _, s => s

def item : Slot → Slot
  | .nodes => .node
  | .blocks => .block
  | .value | .arguments => .value
  | _ => .fixed

end Slot

/-! ## Values in place of variables -/

mutual

/-- The same part of a document in a scope, except that some variables are replaced by what they are
bound to. -/
inductive Inlines : Slot → Scope → Value → Value → Prop
  | same (slot : Slot) (s : Scope) (v : Value) : Inlines slot s v v
  | var {s outer : Scope} {text name : Bytes} {w : Value}
      (htext : Form.ofString text = .contextVar name)
      (hbound : s.lookup? name = some (w, outer)) (hw : VariableFree w) : Inlines .value s
        (.str text) w
  | fields {slot : Slot} {s : Scope} {fields fields' : Fields}
      (h : InlinesFields (slot.field fields) (slot.scope fields s) fields fields') :
      Inlines slot s (.obj fields) (.obj fields')
  | items {slot : Slot} {s : Scope} {items items' : List Value}
      (h : InlinesItems slot.item s items items') : Inlines slot s (.arr items) (.arr items')

/-- The same keys in the same order. -/
inductive InlinesFields : (Bytes → Slot) → Scope → Fields → Fields → Prop
  | nil (slot : Bytes → Slot) (s : Scope) : InlinesFields slot s [] []
  | cons {slot : Bytes → Slot} {s : Scope} {key : Bytes} {v v' : Value} {rest rest' : Fields}
      (hv : Inlines (slot key) s v v') (hrest : InlinesFields slot s rest rest') :
      InlinesFields slot s ((key, v) :: rest) ((key, v') :: rest')

/-- As many items. -/
inductive InlinesItems : Slot → Scope → List Value → List Value → Prop
  | nil (slot : Slot) (s : Scope) : InlinesItems slot s [] []
  | cons {slot : Slot} {s : Scope} {v v' : Value} {rest rest' : List Value}
      (hv : Inlines slot s v v')
      (hrest : InlinesItems slot s rest rest') : InlinesItems slot s (v :: rest) (v' :: rest')

end

section

variable {s : Scope}

lemma InlinesItems.length_eq {slot : Slot} {items items' : List Value}
    (h : InlinesItems slot s items items') : items'.length = items.length := by
  induction items generalizing items' with
  | nil =>
    cases h
    rfl
  | cons v rest ih =>
    cases h with
    | cons hv hrest => rw [List.length_cons, List.length_cons, ih hrest]

lemma InlinesFields.refl (slot : Bytes → Slot) (s : Scope) (fields : Fields) :
    InlinesFields slot s fields fields := by
  induction fields with
  | nil => exact .nil slot s
  | cons field rest ih => exact .cons (.same _ _ _) ih

lemma InlinesItems.refl (slot : Slot) (s : Scope) (items : List Value) :
    InlinesItems slot s items items := by
  induction items with
  | nil => exact .nil slot s
  | cons v rest ih => exact .cons (.same _ _ _) ih

mutual

lemma Inlines.eq_of_fixed {slot : Slot} {v v' : Value} (hpart : slot = .fixed) :
    Inlines slot s v v' → v' = v
  | .same _ _ _ => rfl
  | .var _ _ _ => by cases hpart
  | .fields h => by
    subst hpart
    rw [h.eq_of_fixed fun _ => rfl]
  | .items h => by
    subst hpart
    rw [h.eq_of_fixed rfl]

lemma InlinesFields.eq_of_fixed {slot : Bytes → Slot} {fields fields' : Fields}
    (hpart : ∀ key, slot key = .fixed) : InlinesFields slot s fields fields' → fields' = fields
  | .nil _ _ => rfl
  | .cons hv hrest => by rw [hv.eq_of_fixed (hpart _), hrest.eq_of_fixed hpart]

lemma InlinesItems.eq_of_fixed {slot : Slot} {items items' : List Value} (hpart : slot = .fixed) :
    InlinesItems slot s items items' → items' = items
  | .nil _ _ => rfl
  | .cons hv hrest => by rw [hv.eq_of_fixed hpart, hrest.eq_of_fixed hpart]

end

/-- Apart from values, both are objects, both are arrays, or they are the same. -/
lemma Inlines.shape {slot : Slot} {v v' : Value} (h : Inlines slot s v v') (hslot : slot ≠ .value) :
    match v with
    | .obj node =>
      ∃ node', v' = .obj node' ∧ InlinesFields (slot.field node) (slot.scope node s) node node'
    | .arr vs => ∃ vs', v' = .arr vs' ∧ InlinesItems slot.item s vs vs'
    | v => v' = v := by
  cases h with
  | same =>
    cases v with
    | obj node => exact ⟨node, rfl, .refl _ _ _⟩
    | arr vs => exact ⟨vs, rfl, .refl _ _ _⟩
    | _ => rfl
  | var => exact absurd rfl hslot
  | fields h => exact ⟨_, rfl, h⟩
  | items h => exact ⟨_, rfl, h⟩

/-! ## Looking under keys -/

namespace InlinesFields

variable {slot : Bytes → Slot} {fields fields' : Fields} (h : InlinesFields slot s fields fields')
  {key : Bytes}
include h

lemma forall₂ :
    List.Forall₂ (fun pair pair' => pair'.1 = pair.1 ∧ Inlines (slot pair.1) s pair.2 pair'.2)
    fields fields' := by
  induction fields generalizing fields' with
  | nil =>
    cases h
    exact .nil
  | cons field rest ih =>
    cases h with
    | cons hv hrest => exact .cons ⟨rfl, hv⟩ (ih hrest)

lemma rel_get? (key : Bytes) :
    Option.Rel (Inlines (slot key) s) (fields.get? key) (fields'.get? key) :=
  rel_get?_of_forall₂ (R := fun key => Inlines (slot key) s) h.forall₂ key

lemma get?_none (hget : fields.get? key = none) : fields'.get? key = none :=
  get?_none_of_forall₂ (R := fun key => Inlines (slot key) s) h.forall₂ hget

lemma get?_some {v : Value} (hget : fields.get? key = some v) :
    ∃ v', fields'.get? key = some v' ∧ Inlines (slot key) s v v' :=
  get?_some_of_forall₂ (R := fun key => Inlines (slot key) s) h.forall₂ hget

lemma get?_eq (hslot : slot key = .fixed) : fields'.get? key = fields.get? key :=
  get?_eq_of_forall₂ (R := fun key => Inlines (slot key) s) h.forall₂ fun _ _ hv =>
    hv.eq_of_fixed hslot

lemma keys_eq : fields'.keys = fields.keys := by
  have hsame : List.Forall₂ (· = ·) (fields'.map Prod.fst) (fields.map Prod.fst) := by
    rw [List.forall₂_map_left_iff, List.forall₂_map_right_iff]
    exact h.forall₂.flip.imp fun _ _ hpair => hpair.1
  rw [List.forall₂_eq_eq_eq] at hsame
  rw [Fields.keys, Fields.keys, hsame]

end InlinesFields

lemma InlinesFields.ofFields {fields fields' : Fields}
    (h : InlinesFields (valueSlot fields) s fields fields') :
    (∃ why, Form.ofFields fields = .error why ∧ Form.ofFields fields' = .error why) ∨
    (∃ function args args', Form.ofFields fields = .ok (.call function args) ∧
      Form.ofFields fields' = .ok (.call function args') ∧ InlinesItems .value s args args') ∨
    Form.ofFields fields = .ok (.struct fields) ∧ Form.ofFields fields' = .ok (.struct fields') ∧
      InlinesFields (fun _ => .value) s fields fields' := by
  have hcall := h.rel_get? "call"
  unfold Form.ofFields
  cases hget : fields.get? "call" with
  | none =>
    have hslot : valueSlot fields = fun _ => .value := by
      unfold valueSlot Fields.has
      rw [hget]
      rfl
    rw [hslot] at h
    rw [hget] at hcall
    generalize fields'.get? "call" = found' at hcall
    cases hcall
    exact .inr (.inr ⟨rfl, rfl, h⟩)
  | some v =>
    have hslot : ∀ key, valueSlot fields key = if key == "args" then .arguments else .fixed := by
      intro key
      unfold valueSlot Fields.has
      rw [hget]
      rfl
    have hget' : fields'.get? "call" = some v := by
      rw [h.get?_eq (by rw [hslot]; rfl), hget]
    rw [hget']
    cases v with
    | str function =>
      cases function with
      | nil => exact .inl ⟨_, rfl, rfl⟩
      | cons c rest =>
        have hargs : Option.Rel (Inlines .arguments s) (fields.get? "args")
            (fields'.get? "args") := by
          have hrel := h.rel_get? "args"
          rw [hslot] at hrel
          exact hrel
        generalize fields.get? "args" = found, fields'.get? "args" = found' at hargs
        cases hargs with
        | none => exact .inr (.inl ⟨_, _, _, rfl, rfl, .nil _ _⟩)
        | @some v v' hv =>
          cases hv with
          | same =>
            cases v with
            | null => exact .inr (.inl ⟨_, _, _, rfl, rfl, .nil _ _⟩)
            | arr items => exact .inr (.inl ⟨_, _, _, rfl, rfl, .refl _ _ _⟩)
            | _ => exact .inl ⟨_, rfl, rfl⟩
          | fields h =>
            rw [h.eq_of_fixed fun _ => rfl]
            exact .inl ⟨_, rfl, rfl⟩
          | items h => exact .inr (.inl ⟨_, _, _, rfl, rfl, h⟩)
    | _ => exact .inl ⟨_, rfl, rfl⟩

end

/-! ## Formatting -/

/-- A call or a record, by the form of the object. -/
lemma format_object (p : Place) (fields : Fields) (ctype : Bytes) :
    format cfg p (.obj fields) ctype =
      let info := cfg.index.describe ctype
      match Form.ofFields fields with
      | .error why => fail (.badValue why) p.at_
      | .ok (.call function args) => do
        let (e, result) ← formatCall cfg p function args
        if result == "void" then fail (.returnsVoid function) p.at_ else pure e
      | .ok _ =>
        if info.cls == .struct || info.cls == .color then
          match info.record with
          | none => p.mismatch "object" ctype
          | some record => do
            let parts ← formatFields cfg p ctype record fields
            pure (.compound info.ctype.unqualified.text parts)
        else p.mismatch "object" ctype := by
  rw [format]
  dsimp only
  split <;> rename_i hform
  · rw [hform]
  · rw [hform]
  · rename_i form hcall
    rw [hform]
    cases form with
    | call function args => exact absurd rfl (hcall function args)
    | _ => rfl

mutual

lemma format_inlined (cfg : Settings) {p : Place} {v v' : Value} (h : Inlines .value p.scope v v')
    (ctype : Bytes) : format cfg p v' ctype = format cfg p v ctype := by
  match v, v', h with
  | _, _, .same _ _ _ => rfl
  | _, _, .var htext hbound hw =>
    rw [format_variable htext]
    simp only [hbound]
    exact (format_scope cfg p _ hw ctype).symm
  | .arr items, .arr items', .items hitems =>
    have hformat := formatItems_inlined cfg hitems
    rw [format, format]
    simp only [hformat, hitems.length_eq]
  | .obj fields, .obj fields', .fields hfields =>
    rw [format_object, format_object]
    obtain ⟨why, hwhy, hwhy'⟩ | ⟨function, args, args', hcall, hcall', hargs⟩ | ⟨hstruct,
        hstruct', hvalues⟩ :=
      hfields.ofFields
    · rw [hwhy, hwhy']
    · have : sizeOf args < 1 + sizeOf fields := sizeOf_callArgs_lt hcall
      rw [hcall, hcall']
      dsimp only
      rw [formatCall_inlined cfg hargs]
    · rw [hstruct, hstruct']
      dsimp only
      simp only [formatFields_inlined cfg hvalues]
termination_by (sizeOf v, 0)

lemma formatItems_inlined (cfg : Settings) {p : Place} {items items' : List Value}
    (h : InlinesItems .value p.scope items items') (i : Nat) (typeOf : Nat → Bytes) :
    formatItems cfg p i items' typeOf = formatItems cfg p i items typeOf := by
  match items, items', h with
  | [], [], _ => rfl
  | v :: rest, v' :: rest', .cons hv hrest =>
    have hfirst : Inlines .value (p.index i).scope v v' := hv
    rw [formatItems, formatItems, format_inlined cfg hfirst, formatItems_inlined cfg hrest]
termination_by (sizeOf items, 0)

lemma formatFields_inlined (cfg : Settings) {p : Place} {fields fields' : Fields}
    (h : InlinesFields (fun _ => .value) p.scope fields fields') (ctype : Bytes)
    (record : Api.StructRecord) :
    formatFields cfg p ctype record fields' = formatFields cfg p ctype record fields := by
  match fields, fields', h with
  | [], [], _ => rfl
  | (key, v) :: rest, (_, v') :: rest', .cons hv hrest =>
    have hfirst : Inlines .value (p.key key).scope v v' := hv
    rw [formatFields, formatFields, formatFields_inlined cfg hrest]
    simp only [format_inlined cfg hfirst]
termination_by (sizeOf fields, 0)

lemma formatCall_inlined (cfg : Settings) {p : Place} {args args' : List Value}
    (h : InlinesItems .value p.scope args args') (function : Bytes) :
    formatCall cfg p function args' = formatCall cfg p function args := by
  have hargs : ∀ (inner : Place) (typeOf : Nat → Bytes), inner.scope = p.scope →
      formatItems cfg inner 0 args' typeOf = formatItems cfg inner 0 args typeOf :=
    fun inner typeOf hscope => formatItems_inlined cfg (by rw [hscope]; exact h) 0 typeOf
  rw [formatCall, formatCall, h.length_eq]
  refine bind_congr fun f => ?_
  split
  · rfl
  · dsimp only
    rw [hargs]
    rfl
termination_by (sizeOf args, 1)

end

/-! ## Attributes and targets -/

/-- Without variables there is nothing to follow. -/
lemma followVariables_of_variableFree {w : Value} (hw : VariableFree w) (s : Scope) (at_ : Pointer)
    (steps : Nat) : followVariables at_ (steps + 1) w s = pure (w, s) := by
  unfold followVariables
  cases w with
  | str text =>
    have hno := hw text .refl
    dsimp only
    split
    · rename_i name htext
      exact absurd htext (hno name)
    · rfl
  | _ => rfl

/-- A variable leads to the value that it is bound to, if that holds no variables. -/
lemma deref_variable {s outer : Scope} {text name : Bytes} {w : Value}
    (htext : Form.ofString text = .contextVar name)
    (hbound : s.lookup? name = some (w, outer)) (hw : VariableFree w) (at_ : Pointer) :
    deref (.str text) s at_ = pure (w, outer) := by
  unfold deref maxVariables followVariables
  simp only [htext, hbound]
  exact followVariables_of_variableFree hw outer at_ 30

/-- The same but for variables inside. -/
inductive InlinesInside (s : Scope) : Value → Value → Prop
  | items {items items' : List Value} (h : InlinesItems .value s items items') :
      InlinesInside s (.arr items) (.arr items')
  | fields {fields fields' : Fields} (h : InlinesFields (valueSlot fields) s fields fields') :
      InlinesInside s (.obj fields) (.obj fields')

variable {α : Type} {key : Bytes} {f : Frame} {v' : Value}

lemma deref_bind_inlined {s : Scope} {v : Value} (h : Inlines .value s v v') (at_ : Pointer)
    {k : Value × Scope → Run α} (hscope : ∀ w s', VariableFree w → k (w, s) = k (w, s'))
    (hinside : ∀ v v', InlinesInside s v v' → k (v', s) = k (v, s)) :
    deref v' s at_ >>= k = deref v s at_ >>= k := by
  cases h with
  | same => rfl
  | var htext hbound hw =>
    rw [deref_variable htext hbound hw, deref, maxVariables, followVariables_of_variableFree hw,
      pure_bind, pure_bind]
    exact hscope _ _ hw
  | fields h => exact hinside _ _ (.fields h)
  | items h => exact hinside _ _ (.items h)

section

variable {s : Scope} {v v' : Value}

lemma InlinesInside.setterPlan? (h : InlinesInside s v v') (cfg : Settings) (f : Api.FunctionInfo) :
    setterPlan? cfg f v' = setterPlan? cfg f v := by
  cases h with
  | items h => simp only [Transpile.setterPlan?, h.length_eq]
  | fields => rfl

lemma InlinesInside.describeValue (h : InlinesInside s v v') :
    describeValue v' = describeValue v := by
  cases h with
  | items h => simp only [Transpile.describeValue, h.length_eq]
  | fields => rfl

lemma setterArgs_inside {cfg : Settings} {p : Place} (hp : p.scope = s) (h : InlinesInside s v v')
    (f : Api.FunctionInfo) (plan : SetterPlan) :
    setterArgs cfg p f plan v' = setterArgs cfg p f plan v := by
  subst hp
  cases plan with
  | action =>
    have hdescribe := h.describeValue
    unfold setterArgs
    cases h with
    | items =>
      dsimp only
      rw [hdescribe]
    | fields => rfl
  | whole selector =>
    have hv : Inlines .value p.scope v v' := by
      cases h with
      | items h => exact .items h
      | fields h => exact .fields h
    simp only [setterArgs, format_inlined cfg hv]
  | spread selector =>
    cases h with
    | items h => simp only [setterArgs, itemsOf, formatItems_inlined cfg h]
    | fields => rfl

lemma setterArgs_scope (cfg : Settings) (p : Place) (s : Scope) {w : Value} (hw : VariableFree w)
    (f : Api.FunctionInfo) (plan : SetterPlan) :
    setterArgs cfg { p with scope := s } f plan w = setterArgs cfg p f plan w := by
  cases plan with
  | action => rfl
  | whole selector => simp only [setterArgs, format_scope cfg p s hw]
  | spread selector =>
    cases w with
    | arr items => simp only [setterArgs, itemsOf, formatItems_scope cfg p s hw.item]
    | _ => simp only [setterArgs, itemsOf, formatItems]

end

lemma applySetter_inlined (e : Entity) (key : Bytes) {v : Value}
    (h : Inlines .value f.scope v v') (at_ : Pointer) :
    applySetter cfg e key v' f at_ = applySetter cfg e key v f at_ := by
  refine deref_bind_inlined h at_ (fun w s' hw => ?_) fun v v' hinside => ?_
  · refine bind_congr fun setters => ?_
    dsimp only
    split
    · rfl
    · split
      · rfl
      · exact congrArg (fun args => args >>= _) (setterArgs_scope cfg _ s' hw _ _).symm
  · have hplan := hinside.setterPlan? cfg
    simp only [hplan, hinside.describeValue, setterArgs_inside _ hinside]

lemma gridTemplate_inlined (e : Entity) (grid : Grid) (key : Bytes) {v : Value}
    (h : Inlines .value f.scope v v') (at_ : Pointer) :
    gridTemplate cfg e grid key v' f at_ = gridTemplate cfg e grid key v f at_ := by
  refine deref_bind_inlined h at_ (fun w s' hw => ?_) fun v v' hinside => ?_
  · cases w with
    | arr items =>
        exact congrArg (fun entries => entries >>= _) (formatItems_scope cfg _ s' hw.item 0 _).symm
    | _ => rfl
  · cases hinside with
    | items h => exact congrArg (fun entries => entries >>= _) (formatItems_inlined cfg h 0 _)
    | fields => rfl

lemma ofString_ne_call (text function : Bytes) (args : List Value) :
    Form.ofString text ≠ .call function args := by
  unfold Form.ofString
  repeat' split
  all_goals
    intro h
    cases h

lemma withTarget_inlined (e : Entity) {v : Value} (h : Inlines .value f.scope v v')
    (at_ : Pointer) : withTarget cfg v' e f at_ = withTarget cfg v e f at_ := by
  refine deref_bind_inlined h at_ (fun w s' hw => ?_) fun v v' hinside => ?_
  · dsimp only
    split
    · rfl
    · rfl
    · rename_i function args hcall
      cases w with
      | obj fields =>
        exact congrArg (fun call => call >>= _)
          (formatCall_scope cfg _ s' (hw.argument hcall) function).symm
      | str text => exact absurd (Except.ok.inj hcall) (ofString_ne_call text function args)
      | _ => cases hcall
    · rfl
  · cases hinside with
    | items h => rfl
    | fields h =>
      obtain ⟨why, hwhy, hwhy'⟩ | ⟨function, args, args', hcall, hcall', hargs⟩ | ⟨hstruct,
          hstruct', -⟩ := h.ofFields
      · simp only [Form.ofValue, hwhy, hwhy']
      · simp only [Form.ofValue, hcall, hcall']
        exact congrArg (fun call => call >>= _) (formatCall_inlined cfg hargs function)
      · simp only [Form.ofValue, hstruct, hstruct']

/-! ## Nodes -/

lemma objectUnder_of_objectField {node : Fields} {at_ : Pointer} {o : Option Fields}
    (h : objectField node key at_ = pure o) : objectUnder node key = o := by
  have hread : (objectField node key at_).outcome {} = some (.ok o, {}) := by rw [h, outcome_pure]
  unfold objectField at hread
  unfold objectUnder
  split at hread <;> rename_i hget <;> cases hread
  · rw [hget]
    rfl
  · rw [hget]
    rfl

/-- What follows the registration of a node happens in the scope of its context. -/
lemma registerNode_bind_congr {node : Fields} {e : Entity} {k k' : Frame → Run α}
    (h : ∀ inner : Frame, inner.scope = f.scope.extend (objectUnder node "context") →
      k inner = k' inner) :
    registerNode node e f >>= k = registerNode node e f >>= k' := by
  unfold registerNode
  simp only [bind_assoc, pure_bind]
  refine bind_congr fun _ => bind_congr fun path => ?_
  obtain ⟨context, hcontext⟩ | ⟨fault, hfault⟩ := decided_objectField node "context" f.at_
  · rw [hcontext, pure_bind, pure_bind]
    exact h _ (by rw [objectUnder_of_objectField hcontext])
  · rw [hfault]
    rfl

lemma blockTarget_inlined (e : Entity) {block block' : Fields}
    (h : InlinesFields blockSlot f.scope block block') (at_ : Pointer) :
    blockTarget cfg e block' f at_ = blockTarget cfg e block f at_ := by
  unfold blockTarget
  cases hobj : block.get? "obj" with
  | none => rw [h.get?_none hobj]
  | some v =>
    obtain ⟨v', hobj', hv⟩ := h.get?_some hobj
    rw [hobj']
    exact withTarget_inlined cfg e hv _

lemma attributeSlot_eq_value (hwith : (key == "with") = false)
    (hmeta : metaKeys.contains key = false) : attributeSlot key = .value := by
  have hchildren : (key == "children") = false := by
    by_contra hkey
    rw [Bool.not_eq_false, beq_iff_eq] at hkey
    subst hkey
    exact absurd hmeta (by decide)
  simp only [attributeSlot, hchildren, hwith, hmeta, Bool.false_eq_true, if_false]

section

variable (cfg : Settings) (g : Fields → Frame → Run Unit)

mutual

lemma processNode_inlined {v v' : Value} {f : Frame} (h : Inlines .node f.scope v v') :
    processNode cfg g v' f = processNode cfg g v f := by
  match v, v', h with
  | _, _, .same _ _ _ => rfl
  | .obj node, .obj node', .fields hnode =>
    rw [processNode, processNode]
    exact processFields_inlined hnode
  | .arr _, .arr _, .items _ =>
    rw [processNode, processNode]
    · rfl
    all_goals nofun
termination_by (sizeOf v, 0)

lemma processFields_inlined {node node' : Fields} {f : Frame}
    (h : InlinesFields (kindOf node).slot ((kindOf node).scope node f.scope) node node') :
    processFields cfg g node' f = processFields cfg g node f := by
  have htype : node'.get? "type" = node.get? "type" := h.get?_eq (by cases kindOf node <;> rfl)
  rw [processFields_eq, processFields_eq, textField_congr htype]
  obtain ⟨type, htype⟩ | ⟨fault, hfault⟩ := decided_textField node "type" f.at_
  · rw [htype, pure_bind, pure_bind]
    rw [kindOf_of_textField htype] at h
    cases hkind : NodeKind.ofType type with
    | component =>
      rw [hkind] at h
      have hroot : node'.get? "root" = node.get? "root" := h.get?_eq (by decide)
      simp only [defineComponent, componentName_congr (h.get?_eq (by decide)),
        objectField_congr hroot]
    | use =>
      rw [hkind] at h
      have hcontext : node'.get? "context" = node.get? "context" := h.get?_eq (by decide)
      simp only [useComponent, componentName_congr (h.get?_eq (by decide)),
        objectField_congr hcontext, h.keys_eq]
    | context =>
      rw [hkind] at h
      dsimp only
      rw [objectField_congr (h.get?_eq rfl)]
      obtain ⟨values, hvalues⟩ | ⟨fault, hfault⟩ := decided_objectField node "values" f.at_
      · rw [hvalues, pure_bind, pure_bind]
        cases values with
        | none => rfl
        | some values =>
          dsimp only [NodeKind.scope] at h
          rw [objectUnder_of_objectField hvalues] at h
          cases hbody : node.get? "for" with
          | none => rw [h.get?_none hbody]
          | some v =>
            obtain ⟨v', hbody', hv⟩ := h.get?_some hbody
            rw [hbody']
            change Inlines .node _ _ _ at hv
            cases hv with
            | same => rfl
            | fields hfields =>
              have := Fields.sizeOf_lt_of_get?_obj hbody
              exact processFields_inlined hfields
            | items => rfl
      · rw [hfault]
        rfl
    | style | widget type =>
      rw [hkind] at h
      exact bind_congr fun e => populate_inlined h e
  · rw [hfault]
    rfl
termination_by (sizeOf node, 2)

lemma populate_inlined {node node' : Fields} {f : Frame}
    (h : InlinesFields attributeSlot (f.scope.extend (objectUnder node "context")) node node')
    (e : Entity) :
    populate cfg g node' e f = populate cfg g node e f := by
  rw [populate_eq, populate_eq, registerNode_congr (h.get?_eq (by decide)) (h.get?_eq (by decide))
    (h.get?_eq (by decide))]
  refine registerNode_bind_congr fun inner hinner => ?_
  rw [← hinner] at h
  rw [applyAttributes_inlined h]
  refine bind_congr fun grid => bind_congr fun _ => ?_
  cases hchildren : node.get? "children" with
  | none => rw [h.get?_none hchildren]
  | some v =>
    obtain ⟨v', hchildren', hv⟩ := h.get?_some hchildren
    rw [hchildren']
    change Inlines .nodes _ _ _ at hv
    cases hv with
    | same => rfl
    | fields => rfl
    | items hitems =>
      have := Fields.sizeOf_lt_of_get?_arr hchildren
      have hframe : InlinesItems .node { inner with parent := e, at_ := f.at_.key "children" }.scope
          _ _ := hitems
      simp only [processUnder, processChildren_inlined hframe]
termination_by (sizeOf node, 1)

lemma processChildren_inlined {nodes nodes' : List Value} {f : Frame}
    (h : InlinesItems .node f.scope nodes nodes')
    (i : Nat) : processChildren cfg g nodes' i f = processChildren cfg g nodes i f := by
  match nodes, nodes', h with
  | [], [], _ => rfl
  | v :: rest, v' :: rest', .cons hv hrest =>
    have hfirst : Inlines .node { f with at_ := f.at_.index i }.scope v v' := hv
    rw [processChildren, processChildren, processNode_inlined hfirst, processChildren_inlined hrest]
termination_by (sizeOf nodes, 0)

lemma applyAttributes_inlined {pairs pairs' : Fields} {f : Frame}
    (h : InlinesFields attributeSlot f.scope pairs pairs')
    (e : Entity) (grid : Grid) :
    applyAttributes cfg g e pairs' f grid = applyAttributes cfg g e pairs f grid := by
  match pairs, pairs', h with
  | [], [], _ => rfl
  | (key, v) :: rest, (_, v') :: rest', .cons hv hrest =>
    rw [applyAttributes, applyAttributes]
    have hrest : ∀ grid, applyAttributes cfg g e rest' f grid =
        applyAttributes cfg g e rest f grid :=
      applyAttributes_inlined hrest e
    simp only [hrest]
    refine congrArg (fun step => recover grid step >>= _) ?_
    cases hwith : key == "with" with
    | true =>
      rw [beq_iff_eq] at hwith
      subst hwith
      simp only [if_true, applyWith_inlined hv]
    | false =>
      cases hmeta : metaKeys.contains key with
      | true => rfl
      | false =>
        rw [attributeSlot_eq_value hwith hmeta] at hv
        simp only [Bool.false_eq_true, if_false, gridTemplate_inlined cfg e grid key hv,
          applySetter_inlined cfg e key hv]
termination_by (sizeOf pairs, 0)

lemma applyWith_inlined {v v' : Value} {f : Frame} (h : Inlines .blocks f.scope v v') (e : Entity)
    (at_ : Pointer) : applyWith cfg g e v' f at_ = applyWith cfg g e v f at_ := by
  match v, v', h with
  | _, _, .same _ _ _ => rfl
  | .obj block, .obj block', .fields hblock =>
    rw [applyWith, applyWith]
    exact withBlock_inlined hblock e at_
  | .arr blocks, .arr blocks', .items hblocks =>
    rw [applyWith, applyWith]
    exact withBlocks_inlined hblocks e 0 at_
termination_by (sizeOf v, 0)

lemma withBlocks_inlined {blocks blocks' : List Value} {f : Frame}
    (h : InlinesItems .block f.scope blocks blocks') (e : Entity) (i : Nat) (at_ : Pointer) :
    withBlocks cfg g e blocks' i f at_ = withBlocks cfg g e blocks i f at_ := by
  match blocks, blocks', h with
  | [], [], _ => rfl
  | .obj block :: rest, _, .cons hv hrest =>
    obtain ⟨block', rfl, hblock⟩ := hv.shape nofun
    rw [withBlocks, withBlocks, withBlock_inlined hblock, withBlocks_inlined hrest]
  | .arr _ :: _, _, .cons hv _ =>
    obtain ⟨_, rfl, _⟩ := hv.shape nofun
    rw [withBlocks, withBlocks]
    · rfl
    all_goals nofun
  | .null :: _, _, .cons hv _ | .bool _ :: _, _, .cons hv _ | .num _ :: _, _, .cons hv _
  | .str _ :: _, _, .cons hv _ =>
    have hsame := hv.shape nofun
    dsimp only at hsame
    subst hsame
    rw [withBlocks, withBlocks]
    all_goals nofun
termination_by (sizeOf blocks, 0)

lemma withBlock_inlined {block block' : Fields} {f : Frame}
    (h : InlinesFields blockSlot f.scope block block')
    (e : Entity) (at_ : Pointer) :
    withBlock cfg g e block' f at_ = withBlock cfg g e block f at_ := by
  rw [withBlock_eq, withBlock_eq, blockTarget_inlined cfg e h]
  refine bind_congr fun target => ?_
  cases hinner : block.get? "do" with
  | none => rw [h.get?_none hinner]
  | some v =>
    obtain ⟨v', hinner', hv⟩ := h.get?_some hinner
    rw [hinner']
    change Inlines .inner _ _ _ at hv
    cases hv with
    | same => rfl
    | fields hfields =>
      have := Fields.sizeOf_lt_of_get?_obj hinner
      have hframe : InlinesFields attributeSlot
          ({ f with at_ := at_.key "do" }.scope.extend (objectUnder _ "context")) _ _ := hfields
      exact populate_inlined hframe target
    | items => rfl
termination_by (sizeOf block, 0)

end

end

/-! ## Documents -/

def Slot.ofDocument : Value → Slot
  | .arr _ => .nodes
  | _ => .node

lemma run_inlined {doc doc' : Value} (h : Inlines (.ofDocument doc) [] doc doc') :
    run cfg doc' = run cfg doc := by
  have hshape := h.shape (by cases doc <;> nofun)
  cases doc with
  | obj node =>
    obtain ⟨node', rfl, hnode⟩ := hshape
    have hframe : InlinesFields (kindOf node).slot ((kindOf node).scope node (rootFrame cfg).scope)
        node node' := hnode
    simp only [run, runWith, processFields_inlined cfg _ hframe]
  | arr nodes =>
    obtain ⟨nodes', rfl, hnodes⟩ := hshape
    have hframe : InlinesItems .node (rootFrame cfg).scope nodes nodes' := hnodes
    simp only [run, runWith, processChildren_inlined cfg _ hframe]
  | _ =>
    dsimp only at hshape
    rw [hshape]

/-- Nodes that are inlined wherever a run reaches them keep it in lockstep. -/
lemma keepsLockstep_inlined (doc : Value) (st : State) {Exchanged : Fields → Fields → Prop}
    (h : ∀ {node node' : Fields} (f : Frame) (st' : State), Exchanged node node' →
      Reaches cfg doc st node f st' → Inlines .node f.scope (.obj node) (.obj node')) :
    KeepsLockstep cfg Exchanged fun at_ => Relation.ReflTransGen (Calls cfg)
    (.ofDocument cfg doc, st) at_ :=
  fun g happroached hinstances => {
    visited := fun hvisit hcall => hvisit.tail hcall
    approached := happroached
    instances := hinstances
    exchanged := by
      intro node node' f st st' hvisit hexchanged _ hself
      have hsame := processNode_inlined cfg (instantiate cfg) (h f _ hexchanged hvisit)
      rw [processNode, processNode] at hsame
      rw [hsame]
      exact hself }

/-- **Variables are what they are bound to.**  Replace, at positions where values are formatted,
variables by the values that their innermost bindings give them, if these hold no variables.
Processing a node then comes to the same from every state, and so does the run of a document.  Inside
components there is no scope before they are used: a node there may be changed if the change is of
this kind in every scope in which the run reaches the node, and the runs agree then in all but the
components themselves and debug records. -/
theorem variables_are_their_bindings (cfg : Settings) :
    (∀ v v' f, Inlines .node f.scope v v' → ∀ st,
      (processNode cfg (instantiate cfg) v' f).outcome st =
      (processNode cfg (instantiate cfg) v f).outcome st) ∧
    (∀ doc doc', Inlines (.ofDocument doc) [] doc doc' → ∀ st,
      (run cfg doc').outcome st = (run cfg doc).outcome st) ∧
    ∀ fill node node' st, DocumentSpot fill →
      (∀ f st', Reaches cfg (fill (.obj node)) st node f st' → Inlines .node f.scope (.obj node)
        (.obj node')) →
      ∀ r after, (run cfg (fill (.obj node))).outcome st = some (r, after) →
        ∃ after', (run cfg (fill (.obj node'))).outcome st = some (r, after') ∧
          after'.bare = after.bare ∧ Log.atLeast .info after'.log = Log.atLeast .info
          after.log := by
  refine ⟨fun v v' f h st => ?_, fun doc doc' h st =>
    ?_, fun fill node node' st hfill h r after hr => ?_⟩
  · rw [processNode_inlined cfg _ h]
  · rw [run_inlined cfg h]
  · have hkeeps : KeepsLockstep cfg (fun first second => first = node ∧ second = node') _ :=
      keepsLockstep_inlined cfg (fill (.obj node)) st fun f st' hexchanged hreach => by
        obtain ⟨rfl, rfl⟩ := hexchanged
        exact h f st' hreach
    obtain ⟨after', hr', halike⟩ := hkeeps.matches_filled hfill ⟨rfl, rfl⟩ .refl r after hr
    exact ⟨after', hr', halike.bare, halike.log⟩

/-! ### A place that is bound in the context -/

def movingSettings : Settings :=
  settingsOf [declare "lv_obj_create" "lv_obj_t *" ["lv_obj_t *"],
    declare "lv_obj_set_pos" "void" ["lv_obj_t *", "int32_t", "int32_t"]]

def boxPlace : Value := .arr [.num "3", .num "4"]

def boxAt (place : Value) : Fields := [("context", .obj [("x", boxPlace)]), ("pos", place)]

def usedBox (box : Value) : Value :=
  .arr [.obj [("type", .str "component"), ("id", .str "@c"), ("root", box)], .obj (useOf "c")]

lemma boxAt_inlines (s : Scope) :
    Inlines .node s (.obj (boxAt (.str "$x"))) (.obj (boxAt boxPlace)) := by
  have hfree : VariableFree boxPlace := by
    intro text htext
    cases htext with
    | item hmem hwithin =>
      obtain rfl | rfl : _ = Value.num "3" ∨ _ = Value.num "4" := by simpa using hmem
      all_goals cases hwithin
  exact .fields (.cons (.same _ _ _) (.cons (.var rfl rfl hfree) (.nil _ _)))

def boxCode : List Bytes :=
  ["lv_obj_set_pos(obj_1, 3, 4);", "lv_obj_t *obj_1 = lv_obj_create(parent);"].map Bytes.ofString

set_option maxRecDepth 100000 in
lemma code_usedBox : ((run movingSettings (usedBox (.obj (boxAt (.str "$x"))))).outcome {}).map
    (fun r => r.2.body.map Statement.render) = some boxCode := by
  have hdefine : ∀ f, (guarded (processNode movingSettings (instantiate movingSettings)
      (.obj [("type", .str "component"), ("id", .str "@c"), ("root", .obj (boxAt (.str "$x")))])
        f)).outcome {} =
      some (.ok (), { components := [("c", boxAt (.str "$x"))] }) := by
    intro f
    cbv
  change Option.map _ ((processChildren movingSettings (instantiate movingSettings) _ 0
    (rootFrame movingSettings)).outcome {}) = _
  simp only [processChildren, outcome_bind, hdefine]
  rw [guarded, outcome_recover, processNode, outcome_useOf _ _ (by decide) _ rfl,
    outcome_instantiate]
  cbv

/-- The box can be given its place as a node, as a document and as the node of a component. -/
theorem boxAt_variables_are_their_bindings :
    (processNode movingSettings (instantiate movingSettings) (.obj (boxAt boxPlace))
        (rootFrame movingSettings)).outcome {} =
      (processNode movingSettings (instantiate movingSettings) (.obj (boxAt (.str "$x")))
        (rootFrame movingSettings)).outcome {} ∧
    (run movingSettings (.obj (boxAt boxPlace))).outcome {} =
      (run movingSettings (.obj (boxAt (.str "$x")))).outcome {} ∧
    ∃ r after after', (run movingSettings (usedBox (.obj (boxAt (.str "$x"))))).outcome
      {} = some (r, after) ∧ after.body.map Statement.render = boxCode ∧
      (run movingSettings (usedBox (.obj (boxAt boxPlace)))).outcome {} = some (r, after') ∧
      after'.bare = after.bare := by
  have hroot : Spot .node fun box =>
      .obj [("type", .str "component"), ("id", .str "@c"), ("root", box)] :=
    .field [("type", .str "component"), ("id", .str "@c")] "root" [] .here
  have hfill : DocumentSpot usedBox := .inr (.item [] [.obj (useOf "c")] hroot)
  obtain ⟨hnode, hdocument, hfilled⟩ := variables_are_their_bindings movingSettings
  obtain ⟨⟨r, after⟩, hr, hbody⟩ := Option.map_eq_some_iff.1 code_usedBox
  obtain ⟨after', hr', hbare, -⟩ :=
    hfilled usedBox _ _ {} hfill (fun f _ _ => boxAt_inlines f.scope) r after hr
  exact ⟨hnode _ _ _ (boxAt_inlines _) {}, hdocument (.obj (boxAt (.str "$x"))) _ (boxAt_inlines [])
    {}, r, after, after', hr, hbody, hr', hbare⟩

end UiCodegen.Transpile
