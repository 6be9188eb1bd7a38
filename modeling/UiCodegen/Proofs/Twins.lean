import UiCodegen.Proofs.Termination

/-!
# Documents that differ in some of their nodes

Nodes stand in a document at positions that the traversal comes to: on top, among the children of an
entity, as the node of a component or behind bindings.  Other parts of a document are data, which is
used as it is, and parts that nothing looks at.  What a part is to the traversal is its role, and
the role of an object gives the roles of its fields.

Two documents are twins if they are the same but for exchanged nodes and for what nothing looks at.
-/

namespace UiCodegen.Transpile

/-! ## Roles -/

/-- What a part of a document is to the traversal. -/
inductive Role where
  | node
  | nodes
  /-- The inner part of a `with` block: attributes and children. -/
  | inner
  /-- A `with` block or an array of them. -/
  | blocks
  | block
  | value
  /-- What nothing looks at. -/
  | unread
  deriving DecidableEq, Repr

def kindOf (node : Fields) : NodeKind := .ofType (node.getString? "type")

lemma kindOf_of_textField {node : Fields} {at_ : Pointer} {type : Option Bytes}
    (htype : textField node "type" at_ = pure type) : kindOf node = NodeKind.ofType type := by
  have hread : (textField node "type" at_).outcome {} =
      some (.ok type, {}) := by rw [htype, Run.outcome_pure]
  rw [kindOf, ← textField_ok hread]

def attributeRole (key : Bytes) : Role :=
  if key == "children" then .nodes
  else if key == "with" then .blocks
  else if key == "do" then .unread
  else .value

/-- The role of a field of a `with` block. -/
def blockRole (key : Bytes) : Role :=
  if key == "do" then .inner else if key == "obj" then .value else .unread

def NodeKind.role (kind : NodeKind) (key : Bytes) : Role :=
  match kind with
  | .component =>
    if key == "root" then .node else if key == "type" || key == "id" then .value else .unread
  | .use => if key == "type" || key == "id" || key == "context" then .value else .unread
  | .context =>
    if key == "for" then .node else if key == "type" || key == "values" then .value else .unread
  | .style | .widget _ => attributeRole key

lemma NodeKind.role_type (kind : NodeKind) : kind.role "type" = .value := by
  cases kind <;> simp only [NodeKind.role] <;> decide

namespace Role

def field : Role → Fields → Bytes → Role
  | .node, fields => (kindOf fields).role
  | .inner, _ => attributeRole
  | .blocks, _ | .block, _ => blockRole
  | _, _ => fun _ => .value

/-- The role of a document: one node or an array of nodes. -/
def ofDocument : Value → Role
  | .arr _ => .nodes
  | _ => .node

def item : Role → Role
  | .nodes => .node
  | .blocks => .block
  | _ => .value

end Role

/-! ## Positions -/

/-- The positions of nodes in a part that has a role; `fill v` is the part with `v` at the position.
A part that nothing looks at may depend on `v` in any way. -/
inductive Spot : Role → (fill : Value → Value) → Prop
  | here : Spot .node fun v => v
  | unread (fill : Value → Value) : Spot .unread fill
  | field {role : Role} {fill : Value → Value} (before : Fields) (key : Bytes) (after : Fields)
      (h : Spot (role.field (before ++ (key, .null) :: after) key) fill) :
      Spot role fun v => .obj (before ++ (key, fill v) :: after)
  | item {role : Role} {fill : Value → Value} (before after : List Value)
      (h : Spot role.item fill) : Spot role fun v => .arr (before ++ fill v :: after)

def DocumentSpot (fill : Value → Value) : Prop := Spot .node fill ∨ Spot .nodes fill

/-! ## Pairs with the same keys -/

section

variable {α β : Type} {r : α → β → Prop} {found : Option β}

lemma eq_none_of_rel (h : Option.Rel r none found) : found = none := by
  cases h
  rfl

lemma exists_of_rel {a : α} (h : Option.Rel r (some a) found) : ∃ b, found = some b ∧ r a b := by
  cases h with
  | some h => exact ⟨_, rfl, h⟩

end

section

variable {R : Bytes → Value → Value → Prop} {fields fields' : Fields}
  (h : List.Forall₂ (fun pair pair' => pair'.1 = pair.1 ∧ R pair.1 pair.2 pair'.2) fields fields')
  {key : Bytes}
include h

/-- Under a key there are related values, or none on both sides. -/
lemma rel_get?_of_forall₂ (key : Bytes) :
    Option.Rel (R key) (fields.get? key) (fields'.get? key) := by
  have fold : ∀ found found' : Option Value, Option.Rel (R key) found found' →
      Option.Rel (R key)
        (fields.foldl (fun found field => if field.1 == key then some field.2 else found) found)
        (fields'.foldl (fun found field => if field.1 == key then some field.2
          else found) found') := by
    induction h with
    | nil => exact fun _ _ hfound => hfound
    | @cons pair pair' rest rest' hpair hrest ih =>
      obtain ⟨hkey, hv⟩ := hpair
      refine fun found found' hfound => ih _ _ ?_
      dsimp only
      rw [hkey]
      by_cases heq : pair.1 = key
      · subst heq
        simpa using hv
      · simpa [heq] using hfound
  exact fold none none .none

lemma get?_none_of_forall₂ (hget : fields.get? key = none) : fields'.get? key = none :=
  eq_none_of_rel (hget ▸ rel_get?_of_forall₂ h key)

lemma get?_some_of_forall₂ {v : Value} (hget : fields.get? key = some v) :
    ∃ v', fields'.get? key = some v' ∧ R key v v' :=
  exists_of_rel (hget ▸ rel_get?_of_forall₂ h key)

lemma get?_eq_of_forall₂ (hsame : ∀ v v', R key v v' → v' = v) :
    fields'.get? key = fields.get? key := by
  have hrel := rel_get?_of_forall₂ h key
  generalize fields.get? key = found, fields'.get? key = found' at hrel
  cases hrel with
  | none => rfl
  | some hv => rw [hsame _ _ hv]

end

/-! ## Twins -/

mutual

/-- The same parts of two documents, except that nodes may be exchanged as `Exchanged` says and that
what nothing looks at may differ. -/
inductive Twin (Exchanged : Fields → Fields → Prop) : Role → Value → Value → Prop
  | same (role : Role) (v : Value) : Twin Exchanged role v v
  | unread (v v' : Value) : Twin Exchanged .unread v v'
  | exchanged {node node' : Fields} (h : Exchanged node node') : Twin Exchanged .node (.obj node)
      (.obj node')
  | fields {role : Role} {fields fields' : Fields}
      (h : TwinFields Exchanged (role.field fields) fields fields') :
      Twin Exchanged role (.obj fields) (.obj fields')
  | items {role : Role} {items items' : List Value}
      (h : TwinItems Exchanged role.item items items') :
      Twin Exchanged role (.arr items) (.arr items')

/-- Twins under the same keys, in the same order. -/
inductive TwinFields (Exchanged : Fields → Fields → Prop) : (Bytes → Role) → Fields → Fields → Prop
  | nil (role : Bytes → Role) : TwinFields Exchanged role [] []
  | cons {role : Bytes → Role} {key : Bytes} {v v' : Value} {rest rest' : Fields}
      (hv : Twin Exchanged (role key) v v') (hrest : TwinFields Exchanged role rest rest') :
      TwinFields Exchanged role ((key, v) :: rest) ((key, v') :: rest')

/-- As many items, each with its twin. -/
inductive TwinItems (Exchanged : Fields → Fields → Prop) : Role → List Value → List Value → Prop
  | nil (role : Role) : TwinItems Exchanged role [] []
  | cons {role : Role} {v v' : Value} {rest rest' : List Value} (hv : Twin Exchanged role v v')
      (hrest : TwinItems Exchanged role rest rest') : TwinItems Exchanged role (v :: rest)
        (v' :: rest')

end

section

variable {Exchanged : Fields → Fields → Prop} {key : Bytes} {fill : Value → Value}

lemma TwinFields.refl (role : Bytes → Role) (fields : Fields) :
    TwinFields Exchanged role fields fields := by
  induction fields with
  | nil => exact .nil role
  | cons field rest ih => exact .cons (.same _ _) ih

lemma TwinFields.append {role : Bytes → Role} {front front' back back' : Fields}
    (hfront : TwinFields Exchanged role front front')
    (hback : TwinFields Exchanged role back back') :
    TwinFields Exchanged role (front ++ back) (front' ++ back') := by
  induction front generalizing front' with
  | nil =>
    cases hfront
    exact hback
  | cons field rest ih =>
    cases hfront with
    | cons hv hrest => exact .cons hv (ih hrest)

lemma TwinItems.refl (role : Role) (items : List Value) : TwinItems Exchanged role items items := by
  induction items with
  | nil => exact .nil role
  | cons v rest ih => exact .cons (.same _ _) ih

lemma TwinItems.append {role : Role} {front front' back back' : List Value}
    (hfront : TwinItems Exchanged role front front') (hback : TwinItems Exchanged role back back') :
    TwinItems Exchanged role (front ++ back) (front' ++ back') := by
  induction front generalizing front' with
  | nil =>
    cases hfront
    exact hback
  | cons v rest ih =>
    cases hfront with
    | cons hv hrest => exact .cons hv (ih hrest)

mutual

lemma Twin.eq_of_value {role : Role} {v v' : Value} (hrole : role = .value) :
    Twin Exchanged role v v' → v = v'
  | .same _ _ => rfl
  | .unread _ _ => by cases hrole
  | .exchanged _ => by cases hrole
  | .fields h => by
    subst hrole
    rw [h.eq_of_value fun _ => rfl]
  | .items h => by
    subst hrole
    rw [h.eq_of_value rfl]

lemma TwinFields.eq_of_value {role : Bytes → Role} {fields fields' : Fields}
    (hrole : ∀ key, role key = .value) : TwinFields Exchanged role fields fields' → fields = fields'
  | .nil _ => rfl
  | .cons hv hrest => by rw [hv.eq_of_value (hrole _), hrest.eq_of_value hrole]

lemma TwinItems.eq_of_value {role : Role} {items items' : List Value} (hrole : role = .value) :
    TwinItems Exchanged role items items' → items = items'
  | .nil _ => rfl
  | .cons hv hrest => by rw [hv.eq_of_value hrole, hrest.eq_of_value hrole]

end

/-! ## Looking into twins -/

namespace TwinFields

variable {role : Bytes → Role} {fields fields' : Fields}
  (h : TwinFields Exchanged role fields fields') {key : Bytes}
include h

lemma forall₂ :
    List.Forall₂ (fun pair pair' => pair'.1 = pair.1 ∧ Twin Exchanged (role pair.1) pair.2 pair'.2)
    fields fields' := by
  induction fields generalizing fields' with
  | nil =>
    cases h
    exact .nil
  | cons field rest ih =>
    cases h with
    | cons hv hrest => exact .cons ⟨rfl, hv⟩ (ih hrest)

lemma get?_none (hget : fields.get? key = none) : fields'.get? key = none :=
  get?_none_of_forall₂ (R := fun key => Twin Exchanged (role key)) h.forall₂ hget

lemma get?_some {v : Value} (hget : fields.get? key = some v) :
    ∃ v', fields'.get? key = some v' ∧ Twin Exchanged (role key) v v' :=
  get?_some_of_forall₂ (R := fun key => Twin Exchanged (role key)) h.forall₂ hget

lemma get?_eq (hrole : role key = .value) : fields'.get? key = fields.get? key :=
  get?_eq_of_forall₂ (R := fun key => Twin Exchanged (role key)) h.forall₂ fun _ _ hv =>
    (hv.eq_of_value hrole).symm

end TwinFields

/-- Twins that something looks at are both objects, both arrays, or the same. -/
lemma Twin.shape {role : Role} {v v' : Value} (h : Twin Exchanged role v v')
    (hrole : role ≠ .unread) : match v with
    | .obj _ => ∃ fields', v' = .obj fields'
    | .arr vs => ∃ vs', v' = .arr vs' ∧ TwinItems Exchanged role.item vs vs'
    | v => v' = v := by
  cases h with
  | same =>
    cases v with
    | obj fields => exact ⟨fields, rfl⟩
    | arr vs => exact ⟨vs, rfl, .refl _ _⟩
    | _ => rfl
  | unread => exact absurd rfl hrole
  | exchanged => exact ⟨_, rfl⟩
  | fields => exact ⟨_, rfl⟩
  | items h => exact ⟨_, rfl, h⟩

/-- Objects that are twins have twins under each key, unless they are exchanged nodes. -/
lemma Twin.fields_or_exchanged {role : Role} {fields fields' : Fields}
    (h : Twin Exchanged role (.obj fields) (.obj fields')) (hrole : role ≠ .unread) :
    TwinFields Exchanged (role.field fields) fields fields' ∨ role = .node ∧
    Exchanged fields fields' := by
  cases h with
  | same => exact .inl (.refl _ _)
  | unread => exact absurd rfl hrole
  | exchanged h => exact .inr ⟨rfl, h⟩
  | fields h => exact .inl h

lemma Twin.ofDocument {role : Role} {doc doc' : Value} (h : Twin Exchanged role doc doc')
    (hrole : role = .node ∨ role = .nodes) : Twin Exchanged (.ofDocument doc) doc doc' := by
  cases h with
  | same => exact .same _ _
  | unread => rcases hrole with hrole | hrole <;> cases hrole
  | exchanged h => exact .exchanged h
  | fields h =>
    obtain rfl | rfl := hrole
    · exact .fields h
    · rw [h.eq_of_value fun _ => rfl]
      exact .same _ _
  | items h =>
    obtain rfl | rfl := hrole
    · rw [h.eq_of_value rfl]
      exact .same _ _
    · exact .items h

/-! ## Positions filled in two ways -/

lemma Spot.ne_value {role : Role} (h : Spot role fill) : role ≠ .value := by
  induction h with
  | here => nofun
  | unread => nofun
  | field before key after _ ih =>
    rintro rfl
    exact ih rfl
  | item before after _ ih =>
    rintro rfl
    exact ih rfl

/-- What stands under another key has no influence on what is found. -/
lemma get?_append_cons_of_ne {other : Bytes} (hne : other ≠ key) (before after : Fields)
    (v v' : Value) :
    Fields.get? (before ++ (other, v) :: after) key = Fields.get?
    (before ++ (other, v') :: after) key := by
  have hother : (other == key) = false := by simpa using hne
  simp only [Fields.get?, List.foldl_append, List.foldl_cons, hother, Bool.false_eq_true, if_false]

/-- What stands at a position has no influence on the roles around it. -/
lemma Spot.field_eq {role : Role} {before after : Fields}
    (h : Spot (role.field (before ++ (key, .null) :: after) key) fill) (v : Value) :
    role.field (before ++ (key, v) :: after) = role.field (before ++ (key, .null) :: after) := by
  cases role with
  | node =>
    have hkey : key ≠ "type" := by
      rintro rfl
      exact h.ne_value (NodeKind.role_type _)
    simp only [Role.field, kindOf, Fields.getString?, get?_append_cons_of_ne hkey before
      after v .null]
  | _ => rfl

lemma Spot.twin {role : Role} (h : Spot role fill) {node node' : Fields}
    (hexchanged : Exchanged node node') :
    Twin Exchanged role (fill (.obj node)) (fill (.obj node')) := by
  induction h with
  | here => exact .exchanged hexchanged
  | unread fill => exact .unread _ _
  | field before key after h ih =>
    refine .fields ?_
    rw [h.field_eq]
    exact (TwinFields.refl _ before).append (.cons ih (.refl _ after))
  | item before after h ih =>
      exact .items ((TwinItems.refl _ before).append (.cons ih (.refl _ after)))

end

end UiCodegen.Transpile
