import Mathlib
import UiCodegen.Document.Yaml.Decode

/-!
# Aliases that lead in a circle

An alias stands for the node of its anchor, and that node may hold the alias.  The walk through a
document follows aliases without remembering where it has been: it goes through the parts of a node
in order, and stops at the first one that has no value.  So it does not come to all parts of a node,
but to those with readable parts in front of them (`Enters`).

A walk that has an outcome cannot have come back to a node inside itself (`ends_of_valueOf`,
`Ends.no_circle`).  If it never does, it ends: it follows each anchor at most once, and between two
aliases it goes on to smaller nodes (`ends_of_left`).
-/

namespace UiCodegen.Document.Yaml

open Relation

variable {node : Node} {α β : Type} {r : Except Fault Value} {xs : List α} {at_ : Pointer}
  {read : α → Option (Except Fault β)}

/-! ## The walk -/

/-- What the walk does with a pair: it goes on to the value, or finds that the key is no scalar. -/
def pairStep : Node × Node → Option Node
  | (.scalar .., value) => some value
  | _ => none

section

variable (nodes : List (Nat × Node))

/-- What the walk does at a node, in order: it goes on to a part, or finds that something is wrong.
-/
def steps : Node → List (Option Node)
  | .scalar _ tag text plain => if (scalarValue tag text plain).isOk then [] else [none]
  | .sequence _ items => items.map some
  | .mapping _ pairs => pairs.map pairStep
  | .alias _ anchor => [nodes.lookup anchor]

/-- A node that has a value: nothing is wrong with it or with its parts. -/
inductive Readable : Node → Prop
  | intro {node : Node} (hwrong : none ∉ steps nodes node)
      (hparts : ∀ part, some part ∈ steps nodes node → Readable part) : Readable node

/-- A step behind which the walk goes on. -/
def Passed (step : Option Node) : Prop := ∃ part, step = some part ∧ Readable nodes part

/-- The walk comes to a step if it passes those in front of it. -/
def ComesTo (walk : List (Option Node)) (step : Option Node) : Prop :=
  ∃ front rest, walk = front ++ step :: rest ∧ ∀ x ∈ front, Passed nodes x

/-- The walk through a node goes on to one of its parts. -/
def Enters (node part : Node) : Prop := ComesTo nodes (steps nodes node) (some part)

/-- The walk that goes on from a node comes to an end. -/
abbrev Ends (node : Node) : Prop := Acc (fun part node => Enters nodes node part) node

end

variable {nodes : List (Nat × Node)}

lemma readable_iff : Readable nodes node ↔ ∀ step ∈ steps nodes node, Passed nodes step := by
  constructor
  · rintro ⟨hwrong, hparts⟩ (_ | part) hstep
    · exact absurd hstep hwrong
    · exact ⟨part, rfl, hparts part hstep⟩
  · refine fun h => ⟨fun hnone => ?_, fun part hpart => ?_⟩
    · obtain ⟨_, heq, -⟩ := h none hnone
      cases heq
    · obtain ⟨_, heq, hreadable⟩ := h _ hpart
      exact Option.some.inj heq ▸ hreadable

section

variable {first step : Option Node} {rest : List (Option Node)}

lemma comesTo_head (step : Option Node) (rest : List (Option Node)) :
    ComesTo nodes (step :: rest) step :=
  ⟨[], rest, rfl, by simp⟩

lemma ComesTo.cons (h : ComesTo nodes rest step) (hfirst : Passed nodes first) :
    ComesTo nodes (first :: rest) step := by
  obtain ⟨front, back, rfl, hfront⟩ := h
  exact ⟨first :: front, back, rfl, List.forall_mem_cons.2 ⟨hfirst, hfront⟩⟩

lemma comesTo_cons (h : ComesTo nodes (first :: rest) step) :
    step = first ∨ Passed nodes first ∧ ComesTo nodes rest step := by
  obtain ⟨_ | ⟨x, front⟩, back, heq, hfront⟩ := h
  · exact .inl (List.cons.inj heq).1.symm
  · obtain ⟨rfl, rfl⟩ := List.cons.inj heq
    exact .inr ⟨hfront _ List.mem_cons_self, front, back, rfl, fun x hx =>
      hfront x (List.mem_cons_of_mem _ hx)⟩

end

/-! ## What has an outcome ends -/

/-- What is known of a walk that has an outcome: it ends in every part that it comes to, and it
succeeds exactly if it passes all steps. -/
structure Walked (nodes : List (Nat × Node)) (walk : List (Option Node)) (success : Prop) :
    Prop where
  ends : ∀ part, ComesTo nodes walk (some part) → Ends nodes part
  success_iff : success ↔ ∀ step ∈ walk, Passed nodes step

section

variable {node : Node} {step : Option Node} {rest : List (Option Node)} {success success' : Prop}

lemma walked_nil (h : success) : Walked nodes [] success where
  ends := by
    rintro part ⟨_ | _, _, heq, -⟩ <;> cases heq
  success_iff := by simpa using h

lemma walked_wrong (h : ¬ success) : Walked nodes [none] success where
  ends := by
    intro part hpart
    obtain heq | ⟨⟨_, heq, -⟩, -⟩ := comesTo_cons hpart <;> cases heq
  success_iff := by simpa [Passed] using h

lemma Walked.stop (h : Walked nodes [step] success) (hfails : ¬ success) (h' : ¬ success') :
    Walked nodes (step :: rest) success' := by
  have hnot : ¬ Passed nodes step :=
    fun hpassed => hfails (h.success_iff.2 (by simpa using hpassed))
  refine ⟨fun part hpart => ?_, iff_of_false h' fun hall => hnot (hall step List.mem_cons_self)⟩
  obtain rfl | ⟨hpassed, -⟩ := comesTo_cons hpart
  · exact h.ends part (comesTo_head _ _)
  · exact absurd hpassed hnot

lemma Walked.cons (h : Walked nodes [step] success) (hsucceeds : success)
    (hrest : Walked nodes rest success') : Walked nodes (step :: rest) success' := by
  have hpassed : Passed nodes step := h.success_iff.1 hsucceeds step List.mem_cons_self
  refine ⟨fun part hpart =>
    ?_, by rw [hrest.success_iff, List.forall_mem_cons, and_iff_right hpassed]⟩
  obtain rfl | ⟨-, hpart⟩ := comesTo_cons hpart
  · exact h.ends part (comesTo_head _ _)
  · exact hrest.ends part hpart

lemma Walked.around (h : Walked nodes (steps nodes node) success) :
    Walked nodes [some node] success where
  ends := by
    intro part hpart
    obtain heq | ⟨-, _ | _, _, heq, -⟩ := comesTo_cons hpart <;> cases heq
    exact ⟨node, fun part hpart => h.ends part hpart⟩
  success_iff := by
    rw [h.success_iff, ← readable_iff]
    simp [Passed]

end

lemma isOk_map (f : α → β) (r : Except Fault α) : (r.map f).isOk = r.isOk := by cases r <;> rfl

lemma walked_readAll (stepOf : α → Option Node)
    (hread : ∀ x r, read x = some r → Walked nodes [stepOf x] r.isOk) {r : Except Fault (List β)}
    (h : readAll read xs = some r) : Walked nodes (xs.map stepOf) r.isOk := by
  induction xs generalizing r with
  | nil =>
    obtain rfl := Option.some.inj h
    exact walked_nil rfl
  | cons x xs ih =>
    obtain ⟨fault, hfault, rfl⟩ | ⟨v, vs, hv, hvs, rfl⟩ := readAll_cons_eq_some_iff.1 h
    · exact (hread x _ hfault).stop Bool.false_ne_true Bool.false_ne_true
    · rw [isOk_map]
      exact (hread x _ hv).cons rfl (ih hvs)

section

variable {read : Pointer → Node → Option (Except Fault Value)} {at_ : Pointer}
  (hread : ∀ at_ node r, read at_ node = some r → Walked nodes [some node] r.isOk)

include hread

lemma walked_pairWith (pair : Node × Node) (r : Except Fault (Bytes × Value))
    (h : pairWith read at_ pair = some r) : Walked nodes [pairStep pair] r.isOk := by
  obtain ⟨key, value⟩ := pair
  cases key with
  | scalar =>
    obtain ⟨v, hv, rfl⟩ := Option.map_eq_some_iff.1 h
    rw [isOk_map]
    exact hread _ value v hv
  | _ =>
    obtain rfl := Option.some.inj h
    exact walked_wrong Bool.false_ne_true

lemma walked_valueWith (h : valueWith nodes read at_ node = some r) :
    Walked nodes (steps nodes node) r.isOk := by
  match node with
  | .scalar _ tag text plain =>
    rw [valueWith] at h
    rw [steps]
    cases hscalar : scalarValue tag text plain with
    | error problem =>
      obtain rfl : _ = r := by simpa [hscalar] using h
      exact walked_wrong Bool.false_ne_true
    | ok v =>
      obtain rfl : _ = r := by simpa [hscalar] using h
      exact walked_nil rfl
  | .sequence _ items =>
    obtain ⟨values, hvalues, rfl⟩ := Option.map_eq_some_iff.1 h
    have hitems := walked_readAll (fun x => some x.1) (fun x => hread _ x.1) hvalues
    rw [isOk_map, steps, ← List.zipIdx_map_fst 0 items, List.map_map]
    exact hitems
  | .mapping _ pairs =>
    obtain ⟨fields, hfields, rfl⟩ := Option.map_eq_some_iff.1 h
    rw [isOk_map]
    exact walked_readAll pairStep (walked_pairWith hread) hfields
  | .alias _ anchor =>
    rw [valueWith] at h
    rw [steps]
    cases htarget : nodes.lookup anchor with
    | none =>
      obtain rfl : _ = r := by simpa [htarget] using h
      exact walked_wrong Bool.false_ne_true
    | some target =>
      simp only [htarget] at h
      exact hread at_ target r h

end

/-- A walk that has an outcome ends, and it succeeds exactly at the nodes that have values. -/
lemma walked_valueOf (h : valueOf nodes at_ node = some r) : Walked nodes [some node] r.isOk :=
  valueOf.partial_correctness nodes (fun _ node r => Walked nodes [some node] r.isOk)
    (fun _ hread _ _ _ hr => (walked_valueWith hread hr).around) at_ node r h

lemma ends_of_valueOf (h : valueOf nodes at_ node = some r) : Ends nodes node :=
  (walked_valueOf h).ends node (comesTo_head _ _)

/-! ## What ends has an outcome -/

lemma exists_readAll (stepOf : α → Option Node)
    (hread : ∀ x r, read x = some r → Walked nodes [stepOf x] r.isOk)
    (h : ∀ x, ComesTo nodes (xs.map stepOf) (stepOf x) → ∃ r, read x = some r) :
    ∃ r, readAll read xs = some r := by
  induction xs with
  | nil => exact ⟨_, rfl⟩
  | cons x xs ih =>
    obtain ⟨fault | v, hv⟩ := h x (comesTo_head _ _)
    · exact ⟨_, readAll_cons_eq_some_iff.2 (.inl ⟨fault, hv, rfl⟩)⟩
    · have hpassed : Passed nodes (stepOf x) :=
        (hread x _ hv).success_iff.1 rfl _ List.mem_cons_self
      obtain ⟨vs, hvs⟩ := ih fun y hy => h y (hy.cons hpassed)
      exact ⟨_, readAll_cons_eq_some_iff.2 (.inr ⟨v, vs, hv, hvs, rfl⟩)⟩

lemma exists_valueOf (h : Ends nodes node) (at_ : Pointer) :
    ∃ r, valueOf nodes at_ node = some r := by
  induction h generalizing at_ with
  | intro node _ ih =>
    rw [valueOf]
    match node with
    | .scalar line tag text plain =>
      rw [valueWith]
      cases scalarValue tag text plain <;> exact ⟨_, rfl⟩
    | .sequence line items =>
      obtain ⟨vs, hvs⟩ : ∃ r, readAll (fun x => valueOf nodes (at_.index x.2) x.1) items.zipIdx =
          some r := by
        refine exists_readAll (fun x : Node × Nat => some x.1) (fun _ _ => walked_valueOf)
          fun x hx => ih x.1 ?_ _
        rwa [Enters, steps, ← List.zipIdx_map_fst 0 items, List.map_map]
      exact ⟨_, Option.map_eq_some_iff.2 ⟨vs, hvs, rfl⟩⟩
    | .mapping line pairs =>
      obtain ⟨vs, hvs⟩ : ∃ r, readAll (pairWith (valueOf nodes) at_) pairs = some r := by
        refine exists_readAll pairStep (walked_pairWith fun _ _ _ => walked_valueOf)
          fun pair hpair => ?_
        obtain ⟨key, value⟩ := pair
        cases key with
        | scalar =>
          obtain ⟨v, hv⟩ := ih value hpair _
          exact ⟨_, Option.map_eq_some_iff.2 ⟨v, hv, rfl⟩⟩
        | _ => exact ⟨_, rfl⟩
      exact ⟨_, Option.map_eq_some_iff.2 ⟨vs, hvs, rfl⟩⟩
    | .alias line anchor =>
      rw [valueWith]
      cases htarget : nodes.lookup anchor with
      | none => exact ⟨_, rfl⟩
      | some target =>
        refine ih target ?_ at_
        rw [Enters, steps, htarget]
        exact comesTo_head _ _

/-! ## Circles -/

/-- A part is smaller than its node unless the node is an alias. -/
lemma Enters.cases {node part : Node} (h : Enters nodes node part) :
    sizeOf part < sizeOf node ∨ ∃ line anchor, node = .alias line anchor ∧ nodes.lookup anchor =
    some part := by
  have hmem : some part ∈ steps nodes node := by
    obtain ⟨front, rest, heq, -⟩ := h
    simp [heq]
  match node with
  | .scalar _ tag text plain =>
      cases hscalar : (scalarValue tag text plain).isOk <;> simp [steps, hscalar] at hmem
  | .sequence line items =>
    obtain ⟨item, hitem, heq⟩ := List.mem_map.1 hmem
    have hlt := List.sizeOf_lt_of_mem hitem
    cases heq
    exact .inl (by simp only [Node.sequence.sizeOf_spec]; omega)
  | .mapping line pairs =>
    obtain ⟨⟨key, value⟩, hpair, heq⟩ := List.mem_map.1 hmem
    have hlt := List.sizeOf_lt_of_mem hpair
    cases key with
    | scalar =>
      cases heq
      exact .inl (by simp only [Node.mapping.sizeOf_spec, Prod.mk.sizeOf_spec] at hlt ⊢; omega)
    | _ => cases heq
  | .alias line anchor => exact .inr ⟨line, anchor, rfl, (List.mem_singleton.1 hmem).symm⟩

/-- A walk that comes back to no node ends.  The anchors not in `left` have been followed on the way
to the node. -/
lemma ends_of_left (left : Finset Nat) (hleft : ∀ anchor target, nodes.lookup anchor = some target →
      anchor ∈ left ∨ ReflTransGen (Enters nodes) target node)
    (h : ∀ inner, ReflTransGen (Enters nodes) node inner → ¬ TransGen (Enters nodes) inner inner) :
    Ends nodes node := by
  -- Outside the anchors that are left, and for the same anchors the size of the node.
  induction left using Finset.strongInduction generalizing node with
  | H left ihleft =>
    induction hn : sizeOf node using Nat.strong_induction_on generalizing node with
    | _ n ihsize =>
      subst hn
      refine ⟨node, fun part hpart => ?_⟩
      have hinside : ∀ inner, ReflTransGen (Enters nodes) part inner →
          ¬ TransGen (Enters nodes) inner inner :=
        fun inner hinner => h inner (.head hpart hinner)
      obtain hlt | ⟨line, anchor, rfl, htarget⟩ := hpart.cases
      · exact ihsize _ hlt (fun a target ha => (hleft a target ha).imp_right (.tail · hpart))
          hinside rfl
      · obtain hmem | hback := hleft anchor part htarget
        · refine ihleft (left.erase anchor) (Finset.erase_ssubset hmem)
            (fun a target ha => ?_) hinside
          by_cases heq : a = anchor
          · subst heq
            obtain rfl := Option.some.inj (ha.symm.trans htarget)
            exact .inr .refl
          · exact (hleft a target ha).imp (Finset.mem_erase.2 ⟨heq, ·⟩) (.tail · hpart)
        · exact absurd (TransGen.tail' hback hpart) (h part (.single hpart))

lemma Ends.no_circle (h : Ends nodes node) : ¬ TransGen (Enters nodes) node node := by
  induction h with
  | intro node _ ih =>
    intro hcircle
    obtain ⟨part, hpart, hback⟩ := TransGen.head'_iff.1 hcircle
    exact ih part hpart (.tail' hback hpart)

/-- **Reading ends exactly if the walk never comes back to a node inside itself**, whatever nodes
the aliases lead to. It then has a value or a fault. -/
theorem reading_ends_iff_no_circle (nodes : List (Nat × Node)) (at_ : Pointer) (node : Node) :
    (∃ r, valueOf nodes at_ node = some r) ↔
      ∀ inner, ReflTransGen (Enters nodes) node inner → ¬ TransGen (Enters nodes) inner inner := by
  constructor
  · rintro ⟨r, hr⟩ inner hinner hcircle
    have hends : Ends nodes inner :=
      ReflTransGen.head_induction_on hinner id (fun hstep _ ih hends => ih (hends.inv hstep))
        (ends_of_valueOf hr)
    exact hends.no_circle hcircle
  · intro h
    refine exists_valueOf
      (ends_of_left (nodes.map Prod.fst).toFinset (fun anchor target htarget => ?_) h) at_
    obtain ⟨front, back, rfl, -⟩ := List.lookup_eq_some_iff.1 htarget
    simp

/-- A sequence whose only item is an alias of the sequence. -/
def selfItem : Node := .sequence 1 [.alias 1 0]

/-- A sequence with an alias of itself in it can be written, and has no value and no fault. -/
theorem selfItem_has_no_end :
    readRoot "&a [*a]" = .ok (some selfItem, [(0, selfItem)]) ∧ valueOf
    [(0, selfItem)] .root selfItem = none := by
  have hinput : Input.ofBytes "&a [*a]" = ⟨[38, 97, 32, 91, 42, 97, 93], [7], none⟩ := by cbv
  have hread : readRoot "&a [*a]" = .ok (some selfItem, [(0, selfItem)]) := by
    rw [readRoot, hinput]
    rfl
  refine ⟨hread, Option.eq_none_iff_forall_not_mem.2 fun r hr => ?_⟩
  have hitem : Enters [(0, selfItem)] selfItem (.alias 1 0) := comesTo_head _ []
  have htarget : Enters [(0, selfItem)] (.alias 1 0) selfItem := comesTo_head _ []
  exact (ends_of_valueOf hr).no_circle (.tail (.single hitem) htarget)

end UiCodegen.Document.Yaml
