import UiCodegen.Document.Value

/-!
# Context scopes

The bindings that context variables refer to, innermost first.  A bound value is evaluated in the
bindings outside the one that holds it, so a binding can refer to an outer variable of the same
name, and following variables always comes to an end.
-/

namespace UiCodegen.Transpile

/-- The objects of bindings around a value, innermost first. -/
abbrev Scope := List Fields

namespace Scope

def extend (s : Scope) (bindings : Option Fields) : Scope :=
  match bindings with
  | some fields => fields :: s
  | none => s

/-- The innermost binding of a name, and the scope it is evaluated in. -/
def lookup? : Scope → Bytes → Option (Value × Scope)
  | [], _ => none
  | fields :: outer, name =>
    match fields.get? name with
    | some v => some (v, outer)
    | none => lookup? outer name

theorem length_lookup?_lt {s outer : Scope} {name : Bytes} {v : Value}
    (h : s.lookup? name = some (v, outer)) : outer.length < s.length := by
  induction s with
  | nil => simp [lookup?] at h
  | cons fields rest ih =>
    unfold lookup? at h
    split at h
    · simp only [Option.some.injEq, Prod.mk.injEq] at h
      obtain ⟨_, rfl⟩ := h
      exact Nat.lt_succ_self _
    · exact Nat.lt_succ_of_lt (ih h)

/-- All names that are bound, innermost first, each once. -/
def names (s : Scope) : List Bytes :=
  (s.foldl (fun seen fields =>
    fields.keys.foldl (fun seen key => if seen.contains key then seen else key :: seen) seen)
      []).reverse

end Scope

end UiCodegen.Transpile
