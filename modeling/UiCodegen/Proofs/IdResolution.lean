import UiCodegen.Proofs.Registrations
import UiCodegen.Proofs.Traces

/-!
# What ids resolve to

An id is registered under the key `@x`, and a name under its path.  A reference to `x` tries the key
`@x` first, so it stands for whatever was registered under that key last.  Nothing keeps a path from
being spelled `@x`: a name with that path takes the key from the id, and no other name does
(`Shadowed`).  The statement is about every point of every run of a session (`Point`), with the
registrations that were made until then.
-/

namespace UiCodegen

variable {x : Bytes} {e : Entity} {regs : List Registration}

namespace Registration

variable {x : Bytes} {reg : Registration}

lemma key_of_declares (h : reg.declares x = true) : reg.key = "@" ++ x := by
  cases reg with
  | id name e => rw [key, eq_of_beq h]
  | named path e => cases h

/-- Under the key of an id there are only its declarations, and names that are spelled like it. -/
lemma declares_or_named (h : reg.key = "@" ++ x) :
    reg.declares x = true ∨ reg = .named ("@" ++ x) reg.entity := by
  cases reg with
  | id name e => exact .inl (beq_iff_eq.2 (List.append_cancel_left h))
  | named path e =>
    obtain rfl : path = "@" ++ x := h
    exact .inr rfl

end Registration

/-! ## The latest registration -/

lemma latest_eq_some_iff {test : Registration → Bool} : latest test regs = some e ↔
      ∃ earlier reg later, regs = earlier ++ reg :: later ∧ test reg = true ∧ reg.entity = e ∧
        ∀ other ∈ later, test other = false := by
  simp only [latest, Option.map_eq_some_iff, List.find?_eq_some_iff_append]
  constructor
  · rintro ⟨reg, ⟨htest, later, earlier, hregs, hlater⟩, rfl⟩
    refine ⟨earlier.reverse, reg, later.reverse, ?_, htest, rfl, by simpa using hlater⟩
    simpa using congrArg List.reverse hregs
  · rintro ⟨earlier, reg, later, rfl, htest, rfl, hlater⟩
    exact ⟨reg, ⟨htest, later.reverse, earlier.reverse, by simp, by simpa using hlater⟩, rfl⟩

/-- The last registration under the key of an id is that of a name, and of another entity. -/
def Shadowed (x : Bytes) (e : Entity) (regs : List Registration) : Prop :=
  ∃ earlier other later, regs = earlier ++ .named ("@" ++ x) other :: later ∧ other ≠ e ∧
    ∀ reg ∈ later, reg.key ≠ "@" ++ x

section

variable {x : Bytes} {regs : List Registration} {e : Entity}

lemma exists_latest_key (h : latest (·.declares x) regs = some e) :
    ∃ e', latest (·.key == "@" ++ x) regs = some e' := by
  obtain ⟨earlier, reg, later, rfl, hdeclares, -⟩ := latest_eq_some_iff.1 h
  have hfound : (List.find? (·.key == "@" ++ x) (earlier ++ reg :: later).reverse).isSome := by
    rw [List.find?_isSome]
    exact ⟨reg, by simp, beq_iff_eq.2 (Registration.key_of_declares hdeclares)⟩
  obtain ⟨found, hfound⟩ := Option.isSome_iff_exists.1 hfound
  exact ⟨found.entity, by rw [latest, hfound]; rfl⟩

/-- An entity that was declared under an id has the key of the id unless a name has taken it. -/
lemma latest_key_eq_iff_not_shadowed (h : latest (·.declares x) regs = some e) :
    latest (·.key == "@" ++ x) regs = some e ↔ ¬ Shadowed x e regs := by
  constructor
  · rintro hlatest ⟨earlier, other, later, rfl, hother, hlater⟩
    have hnamed : latest (·.key == "@" ++ x) (earlier ++ .named ("@" ++ x) other :: later) =
        some other :=
      latest_eq_some_iff.2 ⟨earlier, _, later, rfl, beq_self_eq_true _, rfl,
        fun reg hreg => beq_false_of_ne (hlater reg hreg)⟩
    exact hother (Option.some.inj (hnamed.symm.trans hlatest))
  · intro hshadowed
    obtain ⟨e', hlatest⟩ := exists_latest_key h
    obtain ⟨earlier, reg, later, hregs, hkey, hentity, hlater⟩ := latest_eq_some_iff.1 hlatest
    have hkeys : ∀ other ∈ later, other.key ≠ "@" ++ x :=
      fun other hmem => ne_of_beq_false (hlater other hmem)
    suffices e' = e by rw [hlatest, this]
    obtain hdeclares | hnamed := Registration.declares_or_named (eq_of_beq hkey)
    · -- Nothing behind it has the key, and so nothing behind it declares the id again.
      have hdeclared : latest (·.declares x) regs = some e' :=
        latest_eq_some_iff.2 ⟨earlier, reg, later, hregs, hdeclares, hentity, fun other hmem =>
          Bool.eq_false_iff.2 fun hother => hkeys other hmem (Registration.key_of_declares hother)⟩
      exact Option.some.inj (hdeclared.symm.trans h)
    · by_contra hne
      refine hshadowed ⟨earlier, e', later, ?_, hne, hkeys⟩
      rw [hregs, hnamed, hentity]

end

/-! ## Resolving -/

/-- An id is given with or without the `@` in front of it. -/
lemma Bytes.trimHead_eq_iff {s : Bytes} (hx : x.head? ≠ some 64) :
    Bytes.trimHead s "@" = x ↔ s = x ∨ s = "@" ++ x := by
  match s with
  | [] =>
    change [] = x ↔ [] = x ∨ [] = 64 :: x
    simp
  | b :: rest =>
    by_cases hb : b = 64
    · subst hb
      change rest = x ↔ 64 :: rest = x ∨ 64 :: rest = 64 :: x
      constructor
      · rintro rfl
        exact .inr rfl
      · rintro (rfl | h)
        · exact absurd rfl hx
        · exact List.tail_eq_of_cons_eq h
    · have hkept : Bytes.trimHead (b :: rest) [64] = b :: rest := by
        simp [Bytes.trimHead, Bytes.dropHead?, Bytes.startsWith, Ne.symm hb]
      change Bytes.trimHead (b :: rest) [64] = x ↔ b :: rest = x ∨ b :: rest = 64 :: x
      rw [hkept]
      simp [hb]

namespace Registry

variable {r : Registry} {x : Bytes} {e : Entity}

/-- The key of an id comes before every path. -/
lemma resolve?_of_get? (hx : x.head? ≠ some 64) (h : r.get? ("@" ++ x) = some e) (path : Bytes) :
    r.resolve? x path = some e := by
  rw [resolve?, (Bytes.trimHead_eq_iff hx).2 (.inl rfl), h]
  rfl

lemma resolve?_register (hx : x.head? ≠ some 64) (h : r.get? ("@" ++ x) = some e) (key : Bytes)
    (other : Entity) (path : Bytes) :
    (r.register key other).1.resolve? x path = if key == "@" ++ x then some other
    else r.resolve? x path := by
  have hget := get?_register r key other ("@" ++ x)
  split_ifs at hget ⊢ with hkey
  · exact resolve?_of_get? hx hget path
  · rw [h] at hget
    rw [resolve?_of_get? hx hget, resolve?_of_get? hx h]

end Registry

namespace Transpile

variable {cfg : Settings}

/-- A node declares an id by its text, with or without the `@`. -/
lemma mem_idRegistrations_iff {node : Fields} (hne : x ≠ []) (hx : x.head? ≠ some 64) :
    .id x e ∈ idRegistrations node e ↔
      node.get? "id" = some (.str x) ∨ node.get? "id" = some (.str ("@" ++ x)) := by
  unfold idRegistrations
  split
  · next id hid =>
    simp only [hid, Option.some.injEq, Value.str.injEq, ← Bytes.trimHead_eq_iff hx]
    split_ifs with hempty
    · rw [List.isEmpty_iff.1 hempty]
      simp [hne.symm]
    · simp [eq_comm]
  · next hid =>
    simp only [List.not_mem_nil, false_iff, not_or]
    exact ⟨hid _, hid _⟩

/-! ## Points of a session -/

/-- The states between the runs of a session, with the registrations that the runs have made. -/
inductive Registered (cfg : Settings) : List Registration → State → Prop
  | start (sizes : Api.Sizes) : Registered cfg [] { sizes }
  | run {regs regs' : List Registration} {st st' : State} {r : Except Fault Unit}
      (hst : Registered cfg regs st) (doc : Value) (hrun : (run cfg doc).outcome st = some (r, st'))
      (hregs : Finished cfg [(.ofDocument cfg doc, st)] regs') : Registered cfg (regs ++ regs') st'

/-- The registry at the points of a session, with the registrations made until then.  Points are
between two runs, at every call that a run leads to, whether or not it ends, and between the id and
the name of a node; the registry does not change anywhere else. -/
inductive Point (cfg : Settings) : List Registration → Registry → Prop
  | between {regs : List Registration} {st : State} (hst : Registered cfg regs st) :
      Point cfg regs st.registry
  | during {regs regs' : List Registration} {st st' : State} {doc : Value} {call : Call}
      (hst : Registered cfg regs st)
        (hmade : Made cfg (.ofDocument cfg doc, st) regs' (call, st')) :
      Point cfg (regs ++ regs') st'.registry
  | behindId {regs regs' : List Registration} {st st' st'' : State} {doc : Value} {node : Fields}
      {e : Entity} {f : Frame} {r : Except Fault Unit} (hst : Registered cfg regs st)
      (hmade : Made cfg (.ofDocument cfg doc, st) regs' (.inside node e f, st'))
      (hid : (registerId node e f.at_).outcome st' = some (r, st'')) :
      Point cfg (regs ++ regs' ++ idRegistrations node e) st''.registry

lemma Session.registered {st : State} (h : Session cfg st) : ∃ regs, Registered cfg regs st := by
  induction h with
  | start sizes => exact ⟨[], .start sizes⟩
  | run _ doc hrun ih =>
    obtain ⟨regs, hst⟩ := ih
    obtain ⟨regs', hregs', -⟩ := processes_run cfg doc _ _ _ hrun
    exact ⟨regs ++ regs', hst.run doc hrun hregs'⟩

lemma Registered.registry {regs : List Registration} {st : State} (h : Registered cfg regs st) :
    st.registry = Registry.replay {} regs := by
  induction h with
  | start sizes => rfl
  | run _ doc hrun hregs ih =>
    obtain ⟨regs', hregs', hregistry⟩ := processes_run cfg doc _ _ _ hrun
    rw [hregistry, ih, hregs'.unique hregs, Registry.replay_append]

lemma Point.registry {regs : List Registration} {r : Registry} (h : Point cfg regs r) :
    r = Registry.replay {} regs := by
  cases h with
  | between hst => exact hst.registry
  | during hst hmade => rw [hmade.registry, hst.registry, Registry.replay_append]
  | behindId hst hmade hid =>
    rw [(outcome_registerId hid).1, hmade.registry, hst.registry, Registry.replay_append,
      Registry.replay_append]

lemma Point.get? {regs : List Registration} {r : Registry} (h : Point cfg regs r) (key : Bytes) :
    r.get? key = latest (·.key == key) regs := by
  rw [h.registry, Registry.get?_replay]
  exact Option.or_none

/-! ## Accounts that can be computed -/

/-- The registrations of parts, as far as the fuel goes. -/
def accountOf (cfg : Settings) : Nat → List (Call × State) → Option (List Registration)
  | 0, _ => none
  | _ + 1, [] => some []
  | n + 1, (call, st) :: rest => do
    let inner ← accountOf cfg n (calls cfg call st)
    let later ← accountOf cfg n rest
    pure (call.registrations ++ inner ++ later)

lemma finished_of_accountOf {n : Nat} {parts : List (Call × State)}
    (h : accountOf cfg n parts = some regs) : Finished cfg parts regs := by
  induction n generalizing parts regs with
  | zero => cases h
  | succ n ih =>
    match parts with
    | [] =>
      cases h
      exact .nil
    | (call, st) :: rest =>
      simp only [accountOf, Option.bind_eq_bind, Option.bind_eq_some_iff, Option.pure_def,
        Option.some.injEq] at h
      obtain ⟨inner, hinner, later, hlater, rfl⟩ := h
      exact .cons (ih hinner) (ih hlater)

/-- The end of a first run is a point, and the account of the document gives the registrations. -/
lemma point_of_accountOf {doc : Value} {n : Nat} (hrun : ((run cfg doc).outcome {}).isSome = true)
    (h : accountOf cfg n [(.ofDocument cfg doc, {})] = some regs) :
    ∃ r st, (run cfg doc).outcome {} = some (r, st) ∧ Point cfg regs st.registry := by
  obtain ⟨⟨r, st⟩, houtcome⟩ := Option.isSome_iff_exists.1 hrun
  have hregistered := (Registered.start []).run doc houtcome (finished_of_accountOf h)
  exact ⟨r, st, houtcome, .between hregistered⟩

/-! ## Ids and names -/

/-- **When an id wins.**  Every state between two runs and everything that a run leads to is a point
of the session. At each of them an id that was declared, with or without the `@`, resolves to the
entity of its latest declaration below every path, if and only if the last registration under its
key is not that of a name for another entity. Registering a name leaves what the id resolves to as
it is, unless the path of the name is spelled like the id. -/
theorem id_wins_iff_not_shadowed (cfg : Settings) :
    (∀ st, Session cfg st → (∃ regs, Point cfg regs st.registry) ∧
      ∀ doc call st', LeadsTo cfg doc st call st' → ∃ regs, Point cfg regs st'.registry) ∧
    ∀ x : Bytes, x.head? ≠ some 64 →
      (∀ node e, x ≠ [] → (.id x e ∈ idRegistrations node e ↔
        node.get? "id" = some (.str x) ∨ node.get? "id" = some (.str ("@" ++ x)))) ∧
      ∀ regs r e, Point cfg regs r → latest (·.declares x) regs = some e →
        ((∀ path, r.resolve? x path = some e) ↔ ¬ Shadowed x e regs) ∧
        ∀ named other path, (r.register named other).1.resolve? x path =
          if named == "@" ++ x then some other else r.resolve? x path := by
  refine ⟨fun st hst => ?_, fun x hx => ⟨fun node e hne => mem_idRegistrations_iff hne hx, ?_⟩⟩
  · obtain ⟨regs, hregs⟩ := hst.registered
    refine ⟨⟨regs, .between hregs⟩, fun doc call st' hleads => ?_⟩
    obtain ⟨regs', hmade⟩ := hleads.made
    exact ⟨regs ++ regs', .during hregs hmade⟩
  · intro regs r e hpoint hdeclared
    obtain ⟨e', hlatest⟩ := exists_latest_key hdeclared
    have hget : r.get? ("@" ++ x) = some e' := (hpoint.get? _).trans hlatest
    refine ⟨?_, Registry.resolve?_register hx hget⟩
    rw [← latest_key_eq_iff_not_shadowed hdeclared, hlatest]
    simp only [Registry.resolve?_of_get? hx hget, forall_const]

def styleNamed (name : Bytes) : Entity :=
  { cname := name, ctype := "lv_style_t", isPointer := false, nodeType := "style",
    setterPrefix := "lv_style" }

/-- Two styles with one id, written in both ways, and two that are named like it without the `@`. -/
def redeclaredId : Value :=
  .arr [.obj [("type", .str "style"), ("id", .str "@a"), ("named", .str "a")],
    .obj [("type", .str "style"), ("id", .str "a")],
      .obj [("type", .str "style"), ("named", .str "a")]]

/-- A style with an id, and one whose name is spelled like the id. -/
def shadowedId : Value :=
  .arr [.obj [("type", .str "style"), ("id", .str "@a")],
    .obj [("type", .str "style"), ("named", .str "@a")]]

set_option maxRecDepth 100000 in
/-- The later of two declarations wins, and names without the `@` do not matter. -/
theorem redeclaredId_wins :
    ∃ regs r st, (run bareSettings redeclaredId).outcome {} = some (r, st) ∧
    Point bareSettings regs st.registry ∧
      latest (·.declares "a") regs = some (styleNamed "c_style_2") ∧
      ∀ path, st.registry.resolve? "a" path = some (styleNamed "c_style_2") := by
  have haccount : accountOf bareSettings 30 [(.ofDocument bareSettings redeclaredId, {})] =
      some [.id "a" (styleNamed "c_style_1"), .named "a" (styleNamed "c_style_1"), .id "a"
        (styleNamed "c_style_2"), .named "a" (styleNamed "c_style_3")] := by
    cbv
  obtain ⟨r, st, houtcome, hpoint⟩ := point_of_accountOf (by cbv) haccount
  refine ⟨_, r, st, houtcome, hpoint, by cbv, ?_⟩
  have hwins := ((id_wins_iff_not_shadowed bareSettings).2 "a" (by decide)).2 _ _ _ hpoint (by cbv)
  exact hwins.1.2 ((latest_key_eq_iff_not_shadowed (by cbv)).1 (by cbv))

set_option maxRecDepth 100000 in
/-- The name takes the key of the id: the reference `a` stands for the second style. -/
theorem shadowedId_loses :
    ∃ regs r st, (run bareSettings shadowedId).outcome {} = some (r, st) ∧
    Point bareSettings regs st.registry ∧
      latest (·.declares "a") regs = some (styleNamed "c_style_1") ∧
      ∀ path, st.registry.resolve? "a" path = some (styleNamed "c_style_2") := by
  have haccount : accountOf bareSettings 30 [(.ofDocument bareSettings shadowedId, {})] =
      some [.id "a" (styleNamed "c_style_1"), .named "@a" (styleNamed "c_style_2")] := by
    cbv
  obtain ⟨r, st, houtcome, hpoint⟩ := point_of_accountOf (by cbv) haccount
  refine ⟨_, r, st, houtcome, hpoint, by cbv, ?_⟩
  exact Registry.resolve?_of_get? (by decide) ((hpoint.get? _).trans (by cbv))

end Transpile

end UiCodegen
