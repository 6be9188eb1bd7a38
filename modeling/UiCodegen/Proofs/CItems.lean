import UiCodegen.Proofs.StringLiterals

/-!
# Items between commas

The arguments of a call and the initializers of a table stand between commas.  A comma divides two
items only where no bracket is open and no literal or comment goes on, so a compiler finds the end
of an item by walking over its text.  The walk knows string and character literals, comments, the
three kinds of brackets and their other spellings, such as `<%`.  It refuses what no item can hold:
a bracket that closes nothing, the end of a line inside a literal, a directive.

A text is one item if the walk over it comes to rest (`Single`).  A reader of items then finds it in
any list (`items?_append`), and what it finds are such texts (`of_items?`).
-/

namespace UiCodegen.C

/-! ## The walk -/

/-- Where a walk over the text of an item stands. -/
inductive Mode where
  /-- Outside of literals and comments.  `lead` is the character before, if something longer can
  begin with it, and otherwise zero. -/
  | code (lead : UInt8)
  /-- In a string or character literal, perhaps behind a backslash. -/
  | literal (character escaped : Bool)
  | lineComment
  /-- In a comment of any number of lines, perhaps behind a star. -/
  | comment (star : Bool)
  deriving DecidableEq, Repr

/-- A walk over the text of an item. -/
structure Walk where
  mode : Mode := .code 0
  /-- The brackets that close what is open, innermost first. -/
  awaited : Bytes := []
  /-- Whether there was anything but blanks and comments. -/
  ink : Bool := false
  deriving DecidableEq, Repr

/-- The bracket that closes a bracket. -/
def closing? : UInt8 → Option UInt8
  | 40 => some 41
  | 91 => some 93
  | 123 => some 125
  | _ => none

/-- Whether a character closes a bracket. -/
def isClosing (c : UInt8) : Bool := c == 41 || c == 93 || c == 125

/-- What a character means behind another one: the other spellings of brackets and of the number
sign. -/
def meant (lead c : UInt8) : UInt8 :=
  if lead == 60 && c == 37 then 123
  else if lead == 37 && c == 62 then 125
  else if lead == 60 && c == 58 then 91
  else if lead == 58 && c == 62 then 93
  else if lead == 37 && c == 58 then 35
  else c

/-- A character with which something longer can begin: a comment, a bracket in its other spelling, a
trigraph, or the end of a joined line. -/
def leadOf (c : UInt8) : UInt8 :=
  if c == 37 || c == 47 || c == 58 || c == 60 || c == 63 || c == 92 then c else 0

namespace Walk

/-- One character outside of literals and comments, by its meaning.  A comma where no bracket is
open is no part of an item. -/
def token (w : Walk) (c meaning : UInt8) : Option Walk :=
  if meaning == 34 || meaning == 39 then
    some { w with mode := .literal (meaning == 39) false, ink := true }
  else if isClosing meaning then
    match w.awaited with
    | bracket :: outer => if bracket == meaning then some ⟨.code 0, outer, w.ink⟩ else none
    | [] => none
  else if meaning == 35 || meaning == 44 && w.awaited.isEmpty then none
  else match closing? meaning with
    | some bracket => some ⟨.code 0, bracket :: w.awaited, true⟩
    | none => some { w with mode := .code (leadOf c), ink := w.ink || !(isBlank c || c == 47) }

/-- One character more. -/
def step (w : Walk) (c : UInt8) : Option Walk :=
  match w.mode with
  | .literal character escaped =>
    if c == 10 then none
    else if escaped then some { w with mode := .literal character false }
    else if c == 92 then some { w with mode := .literal character true }
    else some (if c == (if character then 39 else 34) then { w with mode := .code 0 } else w)
  | .lineComment => some (if c == 10 then { w with mode := .code 0 } else w)
  | .comment star => some { w with mode := if star && c == 47 then .code 0 else .comment (c == 42) }
  | .code lead =>
    if lead == 47 && c == 47 then some { w with mode := .lineComment }
    else if lead == 47 && c == 42 then some { w with mode := .comment false }
    else w.token c (meant lead c)

/-- The walk along a text. -/
def along (w : Walk) (s : Bytes) : Option Walk := s.foldlM step w

/-- An item can end here: nothing is open.  No item ends in a question mark or a backslash. -/
def atRest (w : Walk) : Bool :=
  w.awaited.isEmpty && match w.mode with
    | .code lead => lead != 63 && lead != 92
    | _ => false

variable {w w' : Walk} {c : UInt8} {s t outer : Bytes}

@[simp] lemma along_nil (w : Walk) : w.along [] = some w := rfl

@[simp] lemma along_cons (w : Walk) (c : UInt8) (s : Bytes) :
    w.along (c :: s) = (w.step c).bind (along · s) := rfl

lemma along_append (w : Walk) (s t : Bytes) : w.along (s ++ t) = (w.along s).bind (along · t) := by
  rw [along, List.foldlM_append]
  rfl

/-- At rest no bracket is open, and the walk is outside of literals and comments. -/
lemma atRest_iff : w.atRest = true ↔
    w.awaited = [] ∧ ∃ lead, w.mode = .code lead ∧ lead ≠ 63 ∧ lead ≠ 92 := by
  rw [atRest]
  cases w.mode <;> simp

/-- A comma or a closing bracket that is met at rest is no part of the item. -/
lemma step_of_atRest (hrest : w.atRest = true) (hc : c = 44 ∨ isClosing c = true) :
    w.step c = none := by
  obtain ⟨hawaited, lead, hmode, -, -⟩ := atRest_iff.1 hrest
  have hcases : c = 44 ∨ c = 41 ∨ c = 93 ∨ c = 125 := by simpa [isClosing, or_assoc] using hc
  rcases hcases with rfl | rfl | rfl | rfl
  all_goals simp [step, hmode, meant, token, isClosing, hawaited]

/-- Where a text ends in a question mark or a backslash, no item ends. -/
lemma not_atRest_of_step (hstep : w.step c = some w') (hc : c = 63 ∨ c = 92) :
    w'.atRest = false := by
  have hlead : leadOf c = c := by rcases hc with rfl | rfl <;> rfl
  obtain ⟨mode, awaited, ink⟩ := w
  cases mode with
  | code lead =>
    have hstep : some ⟨.code c, awaited, true⟩ = some w' := by
      rw [← hstep]
      rcases hc with rfl | rfl <;> simp [step, meant, token, isClosing, closing?, hlead, isBlank]
    obtain rfl := Option.some.inj hstep
    rcases hc with rfl | rfl <;> simp [atRest]
  | literal character escaped =>
    cases character <;> cases escaped <;> rcases hc with rfl | rfl <;>
      · simp only [step] at hstep
        cases hstep
        simp [atRest]
  | lineComment | comment =>
    rcases hc with rfl | rfl <;>
      · simp only [step] at hstep
        cases hstep
        simp [atRest]

/-! ### Inside of brackets -/

/-- The same walk where brackets are open around it. -/
def under (w : Walk) (outer : Bytes) : Walk := ⟨w.mode, w.awaited ++ outer, true⟩

lemma token_under {meaning : UInt8} (htoken : w.token c meaning = some w') :
    (w.under outer).token c meaning = some (w'.under outer) := by
  obtain ⟨mode, awaited, ink⟩ := w
  simp only [token] at htoken
  split_ifs at htoken with hquote hclosing hrefused
  · obtain rfl := Option.some.inj htoken
    simp [token, under, hquote]
  · cases awaited with
    | nil => cases htoken
    | cons bracket rest =>
      simp only [Option.ite_none_right_eq_some, Option.some.injEq] at htoken
      obtain ⟨hbracket, rfl⟩ := htoken
      simp [token, under, hquote, hclosing, hbracket]
  · have hopen : (meaning == 35 || meaning == 44 && (awaited ++ outer).isEmpty) = false := by
      simp only [Bool.not_eq_true, Bool.or_eq_false_iff, Bool.and_eq_false_iff] at hrefused ⊢
      exact hrefused.imp id (Or.imp id fun h => by simp_all)
    cases hbracket : closing? meaning with
    | some bracket =>
      rw [hbracket] at htoken
      obtain rfl := Option.some.inj htoken
      simp [token, under, hquote, hclosing, hopen, hbracket]
    | none =>
      rw [hbracket] at htoken
      obtain rfl := Option.some.inj htoken
      simp [token, under, hquote, hclosing, hopen, hbracket]

lemma step_under (hstep : w.step c = some w') : (w.under outer).step c = some (w'.under outer) := by
  obtain ⟨mode, awaited, ink⟩ := w
  cases mode with
  | code lead =>
    simp only [step] at hstep
    split_ifs at hstep with hline hcomment
    · obtain rfl := Option.some.inj hstep
      simp [step, under, hline]
    · obtain rfl := Option.some.inj hstep
      simp [step, under, hline, hcomment]
    · have htoken : (under ⟨.code lead, awaited, ink⟩ outer).token c (meant lead c) =
        some (w'.under outer) :=
        token_under hstep
      simpa [step, under, hline, hcomment] using htoken
  | literal character escaped =>
    simp only [step] at hstep
    split_ifs at hstep with hend hescaped hslash hmark
    all_goals
      obtain rfl := Option.some.inj hstep
      simp [step, under, *]
  | lineComment =>
    simp only [step] at hstep
    split_ifs at hstep with hend
    all_goals
      obtain rfl := Option.some.inj hstep
      simp [step, under, *]
  | comment star =>
    obtain rfl := Option.some.inj hstep
    rfl

lemma along_under (halong : w.along s = some w') :
    (w.under outer).along s = some (w'.under outer) := by
  induction s generalizing w with
  | nil =>
    obtain rfl := Option.some.inj halong
    rfl
  | cons c s ih =>
    obtain ⟨next, hstep, hrest⟩ := Option.bind_eq_some_iff.1 halong
    rw [along_cons, step_under hstep]
    exact ih hrest

lemma step_open {bracket : UInt8} (hc : closing? c = some bracket)
    (hmode : ∃ lead, w.mode = .code lead) : w.step c = some (under {} (bracket :: w.awaited)) := by
  obtain ⟨lead, hmode⟩ := hmode
  have hcases : c = 40 ∨ c = 91 ∨ c = 123 := by
    unfold closing? at hc
    split at hc <;> simp_all
  rcases hcases with rfl | rfl | rfl <;> cases hc <;>
    simp [step, hmode, meant, token, isClosing, closing?, under]

lemma step_close (hrest : w.atRest = true) (hc : isClosing c = true) :
    (w.under (c :: outer)).step c = some ⟨.code 0, outer, true⟩ := by
  obtain ⟨hawaited, lead, hmode, -, -⟩ := atRest_iff.1 hrest
  have hcases : c = 41 ∨ c = 93 ∨ c = 125 := by simpa [isClosing, or_assoc] using hc
  rcases hcases with rfl | rfl | rfl <;> simp [step, under, hmode, meant, token,
    isClosing, hawaited]

/-- Inside of brackets a comma leads to the start of the next item. -/
lemma along_comma (hrest : w.atRest = true) (houter : outer ≠ []) :
    (w.under outer).along [44, 32] = some (under {} outer) := by
  obtain ⟨hawaited, lead, hmode, -, -⟩ := atRest_iff.1 hrest
  have hcomma : (w.under outer).step 44 = some (under {} outer) := by
    simp [step, under, hmode, meant, token, isClosing, closing?, hawaited, houter, leadOf, isBlank]
  rw [along_cons, hcomma]
  rfl

/-- The walk along a literal. -/
lemma along_quote (s : Bytes) : along {} (quote s) = some { ink := true } := by
  have hinside : ∀ inside, QuotesEscaped inside → 10 ∉ inside →
      along ⟨.literal false false, [], true⟩ inside = some ⟨.literal false false, [], true⟩ := by
    intro inside hquotes hline
    induction hquotes with
    | nil => rfl
    | plain hquote hslash _ ih =>
      simp only [List.mem_cons, not_or] at hline
      simpa [step, Ne.symm hline.1, hquote, hslash] using ih hline.2
    | escape c _ ih =>
      simp only [List.mem_cons, not_or] at hline
      simpa [step, Ne.symm hline.2.1] using ih hline.2.2
  have hline : 10 ∉ escape s := fun hmem => visible_escape s 10 hmem (by decide)
  have hquote : quote s = 34 :: (escape s ++ [34]) := rfl
  have hopen : step {} 34 = some ⟨.literal false false, [], true⟩ := rfl
  rw [hquote, along_cons, hopen, Option.bind_some, along_append,
    hinside _ (quotesEscaped_escape s) hline]
  rfl

end Walk

/-! ## One item -/

/-- Whether there is anything but blanks and comments in an item; nothing, if a text is not one
item. -/
def ink? (s : Bytes) : Option Bool :=
  (Walk.along {} s).bind fun w => if w.atRest then some w.ink else none

/-- A text that is one item, wherever it stands between commas. -/
def Single (s : Bytes) : Prop := (ink? (prepared s)).isSome = true

/-- A text that is one argument: an item that is not blank. -/
def IsArgument (s : Bytes) : Prop := ink? (prepared s) = some true

instance (s : Bytes) : Decidable (Single s) := inferInstanceAs (Decidable (_ = true))

instance (s : Bytes) : Decidable (IsArgument s) := inferInstanceAs (Decidable (_ = some true))

section

variable {w : Walk} {item s t : Bytes} {c : UInt8} {ink : Bool}

lemma ink?_eq_some_iff :
    ink? s = some ink ↔ ∃ w, Walk.along {} s = some w ∧ w.atRest = true ∧ w.ink = ink := by
  simp [ink?, Option.bind_eq_some_iff]

lemma IsArgument.single (h : IsArgument s) : Single s := by rw [Single, h, Option.isSome_some]

lemma single_iff : Single s ↔ ∃ w, Walk.along {} (prepared s) = some w ∧ w.atRest = true := by
  rw [Single, Option.isSome_iff_exists]
  simp only [ink?_eq_some_iff]
  exact ⟨fun ⟨_, w, hw, hrest, _⟩ => ⟨w, hw, hrest⟩, fun ⟨w, hw, hrest⟩ => ⟨_, w, hw, hrest, rfl⟩⟩

/-! ### Before tokens -/

lemma replaceTrigraphs_append_of_last (hlast : s.getLast? ≠ some 63) (t : Bytes) :
    replaceTrigraphs (s ++ t) = replaceTrigraphs s ++ replaceTrigraphs t := by
  fun_induction replaceTrigraphs s with
  | case1 c rest meant hmeant ih =>
    have hrest : rest.getLast? ≠ some 63 := by cases rest <;> simp_all
    simp [replaceTrigraphs, hmeant, ih hrest]
  | case2 c rest hnone ih =>
    have hrest : (63 :: c :: rest).getLast? ≠ some 63 := by simpa using hlast
    rw [List.cons_append, replaceTrigraphs_cons, ih hrest, List.cons_append]
    rintro d rest' - heq
    obtain ⟨-, heq⟩ := List.cons.inj heq
    rwa [← (List.cons.inj heq).1]
  | case3 c rest hne ih =>
    have hrest : rest.getLast? ≠ some 63 := by cases rest <;> simp_all
    rw [List.cons_append, replaceTrigraphs_cons, ih hrest, List.cons_append]
    intro d rest' hc heq
    rcases rest with _ | ⟨a, _ | ⟨b, more⟩⟩
    · simp [hc] at hlast
    · simp [(List.cons.inj heq).1] at hlast
    · exact absurd (congrArg (· :: b :: more) (List.cons.inj heq).1) (hne b more hc)
  | case4 => rfl

lemma joinLines_append_of_last (hlast : s.getLast? ≠ some 92) (t : Bytes) :
    joinLines (s ++ t) = joinLines s ++ joinLines t := by
  fun_induction joinLines s with
  | case1 rest ih =>
    have hrest : rest.getLast? ≠ some 92 := by cases rest <;> simp_all
    simpa [joinLines] using ih hrest
  | case2 c rest hne ih =>
    have hrest : rest.getLast? ≠ some 92 := by cases rest <;> simp_all
    rw [List.cons_append, joinLines_cons, ih hrest, List.cons_append]
    rintro rfl hhead
    cases rest with
    | nil => simp at hlast
    | cons d rest => exact hne rest rfl (congrArg (· :: rest) (Option.some.inj hhead))
  | case3 => rfl

/-- A text that comes out without a question mark and without a backslash at its end is prepared
apart from what follows it. -/
lemma prepared_append (hlast : ∀ c ∈ (prepared s).getLast?, c ≠ 63 ∧ c ≠ 92) (t : Bytes) :
    prepared (s ++ t) = prepared s ++ prepared t := by
  have hlines : (replaceTrigraphs s).getLast? ≠ some 92 := by
    intro h
    obtain ⟨front, heq⟩ := List.getLast?_eq_some_iff.1 h
    refine (hlast 92 ?_).2 rfl
    rw [prepared, heq, joinLines_append (fun _ => rfl) (by decide)]
    simp [joinLines]
  have hquestion : s.getLast? ≠ some 63 := by
    intro h
    obtain ⟨front, rfl⟩ := List.getLast?_eq_some_iff.1 h
    refine (hlast 63 ?_).1 rfl
    rw [prepared, replaceTrigraphs_append (fun _ => rfl) rfl, joinLines_append
      (fun h => absurd h (by decide)) (by decide)]
    simp [replaceTrigraphs, joinLines]
  rw [prepared, replaceTrigraphs_append_of_last hquestion, joinLines_append_of_last hlines]
  rfl

lemma last_of_atRest {w' : Walk} (halong : w.along s = some w') (hrest : w'.atRest = true) :
    ∀ c ∈ s.getLast?, c ≠ 63 ∧ c ≠ 92 := by
  intro c hc
  obtain ⟨front, rfl⟩ := List.getLast?_eq_some_iff.1 hc
  rw [Walk.along_append] at halong
  obtain ⟨before, -, hlast⟩ := Option.bind_eq_some_iff.1 halong
  obtain ⟨after, hstep, heq⟩ := Option.bind_eq_some_iff.1 hlast
  obtain rfl := Option.some.inj heq
  have hnot : ¬ (c = 63 ∨ c = 92) := fun hc => by
    rw [Walk.not_atRest_of_step hstep hc] at hrest
    cases hrest
  exact not_or.1 hnot

lemma Single.prepared_append (h : Single s) (t : Bytes) :
    prepared (s ++ t) = prepared s ++ prepared t := by
  obtain ⟨w, halong, hrest⟩ := single_iff.1 h
  exact C.prepared_append (last_of_atRest halong hrest) t

/-! ## Reading items -/

/-- Reads items up to the bracket that closes their list: each item, and whether it is more than
blank; the bracket; and what follows.  The walk `w` along the first item has come behind `item`,
which is reversed. -/
def items? (w : Walk) (item : Bytes) : Bytes → Option (List (Bytes × Bool) × UInt8 × Bytes)
  | [] => none
  | c :: rest =>
    if w.atRest && c == 44 then
      (items? {} [] rest).map fun found => ((item.reverse, w.ink) :: found.1, found.2)
    else if w.atRest && isClosing c then some ([(item.reverse, w.ink)], c, rest)
    else (w.step c).bind fun w => items? w (c :: item) rest

/-- Along what is part of an item, the reader walks. -/
lemma items?_append {w' : Walk} (halong : w.along s = some w') (item t : Bytes) :
    items? w item (s ++ t) = items? w' (s.reverse ++ item) t := by
  induction s generalizing w item with
  | nil =>
    obtain rfl := Option.some.inj halong
    rfl
  | cons c s ih =>
    obtain ⟨next, hstep, hrest⟩ := Option.bind_eq_some_iff.1 halong
    have hnot : ∀ hc : c = 44 ∨ isClosing c = true, w.atRest = false := by
      intro hc
      by_contra hw
      rw [Walk.step_of_atRest (by simpa using hw) hc] at hstep
      cases hstep
    have hcomma : ¬ (w.atRest && c == 44) = true := by
      rintro h
      simp only [Bool.and_eq_true, beq_iff_eq] at h
      exact absurd (hnot (.inl h.2)) (by simp [h.1])
    have hclosing : ¬ (w.atRest && isClosing c) = true := by
      rintro h
      simp only [Bool.and_eq_true] at h
      exact absurd (hnot (.inr h.2)) (by simp [h.1])
    rw [List.cons_append, items?, if_neg hcomma, if_neg hclosing, hstep, Option.bind_some, ih hrest]
    simp

/-- What the reader finds first goes on with what was passed, and the walk along it comes to rest.
If it is the only item, the bracket stands behind it. -/
lemma exists_of_items? {found : List (Bytes × Bool)} {behind : Bytes}
    (h : items? w item t = some (found, c, behind)) :
    ∃ s w' others, w.along s = some w' ∧ w'.atRest = true ∧
      found = (item.reverse ++ s, w'.ink) :: others ∧ (others = [] → t = s ++ c :: behind) ∧
      ∀ p ∈ others, ink? p.1 = some p.2 := by
  induction t generalizing w item found with
  | nil => cases h
  | cons d rest ih =>
    rw [items?] at h
    split_ifs at h with hcomma hclosing
    · obtain ⟨⟨others, c', behind'⟩, hothers, heq⟩ := Option.map_eq_some_iff.1 h
      simp only [Prod.mk.injEq] at heq
      obtain ⟨rfl, rfl, rfl⟩ := heq
      obtain ⟨s, w', more, halong, hrest, rfl, -, hmore⟩ := ih hothers
      simp only [Bool.and_eq_true] at hcomma
      refine ⟨[], w, (s, w'.ink) :: more, rfl, hcomma.1, by simp, nofun, List.forall_mem_cons.2
        ⟨?_, hmore⟩⟩
      exact ink?_eq_some_iff.2 ⟨w', halong, hrest, rfl⟩
    · simp only [Option.some.injEq, Prod.mk.injEq] at h
      obtain ⟨rfl, rfl, rfl⟩ := h
      simp only [Bool.and_eq_true] at hclosing
      exact ⟨[], w, [], rfl, hclosing.1, by rw [List.append_nil], fun _ => rfl, nofun⟩
    · obtain ⟨next, hstep, hnext⟩ := Option.bind_eq_some_iff.1 h
      obtain ⟨s, w', others, halong, hrest, rfl, honly, hothers⟩ := ih hnext
      refine ⟨d :: s, w', others, by rw [Walk.along_cons, hstep]; exact halong,
        hrest, by simp, ?_, hothers⟩
      exact fun hnil => congrArg (List.cons d) (honly hnil)

/-- The items of a list that begins here, and where it ends if it has one item only. -/
lemma of_items? {found : List (Bytes × Bool)} {behind : Bytes}
    (h : items? {} [] t = some (found, c, behind)) :
    (∀ p ∈ found, ink? p.1 = some p.2) ∧ ∀ p, found = [p] → t = p.1 ++ c :: behind := by
  obtain ⟨s, w, others, halong, hrest, rfl, honly, hothers⟩ := exists_of_items? h
  refine ⟨List.forall_mem_cons.2 ⟨ink?_eq_some_iff.2 ⟨w, halong, hrest, rfl⟩, hothers⟩, ?_⟩
  rintro p heq
  obtain ⟨rfl, hnil⟩ := List.cons.inj heq
  exact honly hnil

/-- The pieces that arguments with a comma and a space between them fall into. -/
def spaced : List Bytes → List Bytes
  | [] => []
  | text :: texts => text :: texts.map (32 :: ·)

lemma length_spaced (texts : List Bytes) : (spaced texts).length = texts.length := by
  cases texts with
  | nil => rfl
  | cons text texts => simp [spaced]

/-- Reads the arguments of a call behind its opening bracket: the arguments, and what follows the
call.  No argument is blank, and a blank text between the brackets is none. -/
def arguments? (s : Bytes) : Option (List Bytes × Bytes) :=
  match items? {} [] s with
  | some (found, 41, behind) =>
    if found.map Prod.snd == [false] then some ([], behind)
    else if found.all Prod.snd then some (found.map Prod.fst, behind)
    else none
  | _ => none

/-- The arguments that are read are arguments. -/
lemma ink?_of_arguments? {args : List Bytes} {behind : Bytes}
    (h : arguments? s = some (args, behind)) : ∀ a ∈ args, ink? a = some true := by
  unfold arguments? at h
  split at h
  · rename_i found _ hfound
    split_ifs at h with hblank hall
    · cases h
      nofun
    · cases h
      rintro a ha
      obtain ⟨p, hp, rfl⟩ := List.mem_map.1 ha
      rw [(of_items? hfound).1 p hp, List.all_eq_true.1 hall p hp]
  · cases h

lemma ink?_space (s : Bytes) : ink? (32 :: s) = ink? s := rfl

lemma join_comma (text : Bytes) (texts : List Bytes) :
    Bytes.join ", " (text :: texts) = text ++ texts.flatMap (44 :: 32 :: ·) := by
  have hcomma : Bytes.ofString ", " = [44, 32] := by decide
  rw [Bytes.join, hcomma]
  rfl

lemma prepared_arguments (hc : isClosing c = true) {texts : List Bytes}
    (htexts : ∀ t ∈ texts, IsArgument t)
    (rest : Bytes) : prepared (texts.flatMap (44 :: 32 :: ·) ++ c :: rest) =
      (texts.map prepared).flatMap (44 :: 32 :: ·) ++ c :: prepared rest := by
  induction texts with
  | nil => exact prepared_cons (by rintro rfl; cases hc) (by rintro rfl; cases hc) rest
  | cons t texts ih =>
    rw [List.forall_mem_cons] at htexts
    rw [List.flatMap_cons, List.map_cons, List.flatMap_cons, List.append_assoc, List.cons_append,
      List.cons_append, prepared_cons (by decide) (by decide), prepared_cons (by decide)
        (by decide),
      htexts.1.single.prepared_append, ih htexts.2, List.append_assoc]
    rfl

lemma items?_arguments (hw : w.atRest = true) {texts : List Bytes}
    (htexts : ∀ t ∈ texts, ink? t = some true)
    (item rest : Bytes) : items? w item (texts.flatMap (44 :: 32 :: ·) ++ 41 :: rest) =
      some ((item.reverse, w.ink) :: texts.map fun t => (32 :: t, true), 41, rest) := by
  induction texts generalizing w item with
  | nil =>
    rw [List.flatMap_nil, List.nil_append, items?, if_neg (by simp), if_pos
      (by simp [hw, isClosing])]
    rfl
  | cons t texts ih =>
    rw [List.forall_mem_cons] at htexts
    obtain ⟨w', halong, hrest, hink⟩ := ink?_eq_some_iff.1 htexts.1
    have hspace : Walk.along {} (32 :: t) = some w' := halong
    rw [List.flatMap_cons, List.append_assoc, List.cons_append, items?, if_pos (by simp [hw]),
      items?_append hspace, ih hrest htexts.2, hink]
    simp

/-- A list of arguments is read as what it was made of if and only if each of them is one argument.
-/
theorem arguments?_join_iff (texts : List Bytes) :
    (∀ rest, arguments? (prepared (Bytes.join ", " texts ++ 41 :: rest)) =
      some (spaced (texts.map prepared), prepared rest)) ↔ ∀ t ∈ texts, IsArgument t := by
  constructor
  · intro h
    have hink := ink?_of_arguments? (h [])
    cases texts with
    | nil => nofun
    | cons t texts =>
      simp only [List.map_cons, spaced, List.forall_mem_cons, List.forall_mem_map,
        ink?_space] at hink
      exact List.forall_mem_cons.2 hink
  · intro h rest
    cases texts with
    | nil =>
      rw [Bytes.join, List.nil_append, prepared_cons (by decide) (by decide)]
      rfl
    | cons t texts =>
      rw [List.forall_mem_cons] at h
      obtain ⟨w, halong, hrest, hink⟩ := ink?_eq_some_iff.1 h.1
      rw [join_comma, List.append_assoc, h.1.single.prepared_append, prepared_arguments rfl
        h.2, arguments?, items?_append halong, items?_arguments hrest (List.forall_mem_map.2 h.2)]
      simp [hink, spaced, Function.comp_def]

/-! ## Items made of items -/

/-- A text that ends so that an item goes on behind it as if it began there. -/
def EndsPlain (s : Bytes) (ink : Bool) : Prop := Walk.along {} (prepared s) = some { ink }

lemma EndsPlain.isArgument (h : EndsPlain s true) : IsArgument s := by
  rw [IsArgument, ink?, h]
  rfl

lemma EndsPlain.single (h : EndsPlain s ink) : Single s := single_iff.2 ⟨_, h, rfl⟩

lemma EndsPlain.ink?_append (h : EndsPlain s ink) {ink' : Bool}
    (ht : ink? (prepared t) = some ink') : ink? (prepared (s ++ t)) = some (ink || ink') := by
  obtain ⟨w, halong, hrest, rfl⟩ := ink?_eq_some_iff.1 ht
  rw [h.single.prepared_append]
  cases ink with
  | false =>
      exact ink?_eq_some_iff.2 ⟨w, by rw [Walk.along_append, h, Option.bind_some, halong],
        hrest, by simp⟩
  | true =>
    have hunder : Walk.along { ink := true } (prepared t) = some (w.under []) :=
      Walk.along_under halong
    refine ink?_eq_some_iff.2
      ⟨w.under [], by rw [Walk.along_append, h, Option.bind_some, hunder], ?_, rfl⟩
    simpa [Walk.under, Walk.atRest] using hrest

lemma isArgument_quote (s : Bytes) : IsArgument (quote s) := by
  rw [IsArgument, prepared_of_apart (isChain_quote s), ink?, Walk.along_quote]
  rfl

/-- Inside of brackets the walk comes from each argument to the next. -/
lemma Walk.along_arguments {outer : Bytes} (hw : w.atRest = true) (houter : outer ≠ [])
    {texts : List Bytes} (htexts : ∀ t ∈ texts, ink? t = some true) :
    ∃ w' : Walk, w'.atRest = true ∧ (w.under outer).along (texts.flatMap (44 :: 32 :: ·)) = some
    (w'.under outer) := by
  induction texts generalizing w with
  | nil => exact ⟨w, hw, rfl⟩
  | cons t texts ih =>
    rw [List.forall_mem_cons] at htexts
    obtain ⟨next, halong, hnext, -⟩ := ink?_eq_some_iff.1 htexts.1
    obtain ⟨w', hw', htail⟩ := ih hnext htexts.2
    have hlist : (t :: texts).flatMap (44 :: 32 :: ·) = [44, 32] ++
        (t ++ texts.flatMap (44 :: 32 :: ·)) := rfl
    refine ⟨w', hw', ?_⟩
    rw [hlist, along_append, along_comma hw houter, Option.bind_some, along_append,
      along_under halong, Option.bind_some, htail]

/-- The walk over the arguments between two brackets. -/
lemma exists_along_join (hc : isClosing c = true) {texts : List Bytes}
    (htexts : ∀ t ∈ texts, IsArgument t) :
    ∃ (inside : Bytes) (w' : Walk), prepared (Bytes.join ", " texts ++ [c]) = inside ++ [c] ∧
      (Walk.under {} [c]).along inside = some (w'.under [c]) ∧ w'.atRest = true := by
  cases texts with
  | nil =>
    exact ⟨[], {}, prepared_cons (by rintro rfl; cases hc) (by rintro rfl; cases hc) [], rfl, rfl⟩
  | cons t texts =>
    rw [List.forall_mem_cons] at htexts
    obtain ⟨first, hfirst, hrest, -⟩ := ink?_eq_some_iff.1 htexts.1
    obtain ⟨w', hw', htail⟩ :=
      Walk.along_arguments hrest (List.cons_ne_nil c []) (List.forall_mem_map.2 htexts.2)
    refine ⟨prepared t ++ (texts.map prepared).flatMap (44 :: 32 :: ·), w', ?_, ?_, hw'⟩
    · rw [join_comma, List.append_assoc, htexts.1.single.prepared_append,
        prepared_arguments hc htexts.2, List.append_assoc]
      rfl
    · rw [Walk.along_append, Walk.along_under hfirst, Option.bind_some, htail]

/-- Arguments in brackets behind an item make one item with it. -/
lemma endsPlain_bracketed {front : Bytes} (hfront : Single front) {bracket : UInt8}
    (hbracket : closing? bracket = some c) {texts : List Bytes}
    (htexts : ∀ t ∈ texts, IsArgument t) :
    EndsPlain (front ++ bracket :: (Bytes.join ", " texts ++ [c])) true := by
  obtain ⟨w, halong, hrest⟩ := single_iff.1 hfront
  obtain ⟨hawaited, lead, hmode, -, -⟩ := Walk.atRest_iff.1 hrest
  have hc : isClosing c = true := by
    unfold closing? at hbracket
    split at hbracket <;> cases hbracket <;> rfl
  have hopen : w.step bracket = some (Walk.under {} [c]) := by
    rw [Walk.step_open hbracket ⟨lead, hmode⟩, hawaited]
  obtain ⟨inside, w', hprepared, hinside, hw'⟩ := exists_along_join hc htexts
  rw [EndsPlain, hfront.prepared_append,
    prepared_cons (by rintro rfl; cases hbracket) (by rintro rfl; cases hbracket), hprepared,
    Walk.along_append, halong, Option.bind_some, Walk.along_cons, hopen, Option.bind_some,
    Walk.along_append, hinside, Option.bind_some, Walk.along_cons, Walk.step_close hw' hc]
  rfl

end

end UiCodegen.C
