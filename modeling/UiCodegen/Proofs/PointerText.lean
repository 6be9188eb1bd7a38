import UiCodegen.Document.Pointer
import UiCodegen.Proofs.Pieces

/-!
# Texts of pointers

The steps of a pointer are printed with `~` and `/` escaped, so that splitting the text at slashes
finds the steps.  The escapes are undone in two passes, first those of slashes and then those of
tildes.  The first pass leaves just the escapes of tildes (`replacePair_escape`), and no digit
behind a tilde is taken for another escape.
-/

namespace UiCodegen

namespace Bytes

variable {a b : UInt8}

lemma replacePair_cons_of_ne {x : UInt8} (h : x ≠ a) (new s : Bytes) :
    replacePair a b new (x :: s) = x :: replacePair a b new s := by
  cases s <;> simp [replacePair, h]

lemma replacePair_pair (new s : Bytes) :
    replacePair a b new (a :: b :: s) = new ++ replacePair a b new s := by
  simp [replacePair]

end Bytes

namespace Pointer

/-! ## Escapes -/

def unescape (s : Bytes) : Bytes := Bytes.replacePair 126 48 [126] (Bytes.replacePair 126 49 [47] s)

/-- The steps of the pointer with the text `s`. -/
def ofText (s : Bytes) : List Bytes := (Bytes.splitOn 47 s).tail.map unescape

lemma slash_notMem_escape (token : Bytes) : 47 ∉ escape token := by
  rw [escape, List.mem_flatMap]
  rintro ⟨b, -, hb⟩
  unfold escapeOctet at hb
  split_ifs at hb <;> simp_all

/-- Once the slashes are back, only the tildes are escaped. -/
lemma replacePair_escape (token : Bytes) :
    Bytes.replacePair 126 49 [47] (escape token) = Bytes.replaceByte 126 [126, 48] token := by
  induction token with
  | nil => rfl
  | cons b token ih =>
    rw [escape, List.flatMap_cons, ← escape, Bytes.replaceByte, List.flatMap_cons,
      ← Bytes.replaceByte, ← ih, escapeOctet]
    by_cases htilde : b = 126
    · have hzero : Bytes.replacePair 126 49 [47] (126 :: 48 :: escape token) =
          126 :: Bytes.replacePair 126 49 [47] (48 :: escape token) := rfl
      simp [htilde, hzero, Bytes.replacePair_cons_of_ne]
    · by_cases hslash : b = 47
      · simp [hslash, Bytes.replacePair_pair]
      · simp [htilde, hslash, Bytes.replacePair_cons_of_ne]

lemma unescape_escape (token : Bytes) : unescape (escape token) = token := by
  rw [unescape, replacePair_escape]
  induction token with
  | nil => rfl
  | cons b token ih =>
    rw [Bytes.replaceByte, List.flatMap_cons, ← Bytes.replaceByte]
    by_cases htilde : b = 126
    · simp [htilde, Bytes.replacePair_pair, ih]
    · simp [htilde, Bytes.replacePair_cons_of_ne, ih]

/-! ## Splitting -/

lemma splitOn_flatMap {front : Bytes} (h : 47 ∉ front) (tokens : List Bytes) :
    Bytes.splitOn 47 (front ++ tokens.flatMap fun token => 47 :: escape token) = front ::
    tokens.map escape := by
  induction tokens generalizing front with
  | nil => simpa using Bytes.splitOn_of_notMem h
  | cons token tokens ih =>
    rw [List.flatMap_cons, List.cons_append, Bytes.splitOn_append, Bytes.splitOn_of_notMem h,
      ih (slash_notMem_escape token)]
    rfl

lemma ofText_text (p : Pointer) : ofText p.text = p.tokens := by
  have hsplit := splitOn_flatMap List.not_mem_nil p.tokens
  rw [List.nil_append] at hsplit
  rw [ofText, text, hsplit, List.tail_cons, List.map_map]
  simp [Function.comp_def, unescape_escape]

/-! ## Pointers that are made -/

/-- A step down: to a member of an object or to an element of an array. -/
inductive Step where
  | key (key : Bytes)
  | index (i : Int)

def Step.token : Step → Bytes
  | .key k => k
  | .index i => Bytes.ofInt i

def extend (p : Pointer) : Step → Pointer
  | .key k => p.key k
  | .index i => p.index i

def descend (steps : List Step) : Pointer := steps.foldl extend root

/-- The pointers that there are after some were made, the root and then the new ones in order: each
is a step from the pointer at a place, or from the root if there is none. -/
def made (moves : List (Nat × Step)) : List Pointer :=
  moves.foldl (fun ps move => ps ++ [(ps.getD move.1 root).extend move.2]) [root]

lemma tokens_extend (p : Pointer) (s : Step) : (p.extend s).tokens = p.tokens ++ [s.token] := by
  cases s <;> simp [extend, key, index, tokens, Step.token]

lemma tokens_descend (steps : List Step) : (descend steps).tokens = steps.map Step.token := by
  induction steps using List.reverseRecOn with
  | nil => rfl
  | append_singleton steps s ih =>
    rw [descend, List.foldl_append, List.map_append, ← ih]
    exact tokens_extend _ s

lemma made_append_singleton (moves : List (Nat × Step)) (move : Nat × Step) :
    made (moves ++ [move]) = made moves ++ [((made moves).getD move.1 root).extend move.2] := by
  rw [made, List.foldl_append]
  rfl

lemma prefix_made (moves more : List (Nat × Step)) : made moves <+: made (moves ++ more) := by
  induction more using List.reverseRecOn with
  | nil => rw [List.append_nil]
  | append_singleton more move ih =>
    rw [← List.append_assoc, made_append_singleton]
    exact ih.trans (List.prefix_append _ _)

/-- **Texts of pointers are unambiguous.**  Pointers have the same text just if they have the same
steps, which the text gives back when it is split at slashes and the escapes are undone.  Whatever
is made of them later, all pointers that were made are as they were, also the one of a step and the
one that it was a step from. -/
theorem texts_unambiguous :
    (∀ a b, (descend a).text = (descend b).text ↔ (descend a).tokens = (descend b).tokens) ∧
    (∀ steps, (descend steps).tokens = steps.map Step.token ∧ ofText (descend steps).text =
      steps.map Step.token) ∧
    ∀ moves i s more,
      let p := (made moves).getD i root
      made moves ++ [p.extend s] <+: made (moves ++ (i, s) :: more) ∧ (p.extend s).tokens =
        p.tokens ++ [s.token] := by
  refine ⟨fun a b => ⟨fun h => ?_, fun h => by rw [text, h, text]⟩, fun steps =>
    ⟨tokens_descend steps, ?_⟩,
    fun moves i s more => ⟨?_, tokens_extend _ s⟩⟩
  · rw [← ofText_text, h, ofText_text]
  · rw [ofText_text, tokens_descend]
  · have hnew := prefix_made (moves ++ [(i, s)]) more
    rwa [made_append_singleton, List.append_assoc, List.singleton_append] at hnew

example :
    (descend [.key "children", .index 2, .key "a/b~c"]).text =
    "/children/2/a~1b~0c" := by decide +kernel

end Pointer

end UiCodegen
