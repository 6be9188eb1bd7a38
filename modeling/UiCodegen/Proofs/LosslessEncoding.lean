import UiCodegen.Proofs.JsonRoundTrip

/-!
# What encoding keeps

A document that was read is written and read again as it was, unless it is too deep: then it is not
written at all. Too deep is a document that holds an object in which more containers stand inside
each other than the limit allows; the arrays around the object do not count.
-/

namespace UiCodegen.Document.Json

variable {v : Value} {items : List Value}

/-! ## Containers inside each other -/

/-- So many containers stand inside each other, the first of which is the value. -/
inductive Nested : Nat → Value → Prop
  | arr (items : List Value) : Nested 1 (.arr items)
  | obj (pairs : Fields) : Nested 1 (.obj pairs)
  | item {n : Nat} {v : Value} {items : List Value} (hv : v ∈ items) (h : Nested n v) :
      Nested (n + 1) (.arr items)
  | field {n : Nat} {pair : Bytes × Value} {pairs : Fields} (hpair : pair ∈ pairs)
      (h : Nested n pair.2) : Nested (n + 1) (.obj pairs)

/-- A value is another one or stands somewhere in it. -/
inductive Within (v : Value) : Value → Prop
  | refl : Within v v
  | item {w : Value} {items : List Value} (hw : w ∈ items) (h : Within v w) : Within v (.arr items)
  | field {pair : Bytes × Value} {pairs : Fields} (hpair : pair ∈ pairs) (h : Within v pair.2) :
      Within v (.obj pairs)

/-- An object in the value has more containers inside each other than the limit allows. -/
def TooDeep (v : Value) :
    Prop := ∃ pairs, Within (.obj pairs) v ∧ Nested (nestingLimit + 1) (.obj pairs)

lemma nesting_le_nestingItems (h : v ∈ items) : nesting v ≤ nestingItems items := by
  induction items with
  | nil => cases h
  | cons w rest ih =>
    rw [nestingItems]
    obtain rfl | h := List.mem_cons.1 h
    · exact le_max_left _ _
    · exact (ih h).trans (le_max_right _ _)

lemma nesting_le_nestingFields {pair : Bytes × Value} {pairs : Fields} (h : pair ∈ pairs) :
    nesting pair.2 ≤ nestingFields pairs := by
  induction pairs with
  | nil => cases h
  | cons first rest ih =>
    rw [nestingFields]
    obtain rfl | h := List.mem_cons.1 h
    · exact le_max_left _ _
    · exact (ih h).trans (le_max_right _ _)

lemma exists_of_le_nestingItems {n : Nat} (hn : 0 < n) (h : n ≤ nestingItems items) :
    ∃ v ∈ items, n ≤ nesting v := by
  induction items with
  | nil => exact absurd h (by simp [nestingItems]; omega)
  | cons v rest ih =>
    rw [nestingItems] at h
    obtain h | h := le_max_iff.1 h
    · exact ⟨v, by simp, h⟩
    · obtain ⟨w, hw, hle⟩ := ih h
      exact ⟨w, by simp [hw], hle⟩

lemma exists_of_le_nestingFields {n : Nat} (hn : 0 < n) {pairs : Fields}
    (h : n ≤ nestingFields pairs) : ∃ pair ∈ pairs, n ≤ nesting pair.2 := by
  induction pairs with
  | nil => exact absurd h (by simp [nestingFields]; omega)
  | cons pair rest ih =>
    rw [nestingFields] at h
    obtain h | h := le_max_iff.1 h
    · exact ⟨pair, by simp, h⟩
    · obtain ⟨other, hother, hle⟩ := ih h
      exact ⟨other, by simp [hother], hle⟩

/-- The nesting of a value is the greatest number of containers inside each other. -/
lemma nested_succ_iff {n : Nat} : Nested (n + 1) v ↔ n < nesting v := by
  constructor
  · intro h
    generalize hk : n + 1 = k at h
    induction h generalizing n with
    | arr | obj => simp [nesting]; omega
    | @item m v items hv _ ih =>
      have hle := nesting_le_nestingItems hv
      rw [nesting]
      cases m with
      | zero => omega
      | succ m =>
        have := ih rfl
        omega
    | @field m pair pairs hpair _ ih =>
      have hle := nesting_le_nestingFields hpair
      rw [nesting]
      cases m with
      | zero => omega
      | succ m =>
        have := ih rfl
        omega
  · intro h
    induction n generalizing v with
    | zero =>
      cases v with
      | arr items => exact .arr items
      | obj pairs => exact .obj pairs
      | _ => simp [nesting] at h
    | succ n ih =>
      cases v with
      | arr items =>
        obtain ⟨v, hv, hle⟩ := exists_of_le_nestingItems (Nat.succ_pos n) (Nat.lt_succ_iff.1 h)
        exact .item hv (ih hle)
      | obj pairs =>
        obtain ⟨pair, hpair, hle⟩ :=
          exists_of_le_nestingFields (Nat.succ_pos n) (Nat.lt_succ_iff.1 h)
        exact .field hpair (ih hle)
      | _ => simp [nesting] at h

lemma areShallow_eq_true_iff : areShallow items = true ↔ ∀ v ∈ items, isShallow v = true := by
  induction items with
  | nil => simp [areShallow]
  | cons v rest ih => simp [areShallow, ih]

lemma Within.nesting_le {w : Value} (h : Within v w) : nesting v ≤ nesting w := by
  induction h with
  | refl => exact le_rfl
  | item hw _ ih => exact ih.trans ((nesting_le_nestingItems hw).trans (by simp [nesting]))
  | field hpair _ ih => exact ih.trans ((nesting_le_nestingFields hpair).trans (by simp [nesting]))

lemma isShallow_eq_true_iff : isShallow v = true ↔ ¬ TooDeep v := by
  have hobj : ∀ pairs : Fields, isShallow (.obj pairs) = true ↔ ¬ Nested (nestingLimit + 1)
      (.obj pairs) := by
    intro pairs
    rw [nested_succ_iff, isShallow, decide_eq_true_eq, Nat.not_lt]
  constructor
  · rintro h ⟨pairs, hwithin, hnested⟩
    induction hwithin with
    | refl => exact (hobj pairs).1 h hnested
    | item hw _ ih =>
      rw [isShallow] at h
      exact ih (areShallow_eq_true_iff.1 h _ hw)
    | field hpair hwithin =>
      refine (hobj _).1 h (nested_succ_iff.2 ?_)
      exact (nested_succ_iff.1 hnested).trans_le (Within.field hpair hwithin).nesting_le
  · intro h
    -- The recursion is the one of the check: into arrays, up to the first object.
    induction hsize : sizeOf v using Nat.strong_induction_on generalizing v with
    | _ size ih =>
      subst hsize
      cases v with
      | obj pairs => exact (hobj pairs).2 fun hnested => h ⟨pairs, .refl, hnested⟩
      | arr items =>
        rw [isShallow]
        refine areShallow_eq_true_iff.2 fun w hw =>
          ih _ ?_ (fun ⟨pairs, hwithin, hnested⟩ => ?_) rfl
        · have := List.sizeOf_lt_of_mem hw
          simp only [Value.arr.sizeOf_spec]
          omega
        · exact h ⟨pairs, .item hw hwithin, hnested⟩
      | _ => rfl

/-! ## Documents that survive -/

lemma Proper.encode?_eq_none_iff (hv : Proper v) : encode? v = none ↔ TooDeep v := by
  obtain ⟨text, htext⟩ := hv.exists_encodeBefore? []
  rw [← not_iff_not, ← isShallow_eq_true_iff, encode?, htext]
  simp

lemma encodeBefore?_of_encode? {text : Bytes} (h : encode? v = some text) :
    encodeBefore? v [] = some text := by
  rw [encode?] at h
  split at h
  · exact h
  · cases h

/-- **What encoding keeps.**  A document that was read has no encoding if and only if it is too
deep; otherwise the document is read from its encoding as it is, with every pair in its place and
every number as its literal. -/
theorem decoded_document_lossless_iff {s : Bytes} {v : Value} (h : decode s = .ok v) :
    (encode? v = none ↔ TooDeep v) ∧ ∀ text, encode? v = some text → decode text = .ok v := by
  have hv := proper_of_decode h
  exact ⟨hv.encode?_eq_none_iff, fun text htext => decode_of_encodeBefore? hv
    (encodeBefore?_of_encode? htext)⟩

/-- A document with white space, a key twice, an escape of two characters and a number that is kept
as it is. -/
def mixedText : Bytes := "\x7b\"a\": [1.50e+2, \"\\ud83d\\ude00?\"],\"a\":null \x7d"

def mixedDocument : Value :=
  .obj [("a", .arr [.num "1.50e+2", .str "😀?"]), ("a", .null)]

set_option maxRecDepth 100000 in
theorem mixedDocument_lossless :
    decode mixedText = .ok mixedDocument ∧
      ∃ text, encode? mixedDocument = some text ∧ decode text = .ok mixedDocument := by
  have hdecode : decode mixedText = .ok mixedDocument := by
    cbv
  have hencode : encode? mixedDocument = some "\x7b\"a\":[1.50e+2,\"😀?\"],\"a\":null\x7d" := by
    cbv
  exact ⟨hdecode, _, hencode, (decoded_document_lossless_iff hdecode).2 _ hencode⟩

/-! ## A document that is too deep -/

/-- So many arrays inside each other, with nothing but a null inside them. -/
def nestedArrays : Nat → Value
  | 0 => .null
  | n + 1 => .arr [nestedArrays n]

/-- A document that defines a component and does not use it. -/
def component (node : Fields) : Value :=
  .obj [("type", .str "component"), ("id", .str "@c"), ("root", .obj node)]

/-- A component with so many arrays inside each other in its node. -/
def deepComponent (n : Nat) : Value := component [("x", nestedArrays n)]

/-- The text of the arrays in front of `behind`. -/
def arraysBefore (n : Nat) (behind : Bytes) : Bytes :=
  List.replicate n 91 ++ (Bytes.ofString "null" ++ (List.replicate n 93 ++ behind))

def deepText (n : Nat) : Bytes :=
  "\x7b\"type\":\"component\",\"id\":\"@c\",\"root\":\x7b\"x\":" ++
    arraysBefore n [125, 125]

lemma nesting_nestedArrays (n : Nat) : nesting (nestedArrays n) = n := by
  induction n with
  | zero => rfl
  | succ n ih => simp [nestedArrays, nesting, nestingItems, ih]

lemma proper_nestedArrays (n : Nat) : Proper (nestedArrays n) := by
  induction n with
  | zero => exact .null
  | succ n ih => exact .arr (by simpa using ih)

lemma encodeBefore?_nestedArrays (n : Nat) (behind : Bytes) :
    encodeBefore? (nestedArrays n) behind = some (arraysBefore n behind) := by
  induction n generalizing behind with
  | zero => rfl
  | succ n ih =>
    have hclosed : List.replicate n 93 ++ 93 :: behind = List.replicate (n + 1) 93 ++ behind := by
      simp [List.replicate_succ']
    have harrays : 91 :: arraysBefore n (93 :: behind) = arraysBefore (n + 1) behind := by
      simp only [arraysBefore, hclosed, List.replicate_succ, List.cons_append]
    simp only [nestedArrays, encodeBefore?, encodeItems?, ih, Option.bind_eq_bind, Option.bind_some,
      Option.pure_def, if_true, Option.map_some, harrays]

lemma encodeBefore?_deepComponent (n : Nat) :
    encodeBefore? (deepComponent n) [] = some (deepText n) := by
  simp only [deepComponent, component, encodeBefore?, encodeFields?, encodeBefore?_nestedArrays,
    Option.bind_eq_bind, Option.bind_some, Option.pure_def, if_true, Option.map_some]
  rfl

lemma tooDeep_deepComponent {n : Nat} (h : nestingLimit ≤ n) : TooDeep (deepComponent n) := by
  -- The node is the third of the pairs.
  refine ⟨[("x", nestedArrays n)], .field (.tail _ (.tail _ (.head _))) .refl, nested_succ_iff.2 ?_⟩
  simp only [nesting, nestingFields, nesting_nestedArrays]
  omega

lemma proper_deepComponent (n : Nat) : Proper (deepComponent n) := by
  have hascii : ∀ text ∈ (["type", "component", "id", "@c", "root", "x"] : List Bytes), ∀ b ∈ text,
      b < 0x80 := by
    decide +kernel
  have htext : ∀ text ∈ (["type", "component", "id", "@c", "root", "x"] : List Bytes),
      Utf8.IsText text :=
    fun text h => Utf8.isText_of_ascii (hascii text h)
  simp only [List.forall_mem_cons] at htext
  obtain ⟨htype, hcomponent, hid, hname, hroot, hx, -⟩ := htext
  have hnode : Proper (.obj [("x", nestedArrays n)]) :=
    .obj (by simpa using hx) (by simpa using proper_nestedArrays n)
  refine .obj ?_ ?_
  · simpa using ⟨htype, hid, hroot⟩
  · simpa using ⟨Proper.str hcomponent, Proper.str hname, hnode⟩

lemma decode_deepText (n : Nat) : decode (deepText n) = .ok (deepComponent n) :=
  decode_of_encodeBefore? (proper_deepComponent n) (encodeBefore?_deepComponent n)

lemma encode?_deepComponent {n : Nat} (h : nestingLimit ≤ n) : encode? (deepComponent n) = none :=
  (proper_deepComponent n).encode?_eq_none_iff.2 (tooDeep_deepComponent h)

/-- One container more than the limit allows, and a document that can be read cannot be written. -/
theorem deepComponent_not_encodable :
    decode (deepText nestingLimit) = .ok (deepComponent nestingLimit) ∧ encode?
    (deepComponent nestingLimit) = none :=
  ⟨decode_deepText _, encode?_deepComponent le_rfl⟩

end UiCodegen.Document.Json
