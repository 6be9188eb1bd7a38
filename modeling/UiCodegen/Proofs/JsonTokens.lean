import UiCodegen.Document.Json.Decode
import UiCodegen.Proofs.JsonStrings

/-!
# Tokens of a JSON document

What the tokens of numbers and words are, and where a reader stands after it has read one.  A number
ends in front of whatever no number goes on with (`scanNumber_front`), so a literal is read whole in
front of a separator, a closing bracket or the end (`scanScalar_of_isNumber`), and what is read as a
number is a literal (`isNumber_of_scanNumberToken`).
-/

namespace UiCodegen.Document.Json

variable {c : UInt8} {state : NumberState}

/-! ## Numbers and words -/

def EndsNumber (behind : Bytes) :
    Prop := ∀ c ∈ behind.head?, ∀ state : NumberState, state.step? c = none

lemma endsNumber_nil : EndsNumber [] := by
  simp [EndsNumber]

lemma endsNumber_cons (h : c ∈ [44, 93, 125]) (rest : Bytes) : EndsNumber (c :: rest) := by
  rintro _ ⟨⟩ state
  simp only [List.mem_cons, List.not_mem_nil, or_false] at h
  obtain rfl | rfl | rfl := h
  all_goals cases state <;> rfl

lemma scanNumber_stop (hcomplete : state.complete = true) (n : Nat) {behind : Bytes}
    (h : EndsNumber behind) : scanNumber state n behind = .ok (n, behind) := by
  cases behind with
  | nil => simp [scanNumber, hcomplete]
  | cons c rest => simp [scanNumber, h c rfl state, hcomplete]

/-- A number consists of the octets that it goes on with, whatever follows them. -/
lemma scanNumber_front {n m : Nat} {s after : Bytes} (h : scanNumber state n s = .ok (m, after)) :
    ∃ front, s = front ++ after ∧ m = n + front.length ∧
      ∀ k behind, EndsNumber behind → scanNumber state k (front ++ behind) = .ok
      (k + front.length, behind) := by
  fun_induction scanNumber state n s with
  | case1 state n hcomplete =>
    cases h
    exact ⟨[], rfl, rfl, fun k _ => scanNumber_stop hcomplete k⟩
  | case2 => cases h
  | case3 state n c rest next hnext ih =>
    obtain ⟨front, rfl, rfl, hfront⟩ := ih h
    refine ⟨c :: front, rfl, by simp only [List.length_cons]; omega, fun k behind hbehind => ?_⟩
    simp only [List.cons_append, scanNumber, hnext, hfront (k + 1) behind hbehind, List.length_cons]
    congr 2
    omega
  | case4 state n c rest hnone hcomplete =>
    cases h
    exact ⟨[], rfl, rfl, fun k _ => scanNumber_stop hcomplete k⟩
  | case5 => cases h

def numberStart? (c : UInt8) : Option NumberState :=
  if c == 45 then some .minus
  else if c == 48 then some .zero
  else if Bytes.isDigit c then some .integer
  else none

lemma isNumber_cons {rest : Bytes} :
    isNumber (c :: rest) = true ↔ ∃ state n, numberStart? c = some state ∧ scanNumber state 1 rest =
    .ok (n, []) := by
  dsimp only [isNumber]
  rw [← numberStart?]
  cases numberStart? c with
  | none => simp
  | some state =>
    dsimp only
    split
    · rename_i heq
      simp [heq]
    · rename_i hne
      simp only [Bool.false_eq_true, Option.some.injEq, exists_and_left, exists_eq_left',
        false_iff, not_exists]
      exact fun n heq => hne n heq

lemma scanScalar_number (h : numberStart? c = some state) (rest : Bytes) :
    scanScalar c rest = scanNumberToken c rest state := by
  unfold numberStart? at h
  unfold scanScalar
  split_ifs at h with h1 h2 h3
  · cases h
    rw [if_neg (by simp_all), if_pos h1]
  · cases h
    rw [if_neg (by simp_all), if_neg h1, if_pos h2]
  · cases h
    have hquote : c ≠ 34 := by
      rintro rfl
      exact absurd h3 (by decide)
    rw [if_neg (by simpa using hquote), if_neg h1, if_neg h2, if_pos h3]

/-- A literal is read whole in front of whatever no number goes on with. -/
lemma scanScalar_of_isNumber {literal : Bytes} (h : isNumber literal = true) :
    ∃ c rest, literal = c :: rest ∧ ∀ {behind : Bytes}, EndsNumber behind →
      scanScalar c (rest ++ behind) = .ok (.num literal, literal.length, behind) := by
  cases literal with
  | nil => cases h
  | cons c rest =>
    obtain ⟨state, n, hstart, hscan⟩ := isNumber_cons.1 h
    obtain ⟨front, rfl, -, hfront⟩ := scanNumber_front hscan
    refine ⟨c, _, rfl, fun {behind} hbehind => ?_⟩
    rw [List.append_nil, scanScalar_number hstart, scanNumberToken, hfront 1 behind hbehind]
    simp [Except.map, Nat.add_comm 1]

lemma isNumber_of_scanNumberToken {rest : Bytes}
    (hstart : numberStart? c = some state) {p : Token × Nat × Bytes}
    (h : scanNumberToken c rest state = .ok p) :
    ∃ literal, c :: rest = literal ++ p.2.2 ∧ p.1 = .num literal ∧ isNumber literal = true := by
  unfold scanNumberToken at h
  cases hscan : scanNumber state 1 rest with
  | error e =>
    rw [hscan] at h
    cases h
  | ok q =>
    obtain ⟨front, rfl, hlength, hfront⟩ := scanNumber_front hscan
    rw [hscan] at h
    cases h
    have hliteral : (c :: (front ++ q.2)).take q.1 = c :: front := by
      rw [hlength, Nat.add_comm, List.take_succ_cons, List.take_left]
    have hwhole := hfront 1 [] endsNumber_nil
    rw [List.append_nil] at hwhole
    exact ⟨c :: front, rfl, congrArg Token.num hliteral, isNumber_cons.2 ⟨state, _, hstart, hwhole⟩⟩

/-! ## Where a reader stands -/

def StartsValue (c : UInt8) : Prop := isSpace c = false ∧ c ∉ [44, 58, 93, 125]

namespace Reader

/-- A reader stands in front of a text, at a place inside others. -/
structure Stands (r : Reader) (text : Bytes) (place : Place) (outer : List Place) : Prop where
  rest : r.rest = text
  place : r.place = place
  outer : r.outer = outer

variable {r : Reader} {c : UInt8} {rest after : Bytes} {place p : Place} {outer : List Place}

lemma Stands.skipSpace (h : r.Stands (c :: rest) place outer) (hc : isSpace c = false) :
    r.skipSpace = r := by
  have hdrop : r.rest.dropWhile isSpace = r.rest := by simp [h.rest, hc]
  have htake : r.rest.takeWhile isSpace = [] := by simp [h.rest, hc]
  unfold Reader.skipSpace
  rw [hdrop, htake, h.rest]
  simp [← h.rest]

/-- Nothing is skipped in front of what is no separator. -/
lemma Stands.skipSeparator (h : r.Stands (c :: rest) place outer) (hc : isSpace c = false)
    (hcolon : c ≠ 58) (hcomma : c ≠ 44) : r.skipSeparator = r := by
  unfold Reader.skipSeparator
  simp only [h.skipSpace hc, h.rest]
  split
  · rename_i heq
    cases heq
    exact absurd rfl hcolon
  · rename_i heq
    cases heq
    exact absurd rfl hcomma
  · rfl

lemma Stands.skipComma (h : r.Stands (44 :: rest) place outer) :
    (place = .arrayComma → r.skipSeparator.Stands rest .arrayValue outer) ∧
      (place = .objectComma → r.skipSeparator.Stands rest .objectKey outer) := by
  unfold Reader.skipSeparator
  simp only [h.skipSpace rfl, h.rest, h.place]
  constructor
  · rintro rfl
    exact ⟨rfl, rfl, h.outer⟩
  · rintro rfl
    exact ⟨rfl, rfl, h.outer⟩

lemma Stands.skipColon (h : r.Stands (58 :: rest) .objectColon outer) :
    r.skipSeparator.Stands rest .objectValue outer := by
  unfold Reader.skipSeparator
  simp only [h.skipSpace rfl, h.rest, h.place]
  exact ⟨rfl, rfl, h.outer⟩

/-! ### Tokens -/

lemma Stands.openArray (h : r.Stands (91 :: rest) place outer) (hplace : place.allowsValue = true) :
    ∃ r', r.token = .ok (.openArray, r') ∧ r'.Stands rest .arrayStart (place :: outer) := by
  refine ⟨r.enter rest .arrayStart, ?_, rfl, rfl, congrArg₂ List.cons h.place h.outer⟩
  simp [Reader.token, h.skipSpace rfl, h.rest, h.place, hplace, isSpace]

lemma Stands.openObject (h : r.Stands (123 :: rest) place outer)
    (hplace : place.allowsValue = true) :
    ∃ r', r.token = .ok (.openObject, r') ∧ r'.Stands rest .objectStart (place :: outer) := by
  refine ⟨r.enter rest .objectStart, ?_, rfl, rfl, congrArg₂ List.cons h.place h.outer⟩
  simp [Reader.token, h.skipSpace rfl, h.rest, h.place, hplace, isSpace]

lemma Stands.leave (h : r.Stands (c :: rest) place (p :: outer)) :
    (r.leave rest).Stands rest p.afterValue outer := by
  unfold Reader.leave
  rw [h.outer]
  exact ⟨rfl, rfl, rfl⟩

lemma Stands.closeArray (h : r.Stands (93 :: rest) place (p :: outer))
    (hplace : place = .arrayStart ∨ place = .arrayComma) :
    ∃ r', r.next = .ok (.closeArray, r') ∧ r'.Stands rest p.afterValue outer := by
  refine ⟨r.leave rest, ?_, h.leave⟩
  rw [Reader.next, h.skipSeparator rfl (by decide) (by decide)]
  simp [Reader.token, h.skipSpace rfl, h.rest, h.place, hplace, isSpace]

lemma Stands.closeObject (h : r.Stands (125 :: rest) place (p :: outer))
    (hplace : place = .objectStart ∨ place = .objectComma) :
    ∃ r', r.next = .ok (.closeObject, r') ∧ r'.Stands rest p.afterValue outer := by
  refine ⟨r.leave rest, ?_, h.leave⟩
  rw [Reader.next, h.skipSeparator rfl (by decide) (by decide)]
  simp [Reader.token, h.skipSpace rfl, h.rest, h.place, hplace, isSpace]

lemma startsValue_of_scanScalar {t : Token × Nat × Bytes} (h : scanScalar c rest = .ok t) :
    StartsValue c ∧ c ∉ [91, 123] := by
  have hstart : ∀ x ∈ [9, 10, 13, 32, 44, 58, 91, 93, 123, 125], c ≠ x := by
    rintro x hx rfl
    revert h
    simp only [List.mem_cons, List.not_mem_nil, or_false] at hx
    rcases hx with rfl | rfl | rfl | rfl | rfl | rfl | rfl | rfl | rfl | rfl
    all_goals simp [scanScalar, Bytes.isDigit]
  simp only [List.forall_mem_cons] at hstart
  simp [StartsValue, isSpace, hstart]

lemma Stands.scalar {t : Token} {n : Nat} (h : r.Stands (c :: rest) place outer)
    (hplace : place.allowsValue = true) (hscan : scanScalar c rest = .ok (t, n, after)) :
    ∃ r', r.token = .ok (t, r') ∧ r'.Stands after place.afterValue outer := by
  obtain ⟨⟨hspace, hclosing⟩, hopening⟩ := startsValue_of_scanScalar hscan
  simp only [List.mem_cons, List.not_mem_nil, or_false, not_or] at hclosing hopening
  have hkey : (place == .objectStart || place == .objectKey) = false := by
    cases place <;> simp_all [Place.allowsValue]
  refine ⟨r.pass n after place.afterValue, ?_, rfl, rfl, h.outer⟩
  simp only [Reader.token, h.skipSpace hspace, h.rest, h.place, hspace, hclosing, hopening, hkey,
    hplace, Bool.or_eq_true, or_self, beq_iff_eq, Bool.and_false, Bool.false_eq_true, if_false,
    if_true, Reader.scalar, hscan]

lemma Stands.key {t : Token} {n : Nat} (h : r.Stands (34 :: rest) place outer)
    (hplace : place = .objectStart ∨ place = .objectKey)
    (hscan : scanStringToken rest = .ok (t, n, after)) :
    ∃ r', r.token = .ok (t, r') ∧ r'.Stands after .objectColon outer := by
  refine ⟨r.pass n after .objectColon, ?_, rfl, rfl, h.outer⟩
  have hscan : scanScalar 34 rest = .ok (t, n, after) := hscan
  simp [Reader.token, h.skipSpace rfl, h.rest, h.place, isSpace, hplace, Reader.scalar, hscan]

end Reader

end UiCodegen.Document.Json
