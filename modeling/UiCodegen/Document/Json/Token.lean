import UiCodegen.Document.Fault

/-!
# Tokens of a JSON document

A reader stands between two tokens of the input and knows which tokens may come next: its place in
the innermost open container, and the places to return to.  Reading a token skips white space and at
most one separator, and consumes at least one octet (`Reader.next_shrinks`), which is what lets the
tree be read without a bound on its depth.

The reader also keeps the offset of what it has consumed.  White space in front of an octet counts
as consumed, white space in front of the end of the input does not.
-/

namespace UiCodegen.Document.Json

/-- A token.  Separators are not tokens: they only move the reader to another place. -/
inductive Token where
  | openArray
  | closeArray
  | openObject
  | closeObject
  | str (text : Bytes)
  | num (literal : Bytes)
  | bool (b : Bool)
  | null
  deriving DecidableEq, Repr

/-- Where the reader stands. -/
inductive Place where
  /-- Outside all containers. -/
  | top
  /-- Behind `[`. -/
  | arrayStart
  /-- Behind the `,` of an array. -/
  | arrayValue
  | arrayComma
  | objectStart
  /-- Behind the `,` of an object. -/
  | objectKey
  | objectColon
  /-- Behind the `:` of a pair. -/
  | objectValue
  | objectComma
  deriving DecidableEq, Repr

def Place.allowsValue : Place → Bool
  | .top | .arrayStart | .arrayValue | .objectValue => true
  | _ => false

def Place.afterValue : Place → Place
  | .arrayStart | .arrayValue => .arrayComma
  | .objectValue => .objectComma
  | place => place

def Place.expectation : Place → Bytes
  | .top | .arrayStart | .arrayValue | .objectValue => " looking for beginning of value"
  | .arrayComma => " after array element"
  | .objectKey => " looking for beginning of object key string"
  | .objectColon => " after object key"
  | .objectComma => " after object key:value pair"
  | .objectStart => []

/-! ## Scalars -/

/-- Why a scalar cannot be read. -/
inductive ScanFault where
  | ended
  /-- An octet that cannot stand there; `position` counts from the start of the scalar. -/
  | bad (octet : UInt8) (context : Bytes) (position : Nat)
  deriving DecidableEq, Repr

/-- How far a number has been read. -/
inductive NumberState where
  | minus | zero | integer | point | fraction | exponent | exponentSign | exponentDigits
  deriving DecidableEq, Repr

def NumberState.complete : NumberState → Bool
  | .zero | .integer | .fraction | .exponentDigits => true
  | _ => false

/-- What is being read, for messages. -/
def NumberState.context : NumberState → Bytes
  | .point => " after decimal point in numeric literal"
  | .exponent | .exponentSign => " in exponent of numeric literal"
  | _ => " in numeric literal"

/-- The state after one more octet, if the number goes on with it. -/
def NumberState.step? (state : NumberState) (c : UInt8) : Option NumberState :=
  match state with
  | .minus => if c == 48 then some .zero else if Bytes.isDigit c then some .integer else none
  | .zero => if c == 46 then some .point else if Bytes.lowerByte c == 101 then some .exponent
      else none
  | .integer =>
    if Bytes.isDigit c then some .integer
    else if c == 46 then some .point
    else if Bytes.lowerByte c == 101 then some .exponent
    else none
  | .point => if Bytes.isDigit c then some .fraction else none
  | .fraction =>
    if Bytes.isDigit c then some .fraction
    else if Bytes.lowerByte c == 101 then some .exponent
    else none
  | .exponent =>
    if c == 43 || c == 45 then some .exponentSign
    else if Bytes.isDigit c then some .exponentDigits
    else none
  | .exponentSign => if Bytes.isDigit c then some .exponentDigits else none
  | .exponentDigits => if Bytes.isDigit c then some .exponentDigits else none

/-- Reads on in a number of which `n` octets have been read; yields its length and what follows. -/
def scanNumber (state : NumberState) (n : Nat) : Bytes → Except ScanFault (Nat × Bytes)
  | [] => if state.complete then .ok (n, []) else .error .ended
  | c :: rest =>
    match state.step? c with
    | some state' => scanNumber state' (n + 1) rest
    | none => if state.complete then .ok (n, c :: rest) else .error (.bad c state.context (n + 1))

/-- Reads the expected octets of a fixed word of which `n` octets have been read. -/
def scanWord (word : Bytes) (n : Nat) : (expected : Bytes) → Bytes → Except ScanFault (Nat × Bytes)
  | [], s => .ok (n, s)
  | _ :: _, [] => .error .ended
  | e :: es, c :: rest =>
    if c == e then scanWord word (n + 1) es rest
    else .error (.bad c (" in literal " ++ word ++ " (expecting " ++ Quoted.quoteOctet e ++ ")")
      (n + 1))

/-- How far a string has been read. -/
inductive StringState where
  | plain
  | escape
  /-- Inside a hexadecimal escape with this many digits to come. -/
  | hex (missing : Nat)
  deriving DecidableEq, Repr

def isHexDigit (c : UInt8) : Bool :=
  Bytes.isDigit c || (97 ≤ Bytes.lowerByte c && Bytes.lowerByte c ≤ 102)

/-- Reads on in a string of which `n` octets have been read, up to its closing quote; yields its
length and what follows. -/
def scanString (state : StringState) (n : Nat) : Bytes → Except ScanFault (Nat × Bytes)
  | [] => .error .ended
  | c :: rest =>
    match state with
    | .plain =>
      if c == 34 then .ok (n + 1, rest)
      else if c == 92 then scanString .escape (n + 1) rest
      else if c < 0x20 then .error (.bad c " in string literal" (n + 1))
      else scanString .plain (n + 1) rest
    | .escape =>
      if c == 117 then scanString (.hex 4) (n + 1) rest
      else if c == 34 || c == 92 || c == 47 || c == 98 || c == 102 || c == 110 || c == 114 ||
          c == 116 then scanString .plain (n + 1) rest
      else .error (.bad c " in string escape code" (n + 1))
    | .hex missing =>
      if isHexDigit c then
        scanString (if missing ≤ 1 then .plain else .hex (missing - 1)) (n + 1) rest
      else .error (.bad c " in \\u hexadecimal character escape" (n + 1))

theorem scanNumber_length {state : NumberState} {n : Nat} {s : Bytes} {p : Nat × Bytes}
    (h : scanNumber state n s = .ok p) : p.2.length ≤ s.length := by
  fun_induction scanNumber state n s with
  | case1 => simp_all; subst h; simp
  | case2 => simp_all
  | case3 n state c rest state' hs ih => have := ih h; simp only [List.length_cons]; omega
  | case4 => simp_all; subst h; simp
  | case5 => simp_all

theorem scanWord_length {word es s : Bytes} {n : Nat} {p : Nat × Bytes}
    (h : scanWord word n es s = .ok p) : p.2.length ≤ s.length := by
  fun_induction scanWord word n es s with
  | case1 => simp_all; subst h; simp
  | case2 => simp_all
  | case3 n e es c rest hc ih => have := ih h; simp only [List.length_cons]; omega
  | case4 => simp_all

theorem scanString_length {state : StringState} {n : Nat} {s : Bytes} {p : Nat × Bytes}
    (h : scanString state n s = .ok p) : p.2.length ≤ s.length := by
  induction s generalizing state n with
  | nil => simp [scanString] at h
  | cons c rest ih =>
    unfold scanString at h
    simp only [List.length_cons]
    split at h
    · split at h
      · simp only [Except.ok.injEq] at h; subst h; simp
      · split at h
        · have := ih h; omega
        · split at h
          · simp at h
          · have := ih h; omega
    · split at h
      · have := ih h; omega
      · split at h
        · have := ih h; omega
        · simp at h
    · split at h
      · have := ih h; omega
      · simp at h

/-! ## The text of a string -/

def hex4 (a b c d : UInt8) : Nat :=
  [a, b, c, d].foldl (fun n x => n * 16 + (Integer.digit? x).getD 0) 0

/-- Copies text onto `acc` (last octet first), undoing its escapes.  A pair of surrogate escapes is
one character, a surrogate on its own is U+FFFD. -/
def unescape (acc : Bytes) : Bytes → Bytes
  | [] => acc.reverse
  | 92 :: 117 :: a :: b :: c :: d :: 92 :: 117 :: e :: f :: g :: h :: rest =>
    let high := hex4 a b c d
    let low := hex4 e f g h
    if 0xD800 ≤ high && high ≤ 0xDBFF && 0xDC00 ≤ low && low ≤ 0xDFFF then
      let code := 0x10000 + (high - 0xD800) * 0x400 + (low - 0xDC00)
      unescape ((Utf8.encode code).reverse ++ acc) rest
    else
      unescape ((Utf8.encode high).reverse ++ acc) (92 :: 117 :: e :: f :: g :: h :: rest)
  | 92 :: 117 :: a :: b :: c :: d :: rest =>
    unescape ((Utf8.encode (hex4 a b c d)).reverse ++ acc) rest
  | 92 :: e :: rest =>
    let octet : UInt8 :=
      if e == 98 then 8
      else if e == 102 then 12
      else if e == 110 then 10
      else if e == 114 then 13
      else if e == 116 then 9
      else e
    unescape (octet :: acc) rest
  | c :: rest => unescape (c :: acc) rest

/-- The text between the quotes of a string, with U+FFFD for each octet that is part of no
character. -/
def stringText (inside : Bytes) : Bytes := unescape [] (Utf8.ofCodes (Utf8.codes inside))

/-! ## A scalar as a token -/

/-- The token of a number whose first octet `c` leads to `state`, its length, and what follows. -/
def scanNumberToken (c : UInt8) (rest : Bytes) (state : NumberState) :
    Except ScanFault (Token × Nat × Bytes) :=
  (scanNumber state 1 rest).map fun (n, after) => (.num ((c :: rest).take n), n, after)

/-- The token of a fixed word whose first octet has been read, its length, and what follows. -/
def scanWordToken (text : Bytes) (token : Token) (rest : Bytes) :
    Except ScanFault (Token × Nat × Bytes) :=
  (scanWord text 1 (text.drop 1) rest).map fun (n, after) => (token, n, after)

/-- The token of a string whose opening quote has been read, its length, and what follows. -/
def scanStringToken (rest : Bytes) : Except ScanFault (Token × Nat × Bytes) :=
  (scanString .plain 1 rest).map fun (n, after) => (.str (stringText (rest.take (n - 2))), n, after)

/-- The token of a scalar that begins with `c`, its length, and what follows. -/
def scanScalar (c : UInt8) (rest : Bytes) : Except ScanFault (Token × Nat × Bytes) :=
  if c == 34 then scanStringToken rest
  else if c == 45 then scanNumberToken c rest .minus
  else if c == 48 then scanNumberToken c rest .zero
  else if Bytes.isDigit c then scanNumberToken c rest .integer
  else if c == 116 then scanWordToken "true" (.bool true) rest
  else if c == 102 then scanWordToken "false" (.bool false) rest
  else if c == 110 then scanWordToken "null" .null rest
  else .error (.bad c " looking for beginning of value" 1)

theorem scanScalar_length {c : UInt8} {rest : Bytes} {p : Token × Nat × Bytes}
    (h : scanScalar c rest = .ok p) : p.2.2.length ≤ rest.length := by
  have mapped : ∀ {x : Except ScanFault (Nat × Bytes)} {f : Nat × Bytes → Token × Nat × Bytes},
      (∀ q, (f q).2.2 = q.2) → (∀ q, x = .ok q → q.2.length ≤ rest.length) →
      x.map f = .ok p → p.2.2.length ≤ rest.length := by
    intro x f hf hx hmap
    cases x with
    | error _ => simp [Except.map] at hmap
    | ok q =>
      simp only [Except.map, Except.ok.injEq] at hmap
      subst hmap
      rw [hf]
      exact hx q rfl
  have number : ∀ {state}, scanNumberToken c rest state = .ok p → p.2.2.length ≤ rest.length :=
    fun h => mapped (fun _ => rfl) (fun _ => scanNumber_length) h
  have word : ∀ {text tok}, scanWordToken text tok rest = .ok p → p.2.2.length ≤ rest.length :=
    fun h => mapped (fun _ => rfl) (fun _ => scanWord_length) h
  unfold scanScalar at h
  split at h
  · exact mapped (fun _ => rfl) (fun _ => scanString_length) h
  split at h
  · exact number h
  split at h
  · exact number h
  split at h
  · exact number h
  split at h
  · exact word h
  split at h
  · exact word h
  split at h
  · exact word h
  · cases h

/-! ## The reader -/

/-- A reader between two tokens. -/
structure Reader where
  /-- What has not been consumed. -/
  rest : Bytes
  offset : Nat := 0
  scanned : Nat := 0
  place : Place := .top
  /-- The places of the containers around, innermost first. -/
  outer : List Place := []
  deriving DecidableEq, Repr

/-- Why no token can be read, and at which offset. -/
structure Stop where
  offset : Nat
  cause : Cause
  deriving DecidableEq, Repr

def isSpace (c : UInt8) : Bool := c == 32 || c == 9 || c == 13 || c == 10

namespace Reader

/-- Consumes white space, if an octet follows it. -/
def skipSpace (r : Reader) : Reader :=
  match r.rest.dropWhile isSpace with
  | [] => r
  | rest => { r with rest, offset := r.offset + (r.rest.takeWhile isSpace).length }

/-- Whether the innermost container goes on: some octet follows, and it closes nothing. -/
def more (r : Reader) : Bool :=
  match r.rest.dropWhile isSpace with
  | [] => false
  | c :: _ => c != 93 && c != 125

def advance (r : Reader) (rest : Bytes) (place : Place) : Reader :=
  { r with rest, offset := r.offset + 1, place }

def enter (r : Reader) (rest : Bytes) (place : Place) : Reader :=
  { r.advance rest place with outer := r.place :: r.outer }

def leave (r : Reader) (rest : Bytes) : Reader :=
  match r.outer with
  | [] => r.advance rest .top
  | place :: outer => { r.advance rest place.afterValue with outer }

/-- Consumes a scalar of `n` octets and moves to a place. -/
def pass (r : Reader) (n : Nat) (rest : Bytes) (place : Place) : Reader :=
  { r with rest, offset := r.offset + n, scanned := r.scanned + n, place }

def stop (r : Reader) : ScanFault → Stop
  | .ended => ⟨r.offset, .endInsideToken⟩
  | .bad octet context position => ⟨r.scanned + position, .badOctet octet context⟩

def refuse (r : Reader) (c : UInt8) : Stop := ⟨r.offset, .badOctet c r.place.expectation⟩

/-- Reads a scalar that begins with `c` and moves to a place. -/
def scalar (r : Reader) (c : UInt8) (rest : Bytes) (place : Place) :
    Except Stop (Token × Reader) :=
  match scanScalar c rest with
  | .ok (token, n, rest') => .ok (token, r.pass n rest' place)
  | .error fault => .error (r.stop fault)

/-- Reads a token.  A separator that is still there is one too many. -/
def token (r : Reader) : Except Stop (Token × Reader) :=
  let r := r.skipSpace
  match r.rest with
  | [] => .error ⟨r.offset, .endOfInput⟩
  | c :: rest =>
    if isSpace c then .error ⟨r.offset, .endOfInput⟩
    else if c == 91 then
      if r.place.allowsValue then .ok (.openArray, r.enter rest .arrayStart) else .error
        (r.refuse c)
    else if c == 93 then
      if r.place == .arrayStart || r.place == .arrayComma then .ok (.closeArray, r.leave rest)
      else .error (r.refuse c)
    else if c == 123 then
      if r.place.allowsValue then .ok (.openObject, r.enter rest .objectStart)
      else .error (r.refuse c)
    else if c == 125 then
      if r.place == .objectStart || r.place == .objectComma then .ok (.closeObject, r.leave rest)
      else .error (r.refuse c)
    else if c == 44 || c == 58 then .error (r.refuse c)
    else if c == 34 && (r.place == .objectStart || r.place == .objectKey) then
      r.scalar c rest .objectColon
    else if r.place.allowsValue then r.scalar c rest r.place.afterValue
    else .error (r.refuse c)

/-- Consumes the separator that the place calls for, if it comes next. -/
def skipSeparator (r : Reader) : Reader :=
  let here := r.skipSpace
  match here.rest with
  | 58 :: rest => if here.place == .objectColon then here.advance rest .objectValue else r
  | 44 :: rest =>
    if here.place == .arrayComma then here.advance rest .arrayValue
    else if here.place == .objectComma then here.advance rest .objectKey
    else r
  | _ => r

def next (r : Reader) : Except Stop (Token × Reader) := r.skipSeparator.token

theorem length_skipSpace (r : Reader) : r.skipSpace.rest.length ≤ r.rest.length := by
  unfold skipSpace
  split
  · exact Nat.le_refl _
  · exact (List.dropWhile_suffix _).length_le

theorem length_skipSeparator (r : Reader) : r.skipSeparator.rest.length ≤ r.rest.length := by
  have hs := length_skipSpace r
  unfold skipSeparator
  simp only
  split
  · next rest h =>
    split
    · simp only [advance]; rw [h, List.length_cons] at hs; omega
    · exact Nat.le_refl _
  · next rest h =>
    split
    · simp only [advance]; rw [h, List.length_cons] at hs; omega
    · split
      · simp only [advance]; rw [h, List.length_cons] at hs; omega
      · exact Nat.le_refl _
  · exact Nat.le_refl _

theorem scalar_length {r r' : Reader} {c : UInt8} {rest : Bytes} {place : Place} {t : Token}
    (h : r.scalar c rest place = .ok (t, r')) : r'.rest.length ≤ rest.length := by
  unfold scalar at h
  split at h
  · next hs =>
    cases h
    exact scanScalar_length hs
  · cases h

theorem rest_leave (r : Reader) (rest : Bytes) : (r.leave rest).rest = rest := by
  unfold leave
  split <;> rfl

theorem token_length {r r' : Reader} {t : Token} (h : r.token = .ok (t, r')) :
    r'.rest.length < r.rest.length := by
  have hs := length_skipSpace r
  unfold token at h
  simp only at h
  split at h
  · cases h
  · next c rest heq =>
    rw [heq, List.length_cons] at hs
    suffices r'.rest.length ≤ rest.length by omega
    split at h
    · cases h
    split at h
    · split at h <;> cases h
      exact Nat.le_refl _
    split at h
    · split at h <;> cases h
      exact Nat.le_of_eq (congrArg List.length (rest_leave _ _))
    split at h
    · split at h <;> cases h
      exact Nat.le_refl _
    split at h
    · split at h <;> cases h
      exact Nat.le_of_eq (congrArg List.length (rest_leave _ _))
    split at h
    · cases h
    split at h
    · exact scalar_length h
    split at h
    · exact scalar_length h
    · cases h

/-- A token takes at least one octet of the input. -/
theorem next_shrinks {r r' : Reader} {t : Token} (h : r.next = .ok (t, r')) :
    r'.rest.length < r.rest.length :=
  Nat.lt_of_lt_of_le (token_length h) (length_skipSeparator r)

end Reader

end UiCodegen.Document.Json
