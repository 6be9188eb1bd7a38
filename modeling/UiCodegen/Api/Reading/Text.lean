import UiCodegen.Api.Reading.Extent

/-!
# Texts and keys of a description

A text may hold any octet; only a backslash and the quote have a meaning.  In records U+FFFD stands
for each octet that belongs to no character.  A text is kept as it is read, so what counts for the
mark are the octets it stands for, not those it is written with.

A key is compared with the names of the fields while it is read, without regard to the case of ASCII
letters: as soon as no name begins with what was read, the rest of the key is passed over.  At its
closing quote a key stands for the first name, in alphabetical order, that begins with what was
read, if the key as written is not shorter than that name.
-/

namespace UiCodegen.Api.Reading

open Document.Json (isHexDigit)

/-! ## Escapes -/

/-- The value of a hexadecimal digit; other octets count as zero. -/
def hexValue (c : UInt8) : Nat := if isHexDigit c then (Integer.digit? c).getD 0 else 0

/-- The number that four hexadecimal digits write. -/
def hexValue4 (a b c d : UInt8) : Nat :=
  ((hexValue a * 16 + hexValue b) * 16 + hexValue c) * 16 + hexValue d

/-- Whether the four octets of a numeric escape can be read.  In records they may be anything. -/
def acceptsDigits (layer : Layer) (a b c d : UInt8) : Bool :=
  layer == .records || (isHexDigit a && isHexDigit b && isHexDigit c && isHexDigit d)

/-- The first half of a pair. -/
def isHighSurrogate (code : Nat) : Bool := 0xD800 ≤ code && code ≤ 0xDBFF

/-- The second half of a pair. -/
def isLowSurrogate (code : Nat) : Bool := 0xDC00 ≤ code && code ≤ 0xDFFF

/-- What a letter behind a backslash stands for. -/
def escapedOctet? (letter : UInt8) : Option UInt8 :=
  if letter == 34 || letter == 92 || letter == 47 then some letter
  else if letter == 98 then some 8
  else if letter == 102 then some 12
  else if letter == 110 then some 10
  else if letter == 114 then some 13
  else if letter == 116 then some 9
  else none

/-- The character that two escapes stand for together: the code of the first one is `high`, and the
second one follows. -/
def pairCode? (high : Nat) : Bytes → Option Nat
  | 92 :: 117 :: a :: b :: c :: d :: _ =>
    let low := hexValue4 a b c d
    if isHighSurrogate high && isLowSurrogate low then
      some (0x10000 + (high - 0xD800) * 0x400 + (low - 0xDC00))
    else none
  | _ => none

/-- The character of a numeric escape, from behind its letter; U+FFFD stands for a surrogate without
partner.  At least one octet has to follow the digits. -/
def escapedCode? (layer : Layer) (w : Window) :
    Option (Nat × { rest : Window // rest.left ≤ w.left }) :=
  match w.atLeast 5 with
  | (⟨w₁, h₁⟩, true) =>
    match w₁.seen with
    | a :: b :: c :: d :: _ =>
      let code := hexValue4 a b c d
      let w₂ := w₁.skip 4
      have h₂ : w₂.left ≤ w.left := Nat.le_trans (w₁.left_skip_le 4) h₁
      if !acceptsDigits layer a b c d then none
      else if isHighSurrogate code || isLowSurrogate code then
        let (⟨w₃, h₃⟩, enough) := w₂.atLeast 7
        match if enough then pairCode? code w₃.seen else none with
        | some pair =>
            some (pair, ⟨w₃.skip 6, Nat.le_trans (w₃.left_skip_le 6) (Nat.le_trans h₃ h₂)⟩)
        | none => some (Utf8.replacement, ⟨w₃, Nat.le_trans h₃ h₂⟩)
      else some (code, ⟨w₂, h₂⟩)
    | _ => none
  | _ => none

/-! ## Texts -/

/-- Whether some octets are the beginning of a character that is not complete. -/
def isPartial (s : Bytes) : Bool :=
  (Utf8.first? s).isNone &&
    [0x80, 0x90, 0xA0].any fun next =>
      [1, 2, 3].any fun n =>
        (Utf8.first? (s ++ (next :: [0x80, 0x80]).take n)).any fun (_, octets) => s.length < octets

/-- The octets of the character that begins with an octet outside ASCII, or U+FFFD if there is none.
-/
def character? (c : UInt8) (w : Window) :
    Option (Bytes × { rest : Window // rest.left ≤ w.left }) :=
  let octets := c :: w.seen.take 3
  if isPartial octets then
    match h : w.more? with
    | some w' =>
      (character? c w').map fun (octets, ⟨rest, h'⟩) =>
        (octets, ⟨rest, Nat.le_trans h' (Window.left_more h)⟩)
    | none => none
  else match Utf8.first? octets with
    | some (_, n) => some (octets.take n, ⟨w.skip (n - 1), w.left_skip_le _⟩)
    | none => some (Utf8.encode Utf8.replacement, ⟨w, Nat.le_refl _⟩)
termination_by w.supply
decreasing_by exact Window.supply_more h

/-- Reads on in a text up to its closing quote, behind which the mark is put. -/
def readText (layer : Layer) (n : Nat) (reversed : Bytes) (w : Window) (hw : w.left ≤ n) :
    Option (Front Bytes n) :=
  match w.next? with
  | none => none
  | some ⟨c, w₁, h₁⟩ =>
    have hw₁ := Window.le_of_lt h₁ hw
    if c == 34 then some ⟨reversed.reverse, w₁.mark, Window.lt_of_lt_of_le h₁ hw⟩
    else if c == 92 then
      match w₁.next? with
      | none => none
      | some ⟨letter, w₂, h₂⟩ =>
        have hw₂ := Window.le_of_lt h₂ hw₁
        if letter == 117 then
          match escapedCode? layer w₂ with
          | none => none
          | some (code, ⟨w₃, h₃⟩) =>
            let octets := Utf8.encode code
            readText layer n (octets.reverse ++ reversed) (w₃.reached (w.passed + octets.length))
              (Window.le_of_le h₃ hw₂)
        else match escapedOctet? letter with
          | none => none
          | some octet => readText layer n (octet :: reversed) (w₂.reached (w.passed + 1)) hw₂
    else if layer == .types || c < 0x80 then readText layer n (c :: reversed) w₁ hw₁
    else match character? c w₁ with
      | none => none
      | some (octets, ⟨w₂, h₂⟩) =>
        readText layer n (octets.reverse ++ reversed) (w₂.reached (w.passed + octets.length))
          (Window.le_of_le h₂ hw₁)
termination_by w.left
decreasing_by
  all_goals
    try rw [Window.left_reached]
    omega

/-! ## Keys -/

/-- Whether a name begins with what is known of a key. -/
def anyBegins (names : List Bytes) (known : Bytes) : Bool := names.any (Bytes.startsWith · known)

/-- The name that a key stands for: `known` was read of it, and it was written with `length` octets.
-/
def chosen? (names : List Bytes) (known : Bytes) (length : Nat) : Option Bytes :=
  if length == 0 then none
  else (names.find? (Bytes.startsWith · known)).filter (·.length ≤ length)

/-- Passes over the rest of a key that stands for no name.  A backslash at the end of a piece is
forgotten. -/
def unknownKey? (n : Nat) (w : Window) (hw : w.left ≤ n) : Option (Front (Option Bytes) n) :=
  match w.next? with
  | none => none
  | some ⟨c, w₁, h₁⟩ =>
    if c == 34 then some ⟨none, w₁, by omega⟩
    else if c == 92 then
      if w₁.inView?.isSome then
        have := w₁.left_step_le
        unknownKey? n w₁.step (by omega)
      else
        match h : w₁.more? with
        | some w₂ =>
          have := Window.left_more h
          unknownKey? n w₂ (by omega)
        | none => none
    else unknownKey? n w₁ (by omega)
termination_by w.left

/-- What becomes of a key behind an escape; at most `n` octets are left then. -/
inductive AfterEscape (n : Nat) where
  /-- `known` was read of it so far, the escape being written with `length` octets. -/
  | known (known : Bytes) (length : Nat) (rest : Window) (fits : rest.left ≤ n)
  /-- It stands for no name. -/
  | unknown (rest : Window) (fits : rest.left ≤ n)

/-- Reads a numeric escape of a key from behind its letter.  No name has a surrogate, which takes
the four octets behind it along. -/
def numericEscape (layer : Layer) (names : List Bytes) (known : Bytes) (w : Window) :
    AfterEscape w.left :=
  let code := match w.seen with
    | a :: b :: c :: d :: _ => hexValue4 a b c d
    | _ => 0
  let known := known ++ (Utf8.encode code).map Bytes.lowerByte
  if layer == .types && !anyBegins names known then .unknown w (Nat.le_refl _)
  else if isHighSurrogate code || isLowSurrogate code then .unknown (w.skip 8) (w.left_skip_le 8)
  else if anyBegins names known then .known known 6 (w.skip 4) (w.left_skip_le 4)
  else .unknown (w.skip 4) (w.left_skip_le 4)

/-- Reads an escape of a key from behind its letter.  No name has a character that is written with a
backslash and a letter.  In records an escape has to be in view, and an octet behind it. -/
def keyEscape? (layer : Layer) (names : List Bytes) (known : Bytes) (letter : UInt8) (w : Window) :
    Option (AfterEscape w.left) :=
  let numeric := letter == 117
  match layer with
  | .records =>
    if numeric then if 4 < w.seen.length then some (numericEscape .records names known w) else none
    else if (escapedOctet? letter).isSome then some (.unknown w.step w.left_step_le)
    else none
  | .types =>
    if numeric && 4 ≤ w.seen.length then some (numericEscape .types names known w)
    else if (escapedOctet? letter).isSome then some (.unknown w (Nat.le_refl _))
    else some (.known known 3 w.step w.left_step_le)

/-- Reads on in a key up to its closing quote; yields the name it stands for, if any.  `names` are
in alphabetical order, `known` is what was read of the key in small letters, and `length` counts the
octets it was written with. -/
def readKey (layer : Layer) (names : List Bytes) (n : Nat) (known : Bytes)
    (length : Nat) (w : Window) (hw : w.left ≤ n) : Option (Front (Option Bytes) n) :=
  match w.next? with
  | none => none
  | some ⟨c, w₁, h₁⟩ =>
    if c == 34 then some ⟨chosen? names known length, w₁, by omega⟩
    else if c == 92 then
      have h₂ := w₁.left_step_le
      match w₁.inView? with
      | none => none
      | some letter =>
        match keyEscape? layer names known letter w₁.step with
        | some (.known known octets w₃ h₃) =>
          readKey layer names n known (length + octets) w₃ (by omega)
        | some (.unknown w₃ h₃) => unknownKey? n w₃ (by omega)
        | none => none
    else
      let known := known ++ [Bytes.lowerByte c]
      if anyBegins names known then readKey layer names n known (length + 1) w₁ (by omega)
      else unknownKey? n w₁ (by omega)
termination_by w.left

end UiCodegen.Api.Reading
