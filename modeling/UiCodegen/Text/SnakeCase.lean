import UiCodegen.Text.Blank

/-!
# Snake case

Turns `camelCase`, `kebab-case`, dotted and spaced names into words joined by `_`.  One is put
where small letters, capitals and digits meet, decided octet by octet from the neighbours.
-/

namespace UiCodegen.SnakeCase

/-- Reads on behind the octet `before` of the trimmed text. -/
def wordsOf (before : Option UInt8) : Bytes → Bytes
  | [] => []
  | b :: rest =>
    let cap := Bytes.isUpper b
    let low := Bytes.isLower b
    let num := Bytes.isDigit b
    let v := Bytes.lowerByte b
    let plain : Bytes :=
      if v == 32 || v == 95 || v == 45 || v == 46 then [95] else [v]
    match rest with
    | [] => plain
    | next :: _ =>
      let nextCap := Bytes.isUpper next
      let nextLow := Bytes.isLower next
      let nextNum := Bytes.isDigit next
      if (cap && (nextLow || nextNum)) || (low && (nextCap || nextNum)) ||
          (num && (nextCap || nextLow)) then
        let front : Bytes :=
          if cap && nextLow && before.any Bytes.isUpper then [95] else []
        let back : Bytes := if low || num || nextNum then [95] else []
        front ++ v :: back ++ wordsOf (some b) rest
      else plain ++ wordsOf (some b) rest

/-- A name in snake case; white space at its ends is dropped first. -/
def snake (s : Bytes) : Bytes := wordsOf none (Blank.trim s)

end UiCodegen.SnakeCase
