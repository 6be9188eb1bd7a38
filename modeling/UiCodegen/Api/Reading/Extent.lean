import UiCodegen.Api.Reading.Window

/-!
# How far a value of a description goes

Where a value ends is found by a coarse rule: a container ends where as many of its closing signs as
opening signs have been seen, a string at the first quote without a backslash, a number behind the
octets that numbers are made of.  What else stands inside a container does not matter.

A description has two layers.  Records are read loosely, and in front of a value that is passed over
stray octets are passed over too; the type chains inside them are read with more care.
-/

namespace UiCodegen.Api

/-- The two layers of a description. -/
inductive Layer where
  | records
  | types
  deriving DecidableEq, Repr

namespace Reading

open Document.Json (isSpace)

/-- How deep containers may be inside each other. -/
def maxDepth : Int := 10000

/-! ## Strings and containers -/

/-- Reads to the end of a string. -/
def stringEnd? (n : Nat) (reversed : Bytes) (w : Window) (hw : reversed.length + w.left ≤ n) :
    Option (Cut n) :=
  match w.next? with
  | none => none
  | some ⟨c, w', h⟩ =>
    if c == 34 then some ⟨c :: reversed, w', by simp only [List.length_cons]; omega⟩
    else if c == 92 then
      match w'.any? with
      | none => none
      | some ⟨escaped, w'', h'⟩ =>
        stringEnd? n (escaped ++ c :: reversed) w'' (by
          simp only [List.length_append, List.length_cons]
          omega)
    else stringEnd? n (c :: reversed) w' (by simp only [List.length_cons]; omega)
termination_by w.left

/-- The signs that open and close a container. -/
structure Brackets where
  opening : UInt8
  closing : UInt8
  deriving DecidableEq, Repr

/-- The brackets of objects. -/
def Brackets.object : Brackets := ⟨123, 125⟩

/-- The brackets of arrays. -/
def Brackets.array : Brackets := ⟨91, 93⟩

/-- Goes on in a container, of which `missing` closing signs are still to come; `quoted` says
whether a string is open.  Containers of both kinds count for the `depth`, only those of its own
kind for its end. -/
def containerEnd? (brackets : Brackets) (missing : Nat) (depth : Int) (quoted : Bool) (n : Nat)
    (reversed : Bytes) (w : Window) (hw : reversed.length + w.left ≤ n) : Option (Cut n) :=
  match w.next? with
  | none => none
  | some ⟨c, w', h⟩ =>
    have hc : (c :: reversed).length + w'.left ≤ n := by simp only [List.length_cons]; omega
    if quoted then
      if c == 92 then
        match w'.any? with
        | none => none
        | some ⟨escaped, w'', h'⟩ =>
          containerEnd? brackets missing depth true n (escaped ++ c :: reversed) w'' (by
            simp only [List.length_append]
            omega)
      else containerEnd? brackets missing depth (c != 34) n (c :: reversed) w' hc
    else if c == 34 then containerEnd? brackets missing depth true n (c :: reversed) w' hc
    else if c == 123 || c == 91 then
      if maxDepth < depth + 1 then none
      else
        let missing := if c == brackets.opening then missing + 1 else missing
        containerEnd? brackets missing (depth + 1) false n (c :: reversed) w' hc
    else if c == brackets.closing && missing ≤ 1 then some ⟨c :: reversed, w', hc⟩
    else if c == 125 || c == 93 then
      let missing := if c == brackets.closing then missing - 1 else missing
      containerEnd? brackets missing (depth - 1) false n (c :: reversed) w' hc
    else containerEnd? brackets missing depth false n (c :: reversed) w' hc
termination_by w.left

/-! ## Numbers -/

/-- Whether an octet may stand in a number. -/
def isNumberOctet (c : UInt8) : Bool :=
  Bytes.isDigit c || c == 46 || c == 43 || c == 45 || c == 101 || c == 69

/-- Goes on in a number up to its end.  Where the octets in view run out, reading starts again
behind the first octet at `start`, the place where the value was looked for and where `front` had
been read. -/
def numberEnd (n : Nat) (front : Bytes) (start : Window) (reversed : Bytes) (w : Window)
    (hs : front.length + start.left ≤ n) (hw : reversed.length + w.left ≤ n) : Cut n :=
  match h : w.inView? with
  | some c =>
    if isNumberOctet c then
      numberEnd n front start (c :: reversed) w.step hs (Window.fits_step hw h)
    else ⟨reversed, w, hw⟩
  | none =>
    match h : start.more? with
    | some start' =>
      numberEnd n front start' (start'.seen.take 1 ++ front) start'.step (Window.fits_more hs h)
        (Window.fits_first hs h)
    | none => ⟨reversed, w, hw⟩
termination_by (start.supply, w.left)
decreasing_by
  · exact .right _ (Window.left_step h)
  · exact .left _ _ (Window.supply_more h)

/-! ## Values -/

/-- Goes on to the end of a value, `depth` containers being open around it.  `front` was read up to
`start`, where the value was looked for or the last piece was taken, and `reversed` up to here. -/
def valueEnd? (layer : Layer) (depth : Nat) (n : Nat) (front : Bytes) (start : Window)
    (reversed : Bytes)
    (w : Window) (hs : front.length + start.left ≤ n) (hw : reversed.length + w.left ≤ n) :
    Option (Cut n) :=
  match h : w.inView? with
  | none =>
    match h : w.more? with
    | some w' =>
      have := Window.left_more h
      have := Window.supply_more h
      valueEnd? layer depth n reversed w' reversed w' (by omega) (by omega)
    | none => none
  | some c =>
    have := Window.left_step h
    have hc : (c :: reversed).length + w.step.left ≤ n := by simp only [List.length_cons]; omega
    if isSpace c then valueEnd? layer depth n front start (c :: reversed) w.step hs hc
    else if c == 123 then containerEnd? .object 1 (depth + 1) false n (c :: reversed) w.step hc
    else if c == 91 then containerEnd? .array 1 (depth + 1) false n (c :: reversed) w.step hc
    else if c == 34 then stringEnd? n (c :: reversed) w.step hc
    else if c == 45 || Bytes.isDigit c then
      some (numberEnd n front start (c :: reversed) w.step hs hc)
    else if c == 116 then word? n (c :: reversed) w.step hc "rue"
    else if c == 102 then word? n (c :: reversed) w.step hc "alse"
    else if c == 110 then word? n (c :: reversed) w.step hc "ull"
    else match layer with
      | .records => valueEnd? layer depth n front start (c :: reversed) w.step hs hc
      | .types => none
termination_by w.left + w.supply
decreasing_by
  · omega
  all_goals
    simp only [Window.step, Window.supply] at *
    omega

/-- A value as it is written, with what is passed over in front of it. -/
def written? (layer : Layer) (depth : Nat) (w : Window) :
    Option (Front { t : Bytes // t.length ≤ w.left } w.left) :=
  match valueEnd? layer depth w.left [] w [] w w.fits_nil w.fits_nil with
  | some ⟨c :: reversed, rest, h⟩ =>
    some ⟨⟨(c :: reversed).reverse, Window.length_of_fits h⟩, rest, Window.lt_of_fits h⟩
  | _ => none

end Reading

end UiCodegen.Api
