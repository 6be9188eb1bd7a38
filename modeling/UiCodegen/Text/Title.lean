import UiCodegen.Text.Case

/-!
# Titles

A title is written with a capital at the start of each word; the other letters stay as they are, so
that acronyms survive.  A word is a run of letters, digits, marks and underscores; one mark such as
a point or an apostrophe between two of these does not end it.
-/

namespace UiCodegen.Title

/-- The categories whose members stand inside words, but for exceptions. -/
def innerCategories : List Bytes :=
  ["Cf", "Ll", "Lm", "Lo", "Lt", "Lu", "Mc", "Me", "Mn", "Nd", "Nl", "Pc"]

/-- The bounds of the exceptions, among the code points without case. -/
def exceptions : Array Nat := Runs.bounds
  "2c2 4 c 6 6 e 1 1 1 11 25a 3 1 1 2b 1 68 1 77 1 223 1 7 1 3c4 1 7f 1 124 30 1 2 c 7 3a 2 1 1 1 5
   1 18 1 1 1 a 1 2 9 1 2 5 1 1 15 4 120 2b 14 1 10 6 4 4 3 1 3 2 7 3 4 d c 1 6f1 34 23 1 4 1 173 1e
   2 5 b 2c 4 1a 56 35 52 1 27 f 2 c 19d 2 380 1 23 1 fd6 2 19 9 7 5 2 3 6 56 6 3 1 5a 1 4 f0 10 200
   19c0 40 5200 708 f 9 68 1 6 3c 12 14 6 1e9 5 1 a a 5 61 17 3 1 3 32 1 1 3 2 2 5 2 1 1 1 18 3 7d f
   4d96 16e 2 6a 48c 38 622 34 34c 1a 3e6 26 3 5 1 17 13c 6 32 3 483 a 1 1 2 1 1 26 1 a 1 1 2 1 1 4
   1 8 d 2 2ed 14 1c 1b 25 7 419 8 58 21 f a 1b6 2c 4 a 170 1 1505 f9b 1d05 3a c06 2d 3 a 126 19 2
   19 11e 5 9 1cd6 29 20 61 73 21fd 4 1 7 1 2 1 123 f 1 1d 3 2 1 e 4 8 18c 19f4 a 18d6 2b c5 1f 1 16
   8 2 cfb 5 c00 a6e0 20 111e 2 168e 2 1d31 f 26e 9a2 21e 5e2 134b 5 212a"

/-- Whether a code point without case stands inside words. -/
def isInner (code : Nat) : Bool :=
  innerCategories.contains (Category.ofCode code) != Runs.within exceptions code

def joiners : List Nat :=
  [0x27, 0x2e, 0x3a, 0xb7, 0x387, 0x55f, 0x5f4, 0x2018, 0x2019, 0x2024, 0x2027, 0xfe13,
    0xfe52, 0xfe55,
   0xff07, 0xff0e, 0xff1a]

def isJoiner (code : Nat) : Bool := joiners.contains code

/-- Where a title is read: whether a letter of the current word was already seen, and whether the
last character was a joiner. -/
structure Position where
  insideWord : Bool := false
  afterJoiner : Bool := false

def step (at_ : Position) (u : Utf8.Symbol) : Bytes × Position :=
  match u with
  | .stray octet => ([octet], {})
  | .char code =>
    let joiner := isJoiner code
    let inside := at_.insideWord && !(at_.afterJoiner && joiner)
    if Case.isCased code then
      (if inside then Utf8.encode code else Utf8.ofCodes (Case.title code), ⟨true, joiner⟩)
    else (Utf8.encode code, ⟨inside && (isInner code || joiner), joiner⟩)

def write (at_ : Position) : List Utf8.Symbol → Bytes
  | [] => []
  | u :: rest => (step at_ u).1 ++ write (step at_ u).2 rest

/-- A text with a capital at the start of each word. -/
def titled (s : Bytes) : Bytes := write {} (Utf8.symbols s)

end UiCodegen.Title
