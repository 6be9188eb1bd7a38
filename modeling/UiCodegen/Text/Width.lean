import UiCodegen.Text.Runs

/-!
# Columns

How many columns a line takes in a table.  Most characters take one, wide ones two, and control
characters and combining marks none.  A colour sequence, from the escape character to an `m`, takes
none either.
-/

namespace UiCodegen.Width

/-- The bounds of the code points that take no column. -/
def zeroBounds : Array Nat := Runs.bounds
  "0 20 5f 21 d 1 252 70 113 7 285 1 db 9 40c 1 3 1 ee 1 c 2 65b 3 4ab 4 270 1 30 1f 9c 9 24c 40 20b
   5 18 7 3b 6 60 21 bfe 3 ee 20 299 2 75d4 4 1 a 20 2 50 2 1ee 12 2f0e 800 1e20 10 cf 1 f9 3 2 2
   1fd 1 178 5 b30 2 99 b 31 4 37a 2 39 2 29 7 3 5 577b 5 640b 2e 2 17 21e 5 3 6 8 8 2 7 1e 4 94 3
   dbb 7 1 11 2 7 1 2 1 5 64 1 840 7"

/-- The bounds of the code points that take two columns. -/
def wideBounds : Array Nat := Runs.bounds
  "1100 60 11ba 2 d 2 be 4 3 1 2 1 209 2 15 2 32 c 2b 1 13 1 d 1 8 2 11 2 5 2 8 1 5 1 15 1 7 2 1 1 4
   1 2 1 7 1 4 2 1c 1 23 1 1 1 4 3 1 1 3d 3 18 1 e 1 35b 2 33 1 4 1 32a 1a 1 59 c d6 1a 4f 2 56 2 67
   5 2b 1 5e 1 54 b 30 1 28 8 1b70 40 568d 3 37 499 1d 283 2ba4 215c 200 310 a 16 23 1 13 1 4 95 60
   7f 7 6ff9 5 b 2 e 17f8 8 4d6 2a 9 22e7 4 1 7 1 2 1 123 f 1 1d 3 2 1 e 4 8 18c 3d08 1 ca 1 be 1 2
   a 65 3 d 2c 4 9 7 2 e 6 9a 21 c 9 1 46 1 16 c 2b 4 5 c 11 3 1 3 47 1 1 1 bb 2 3f d 4 1 18 12 1 1a
   2 d 1 56 55 30 46 6 1 3 3 2 3 4 4 b 2 7 9 e3 c 4 1 11b 2f 1 a 1 b9 70 d 3 9 7 2e 1 7 8 e 4 9 7 9
   507 fffe 2 fffe"

def ofCode (code : Nat) : Nat :=
  if Runs.within zeroBounds code then 0
  else if Runs.within wideBounds code then 2
  else 1

/-- Marks each code point of a text that belongs to a colour sequence.  `inside` tells whether the
text starts in one. -/
def markSequences (inside : Bool) : List Nat → List (Nat × Bool)
  | [] => []
  | code :: rest =>
    let here := inside || code == 0x1b
    (code, here) :: markSequences (here && code != 109) rest

def ofCodes (codes : List Nat) : Nat :=
  (markSequences false codes).foldl (fun columns (code, inSequence) =>
    if inSequence then columns else columns + ofCode code) 0

end UiCodegen.Width
