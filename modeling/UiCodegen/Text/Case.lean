import UiCodegen.Text.Category
import UiCodegen.Text.Fold

/-!
# Capital letters

Which characters have case, the capital of a small letter, and the form of a letter at the start of
a title, which may be more than one character.

Capitals are those of edition 17 of the Unicode standard.  Titles keep to edition 15: what has no
case there is left as it is, and so are the letters that had no capital yet.
-/

namespace UiCodegen.Case

/-- The bounds of the code points that have case in titles and are no letters with case, or the
other way round. -/
def exceptions : Array Nat := Runs.bounds
  "aa 1 f 1 1da 1 1a 9 7 2 1e 5 60 1 34 1 d81 1 b8c 2 a1 3f d 1 22 25 2b1 1 d 1 10 d c3 20 336 34
   792 2 7a1e 2 d2 1 5a 5 2 1 1 1 5 3 15 3 3 2 362 4 9 1 5c16 1 2 3 1 2a 1 9 595 16 a 16 611a 19 2
   19 715c 3e 10c2 1a 6 1a 6 1a"

/-- Whether a code point has case in titles. -/
def isCased (code : Nat) : Bool := Category.has "LC" code != Runs.within exceptions code

/-- The code points whose capital is not the first capital of their class, in increasing order, with
the way to it. -/
def otherwiseCapital : Array Fold.Run := Fold.Run.parse
  "df:0 131:-e8 3f4:0 1f80-1f87:8 1f90-1f97:8 1fa0-1fa7:8 1fb3:9 1fc3:9 1ff3:9 2126:0 212a-212b:0
   2170-217f:-10 24d0-24e9:-1a"

/-- The capital of a code point, which is itself if it has none. -/
def upper (code : Nat) : Nat :=
  match otherwiseCapital.find? (·.has code) with
  | some run => (code + run.shift).toNat
  | none => (((Fold.members code).filter (Category.has "Lu")).min?).getD code

/-- The code points whose form in a title is not their capital: each with a `:` and the form, whose
members have a `+` between them. -/
def titleForms : List (Nat × List Nat) :=
  (Runs.words
    "df:53+73 149:2bc+4e 19b:19b 1c4:1c5 1c5:1c5 1c6:1c5 1c7:1c8 1c8:1c8 1c9:1c8 1ca:1cb 1cb:1cb
     1cc:1cb 1f0:4a+30c 1f1:1f2 1f2:1f2 1f3:1f2 264:264 390:399+308+301 3b0:3a5+308+301 587:535+582
     1e96:48+331 1e97:54+308 1e98:57+30a 1e99:59+30a 1e9a:41+2be 1f50:3a5+313 1f52:3a5+313+300
     1f54:3a5+313+301 1f56:3a5+313+342 1fb2:1fba+345 1fb4:386+345 1fb6:391+342 1fb7:391+342+345
     1fc2:1fca+345 1fc4:389+345 1fc6:397+342 1fc7:397+342+345 1fd2:399+308+300 1fd3:399+308+301
     1fd6:399+342 1fd7:399+308+342 1fe2:3a5+308+300 1fe3:3a5+308+301 1fe4:3a1+313 1fe6:3a5+342
     1fe7:3a5+308+342 1ff2:1ffa+345 1ff4:38f+345 1ff6:3a9+342 1ff7:3a9+342+345 a7d3:a7d3 a7d5:a7d5
     fb00:46+66 fb01:46+69 fb02:46+6c fb03:46+66+69 fb04:46+66+6c fb05:53+74 fb06:53+74 fb13:544+576
     fb14:544+565 fb15:544+56b fb16:54e+576 fb17:544+56d").map fun word =>
      let (code, form) := (Bytes.cut? 58 word).getD (word, [])
      (Runs.hexNumber code, (Bytes.splitOn 43 form).map Runs.hexNumber)

/-- The form of a code point at the start of a title.  Letters of the modern Georgian alphabet have
capitals, but titles do not use them. -/
def title (code : Nat) : List Nat :=
  match titleForms.find? (·.1 == code) with
  | some (_, form) => form
  | none => if 0x10d0 ≤ code && code ≤ 0x10ff then [code] else [upper code]

end UiCodegen.Case
