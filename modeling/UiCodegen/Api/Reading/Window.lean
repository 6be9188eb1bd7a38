import UiCodegen.Document.Json.Token

/-!
# Texts that are taken in pieces

A description is not taken as a whole.  There is room for 512 octets at first, and for twice as many
each time it is used up; it is counted from a mark, which moves on with what has been read.  A
window is what has been taken of a text, and what has not.

The octet zero is not part of a text: where it stands, the rest of the piece is overwritten by the
next one.

Most readers do not notice where a piece ends (`Window.next?`).  The others look at what is in view
(`Window.inView?`) and ask for more themselves (`Window.more?`).  All of them end because nothing is
ever put back: `Window.left` counts what is left of a text, and `Window.supply` how often more can
be taken.
-/

namespace UiCodegen.Api.Reading

open Document.Json (isSpace)

/-- A text that is taken in pieces. -/
structure Window where
  seen : Bytes
  /-- What has not been taken. -/
  rest : Bytes := []
  /-- The room, counted from the mark, that was there when the last piece was taken. -/
  room : Nat := 256
  passed : Nat := 0
  /-- Whether it has been noticed that nothing is left to take. -/
  ended : Bool := false
  deriving DecidableEq, Repr

namespace Window

variable (w : Window)

/-- A text of which nothing has been taken. -/
def start (s : Bytes) : Window := { seen := [], rest := s }

/-- A text that is all in view. -/
def whole (s : Bytes) : Window := { seen := s, ended := true }

/-- The number of octets that are left. -/
def left : Nat := w.seen.length + w.rest.length

/-- How often more can come into view. -/
def supply : Nat := 2 * w.rest.length + (!w.ended).toNat

/-- Takes one more piece, if the end has not been noticed.  It is put behind what is in view, and
over what follows an octet zero. -/
def more? : Option Window :=
  if w.ended then none
  else if w.rest.isEmpty then some { w with ended := true }
  else
    let live := w.seen.takeWhile (· != 0)
    let size := max 1 (2 * w.room - (w.passed + live.length) - 1)
    let piece := w.rest.take size
    some
      { w with
        seen := live ++ (piece ++ (w.seen.drop live.length).drop piece.length)
        rest := w.rest.drop size
        room := 2 * w.room }

/-- The same window, so many octets behind the mark. -/
def reached (passed : Nat) : Window := { w with passed }

/-- Begins to count octets. -/
def mark : Window := w.reached 0

/-- Passes over an octet. -/
@[inline] def step : Window := { w with seen := w.seen.tail, passed := w.passed + 1 }

/-- Passes over octets. -/
def skip (n : Nat) : Window := { w with seen := w.seen.drop n, passed := w.passed + n }

/-- The octet at this place, if it is there. -/
@[inline] def inView? : Option UInt8 :=
  match w.seen with
  | [] => none
  | c :: _ => if c == 0 then none else some c

theorem left_reached (passed : Nat) : (w.reached passed).left = w.left := rfl

theorem left_refl : w.left ≤ w.left := Nat.le_refl _

/-! What is left of a window bounds what is left of those behind it. -/

section

variable {w w' w'' : Window} {n : Nat}

theorem le_of_lt (h : w.left < w'.left) (hn : w'.left ≤ n) : w.left ≤ n :=
  Nat.le_trans (Nat.le_of_lt h) hn

theorem le_of_le (h : w.left ≤ w'.left) (hn : w'.left ≤ n) : w.left ≤ n := Nat.le_trans h hn

theorem lt_of_lt_of_le (h : w.left < w'.left) (hn : w'.left ≤ n) : w.left < n :=
  Nat.lt_of_lt_of_le h hn

theorem lt_of_lt_of_lt (h : w.left < w'.left) (hn : w'.left < n) : w.left < n := Nat.lt_trans h hn

theorem lt_trans (h : w.left < w'.left) (h' : w'.left < w''.left) : w.left < w''.left :=
  Nat.lt_trans h h'

theorem lt_trans_le (h : w.left < w'.left) (h' : w'.left ≤ w''.left) : w.left < w''.left :=
  Nat.lt_of_lt_of_le h h'

end

theorem left_step_le : w.step.left ≤ w.left := by
  simp only [step, left, List.length_tail]
  omega

theorem left_skip_le (n : Nat) : (w.skip n).left ≤ w.left := by
  simp only [skip, left, List.length_drop]
  omega

theorem left_step_of_seen {w : Window} {c : UInt8} {seen : Bytes} (h : w.seen = c :: seen) :
    w.step.left < w.left := by
  simp only [step, left, h, List.tail_cons, List.length_cons]
  omega

theorem left_step {w : Window} {c : UInt8} (h : w.inView? = some c) : w.step.left < w.left := by
  unfold inView? at h
  split at h
  · simp at h
  · next hs => exact left_step_of_seen hs

/-- Taking a piece may drop octets, but adds none. -/
theorem left_more {w w' : Window} (h : w.more? = some w') : w'.left ≤ w.left := by
  unfold more? at h
  split at h
  · simp at h
  split at h
  · simp only [Option.some.injEq] at h
    subst h
    exact Nat.le_refl _
  · simp only [Option.some.injEq] at h
    subst h
    have := (List.takeWhile_prefix (l := w.seen) (· != 0)).length_le
    simp only [left, List.length_append, List.length_take, List.length_drop]
    omega

theorem supply_more {w w' : Window} (h : w.more? = some w') : w'.supply < w.supply := by
  unfold more? at h
  split at h
  · simp at h
  next ended =>
    split at h
    · simp only [Option.some.injEq] at h
      subst h
      simp [supply, ended]
    next rest =>
      simp only [Option.some.injEq] at h
      subst h
      have : w.rest.length ≠ 0 := by
        intro empty
        exact rest (by simp [List.length_eq_zero_iff.1 empty])
      simp only [supply, List.length_drop]
      omega

end Window

/-! ## Octets -/

/-- A value, and the text behind it, of which fewer than `n` octets are left. -/
structure Front (α : Type) (n : Nat) where
  value : α
  rest : Window
  shorter : rest.left < n

namespace Front

/-- The bound of a front may be larger. -/
def extend {α : Type} {n m : Nat} (front : Front α n) (h : n ≤ m) : Front α m :=
  ⟨front.value, front.rest, Nat.lt_of_lt_of_le front.shorter h⟩

/-- Applies a function to what was read. -/
def map {α β : Type} {n : Nat} (f : α → β) (front : Front α n) : Front β n :=
  ⟨f front.value, front.rest, front.shorter⟩

end Front

namespace Window

/-- The next octet, if there is one. -/
def next? (w : Window) : Option (Front UInt8 w.left) :=
  match h : w.inView? with
  | some c => some ⟨c, w.step, left_step h⟩
  | none =>
    match h : w.more? with
    | some w' => (next? w').map (·.extend (left_more h))
    | none => none
termination_by w.supply
decreasing_by exact supply_more h

/-- The window at the next octet that is not white space, with no more than `n` octets left. -/
def skipSpaceWithin (n : Nat) (w : Window) (hw : w.left ≤ n) : { w' : Window // w'.left ≤ n } :=
  match h : w.inView? with
  | some c =>
    if isSpace c then
      have := left_step h
      skipSpaceWithin n w.step (by omega)
    else ⟨w, hw⟩
  | none =>
    match h : w.more? with
    | some w' =>
      have := left_more h
      have := supply_more h
      skipSpaceWithin n w' (by omega)
    | none => ⟨w, hw⟩
termination_by w.left + w.supply
decreasing_by
  · simp only [step, supply] at *
    omega
  · omega

/-- Passes over white space. -/
def skipSpace (w : Window) : { w' : Window // w'.left ≤ w.left } :=
  w.skipSpaceWithin w.left (Nat.le_refl _)

/-- The next octet that is not white space. -/
def sign? (w : Window) : Option (Front UInt8 w.left) :=
  let ⟨w', h⟩ := w.skipSpace
  w'.next?.map (·.extend h)

/-- The window in which at least so many octets have been taken, if the text has them, and whether
it has. -/
def atLeast (w : Window) (n : Nat) : { w' : Window // w'.left ≤ w.left } × Bool :=
  if n ≤ w.seen.length then (⟨w, Nat.le_refl _⟩, true)
  else
    match h : w.more? with
    | some w' =>
      let (⟨w'', h'⟩, enough) := atLeast w' n
      (⟨w'', Nat.le_trans h' (left_more h)⟩, enough)
    | none => (⟨w, Nat.le_refl _⟩, false)
termination_by w.supply
decreasing_by exact supply_more h

end Window

/-! ## Cuts -/

/-- Octets from the front of a text, last first, and what follows them; both together have at most
`n` octets. -/
structure Cut (n : Nat) where
  reversed : Bytes
  rest : Window
  fits : reversed.length + rest.left ≤ n

theorem Window.fits_nil (w : Window) : ([] : Bytes).length + w.left ≤ w.left := by simp

section

variable {n : Nat} {reversed : Bytes} {w w' : Window} {c : UInt8}

/-- An octet goes from the text to what was cut off. -/
theorem Window.fits_step (hw : reversed.length + w.left ≤ n) (h : w.inView? = some c) :
    (c :: reversed).length + w.step.left ≤ n := by
  have := left_step h
  simp only [List.length_cons]
  omega

theorem Window.fits_more (hw : reversed.length + w.left ≤ n) (h : w.more? = some w') :
    reversed.length + w'.left ≤ n := by
  have := left_more h
  omega

/-- The first octet of a window goes to what was cut off, if there is one. -/
theorem Window.fits_first (hw : reversed.length + w.left ≤ n) (h : w.more? = some w') :
    (w'.seen.take 1 ++ reversed).length + w'.step.left ≤ n := by
  have := left_more h
  simp only [left, step, List.length_append, List.length_take, List.length_tail] at *
  omega

theorem Window.length_of_fits (h : (c :: reversed).length + w'.left ≤ w.left) :
    (c :: reversed).reverse.length ≤ w.left := by
  rw [List.length_reverse]
  omega

theorem Window.lt_of_fits (h : (c :: reversed).length + w'.left ≤ w.left) : w'.left < w.left := by
  simp only [List.length_cons] at h
  omega

theorem Window.length_lt_of_le {t : Bytes} (ht : t.length ≤ w.left) (h : w.left ≤ w'.left)
    (hn : w'.left < n) : t.length < n := by
  omega

theorem Cut.rest_lt {cut : Cut w.left} (h : w.left < n) : cut.rest.left < n := by
  have := cut.fits
  omega

end

/-- Cuts off the octet at this place, whatever it is.  If none is in view, one more piece is taken,
and there need not be an octet then. -/
def Window.any? (w : Window) : Option (Cut w.left) :=
  let cut (w' : Window) (h : w'.left ≤ w.left) : Cut w.left :=
    ⟨w'.seen.take 1, w'.step, by
      simp only [left, step, List.length_take, List.length_tail] at *
      omega⟩
  if w.inView?.isSome then some (cut w (Nat.le_refl _))
  else
    match h : w.more? with
    | some w' => some (cut w' (left_more h))
    | none => none

/-- Reads letters behind the octets of `reversed`.  What comes with a new piece passes for any
letter. -/
def word? (n : Nat) (reversed : Bytes) (w : Window) (hw : reversed.length + w.left ≤ n) :
    (letters : Bytes) → Option (Cut n)
  | [] => some ⟨reversed, w, hw⟩
  | letter :: letters =>
    if w.inView?.all (· == letter) then
      match w.any? with
      | some ⟨octet, w', h⟩ =>
        word? n (octet ++ reversed) w' (by simp only [List.length_append]; omega) letters
      | none => none
    else none

end UiCodegen.Api.Reading
