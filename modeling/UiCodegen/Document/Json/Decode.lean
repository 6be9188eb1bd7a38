import UiCodegen.Document.Json.Token
import UiCodegen.Document.Value

/-!
# Reading JSON documents

Builds a tree from the tokens of a document.  What the nodes of the tree are is left to a builder,
which is handed each scalar and each finished container. Elements and pairs keep their input order,
duplicates included.  Each step hands back a reader with less input than it was given, so reading
ends for every input and needs no limit on nesting.

A fault carries the pointer of the value that was being read.  An array asks whether it goes on
before it asks for an element, so a missing `]` is reported at the array and a missing element at
the element.
-/

namespace UiCodegen.Document.Json

/-- How the nodes of a tree are made. -/
structure Builder (α : Type) where
  null : α
  bool : Bool → α
  num : Bytes → α
  /-- A string, from its text and from the readers before and behind it. -/
  str : Bytes → Reader → Reader → α
  arr : List α → α
  obj : List (Bytes × α) → α

def Stop.fault (stop : Stop) (at_ : Pointer) : Fault :=
  { offset := stop.offset, pointer := at_, cause := stop.cause }

mutual

def readValue {α : Type} (b : Builder α) (at_ : Pointer) (r : Reader) :
    Except Fault { p : α × Reader // p.2.rest.length < r.rest.length } :=
  match h : r.next with
  | .error stop => .error (stop.fault at_)
  | .ok (token, r₁) =>
    have shrunk : r₁.rest.length < r.rest.length := Reader.next_shrinks h
    match token with
    | .openObject =>
      match readFields b at_ [] r₁ with
      | .error fault => .error fault
      | .ok ⟨(pairs, r₂), h₂⟩ =>
        .ok ⟨(b.obj pairs, r₂), Nat.lt_trans h₂ shrunk⟩
    | .openArray =>
      match readItems b at_ 0 [] r₁ with
      | .error fault => .error fault
      | .ok ⟨(items, r₂), h₂⟩ =>
        .ok ⟨(b.arr items, r₂), Nat.lt_trans h₂ shrunk⟩
    | .closeArray =>
      .error { offset := r₁.offset, pointer := at_, cause := .unexpectedDelimiter 93 }
    | .closeObject =>
      .error { offset := r₁.offset, pointer := at_, cause := .unexpectedDelimiter 125 }
    | .str text => .ok ⟨(b.str text r r₁, r₁), shrunk⟩
    | .num literal => .ok ⟨(b.num literal, r₁), shrunk⟩
    | .bool v => .ok ⟨(b.bool v, r₁), shrunk⟩
    | .null => .ok ⟨(b.null, r₁), shrunk⟩
termination_by (r.rest.length, 0)

/-- Reads the elements of an array from number `i` on, and its closing bracket; `read` holds those
before, last first. -/
def readItems {α : Type} (b : Builder α) (at_ : Pointer) (i : Nat) (read : List α) (r : Reader) :
    Except Fault { p : List α × Reader // p.2.rest.length < r.rest.length } :=
  if r.more then
    match readValue b (at_.index i) r with
    | .error fault => .error fault
    | .ok ⟨(v, r₁), h₁⟩ =>
      match readItems b at_ (i + 1) (v :: read) r₁ with
      | .error fault => .error fault
      | .ok ⟨p, h₂⟩ => .ok ⟨p, Nat.lt_trans h₂ h₁⟩
  else
    match h : r.next with
    | .error stop => .error (stop.fault at_)
    | .ok (_, r₁) => .ok ⟨(read.reverse, r₁), Reader.next_shrinks h⟩
termination_by (r.rest.length, 1)

/-- Reads the remaining pairs of an object and its closing brace; `read` holds those before, last
first. -/
def readFields {α : Type} (b : Builder α) (at_ : Pointer) (read : List (Bytes × α)) (r : Reader) :
    Except Fault { p : List (Bytes × α) × Reader // p.2.rest.length < r.rest.length } :=
  if r.more then
    match h : r.next with
    | .error stop => .error (stop.fault at_)
    | .ok (.str key, r₁) =>
      have shrunk : r₁.rest.length < r.rest.length := Reader.next_shrinks h
      match readValue b (at_.key key) r₁ with
      | .error fault => .error fault
      | .ok ⟨(v, r₂), h₂⟩ =>
        have shrunk₂ : r₂.rest.length < r.rest.length := Nat.lt_trans h₂ shrunk
        match readFields b at_ ((key, v) :: read) r₂ with
        | .error fault => .error fault
        | .ok ⟨p, h₃⟩ => .ok ⟨p, Nat.lt_trans h₃ shrunk₂⟩
    | .ok (_, r₁) => .error { offset := r₁.offset, pointer := at_, cause := .keyNotString }
  else
    match h : r.next with
    | .error stop => .error (stop.fault at_)
    | .ok (_, r₁) => .ok ⟨(read.reverse, r₁), Reader.next_shrinks h⟩
termination_by (r.rest.length, 1)

end

/-- What stands behind the one value of a document: nothing, or trailing data. -/
def expectEnd (r : Reader) : Except Fault Unit :=
  match r.next with
  | .error { cause := .endOfInput, .. } => .ok ()
  | .error _ => .error { offset := r.skipSpace.offset, cause := .trailingData }
  | .ok (_, r') => .error { offset := r'.offset, cause := .trailingData }

def valueBuilder : Builder Value where
  null := .null
  bool := .bool
  num := .num
  str text _ _ := .str text
  arr := .arr
  obj := .obj

def decode (s : Bytes) : Except Fault Value :=
  match readValue valueBuilder .root { rest := s } with
  | .error fault => .error fault
  | .ok ⟨(v, r), _⟩ =>
    match expectEnd r with
    | .error fault => .error fault
    | .ok _ => .ok v

end UiCodegen.Document.Json
