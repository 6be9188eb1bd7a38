import UiCodegen.Document.Pointer
import UiCodegen.Text.Quoted

/-!
# Malformed documents

Why a text is no document.  A fault names the file if there is one, the offset where that is known,
the place in the tree that was being read, and the cause.
-/

namespace UiCodegen.Document

/-- What is wrong with a document. -/
inductive Cause where
  | endOfInput
  | endInsideToken
  /-- An octet that may not stand where it does; `context` says what was expected. -/
  | badOctet (octet : UInt8) (context : Bytes)
  /-- A closing mark where a value was expected. -/
  | unexpectedDelimiter (octet : UInt8)
  | keyNotString
  | trailingData
  /-- A block-style document with no content. -/
  | emptyDocument
  /-- A block-style document that breaks the rules of its notation; `line` is zero if unknown. -/
  | badLayout (line : Nat) (problem : Bytes)
  /-- A node of a block-style document that has no value. -/
  | badNode (line : Nat) (problem : Bytes)
  | endlessAlias
  deriving DecidableEq, Repr

def Cause.message : Cause → Bytes
  | .endOfInput => "unexpected end of input"
  | .endInsideToken => "unexpected EOF"
  | .badOctet octet context => "invalid character " ++ Quoted.quoteOctet octet ++ context
  | .unexpectedDelimiter octet => "unexpected delimiter " ++ Quoted.quote [octet]
  | .keyNotString => "object key is not a string"
  | .trailingData => "unexpected data after top-level value"
  | .emptyDocument => "empty document"
  | .badLayout line problem =>
    "yaml: " ++ Bytes.onlyIf (line != 0) ("line " ++ Bytes.ofNat line ++ ": ") ++ problem
  | .badNode line problem => "line " ++ Bytes.ofNat line ++ ": " ++ problem
  | .endlessAlias => "alias refers to itself"

/-- A malformed document. -/
structure Fault where
  /-- The file it was read from; empty if there is none. -/
  file : Bytes := []
  /-- The offset in the input; zero if unknown. -/
  offset : Nat := 0
  pointer : Pointer := {}
  cause : Cause
  deriving DecidableEq, Repr

def Fault.message (f : Fault) : Bytes :=
  Bytes.onlyIf (!f.file.isEmpty) (f.file ++ ": ") ++
  Bytes.onlyIf (f.offset != 0) ("offset " ++ Bytes.ofNat f.offset ++ ": ") ++
  f.cause.message ++ " (at " ++ f.pointer.display ++ ")"

end UiCodegen.Document
