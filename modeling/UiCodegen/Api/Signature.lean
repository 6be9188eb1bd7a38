import UiCodegen.Api.Index

/-!
# Signatures

Functions of one signature share an invoker.  A signature is the tuple of the type returned and the
parameter types; its key identifies it among the canonical types of one API.
-/

namespace UiCodegen.Api

/-- The type returned and the types of the parameters. -/
structure Signature where
  result : Bytes
  args : List Bytes
  deriving DecidableEq, Repr

namespace Signature

/-- What tells signatures apart. -/
def key (s : Signature) : Bytes := s.result ++ "(" ++ Bytes.join "," s.args ++ ")"

/-- The signature as the type of a pointer to a function. -/
def text (s : Signature) : Bytes :=
  s.result ++ " (*)(" ++ (if s.args.isEmpty then Bytes.ofString "void"
    else Bytes.join ", " s.args) ++ ")"

end Signature

/-- The signature of a function. -/
def FunctionInfo.signature (f : FunctionInfo) : Signature := ⟨f.result, f.params.map (·.ctype)⟩

/-- Functions of one signature. -/
structure SignatureGroup where
  signature : Signature
  functions : List FunctionInfo
  deriving Repr

/-- Adds a function to the group of its signature. -/
def addToGroups (f : FunctionInfo) : List SignatureGroup → List SignatureGroup
  | [] => [⟨f.signature, [f]⟩]
  | g :: rest =>
    if g.signature.key == f.signature.key then { g with functions := g.functions ++ [f] } :: rest
    else g :: addToGroups f rest

/-- Functions in groups, by signature. -/
def groupBySignature (functions : List FunctionInfo) : List SignatureGroup :=
  functions.foldl (fun groups f => addToGroups f groups) []

end UiCodegen.Api
