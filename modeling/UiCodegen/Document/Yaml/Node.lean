import UiCodegen.Document.Yaml.Token

/-!
# Nodes of YAML

The tree that the tokens of a document describe.  An alias refers to an anchor by number: the anchor
is known from where its node begins, so an alias can stand inside the node it refers to.

Reading a node either consumes a token or moves on to a rule that does, so a few steps for each
token are enough.
-/

namespace UiCodegen.Document.Yaml

/-- A node, with the line where it begins, counted from one. -/
inductive Node where
  | scalar (line : Nat) (tag text : Bytes) (plain : Bool)
  | sequence (line : Nat) (items : List Node)
  | mapping (line : Nat) (pairs : List (Node × Node))
  | alias (line : Nat) (anchor : Nat)
  deriving Repr

def Node.line : Node → Nat
  | .scalar line _ _ _ => line
  | .sequence line _ => line
  | .mapping line _ => line
  | .alias line _ => line

/-- How far the tokens have been read. -/
structure NodeReader where
  position : Nat := 0
  /-- The anchors seen so far with their numbers, latest first. -/
  anchors : List (Bytes × Nat) := []
  nodes : List (Nat × Node) := []
  handles : List (Bytes × Bytes) := [("!", "!"), ("!!", "tag:yaml.org,2002:")]

abbrev NodeM := StateT NodeReader (Except Stop)

namespace NodeM

def peek (ts : Tokens) : NodeM Placed := do
  match ts.get (← get).position with
  | .ok placed => pure placed
  | .error stop => throw stop

def skip : NodeM Unit := modify fun r => { r with position := r.position + 1 }

/-- A fault of something that began on line `start`, found on line `found`. -/
def fail {α : Type} (start found : Nat) (problem : Bytes) : NodeM α :=
  throw { line := if start != 0 then start else found, problem }

def missing (line : Nat) : Node := .scalar (line + 1) [] [] true

def fullTag (start found : Nat) (handle ending : Bytes) : NodeM Bytes := do
  if handle.isEmpty then pure ending
  else match (← get).handles.lookup handle with
    | some lead => pure (lead ++ ending)
    | none => fail start found "found undefined tag handle"

def noteAnchor (name : Bytes) : NodeM Nat := do
  let r ← get
  let number := r.anchors.length
  set { r with anchors := (name, number) :: r.anchors }
  pure number

/-- What stands in front of a node. -/
structure Properties where
  line : Nat
  anchor : Option Bytes := none
  tag : Option (Bytes × Bytes) := none
  deriving Repr

/-- Reads an anchor and a tag, in either order. -/
def properties (ts : Tokens) : NodeM Properties := do
  let first ← peek ts
  let none_ : Properties := { line := first.line }
  match first.token with
  | .anchor name =>
    skip
    let second ← peek ts
    match second.token with
    | .tag handle ending =>
      skip
      pure { none_ with anchor := some name, tag := some (handle, ending) }
    | _ => pure { none_ with anchor := some name }
  | .tag handle ending =>
    skip
    let second ← peek ts
    match second.token with
    | .anchor name =>
      skip
      pure { none_ with anchor := some name, tag := some (handle, ending) }
    | _ => pure { none_ with tag := some (handle, ending) }
  | _ => pure none_

def complete (anchor : Option Nat) (node : Node) : NodeM Node := do
  match anchor with
  | some number => modify fun r => { r with nodes := (number, node) :: r.nodes }
  | none => pure ()
  pure node

def contentOr (props : Properties) (found : Placed) (anchor : Option Nat)
    (tag : Bytes) : NodeM Node := do
  if anchor.isSome || !tag.isEmpty then complete anchor (.scalar (props.line + 1) tag [] true)
  else fail props.line found.line "did not find expected node content"

variable (ts : Tokens)

mutual

/-- Reads a node.  In a block, collections may begin; as the value of a mapping, a sequence may
stand at the indentation of the mapping. -/
def node : (steps : Nat) → (block indentless : Bool) → NodeM Node
  | 0, _, _ => fail 0 0 []
  | steps + 1, block, indentless => do
    let first ← peek ts
    match first.token with
    | .alias name =>
      skip
      match (← get).anchors.lookup name with
      | some number => pure (.alias (first.line + 1) number)
      | none => fail 0 0 ("unknown anchor '" ++ name ++ "' referenced")
    | _ =>
      let props ← properties ts
      let found ← peek ts
      let tag ← match props.tag with
        | some (handle, ending) => fullTag props.line found.line handle ending
        | none => pure []
      let anchor ← props.anchor.mapM noteAnchor
      let line := props.line + 1
      match found.token with
      | .scalar text plain =>
        skip
        complete anchor (.scalar line tag text plain)
      | .flowSequenceStart =>
        skip
        complete anchor (.sequence line (← flowItems props.line steps true []))
      | .flowMappingStart =>
        skip
        complete anchor (.mapping line (← flowPairs props.line steps true []))
      | .blockEntry =>
        if indentless then complete anchor (.sequence line (← indentlessItems steps []))
        else contentOr props found anchor tag
      | .blockSequenceStart =>
        if block then
          skip
          complete anchor (.sequence line (← blockItems props.line steps []))
        else contentOr props found anchor tag
      | .blockMappingStart =>
        if block then
          skip
          complete anchor (.mapping line (← blockPairs props.line steps []))
        else contentOr props found anchor tag
      | _ => contentOr props found anchor tag
termination_by structural steps => steps

def blockItems (start : Nat) : (steps : Nat) → List Node → NodeM (List Node)
  | 0, _ => fail 0 0 []
  | steps + 1, items => do
    let first ← peek ts
    match first.token with
    | .blockEntry =>
      skip
      match (← peek ts).token with
      | .blockEntry | .blockEnd => blockItems start steps (missing first.line :: items)
      | _ => blockItems start steps ((← node steps true false) :: items)
    | .blockEnd =>
      skip
      pure items.reverse
    | _ => fail start first.line "did not find expected '-' indicator"
termination_by structural steps => steps

def indentlessItems : (steps : Nat) → List Node → NodeM (List Node)
  | 0, _ => fail 0 0 []
  | steps + 1, items => do
    let first ← peek ts
    match first.token with
    | .blockEntry =>
      skip
      match (← peek ts).token with
      | .blockEntry | .key | .value | .blockEnd =>
        indentlessItems steps (missing first.line :: items)
      | _ => indentlessItems steps ((← node steps true false) :: items)
    | _ => pure items.reverse
termination_by structural steps => steps

def blockPart (line : Nat) : (steps : Nat) → NodeM Node
  | 0 => fail 0 0 []
  | steps + 1 => do
    match (← peek ts).token with
    | .key | .value | .blockEnd => pure (missing line)
    | _ => node steps true true
termination_by structural steps => steps

def blockPairs (start : Nat) : (steps : Nat) → List (Node × Node) → NodeM (List (Node × Node))
  | 0, _ => fail 0 0 []
  | steps + 1, pairs => do
    let first ← peek ts
    match first.token with
    | .key =>
      skip
      let key ← blockPart first.line steps
      let second ← peek ts
      match second.token with
      | .value =>
        skip
        let value ← blockPart second.line steps
        blockPairs start steps ((key, value) :: pairs)
      | _ => blockPairs start steps ((key, missing second.line) :: pairs)
    | .blockEnd =>
      skip
      pure pairs.reverse
    | _ => fail start first.line "did not find expected key"
termination_by structural steps => steps

/-- The entries of a sequence in brackets; `first` tells whether none has been read. -/
def flowItems (start : Nat) : (steps : Nat) → (first : Bool) → List Node → NodeM (List Node)
  | 0, _, _ => fail 0 0 []
  | steps + 1, first, items => do
    let token ← peek ts
    if token.token == .flowSequenceEnd then
      skip
      pure items.reverse
    else
      if !first then
        if token.token == .flowEntry then skip
        else fail start token.line "did not find expected ',' or ']'"
      let token ← peek ts
      match token.token with
      | .flowSequenceEnd =>
        skip
        pure items.reverse
      | .key =>
        skip
        flowItems start steps false ((← flowPair token.line steps) :: items)
      | _ => flowItems start steps false ((← node steps false false) :: items)
termination_by structural steps => steps

/-- A single pair as an entry of a sequence in brackets, read behind the mark of its key.  If the
key is not there, the token in its place is passed over. -/
def flowPair (line : Nat) : (steps : Nat) → NodeM Node
  | 0 => fail 0 0 []
  | steps + 1 => do
    let first ← peek ts
    let key ← match first.token with
      | .value | .flowEntry | .flowSequenceEnd => do
        skip
        pure (missing first.line)
      | _ => node steps false false
    let second ← peek ts
    let value ← match second.token with
      | .value => do
        skip
        match (← peek ts).token with
        | .flowEntry | .flowSequenceEnd => pure (missing second.line)
        | _ => node steps false false
      | _ => pure (missing second.line)
    pure (.mapping (line + 1) [(key, value)])
termination_by structural steps => steps

/-- The pairs of a mapping in braces; `first` tells whether none has been read. -/
def flowPairs (start : Nat) :
    (steps : Nat) → (first : Bool) → List (Node × Node) → NodeM (List (Node × Node))
  | 0, _, _ => fail 0 0 []
  | steps + 1, first, pairs => do
    let token ← peek ts
    if token.token == .flowMappingEnd then
      skip
      pure pairs.reverse
    else
      if !first then
        if token.token == .flowEntry then skip
        else fail start token.line "did not find expected ',' or '\x7d'"
      let token ← peek ts
      match token.token with
      | .flowMappingEnd =>
        skip
        pure pairs.reverse
      | .key =>
        skip
        let key ← match (← peek ts).token with
          | .value | .flowEntry | .flowMappingEnd => pure (missing token.line)
          | _ => node steps false false
        let second ← peek ts
        let value ← match second.token with
          | .value => do
            skip
            match (← peek ts).token with
            | .flowEntry | .flowMappingEnd => pure (missing second.line)
            | _ => node steps false false
          | _ => pure (missing second.line)
        flowPairs start steps false ((key, value) :: pairs)
      | _ =>
        let key ← node steps false false
        flowPairs start steps false ((key, missing (← peek ts).line) :: pairs)
termination_by structural steps => steps

end

def directives (ts : Tokens) : (steps : Nat) → (version : Bool) → (own : List (Bytes × Bytes)) →
    NodeM Unit
  | 0, _, _ => fail 0 0 []
  | steps + 1, version, own => do
    let token ← peek ts
    match token.token with
    | .versionDirective major minor =>
      if version then fail 0 token.line "found duplicate %YAML directive"
      else if major != 1 || minor != 1 then fail 0 token.line "found incompatible YAML document"
      else
        skip
        directives ts steps true own
    | .tagDirective handle lead =>
      if (own.lookup handle).isSome then fail 0 token.line "found duplicate %TAG directive"
      else
        skip
        directives ts steps version ((handle, lead) :: own)
    | .documentStart =>
      skip
      modify fun r => { r with handles := own ++ r.handles }
    | _ => fail 0 token.line "did not find expected <document start>"

def document (ts : Tokens) : NodeM (Option Node) := do
  let steps := 4 * ts.tokens.size + 16
  skip
  let first ← peek ts
  match first.token with
  | .streamEnd => pure none
  | .versionDirective .. | .tagDirective .. | .documentStart =>
    directives ts steps false []
    let second ← peek ts
    let root ← match second.token with
      | .versionDirective .. | .tagDirective .. | .documentStart | .documentEnd | .streamEnd =>
        pure (missing second.line)
      | _ => node ts steps true false
    let _ ← peek ts
    pure (some root)
  | _ =>
    let root ← node ts steps true false
    let _ ← peek ts
    pure (some root)

end NodeM

/-- The first document of a text: its root, if it has one, and the nodes of its anchors. -/
def Node.read (ts : Tokens) : Except Stop (Option Node × List (Nat × Node)) :=
  match (NodeM.document ts).run {} with
  | .ok (root, r) => .ok (root, r.nodes)
  | .error stop => .error stop

end UiCodegen.Document.Yaml
