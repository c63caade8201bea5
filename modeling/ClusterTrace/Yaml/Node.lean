import ClusterTrace.Yaml.Token

/-!
# YAML documents

The value that the tokens of a text stand for: scalars, sequences and mappings. A name given to a
node stands for its value wherever it is used later; inside of the node itself it stands for
nothing that could be read. Reading follows the grammar from the tokens on: every function takes
what it reads from the front of the tokens and gives back the rest.
-/

namespace ClusterTrace

/-- The value of a document or of a part of it. -/
inductive Yaml where
  /-- A scalar, with its tag and whether it is written plainly. -/
  | scalar (tag : Option Yaml.Tag) (plain : Bool) (text : String)
  | sequence (items : List Yaml)
  /-- A mapping with its pairs in order; keys may repeat. -/
  | mapping (pairs : List (Yaml × Yaml))
  /-- The name of a node that it stands in. -/
  | enclosing

namespace Yaml

/-- What stands in an empty place. -/
def nothing : Yaml := scalar none true "~"

/-! ## Names -/

/-- The names given to nodes so far. -/
structure Names where
  /-- The names with the numbers of their nodes, the latest first. -/
  given : List (String × Nat)
  /-- The nodes that have been read, with their numbers. -/
  nodes : List (Nat × Yaml)

namespace Names

def empty : Names := ⟨[], []⟩

/-- Gives a name to the node that follows. -/
def give (names : Names) : Option String → Names
  | none => names
  | some name => { names with given := (name, names.given.length) :: names.given }

/-- Keeps the node that the last name was given to, if one was, and which was read with the names
that have been given meanwhile. -/
def keep (names later : Names) (name : Option String) (node : Yaml) : Names :=
  if name.isSome then { later with nodes := (names.given.length, node) :: later.nodes } else later

def meaning? (names : Names) (name : String) : Option Yaml :=
  (names.given.lookup name).map fun number => (names.nodes.lookup number).getD enclosing

end Names

/-! ## Nodes -/

/-- What reading a part of the tokens gives: its value, the names, and the other tokens. -/
abbrev Reading (α : Type) := Option (α × Names × List Token)

/-- The name and the tag before a node, in either order. -/
def takeProperties : List Token → Option String × Option Tag × List Token
  | .anchor name :: .tag tag :: ts => (some name, some tag, ts)
  | .tag tag :: .anchor name :: ts => (some name, some tag, ts)
  | .anchor name :: ts => (some name, none, ts)
  | .tag tag :: ts => (none, some tag, ts)
  | ts => (none, none, ts)

/-- The place of a key or a value in a block mapping is empty before these tokens. -/
def emptyInMapping : List Token → Bool
  | .key :: _ | .value :: _ | .blockEnd :: _ => true
  | _ => false

/-- The place of an item in a block sequence is empty before these tokens. Without indentation of
its own the sequence ends where the mapping around it goes on. -/
def emptyInSequence (indented : Bool) : List Token → Bool
  | .item :: _ | .blockEnd :: _ => true
  | .key :: _ | .value :: _ => !indented
  | _ => false

/-- The place of a value in a flow collection is empty before these tokens. -/
def emptyInFlow (last : Token) : List Token → Bool
  | t :: _ => t = .comma || t = last
  | [] => false

mutual

/-- Reads a node. Block collections and sequences without indentation are not allowed everywhere. -/
def takeNode : Nat → (block unindented : Bool) → Names → List Token → Reading Yaml
  | 0, _, _, _, _ => none
  | n + 1, block, unindented, names, ts =>
    match ts with
    | .reference name :: ts => (names.meaning? name).map fun node => (node, names, ts)
    | _ =>
      let (name, tag, ts) := takeProperties ts
      (takeContent n block unindented tag name.isSome (names.give name) ts).map
        fun (node, later, ts) => (node, names.keep later name node, ts)

/-- Reads a node behind its tag and its name. With either of them it may be empty. -/
def takeContent : Nat → (block unindented : Bool) → Option Tag → (named : Bool) → Names →
    List Token → Reading Yaml
  | 0, _, _, _, _, _, _ => none
  | n + 1, block, unindented, tag, named, names, ts =>
    match ts with
    | .scalar plain text :: ts => some (scalar tag plain text, names, ts)
    | .flowSequence :: ts => (takeFlowItems n true names ts).map fun (xs, r) => (sequence xs, r)
    | .flowMapping :: ts => (takeFlowPairs n true names ts).map fun (ps, r) => (mapping ps, r)
    | ts =>
      match unindented, block, ts with
      | true, _, .item :: _ => (takeItems n false names ts).map fun (xs, r) => (sequence xs, r)
      | _, true, .blockSequence :: ts =>
        (takeItems n true names ts).map fun (xs, r) => (sequence xs, r)
      | _, true, .blockMapping :: ts => (takePairs n names ts).map fun (ps, r) => (mapping ps, r)
      | _, _, _ => if named || tag.isSome then some (scalar tag true "", names, ts) else none

/-- Reads the items of a block sequence up to its end, which without indentation is no token. -/
def takeItems : Nat → (indented : Bool) → Names → List Token → Reading (List Yaml)
  | 0, _, _, _ => none
  | n + 1, indented, names, ts =>
    match ts with
    | .item :: ts =>
      let item :=
        if emptyInSequence indented ts then some (nothing, names, ts)
        else takeNode n true false names ts
      item.bind fun (x, names, ts) =>
        (takeItems n indented names ts).map fun (xs, r) => (x :: xs, r)
    | ts =>
      match indented, ts with
      | true, .blockEnd :: ts => some ([], names, ts)
      | true, _ => none
      | false, ts => some ([], names, ts)

/-- Reads the pairs of a block mapping up to its end. -/
def takePairs : Nat → Names → List Token → Reading (List (Yaml × Yaml))
  | 0, _, _ => none
  | n + 1, names, ts =>
    let goOn := fun (k : Yaml) (names : Names) (ts : List Token) =>
      (takeBlockValue n names ts).bind fun (v, names, ts) =>
        (takePairs n names ts).map fun (ps, r) => ((k, v) :: ps, r)
    match ts with
    | .blockEnd :: ts => some ([], names, ts)
    | .key :: ts =>
      if emptyInMapping ts then goOn nothing names ts
      else (takeNode n true true names ts).bind fun (k, names, ts) => goOn k names ts
    | .value :: _ => goOn nothing names ts
    | _ => none

/-- Reads the value behind a key of a block mapping, which may be missing. -/
def takeBlockValue : Nat → Names → List Token → Reading Yaml
  | 0, _, _ => none
  | n + 1, names, ts =>
    match ts with
    | .value :: ts =>
      if emptyInMapping ts then some (nothing, names, ts) else takeNode n true true names ts
    | ts => some (nothing, names, ts)

/-- Reads the value behind a key of a flow collection with a certain end. It may be missing. -/
def takeFlowValue : Nat → (last : Token) → Names → List Token → Reading Yaml
  | 0, _, _, _ => none
  | n + 1, last, names, ts =>
    match ts with
    | .value :: ts =>
      if emptyInFlow last ts then some (nothing, names, ts) else takeNode n false false names ts
    | ts => some (nothing, names, ts)

/-- Reads the items of a flow sequence up to its end. -/
def takeFlowItems : Nat → (first : Bool) → Names → List Token → Reading (List Yaml)
  | 0, _, _, _ => none
  | n + 1, first, names, ts =>
    let goOn := fun (names : Names) (ts : List Token) =>
      match ts with
      | .flowSequenceEnd :: ts => some ([], names, ts)
      | ts =>
        (takeFlowItem n names ts).bind fun (x, names, ts) =>
          (takeFlowItems n false names ts).map fun (xs, r) => (x :: xs, r)
    match first, ts with
    | true, ts => goOn names ts
    | false, .comma :: ts => goOn names ts
    | false, .flowSequenceEnd :: ts => some ([], names, ts)
    | false, _ => none

/-- Reads an item of a flow sequence: a node, or a single pair behind the mark of a key. The key of
such a pair may be missing, and then so is the token in its place. -/
def takeFlowItem : Nat → Names → List Token → Reading Yaml
  | 0, _, _ => none
  | n + 1, names, ts =>
    match ts with
    | .key :: ts =>
      let key := match ts with
        | .value :: ts | .comma :: ts | .flowSequenceEnd :: ts => some (nothing, names, ts)
        | ts => takeNode n false false names ts
      key.bind fun (k, names, ts) =>
        (takeFlowValue n .flowSequenceEnd names ts).map fun (v, r) => (mapping [(k, v)], r)
    | ts => takeNode n false false names ts

/-- Reads the pairs of a flow mapping up to its end. -/
def takeFlowPairs : Nat → (first : Bool) → Names → List Token → Reading (List (Yaml × Yaml))
  | 0, _, _, _ => none
  | n + 1, first, names, ts =>
    let goOn := fun (names : Names) (ts : List Token) =>
      match ts with
      | .flowMappingEnd :: ts => some ([], names, ts)
      | ts =>
        (takeFlowPair n names ts).bind fun (p, names, ts) =>
          (takeFlowPairs n false names ts).map fun (ps, r) => (p :: ps, r)
    match first, ts with
    | true, ts => goOn names ts
    | false, .comma :: ts => goOn names ts
    | false, .flowMappingEnd :: ts => some ([], names, ts)
    | false, _ => none

/-- Reads a pair of a flow mapping. Without the mark of a key it has no value. -/
def takeFlowPair : Nat → Names → List Token → Reading (Yaml × Yaml)
  | 0, _, _ => none
  | n + 1, names, ts =>
    let valueOf := fun (k : Yaml) (names : Names) (ts : List Token) =>
      (takeFlowValue n .flowMappingEnd names ts).map fun (v, r) => ((k, v), r)
    match ts with
    | .key :: ts =>
      if emptyInFlow .flowMappingEnd ts || ts.head? = some .value then valueOf nothing names ts
      else (takeNode n false false names ts).bind fun (k, names, ts) => valueOf k names ts
    | .value :: _ => valueOf nothing names ts
    | ts => (takeNode n false false names ts).map fun (k, r) => ((k, nothing), r)

end

/-! ## Documents -/

/-- A document is empty before these tokens. -/
def emptyDocument : List Token → Bool
  | [] | .directive :: _ | .documentStart :: _ | .documentEnd :: _ => true
  | _ => false

/-- Reads a document without the marks before it. Of four calls within one another at least one
reads a token, which bounds their depth. -/
def takeDocument (marked : Bool) (ts : List Token) : Reading Yaml :=
  if marked && emptyDocument ts then some (nothing, .empty, ts)
  else takeNode (4 * ts.length + 4) true false .empty ts

/-- The only document of some tokens. Directives stand before a document with a mark. -/
def ofTokens? (ts : List Token) : Option Yaml :=
  let document :=
    match ts with
    | [] => none
    | .directive :: _ | .documentStart :: _ =>
      match ts.dropWhile (· = Token.directive) with
      | .documentStart :: ts => takeDocument true ts
      | _ => none
    | ts => takeDocument false ts
  document.bind fun (node, _, ts) => if ts.all (· = Token.documentEnd) then some node else none

/-- Reads a text that holds one document. -/
def read? (s : List Char) : Option Yaml := (tokens? s).bind ofTokens?

end Yaml

end ClusterTrace
