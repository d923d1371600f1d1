import LogWatch.Yaml.Token

/-!
# Nodes of a YAML document

Tokens are put together to a tree of scalars, sequences and mappings with their tags.  An alias
holds the node that its anchor named when the alias was met; inside that very node it holds
nothing.

* `Node` — the tree;
* `Document.ofText?` — the only document of a text, with the number of its parts.
-/

namespace LogWatch.Yaml

/-- A node of a document. -/
inductive Node where
  | scalar (tag : Option String) (style : Style) (text : String)
  | sequence (tag : Option String) (items : List Node)
  | mapping (tag : Option String) (entries : List (Node × Node))
  | alias (target : Option Node)
deriving Inhabited

/-- A document: its root and the number of its parts, a collection having a start and an end. -/
structure Document where
  root : Node
  parts : Nat

namespace Node

/-- A node that an anchor names; the number tells anchors of one name apart. -/
structure Anchored where
  name : List Char
  number : Nat
  node : Option Node

/-- What is known while nodes are put together. -/
structure State where
  tokens : List Token
  anchors : List Anchored
  parts : Nat
  /-- What tag handles stand for. -/
  handles : List (List Char × List Char)

/-- The state with tokens left to read. -/
def State.at (s : State) (tokens : List Token) : State :=
  { s with tokens := tokens }

/-- The handles that need no directive. -/
def standardHandles : List (List Char × List Char) :=
  [(['!'], ['!']), (['!', '!'], "tag:yaml.org,2002:".toList)]

/-- A node without text. -/
def empty : Node :=
  .scalar none .plain ""

/-- The anchor and the tag in front of a node, in either order. -/
structure Properties where
  anchor : Option (List Char)
  tag : Option (List Char × List Char)

/-- The anchor and the tag in front of a node, with the tokens after them. -/
def properties : List Token → Properties × List Token
  | .anchor a :: .tag h t :: rest => (⟨some a, some (h, t)⟩, rest)
  | .tag h t :: .anchor a :: rest => (⟨some a, some (h, t)⟩, rest)
  | .anchor a :: rest => (⟨some a, none⟩, rest)
  | .tag h t :: rest => (⟨none, some (h, t)⟩, rest)
  | rest => (⟨none, none⟩, rest)

/-- A tag with its handle replaced by what the handle stands for. -/
def resolveTag? (handles : List (List Char × List Char)) :
    Option (List Char × List Char) → Option (Option String)
  | none => some none
  | some (handle, suffix) =>
    if handle.isEmpty then some (some (String.ofList suffix))
    else
      (handles.find? (·.1 == handle)).map fun (_, uri) => some (String.ofList (uri ++ suffix))

/-- The state in which an anchor names a node that has just begun. -/
def State.declare (s : State) (anchor : Option (List Char)) : State :=
  match anchor with
  | some name => { s with anchors := ⟨name, s.anchors.length, none⟩ :: s.anchors }
  | none => s

/-- The state in which the node that began when there were `number` anchors is complete. -/
def State.complete (s : State) (anchor : Option (List Char)) (number : Nat) (node : Node) : State :=
  match anchor with
  | some _ =>
    { s with
      anchors := s.anchors.map fun a =>
        if a.number = number then { a with node := some node } else a }
  | none => s

/-- The state with some more parts counted. -/
def State.count (s : State) (n : Nat) : State :=
  { s with parts := s.parts + n }

/-- An empty node at this point. -/
def emptyNode (s : State) : Node × State :=
  (empty, s.count 1)

/-- Tokens before which the value of a block entry is empty. -/
def endsBlockValue : Option Token → Bool
  | some .key | some .value | some .blockEnd => true
  | _ => false

mutual

/-- A node; the first argument bounds the depth of calls.  `block` allows block collections,
`indentless` a sequence at the column of the mapping around it. -/
def compose? : Nat → Bool → Bool → State → Option (Node × State)
  | 0, _, _, _ => none
  | fuel + 1, block, indentless, s =>
    match s.tokens with
    | .alias name :: rest =>
      match s.anchors.find? (·.name == name) with
      | some a => some (.alias a.node, (s.at rest).count 1)
      | none => none
    | tokens =>
      let (props, rest) := properties tokens
      match resolveTag? s.handles props.tag with
      | none => none
      | some tag =>
        let number := s.anchors.length
        let s := (s.at rest).declare props.anchor
        let close (r : Option (Node × State)) : Option (Node × State) :=
          r.map fun (node, s) => (node, s.complete props.anchor number node)
        match rest with
        | .scalar style text :: rest =>
          close (some (.scalar tag style (String.ofList text), (s.at rest).count 1))
        | .flowSequenceStart :: rest =>
          close ((flowItems? fuel true ((s.at rest).count 2)).map fun (items, s) =>
            (.sequence tag items, s))
        | .flowMappingStart :: rest =>
          close ((flowEntries? fuel true ((s.at rest).count 2)).map fun (entries, s) =>
            (.mapping tag entries, s))
        | .blockEntry :: _ =>
          if indentless then
            close ((indentlessItems? fuel (s.count 2)).map fun (items, s) =>
              (.sequence tag items, s))
          else if props.anchor.isSome || props.tag.isSome then
            close (some (.scalar tag .plain "", s.count 1))
          else none
        | .blockSequenceStart :: rest =>
          if block then
            close ((blockItems? fuel ((s.at rest).count 2)).map fun (items, s) =>
              (.sequence tag items, s))
          else if props.anchor.isSome || props.tag.isSome then
            close (some (.scalar tag .plain "", s.count 1))
          else none
        | .blockMappingStart :: rest =>
          if block then
            close ((blockEntries? fuel ((s.at rest).count 2)).map fun (entries, s) =>
              (.mapping tag entries, s))
          else if props.anchor.isSome || props.tag.isSome then
            close (some (.scalar tag .plain "", s.count 1))
          else none
        | _ =>
          if props.anchor.isSome || props.tag.isSome then
            close (some (.scalar tag .plain "", s.count 1))
          else none

/-- The items of a block sequence up to its end. -/
def blockItems? : Nat → State → Option (List Node × State)
  | 0, _ => none
  | fuel + 1, s =>
    match s.tokens with
    | .blockEntry :: rest =>
      let item := match rest.head? with
        | some .blockEntry | some .blockEnd => some (emptyNode (s.at rest))
        | _ => compose? fuel true false (s.at rest)
      match item with
      | none => none
      | some (item, s) => (blockItems? fuel s).map fun (items, s) => (item :: items, s)
    | .blockEnd :: rest => some ([], s.at rest)
    | _ => none

/-- The items of a sequence at the column of the mapping around it. -/
def indentlessItems? : Nat → State → Option (List Node × State)
  | 0, _ => none
  | fuel + 1, s =>
    match s.tokens with
    | .blockEntry :: rest =>
      let item := match rest.head? with
        | some .blockEntry | some .key | some .value | some .blockEnd =>
          some (emptyNode (s.at rest))
        | _ => compose? fuel true false (s.at rest)
      match item with
      | none => none
      | some (item, s) => (indentlessItems? fuel s).map fun (items, s) => (item :: items, s)
    | _ => some ([], s)

/-- The entries of a block mapping up to its end. -/
def blockEntries? : Nat → State → Option (List (Node × Node) × State)
  | 0, _ => none
  | fuel + 1, s =>
    let key := match s.tokens with
      | .key :: rest =>
        if endsBlockValue rest.head? then some (emptyNode (s.at rest))
        else compose? fuel true true (s.at rest)
      | _ => none
    match s.tokens with
    | .blockEnd :: rest => some ([], s.at rest)
    | _ =>
      match key with
      | none => none
      | some (key, s) =>
        let value := match s.tokens with
          | .value :: rest =>
            if endsBlockValue rest.head? then some (emptyNode (s.at rest))
            else compose? fuel true true (s.at rest)
          | _ => some (emptyNode s)
        match value with
        | none => none
        | some (value, s) =>
          (blockEntries? fuel s).map fun (entries, s) => ((key, value) :: entries, s)

/-- The items of a sequence in brackets; a single key with its value stands for a mapping. -/
def flowItems? : Nat → Bool → State → Option (List Node × State)
  | 0, _, _ => none
  | fuel + 1, first, s =>
    let tokens := match first, s.tokens with
      | true, tokens => some tokens
      | false, .flowSequenceEnd :: rest => some (.flowSequenceEnd :: rest)
      | false, .flowEntry :: rest => some rest
      | false, _ => none
    match tokens with
    | none => none
    | some (.flowSequenceEnd :: rest) => some ([], s.at rest)
    | some (.key :: rest) =>
      match flowPair? fuel ((s.at rest).count 2) with
      | none => none
      | some (pair, s) =>
        (flowItems? fuel false s).map fun (items, s) => (.mapping none [pair] :: items, s)
    | some tokens =>
      match compose? fuel false false (s.at tokens) with
      | none => none
      | some (item, s) => (flowItems? fuel false s).map fun (items, s) => (item :: items, s)

/-- A key with its value among the items of a sequence in brackets. -/
def flowPair? : Nat → State → Option ((Node × Node) × State)
  | 0, _ => none
  | fuel + 1, s =>
    let key := match s.tokens with
      | .value :: rest | .flowEntry :: rest | .flowSequenceEnd :: rest =>
        some (emptyNode (s.at rest))
      | _ => compose? fuel false false s
    match key with
    | none => none
    | some (key, s) =>
      let value := match s.tokens with
        | .value :: rest =>
          match rest with
          | .flowEntry :: _ | .flowSequenceEnd :: _ => some (emptyNode (s.at rest))
          | _ => compose? fuel false false (s.at rest)
        | _ => some (emptyNode s)
      value.map fun (value, s) => ((key, value), s)

/-- The entries of a mapping in braces. -/
def flowEntries? : Nat → Bool → State → Option (List (Node × Node) × State)
  | 0, _, _ => none
  | fuel + 1, first, s =>
    let tokens := match first, s.tokens with
      | true, tokens => some tokens
      | false, .flowMappingEnd :: rest => some (.flowMappingEnd :: rest)
      | false, .flowEntry :: rest => some rest
      | false, _ => none
    match tokens with
    | none => none
    | some (.flowMappingEnd :: rest) => some ([], s.at rest)
    | some (.key :: rest) =>
      let key := match rest with
        | .value :: _ | .flowEntry :: _ | .flowMappingEnd :: _ => some (emptyNode (s.at rest))
        | _ => compose? fuel false false (s.at rest)
      match key with
      | none => none
      | some (key, s) =>
        let value := match s.tokens with
          | .value :: rest =>
            match rest with
            | .flowEntry :: _ | .flowMappingEnd :: _ => some (emptyNode (s.at rest))
            | _ => compose? fuel false false (s.at rest)
          | _ => some (emptyNode s)
        match value with
        | none => none
        | some (value, s) =>
          (flowEntries? fuel false s).map fun (entries, s) => ((key, value) :: entries, s)
    | some tokens =>
      match compose? fuel false false (s.at tokens) with
      | none => none
      | some (key, s) =>
        let (value, s) := emptyNode s
        (flowEntries? fuel false s).map fun (entries, s) => ((key, value) :: entries, s)

end

end Node

namespace Document

/-- Directives in front of a document: at most one version, and each handle once. -/
def directives? (versioned : Bool) (handles : List (List Char × List Char)) :
    List Token → Option (Bool × List (List Char × List Char) × List Token)
  | .versionDirective major minor :: rest =>
    if versioned || major ≠ 1 || (minor ≠ 1 && minor ≠ 2) then none
    else directives? true handles rest
  | .tagDirective handle uri :: rest =>
    if handles.any (·.1 == handle) then none
    else directives? versioned (handles ++ [(handle, uri)]) rest
  | tokens => some (versioned, handles, tokens)

/-- The standard handles as far as directives do not replace them. -/
def withStandard (handles : List (List Char × List Char)) : List (List Char × List Char) :=
  handles ++ Node.standardHandles

/-- The root of a document and the tokens after it. -/
def root? (tokens : List Token) : Option (Document × List Token) := do
  let (versioned, handles, rest) ← directives? false [] tokens
  let start (tokens : List Token) : Node.State := ⟨tokens, [], 0, withStandard handles⟩
  let fuel := 4 * tokens.length + 4
  match rest with
  | [] => if versioned || !handles.isEmpty then none else some (⟨Node.empty, 1⟩, [])
  | .documentStart :: rest =>
    match rest.head? with
    | none | some (.versionDirective _ _) | some (.tagDirective _ _) | some .documentStart
    | some .documentEnd => some (⟨Node.empty, 1⟩, rest)
    | _ =>
      let (root, s) ← Node.compose? fuel true false (start rest)
      some (⟨root, s.parts⟩, s.tokens)
  | rest =>
    if versioned || !handles.isEmpty then none
    else
      let (root, s) ← Node.compose? fuel true false (start rest)
      some (⟨root, s.parts⟩, s.tokens)

/-- The only document of a text; an empty text is a document with an empty root. -/
def ofChars? (cs : List Char) : Option Document := do
  let tokens ← Token.scan? cs
  let (document, rest) ← root? tokens
  let rest := rest.dropWhile fun t => t matches .documentEnd
  if rest.isEmpty then some document else none

/-- The only document of a text. -/
def ofText? (s : String) : Option Document :=
  ofChars? s.toList

end Document

end LogWatch.Yaml
