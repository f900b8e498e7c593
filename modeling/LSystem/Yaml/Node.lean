import LSystem.Yaml.Token
set_option autoImplicit false

/-! # Nodes: what a YAML text says

A node is a scalar, a sequence or a mapping. Nodes are read off the tokens by the grammar of the
format; where it allows a value to be left out, an empty plain scalar stands in for it. A text holds
one document at most. -/

namespace LSystem.Yaml

/-- A value of a YAML text. Of the ways to write a scalar only plain and not plain are told apart. -/
inductive Node where
  | scalar (text : String) (plain : Bool)
  | sequence (items : List Node)
  | mapping (entries : List (Node × Node))
  deriving Inhabited

namespace Node

/-- What a value left out counts as. -/
def empty : Node := .scalar "" true

/-- Whether the next token is one of some. -/
def next (ts : List Token) (among : List Token) : Bool :=
  match ts with
  | [] => false
  | t :: _ => among.contains t

mutual

/-- A node. Block collections are allowed where `inBlock` holds, and a sequence that is not indented
    where `indentless` holds: as the value of a block mapping. -/
def read? (inBlock indentless : Bool) : Nat → List Token → Option (Node × List Token)
  | 0, _ => none
  | fuel + 1, ts =>
    match ts with
    | .scalar text plain :: ts => some (.scalar text plain, ts)
    | .flowSequenceStart :: ts => do
      let (items, ts) ← flowItems? fuel true ts
      return (.sequence items, ts)
    | .flowMappingStart :: ts => do
      let (entries, ts) ← flowEntries? fuel true ts
      return (.mapping entries, ts)
    | .blockSequenceStart :: ts => do
      if !inBlock then none
      else
        let (items, ts) ← blockItems? fuel ts
        return (.sequence items, ts)
    | .blockMappingStart :: ts => do
      if !inBlock then none
      else
        let (entries, ts) ← blockEntries? fuel ts
        return (.mapping entries, ts)
    | .blockEntry :: _ => do
      if !indentless then none
      else
        let (items, ts) ← bareItems? fuel ts
        return (.sequence items, ts)
    | _ => none

/-- A block node, or an empty one where one of the given tokens follows at once. -/
def blockNode? (indentless : Bool) (ends : List Token) :
    Nat → List Token → Option (Node × List Token)
  | 0, _ => none
  | fuel + 1, ts => if next ts ends then some (empty, ts) else read? true indentless fuel ts

/-- A flow node, or an empty one where one of the given tokens follows at once. -/
def flowNode? (ends : List Token) : Nat → List Token → Option (Node × List Token)
  | 0, _ => none
  | fuel + 1, ts => if next ts ends then some (empty, ts) else read? false false fuel ts

/-- The items of an indented sequence. -/
def blockItems? : Nat → List Token → Option (List Node × List Token)
  | 0, _ => none
  | fuel + 1, ts =>
    match ts with
    | .blockEntry :: ts => do
      let (item, ts) ← blockNode? false [.blockEntry, .blockEnd] fuel ts
      let (items, ts) ← blockItems? fuel ts
      return (item :: items, ts)
    | .blockEnd :: ts => some ([], ts)
    | _ => none

/-- The items of a sequence that is not indented: they end where no dash follows. -/
def bareItems? : Nat → List Token → Option (List Node × List Token)
  | 0, _ => none
  | fuel + 1, ts =>
    match ts with
    | .blockEntry :: ts => do
      let (item, ts) ← blockNode? false [.blockEntry, .key, .value, .blockEnd] fuel ts
      let (items, ts) ← bareItems? fuel ts
      return (item :: items, ts)
    | ts => some ([], ts)

/-- The entries of a block mapping. -/
def blockEntries? : Nat → List Token → Option (List (Node × Node) × List Token)
  | 0, _ => none
  | fuel + 1, ts =>
    match ts with
    | .key :: ts => do
      let (key, ts) ← blockNode? true [.key, .value, .blockEnd] fuel ts
      let (value, ts) ← blockValue? fuel ts
      let (entries, ts) ← blockEntries? fuel ts
      return ((key, value) :: entries, ts)
    | .blockEnd :: ts => some ([], ts)
    | _ => none

/-- The value behind a block key, if there is one. -/
def blockValue? : Nat → List Token → Option (Node × List Token)
  | 0, _ => none
  | fuel + 1, ts =>
    match ts with
    | .value :: ts => blockNode? true [.key, .value, .blockEnd] fuel ts
    | ts => some (empty, ts)

/-- The items of a sequence in brackets. A pair among them is a mapping of one entry. -/
def flowItems? : Nat → Bool → List Token → Option (List Node × List Token)
  | 0, _, _ => none
  | fuel + 1, first, ts =>
    match ts with
    | .flowSequenceEnd :: ts => some ([], ts)
    | ts => do
      let ts ← if first then some ts else match ts with
        | .flowEntry :: ts => some ts
        | _ => none
      match ts with
      | .flowSequenceEnd :: ts => return ([], ts)
      | .key :: ts =>
        let (key, ts) ← if next ts [.value, .flowEntry, .flowSequenceEnd] then
          some (empty, ts.drop 1) else read? false false fuel ts
        let (value, ts) ← flowValue? [.flowEntry, .flowSequenceEnd] fuel ts
        let (items, ts) ← flowItems? fuel false ts
        return (.mapping [(key, value)] :: items, ts)
      | ts =>
        let (item, ts) ← read? false false fuel ts
        let (items, ts) ← flowItems? fuel false ts
        return (item :: items, ts)

/-- The entries of a mapping in braces. A node without a key mark is a key without a value. -/
def flowEntries? : Nat → Bool → List Token → Option (List (Node × Node) × List Token)
  | 0, _, _ => none
  | fuel + 1, first, ts =>
    match ts with
    | .flowMappingEnd :: ts => some ([], ts)
    | ts => do
      let ts ← if first then some ts else match ts with
        | .flowEntry :: ts => some ts
        | _ => none
      match ts with
      | .flowMappingEnd :: ts => return ([], ts)
      | .key :: ts =>
        let (key, ts) ← flowNode? [.value, .flowEntry, .flowMappingEnd] fuel ts
        let (value, ts) ← flowValue? [.flowEntry, .flowMappingEnd] fuel ts
        let (entries, ts) ← flowEntries? fuel false ts
        return ((key, value) :: entries, ts)
      | ts =>
        let (key, ts) ← read? false false fuel ts
        let (entries, ts) ← flowEntries? fuel false ts
        return ((key, empty) :: entries, ts)

/-- The value behind a key in brackets or braces, if there is one. -/
def flowValue? (ends : List Token) : Nat → List Token → Option (Node × List Token)
  | 0, _ => none
  | fuel + 1, ts =>
    match ts with
    | .value :: ts => flowNode? ends fuel ts
    | ts => some (empty, ts)

end

/-! ## Documents -/

/-- Go past the directives in front of a document: at most one version, which must be known. -/
def directives? : List Token → Option (List Token)
  | .version major minor :: ts =>
    if major = 1 ∧ (minor = 1 ∨ minor = 2) then
      match ts with
      | .version .. :: _ => none
      | ts => some ts
    else none
  | ts => some ts

/-- The content of a document that begins with its mark. -/
def content? (fuel : Nat) : List Token → Option (Node × List Token)
  | [] => some (empty, [])
  | .documentStart :: ts => some (empty, .documentStart :: ts)
  | .documentEnd :: ts => some (empty, .documentEnd :: ts)
  | .version major minor :: ts => some (empty, .version major minor :: ts)
  | ts => read? true false fuel ts

/-- The first document: with its mark, or without when no directive stands in front of it. -/
def document? (fuel : Nat) (ts : List Token) : Option (Node × List Token) :=
  match ts with
  | .version .. :: _ => do
    match ← directives? ts with
    | .documentStart :: ts => content? fuel ts
    | _ => none
  | .documentStart :: ts => content? fuel ts
  | ts => read? true false fuel ts

/-- The only node of some tokens; nothing stands for an empty one. -/
def ofTokens? : List Token → Option Node
  | [] => some empty
  | ts => do
    let (node, rest) ← document? (4 * ts.length + 4) ts
    if rest.all (· == .documentEnd) then some node else none

/-- The only node of a text. -/
def ofText? (text : String) : Option Node := do ofTokens? (← tokens? text.toList)

end Node

end LSystem.Yaml
