import RecordQuery.Yaml.Token

/-!
# Nodes of documents

A `Node` is a document before its plain scalars are given a kind: scalars are text, and tell whether they
were plain. `Node.ofTokens?` reads the node that the tokens of a text write. A text holds at most one
document; without one it is an empty scalar.
-/

namespace RecordQuery.Yaml

/-- A part of a document. -/
inductive Node where
  | scalar (text : String) (isPlain : Bool)
  | sequence (items : List Node)
  | mapping (entries : List (Node × Node))
deriving Repr

namespace Node

/-- A value that is left out. -/
def empty : Node := .scalar "" true

/-! ## Algorithm -/

/-- Does a token of the list come first? -/
def comes (kinds : List Token) : List Token → Bool
  | [] => false
  | t :: _ => t ∈ kinds

/-- Passes over the comma before an entry that is not the first. -/
def readComma (first : Bool) (close : Token) (ts : List Token) : Option (List Token) :=
  if first || comes [close] ts then some ts
  else
    match ts with
    | .flowEntry :: ts => some ts
    | _ => none

mutual

/-- Reads a node. Block collections are read when `block` is set; entries at the indentation of their
key, without a block of their own, when `indentless` is set. -/
def read (block indentless : Bool) : (fuel : Nat) → List Token → Option (Node × List Token)
  | 0, _ => none
  | fuel + 1, ts =>
    match ts with
    | .scalar text isPlain :: ts => some (.scalar text isPlain, ts)
    | .flowSequenceStart :: ts => do
      let (items, ts) ← readFlowItems true fuel ts
      return (.sequence items, ts)
    | .flowMappingStart :: ts => do
      let (entries, ts) ← readFlowEntries true fuel ts
      return (.mapping entries, ts)
    | .blockSequenceStart :: ts =>
      if block then do
        let (items, ts) ← readBlockItems fuel ts
        return (.sequence items, ts)
      else none
    | .blockMappingStart :: ts =>
      if block then do
        let (entries, ts) ← readBlockEntries fuel ts
        return (.mapping entries, ts)
      else none
    | .blockEntry :: ts =>
      if indentless then do
        let (items, ts) ← readPlainItems fuel (.blockEntry :: ts)
        return (.sequence items, ts)
      else none
    | _ => none

/-- Reads the entries of a block sequence up to its end. -/
def readBlockItems : (fuel : Nat) → List Token → Option (List Node × List Token)
  | 0, _ => none
  | fuel + 1, ts =>
    match ts with
    | .blockEnd :: ts => some ([], ts)
    | .blockEntry :: ts => do
      let (item, ts) ← readUnless [.blockEntry, .blockEnd] false fuel ts
      let (items, ts) ← readBlockItems fuel ts
      return (item :: items, ts)
    | _ => none

/-- Reads the entries of a sequence that has no block of its own. -/
def readPlainItems : (fuel : Nat) → List Token → Option (List Node × List Token)
  | 0, _ => none
  | fuel + 1, ts =>
    match ts with
    | .blockEntry :: ts => do
      let (item, ts) ← readUnless [.blockEntry, .key, .value, .blockEnd] false fuel ts
      let (items, ts) ← readPlainItems fuel ts
      return (item :: items, ts)
    | ts => some ([], ts)

/-- Reads a node of a block, which is empty when one of the given tokens comes first. -/
def readUnless (ends : List Token) (indentless : Bool) :
    (fuel : Nat) → List Token → Option (Node × List Token)
  | 0, _ => none
  | fuel + 1, ts => if comes ends ts then some (.empty, ts) else read true indentless fuel ts

/-- Reads the entries of a block mapping up to its end. -/
def readBlockEntries : (fuel : Nat) → List Token → Option (List (Node × Node) × List Token)
  | 0, _ => none
  | fuel + 1, ts =>
    match ts with
    | .blockEnd :: ts => some ([], ts)
    | .key :: ts => do
      let (k, ts) ← readUnless [.key, .value, .blockEnd] true fuel ts
      let (v, ts) ← readBlockValue fuel ts
      let (entries, ts) ← readBlockEntries fuel ts
      return ((k, v) :: entries, ts)
    | _ => none

/-- Reads the value of an entry of a block mapping, which may be left out. -/
def readBlockValue : (fuel : Nat) → List Token → Option (Node × List Token)
  | 0, _ => none
  | fuel + 1, ts =>
    match ts with
    | .value :: ts => readUnless [.key, .value, .blockEnd] true fuel ts
    | ts => some (.empty, ts)

/-- Reads the items between brackets up to the closing one. An item with a key is a mapping of one
entry. -/
def readFlowItems (first : Bool) : (fuel : Nat) → List Token → Option (List Node × List Token)
  | 0, _ => none
  | fuel + 1, ts => do
    let ts ← readComma first .flowSequenceEnd ts
    match ts with
    | .flowSequenceEnd :: ts => return ([], ts)
    | .key :: ts =>
      let (k, ts) ← readPairKey fuel ts
      let (v, ts) ← readFlowValue .flowSequenceEnd fuel ts
      let (items, ts) ← readFlowItems false fuel ts
      return (.mapping [(k, v)] :: items, ts)
    | ts =>
      let (item, ts) ← read false false fuel ts
      let (items, ts) ← readFlowItems false fuel ts
      return (item :: items, ts)

/-- Reads the key of a mapping of one entry between brackets. An empty key takes the token that shows it
to be empty. -/
def readPairKey : (fuel : Nat) → List Token → Option (Node × List Token)
  | 0, _ => none
  | fuel + 1, ts =>
    if comes [.value, .flowEntry, .flowSequenceEnd] ts then some (.empty, ts.drop 1)
    else read false false fuel ts

/-- Reads the value of an entry between brackets or braces, which may be left out. -/
def readFlowValue (close : Token) : (fuel : Nat) → List Token → Option (Node × List Token)
  | 0, _ => none
  | fuel + 1, ts =>
    match ts with
    | .value :: ts =>
      if comes [.flowEntry, close] ts then some (.empty, ts) else read false false fuel ts
    | ts => some (.empty, ts)

/-- Reads the entries between braces up to the closing one. -/
def readFlowEntries (first : Bool) :
    (fuel : Nat) → List Token → Option (List (Node × Node) × List Token)
  | 0, _ => none
  | fuel + 1, ts => do
    let ts ← readComma first .flowMappingEnd ts
    match ts with
    | .flowMappingEnd :: ts => return ([], ts)
    | .key :: ts =>
      let (k, ts) ←
        if comes [.value, .flowEntry, .flowMappingEnd] ts then some (.empty, ts)
        else read false false fuel ts
      let (v, ts) ← readFlowValue .flowMappingEnd fuel ts
      let (entries, ts) ← readFlowEntries false fuel ts
      return ((k, v) :: entries, ts)
    | ts =>
      let (k, ts) ← read false false fuel ts
      let (entries, ts) ← readFlowEntries false fuel ts
      return ((k, .empty) :: entries, ts)

end

/-- The content of a document that has begun with its mark. -/
def readContent (fuel : Nat) (ts : List Token) : Option (Node × List Token) :=
  if ts = [] || comes [.documentStart, .documentEnd] ts then some (.empty, ts)
  else read true false fuel ts

/-- Reads the document that the tokens of a text write. -/
def ofTokens? (ts : List Token) : Option Node := do
  let fuel := 8 * (ts.length + 2)
  let (node, rest) ←
    match ts with
    | [] => some (.empty, [])
    | .documentStart :: ts => readContent fuel ts
    | ts => read true false fuel ts
  if rest.all (· = .documentEnd) then some node else none

/-- The node that a text writes. -/
def ofText? (text : String) : Option Node := (scan text).bind ofTokens?

end Node

end RecordQuery.Yaml
