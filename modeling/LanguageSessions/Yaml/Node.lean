import LanguageSessions.Yaml.Token

/-!
# Nodes of YAML

The tree that the tokens of a document describe. Every function here takes the tokens that belong to what it reads and
returns the rest of them.
-/

namespace LanguageSessions.Yaml

/-- A node of a document. -/
inductive Node where
  | scalar (text : List Char) (isPlain : Bool)
  | list (items : List Node)
  | mapping (entries : List (Node × Node))

namespace Node

/-- A node that is left out. -/
def absent : Node := .scalar [] true

/-- Whether an item of a block list is left out. -/
def endsItem : List Token → Bool
  | .item :: _ | .blockEnd :: _ => true
  | _ => false

/-- Whether an item of a list without indentation of its own is left out. -/
def endsLooseItem : List Token → Bool
  | .item :: _ | .key :: _ | .value :: _ | .blockEnd :: _ => true
  | _ => false

/-- Whether the key or the value of a block entry is left out. -/
def endsEntry : List Token → Bool
  | .key :: _ | .value :: _ | .blockEnd :: _ => true
  | _ => false

/-- Whether a key between brackets is left out, where `closing` is the bracket that ends the collection. -/
def endsFlowKey (closing : Token) : List Token → Bool
  | .value :: _ | .comma :: _ => true
  | token :: _ => token == closing
  | [] => false

/-- Whether a value between brackets is left out. -/
def endsFlowValue (closing : Token) : List Token → Bool
  | .comma :: _ => true
  | token :: _ => token == closing
  | [] => false

/-- Drops the comma between items. -/
def dropComma : List Token → Except ReadError (List Token)
  | .comma :: rest => .ok rest
  | _ => .error .syntaxError

/-- Puts an item in front of those of a list. -/
def prependItem (item : Node) : Except ReadError (Node × List Token) → Except ReadError (Node × List Token)
  | .ok (.list items, rest) => .ok (.list (item :: items), rest)
  | result => result

/-- Puts an entry in front of those of a mapping. -/
def prependEntry (entry : Node × Node) : Except ReadError (Node × List Token) → Except ReadError (Node × List Token)
  | .ok (.mapping entries, rest) => .ok (.mapping (entry :: entries), rest)
  | result => result

mutual

/-- Reads a node. In a block it may be a block collection, and after a key also a list that is indented like the key. -/
def read (block loose : Bool) : Nat → List Token → Except ReadError (Node × List Token)
  | 0, _ => .error .syntaxError
  | fuel + 1, tokens =>
    match tokens with
    | .scalar text isPlain :: rest => .ok (.scalar text isPlain, rest)
    | .flowListStart :: rest => flowItems true fuel rest
    | .flowMapStart :: rest => flowEntries true fuel rest
    | .blockListStart :: rest => if block then blockItems fuel rest else .error .syntaxError
    | .blockMapStart :: rest => if block then blockEntries fuel rest else .error .syntaxError
    | .item :: _ => if loose then looseItems fuel tokens else .error .syntaxError
    | _ => .error .syntaxError

/-- Reads the items of a block list and its end. -/
def blockItems : Nat → List Token → Except ReadError (Node × List Token)
  | 0, _ => .error .syntaxError
  | fuel + 1, tokens =>
    match tokens with
    | .item :: rest => do
      let (item, rest) ← if endsItem rest then Except.ok (absent, rest) else read true false fuel rest
      prependItem item (blockItems fuel rest)
    | .blockEnd :: rest => .ok (.list [], rest)
    | _ => .error .syntaxError

/-- Reads the items of a list that is indented like the key it belongs to. -/
def looseItems : Nat → List Token → Except ReadError (Node × List Token)
  | 0, _ => .error .syntaxError
  | fuel + 1, tokens =>
    match tokens with
    | .item :: rest => do
      let (item, rest) ← if endsLooseItem rest then Except.ok (absent, rest) else read true false fuel rest
      prependItem item (looseItems fuel rest)
    | rest => .ok (.list [], rest)

/-- Reads the entries of a block mapping and its end. -/
def blockEntries : Nat → List Token → Except ReadError (Node × List Token)
  | 0, _ => .error .syntaxError
  | fuel + 1, tokens =>
    match tokens with
    | .key :: rest => do
      let (key, rest) ← if endsEntry rest then Except.ok (absent, rest) else read true true fuel rest
      let (value, rest) ← blockValue fuel rest
      prependEntry (key, value) (blockEntries fuel rest)
    | .blockEnd :: rest => .ok (.mapping [], rest)
    | _ => .error .syntaxError

/-- Reads the value of a block entry, if it has one. -/
def blockValue : Nat → List Token → Except ReadError (Node × List Token)
  | 0, _ => .error .syntaxError
  | fuel + 1, tokens =>
    match tokens with
    | .value :: rest => if endsEntry rest then Except.ok (absent, rest) else read true true fuel rest
    | rest => .ok (absent, rest)

/-- Reads the items of a list between brackets and its end. -/
def flowItems (isFirst : Bool) : Nat → List Token → Except ReadError (Node × List Token)
  | 0, _ => .error .syntaxError
  | fuel + 1, tokens =>
    match tokens with
    | .flowListEnd :: rest => .ok (.list [], rest)
    | tokens => do
      let rest ← if isFirst then Except.ok tokens else dropComma tokens
      match rest with
      | .flowListEnd :: rest => .ok (.list [], rest)
      | .key :: rest => do
        let (key, rest) ← if endsFlowKey .flowListEnd rest then Except.ok (absent, rest) else read false false fuel rest
        let (value, rest) ← flowValue .flowListEnd fuel rest
        prependItem (.mapping [(key, value)]) (flowItems false fuel rest)
      | rest => do
        let (item, rest) ← read false false fuel rest
        prependItem item (flowItems false fuel rest)

/-- Reads the entries of a mapping between brackets and its end. -/
def flowEntries (isFirst : Bool) : Nat → List Token → Except ReadError (Node × List Token)
  | 0, _ => .error .syntaxError
  | fuel + 1, tokens =>
    match tokens with
    | .flowMapEnd :: rest => .ok (.mapping [], rest)
    | tokens => do
      let rest ← if isFirst then Except.ok tokens else dropComma tokens
      match rest with
      | .flowMapEnd :: rest => .ok (.mapping [], rest)
      | .key :: rest => do
        let (key, rest) ← if endsFlowKey .flowMapEnd rest then Except.ok (absent, rest) else read false false fuel rest
        let (value, rest) ← flowValue .flowMapEnd fuel rest
        prependEntry (key, value) (flowEntries false fuel rest)
      | rest => do
        let (key, rest) ← read false false fuel rest
        prependEntry (key, absent) (flowEntries false fuel rest)

/-- Reads the value of an entry between brackets, if it has one. -/
def flowValue (closing : Token) : Nat → List Token → Except ReadError (Node × List Token)
  | 0, _ => .error .syntaxError
  | fuel + 1, tokens =>
    match tokens with
    | .value :: rest => if endsFlowValue closing rest then Except.ok (absent, rest) else read false false fuel rest
    | rest => .ok (absent, rest)

end

/-- Whether a document has no content. -/
def endsDocument : List Token → Bool
  | .documentStart :: _ | .documentEnd :: _ | [] => true
  | _ => false

/-- Drops the marks of the end of a document; nothing may come behind them. -/
def dropEnds : List Token → Except ReadError Unit
  | [] => .ok ()
  | .documentEnd :: rest => dropEnds rest
  | _ => .error .syntaxError

/-- The node of the only document; none if there is no document. -/
def ofTokens (tokens : List Token) : Except ReadError (Option Node) := do
  let fuel := 2 * tokens.length + 2
  match tokens with
  | [] => return none
  | .documentStart :: rest =>
    let (node, rest) ← if endsDocument rest then Except.ok (absent, rest) else read true false fuel rest
    dropEnds rest
    return some node
  | tokens =>
    let (node, rest) ← read true false fuel tokens
    dropEnds rest
    return some node

end Node

end LanguageSessions.Yaml
