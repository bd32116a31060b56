import ChipEight.Yaml.Token

/-!
# Nodes of YAML text

A text is at most one document, and a document is a scalar, a sequence or a mapping.
What is left out where a node is expected is the empty plain scalar.
-/

namespace ChipEight.Yaml

/-- A value in a text. -/
inductive Node
  | scalar (quoted : Bool) (text : List Char)
  | sequence (items : List Node)
  | mapping (entries : List (Node × Node))

namespace Node

/-- The node that stands for nothing written. -/
def empty : Node := .scalar false []

/-- Where a node stands. -/
inductive Place
  /-- Inside brackets. -/
  | flow
  /-- In a block. -/
  | block
  /-- In a block as the key or the value of an entry, where the hyphens of a sequence may stand at
  the column of the mapping. -/
  | entry
  deriving DecidableEq, Repr

/-- Whether a token of a block mapping comes next, so that the key or value in front of it was left
out. -/
def atMappingToken : List Token → Bool
  | .key :: _ | .value :: _ | .blockEnd :: _ => true
  | _ => false

mutual

/-- The node at the front of the tokens, and the tokens behind it. -/
def read? : Nat → Place → List Token → Option (Node × List Token)
  | 0, _, _ => none
  | fuel + 1, place, tokens =>
    match tokens with
    | .scalar quoted text :: rest => some (.scalar quoted text, rest)
    | .flowSequenceStart :: rest => readFlowSequence? fuel [] rest
    | .flowMappingStart :: rest => readFlowMapping? fuel [] rest
    | .blockSequenceStart :: rest =>
      if place = .flow then none else readBlockSequence? fuel false [] rest
    | .blockMappingStart :: rest => if place = .flow then none else readBlockMapping? fuel [] rest
    | .blockEntry :: _ => if place = .entry then readBlockSequence? fuel true [] tokens else none
    | _ => none

/-- The entries of a block sequence behind those already read (latest first). A sequence whose
hyphens stand at the column of the enclosing mapping has no end of its own. -/
def readBlockSequence? : Nat → Bool → List Node → List Token → Option (Node × List Token)
  | 0, _, _, _ => none
  | fuel + 1, flat, items, tokens =>
    match tokens with
    | .blockEntry :: rest =>
      let leftOut :=
        match rest with
        | .blockEntry :: _ | .blockEnd :: _ => true
        | .key :: _ | .value :: _ => flat
        | _ => false
      if leftOut then readBlockSequence? fuel flat (empty :: items) rest
      else do
        let (item, rest) ← read? fuel .block rest
        readBlockSequence? fuel flat (item :: items) rest
    | .blockEnd :: rest => some (.sequence items.reverse, if flat then tokens else rest)
    | _ => if flat then some (.sequence items.reverse, tokens) else none

/-- The entries of a block mapping behind those already read (latest first). -/
def readBlockMapping? : Nat → List (Node × Node) → List Token → Option (Node × List Token)
  | 0, _, _ => none
  | fuel + 1, entries, tokens =>
    match tokens with
    | .blockEnd :: rest => some (.mapping entries.reverse, rest)
    | .key :: rest => do
      let (key, rest) ← if atMappingToken rest then some (empty, rest) else read? fuel .entry rest
      let (value, rest) ← readBlockValue? fuel rest
      readBlockMapping? fuel ((key, value) :: entries) rest
    | _ => none

/-- The value of an entry of a block mapping, which may be left out with or without its colon. -/
def readBlockValue? : Nat → List Token → Option (Node × List Token)
  | 0, _ => none
  | fuel + 1, tokens =>
    match tokens with
    | .value :: rest => if atMappingToken rest then some (empty, rest) else read? fuel .entry rest
    | _ => some (empty, tokens)

/-- The entries of a sequence in brackets behind those already read (latest first). -/
def readFlowSequence? : Nat → List Node → List Token → Option (Node × List Token)
  | 0, _, _ => none
  | fuel + 1, items, tokens =>
    match tokens with
    | .flowSequenceEnd :: rest => some (.sequence items.reverse, rest)
    | _ => do
      let (item, rest) ←
        match tokens with
        | .key :: rest => do
          let (key, rest) ← readPairKey? fuel rest
          let (value, rest) ← readFlowValue? fuel rest
          some (.mapping [(key, value)], rest)
        | _ => read? fuel .flow tokens
      match rest with
      | .flowEntry :: rest => readFlowSequence? fuel (item :: items) rest
      | .flowSequenceEnd :: rest => some (.sequence (item :: items).reverse, rest)
      | _ => none

/-- The entries of a mapping in brackets behind those already read (latest first). -/
def readFlowMapping? : Nat → List (Node × Node) → List Token → Option (Node × List Token)
  | 0, _, _ => none
  | fuel + 1, entries, tokens =>
    match tokens with
    | .flowMappingEnd :: rest => some (.mapping entries.reverse, rest)
    | _ => do
      let (entry, rest) ←
        match tokens with
        | .key :: rest => do
          let (key, rest) ← readFlowKey? fuel rest
          let (value, rest) ← readFlowValue? fuel rest
          some ((key, value), rest)
        | _ => do
          let (key, rest) ← read? fuel .flow tokens
          some ((key, empty), rest)
      match rest with
      | .flowEntry :: rest => readFlowMapping? fuel (entry :: entries) rest
      | .flowMappingEnd :: rest => some (.mapping (entry :: entries).reverse, rest)
      | _ => none

/-- The key of a pair that is an item of a sequence in brackets. A colon, a comma or a closing
bracket in its place is taken for an empty key, and for nothing else. -/
def readPairKey? : Nat → List Token → Option (Node × List Token)
  | 0, _ => none
  | fuel + 1, tokens =>
    match tokens with
    | .value :: rest | .flowEntry :: rest | .flowSequenceEnd :: rest => some (empty, rest)
    | _ => read? fuel .flow tokens

/-- The key of an entry of a mapping in brackets, which may be left out. -/
def readFlowKey? : Nat → List Token → Option (Node × List Token)
  | 0, _ => none
  | fuel + 1, tokens =>
    match tokens with
    | .value :: _ | .flowEntry :: _ | .flowMappingEnd :: _ => some (empty, tokens)
    | _ => read? fuel .flow tokens

/-- The value of an entry in brackets, which may be left out with or without its colon. -/
def readFlowValue? : Nat → List Token → Option (Node × List Token)
  | 0, _ => none
  | fuel + 1, tokens =>
    match tokens with
    | .value :: rest =>
      match rest with
      | .flowEntry :: _ | .flowSequenceEnd :: _ | .flowMappingEnd :: _ => some (empty, rest)
      | _ => read? fuel .flow rest
    | _ => some (empty, tokens)

end

/-- Whether a document has no content before the next mark or the end. -/
def atDocumentToken : List Token → Bool
  | [] | .documentStart :: _ | .documentEnd :: _ => true
  | _ => false

/-- The one document of a list of tokens; there is none in a text without tokens. A further document
is refused. -/
def ofTokens? (tokens : List Token) : Option (Option Node) := do
  let fuel := 4 * tokens.length + 4
  match tokens with
  | [] => return none
  | _ =>
    let (node, rest) ←
      match tokens with
      | .documentStart :: rest =>
        if atDocumentToken rest then some (empty, rest) else read? fuel .block rest
      | _ => read? fuel .block tokens
    if (rest.dropWhile (· = .documentEnd)).isEmpty then return some node else none

/-- The one document of a text, if the text is well-formed. -/
def ofText? (text : List Char) : Option (Option Node) := Token.ofText? text >>= ofTokens?

end Node

end ChipEight.Yaml
