import ChipEight.Yaml.Scalar

/-!
# Tokens of YAML text

A text as a list of tokens, in which the indentation of block collections has become
tokens of its own: a block collection starts where an entry stands further right than
what encloses it and ends where a line starts further left. Whether a scalar is the key
of an entry shows only at the colon behind it, so the place in front of a possible key
is kept until then; the colon must come in the same line and within 1024 bytes.

Anchors, aliases, tags, directives and literal blocks are refused.
-/

namespace ChipEight.Yaml

/-- A token. -/
inductive Token
  | documentStart
  | documentEnd
  | blockSequenceStart
  | blockMappingStart
  | blockEnd
  | flowSequenceStart
  | flowSequenceEnd
  | flowMappingStart
  | flowMappingEnd
  | blockEntry
  | flowEntry
  | key
  | value
  | scalar (quoted : Bool) (text : List Char)
  deriving DecidableEq, Repr

/-- A place where a key may have begun. -/
structure PossibleKey where
  /-- Nothing but a key may stand there. -/
  required : Bool
  /-- The number of tokens in front of it. -/
  before : Nat
  /-- Where it would begin. -/
  position : Position
  deriving DecidableEq, Repr

/-- A text of which some tokens were read. -/
structure Scan where
  /-- What is left of the text. -/
  rest : List Char
  /-- The place of the next character. -/
  position : Position
  /-- The columns of the open block collections, innermost first. -/
  columns : List Nat
  /-- A key may begin here. -/
  keyAllowed : Bool
  /-- Where the latest key may have begun, outside all brackets opened since. -/
  possibleKey : Option PossibleKey
  /-- The same for every enclosing bracket, innermost first. -/
  outerKeys : List (Option PossibleKey)
  /-- The tokens that were read, latest first. -/
  tokens : List Token
  deriving Repr

namespace Scan

/-- A text of which nothing was read. -/
def start (text : List Char) : Scan := ⟨text, .start, [], true, none, [], []⟩

/-- Whether some bracket is open. -/
def inFlow (s : Scan) : Bool := !s.outerKeys.isEmpty

/-- The scan with one more token. -/
def emit (s : Scan) (t : Token) : Scan := { s with tokens := t :: s.tokens }

/-- The scan behind some ASCII characters of the line. -/
def skip (s : Scan) (count : Nat) : Scan :=
  { s with rest := s.rest.drop count, position := s.position.forward count }

/-- The scan with tokens put in behind the first `before` ones. -/
def insert (s : Scan) (before : Nat) (ts : List Token) : Scan :=
  let later := s.tokens.length - before
  { s with tokens := s.tokens.take later ++ ts.reverse ++ s.tokens.drop later }

/-- The scan at the next character that is neither space nor comment nor line break. In a block, a
tab is space only where no key may begin; behind a line break a key may begin again. One byte order
mark at the start of a line is passed over, and what follows it stands at the next column. -/
def skipGap (s : Scan) : Scan := go s.keyAllowed s.position false s.rest
where
  /-- Go on in a line, possibly inside a comment. -/
  go (allowed : Bool) (p : Position) (inComment : Bool) : List Char → Scan
    | [] => { s with rest := [], position := p, keyAllowed := allowed }
    | '\r' :: '\n' :: rest => go (allowed || !s.inFlow) (p.nextLine 2) false rest
    | c :: rest =>
      if isBreak c then go (allowed || !s.inFlow) (p.nextLine c.utf8Size) false rest
      else if inComment || c = '#' then go allowed (p.next c) true rest
      else if c = ' ' || (c = '\t' && (s.inFlow || !allowed)) then go allowed (p.next c) false rest
      else if c = '\ufeff' && p.column = 0 then go allowed (p.next c) false rest
      else { s with rest := c :: rest, position := p, keyAllowed := allowed }

/-- A possible key that is too far back for its colon is none any more; a required one may not be
lost. -/
def staleKey (p : Position) : Option PossibleKey → Option (Option PossibleKey)
  | none => some none
  | some k =>
    if k.position.line < p.line || k.position.bytes + 1024 < p.bytes then
      if k.required then none else some none
    else some (some k)

/-- Drop the possible keys that are too far back. -/
def dropStale (s : Scan) : Option Scan := do
  let key ← staleKey s.position s.possibleKey
  let outer ← s.outerKeys.mapM (staleKey s.position)
  return { s with possibleKey := key, outerKeys := outer }

/-- Give up the latest possible key, unless it is required. -/
def dropKey (s : Scan) : Option Scan :=
  match s.possibleKey with
  | some k => if k.required then none else some { s with possibleKey := none }
  | none => some s

/-- Note that a key may begin here. In a block, nothing but a key may stand at the column of its
collection. -/
def noteKey (s : Scan) : Option Scan :=
  if s.keyAllowed then do
    let s ← s.dropKey
    let required := !s.inFlow && s.columns.head? = some s.position.column
    return { s with possibleKey := some ⟨required, s.tokens.length, s.position⟩ }
  else some s

/-- Whether a column lies right of all open block collections. -/
def isDeeper (s : Scan) (column : Nat) : Bool :=
  match s.columns with
  | [] => true
  | c :: _ => c < column

/-- Open a block collection at the place of the scan if that lies deeper than the enclosing one. -/
def openBlock (s : Scan) (t : Token) : Scan :=
  if !s.inFlow && s.isDeeper s.position.column then
    { s with columns := s.position.column :: s.columns }.emit t
  else s

/-- Close the block collections right of a column, outside brackets. -/
def closeBlocks (s : Scan) (column : Nat) : Scan :=
  if s.inFlow then s
  else
    let closed := s.columns.takeWhile (column < ·)
    { s with
      columns := s.columns.drop closed.length
      tokens := List.replicate closed.length .blockEnd ++ s.tokens }

/-- Close all block collections, outside brackets. -/
def closeAllBlocks (s : Scan) : Scan :=
  if s.inFlow then s
  else
    { s with columns := [], tokens := List.replicate s.columns.length .blockEnd ++ s.tokens }

/-- A mark of a document. -/
def readDocumentMark (s : Scan) (t : Token) : Option Scan := do
  let s ← s.closeAllBlocks.dropKey
  return ({ s with keyAllowed := false }.skip 3).emit t

/-- An opening bracket. -/
def readOpening (s : Scan) (t : Token) : Option Scan := do
  let s ← s.noteKey
  let outer := s.possibleKey :: s.outerKeys
  return ({ s with keyAllowed := true, outerKeys := outer, possibleKey := none }.skip 1).emit t

/-- A closing bracket. -/
def readClosing (s : Scan) (t : Token) : Option Scan := do
  let s ← s.dropKey
  let s :=
    match s.outerKeys with
    | k :: outer => { s with possibleKey := k, outerKeys := outer }
    | [] => s
  return ({ s with keyAllowed := false }.skip 1).emit t

/-- A comma between entries in brackets. -/
def readFlowEntry (s : Scan) : Option Scan := do
  let s ← s.dropKey
  return ({ s with keyAllowed := true }.skip 1).emit .flowEntry

/-- A hyphen in front of an entry of a block. -/
def readBlockEntry (s : Scan) : Option Scan :=
  if !s.inFlow && !s.keyAllowed then none
  else do
    let s ← (s.openBlock .blockSequenceStart).dropKey
    return ({ s with keyAllowed := true }.skip 1).emit .blockEntry

/-- A question mark in front of a key. -/
def readKey (s : Scan) : Option Scan :=
  if !s.inFlow && !s.keyAllowed then none
  else do
    let s ← (s.openBlock .blockMappingStart).dropKey
    return ({ s with keyAllowed := !s.inFlow }.skip 1).emit .key

/-- A colon in front of a value. A possible key in front of it now is one, and may open a mapping.
-/
def readValue (s : Scan) : Option Scan :=
  match s.possibleKey with
  | some k =>
    let opens := !s.inFlow && s.isDeeper k.position.column
    let s := s.insert k.before (if opens then [.blockMappingStart, .key] else [.key])
    let columns := if opens then k.position.column :: s.columns else s.columns
    let s := { s with possibleKey := none, keyAllowed := false, columns := columns }
    some ((s.skip 1).emit .value)
  | none =>
    if !s.inFlow && !s.keyAllowed then none
    else
      let s := s.openBlock .blockMappingStart
      some (({ s with keyAllowed := !s.inFlow }.skip 1).emit .value)

/-- The scan behind a scalar. -/
def withReading (s : Scan) (quoted : Bool) (r : Reading) : Scan :=
  let s := { s with rest := r.rest, position := r.position, keyAllowed := r.broken }
  s.emit (.scalar quoted r.text)

/-- A scalar in single or double quotes. -/
def readQuoted (s : Scan) (double : Bool) : Option Scan := do
  let s ← s.noteKey
  let r ← quotedFrom double [] .none .none (s.position.forward 1) (s.rest.drop 1)
  return s.withReading true r

/-- A plain scalar. In a block its further lines lie right of the enclosing collection. -/
def readPlain (s : Scan) : Option Scan := do
  let s ← s.noteKey
  let margin :=
    match s.columns with
    | [] => 0
    | c :: _ => c + 1
  let r ← plainFrom s.inFlow margin [] .none s.position s.rest
  return s.withReading false r

/-- Whether a plain scalar may begin with a character, given what follows it. -/
def startsPlain (inFlow : Bool) (c : Char) (rest : List Char) : Bool :=
  if c = '-' then
    match rest with
    | d :: _ => !isSpace d
    | [] => true
  else if c = '?' || c = ':' then !inFlow && !atGap rest
  else !(isGap c || isFlowMark c || "#&*!|>'\"%@`".toList.contains c)

/-- Read the next token, with all that it shows about the ones in front of it. Nothing but blanks
left in the text closes what is open. -/
def next? (s : Scan) : Option Scan := do
  let s ← s.skipGap.dropStale
  let s := s.closeBlocks s.position.column
  match s.rest with
  | [] => s.closeAllBlocks.dropKey
  | c :: rest =>
    let lineStart := s.position.column = 0
    if lineStart && c = '%' then none
    else if lineStart && atMark '-' s.rest then s.readDocumentMark .documentStart
    else if lineStart && atMark '.' s.rest then s.readDocumentMark .documentEnd
    else if c = '[' then s.readOpening .flowSequenceStart
    else if c = '{' then s.readOpening .flowMappingStart
    else if c = ']' then s.readClosing .flowSequenceEnd
    else if c = '}' then s.readClosing .flowMappingEnd
    else if c = ',' then s.readFlowEntry
    else if c = '-' && atGap rest then s.readBlockEntry
    else if c = '?' && (s.inFlow || atGap rest) then s.readKey
    else if c = ':' && (s.inFlow || atGap rest) then s.readValue
    else if c = '\'' then s.readQuoted false
    else if c = '"' then s.readQuoted true
    else if startsPlain s.inFlow c rest then s.readPlain
    else none

/-- Read all tokens, at most `fuel` of them. -/
def all? : Nat → Scan → Option (List Token)
  | 0, _ => none
  | fuel + 1, s => do
    let s ← s.next?
    if s.rest.isEmpty then
      let s ← s.next?
      return s.tokens.reverse
    else all? fuel s

end Scan

/-- The tokens of a text, if it has any form. Every token takes a character at least. -/
def Token.ofText? (text : List Char) : Option (List Token) :=
  if text.all isAllowed then Scan.all? (text.length + 1) (.start text) else none

end ChipEight.Yaml
