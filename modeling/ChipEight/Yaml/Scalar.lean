import ChipEight.Hex
import ChipEight.Yaml.Character

/-!
# Scalars of YAML text

Reading one plain or quoted scalar from the front of a text. Inside a scalar the spaces
around a line break are dropped, and the breaks are folded: one break is a space, and of
more breaks the first is dropped.
-/

namespace ChipEight.Yaml

/-- What separates two parts of a scalar. -/
structure Gap where
  /-- The spaces in front of the first break, latest first. -/
  spaces : List Char
  /-- Some line was ended. -/
  broken : Bool
  /-- The first break, unless it was escaped. -/
  first : Option Char
  /-- The further breaks, latest first. -/
  more : List Char
  deriving DecidableEq, Repr

namespace Gap

/-- Nothing separates. -/
def none : Gap := ⟨[], false, .none, []⟩

/-- An escaped line break, which leaves nothing of itself. -/
def escapedBreak : Gap := ⟨[], true, .none, []⟩

/-- The gap with a space or tab; behind a break it is dropped. -/
def withSpace (g : Gap) (c : Char) : Gap :=
  if g.broken then g else { g with spaces := c :: g.spaces }

/-- The gap with a line break. -/
def withBreak (g : Gap) (c : Char) : Gap :=
  if g.broken then { g with more := breakValue c :: g.more }
  else ⟨[], true, some (breakValue c), []⟩

/-- Whether nothing separates. -/
def isNone (g : Gap) : Bool := !g.broken && g.spaces.isEmpty

/-- The characters that stand for the gap, latest first. -/
def folded (g : Gap) : List Char :=
  if !g.broken then g.spaces
  else
    match g.first with
    | some '\n' => if g.more.isEmpty then [' '] else g.more
    | some c => g.more ++ [c]
    | .none => g.more

end Gap

/-- A scalar that was read, and what lies behind it. -/
structure Reading where
  /-- What the scalar says. -/
  text : List Char
  /-- The place behind the scalar. -/
  position : Position
  /-- The text behind the scalar. -/
  rest : List Char
  /-- A line was ended behind the scalar. -/
  broken : Bool
  deriving DecidableEq, Repr

/-- A character that ends a plain scalar inside brackets. -/
def isFlowMark (c : Char) : Bool := c = ',' || c = '[' || c = ']' || c = '{' || c = '}'

/-- Whether the colon that comes next may not stand there inside brackets. -/
def misplacedColon (c : Char) (rest : List Char) : Bool :=
  c = ':' &&
    match rest with
    | d :: _ => isFlowMark d || d = '?'
    | [] => false

/-- Whether a character ends a plain scalar, given what follows it. -/
def endsPlain (inFlow : Bool) (c : Char) (rest : List Char) : Bool :=
  (c = ':' && atGap rest) || (inFlow && isFlowMark c)

/-- Read a plain scalar on, whose text so far (latest first) is followed by a gap. Outside brackets
it ends where a line starts left of the margin; a tab there is refused. -/
def plainFrom (inFlow : Bool) (margin : Nat) (text : List Char) (gap : Gap) (p : Position) :
    List Char → Option Reading
  | [] => some ⟨text.reverse, p, [], gap.broken⟩
  | '\r' :: '\n' :: rest => plainFrom inFlow margin text (gap.withBreak '\n') (p.nextLine 2) rest
  | c :: rest =>
    let stop : Option Reading := some ⟨text.reverse, p, c :: rest, gap.broken⟩
    if isSpace c then
      if gap.broken && p.column < margin && c = '\t' then none
      else plainFrom inFlow margin text (gap.withSpace c) (p.next c) rest
    else if isBreak c then
      plainFrom inFlow margin text (gap.withBreak c) (p.nextLine c.utf8Size) rest
    else if !gap.isNone && ((!inFlow && p.column < margin) || c = '#' ||
        (p.column = 0 && atDocumentMark (c :: rest))) then stop
    else if inFlow && misplacedColon c rest then none
    else if endsPlain inFlow c rest then stop
    else plainFrom inFlow margin (c :: (gap.folded ++ text)) .none (p.next c) rest

/-- How far an escape in double quotes has been read. -/
inductive Escape
  /-- No escape is open. -/
  | none
  /-- The backslash was read. -/
  | open
  /-- So many hexadecimal digits are still to come. -/
  | digits (left value : Nat)
  deriving DecidableEq, Repr

/-- The character of a one-letter escape. -/
def escapeValue? (c : Char) : Option Char :=
  match c with
  | '0' => some '\x00'
  | 'a' => some '\x07'
  | 'b' => some '\x08'
  | 't' | '\t' => some '\t'
  | 'n' => some '\n'
  | 'v' => some '\x0b'
  | 'f' => some '\x0c'
  | 'r' => some '\r'
  | 'e' => some '\x1b'
  | ' ' => some ' '
  | '"' => some '"'
  | '/' => some '/'
  | '\\' => some '\\'
  | 'N' => some '\u0085'
  | '_' => some '\u00a0'
  | 'L' => some '\u2028'
  | 'P' => some '\u2029'
  | _ => none

/-- The number of hexadecimal digits behind the letter of an escape. -/
def escapeDigits? (c : Char) : Option Nat :=
  match c with
  | 'x' => some 2
  | 'u' => some 4
  | 'U' => some 8
  | _ => none

/-- The character of a code point; surrogates and what lies above the last plane are none. -/
def charOfCode? (n : Nat) : Option Char :=
  if n < 0xD800 ∨ (0xDFFF < n ∧ n < 0x110000) then some (Char.ofNat n) else none

/-- Read a quoted scalar on up to its closing quote; the text so far (latest first) is followed by a
gap. -/
def quotedFrom (double : Bool) (text : List Char) (gap : Gap) (escape : Escape) (p : Position) :
    List Char → Option Reading
  | [] => none
  | '\r' :: '\n' :: rest =>
    match escape with
    | .digits _ _ => none
    | .open => quotedFrom double text .escapedBreak .none (p.nextLine 2) rest
    | .none => quotedFrom double text (gap.withBreak '\n') .none (p.nextLine 2) rest
  | c :: rest =>
    match escape with
    | .digits 0 _ => none
    | .digits (left + 1) value =>
      match Hex.value? c with
      | none => none
      | some d =>
        let value := 16 * value + d
        if left = 0 then
          match charOfCode? value with
          | some e => quotedFrom double (e :: text) .none .none (p.next c) rest
          | none => none
        else quotedFrom double text .none (.digits left value) (p.next c) rest
    | .open =>
      if isBreak c then quotedFrom double text .escapedBreak .none (p.nextLine c.utf8Size) rest
      else
        match escapeValue? c, escapeDigits? c with
        | some e, _ => quotedFrom double (e :: text) .none .none (p.next c) rest
        | none, some count => quotedFrom double text .none (.digits count 0) (p.next c) rest
        | none, none => none
    | .none =>
      if isSpace c then quotedFrom double text (gap.withSpace c) .none (p.next c) rest
      else if isBreak c then
        quotedFrom double text (gap.withBreak c) .none (p.nextLine c.utf8Size) rest
      else if p.column = 0 && atDocumentMark (c :: rest) then none
      else
        let text := gap.folded ++ text
        if double then
          if c = '"' then some ⟨text.reverse, p.next c, rest, false⟩
          else if c = '\\' then quotedFrom double text .none .open (p.next c) rest
          else quotedFrom double (c :: text) .none .none (p.next c) rest
        else if c = '\'' then
          match rest with
          | '\'' :: rest => quotedFrom double ('\'' :: text) .none .none (p.forward 2) rest
          | _ => some ⟨text.reverse, p.next c, rest, false⟩
        else quotedFrom double (c :: text) .none .none (p.next c) rest

end ChipEight.Yaml
