/-!
# Characters and positions of YAML text

Which characters a text may hold, which of them separate and which end a line, and the
place of a character in the text.
-/

namespace ChipEight.Yaml

/-- A space or a tab. -/
def isSpace (c : Char) : Bool := c = ' ' || c = '\t'

/-- A character that ends a line: carriage return, line feed, next line, line or paragraph
separator. -/
def isBreak (c : Char) : Bool :=
  c = '\r' || c = '\n' || c = '\u0085' || c = '\u2028' || c = '\u2029'

/-- The character that a line break counts as: the two separators stay, all others are line feeds.
-/
def breakValue (c : Char) : Char := if c = '\u2028' || c = '\u2029' then c else '\n'

/-- What separates: a space, a tab or a line break. -/
def isGap (c : Char) : Bool := isSpace c || isBreak c

/-- Whether a gap or the end of the text comes next. -/
def atGap : List Char → Bool
  | [] => true
  | c :: _ => isGap c

/-- Whether a text may hold a character at all. -/
def isAllowed (c : Char) : Bool :=
  let n := c.toNat
  c = '\t' || c = '\n' || c = '\r' || (0x20 ≤ n && n ≤ 0x7E) || n = 0x85 ||
    (0xA0 ≤ n && n ≤ 0xFFFD) || 0x10000 ≤ n

/-- Whether a character three times and then a gap come next. -/
def atMark (m : Char) : List Char → Bool
  | a :: b :: c :: rest => a = m && b = m && c = m && atGap rest
  | _ => false

/-- Whether a mark of a document comes next: three hyphens or three dots. -/
def atDocumentMark (rest : List Char) : Bool := atMark '-' rest || atMark '.' rest

/-- The place of a character in a text. -/
structure Position where
  /-- Bytes of UTF-8 in front of it. -/
  bytes : Nat
  /-- Lines in front of its own. -/
  line : Nat
  /-- Characters in front of it in its line. -/
  column : Nat
  deriving DecidableEq, Repr

namespace Position

/-- The place of the first character. -/
def start : Position := ⟨0, 0, 0⟩

/-- The place behind a character of the same line. -/
def next (p : Position) (c : Char) : Position :=
  { p with bytes := p.bytes + c.utf8Size, column := p.column + 1 }

/-- The place behind some characters of the same line, all of them ASCII. -/
def forward (p : Position) (count : Nat) : Position :=
  { p with bytes := p.bytes + count, column := p.column + count }

/-- The start of the next line, behind a break of some bytes. -/
def nextLine (p : Position) (size : Nat) : Position := ⟨p.bytes + size, p.line + 1, 0⟩

end Position

end ChipEight.Yaml
