import MixedDomain.Yaml.Basic

/-!
# Tokens of YAML text

## Characters and their places

The scanner knows the line of a character, how many octets of UTF-8 stand before
it, and which character stands after it.  The line breaks of all systems are one character;
the two separators of Unicode are line breaks that stay what they are.

## The scanner

The scanner is an automaton that takes one character at a time and emits tokens.
It knows flow style: collections between brackets, scalars with or without
quotes, comments, and the markers between documents.

## Folding

Inside a scalar a line break is folded: a single one counts as a space, and of
several ones the first is dropped.  The blanks around a line break do not count.
-/

namespace MixedDomain
namespace Yaml

def isSpace (c : Char) : Bool :=
  c == ' ' || c == '\t'

/-- A line break, after those of all systems have become one. -/
def isBreak (c : Char) : Bool :=
  c == '\n' || c == '\u2028' || c == '\u2029'

def isAllowed (c : Char) : Bool :=
  let n := c.toNat
  n == 0x09 || n == 0x0A || n == 0x0D || (0x20 ≤ n && n ≤ 0x7E) || n == 0x85
    || (0xA0 ≤ n && n ≤ 0xFFFD) || 0x10000 ≤ n

/-- Where a character stands: its line, and the number of octets before it. -/
structure Place where
  line : Nat
  offset : Nat
  deriving DecidableEq, Inhabited, Repr

/-- A character in its place. -/
structure Cell where
  char : Char
  place : Place
  next? : Option Char
  first : Bool
  marker : Bool

/-- The characters with their offsets, and with one line break for those of all systems. -/
def located (offset : Nat) : List Char -> List (Char × Nat)
  | [] => []
  | '\r' :: '\n' :: rest => ('\n', offset) :: located (offset + 2) rest
  | c :: rest =>
      (if c = '\r' || c = '\x85' then '\n' else c, offset) :: located (offset + c.utf8Size) rest

/-- Whether a marker stands in front: three hyphens or three points, with a blank, a line break or
nothing behind. -/
def beginsMarker : List (Char × Nat) -> Bool
  | (a, _) :: (b, _) :: (c, _) :: rest =>
      a == b && b == c && (a == '-' || a == '.')
        && rest.head?.all fun d => isSpace d.1 || isBreak d.1
  | _ => false

/-- The characters in their places, from a line on. -/
def cellsFrom (line : Nat) (atStart : Bool) : List (Char × Nat) -> List Cell
  | [] => []
  | (c, offset) :: rest =>
      let cell : Cell := {
        char := c
        place := ⟨line, offset⟩
        next? := rest.head?.map Prod.fst
        first := atStart
        marker := atStart && beginsMarker ((c, offset) :: rest) }
      if isBreak c then cell :: cellsFrom (line + 1) true rest
      else cell :: cellsFrom line false rest

/-- What a token is. -/
inductive Symbol where
  | openSequence
  | closeSequence
  | openMapping
  | closeMapping
  | comma
  | colon
  | scalar (yaml : Yaml)
  | documentStart
  | documentEnd

/-- A token and the place where it begins. -/
structure Token where
  place : Place
  symbol : Symbol

/-- What has been seen of the blanks and line breaks inside a scalar.  The first line break is
missing if it has been escaped. -/
inductive Gap where
  | nothing
  | spaces (reversed : List Char)
  | breaks (first? : Option Char) (reversed : List Char)

namespace Gap

def add (c : Char) : Gap -> Gap
  | .nothing => if isBreak c then .breaks (some c) [] else .spaces [c]
  | .spaces reversed => if isBreak c then .breaks (some c) [] else .spaces (c :: reversed)
  | .breaks first? reversed =>
      if isBreak c then .breaks first? (c :: reversed) else .breaks first? reversed

def isNothing : Gap -> Bool
  | .nothing => true
  | _ => false

/-- What a gap counts as, in reverse. -/
def folded : Gap -> List Char
  | .nothing => []
  | .spaces reversed => reversed
  | .breaks (some '\n') [] => [' ']
  | .breaks (some '\n') reversed => reversed
  | .breaks first? reversed => reversed ++ first?.toList

end Gap

/-- A scalar that is being scanned: where it begins, its text in reverse, and the gap behind. -/
structure Scalar where
  place : Place
  reversed : List Char
  gap : Gap

namespace Scalar

def start (place : Place) : Scalar :=
  ⟨place, [], .nothing⟩

def space (c : Char) (scalar : Scalar) : Scalar :=
  { scalar with gap := scalar.gap.add c }

def fold (scalar : Scalar) : Scalar :=
  ⟨scalar.place, scalar.gap.folded ++ scalar.reversed, .nothing⟩

def push (c : Char) (scalar : Scalar) : Scalar :=
  let folded := scalar.fold
  { folded with reversed := c :: folded.reversed }

/-- The token of a scalar without quotes; the gap behind does not count. -/
def plainToken (scalar : Scalar) : Token :=
  ⟨scalar.place, .scalar (.plain (String.ofList scalar.reversed.reverse))⟩

def quotedToken (scalar : Scalar) : Token :=
  ⟨scalar.place, .scalar (.quoted (String.ofList scalar.fold.reversed.reverse))⟩

end Scalar

/-- What has been seen of the token at hand. -/
inductive Mode where
  /-- No token; `fresh` says that the line has no token yet. -/
  | between (fresh : Bool)
  | comment
  | marker (left : Nat)
  | plain (scalar : Scalar)
  | single (scalar : Scalar)
  | twice (scalar : Scalar)
  | double (scalar : Scalar)
  | escape (scalar : Scalar)
  | code (scalar : Scalar) (left : Nat) (value : Nat)

/-- The scanner: how many brackets are open, and what has been seen. -/
structure Scan where
  depth : Nat
  mode : Mode

/-- Whether a scalar without quotes may begin with a character. -/
def beginsPlain (c : Char) (next? : Option Char) : Bool :=
  if c = '-' then
    next?.any fun d => !isSpace d && !isBreak d
  else
    !"?:,[]\x7b\x7d#&*!|>%@\x60".toList.contains c

/-- A token may begin here.  Outside of all brackets no tab may stand before the first token of a
line.  A byte order mark counts for nothing where a line begins. -/
def scanBetween (depth : Nat) (fresh : Bool) (cell : Cell) : Option (List Token × Scan) :=
  let mark (symbol : Symbol) (depth : Nat) : Option (List Token × Scan) :=
    some ([⟨cell.place, symbol⟩], ⟨depth, .between false⟩)
  let go (mode : Mode) : Option (List Token × Scan) := some ([], ⟨depth, mode⟩)
  if cell.marker then
    let symbol := if cell.char = '-' then Symbol.documentStart else .documentEnd
    some ([⟨cell.place, symbol⟩], ⟨depth, .marker 2⟩)
  else
    match cell.char with
    | ' ' => go (.between fresh)
    | '\t' => if fresh && depth == 0 then none else go (.between fresh)
    | '\n' | '\u2028' | '\u2029' => go (.between true)
    | '#' => go .comment
    | '[' => mark .openSequence (depth + 1)
    | ']' => mark .closeSequence (depth - 1)
    | '\x7b' => mark .openMapping (depth + 1)
    | '\x7d' => mark .closeMapping (depth - 1)
    | ',' => mark .comma depth
    | ':' => mark .colon depth
    | '"' => go (.double (.start cell.place))
    | '\'' => go (.single (.start cell.place))
    | c =>
        if c = '\ufeff' && cell.first then go (.between fresh)
        else if beginsPlain c cell.next? then go (.plain ((Scalar.start cell.place).push c))
        else none

/-- Takes a character of a scalar without quotes. -/
def scanPlain (depth : Nat) (scalar : Scalar) (cell : Cell) : Option (List Token × Scan) :=
  let more (scalar : Scalar) : Option (List Token × Scan) := some ([], ⟨depth, .plain scalar⟩)
  let stop : Option (List Token × Scan) := do
    let (tokens, scan) ← scanBetween depth false cell
    return (scalar.plainToken :: tokens, scan)
  let c := cell.char
  if isSpace c || isBreak c then
    more (scalar.space c)
  else if cell.marker then
    none
  else if c = '#' && !scalar.gap.isNothing then
    stop
  else if c = ':' then
    match cell.next? with
    | none => stop
    | some d =>
        if isSpace d || isBreak d then stop
        else if ",?[]\x7b\x7d".toList.contains d then none
        else more (scalar.push c)
  else if ",[]\x7b\x7d".toList.contains c then
    stop
  else
    more (scalar.push c)

def escaped? (c : Char) : Option Char :=
  match c with
  | '0' => some '\x00'
  | 'a' => some '\x07'
  | 'b' => some '\x08'
  | 't' | '\t' => some '\t'
  | 'n' => some '\n'
  | 'v' => some '\x0b'
  | 'f' => some '\x0c'
  | 'r' => some '\r'
  | 'e' => some '\x1b'
  | ' ' | '"' | '/' | '\\' => some c
  | 'N' => some '\x85'
  | '_' => some '\xa0'
  | 'L' => some '\u2028'
  | 'P' => some '\u2029'
  | _ => none

def codeLength? (c : Char) : Option Nat :=
  match c with
  | 'x' => some 2
  | 'u' => some 4
  | 'U' => some 8
  | _ => none

def scanEscaped? (scalar : Scalar) (c : Char) : Option Mode :=
  if isBreak c then
    some (.double { scalar with gap := .breaks none [] })
  else
    match codeLength? c with
    | some left => some (.code scalar left 0)
    | none => (escaped? c).map fun c => .double (scalar.push c)

def scanCode? (scalar : Scalar) (left value : Nat) (c : Char) : Option Mode := do
  let digit ← Text.hexValue? c
  let value := value * 16 + digit
  if left = 1 then
    if value.isValidChar then some (.double (scalar.push (Char.ofNat value))) else none
  else
    some (.code scalar (left - 1) value)

def scanDouble (scalar : Scalar) (c : Char) : List Token × Mode :=
  if isSpace c || isBreak c then ([], .double (scalar.space c))
  else if c = '"' then ([scalar.quotedToken], .between false)
  else if c = '\\' then ([], .escape scalar.fold)
  else ([], .double (scalar.push c))

def scanSingle (scalar : Scalar) (cell : Cell) : List Token × Mode :=
  let c := cell.char
  if isSpace c || isBreak c then ([], .single (scalar.space c))
  else if c = '\'' then
    if cell.next? = some '\'' then ([], .twice scalar)
    else ([scalar.quotedToken], .between false)
  else ([], .single (scalar.push c))

/-- Takes one character: the tokens that it completes, and what has been seen then. -/
def scanStep (scan : Scan) (cell : Cell) : Option (List Token × Scan) :=
  let go (mode : Mode) : List Token × Scan := ([], ⟨scan.depth, mode⟩)
  let emit (result : List Token × Mode) : List Token × Scan :=
    (result.1, ⟨scan.depth, result.2⟩)
  match scan.mode with
  | .between fresh => scanBetween scan.depth fresh cell
  | .comment => some (go (if isBreak cell.char then .between true else .comment))
  | .marker left => some (go (if left = 1 then .between false else .marker (left - 1)))
  | .plain scalar => scanPlain scan.depth scalar cell
  | .single scalar => if cell.marker then none else some (emit (scanSingle scalar cell))
  | .twice scalar => some (go (.single (scalar.push '\'')))
  | .double scalar => if cell.marker then none else some (emit (scanDouble scalar cell.char))
  | .escape scalar => (scanEscaped? scalar cell.char).map go
  | .code scalar left value => (scanCode? scalar left value cell.char).map go

/-- The end of the text ends a scalar without quotes. -/
def scanEnd : Mode -> Option (List Token)
  | .between _ => some []
  | .comment => some []
  | .plain scalar => some [scalar.plainToken]
  | _ => none

/-- The tokens of a text, from a state of the scanner on. -/
def scanFrom (scan : Scan) : List Cell -> List Token -> Option (List Token)
  | [], reversed => do
      let last ← scanEnd scan.mode
      return reversed.reverse ++ last
  | cell :: rest, reversed =>
      match scanStep scan cell with
      | some (tokens, next) => scanFrom next rest (tokens.reverse ++ reversed)
      | none => none

def tokens? (s : String) : Option (List Token) :=
  if s.toList.all isAllowed then
    scanFrom ⟨0, .between true⟩ (cellsFrom 0 true (located 0 s.toList)) []
  else
    none

end Yaml
end MixedDomain
