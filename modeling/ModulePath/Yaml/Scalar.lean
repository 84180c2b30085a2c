import ModulePath.Text.CodePoint
import ModulePath.Yaml.Char

/-!
# Scalars in a YAML text

A plain scalar ends before `: `, ` #` and, between brackets, before the flow indicators. A quoted
scalar ends at its quote. In both a line break counts as a space and a blank line as a line break.
-/

set_option autoImplicit false

namespace ModulePath.Yaml

/-! ## Line folding -/

/-- The line breaks at the beginning of a text, blanks that `skip` accepts aside, and what follows
them; `none` if a line begins with a document separator. -/
def blankLines (skip : Char → Bool) (lineStart : Bool) :
    List Char → Option (List Char × List Char)
  | [] => some ([], [])
  | '\r' :: '\n' :: rest => (blankLines skip true rest).map fun (bs, r) => ('\n' :: bs, r)
  | c :: rest =>
    if lineStart && atSeparator (c :: rest) then none
    else if isBreak c then
      (blankLines skip true rest).map fun (bs, r) =>
        ((if c = '\r' || c = '\u0085' then '\n' else c) :: bs, r)
    else if skip c then blankLines skip false rest
    else some ([], c :: rest)

/-- What a line break `first` and the breaks after it stand for. -/
def folded (first : Char) (breaks : List Char) : List Char :=
  (if first ≠ '\n' then [first] else if breaks.isEmpty then [' '] else []) ++ breaks

/-! ## Plain scalars -/

/-- Whether a character ends a plain scalar between brackets. -/
def isFlowIndicator (c : Char) : Bool :=
  c = ',' || c = '?' || c = '[' || c = ']' || c = '\x7b' || c = '\x7d'

/-- Whether a colon before `rest` ends a plain scalar. -/
def colonEnds (flow : Bool) (rest : List Char) : Bool :=
  atGap rest ||
    (flow && (rest.head?.map fun c => isFlowIndicator c && c ≠ '?').getD false)

/-- The word at the beginning of a text, and what follows it. -/
def plainWord (flow : Bool) : List Char → List Char × List Char
  | [] => ([], [])
  | c :: rest =>
    if isBlank c || isBreak c || (c = ':' && colonEnds flow rest) ||
        (flow && isFlowIndicator c) then
      ([], c :: rest)
    else
      let (word, tail) := plainWord flow rest
      (c :: word, tail)

/-- What is between two words. -/
structure Gap where
  /-- What it stands for; `none` if it ends at a document separator. -/
  text : Option (List Char)
  rest : List Char
  /-- Whether the second word is on another line. -/
  broken : Bool

/-- The gap at the beginning of a text. -/
def gapOf (cs : List Char) : Gap :=
  let spaces := cs.takeWhile (· = ' ')
  let tail := cs.dropWhile (· = ' ')
  match lineBreak? tail with
  | none => ⟨some spaces, tail, false⟩
  | some (first, after) =>
    match blankLines (· = ' ') true after with
    | none => ⟨none, after, true⟩
    | some (breaks, rest) => ⟨some (folded first breaks), rest, true⟩

/-- A plain scalar that was read. -/
structure Plain where
  text : List Char
  cursor : Cursor
  /-- Whether it ends at the beginning of a line. -/
  broken : Bool

/-- Read a plain scalar. Outside of brackets it goes on only in columns from `indent` on. -/
def plainScalar (flow : Bool) (indent : Int) : Nat → Cursor → Plain
  | 0, c => ⟨[], c, false⟩
  | fuel + 1, c =>
    let (word, tail) := plainWord flow c.rest
    let gap := gapOf tail
    let next := c.moveTo gap.rest
    let stop : Plain := ⟨word, next, gap.broken⟩
    match gap.text with
    | none => stop
    | some [] => { stop with broken := false }
    | some space =>
      if next.rest.head? == some '#' || (!flow && (next.column : Int) < indent) then stop
      else
        let more := plainScalar flow indent fuel next
        if more.text.isEmpty then stop
        else { more with text := word ++ space ++ more.text }

/-! ## Quoted scalars -/

/-- What a character after a backslash stands for. -/
def escapes : List (Char × Char) := [
  ('0', '\x00'), ('a', '\x07'), ('b', '\x08'), ('t', '\t'), ('\t', '\t'), ('n', '\n'),
  ('v', '\x0B'), ('f', '\x0C'), ('r', '\r'), ('e', '\x1B'), (' ', ' '), ('\x22', '\x22'),
  ('\\', '\\'), ('/', '/'), ('N', '\u0085'), ('_', '\u00A0'), ('L', '\u2028'), ('P', '\u2029')]

/-- How many hexadecimal digits follow a character after a backslash. -/
def escapeWidth? (c : Char) : Option Nat :=
  if c = 'x' then some 2 else if c = 'u' then some 4 else if c = 'U' then some 8 else none

/-- The value of a hexadecimal digit. -/
def hexValue? (c : Char) : Option Nat :=
  if '0' ≤ c && c ≤ '9' then some (c.toNat - 0x30)
  else if 'a' ≤ c && c ≤ 'f' then some (c.toNat - 0x61 + 10)
  else if 'A' ≤ c && c ≤ 'F' then some (c.toNat - 0x41 + 10)
  else none

/-- The number of hexadecimal digits. -/
def hexNumber? (ds : List Char) : Option Nat :=
  (ds.mapM hexValue?).map fun vs => vs.foldl (fun n d => 16 * n + d) 0

/-- A number as a code point. One that is none is a fault, and one of more than 31 bits another
one. -/
def codePoint? (n : Nat) : Outcome Error Nat :=
  if n < Text.codePointBound then .ok n
  else Outcome.fault (if n < Nat.pow 2 31 then .value else .overflow)

/-- The code point that hexadecimal digits stand for, when there should be `width` of them. -/
def hexEscape? (width : Nat) (digits : List Char) : Outcome Error Nat :=
  match hexNumber? digits with
  | some n => if digits.length = width then codePoint? n else Outcome.refuse .unclosedQuote
  | none => Outcome.refuse .badEscape

/-- The code points that an escape stands for, and what follows it. The text begins after the
backslash. -/
def escape? : List Char → Outcome Error (List Nat × List Char)
  | [] => Outcome.refuse .unclosedQuote
  | c :: rest =>
    match escapes.lookup c with
    | some e => .ok ([e.toNat], rest)
    | none =>
      match escapeWidth? c with
      | some width => (hexEscape? width (rest.take width)).map fun e => ([e], rest.drop width)
      | none =>
        match lineBreak? (c :: rest) with
        | some (_, after) =>
          match blankLines isBlank true after with
          | some (breaks, tail) => .ok (breaks.map Char.toNat, tail)
          | none => Outcome.refuse .separatorInQuote
        | none => Outcome.refuse .badEscape

/-- The blanks and line breaks at the beginning of a text in quotes, and what follows them. -/
def quotedGap? (cs : List Char) : Outcome Error (List Char × List Char) :=
  let blanks := cs.takeWhile isBlank
  let tail := cs.dropWhile isBlank
  match lineBreak? tail with
  | none => if tail.isEmpty then Outcome.refuse .unclosedQuote else .ok (blanks, tail)
  | some (first, after) =>
    match blankLines isBlank true after with
    | some (breaks, rest) => .ok (folded first breaks, rest)
    | none => Outcome.refuse .separatorInQuote

/-- The code points of a quoted scalar up to its closing quote, and what follows it. -/
def quotedScalar? (quote : Char) : Nat → List Char → Outcome Error (List Nat × List Char)
  | 0, _ => Outcome.refuse .unclosedQuote
  | _ + 1, [] => Outcome.refuse .unclosedQuote
  | fuel + 1, c :: rest => do
    if c = quote then
      if quote = '\x27' && rest.head? == some '\x27' then
        let (points, tail) ← quotedScalar? quote fuel (rest.drop 1)
        return (quote.toNat :: points, tail)
      else return ([], rest)
    else
      let (part, after) ←
        if c = '\\' && quote = '\x22' then escape? rest
        else if isBlank c || isBreak c then
          (quotedGap? (c :: rest)).map fun (gap, after) => (gap.map Char.toNat, after)
        else .ok ([c.toNat], rest)
      let (points, tail) ← quotedScalar? quote fuel after
      return (part ++ points, tail)

end ModulePath.Yaml
