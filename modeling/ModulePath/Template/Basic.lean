import ModulePath.Text.Blank
import ModulePath.Value.Text

/-!
# Templates

A template is a text with outputs, and with blocks that are written once for each item of a list or
only under a condition. A block has a tag before and a tag after its content, and may stand anywhere
in a text, so a text can begin or end at a tag. Three preparations change the texts: `trim` takes
away the line break after every tag, `lstrip` the blanks between the beginning of a line and a tag,
and `dropEnd` a line break at the end of the template. `writeAll?` is the text of a template in a
context, with no preparation.
-/

set_option autoImplicit false

namespace ModulePath

namespace Template

/-! ## Expressions -/

/-- A number that counts something. -/
inductive Count where
  /-- The place of the item in its loop, the first being 1. -/
  | index
  /-- The number of items of the list that a variable stands for. -/
  | length (x : String)

/-- What an output shows, a condition asks or a loop goes through. -/
inductive Expr where
  /-- The value of a variable. -/
  | name (x : String)
  /-- A field of a dictionary. -/
  | field (e : Expr) (key : String)
  | text (s : String)
  /-- Whether a number is `n`. -/
  | isCount (k : Count) (n : Nat)
  /-- `yes` if the condition holds, and otherwise `no`. -/
  | choice (condition yes no : Expr)

/-- What a template is written for. -/
structure Context where
  bindings : List (String × Value)
  /-- The place of the item in the innermost loop. -/
  index : Option Nat := none

/-- The value of a number. -/
def Count.value? (c : Context) : Count → Option Nat
  | index => c.index
  | length x =>
    match c.bindings.lookup x with
    | some (.list items) => some items.length
    | _ => none

/-- The value of an expression, if it has one. -/
def Expr.value? (c : Context) : Expr → Option Value
  | name x => c.bindings.lookup x
  | field e key =>
    match e.value? c with
    | some (.dict entries) => Value.field? key entries
    | _ => none
  | text s => some (.str s)
  | isCount k n => (k.value? c).map fun m => .bool (m = n)
  | choice condition yes no => do
    if (← condition.value? c).truthy then yes.value? c else no.value? c

/-! ## Nodes -/

/-- A part of a template. -/
inductive Node where
  | text (s : String)
  /-- An expression that stands for a text. -/
  | output (e : Expr)
  /-- A number in a column of a width. -/
  | number (width : Nat) (k : Count)
  /-- A block that is written for each item of a list. -/
  | forEach (x : String) (e : Expr) (body : List Node)
  /-- A block that is written if a condition holds. -/
  | onlyIf (e : Expr) (body : List Node)

end Template

/-- A template. -/
abbrev Template := List Template.Node

namespace Template

/-- The context of an item of a loop. -/
def inLoop (c : Context) (x : String) (place : Nat) (v : Value) : Context where
  bindings := (x, v) :: c.bindings
  index := some (place + 1)

/-- A text in a column of a width. -/
def padLeft (width : Nat) (s : String) : String :=
  String.ofList (List.replicate (width - s.length) ' ') ++ s

mutual
/-- The text of a part of a template, if its expressions have values. -/
def Node.write? : Node → Context → Option String
  | .text s, _ => some s
  | .output e, c =>
    match e.value? c with
    | some (.str s) => some s
    | _ => none
  | .number width k, c => (k.value? c).map fun n => padLeft width (toString n)
  | .forEach x e body, c =>
    match e.value? c with
    | some (.list items) =>
      (items.zipIdx.mapM fun (v, place) => writeAll? body (inLoop c x place v)).map String.join
    | _ => none
  | .onlyIf e body, c => do
    if (← e.value? c).truthy then writeAll? body c else some ""
/-- The text of a template, if its expressions have values. -/
def writeAll? : Template → Context → Option String
  | [], _ => some ""
  | n :: rest, c => do return (← n.write? c) ++ (← writeAll? rest c)
end

/-! ## Preparations -/

/-- A text without a line break at its beginning. -/
def dropBreak (s : String) : String :=
  match s.toList with
  | '\n' :: rest => String.ofList rest
  | _ => s

/-- A text without the blanks at its end, if only blanks stand there on the line; `start` is whether
the text begins at the beginning of a line. -/
def dropBlanks (start : Bool) (s : String) : String :=
  let kept := Text.dropEndWhile (fun c => c = ' ' || c = '\t') s.toList
  match kept.getLast? with
  | none => if start then "" else s
  | some c => if c = '\n' then String.ofList kept else s

/-- Whether a part of a template is a block, which begins and ends at a tag. -/
def Node.isBlock : Node → Bool
  | .text _ | .output _ | .number .. => false
  | .forEach .. | .onlyIf .. => true

mutual
/-- A part of a template without the line breaks after tags; `tag` is whether one stands before
it. -/
def Node.trim (tag : Bool) : Node → Node
  | .text s => .text (if tag then dropBreak s else s)
  | .output e => .output e
  | .number width k => .number width k
  | .forEach x e body => .forEach x e (trim true body)
  | .onlyIf e body => .onlyIf e (trim true body)
/-- Take away the line break after every tag; `tag` is whether one stands before the template. -/
def trim (tag : Bool) : Template → Template
  | [] => []
  | n :: rest => n.trim tag :: trim n.isBlock rest
end

/-- Whether a tag comes next; `tag` is whether one stands after the template. -/
def tagNext (tag : Bool) : Template → Bool
  | [] => tag
  | n :: _ => n.isBlock

mutual
/-- A part of a template without the blanks between the beginning of a line and a tag; `start` is
whether it begins at the beginning of a line, and `tag` whether a tag stands after it. -/
def Node.lstrip (start tag : Bool) : Node → Node
  | .text s => .text (if tag then dropBlanks start s else s)
  | .output e => .output e
  | .number width k => .number width k
  | .forEach x e body => .forEach x e (lstrip false true body)
  | .onlyIf e body => .onlyIf e (lstrip false true body)
/-- Take away the blanks between the beginning of a line and a tag; `start` is whether the template
begins at the beginning of a line, and `tag` whether a tag stands after it. -/
def lstrip (start tag : Bool) : Template → Template
  | [] => []
  | n :: rest => n.lstrip start (tagNext tag rest) :: lstrip false tag rest
end

/-- A template without a line break at its end. -/
def dropEnd : Template → Template
  | [] => []
  | [.text s] =>
    [.text (if s.toList.getLast? = some '\n' then String.ofList s.toList.dropLast else s)]
  | n :: rest => n :: dropEnd rest

/-! ## Written templates -/

/-- Words that are no variables of a template. -/
def reserved : List String :=
  ["true", "false", "none", "and", "or", "not", "in", "is", "if", "else", "loop", "self"]

/-- Names that lead to something else than the field of a dictionary. -/
def methods : List String :=
  ["clear", "copy", "fromkeys", "get", "items", "keys", "pop", "popitem", "setdefault", "update",
    "values"]

/-- Whether a text is a word of small letters and underscores and none of some words. -/
def isWord (others : List String) (s : String) : Bool :=
  !s.isEmpty && (s.toList.all fun c => ('a' ≤ c && c ≤ 'z') || c = '_') && !others.contains s

/-- Whether a number can be written in a template. -/
def Count.isWritten : Count → Bool
  | index => true
  | length x => isWord reserved x

/-- Whether an expression can be written in a template, with variables and fields that stand for
themselves. -/
def Expr.isWritten : Expr → Bool
  | name x => isWord reserved x
  | field e key => e.isWritten && isWord methods key
  | text _ => true
  | isCount k _ => k.isWritten
  | choice condition yes no => condition.isWritten && yes.isWritten && no.isWritten

/-- Whether a text stands for itself in a template: it begins nothing, and its line breaks are line
feeds. -/
def isPlain (s : String) : Bool := s.toList.all fun c => c ≠ '\x7b' && c ≠ '\r'

mutual
/-- Whether a part of a template can be written. -/
def Node.isWritten : Node → Bool
  | .text s => isPlain s
  | .output e => e.isWritten
  | .number _ k => k.isWritten
  | .forEach x e body => isWord reserved x && e.isWritten && isWritten false body
  | .onlyIf e body => e.isWritten && isWritten false body
/-- Whether a template can be written: no text follows another one. What comes before the template
is a text or not. -/
def isWritten (afterText : Bool) : Template → Bool
  | [] => true
  | .text s :: rest => !afterText && isPlain s && isWritten true rest
  | n :: rest => n.isWritten && isWritten false rest
end

end Template

end ModulePath
