import ModulePath.Text.Blank

/-!
# Paths

A path of a file system: where it starts from, and its components. Reading a path drops empty and
`.` components and keeps `..`. Two leading separators are an anchor of their own; three or more are
one.
-/

set_option autoImplicit false

namespace ModulePath

/-- Where a path starts from. -/
inductive Path.Anchor where
  | relative
  | root
  | doubleRoot
deriving DecidableEq, Repr

/-- A path. -/
structure Path where
  anchor : Path.Anchor
  parts : List String
deriving DecidableEq, Repr

namespace Path

/-- The characters of an anchor. -/
def Anchor.text : Anchor → String
  | relative => ""
  | root => "/"
  | doubleRoot => "//"

/-- The anchor of a text: two leading separators are kept apart, any other number above zero is
one. -/
def anchorOf : List Char → Anchor
  | '/' :: '/' :: '/' :: _ => .root
  | '/' :: '/' :: _ => .doubleRoot
  | '/' :: _ => .root
  | _ => .relative

/-- The components of a text. -/
def partsOf (cs : List Char) : List String :=
  ((Text.splitAt '/' cs).filter fun part => !part.isEmpty && part != ['.']).map String.ofList

/-- Read a path. -/
def ofText (s : String) : Path :=
  ⟨anchorOf s.toList, partsOf s.toList⟩

/-- The path that stands for the current directory. -/
def here : Path := ⟨.relative, []⟩

/-- A path as text. -/
def text (p : Path) : String :=
  if p = here then "." else p.anchor.text ++ String.intercalate "/" p.parts

/-- Whether a path does not depend on the current directory. -/
def isAbsolute (p : Path) : Bool := p.anchor != .relative

/-- A path below another; an absolute path stands for itself. -/
def join (p q : Path) : Path :=
  if q.isAbsolute then q else ⟨p.anchor, p.parts ++ q.parts⟩

/-- The path of an entry of a directory. -/
def child (p : Path) (name : String) : Path := p.join (ofText name)

/-- The path without its last component. -/
def parent (p : Path) : Path := ⟨p.anchor, p.parts.dropLast⟩

/-- The last component. -/
def name (p : Path) : String := p.parts.getLast?.getD ""

/-- The path, its parent, and so on up to the anchor. -/
def withParents (p : Path) : List Path :=
  (List.range (p.parts.length + 1)).map fun k => ⟨p.anchor, p.parts.take (p.parts.length - k)⟩

/-- A path without `..`, as far as it can be read off the path itself. -/
def collapse (p : Path) : Path :=
  ⟨p.anchor, (p.parts.foldl (fun parts part =>
    match part, parts with
    | "..", [] => if p.isAbsolute then [] else [part]
    | "..", last :: rest => if last = ".." then part :: parts else rest
    | _, _ => part :: parts) []).reverse⟩

/-- Whether `p` is `q` or lies below it. -/
def isWithin (q p : Path) : Bool :=
  p.anchor == q.anchor && q.parts.isPrefixOf p.parts

end Path

end ModulePath
