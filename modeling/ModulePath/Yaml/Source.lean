import ModulePath.FileSystem.Basic
import ModulePath.Text.Portion
import ModulePath.Yaml.Char

/-!
# The text of a YAML document

A document is read in portions, the first two together. A portion that is no text or has a character
that no document has ends the text: what comes before it is still read, and an error there counts
first.
-/

set_option autoImplicit false

namespace ModulePath.Yaml

/-- A text, and why it does not go on at its end, if it should. -/
structure Source where
  text : List Char
  failure : Option (Failure Error) := none

namespace Source

/-- A text up to its first portion with a character that no document has, and up to `failure` if
there is no such portion. -/
def ofPortions (failure : Option (Failure Error)) : List (List Char) → Source
  | [] => ⟨[], failure⟩
  | portion :: rest =>
    match portion.find? fun c => !isPrintable c with
    | some c => ⟨[], some (.refused (.unprintable c))⟩
    | none =>
      let more := ofPortions failure rest
      { more with text := portion ++ more.text }

/-- A text in portions of which the first two are read together; `broken` is whether one more is no
text. -/
def ofReading (portions : List (List Char)) (broken : Bool) : Source :=
  let failure := if broken then some (.fault .encoding) else none
  match portions with
  | first :: second :: rest => ofPortions failure ((first ++ second) :: rest)
  | _ => if broken then ⟨[], failure⟩ else ofPortions failure portions

/-- The text of a file. -/
def ofContent : Content → Source
  | .text s => ofPortions none [s.toList]
  | .bytes b => ofReading (Text.portionsOf b).1 (Text.portionsOf b).2

end Source

end ModulePath.Yaml
