import Mathlib.Data.List.DropRight
import ModulePath.Layers.Conf
import ModulePath.Proofs.Text.Lines

/-!
# The pattern of a property line

A line with a property is a key, blanks, at most one separator, blanks and a value: five parts, each
of which takes as many characters as it can and gives some back only where the parts after it find
no match otherwise. All matches of a pattern are listed in that order (`fullMatches`). The last part
takes any characters, so nothing is ever given back: there is a match on every line, and the first
one is the key and the value that are read from it (`groups?_eq`). Reading properties by the pattern
succeeds on every text for that reason (`parse?_eq`).
-/

set_option autoImplicit false

namespace ModulePath.Layers.Properties

variable {cs : List Char}

/-! ## Patterns -/

/-- A part of a pattern: characters of one class, any number of them or at most one. -/
structure Part where
  holds : Char → Bool
  single : Bool := false

namespace Part

/-- The ways in which a part takes a beginning of a text, the longest first: what it takes and what
it leaves. -/
def cuts (p : Part) : List Char → List (List Char × List Char)
  | [] => [([], [])]
  | c :: cs =>
    if p.holds c then
      (if p.single then [([c], cs)] else (p.cuts cs).map fun cut => (c :: cut.1, cut.2)) ++
        [([], c :: cs)]
    else [([], c :: cs)]

/-- The longest of them. -/
def longest (p : Part) : List Char → List Char × List Char
  | [] => ([], [])
  | c :: cs =>
    if p.holds c then
      if p.single then ([c], cs) else (c :: (p.longest cs).1, (p.longest cs).2)
    else ([], c :: cs)

/-- The longest match of a part is tried first. -/
theorem exists_cuts_eq (p : Part) (cs : List Char) :
    ∃ shorter, p.cuts cs = p.longest cs :: shorter := by
  induction cs with
  | nil => exact ⟨[], rfl⟩
  | cons c cs ih =>
    obtain ⟨shorter, hcuts⟩ := ih
    rw [cuts, longest]
    split
    case isTrue =>
      split
      case isTrue => exact ⟨_, rfl⟩
      case isFalse =>
        rw [hcuts]
        exact ⟨_, rfl⟩
    case isFalse => exact ⟨[], rfl⟩

/-- Any number of characters of a class. -/
theorem longest_many (holds : Char → Bool) (cs : List Char) :
    (Part.mk holds false).longest cs = (cs.takeWhile holds, cs.dropWhile holds) := by
  induction cs with
  | nil => rfl
  | cons c cs ih =>
    rw [longest, ih, List.takeWhile_cons, List.dropWhile_cons]
    by_cases h : holds c = true
    · simp [h]
    · simp [h]

end Part

/-- All matches of a pattern on the whole of a text, in the order in which they are tried. A match
is what the parts take. -/
def fullMatches : List Part → List Char → List (List (List Char))
  | [], [] => [[]]
  | [], _ :: _ => []
  | p :: ps, cs => (p.cuts cs).flatMap fun cut => (fullMatches ps cut.2).map (cut.1 :: ·)

/-- Any characters. -/
def anything : Part := ⟨fun _ => true, false⟩

/-- The match in which every part takes what it can, and all that is left comes last. -/
def greedy : List Part → List Char → List (List Char)
  | [], cs => [cs]
  | p :: ps, cs => (p.longest cs).1 :: greedy ps (p.longest cs).2

/-- If anything can come last, no part has to give anything back. -/
theorem exists_fullMatches_eq (ps : List Part) (cs : List Char) :
    ∃ others, fullMatches (ps ++ [anything]) cs = greedy ps cs :: others := by
  induction ps generalizing cs with
  | nil =>
    obtain ⟨shorter, hcuts⟩ := anything.exists_cuts_eq cs
    have hall : anything.longest cs = (cs, []) := by
      rw [anything, Part.longest_many, List.takeWhile_eq_self_iff.2 fun _ _ => rfl,
        List.dropWhile_eq_nil_iff.2 fun _ _ => rfl]
    rw [List.nil_append, fullMatches, hcuts, hall]
    exact ⟨_, rfl⟩
  | cons p ps ih =>
    obtain ⟨shorter, hcuts⟩ := p.exists_cuts_eq cs
    obtain ⟨others, hothers⟩ := ih (p.longest cs).2
    rw [List.cons_append, fullMatches, hcuts, List.flatMap_cons, hothers]
    exact ⟨_, rfl⟩

/-! ## Lines -/

/-- The parts of a line before its value. -/
def lineParts : List Part :=
  [⟨fun c => !endsKey c, false⟩, ⟨Text.isBlank, false⟩, ⟨fun c => c = '=' || c = ':', true⟩,
    ⟨Text.isBlank, false⟩]

/-- The key and the value in the first match of a line, if there is a match. -/
def groups? (line : List Char) : Option (String × String) :=
  match fullMatches (lineParts ++ [anything]) line with
  | [key, _, _, _, value] :: _ => some (String.ofList key, String.ofList value)
  | _ => none

/-- At most one separator is passed, and the blanks after it. -/
theorem dropSeparator_dropWhile (cs : List Char) :
    ((Part.mk (fun c => c = '=' || c = ':') true).longest (cs.dropWhile Text.isBlank)).2.dropWhile
        Text.isBlank =
      dropSeparator (cs.dropWhile Text.isBlank) := by
  cases hrest : cs.dropWhile Text.isBlank with
  | nil => rfl
  | cons c rest =>
    rw [Part.longest, dropSeparator]
    split
    case isTrue => rfl
    case isFalse =>
      -- without a separator the blanks are gone already
      rw [← hrest]
      exact List.dropWhile_idempotent _ _

/-- Every line matches, with the groups that are read off it. -/
theorem groups?_eq (line : List Char) : groups? line = some (entryOf line) := by
  obtain ⟨others, hothers⟩ := exists_fullMatches_eq lineParts line
  have hgreedy : ∃ blanks separator blanks', greedy lineParts line =
      [line.takeWhile fun c => !endsKey c, blanks, separator, blanks',
        dropSeparator ((line.dropWhile fun c => !endsKey c).dropWhile Text.isBlank)] := by
    simp only [lineParts, greedy, Part.longest_many, dropSeparator_dropWhile]
    exact ⟨_, _, _, rfl⟩
  obtain ⟨blanks, separator, blanks', hgreedy⟩ := hgreedy
  rw [groups?, hothers, hgreedy]
  rfl

/-- The properties of a text, read by the pattern. A line without a match would be the end of it. -/
def parse? (s : String) : Option Properties :=
  (((Text.splitLines s.toList).map Text.trim).filter isEntry).foldlM
    (fun ps line => (groups? line).map fun e => put e.1 e.2 ps) []

/-- Every text is read line by line. -/
theorem parse?_eq (s : String) : parse? s = some (ofText s) := by
  have hstep (ps : Properties) (line : List Char) :
      ((groups? line).map fun e => put e.1 e.2 ps) =
        pure (put (entryOf line).1 (entryOf line).2 ps) := by
    rw [groups?_eq]
    rfl
  unfold parse?
  simp only [hstep, List.foldlM_pure]
  rfl

end ModulePath.Layers.Properties
