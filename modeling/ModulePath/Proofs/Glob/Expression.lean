import ModulePath.Glob.Source
import ModulePath.Proofs.Glob.Language

/-!
# Regular expressions

The source of a pattern is a regular expression. This module gives the part of that notation which
sources use a syntax, a reader and a meaning: `Expression.ofText?` reads a source, `language` is the
set of texts that an expression matches as a whole, a dot standing for every character, line breaks
included. A source that would need more of the notation is not read.

Every source of a pattern is read, and it has the language of the pattern (`ofText?_source`). So the
characters that `escape` lets through unchanged are really plain, a repetition sign always follows
what it is meant for, and matching the source is matching the pattern (`fullMatch_source_iff`).
-/

set_option autoImplicit false

open scoped Computability

namespace ModulePath.Glob

/-- A regular expression. -/
inductive Expression where
  /-- The empty text. -/
  | empty
  /-- Exactly this character. -/
  | char (c : Char)
  /-- One character. -/
  | any
  /-- One character other than this. -/
  | except (c : Char)
  | sequence (first second : Expression)
  /-- The expression or nothing. -/
  | optional (e : Expression)
  /-- The expression once or more. -/
  | repeated (e : Expression)
  /-- The expression any number of times. -/
  | anyNumber (e : Expression)

namespace Expression

/-- The texts that an expression matches as a whole. -/
def language : Expression → Language Char
  | empty => 1
  | char c => {s | s = [c]}
  | any => {s | ∃ c, s = [c]}
  | except d => {s | ∃ c, c ≠ d ∧ s = [c]}
  | sequence e f => e.language * f.language
  | optional e => 1 + e.language
  | repeated e => e.language * e.language∗
  | anyNumber e => e.language∗

/-! ## Reading -/

/-- The characters with a meaning of their own in the notation. -/
def metaChars : List Char :=
  ['.', '^', '$', '*', '+', '?', '\x7b', '\x7d', '[', ']', '\\', '|', '(', ')']

/-- What a repetition sign makes of the expression before it. -/
def repetition? (c : Char) : Option (Expression → Expression) :=
  if c = '*' then some anyNumber
  else if c = '+' then some repeated
  else if c = '?' then some optional
  else none

/-- Whether a repetition sign has been applied. A second one would not be a repetition. -/
def isRepetition : Expression → Bool
  | optional _ | repeated _ | anyNumber _ => true
  | _ => false

/-- Expressions one after another. -/
def ofList (es : List Expression) : Expression := es.foldr sequence empty

/-- Read a source. `current` are the expressions of the innermost open group, the last one first,
and `outer` those of the groups around it. -/
def read? (outer : List (List Expression)) (current : List Expression) :
    List Char → Option Expression
  | [] => if outer.isEmpty then some (ofList current.reverse) else none
  | '.' :: rest => read? outer (any :: current) rest
  | '\\' :: c :: rest => if c.isAlphanum then none else read? outer (char c :: current) rest
  | '[' :: '^' :: c :: ']' :: rest =>
    if metaChars.contains c then none else read? outer (except c :: current) rest
  | '(' :: '?' :: ':' :: rest => read? (current :: outer) [] rest
  | ')' :: rest =>
    match outer with
    | [] => none
    | enclosing :: outer => read? outer (ofList current.reverse :: enclosing) rest
  | c :: rest =>
    match repetition? c, current with
    | some f, e :: current => if e.isRepetition then none else read? outer (f e :: current) rest
    | some _, [] => none
    | none, current =>
      if metaChars.contains c then none else read? outer (char c :: current) rest

/-- The expression of a source. -/
def ofText? (source : String) : Option Expression := read? [] [] source.toList

/-- Whether a source is an expression that matches a whole text. -/
def FullMatch (source s : String) : Prop := ∃ e, ofText? source = some e ∧ s.toList ∈ e.language

end Expression

/-! ## The expression of a pattern -/

/-- The expression of an atom. -/
def Atom.expression : Atom → Expression
  | .anything => .anyNumber .any
  | .segment => .anyNumber (.except '/')
  | .one => .except '/'
  | .separator => .repeated (.char '/')
  | .char c => .char c

/-- The expression of the tail. -/
def tailExpression (descendantsOnly : Bool) : Expression :=
  if descendantsOnly then .anyNumber .any
  else .optional (.ofList [.char '/', .anyNumber .any])

/-- The expression of a pattern. -/
def Pattern.expression (p : Pattern) : Expression :=
  .ofList (p.atoms.map Atom.expression ++ [tailExpression p.descendantsOnly])

section Reading

variable (outer : List (List Expression)) (current : List Expression)

/-- A character that needs no backslash is read as itself. -/
theorem read?_plain {c : Char} (hc : specialChars.contains c = false) (rest : List Char) :
    Expression.read? outer current (c :: rest) =
      Expression.read? outer (.char c :: current) rest := by
  have hne : ∀ d, specialChars.contains d = true → c ≠ d := by
    rintro d hd rfl
    rw [hc] at hd
    contradiction
  have hmeta : c ∉ Expression.metaChars := by
    have hsub : Expression.metaChars.all specialChars.contains = true := by decide
    exact fun hmem => hne c (List.all_eq_true.1 hsub c hmem) rfl
  have hrep : Expression.repetition? c = none := by
    simp [Expression.repetition?, hne '*' rfl, hne '+' rfl, hne '?' rfl]
  -- none of the clauses before the last one applies
  have hdot := hne '.' rfl
  have hback := hne '\\' rfl
  have hbracket := hne '[' rfl
  have hopen := hne '(' rfl
  have hclose := hne ')' rfl
  simp [Expression.read?, hback, hbracket, hopen, hrep, hmeta]

/-- A character behind a backslash is read as itself. -/
theorem read?_escape (c : Char) (rest : List Char) :
    Expression.read? outer current (escape c ++ rest) =
      Expression.read? outer (.char c :: current) rest := by
  unfold escape
  split
  · next hc =>
    have hall : specialChars.all (fun d => !d.isAlphanum) = true := by decide
    have hmem : c ∈ specialChars := by simpa using hc
    have halpha : c.isAlphanum = false := by simpa using List.all_eq_true.1 hall c hmem
    simp [Expression.read?, halpha]
  · next hc => exact read?_plain outer current (by simpa using hc) rest

/-- The source of an atom is read as its expression, whatever comes after it. -/
theorem read?_atom (a : Atom) (rest : List Char) :
    Expression.read? outer current (a.source ++ rest) =
      Expression.read? outer (a.expression :: current) rest := by
  cases a with
  | anything => rfl
  | segment => rfl
  | one => rfl
  | separator => rfl
  | char c => exact read?_escape outer current c rest

/-- The sources of atoms are read one after another, by induction on the atoms. -/
theorem read?_atoms (atoms : List Atom) (rest : List Char) :
    Expression.read? outer current (atoms.flatMap Atom.source ++ rest) =
      Expression.read? outer ((atoms.map Atom.expression).reverse ++ current) rest := by
  induction atoms generalizing current with
  | nil => rfl
  | cons a atoms ih =>
    rw [List.flatMap_cons, List.append_assoc, read?_atom, ih]
    simp

end Reading

/-- The source of the tail ends the expression. -/
theorem read?_tail (current : List Expression) (d : Bool) :
    Expression.read? [] current (tailSource d) =
      some (.ofList (current.reverse ++ [tailExpression d])) := by
  cases d with
  | false =>
    rw [← List.reverse_cons]
    rfl
  | true =>
    rw [← List.reverse_cons]
    rfl

/-- Every source of a pattern is read, as the expression of the pattern. -/
theorem ofText?_source (p : Pattern) : Expression.ofText? p.source = some p.expression := by
  unfold Expression.ofText? Pattern.source
  rw [String.toList_ofList, read?_atoms, read?_tail, List.append_nil, List.reverse_reverse]
  rfl

/-! ## The language of a source -/

namespace Expression

/-- Expressions in a row match what can be cut into matches. -/
theorem language_ofList (es : List Expression) :
    (ofList es).language = (es.map language).prod := by
  induction es with
  | nil => rfl
  | cons e es ih =>
    rw [List.map_cons, List.prod_cons, ← ih]
    rfl

/-- Repeating a choice among characters gives the texts of such characters. -/
theorem mem_kstar_of_singletons {P : Char → Prop} {L : Language Char}
    (hL : ∀ t, t ∈ L ↔ ∃ c, P c ∧ t = [c]) {s : List Char} : s ∈ L∗ ↔ ∀ c ∈ s, P c := by
  rw [Language.mem_kstar]
  constructor
  · rintro ⟨pieces, rfl, hpieces⟩ c hc
    obtain ⟨piece, hpiece, hcp⟩ := List.mem_flatten.1 hc
    obtain ⟨d, hd, rfl⟩ := (hL piece).1 (hpieces piece hpiece)
    rw [List.mem_singleton.1 hcp]
    exact hd
  · intro h
    refine ⟨s.map fun c => [c], (List.flatMap_singleton' s).symm, fun t ht => ?_⟩
    obtain ⟨c, hc, rfl⟩ := List.mem_map.1 ht
    exact (hL [c]).2 ⟨c, h c hc, rfl⟩

theorem mem_language_anyNumber_any (s : List Char) : s ∈ (anyNumber any).language := by
  have hany : ∀ t, t ∈ any.language ↔ ∃ c, True ∧ t = [c] := fun t =>
    ⟨fun ⟨c, hc⟩ => ⟨c, trivial, hc⟩, fun ⟨c, _, hc⟩ => ⟨c, hc⟩⟩
  exact (mem_kstar_of_singletons hany).2 fun _ _ => trivial

/-- Any number of characters but one is a text without it. -/
theorem mem_language_anyNumber_except {d : Char} {s : List Char} :
    s ∈ (anyNumber (except d)).language ↔ d ∉ s := by
  have hstar : s ∈ (anyNumber (except d)).language ↔ ∀ c ∈ s, c ≠ d :=
    mem_kstar_of_singletons (P := fun c => c ≠ d) fun _ => Iff.rfl
  rw [hstar]
  exact ⟨fun h hd => h d hd rfl, fun h c hc hcd => h (hcd ▸ hc)⟩

/-- A repeated character is a run of it. -/
theorem mem_language_repeated_char {d : Char} {s : List Char} :
    s ∈ (repeated (char d)).language ↔ ∃ n, s = List.replicate (n + 1) d := by
  have hchar : ∀ t, t ∈ (char d).language ↔ ∃ c, c = d ∧ t = [c] := fun t =>
    ⟨fun ht => ⟨d, rfl, ht⟩, fun ⟨_, hc, ht⟩ => hc ▸ ht⟩
  have hstar : ∀ t, t ∈ (char d).language∗ ↔ ∀ c ∈ t, c = d := fun _ =>
    mem_kstar_of_singletons hchar
  constructor
  · rintro ⟨a, rfl, t, ht, rfl⟩
    exact ⟨t.length, congrArg (d :: ·) (List.eq_replicate_of_mem ((hstar t).1 ht))⟩
  · rintro ⟨n, rfl⟩
    exact ⟨[d], rfl, List.replicate n d, (hstar _).2 fun c hc => List.eq_of_mem_replicate hc, rfl⟩

end Expression

theorem language_atomExpression (a : Atom) : a.expression.language = a.language := by
  ext s
  cases a with
  | anything => exact ⟨fun _ => trivial, fun _ => Expression.mem_language_anyNumber_any s⟩
  | segment => exact Expression.mem_language_anyNumber_except
  | one => exact Iff.rfl
  | separator => exact Expression.mem_language_repeated_char
  | char c => exact Iff.rfl

theorem language_tailExpression (d : Bool) : (tailExpression d).language = tailLanguage d := by
  ext s
  cases d with
  | true => exact ⟨fun _ => Or.inl rfl, fun _ => Expression.mem_language_anyNumber_any s⟩
  | false =>
    rw [mem_tailLanguage]
    constructor
    · rintro (rfl | ⟨a, rfl, t, -, rfl⟩)
      · exact Or.inr (Or.inl rfl)
      · exact Or.inr (Or.inr ⟨t, rfl⟩)
    · rintro (h | rfl | ⟨rest, rfl⟩)
      · contradiction
      · exact Or.inl rfl
      · have hrest := Expression.mem_language_anyNumber_any rest
        exact Or.inr ⟨['/'], rfl, rest, ⟨rest, hrest, [], rfl, List.append_nil rest⟩, rfl⟩

/-- The expression of a pattern matches the language of the pattern. -/
theorem language_expression (p : Pattern) : p.expression.language = p.language := by
  unfold Pattern.expression Pattern.language
  rw [Expression.language_ofList, List.map_append, List.prod_append, List.map_map]
  simp [Function.comp_def, language_atomExpression, language_tailExpression]

/-- Matching the source of a pattern is matching the pattern. -/
theorem fullMatch_source_iff (p : Pattern) (s : String) :
    Expression.FullMatch p.source s ↔ p.accepts s = true := by
  rw [accepts_iff_mem_language, ← language_expression]
  constructor
  · rintro ⟨e, he, hs⟩
    rw [ofText?_source] at he
    cases he
    exact hs
  · exact fun hs => ⟨p.expression, ofText?_source p, hs⟩

end ModulePath.Glob
