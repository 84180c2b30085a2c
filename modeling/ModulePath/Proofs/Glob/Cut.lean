import ModulePath.Filter.Basic
import ModulePath.Proofs.Glob.Expression
import ModulePath.Proofs.Glob.Tokens

/-!
# What a glob matches

A glob matches a path when the path can be cut into pieces, one for each token of the glob, and a
tail (`Cut`). What piece a token takes is said token by token (`Token.Takes`); the tail is anything
after a last run of separators, and otherwise nothing or a separator and anything.

`glob_accepts_iff_cut` joins the three readings of a glob: the filter that is built from it, its
regular expression, and the cut along the tokens that the glob has by the rule `Tokenised`.
-/

set_option autoImplicit false

namespace ModulePath.Glob

/-- The pieces of a path that a token takes. -/
def Token.Takes : Token → List Char → Prop
  | .anything, _ => True
  | .segment, s => '/' ∉ s
  | .one, s => ∃ c, c ≠ '/' ∧ s = [c]
  | .escaped c, s => s = [c]
  | .separators _, s => ∃ n, s = List.replicate (n + 1) '/'
  | .literal first more, s => s = first :: more
  | .backslash, s => s = ['\\']

/-- What may follow the pieces of the tokens. -/
def IsTail (ts : List Token) (s : List Char) : Prop :=
  (∃ more, ts.getLast? = some (.separators more)) ∨ s = [] ∨ ∃ rest, s = '/' :: rest

/-- A path falls into a piece for each token and a tail. -/
def Cut (ts : List Token) (path : List Char) : Prop :=
  ∃ pieces tail, path = pieces.flatten ++ tail ∧ List.Forall₂ Token.Takes ts pieces ∧ IsTail ts tail

/-! ## From tokens to atoms -/

/-- The pieces that a token takes, as a language. -/
def Token.language (t : Token) : Language Char := {s | t.Takes s}

/-- The language of a text has the text and nothing else. -/
theorem mem_prod_language_char (cs s : List Char) :
    s ∈ ((cs.map Atom.char).map Atom.language).prod ↔ s = cs := by
  induction cs generalizing s with
  | nil => exact Iff.rfl
  | cons c cs ih =>
    rw [List.map_cons, List.map_cons, List.prod_cons, Language.mem_mul]
    constructor
    · rintro ⟨a, rfl, b, hb, rfl⟩
      rw [(ih b).1 hb, List.singleton_append]
    · rintro rfl
      exact ⟨[c], rfl, cs, (ih cs).2 rfl, rfl⟩

/-- A token takes what its atoms stand for together. -/
theorem Token.prod_language_atoms (t : Token) :
    (t.atoms.map Atom.language).prod = t.language := by
  cases t with
  | literal first more =>
    ext s
    exact mem_prod_language_char (first :: more) s
  | anything | segment | one | escaped _ | separators _ | backslash => exact mul_one _

/-- A text of a product falls into a piece for each factor. -/
theorem mem_prod_iff {ts : List Token} {s : List Char} :
    s ∈ (ts.map Token.language).prod ↔
      ∃ pieces, s = pieces.flatten ∧ List.Forall₂ Token.Takes ts pieces := by
  induction ts generalizing s with
  | nil =>
    constructor
    · rintro rfl
      exact ⟨[], rfl, .nil⟩
    · rintro ⟨pieces, rfl, h⟩
      cases h
      rfl
  | cons t ts ih =>
    rw [List.map_cons, List.prod_cons, Language.mem_mul]
    constructor
    · rintro ⟨a, ha, b, hb, rfl⟩
      obtain ⟨pieces, rfl, hpieces⟩ := ih.1 hb
      exact ⟨a :: pieces, rfl, .cons ha hpieces⟩
    · rintro ⟨pieces, rfl, h⟩
      cases h with
      | @cons _ a _ pieces ha hpieces =>
        exact ⟨a, ha, pieces.flatten, ih.2 ⟨pieces, rfl, hpieces⟩, rfl⟩

/-- A token ends in a separator if it is one. -/
theorem Token.getLast?_atoms (t : Token) :
    t.atoms.getLast? = some .separator ↔ ∃ more, t = .separators more := by
  cases t with
  | separators more => exact ⟨fun _ => ⟨more, rfl⟩, fun _ => rfl⟩
  | literal first more =>
    constructor
    · intro h
      have hmem := List.mem_of_getLast? h
      simp [atoms] at hmem
    · rintro ⟨_, h⟩
      cases h
  | anything | segment | one | escaped _ | backslash => simp [atoms]

/-- A pattern is for descendants only when the last token of the glob is a run of separators. -/
theorem descendantsOnly_ofGlob (g : String) :
    (Pattern.ofGlob g).descendantsOnly = true ↔
      ∃ more, (tokens g.toList).getLast? = some (.separators more) := by
  unfold Pattern.descendantsOnly Pattern.ofGlob
  rw [beq_iff_eq]
  rcases List.eq_nil_or_concat (tokens g.toList) with h | ⟨ts, t, h⟩
  · simp [h]
  · -- no token is without atoms, so the last atom belongs to the last token
    have hne : t.atoms ≠ [] := by
      cases t <;> simp [Token.atoms]
    rw [h, List.concat_eq_append, List.flatMap_append, List.getLast?_concat]
    simp only [List.flatMap_singleton, List.getLast?_append_of_ne_nil _ hne, Option.some.injEq]
    exact t.getLast?_atoms

/-- The language of a glob, token by token. -/
theorem mem_language_ofGlob {g : String} {path : List Char} :
    path ∈ (Pattern.ofGlob g).language ↔ Cut (tokens g.toList) path := by
  have hatoms : (((tokens g.toList).flatMap Token.atoms).map Atom.language).prod =
      ((tokens g.toList).map Token.language).prod := by
    induction tokens g.toList with
    | nil => rfl
    | cons t ts ih =>
      rw [List.flatMap_cons, List.map_append, List.prod_append, t.prod_language_atoms, ih]
      rfl
  have htail : ∀ s, s ∈ tailLanguage (Pattern.ofGlob g).descendantsOnly ↔
      IsTail (tokens g.toList) s := by
    intro s
    rw [mem_tailLanguage, descendantsOnly_ofGlob]
    rfl
  unfold Pattern.language
  -- only the atoms are told by their tokens, the tail keeps the pattern
  rw [Pattern.ofGlob, hatoms, ← Pattern.ofGlob, Language.mem_mul]
  constructor
  · rintro ⟨a, ha, tail, ht, rfl⟩
    obtain ⟨pieces, rfl, hpieces⟩ := mem_prod_iff.1 ha
    exact ⟨pieces, tail, rfl, hpieces, (htail tail).1 ht⟩
  · rintro ⟨pieces, tail, rfl, hpieces, ht⟩
    exact ⟨pieces.flatten, mem_prod_iff.2 ⟨pieces, rfl, hpieces⟩, tail, (htail tail).2 ht, rfl⟩

/-- A glob accepts the paths that can be cut into pieces for its tokens. -/
theorem accepts_iff_cut {g p : String} :
    (Filter.glob g).accepts p = true ↔ Cut (tokens g.toList) p.toList := by
  rw [Filter.accepts, accepts_iff_mem_language, mem_language_ofGlob]

/-- A glob has one list of tokens; both its filter and its regular expression match exactly the
paths that can be cut along them. -/
theorem glob_accepts_iff_cut (g p : String) :
    ∃ ts, (∀ us, Tokenised g.toList us ↔ us = ts) ∧
      (Expression.FullMatch (Pattern.ofGlob g).source p ↔ Cut ts p.toList) ∧
      ((Filter.glob g).accepts p = true ↔ Cut ts p.toList) := by
  have hcut : (Pattern.ofGlob g).accepts p = true ↔ Cut (tokens g.toList) p.toList := by
    rw [accepts_iff_mem_language, mem_language_ofGlob]
  refine ⟨tokens g.toList, fun us => tokenised_iff, ?_, ?_⟩
  · rw [fullMatch_source_iff, hcut]
  · rw [Filter.accepts, hcut]

end ModulePath.Glob
