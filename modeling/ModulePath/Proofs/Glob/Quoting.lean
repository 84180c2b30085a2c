import ModulePath.Proofs.Glob.NormalForm

/-!
# Quoted texts

`quote` puts a backslash before every character of a text that a glob would read as more than
itself. What is left to read is the text itself, except that a separator stands for a run of them:
a path matches the quoted text when the two agree once runs of separators are written once, or
when the path goes on from there with a separator (`accepts_quote_unterminated`). The pieces of a
path are aligned with the characters of the text through `squeeze`: a list can be cut wherever the
squeezed list can.

Where nothing is doubled, a quoted text matches a path and its descendants, and besides only the
path with a separator after it (`quoted_matches_literally`).
-/

set_option autoImplicit false

namespace ModulePath.Glob

/-- Whether a glob reads a character as more than itself, wherever it stands. -/
def isReserved (c : Char) : Bool := c == '*' || c == '?' || c == '\\'

/-- A character with a backslash before it if it needs one. -/
def quoteChar (c : Char) : List Char := if isReserved c then ['\\', c] else [c]

/-- A text with a backslash before every reserved character. -/
def quote (s : String) : String := String.ofList (s.toList.flatMap quoteChar)

/-- The atom of a character that stands for itself. -/
def plainAtom (c : Char) : Atom := if c = '/' then .separator else .char c

/-! ## The atoms of a quoted text -/

@[simp] theorem plainAtom_separator : plainAtom '/' = .separator := rfl

theorem plainAtom_of_ne {c : Char} (h : c ≠ '/') : plainAtom c = .char c := if_neg h

/-- Only a separator stands for separators. -/
theorem plainAtom_eq_separator_iff {c : Char} : plainAtom c = .separator ↔ c = '/' := by
  constructor
  · intro h
    by_contra hc
    rw [plainAtom_of_ne hc] at h
    cases h
  · rintro rfl
    rfl

/-- Place by place a quoted text gives one atom for each character of the text. -/
theorem spelled_quoted (cs : List Char) : spelled (cs.flatMap quoteChar) = cs.map plainAtom := by
  induction cs with
  | nil => rfl
  | cons c cs ih =>
    rw [List.flatMap_cons, List.map_cons, ← ih, quoteChar]
    by_cases hreserved : isReserved c = true
    · have hslash : c ≠ '/' := by
        rintro rfl
        cases hreserved
      rw [if_pos hreserved, plainAtom_of_ne hslash]
      exact spelled_escaped c _
    · rw [if_neg hreserved, List.singleton_append]
      by_cases hslash : c = '/'
      · subst hslash
        rfl
      · have hordinary : isOrdinary c = true := by
          simp only [isReserved, Bool.or_eq_true, beq_iff_eq, not_or] at hreserved
          exact isOrdinary_of_ne hreserved.1.1 hreserved.1.2 hreserved.2 hslash
        rw [spelled_cons_of_isOrdinary hordinary, plainAtom_of_ne hslash]

/-- The atoms of a quoted text are its characters, with runs of separators as one. -/
theorem atoms_ofGlob_quote (s : String) :
    (Pattern.ofGlob (quote s)).atoms = (squeeze '/' s.toList).map plainAtom := by
  have hplain : ∀ c, plainAtom c = plainAtom '/' ↔ c = '/' := fun c => plainAtom_eq_separator_iff
  calc (Pattern.ofGlob (quote s)).atoms
      = squeeze .separator (spelled (quote s).toList) := atoms_tokens _
    _ = squeeze (plainAtom '/') (s.toList.map plainAtom) := by
      rw [quote, String.toList_ofList, spelled_quoted, plainAtom_separator]
    _ = (squeeze '/' s.toList).map plainAtom := squeeze_map hplain

/-- A quoted text means descendants only if it ends in a separator. -/
theorem descendantsOnly_ofGlob_quote (s : String) :
    (Pattern.ofGlob (quote s)).descendantsOnly = true ↔ s.toList.getLast? = some '/' := by
  rw [Pattern.descendantsOnly, atoms_ofGlob_quote, beq_iff_eq, List.getLast?_map, getLast?_squeeze,
    Option.map_eq_some_iff]
  constructor
  · rintro ⟨c, hlast, hc⟩
    rwa [← plainAtom_eq_separator_iff.1 hc]
  · intro hlast
    exact ⟨'/', hlast, rfl⟩

/-! ## What they match -/

/-- The atom of a character stands for what is squeezed to that character. -/
theorem mem_language_plainAtom {c : Char} {s : List Char} :
    s ∈ (plainAtom c).language ↔ squeeze '/' s = [c] := by
  by_cases hc : c = '/'
  · subst hc
    rw [plainAtom_separator, mem_language_separator, squeeze_eq_singleton_iff]
  · rw [plainAtom_of_ne hc, mem_language_char, squeeze_eq_singleton_iff_of_ne hc]

/-- The atoms of a text without a doubled separator stand for what is squeezed to that text. The
induction is on the text: a list that is squeezed to it can be cut after what is squeezed to its
first character. -/
theorem mem_prod_language_plainAtom {cs s : List Char} (hcs : ¬ ['/', '/'] <:+: cs) :
    s ∈ ((cs.map plainAtom).map Atom.language).prod ↔ squeeze '/' s = cs := by
  induction cs generalizing s with
  | nil => exact squeeze_eq_nil_iff.symm
  | cons c cs ih =>
    rw [doubled_infix_cons_iff, not_or, not_and] at hcs
    rw [List.map_cons, List.map_cons, List.prod_cons, Language.mem_mul]
    constructor
    · rintro ⟨first, hfirst, rest, hrest, rfl⟩
      have hc : squeeze '/' first = [c] := mem_language_plainAtom.1 hfirst
      have hrest : squeeze '/' rest = cs := (ih hcs.2).1 hrest
      -- where the pieces meet there are not two separators
      have hseam : first.getLast? = some '/' → rest.head? ≠ some '/' := by
        intro hlast
        rw [← getLast?_squeeze (a := '/'), hc] at hlast
        rw [← head?_squeeze (a := '/'), hrest]
        exact hcs.1 (Option.some.inj hlast)
      rw [squeeze_append hseam, hc, hrest, List.singleton_append]
    · intro hs
      have hcut : squeeze '/' s = [c] ++ cs := hs
      obtain ⟨first, rest, rfl, hfirst, hrest⟩ := exists_append_of_squeeze hcut
      exact ⟨first, mem_language_plainAtom.2 hfirst, rest, (ih hcs.2).2 hrest, rfl⟩

/-- A path matches a quoted text when it begins with something that is squeezed to the same, and the
rest of it fits the end of the text. -/
theorem accepts_quote_iff_exists {s p : String} :
    (Filter.glob (quote s)).accepts p = true ↔
      ∃ start rest, p.toList = start ++ rest ∧ squeeze '/' start = squeeze '/' s.toList ∧
        (s.toList.getLast? = some '/' ∨ rest = [] ∨ ∃ more, rest = '/' :: more) := by
  rw [Filter.accepts, accepts_iff_mem_language, Pattern.language, Language.mem_mul,
    atoms_ofGlob_quote]
  simp only [mem_prod_language_plainAtom not_doubled_infix_squeeze, mem_tailLanguage,
    descendantsOnly_ofGlob_quote]
  constructor
  · rintro ⟨start, hstart, rest, hrest, hp⟩
    exact ⟨start, rest, hp.symm, hstart, hrest⟩
  · rintro ⟨start, rest, hp, hstart, hrest⟩
    exact ⟨start, hstart, rest, hrest, hp.symm⟩

/-- A text that ends in a separator is matched by what goes on from it in any way. -/
theorem accepts_quote_terminated {s p : String} (hs : s.toList.getLast? = some '/') :
    (Filter.glob (quote s)).accepts p = true ↔ squeeze '/' s.toList <+: squeeze '/' p.toList := by
  rw [accepts_quote_iff_exists]
  constructor
  · rintro ⟨start, rest, hp, hstart, -⟩
    rw [hp, ← hstart]
    exact squeeze_prefix '/' start rest
  · rintro ⟨m, hm⟩
    obtain ⟨start, rest, hp, hstart, -⟩ := exists_append_of_squeeze hm.symm
    exact ⟨start, rest, hp, hstart, .inl hs⟩

/-- Any other text is matched by itself and by what goes on from it with a separator. -/
theorem accepts_quote_unterminated {s p : String} (hs : s.toList.getLast? ≠ some '/') :
    (Filter.glob (quote s)).accepts p = true ↔
      squeeze '/' p.toList = squeeze '/' s.toList ∨
        squeeze '/' s.toList ++ ['/'] <+: squeeze '/' p.toList := by
  rw [accepts_quote_iff_exists]
  constructor
  · rintro ⟨start, rest, hp, hstart, hlast | rfl | ⟨more, rfl⟩⟩
    · exact absurd hlast hs
    · exact .inl (by rw [hp, List.append_nil, hstart])
    · right
      -- the separator that the rest begins with is not joined to the start
      have hlast : start.getLast? ≠ some '/' := by
        rwa [← getLast?_squeeze (a := '/'), hstart, getLast?_squeeze]
      have hhead : (squeeze '/' ('/' :: more)).head? = some '/' := head?_squeeze
      obtain ⟨m, hm⟩ := List.head?_eq_some_iff.1 hhead
      rw [hp, squeeze_append fun h => absurd h hlast, hstart, hm]
      exact ⟨m, List.append_assoc _ _ _⟩
  · rintro (hp | ⟨m, hm⟩)
    · exact ⟨p.toList, [], (List.append_nil _).symm, hp, .inr (.inl rfl)⟩
    · rw [List.append_assoc] at hm
      obtain ⟨start, rest, hp, hstart, hrest⟩ := exists_append_of_squeeze hm.symm
      have hhead : rest.head? = some '/' := by
        rw [← head?_squeeze (a := '/'), hrest]
        rfl
      exact ⟨start, rest, hp, hstart, .inr (.inr (List.head?_eq_some_iff.1 hhead))⟩

/-! ## Where nothing is doubled -/

/-- A text that begins with another one is equal to it or goes on after it. -/
theorem prefix_iff_eq_or_goesOnAfter {s p : String} :
    s.toList <+: p.toList ↔ p = s ∨ GoesOnAfter s p := by
  constructor
  · intro h
    rcases h.length_le.eq_or_lt with hlength | hlength
    · exact .inl (String.toList_inj.1 (h.eq_of_length hlength).symm)
    · exact .inr ⟨h, hlength⟩
  · rintro (rfl | h)
    · exact List.prefix_rfl
    · exact h.1

section Undoubled

variable {s p : String} (hs : ¬ ['/', '/'] <:+: s.toList) (hp : ¬ ['/', '/'] <:+: p.toList)

include hs hp

/-- Without doubled separators there is nothing to write once. -/
theorem accepts_quote_of_undoubled :
    (Filter.glob (quote s)).accepts p = true ↔
      p = s ∨ p = Filter.withSeparator s ∨ GoesOnAfter (Filter.withSeparator s) p := by
  rw [← prefix_iff_eq_or_goesOnAfter]
  by_cases hlast : s.toList.getLast? = some '/'
  · rw [accepts_quote_terminated hlast, squeeze_eq_self_iff.2 hs, squeeze_eq_self_iff.2 hp,
      Filter.withSeparator_of_eq hlast]
    constructor
    · exact .inr
    · rintro (rfl | h)
      · exact List.prefix_rfl
      · exact h
  · rw [accepts_quote_unterminated hlast, squeeze_eq_self_iff.2 hs, squeeze_eq_self_iff.2 hp,
      Filter.withSeparator_of_ne hlast, String.toList_inj, String.toList_append]
    rfl

/-- The path with a separator after it is the only one that a quoted text matches although it is
neither the path nor a descendant of it. -/
theorem accepts_quote_eq_iff :
    (Filter.glob (quote s)).accepts p = (Filter.selfOrChildOf s).accepts p ↔ p ≠ s ++ "/" := by
  rw [Bool.eq_iff_iff, accepts_quote_of_undoubled hs hp, Filter.Expr.accepts_of_selfOrChildOf]
  by_cases hlast : s.toList.getLast? = some '/'
  · rw [Filter.withSeparator_of_eq hlast]
    -- one more separator would be doubled
    have hne : p ≠ s ++ "/" := by
      rintro rfl
      obtain ⟨rest, hrest⟩ := List.getLast?_eq_some_iff.1 hlast
      exact hp ⟨rest, [], by simp [hrest]⟩
    simp [hne]
  · rw [Filter.withSeparator_of_ne hlast]
    constructor
    · rintro h rfl
      rcases h.1 (.inr (.inl rfl)) with hself | ⟨-, hlonger⟩
      · simpa using congrArg String.length hself
      · exact lt_irrefl _ hlonger
    · intro hne
      simp [hne]

end Undoubled

/-- A quoted text is matched literally, except that a separator stands for a run of them: by the
paths that go on from it in any way if it ends in a separator, and otherwise by itself and by the
paths that go on from it with a separator. Without doubled separators these are the path and its
descendants, and besides only the path with a separator after it. -/
theorem quoted_matches_literally (s p : String) :
    ((Filter.glob (quote s)).accepts p = true ↔
      if s.toList.getLast? = some '/' then squeeze '/' s.toList <+: squeeze '/' p.toList
      else squeeze '/' p.toList = squeeze '/' s.toList ∨
        squeeze '/' s.toList ++ ['/'] <+: squeeze '/' p.toList) ∧
      (¬ ['/', '/'] <:+: s.toList → ¬ ['/', '/'] <:+: p.toList →
        ((Filter.glob (quote s)).accepts p = (Filter.selfOrChildOf s).accepts p ↔
          p ≠ s ++ "/")) := by
  refine ⟨?_, accepts_quote_eq_iff⟩
  split
  · next hlast => exact accepts_quote_terminated hlast
  · next hlast => exact accepts_quote_unterminated hlast

/-- The star is matched by a star only, and the doubled separator makes no difference. -/
theorem quoted_matches_sample :
    quote "a*/b" = "a\\*/b" ∧
      (Filter.glob (quote "a*/b")).accepts "a*//b/c" = true ∧
      (Filter.glob (quote "a*/b")).accepts "ax/b" = false ∧
      ¬ ['/', '/'] <:+: "a*/b".toList ∧ ¬ ['/', '/'] <:+: "a*/b/c".toList ∧
      (Filter.glob (quote "a*/b")).accepts "a*/b/c" =
        (Filter.selfOrChildOf "a*/b").accepts "a*/b/c" := by
  have hliteral := (quoted_matches_literally "a*/b" "a*//b/c").1
  have hother := (quoted_matches_literally "a*/b" "ax/b").1
  have hs : ¬ ['/', '/'] <:+: "a*/b".toList := by decide
  have hp : ¬ ['/', '/'] <:+: "a*/b/c".toList := by decide
  refine ⟨by decide, hliteral.2 (by decide), ?_, hs, hp,
    ((quoted_matches_literally "a*/b" "a*/b/c").2 hs hp).2 (by decide)⟩
  exact Bool.eq_false_iff.2 (mt hother.1 (by decide))

end ModulePath.Glob
