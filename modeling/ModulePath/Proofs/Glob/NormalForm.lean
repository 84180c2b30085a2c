import ModulePath.Proofs.Filter.Equality
import ModulePath.Proofs.Text.Squeeze

/-!
# Normal forms of globs

The normal form of a glob is the list of the atoms of its tokens (`IsNormalForm`). The source of a
pattern can be read in one way only, so no two patterns have the same one
(`Pattern.source_injective`), and two globs are equal filters exactly when they have the same normal
form (`same_glob_iff_normalForm`). How a glob is spelled shows in its atoms place by place, before
runs of separators are written once (`atoms_tokens`); in these terms it is plain which spellings
make no difference.
-/

set_option autoImplicit false

namespace ModulePath.Glob

/-! ## One pattern for each source -/

theorem Expression.ofList_injective : Function.Injective Expression.ofList := by
  intro es fs h
  induction es generalizing fs with
  | nil =>
    cases fs with
    | nil => rfl
    | cons f fs => cases h
  | cons e es ih =>
    cases fs with
    | nil => cases h
    | cons f fs =>
      obtain ⟨rfl, hrest⟩ := Expression.sequence.inj h
      rw [ih hrest]

/-- Atoms are told apart by their expressions. -/
theorem Atom.expression_injective : Function.Injective Atom.expression := by
  intro a b h
  cases a <;> cases b <;> simp_all [Atom.expression]

/-- A source is read as the expression of its pattern, which has an expression for each atom and one
for the tail. -/
theorem Pattern.source_injective : Function.Injective Pattern.source := by
  intro p q h
  have hread : some p.expression = some q.expression := by
    rw [← ofText?_source, ← ofText?_source, h]
  have hlists := Expression.ofList_injective (Option.some.inj hread)
  have hatoms := (List.append_inj' hlists rfl).1
  exact congrArg Pattern.mk (List.map_injective_iff.2 Atom.expression_injective hatoms)

/-! ## Normal forms -/

/-- The atoms of the tokens of a glob. -/
def IsNormalForm (g : String) (as : List Atom) : Prop :=
  ∃ ts, Tokenised g.toList ts ∧ as = ts.flatMap Token.atoms

/-- The normal form of a glob is the list of the atoms of its pattern. -/
theorem isNormalForm_iff {g : String} {as : List Atom} :
    IsNormalForm g as ↔ as = (Pattern.ofGlob g).atoms := by
  constructor
  · rintro ⟨ts, hts, rfl⟩
    obtain rfl := tokenised_iff.1 hts
    rfl
  · rintro rfl
    exact ⟨tokens g.toList, tokenised_tokens g.toList, rfl⟩

/-- Patterns have the same source exactly if they have the same atoms. -/
theorem source_ofGlob_eq_iff {g h : String} :
    (Pattern.ofGlob g).source = (Pattern.ofGlob h).source ↔
      (Pattern.ofGlob g).atoms = (Pattern.ofGlob h).atoms := by
  constructor
  · intro hsource
    rw [Pattern.source_injective hsource]
  · intro hatoms
    have hpatterns : Pattern.ofGlob g = Pattern.ofGlob h := congrArg Pattern.mk hatoms
    rw [hpatterns]

/-- Globs are equal as filters exactly if they have the same atoms. -/
theorem same_glob_iff {g h : String} :
    Filter.Same (.glob g) (.glob h) ↔ (Pattern.ofGlob g).atoms = (Pattern.ofGlob h).atoms := by
  rw [← source_ofGlob_eq_iff]
  constructor
  · intro hsame
    cases Filter.same_iff.1 hsame with
    | glob hsource => exact hsource
  · intro hsource
    exact Filter.same_iff.2 (.glob hsource)

/-! ## Spellings -/

/-- The atoms of a glob place by place, with one for each separator. -/
def spelled : List Char → List Atom
  | [] => []
  | '*' :: '*' :: rest => .anything :: spelled rest
  | '*' :: rest => .segment :: spelled rest
  | '?' :: rest => .one :: spelled rest
  | ['\\'] => [.char '\\']
  | '\\' :: c :: rest => .char c :: spelled rest
  | '/' :: rest => .separator :: spelled rest
  | c :: rest => .char c :: spelled rest

@[simp] theorem spelled_separator (rest : List Char) :
    spelled ('/' :: rest) = .separator :: spelled rest := rfl

theorem spelled_segment {rest : List Char} (h : rest.head? ≠ some '*') :
    spelled ('*' :: rest) = .segment :: spelled rest := by
  have hstar : ∀ more, rest ≠ '*' :: more := by
    rintro more rfl
    exact h rfl
  simp [spelled]

@[simp] theorem spelled_escaped (c : Char) (rest : List Char) :
    spelled ('\\' :: c :: rest) = .char c :: spelled rest := by
  simp [spelled]

theorem spelled_cons_of_isOrdinary {c : Char} (h : isOrdinary c = true) (rest : List Char) :
    spelled (c :: rest) = .char c :: spelled rest := by
  obtain ⟨hstar, hone, hback, hslash⟩ := ne_of_isOrdinary h
  simp [spelled, hstar, hback]

/-! ### Their atoms -/

/-- A character that is pushed adds its atom. -/
theorem flatMap_atoms_pushLiteral (c : Char) (ts : List Token) :
    (pushLiteral c ts).flatMap Token.atoms = .char c :: ts.flatMap Token.atoms := by
  cases ts with
  | nil => rfl
  | cons t ts =>
    cases t with
    | anything | segment | one | escaped _ | separators _ | literal _ _ | backslash => rfl

/-- A separator that is pushed adds its atom, unless it meets another one. -/
theorem flatMap_atoms_pushSeparator {as : List Atom} {ts : List Token}
    (h : ts.flatMap Token.atoms = squeeze .separator as) :
    (pushSeparator ts).flatMap Token.atoms = squeeze .separator (.separator :: as) := by
  have hhead : as.head? = (ts.flatMap Token.atoms).head? := by rw [h, head?_squeeze]
  cases ts with
  | nil =>
    rw [squeeze_cons, ← h]
    · rfl
    · simp [hhead]
  | cons t ts =>
    cases t with
    | separators more =>
      rw [squeeze_cons_self, ← h]
      · rfl
      · simp [hhead, Token.atoms]
    | anything | segment | one | escaped _ | literal _ _ | backslash =>
      rw [squeeze_cons, ← h]
      · rfl
      · simp [hhead, Token.atoms]

/-- The atoms of a glob are those of its places, with runs of separators written once. -/
theorem atoms_tokens (cs : List Char) :
    (tokens cs).flatMap Token.atoms = squeeze .separator (spelled cs) := by
  induction cs using induct with
  | hnil => rfl
  | hanything rest ih =>
    rw [spelled, squeeze_cons_of_ne (by simp), ← ih]
    rfl
  | hsegment rest hnext ih =>
    rw [tokens_segment hnext, spelled_segment hnext, squeeze_cons_of_ne (by simp), ← ih]
    rfl
  | hone rest ih =>
    rw [spelled, squeeze_cons_of_ne (by simp), ← ih]
    rfl
  | hbackslash => rfl
  | hescaped c rest ih =>
    rw [spelled_escaped, squeeze_cons_of_ne (by simp), ← ih]
    rfl
  | hseparator rest ih => exact flatMap_atoms_pushSeparator ih
  | hliteral c rest hc ih =>
    rw [tokens_cons_of_isOrdinary hc, flatMap_atoms_pushLiteral, ih, spelled_cons_of_isOrdinary hc,
      squeeze_cons_of_ne (by simp)]

/-! ### Put together -/

@[simp] theorem backslash_mem_pushLiteral {c : Char} {ts : List Token} :
    Token.backslash ∈ pushLiteral c ts ↔ Token.backslash ∈ ts := by
  cases ts with
  | nil => simp [pushLiteral]
  | cons t ts =>
    cases t with
    | anything | segment | one | escaped _ | separators _ | literal _ _ | backslash =>
      simp [pushLiteral]

@[simp] theorem backslash_mem_pushSeparator {ts : List Token} :
    Token.backslash ∈ pushSeparator ts ↔ Token.backslash ∈ ts := by
  cases ts with
  | nil => simp [pushSeparator]
  | cons t ts =>
    cases t with
    | anything | segment | one | escaped _ | separators _ | literal _ _ | backslash =>
      simp [pushSeparator]

/-- Spellings that are put together give their atoms one after the other, unless the first one ends
in a backslash or stars meet. -/
theorem spelled_append {cs ds : List Char} (hcs : Token.backslash ∉ tokens cs)
    (hds : ds.head? ≠ some '*') : spelled (cs ++ ds) = spelled cs ++ spelled ds := by
  induction cs using induct with
  | hnil => rfl
  | hanything rest ih =>
    exact congrArg (.anything :: ·) (ih (List.not_mem_of_not_mem_cons hcs))
  | hsegment rest hnext ih =>
    rw [tokens_segment hnext] at hcs
    -- at the seam too the star stays on its own
    have hnext' : (rest ++ ds).head? ≠ some '*' := by
      cases rest with
      | nil => exact hds
      | cons c rest => exact hnext
    rw [List.cons_append, spelled_segment hnext', spelled_segment hnext,
      ih (List.not_mem_of_not_mem_cons hcs), List.cons_append]
  | hone rest ih =>
    exact congrArg (.one :: ·) (ih (List.not_mem_of_not_mem_cons hcs))
  | hbackslash => exact absurd (List.mem_singleton_self _) hcs
  | hescaped c rest ih =>
    rw [tokens_escaped] at hcs
    rw [List.cons_append, List.cons_append, spelled_escaped, spelled_escaped,
      ih (List.not_mem_of_not_mem_cons hcs), List.cons_append]
  | hseparator rest ih =>
    have hrest : Token.backslash ∉ tokens rest := fun h => hcs (backslash_mem_pushSeparator.2 h)
    exact congrArg (.separator :: ·) (ih hrest)
  | hliteral c rest hc ih =>
    rw [tokens_cons_of_isOrdinary hc, backslash_mem_pushLiteral] at hcs
    rw [List.cons_append, spelled_cons_of_isOrdinary hc, spelled_cons_of_isOrdinary hc, ih hcs,
      List.cons_append]

/-! ## Spellings that make no difference -/

/-- Globs are equal as filters exactly if they are spelled alike up to runs of separators. -/
theorem same_glob_iff_spelled {g h : String} :
    Filter.Same (.glob g) (.glob h) ↔
      squeeze .separator (spelled g.toList) = squeeze .separator (spelled h.toList) := by
  rw [same_glob_iff, ← atoms_tokens, ← atoms_tokens]
  rfl

section Spellings

variable {a : String} (ha : Token.backslash ∉ tokens a.toList) (b : String)

include ha

/-- A backslash before an ordinary character is left out. -/
theorem same_glob_escaped {c : Char} (hc : isOrdinary c = true) :
    Filter.Same (.glob (a ++ "\\" ++ String.singleton c ++ b))
      (.glob (a ++ String.singleton c ++ b)) := by
  have hstar : c ≠ '*' := (ne_of_isOrdinary hc).1
  have hescaped : spelled (a ++ "\\" ++ String.singleton c ++ b).toList =
      spelled a.toList ++ .char c :: spelled b.toList := by
    rw [← spelled_escaped, ← spelled_append ha (by simp)]
    simp
  have hplain : spelled (a ++ String.singleton c ++ b).toList =
      spelled a.toList ++ .char c :: spelled b.toList := by
    rw [← spelled_cons_of_isOrdinary hc, ← spelled_append ha (by simpa using hstar)]
    simp
  rw [same_glob_iff_spelled, hescaped, hplain]

/-- A separator keeps apart what stands on its two sides. -/
theorem spelled_separator_between :
    spelled (a ++ "/" ++ b).toList = spelled a.toList ++ .separator :: spelled b.toList := by
  rw [← spelled_separator, ← spelled_append ha (by simp)]
  simp

/-- A separator beside a separator is left out. -/
theorem same_glob_doubled :
    Filter.Same (.glob (a ++ "//" ++ b)) (.glob (a ++ "/" ++ b)) := by
  have hdoubled : spelled (a ++ "//" ++ b).toList =
      spelled a.toList ++ .separator :: .separator :: spelled b.toList := by
    rw [← spelled_separator, ← spelled_separator, ← spelled_append ha (by simp)]
    simp
  rw [same_glob_iff_spelled, hdoubled, spelled_separator_between ha, squeeze_append_doubled]

/-- A separator that is made literal is kept apart: there is one such atom more. -/
theorem not_same_glob_escaped_separator :
    ¬ Filter.Same (.glob (a ++ "\\/" ++ b)) (.glob (a ++ "/" ++ b)) := by
  have hliteral : spelled (a ++ "\\/" ++ b).toList =
      spelled a.toList ++ .char '/' :: spelled b.toList := by
    rw [← spelled_escaped, ← spelled_append ha (by simp)]
    simp
  rw [same_glob_iff_spelled, hliteral, spelled_separator_between ha]
  intro hsame
  have hcount := congrArg (List.count (.char '/')) hsame
  rw [count_squeeze (by simp), count_squeeze (by simp)] at hcount
  simp at hcount

end Spellings

/-- Every glob has one normal form. Globs are equal filters exactly when they have the same normal
form, and no two normal forms have the same source. A backslash before an ordinary character and a
separator beside a separator make no difference; a separator that is made literal does. -/
theorem same_glob_iff_normalForm :
    (∀ g, ∃ as, ∀ bs, IsNormalForm g bs ↔ bs = as) ∧
      (∀ g h as bs, IsNormalForm g as → IsNormalForm h bs →
        (Filter.Same (.glob g) (.glob h) ↔ as = bs) ∧
        ((Pattern.ofGlob g).source = (Pattern.ofGlob h).source ↔ as = bs)) ∧
      ∀ a b : String, Token.backslash ∉ tokens a.toList →
        (∀ c, isOrdinary c = true →
          Filter.Same (.glob (a ++ "\\" ++ String.singleton c ++ b))
            (.glob (a ++ String.singleton c ++ b))) ∧
        Filter.Same (.glob (a ++ "//" ++ b)) (.glob (a ++ "/" ++ b)) ∧
        ¬ Filter.Same (.glob (a ++ "\\/" ++ b)) (.glob (a ++ "/" ++ b)) := by
  refine ⟨fun g => ⟨(Pattern.ofGlob g).atoms, fun bs => isNormalForm_iff⟩, ?_, ?_⟩
  · intro g h as bs has hbs
    obtain rfl := isNormalForm_iff.1 has
    obtain rfl := isNormalForm_iff.1 hbs
    exact ⟨same_glob_iff, source_ofGlob_eq_iff⟩
  · intro a b ha
    exact ⟨fun c hc => same_glob_escaped ha b hc, same_glob_doubled ha b,
      not_same_glob_escaped_separator ha b⟩

/-- The normal form of `a\.b//?`. -/
def sampleAtoms : List Atom := [.char 'a', .char '.', .char 'b', .separator, .one]

/-- The glob is equal to the one without the backslash and the second separator. -/
theorem same_glob_sampleAtoms :
    IsNormalForm "a\\.b//?" sampleAtoms ∧ IsNormalForm "a.b/?" sampleAtoms ∧
      Filter.Same (.glob "a\\.b//?") (.glob "a.b/?") ∧
      Token.backslash ∉ tokens "a".toList ∧ isOrdinary '.' = true ∧
      Filter.Same (.glob ("a" ++ "\\" ++ String.singleton '.' ++ "b"))
        (.glob ("a" ++ String.singleton '.' ++ "b")) ∧
      Filter.Same (.glob ("a" ++ "//" ++ "b")) (.glob ("a" ++ "/" ++ "b")) ∧
      ¬ Filter.Same (.glob ("a" ++ "\\/" ++ "b")) (.glob ("a" ++ "/" ++ "b")) := by
  obtain ⟨-, hsame, hspelled⟩ := same_glob_iff_normalForm
  have hescaped : IsNormalForm "a\\.b//?" sampleAtoms := ⟨_, tokenised_tokens _, by decide⟩
  have hplain : IsNormalForm "a.b/?" sampleAtoms := ⟨_, tokenised_tokens _, by decide⟩
  have hend : Token.backslash ∉ tokens "a".toList := by decide
  obtain ⟨hordinary, hdoubled, hliteral⟩ := hspelled "a" "b" hend
  exact ⟨hescaped, hplain, (hsame _ _ _ _ hescaped hplain).1.2 rfl, hend, by decide,
    hordinary '.' (by decide), hdoubled, hliteral⟩

end ModulePath.Glob
