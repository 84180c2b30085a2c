import ModulePath.Proofs.Glob.Cut

/-!
# Named paths and their descendants

The tokens of a glob name the paths that fall into their pieces with nothing left over (`Names`). A
glob matches these paths and whatever is below them; one that ends in a separator matches only what
is below. So with every path a glob matches all that is below it (`Cut.below`), and a separator at
the end of a glob takes away the named paths themselves and nothing else
(`trailing_separator_drops_named`).
-/

set_option autoImplicit false

namespace ModulePath.Glob

variable {ts us : List Token} {path : List Char}

/-- A path falls into a piece for each token, with nothing left over. -/
def Names (ts : List Token) (path : List Char) : Prop :=
  ∃ pieces, path = pieces.flatten ∧ List.Forall₂ Token.Takes ts pieces

/-- A path is below one that the tokens name. -/
def IsBelowNamed (ts : List Token) (path : List Char) : Prop :=
  ∃ named rest, path = named ++ '/' :: rest ∧ Names ts named

/-- A path is cut into what the tokens name and a tail. -/
theorem cut_iff :
    Cut ts path ↔ ∃ named tail, path = named ++ tail ∧ Names ts named ∧ IsTail ts tail := by
  constructor
  · rintro ⟨pieces, tail, rfl, hpieces, htail⟩
    exact ⟨pieces.flatten, tail, rfl, ⟨pieces, rfl, hpieces⟩, htail⟩
  · rintro ⟨_, tail, rfl, ⟨pieces, rfl, hpieces⟩, htail⟩
    exact ⟨pieces, tail, rfl, hpieces, htail⟩

/-- A path that two lists of tokens name falls into what each of them names. -/
theorem names_append :
    Names (ts ++ us) path ↔ ∃ a b, path = a ++ b ∧ Names ts a ∧ Names us b := by
  unfold Names
  rw [← mem_prod_iff, List.map_append, List.prod_append, Language.mem_mul]
  simp only [mem_prod_iff]
  constructor
  · rintro ⟨a, ha, b, hb, rfl⟩
    exact ⟨a, b, rfl, ha, hb⟩
  · rintro ⟨a, b, rfl, ha, hb⟩
    exact ⟨a, ha, b, hb, rfl⟩

theorem names_separators {more : Nat} :
    Names [.separators more] path ↔ ∃ n, path = List.replicate (n + 1) '/' := by
  constructor
  · rintro ⟨pieces, rfl, hpieces⟩
    obtain ⟨piece, _, ⟨n, rfl⟩, hnil, rfl⟩ := List.forall₂_cons_left_iff.1 hpieces
    obtain rfl := List.forall₂_nil_left_iff.1 hnil
    exact ⟨n, List.append_nil _⟩
  · rintro ⟨n, rfl⟩
    exact ⟨[List.replicate (n + 1) '/'], (List.append_nil _).symm, .cons ⟨n, rfl⟩ .nil⟩

/-! ## What is below a path -/

/-- A tail may go on below itself. -/
theorem IsTail.below {tail : List Char} (h : IsTail ts tail) (rest : List Char) :
    IsTail ts (tail ++ '/' :: rest) := by
  rcases h with hlast | rfl | ⟨more, rfl⟩
  · exact .inl hlast
  · exact .inr (.inr ⟨rest, rfl⟩)
  · exact .inr (.inr ⟨more ++ '/' :: rest, rfl⟩)

/-- With a path everything below it is matched. -/
theorem Cut.below (h : Cut ts path) (rest : List Char) : Cut ts (path ++ '/' :: rest) := by
  obtain ⟨pieces, tail, rfl, hpieces, htail⟩ := h
  exact ⟨pieces, tail ++ '/' :: rest, List.append_assoc _ _ _, hpieces, htail.below rest⟩

/-- Without a separator at its end a glob matches what it names and what is below. -/
theorem cut_iff_names_or_below (h : ∀ t ∈ ts.getLast?, t.isSeparators = false) :
    Cut ts path ↔ Names ts path ∨ IsBelowNamed ts path := by
  rw [cut_iff]
  constructor
  · rintro ⟨named, tail, rfl, hnamed, ⟨more, hlast⟩ | rfl | ⟨rest, rfl⟩⟩
    · cases h _ hlast
    · exact .inl (by rwa [List.append_nil])
    · exact .inr ⟨named, rest, rfl, hnamed⟩
  · rintro (hnamed | ⟨named, rest, rfl, hnamed⟩)
    · exact ⟨path, [], (List.append_nil path).symm, hnamed, .inr (.inl rfl)⟩
    · exact ⟨named, '/' :: rest, rfl, hnamed, .inr (.inr ⟨rest, rfl⟩)⟩

/-- With separators at its end a glob matches only what is below. -/
theorem cut_concat_separators_iff {more : Nat} :
    Cut (ts ++ [.separators more]) path ↔ IsBelowNamed ts path := by
  rw [cut_iff]
  constructor
  · rintro ⟨_, tail, rfl, hwhole, -⟩
    obtain ⟨named, run, rfl, hnamed, hrun⟩ := names_append.1 hwhole
    obtain ⟨n, rfl⟩ := names_separators.1 hrun
    refine ⟨named, List.replicate n '/' ++ tail, ?_, hnamed⟩
    rw [List.replicate_succ, List.append_assoc, List.cons_append]
  · rintro ⟨named, rest, rfl, hnamed⟩
    refine ⟨named ++ ['/'], rest, ?_, ?_, .inl ⟨more, List.getLast?_concat⟩⟩
    · rw [List.append_assoc, List.singleton_append]
    · exact names_append.2 ⟨named, ['/'], rfl, hnamed, names_separators.2 ⟨0, rfl⟩⟩

/-! ## A separator at the end -/

/-- Neither joined to a run of separators nor made literal, a separator at the end is a token of its
own. -/
theorem Tokenised.concat_separator {cs : List Char} (h : Tokenised cs ts)
    (hlast : ∀ t ∈ ts.getLast?, t.isSeparators = false ∧ t ≠ .backslash) :
    Tokenised (cs ++ ['/']) (ts ++ [.separators 0]) := by
  have hone : Tokenised ['/'] [.separators 0] := tokenised_iff.2 rfl
  refine h.append hone fun t ht => ?_
  obtain ⟨hseparators, hbackslash⟩ := hlast t ht
  have hnil := h.endsBefore_nil t ht
  cases t with
  | anything | one | escaped _ => trivial
  | segment => simp [Token.EndsBefore]
  | separators more => cases hseparators
  | literal first more => exact ⟨hnil.1, by simp [isOrdinary]⟩
  | backslash => exact absurd rfl hbackslash

/-- With every path a glob matches all that is below it. A glob that ends neither in a separator nor
in a backslash that nothing follows matches what its tokens name, and besides what it matches with a
separator at its end, which is just what is below the named paths. -/
theorem trailing_separator_drops_named (g : String) :
    ∃ ts, (∀ us, Tokenised g.toList us ↔ us = ts) ∧
      (∀ p s : String, (Filter.glob g).accepts p = true →
        (Filter.glob g).accepts (p ++ "/" ++ s) = true) ∧
      ((∀ t ∈ ts.getLast?, t.isSeparators = false ∧ t ≠ .backslash) → ∀ p : String,
        ((Filter.glob g).accepts p = true ↔
          Names ts p.toList ∨ (Filter.glob (g ++ "/")).accepts p = true) ∧
        ((Filter.glob (g ++ "/")).accepts p = true ↔
          ∃ named s : String, p = named ++ "/" ++ s ∧ Names ts named.toList)) := by
  refine ⟨tokens g.toList, fun us => tokenised_iff, ?_, ?_⟩
  · intro p s hp
    rw [accepts_iff_cut] at hp ⊢
    simpa using hp.below s.toList
  · intro hlast p
    have hwith : (Filter.glob (g ++ "/")).accepts p = true ↔
        IsBelowNamed (tokens g.toList) p.toList := by
      -- the separator is a token of its own, since none before it takes it up
      have hconcat := (tokenised_tokens g.toList).concat_separator hlast
      have hsep : (g ++ "/").toList = g.toList ++ ['/'] := by simp
      rw [accepts_iff_cut, hsep, ← tokenised_iff.1 hconcat, cut_concat_separators_iff]
    refine ⟨?_, ?_⟩
    · rw [hwith, accepts_iff_cut]
      exact cut_iff_names_or_below fun t ht => (hlast t ht).1
    · rw [hwith]
      constructor
      · rintro ⟨named, rest, hp, hnamed⟩
        refine ⟨String.ofList named, String.ofList rest, String.toList_inj.1 ?_, ?_⟩
        · simpa using hp
        · rwa [String.toList_ofList]
      · rintro ⟨named, s, rfl, hnamed⟩
        exact ⟨named.toList, s.toList, by simp, hnamed⟩

/-- The tokens of `a\*//?`. -/
def sampleTokens : List Token := [.literal 'a' [], .escaped '*', .separators 1, .one]

/-- The glob names a path and matches what is below it; with a separator at its end it matches only
what is below. -/
theorem trailing_separator_sampleTokens :
    Tokenised "a\\*//?".toList sampleTokens ∧
      (∀ t ∈ sampleTokens.getLast?, t.isSeparators = false ∧ t ≠ .backslash) ∧
      Names sampleTokens "a*/b".toList ∧
      (Filter.glob "a\\*//?").accepts ("a*/b" ++ "/" ++ "c") = true ∧
      (Filter.glob ("a\\*//?" ++ "/")).accepts "a*/b" = false ∧
      (Filter.glob ("a\\*//?" ++ "/")).accepts "a*/b/c" = true := by
  have hlast : ∀ t ∈ sampleTokens.getLast?, t.isSeparators = false ∧ t ≠ .backslash := by decide
  have hnamed : Names sampleTokens "a*/b".toList :=
    ⟨[['a'], ['*'], ['/'], ['b']], by decide, .cons rfl (.cons rfl (.cons ⟨0, rfl⟩
      (.cons ⟨'b', by decide, rfl⟩ .nil)))⟩
  obtain ⟨ts, hts, hbelow, hdrops⟩ := trailing_separator_drops_named "a\\*//?"
  have htokens : Tokenised "a\\*//?".toList sampleTokens := tokenised_iff.2 (by decide)
  obtain rfl := (hts sampleTokens).1 htokens
  have hitself := ((hdrops hlast "a*/b").1).2 (.inl hnamed)
  refine ⟨htokens, hlast, hnamed, hbelow "a*/b" "c" hitself, by decide +kernel, ?_⟩
  exact ((hdrops hlast "a*/b/c").2).2 ⟨"a*/b", "c", by decide, hnamed⟩

end ModulePath.Glob
