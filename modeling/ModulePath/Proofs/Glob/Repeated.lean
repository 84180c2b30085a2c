import Mathlib.Logic.Relation
import ModulePath.Proofs.Glob.Cut

/-!
# Repeated separators

A path says no more with a separator repeated (`Repeats`). Whether a glob matches it may depend on
that all the same, if a separator is made literal in the glob: the literal is one separator and not
two. It is the only way. A language that keeps a text when one of its separators is repeated
(`KeepsRepeated`) does so as a factor of a product too, since the repeated separator falls into one
of the two pieces (`Repeats.of_append`); and every atom but a literal separator has such a language,
as has the tail. So the paths of a glob without a literal separator stay its paths however their
runs of separators are lengthened (`accepts_of_lengthened`).
-/

set_option autoImplicit false

namespace ModulePath.Glob

variable {p q : List Char}

/-- A further separator is put next to one that is there. -/
def Repeats (p q : List Char) : Prop :=
  ∃ before after, p = before ++ '/' :: after ∧ q = before ++ '/' :: '/' :: after

/-- Runs of separators are lengthened. -/
abbrev Lengthened (p q : List Char) : Prop := Relation.ReflTransGen Repeats p q

/-- A language keeps its texts when a separator in them is repeated. -/
def KeepsRepeated (L : Language Char) : Prop := ∀ p q, Repeats p q → p ∈ L → q ∈ L

/-! ## Where a separator is repeated -/

theorem Repeats.mem (h : Repeats p q) : '/' ∈ p := by
  obtain ⟨before, after, rfl, -⟩ := h
  exact List.mem_append_right before List.mem_cons_self

/-- The repeated separator is in the first of two parts or in the second. -/
theorem Repeats.of_append {a b : List Char} (h : Repeats (a ++ b) q) :
    (∃ a', Repeats a a' ∧ q = a' ++ b) ∨ ∃ b', Repeats b b' ∧ q = a ++ b' := by
  obtain ⟨before, after, hab, rfl⟩ := h
  rcases List.append_eq_append_iff.1 hab with ⟨rest, rfl, rfl⟩ | ⟨rest, rfl, hrest⟩
  · -- all of the first part is before the separator
    right
    exact ⟨rest ++ '/' :: '/' :: after, ⟨rest, after, rfl, rfl⟩, List.append_assoc _ _ _⟩
  · cases rest with
    | nil =>
      right
      refine ⟨'/' :: '/' :: after, ⟨[], after, hrest.symm, rfl⟩, ?_⟩
      rw [List.append_nil]
    | cons c rest =>
      left
      have hcons : '/' :: after = c :: (rest ++ b) := hrest
      obtain ⟨rfl, rfl⟩ := List.cons.inj hcons
      refine ⟨before ++ '/' :: '/' :: rest, ⟨before, rest, rfl, rfl⟩, ?_⟩
      rw [List.append_assoc, List.cons_append, List.cons_append]

theorem Repeats.head? (h : Repeats p q) : q.head? = p.head? := by
  obtain ⟨before, after, rfl, rfl⟩ := h
  cases before with
  | nil => rfl
  | cons c before => rfl

/-- A run of separators becomes a run that is longer by one. -/
theorem Repeats.replicate {n : Nat} (h : Repeats (List.replicate n '/') q) :
    q = List.replicate (n + 1) '/' := by
  obtain ⟨before, after, hp, rfl⟩ := h
  obtain ⟨hlength, hall⟩ := List.eq_replicate_iff.1 hp.symm
  apply List.eq_replicate_iff.2
  constructor
  · simp only [List.length_append, List.length_cons] at hlength ⊢
    omega
  · intro c hc
    apply hall
    simp only [List.mem_append, List.mem_cons] at hc ⊢
    tauto

/-- Any run of separators is lengthened to any longer one. -/
theorem lengthened_run (before after : List Char) (m n : Nat) :
    Lengthened (before ++ List.replicate (m + 1) '/' ++ after)
      (before ++ List.replicate (m + 1 + n) '/' ++ after) := by
  induction n with
  | zero => exact .refl
  | succ n ih =>
    refine ih.tail ⟨before, List.replicate (m + n) '/' ++ after, ?_, ?_⟩
    · rw [Nat.add_right_comm, List.replicate_succ, List.append_assoc, List.cons_append]
    · rw [← Nat.add_assoc, Nat.add_right_comm m 1 n, List.replicate_succ, List.replicate_succ,
        List.append_assoc, List.cons_append, List.cons_append]

/-! ## Languages that keep their texts -/

/-- A text without a separator gives nothing to repeat. -/
theorem keepsRepeated_of_notMem {L : Language Char} (h : ∀ p ∈ L, '/' ∉ p) : KeepsRepeated L := by
  intro p q hpq hp
  exact absurd hpq.mem (h p hp)

/-- By induction on the separators that are added. -/
theorem KeepsRepeated.lengthened {L : Language Char} (hL : KeepsRepeated L) (h : Lengthened p q)
    (hp : p ∈ L) : q ∈ L := by
  induction h with
  | refl => exact hp
  | tail _ hstep ih => exact hL _ _ hstep ih

/-- A separator of a text in a product is repeated in one of the two factors. -/
theorem KeepsRepeated.mul {K L : Language Char} (hK : KeepsRepeated K) (hL : KeepsRepeated L) :
    KeepsRepeated (K * L) := by
  intro p q hpq hp
  obtain ⟨a, ha, b, hb, rfl⟩ := Language.mem_mul.1 hp
  rcases hpq.of_append with ⟨a', haa', rfl⟩ | ⟨b', hbb', rfl⟩
  · exact Language.append_mem_mul (hK a a' haa' ha) hb
  · exact Language.append_mem_mul ha (hL b b' hbb' hb)

theorem keepsRepeated_one : KeepsRepeated 1 := by
  apply keepsRepeated_of_notMem
  rintro p rfl
  exact List.not_mem_nil

/-- What every factor keeps, the product keeps. -/
theorem keepsRepeated_prod {Ls : List (Language Char)} (h : ∀ L ∈ Ls, KeepsRepeated L) :
    KeepsRepeated Ls.prod := by
  induction Ls with
  | nil => exact keepsRepeated_one
  | cons L Ls ih =>
    obtain ⟨hL, hLs⟩ := List.forall_mem_cons.1 h
    rw [List.prod_cons]
    exact hL.mul (ih hLs)

/-- Only a literal separator stands for one separator and not for two. -/
theorem Atom.keepsRepeated {a : Atom} (h : a ≠ .char '/') : KeepsRepeated a.language := by
  cases a with
  | anything =>
    intro p q _ _
    exact mem_language_anything
  | segment => exact keepsRepeated_of_notMem fun p hp => hp
  | one =>
    apply keepsRepeated_of_notMem
    rintro p ⟨c, hc, rfl⟩
    simpa using hc.symm
  | separator =>
    rintro p q hpq ⟨n, rfl⟩
    exact ⟨n + 1, hpq.replicate⟩
  | char c =>
    apply keepsRepeated_of_notMem
    rintro p rfl
    have hc : c ≠ '/' := by
      rintro rfl
      exact h rfl
    simpa using hc.symm

/-- A tail may have a separator repeated. -/
theorem keepsRepeated_tailLanguage (d : Bool) : KeepsRepeated (tailLanguage d) := by
  intro p q hpq hp
  rcases hp with hd | rfl | ⟨rest, rfl⟩
  · exact .inl hd
  · exact absurd hpq.mem List.not_mem_nil
  · right
    right
    exact List.head?_eq_some_iff.1 hpq.head?

/-- A pattern without a literal separator does not count separators. -/
theorem Pattern.keepsRepeated {r : Pattern} (h : Atom.char '/' ∉ r.atoms) :
    KeepsRepeated r.language := by
  refine KeepsRepeated.mul (keepsRepeated_prod ?_) (keepsRepeated_tailLanguage r.descendantsOnly)
  intro L hL
  obtain ⟨a, ha, rfl⟩ := List.mem_map.1 hL
  apply Atom.keepsRepeated
  rintro rfl
  exact h ha

/-! ## Globs -/

/-- A separator is literal in a pattern only where it is escaped in the glob. -/
theorem char_separator_notMem_atoms {g : String} (h : Token.escaped '/' ∉ tokens g.toList) :
    Atom.char '/' ∉ (Pattern.ofGlob g).atoms := by
  intro hmem
  obtain ⟨t, ht, hatom⟩ := List.mem_flatMap.1 hmem
  cases t with
  | escaped c =>
    obtain rfl := Atom.char.inj (List.mem_singleton.1 hatom)
    exact h ht
  | literal first more =>
    have hchar : '/' ∈ first :: more := by simpa [Token.atoms] using hatom
    have hordinary := (tokenised_tokens g.toList).isOrdinary_of_mem ht '/' hchar
    obtain ⟨-, -, -, hseparator⟩ := ne_of_isOrdinary hordinary
    exact absurd rfl hseparator
  | anything | segment | one | separators _ | backslash => simp [Token.atoms] at hatom

/-- A glob in which no separator is escaped matches with a path every one in which runs of
separators are longer. -/
theorem accepts_of_lengthened {g p q : String} (hg : Token.escaped '/' ∉ tokens g.toList)
    (hp : (Filter.glob g).accepts p = true) (hpq : Lengthened p.toList q.toList) :
    (Filter.glob g).accepts q = true := by
  have hkeeps : KeepsRepeated (Pattern.ofGlob g).language :=
    Pattern.keepsRepeated (char_separator_notMem_atoms hg)
  rw [Filter.accepts, accepts_iff_mem_language] at hp ⊢
  exact hkeeps.lengthened hpq hp

/-- The first run is matched by the separators of the glob, the second one is below what it
names. -/
theorem accepts_of_lengthened_sample :
    Token.escaped '/' ∉ tokens "a//*\\?".toList ∧
      (Filter.glob "a//*\\?").accepts "a/b?/c" = true ∧
      Lengthened "a/b?/c".toList "a//b?///c".toList ∧
      (Filter.glob "a//*\\?").accepts "a//b?///c" = true := by
  have hg : Token.escaped '/' ∉ tokens "a//*\\?".toList := by decide
  have hp : (Filter.glob "a//*\\?").accepts "a/b?/c" = true := by decide +kernel
  have hpq : Lengthened "a/b?/c".toList "a//b?///c".toList :=
    (lengthened_run ['a'] "b?/c".toList 0 1).trans (lengthened_run "a//b?".toList ['c'] 0 2)
  exact ⟨hg, hp, hpq, accepts_of_lengthened hg hp hpq⟩

/-- An escaped separator is matched by one separator only. -/
example : (Filter.glob "a\\/b").accepts "a/b" = true ∧
    (Filter.glob "a\\/b").accepts "a//b" = false := by decide +kernel

end ModulePath.Glob
