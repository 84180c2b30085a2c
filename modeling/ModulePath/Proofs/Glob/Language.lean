import Mathlib.Computability.Language
import ModulePath.Glob.Pattern

/-!
# The language of a pattern

The texts that an atom stands for are a language, and the language of a pattern is the product of
the languages of its atoms and of its tail. `Pattern.accepts` decides membership by a table that is
filled from the last atom to the first; `accepts_iff_mem_language` says that the answer is right.
What carries the proof is `IsTable`: a row says for each suffix of the path whether the suffix is in
one fixed language.
-/

set_option autoImplicit false

open scoped Computability

namespace ModulePath.Glob

/-- The texts that an atom stands for. -/
def Atom.language : Atom → Language Char
  | .anything => {_s | True}
  | .segment => {s | '/' ∉ s}
  | .one => {s | ∃ c, c ≠ '/' ∧ s = [c]}
  | .separator => {s | ∃ n, s = List.replicate (n + 1) '/'}
  | .char c => {s | s = [c]}

/-- The texts that the tail stands for. -/
def tailLanguage (descendantsOnly : Bool) : Language Char :=
  {s | descendantsOnly = true ∨ s = [] ∨ ∃ rest, s = '/' :: rest}

/-- The texts that a pattern stands for. -/
def Pattern.language (p : Pattern) : Language Char :=
  (p.atoms.map Atom.language).prod * tailLanguage p.descendantsOnly

/-! ## What comes first in a text -/

section FirstCharacter

variable {L : Language Char} {c : Char} {cs : List Char}

@[simp] theorem mem_language_anything {s : List Char} : s ∈ Atom.language .anything :=
  trivial

/-- One star stands for a text without separators. -/
@[simp] theorem mem_language_segment {s : List Char} :
    s ∈ Atom.language .segment ↔ '/' ∉ s := Iff.rfl

/-- A question mark stands for one character that is no separator. -/
@[simp] theorem mem_language_one {s : List Char} :
    s ∈ Atom.language .one ↔ ∃ c, c ≠ '/' ∧ s = [c] := Iff.rfl

/-- A separator stands for a run of separators. -/
@[simp] theorem mem_language_separator {s : List Char} :
    s ∈ Atom.language .separator ↔ ∃ n, s = List.replicate (n + 1) '/' := Iff.rfl

@[simp] theorem mem_language_char {d : Char} {s : List Char} :
    s ∈ Atom.language (.char d) ↔ s = [d] := Iff.rfl

/-- A tail is empty or goes on after a separator, and where only descendants are meant it is
anything. -/
@[simp] theorem mem_tailLanguage {d : Bool} {s : List Char} :
    s ∈ tailLanguage d ↔ d = true ∨ s = [] ∨ ∃ rest, s = '/' :: rest := Iff.rfl

/-- A text in a product begins in the first factor, unless that factor takes nothing of it. -/
theorem cons_mem_mul {K : Language Char} :
    c :: cs ∈ K * L ↔
      ([] ∈ K ∧ c :: cs ∈ L) ∨ ∃ a b, cs = a ++ b ∧ c :: a ∈ K ∧ b ∈ L := by
  constructor
  · rintro ⟨a, ha, b, hb, hab⟩
    rcases List.append_eq_cons_iff.1 hab with ⟨rfl, rfl⟩ | ⟨a', rfl, rfl⟩
    · exact Or.inl ⟨ha, hb⟩
    · exact Or.inr ⟨a', b, rfl, ha, hb⟩
  · rintro (⟨hnil, hb⟩ | ⟨a, b, rfl, ha, hb⟩)
    · exact Language.append_mem_mul hnil hb
    · exact Language.append_mem_mul ha hb

theorem nil_mem_mul {K : Language Char} : [] ∈ K * L ↔ [] ∈ K ∧ [] ∈ L := by
  simp [Language.mem_mul]

/-- `**` takes nothing, or a character and goes on. -/
theorem cons_mem_anything_mul :
    c :: cs ∈ Atom.language .anything * L ↔
      c :: cs ∈ L ∨ cs ∈ Atom.language .anything * L := by
  rw [cons_mem_mul, Language.mem_mul]
  constructor
  · rintro (⟨-, h⟩ | ⟨a, b, rfl, -, hb⟩)
    · exact Or.inl h
    · exact Or.inr ⟨a, trivial, b, hb, rfl⟩
  · rintro (h | ⟨a, -, b, hb, rfl⟩)
    · exact Or.inl ⟨trivial, h⟩
    · exact Or.inr ⟨a, b, rfl, trivial, hb⟩

/-- `*` takes nothing, or a character other than a separator and goes on. -/
theorem cons_mem_segment_mul :
    c :: cs ∈ Atom.language .segment * L ↔
      c :: cs ∈ L ∨ c ≠ '/' ∧ cs ∈ Atom.language .segment * L := by
  rw [cons_mem_mul, Language.mem_mul]
  constructor
  · rintro (⟨-, h⟩ | ⟨a, b, rfl, ha, hb⟩)
    · exact Or.inl h
    · simp only [mem_language_segment, List.mem_cons, not_or] at ha
      exact Or.inr ⟨Ne.symm ha.1, a, ha.2, b, hb, rfl⟩
  · rintro (h | ⟨hc, a, ha, b, hb, rfl⟩)
    · exact Or.inl ⟨by simp, h⟩
    · exact Or.inr ⟨a, b, rfl, by simpa [Ne.symm hc] using ha, hb⟩

/-- `?` takes one character other than a separator. -/
theorem cons_mem_one_mul : c :: cs ∈ Atom.language .one * L ↔ c ≠ '/' ∧ cs ∈ L := by
  rw [cons_mem_mul]
  constructor
  · rintro (⟨⟨d, -, hd⟩, -⟩ | ⟨a, b, rfl, ⟨d, hd, ha⟩, hb⟩)
    · cases hd
    · obtain ⟨rfl, rfl⟩ := List.cons.inj ha
      exact ⟨hd, hb⟩
  · rintro ⟨hc, h⟩
    exact Or.inr ⟨[], cs, rfl, ⟨c, hc, rfl⟩, h⟩

/-- A separator atom takes a separator and stops, or goes on. -/
theorem cons_mem_separator_mul :
    c :: cs ∈ Atom.language .separator * L ↔
      c = '/' ∧ (cs ∈ L ∨ cs ∈ Atom.language .separator * L) := by
  rw [cons_mem_mul, Language.mem_mul]
  constructor
  · rintro (⟨⟨n, hn⟩, -⟩ | ⟨a, b, rfl, ⟨n, ha⟩, hb⟩)
    · cases hn
    · rw [List.replicate_succ] at ha
      obtain ⟨rfl, rfl⟩ := List.cons.inj ha
      cases n with
      | zero => exact ⟨rfl, Or.inl hb⟩
      | succ n => exact ⟨rfl, Or.inr ⟨_, ⟨n, rfl⟩, b, hb, rfl⟩⟩
  · rintro ⟨rfl, h | ⟨a, ⟨n, rfl⟩, b, hb, rfl⟩⟩
    · exact Or.inr ⟨[], cs, rfl, ⟨0, rfl⟩, h⟩
    · exact Or.inr ⟨_, b, rfl, ⟨n + 1, rfl⟩, hb⟩

/-- A character atom takes its character. -/
theorem cons_mem_char_mul {d : Char} :
    c :: cs ∈ Atom.language (.char d) * L ↔ c = d ∧ cs ∈ L := by
  rw [cons_mem_mul]
  constructor
  · rintro (⟨hnil, -⟩ | ⟨a, b, rfl, ha, hb⟩)
    · cases hnil
    · obtain ⟨rfl, rfl⟩ := List.cons.inj ha
      exact ⟨rfl, hb⟩
  · rintro ⟨rfl, h⟩
    exact Or.inr ⟨[], cs, rfl, rfl, h⟩

end FirstCharacter

/-! ## The table -/

/-- A row that says for each suffix of a text, the whole text first, whether it is in a language. -/
def IsTable (L : Language Char) : List Char → List Bool → Prop
  | [], row => ∃ b, row = [b] ∧ (b = true ↔ [] ∈ L)
  | c :: cs, row => ∃ b more, row = b :: more ∧ (b = true ↔ c :: cs ∈ L) ∧ IsTable L cs more

/-- The first entry of a row answers for the whole text. -/
theorem IsTable.headD_iff {L : Language Char} {cs : List Char} {row : List Bool}
    (h : IsTable L cs row) : row.headD false = true ↔ cs ∈ L := by
  cases cs with
  | nil =>
    obtain ⟨b, rfl, hb⟩ := h
    exact hb
  | cons c cs =>
    obtain ⟨b, more, rfl, hb, -⟩ := h
    exact hb

/-- The last row of the table is right. -/
theorem isTable_tailRow (d : Bool) (path : List Char) :
    IsTable (tailLanguage d) path (tailRow d path) := by
  induction path with
  | nil => exact ⟨true, rfl, by simp⟩
  | cons c cs ih => exact ⟨_, _, rfl, by simp, ih⟩

/-- One step of filling the table: the row of an atom from the row of what comes after it. -/
theorem isTable_atomRow (a : Atom) {L : Language Char} {path : List Char} {next : List Bool}
    (h : IsTable L path next) : IsTable (a.language * L) path (a.row path next) := by
  induction path generalizing next with
  | nil =>
    -- at the end of the path only what takes nothing can match
    have hnext := h.headD_iff
    refine ⟨_, rfl, ?_⟩
    rw [nil_mem_mul]
    cases a with
    | anything => simpa using hnext
    | segment => simpa using hnext
    | one => simp
    | separator => simp
    | char d => simp
  | cons c cs ih =>
    have hhere := h.headD_iff
    obtain ⟨b, more, rfl, -, hmore⟩ := h
    -- after one character: the atoms behind this one, or this one again
    have hafter := hmore.headD_iff
    have hagain := (ih hmore).headD_iff
    refine ⟨_, _, rfl, ?_, ih hmore⟩
    rw [List.tail_cons]
    cases a with
    | anything => rw [cons_mem_anything_mul, Bool.or_eq_true, hhere, hagain]
    | segment =>
      rw [cons_mem_segment_mul, Bool.or_eq_true, Bool.and_eq_true, bne_iff_ne, hhere, hagain]
    | one => rw [cons_mem_one_mul, Bool.and_eq_true, bne_iff_ne, hafter]
    | separator =>
      rw [cons_mem_separator_mul, Bool.and_eq_true, Bool.or_eq_true, beq_iff_eq, hafter, hagain]
    | char d => rw [cons_mem_char_mul, Bool.and_eq_true, beq_iff_eq, hafter]

/-- The whole table, by induction on the atoms. -/
theorem isTable_row (d : Bool) (path : List Char) (atoms : List Atom) :
    IsTable ((atoms.map Atom.language).prod * tailLanguage d) path (row d path atoms) := by
  induction atoms with
  | nil =>
    rw [List.map_nil, List.prod_nil, one_mul]
    exact isTable_tailRow d path
  | cons a atoms ih =>
    rw [List.map_cons, List.prod_cons, mul_assoc]
    exact isTable_atomRow a ih

/-- A pattern matches the texts of its language. -/
theorem accepts_iff_mem_language (p : Pattern) (path : String) :
    p.accepts path = true ↔ path.toList ∈ p.language :=
  (isTable_row p.descendantsOnly path.toList p.atoms).headD_iff

end ModulePath.Glob
