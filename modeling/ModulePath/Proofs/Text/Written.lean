import Mathlib.Data.List.TakeWhile
import ModulePath.Proofs.Text.Lines

/-!
# Texts that are written line by line

A text is written line by line if each of its lines writes some members of a list, in order, and is
ended by any line terminator, the last line by the end of the text (`Written`). Reading the lines
one after the other finds these members again, whichever terminators there are
(`readLines_of_written`), and a reader of which every line is a written form reads from every text
what is written there (`written_readLines`).
-/

set_option autoImplicit false

namespace ModulePath.Text

variable {β : Type} {read : List Char → List β} {R : List β → List Char → Prop} {es : List β}
  {cs ds line : List Char}

/-- A text that lists members line by line: what a line may look like is told by `R`. -/
inductive Written (R : List β → List Char → Prop) : List β → List Char → Prop
  | nil : Written R [] []
  | last {es : List β} {line : List Char} (hline : R es line) : Written R es line
  | line {es rest : List β} {line terminator text : List Char} (hline : R es line)
    (hterminator : IsTerminator terminator) (hrest : Written R rest text) :
    Written R (es ++ rest) (line ++ (terminator ++ text))

/-- What is read from the lines of a text, one after the other. -/
def readLines (read : List Char → List β) (cs : List Char) : List β := (splitLines cs).flatMap read

/-! ## Reading what is written -/

section Reading

variable (hnil : read [] = [])

include hnil

theorem readLines_of_isLine (h : IsLine cs) : readLines read cs = read cs := by
  by_cases hcs : cs = []
  · rw [hcs, hnil]
    rfl
  · rw [readLines, splitLines_of_isLine h hcs, List.flatMap_singleton]

/-- What follows a terminator is read for itself. If it begins with a line feed that belongs to the
terminator, then only an empty line is lost. -/
theorem exists_splitLines_terminator (h : IsTerminator cs) (ds : List Char) :
    ∃ lines, splitLines (cs ++ ds) = [] :: lines ∧ lines.flatMap read = readLines read ds := by
  cases h with
  | pair => exact ⟨splitLines ds, rfl, rfl⟩
  | @single c hc =>
    by_cases hpair : c = '\r' ∧ ds.head? = some '\n'
    · obtain ⟨rfl, hhead⟩ := hpair
      obtain ⟨rest, rfl⟩ := List.head?_eq_some_iff.1 hhead
      refine ⟨splitLines rest, rfl, ?_⟩
      change _ = ([] :: splitLines rest).flatMap read
      rw [List.flatMap_cons, hnil, List.nil_append]
    · refine ⟨splitLines ds, ?_, rfl⟩
      exact splitLines_of_isLineBreak hc fun hreturn hhead => hpair ⟨hreturn, hhead⟩

/-- A line is read up to its end, whatever ends it. -/
theorem readLines_line (hcs : IsLine cs) (hterminator : IsTerminator line) (ds : List Char) :
    readLines read (cs ++ (line ++ ds)) = read cs ++ readLines read ds := by
  obtain ⟨lines, hlines, hrest⟩ := exists_splitLines_terminator hnil hterminator ds
  rw [readLines, splitLines_append hcs hlines, List.flatMap_cons, hrest]

/-- What is written in the lines of a text is read back, if it is read back from a single line. -/
theorem readLines_of_written (hline : ∀ es line, R es line → IsLine line)
    (hread : ∀ es line, R es line → read line = es) (h : Written R es cs) :
    readLines read cs = es := by
  induction h with
  | nil => rfl
  | last h => rw [readLines_of_isLine hnil (hline _ _ h), hread _ _ h]
  | line h hterminator _ ih =>
    rw [readLines_line hnil (hline _ _ h) hterminator, hread _ _ h, ih]

end Reading

/-! ## Every text is written -/

/-- A text with a line break is a line, what ends it, and the rest of the text. -/
theorem exists_first_line (h : ¬ IsLine cs) :
    ∃ line terminator rest, cs = line ++ (terminator ++ rest) ∧ IsLine line ∧
      IsTerminator terminator ∧ splitLines cs = line :: splitLines rest := by
  have hline : IsLine (cs.takeWhile fun c => !isLineBreak c) := by
    intro c hc
    simpa using List.mem_takeWhile_imp hc
  have happend := List.takeWhile_append_dropWhile (p := fun c => !isLineBreak c) (l := cs)
  have hfirst := List.head?_dropWhile_not (fun c => !isLineBreak c) cs
  generalize cs.takeWhile (fun c => !isLineBreak c) = line at hline happend
  generalize cs.dropWhile (fun c => !isLineBreak c) = ds at happend hfirst
  subst happend
  cases ds with
  | nil =>
    rw [List.append_nil] at h
    exact absurd hline h
  | cons c ds =>
    have hc : isLineBreak c = true := by simpa using hfirst
    by_cases hpair : c = '\r' ∧ ds.head? = some '\n'
    · -- a carriage return and the line feed after it are one terminator
      obtain ⟨rfl, hhead⟩ := hpair
      obtain ⟨rest, rfl⟩ := List.head?_eq_some_iff.1 hhead
      exact ⟨line, ['\r', '\n'], rest, rfl, hline, .pair, splitLines_append hline rfl⟩
    · refine ⟨line, [c], ds, rfl, hline, .single hc, splitLines_append hline ?_⟩
      exact splitLines_of_isLineBreak hc fun hreturn hhead => hpair ⟨hreturn, hhead⟩

/-- Every text is written with what is read from it, if this is so of every line. The induction is
on the length of the text, which gets shorter by a line at each step. -/
theorem written_readLines (hnil : read [] = []) (h : ∀ line, IsLine line → R (read line) line)
    (cs : List Char) : Written R (readLines read cs) cs := by
  induction hlength : cs.length using Nat.strongRecOn generalizing cs with
  | ind n ih =>
    by_cases hcs : IsLine cs
    · rw [readLines_of_isLine hnil hcs]
      exact .last (h cs hcs)
    · obtain ⟨line, terminator, rest, rfl, hline, hterminator, hsplit⟩ := exists_first_line hcs
      have hshorter : rest.length < n := by
        have hpositive : 0 < terminator.length := by
          cases hterminator <;> simp
        simp only [List.length_append] at hlength
        omega
      rw [readLines, hsplit, List.flatMap_cons]
      exact .line (h line hline) hterminator (ih _ hshorter rest rfl)

end ModulePath.Text
