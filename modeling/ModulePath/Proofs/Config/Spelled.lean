import ModulePath.Proofs.Config.Reachable
import ModulePath.Proofs.Number.Spelling

/-!
# Settings that are spelled integers

A variable whose text spells an integer is that integer, whatever the script of its digits: no word
for a truth value has a digit in it, and integers are read before reals. No other text is an
integer, and one that is nothing else is itself (`settingOf_eq_int_iff_spells`). The blanks around a
numeral are those that Unicode counts as white space; the four information separators, which are
blanks where words are told apart, are not among them (`settingOf_separated`).
-/

set_option autoImplicit false

namespace ModulePath.Config.Environment

open Numeral

variable {n : Int} {s text : String}

/-- A spelling has a digit in it. -/
theorem exists_digit_of_spells {around : Char → Bool} (h : Spells around n s) :
    ∃ c d, c ∈ s.toList ∧ Text.digitValue? c = some d := by
  cases h with
  | mk hs _ _ _ hbody _ =>
    obtain ⟨c, d, rest, rfl, hc⟩ := hbody.exists_head
    refine ⟨c, d, ?_, hc⟩
    rw [hs]
    simp

/-- A text that spells an integer stands for it. -/
theorem settingOf_of_spells (h : Spells isPadding n s) : settingOf s = .int n := by
  obtain ⟨c, d, hmem, hc⟩ := exists_digit_of_spells h
  -- none of the words is the text in lower case, as they consist of letters
  have hword : ∀ word ∈ ["true", "yes", "false", "no"], (Text.lowerString s == word) = false := by
    intro word hword
    have hletters : ∀ c ∈ word.toList, Text.digitValue? c = none := by
      intro c hc
      have hall : ["true", "yes", "false", "no"].all (fun word =>
          word.toList.all fun c => (Text.digitValue? c).isNone) = true := rfl
      have hnone := List.all_eq_true.1 (List.all_eq_true.1 hall word hword) c hc
      exact Option.isNone_iff_eq_none.1 hnone
    exact beq_eq_false_iff_ne.2 (Text.lowerString_ne_of_digitValue? hc hmem hletters)
  simp only [settingOf, hword "true" (by decide), hword "yes" (by decide),
    hword "false" (by decide), hword "no" (by decide), Bool.or_self, Bool.false_eq_true, if_false,
    integer?_eq_some_iff.2 h]

/-- Only a text that spells an integer stands for one. -/
theorem spells_of_settingOf (h : settingOf s = .int n) : Spells isPadding n s := by
  rcases Store.settingOf_cases s with ⟨b, hv⟩ | ⟨m, hm, hv⟩ | ⟨d, hv⟩ | hv
  · cases hv.symm.trans h
  · obtain rfl := Value.int.inj (hv.symm.trans h)
    exact integer?_eq_some_iff.1 hm
  · cases hv.symm.trans h
  · cases hv.symm.trans h

theorem settingOf_eq_str (h : settingOf s = .str text) : text = s := by
  rcases Store.settingOf_cases s with ⟨b, hv⟩ | ⟨m, -, hv⟩ | ⟨d, hv⟩ | hv
  · cases hv.symm.trans h
  · cases hv.symm.trans h
  · cases hv.symm.trans h
  · exact (Value.str.inj (hv.symm.trans h)).symm

/-- A variable is an integer exactly if its text spells it, and one that is a text has its own. -/
theorem settingOf_eq_int_iff_spells (s : String) :
    (∀ n, settingOf s = .int n ↔ Spells isPadding n s) ∧
      ∀ text, settingOf s = .str text → text = s :=
  ⟨fun _ => ⟨spells_of_settingOf, settingOf_of_spells⟩, fun _ => settingOf_eq_str⟩

/-- A negative number with digits of three scripts and blanks around it. Two underscores in a row
stand in no spelling. -/
theorem settingOf_spelledSample :
    Spells isPadding (-105) "\t-1_\u0660\uFF15\u3000" ∧
      settingOf "\t-1_\u0660\uFF15\u3000" = .int (-105) ∧
      settingOf "1__0" = .str "1__0" := by
  have htext : "\t-1_\u0660\uFF15\u3000".toList =
      ['\t'] ++ ((['-'] ++ ['1', '_', '\u0660', '\uFF15']) ++ ['\u3000']) := rfl
  have hdigits : Digits [1, 0, 5] ['1', '_', '\u0660', '\uFF15'] :=
    .mk rfl (.underscore rfl (.digit rfl .nil))
  have hspells : Spells isPadding (-105) "\t-1_\u0660\uFF15\u3000" :=
    .mk htext (List.forall_mem_singleton.2 rfl) (List.forall_mem_singleton.2 rfl) .minus hdigits
      (by decide)
  obtain ⟨hint, -⟩ := settingOf_eq_int_iff_spells "\t-1_\u0660\uFF15\u3000"
  exact ⟨hspells, (hint (-105)).2 hspells, rfl⟩

/-- An information separator is a blank, but no numeral is read from behind one. -/
theorem settingOf_separated :
    Spells Text.isBlank 5 "\x1c5" ∧ settingOf "\x1c5" = .str "\x1c5" := by
  have htext : "\x1c5".toList = ['\x1c'] ++ (([] ++ ['5']) ++ []) := rfl
  have hspells : Spells Text.isBlank 5 "\x1c5" :=
    .mk htext (List.forall_mem_singleton.2 rfl) (List.forall_mem_nil _) .none (.mk rfl .nil)
      (by decide)
  exact ⟨hspells, rfl⟩

end ModulePath.Config.Environment
