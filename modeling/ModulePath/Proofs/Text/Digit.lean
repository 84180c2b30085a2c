import ModulePath.Text.Blank
import ModulePath.Text.Case
import ModulePath.Text.Digit

/-!
# Digits are neither blank nor cased

The ten digits of a script stand in one run of code points, and no run meets a blank or a code point
that has another lower case. So a digit of any script stays what it is when a text is put into lower
case (`mem_lowerString_of_digitValue?`), and a text with a digit in it is no word of letters in any
case (`lowerString_ne_of_digitValue?`).
-/

set_option autoImplicit false

namespace ModulePath.Text

variable {c : Char} {d : Nat} {cs before : List Char} {s word : String}

/-- A digit stands in the run of a script, as far from its zero as its value says. -/
theorem exists_zero_of_digitValue? (h : digitValue? c = some d) :
    ∃ z ∈ digitZeros, c.toNat = z + d ∧ d < 10 := by
  obtain ⟨z, hfind, rfl⟩ := Option.map_eq_some_iff.1 h
  have hcovers := List.find?_some hfind
  rw [Bool.and_eq_true, decide_eq_true_eq, decide_eq_true_eq] at hcovers
  refine ⟨z, List.mem_of_find?_eq_some hfind, ?_, ?_⟩
  · omega
  · omega

/-! ## Blanks -/

theorem digits_not_blank : (digitZeros.all fun z => (List.range 10).all fun d =>
    !isBlank (Char.ofNat (z + d))) = true := by decide +kernel

theorem isBlank_of_digitValue? (h : digitValue? c = some d) : isBlank c = false := by
  obtain ⟨z, hz, hc, hd⟩ := exists_zero_of_digitValue? h
  have hrow := List.all_eq_true.1 digits_not_blank z hz
  have hblank := List.all_eq_true.1 hrow d (List.mem_range.2 hd)
  rw [← hc, Char.ofNat_toNat] at hblank
  simpa using hblank

/-! ## Lower case -/

theorem digits_apart_lowerShifts : (digitZeros.all fun z => lowerShifts.all fun s =>
    z + 9 < s.first || s.last < z) = true := by decide +kernel

theorem digits_apart_lowerExpansions : (digitZeros.all fun z => lowerExpansions.all fun e =>
    z + 9 < e.1 || e.1 < z) = true := by decide +kernel

/-- The digits below U+0080 are those of one script. -/
theorem toLower_of_digitValue? (h : digitValue? c = some d) (hascii : c.toNat < 0x80) :
    c.toLower = c := by
  obtain ⟨z, hz, hc, hd⟩ := exists_zero_of_digitValue? h
  have hzero : ∀ z ∈ digitZeros, z < 0x80 → z = 0x30 := by decide
  have hsmall : ∀ d < 10, (Char.ofNat (0x30 + d)).toLower = Char.ofNat (0x30 + d) := by decide
  have hdigit := hsmall d hd
  rwa [← hzero z hz (by omega), ← hc, Char.ofNat_toNat] at hdigit

/-- A digit is the same in small letters. -/
theorem lowerChar_of_digitValue? (h : digitValue? c = some d) : lowerChar c = [c] := by
  have hcases : lowerChar c = if c.toNat < 0x80 then [c.toLower]
      else mapCase lowerShifts lowerExpansions c.toNat := rfl
  rw [hcases]
  split
  case isTrue hascii => rw [toLower_of_digitValue? h hascii]
  case isFalse =>
    obtain ⟨z, hz, hc, hd⟩ := exists_zero_of_digitValue? h
    -- the run of the script lies beside every entry of either table
    have hshift : lowerShifts.find? (·.covers c.toNat) = none := by
      rw [List.find?_eq_none]
      intro s hs hcovers
      have hapart := List.all_eq_true.1 (List.all_eq_true.1 digits_apart_lowerShifts z hz) s hs
      simp only [Shift.covers, Bool.or_eq_true, Bool.and_eq_true, decide_eq_true_eq]
        at hapart hcovers
      omega
    have hexpansion : lowerExpansions.find? (·.1 == c.toNat) = none := by
      rw [List.find?_eq_none]
      intro e he heq
      have hapart := List.all_eq_true.1 (List.all_eq_true.1 digits_apart_lowerExpansions z hz) e he
      simp only [Bool.or_eq_true, decide_eq_true_eq, beq_iff_eq] at hapart heq
      omega
    simp only [mapCase, hshift, hexpansion, Char.ofNat_toNat]

/-- A digit stays where letters become small. -/
theorem mem_lowerAfter_of_digitValue? (h : digitValue? c = some d) (hc : c ∈ cs) :
    c ∈ lowerAfter before cs := by
  induction cs generalizing before with
  | nil => cases hc
  | cons c' rest ih =>
    rw [lowerAfter, List.mem_append]
    rcases List.mem_cons.1 hc with rfl | hrest
    · have hsigma : c ≠ 'Σ' := by
        rintro rfl
        cases h
      rw [if_neg hsigma, lowerChar_of_digitValue? h]
      exact .inl (List.mem_singleton_self c)
    · exact .inr (ih hrest)

theorem mem_lowerString_of_digitValue? (h : digitValue? c = some d) (hc : c ∈ s.toList) :
    c ∈ (lowerString s).toList := by
  rw [lowerString, String.toList_ofList]
  exact mem_lowerAfter_of_digitValue? h hc

/-- A text with a digit is not a word without digits, whatever becomes of its letters. -/
theorem lowerString_ne_of_digitValue? (h : digitValue? c = some d) (hc : c ∈ s.toList)
    (hword : ∀ c ∈ word.toList, digitValue? c = none) : lowerString s ≠ word := by
  rintro rfl
  have hnone : digitValue? c = none := hword c (mem_lowerString_of_digitValue? h hc)
  cases h.symm.trans hnone

end ModulePath.Text
