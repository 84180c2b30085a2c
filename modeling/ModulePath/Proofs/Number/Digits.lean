import ModulePath.Number.Numeral

/-!
# Digits of numerals

What is read as a digit is a decimal digit (`lt_ten_of_digitValue?`), so digits one after another
are a number below the power of ten with as many zeros (`ofDigits_lt`). An integer that is read from
a text has no more than the digits that a numeral may have (`natAbs_lt_of_integer?`).
-/

set_option autoImplicit false

namespace ModulePath.Numeral

open ModulePath.Text

variable {c : Char} {cs : List Char} {ds : List Nat} {d : Nat}

theorem lt_ten_of_digitValue? (h : digitValue? c = some d) : d < 10 := by
  obtain ⟨first, hfind, rfl⟩ := Option.map_eq_some_iff.1 h
  have hcovers := List.find?_some hfind
  rw [Bool.and_eq_true, decide_eq_true_eq, decide_eq_true_eq] at hcovers
  omega

/-- The digits that go on at the beginning of a text, by induction along the text. -/
theorem lt_ten_of_mem_moreDigits (h : d ∈ (moreDigits cs).1) : d < 10 := by
  induction cs with
  | nil => cases h
  | cons c rest ih =>
    rw [moreDigits] at h
    split at h
    case h_1 first hfirst =>
      rcases List.mem_cons.1 h with rfl | hrest
      · exact lt_ten_of_digitValue? hfirst
      · exact ih hrest
    case h_2 =>
      split at h
      case isTrue => exact ih h
      case isFalse => cases h

/-- Digits are less than ten. -/
theorem lt_ten_of_mem_takeDigits (h : d ∈ (takeDigits cs).1) : d < 10 := by
  unfold takeDigits at h
  split at h
  case isTrue => exact lt_ten_of_mem_moreDigits h
  case isFalse => cases h

/-- Digits after a number that is there already. -/
theorem foldl_digits_lt (h : ∀ d ∈ ds, d < 10) (n : Nat) :
    ds.foldl (fun n d => 10 * n + d) n < (n + 1) * Nat.pow 10 ds.length := by
  induction ds generalizing n with
  | nil =>
    have hpow : Nat.pow 10 ([] : List Nat).length = 1 := rfl
    rw [List.foldl_nil, hpow]
    omega
  | cons d rest ih =>
    obtain ⟨hd, hrest⟩ := List.forall_mem_cons.1 h
    have hpow : Nat.pow 10 (d :: rest).length = 10 * Nat.pow 10 rest.length :=
      Nat.pow_succ'
    have hnext : 10 * n + d + 1 ≤ (n + 1) * 10 := by omega
    calc (d :: rest).foldl (fun n d => 10 * n + d) n
        = rest.foldl (fun n d => 10 * n + d) (10 * n + d) := rfl
      _ < (10 * n + d + 1) * Nat.pow 10 rest.length := ih hrest _
      _ ≤ (n + 1) * 10 * Nat.pow 10 rest.length := Nat.mul_le_mul_right _ hnext
      _ = (n + 1) * Nat.pow 10 (d :: rest).length := by rw [hpow, Nat.mul_assoc]

/-- A number has no more digits than are written. -/
theorem ofDigits_lt (h : ∀ d ∈ ds, d < 10) : ofDigits ds < Nat.pow 10 ds.length := by
  have hlt := foldl_digits_lt h 0
  rwa [Nat.zero_add, Nat.one_mul] at hlt

theorem pow_ten_le {m n : Nat} (h : m ≤ n) : Nat.pow 10 m ≤ Nat.pow 10 n :=
  Nat.pow_le_pow_right (by decide) h

/-- An integer that is read from a text has no more digits than may be read. -/
theorem natAbs_lt_of_integer? {s : String} {n : Int} (h : integer? s = some n) :
    n.natAbs < Nat.pow 10 maxDigits := by
  simp only [integer?] at h
  split at h
  case h_1 => cases h
  case h_3 => cases h
  case h_2 hdigits =>
    split at h
    case isFalse => cases h
    case isTrue hlength =>
      have hall : ∀ d ∈ (takeDigits (splitSign (strip s.toList)).2).1, d < 10 :=
        fun d => lt_ten_of_mem_takeDigits
      rw [hdigits] at hall
      have hlt := Nat.lt_of_lt_of_le (ofDigits_lt hall) (pow_ten_le hlength)
      -- the sign does not count
      have habs := Option.some.inj h
      split at habs <;> subst habs
      · rwa [Int.natAbs_neg, Int.natAbs_natCast]
      · rwa [Int.natAbs_natCast]

end ModulePath.Numeral
