import Mathlib.Data.Nat.Digits.Defs
import ModulePath.Number.Numeral
import ModulePath.Proofs.Text.Digit
import ModulePath.Proofs.Text.Lines

/-!
# Spellings of integers

How an integer may be spelled is said here without reading it (`Spells`): decimal digits of any
script, leading zeros and single underscores between them included, a sign before them, and
characters of some kind around it all. An integer is read from its spellings between padding
characters, and from nothing else (`integer?_eq_some_iff`). Each part of the reader finds the part
of the spelling that stands for it: `strip` takes away what is around the numeral, `splitSign` the
sign, and `takeDigits` reads the digits.
-/

set_option autoImplicit false

namespace ModulePath.Numeral

open ModulePath.Text

variable {c : Char} {cs body sign : List Char} {d : Nat} {ds : List Nat} {negative : Bool}
  {n : Int} {s : String}

/-! ## The parts of a spelling -/

/-- What may follow a digit: digits, each with at most one underscore before it. -/
inductive Continues : List Nat → List Char → Prop
  | nil : Continues [] []
  | digit {c : Char} {d : Nat} {ds : List Nat} {cs : List Char} (hc : digitValue? c = some d)
    (h : Continues ds cs) : Continues (d :: ds) (c :: cs)
  | underscore {c : Char} {d : Nat} {ds : List Nat} {cs : List Char} (hc : digitValue? c = some d)
    (h : Continues ds cs) : Continues (d :: ds) ('_' :: c :: cs)

/-- Digits with single underscores between them, the highest first. -/
inductive Digits : List Nat → List Char → Prop
  | mk {c : Char} {d : Nat} {ds : List Nat} {cs : List Char} (hc : digitValue? c = some d)
    (h : Continues ds cs) : Digits (d :: ds) (c :: cs)

/-- A sign, and whether it is that of a negative number. -/
inductive Sign : Bool → List Char → Prop
  | none : Sign false []
  | plus : Sign false ['+']
  | minus : Sign true ['-']

/-- The integer of a sign and of digits, the highest first. -/
def signed (negative : Bool) (ds : List Nat) : Int :=
  if negative then -(Nat.ofDigits 10 ds.reverse : Nat) else (Nat.ofDigits 10 ds.reverse : Nat)

/-- A text spells an integer with no more digits than a numeral may have. Around the numeral there
are only characters of the given kind. -/
inductive Spells (around : Char → Bool) : Int → String → Prop
  | mk {before sign body after : List Char} {negative : Bool} {ds : List Nat} {s : String}
    (hs : s.toList = before ++ ((sign ++ body) ++ after))
    (hbefore : ∀ c ∈ before, around c = true) (hafter : ∀ c ∈ after, around c = true)
    (hsign : Sign negative sign) (hbody : Digits ds body) (hlength : ds.length ≤ maxDigits) :
    Spells around (signed negative ds) s

/-! ## Digits -/

theorem ofDigits_eq (ds : List Nat) : ofDigits ds = Nat.ofDigits 10 ds.reverse := by
  rw [ofDigits, Nat.ofDigits_eq_foldr, List.foldr_reverse]
  congr 1
  funext n d
  simp [Nat.add_comm]

theorem digitValue?_underscore : digitValue? '_' = none := by decide

/-- What starts with a digit has a digit for its first character. -/
theorem startsWithDigit_iff : startsWithDigit cs = true ↔ ∃ c d rest,
    cs = c :: rest ∧ digitValue? c = some d := by
  cases cs with
  | nil => simp [startsWithDigit]
  | cons c rest => simp [startsWithDigit, Option.isSome_iff_exists]

/-- Digits that are written on are read to the end. -/
theorem moreDigits_of_continues (h : Continues ds cs) : moreDigits cs = (ds, []) := by
  induction h with
  | nil => rfl
  | digit hc _ ih => simp [moreDigits, hc, ih]
  | underscore hc _ ih => simp [moreDigits, startsWithDigit, digitValue?_underscore, hc, ih]

/-- Digits go on to the end of the text. The induction is along the text: an underscore belongs to
the digit after it. -/
theorem continues_of_moreDigits (h : moreDigits cs = (ds, [])) : Continues ds cs := by
  induction cs generalizing ds with
  | nil =>
    obtain ⟨rfl, -⟩ := Prod.mk.inj h
    exact .nil
  | cons c rest ih =>
    rw [moreDigits] at h
    split at h
    case h_1 d hc =>
      obtain ⟨hds, htail⟩ := Prod.mk.inj h
      subst hds
      exact .digit hc (ih (Prod.ext rfl htail))
    case h_2 hc =>
      split at h
      case isFalse => cases (Prod.mk.inj h).2
      case isTrue hskip =>
        rw [Bool.and_eq_true, decide_eq_true_eq] at hskip
        obtain ⟨rfl, hstarts⟩ := hskip
        obtain ⟨c', d, rest', rfl, hc'⟩ := startsWithDigit_iff.1 hstarts
        -- what follows an underscore begins with a digit, so it is not another one
        cases ih h with
        | digit hfirst hrest => exact .underscore hfirst hrest
        | underscore => cases digitValue?_underscore.symm.trans hc'

/-- What the digits of a numeral are taken from. -/
theorem takeDigits_eq_iff : (takeDigits cs = (ds, []) ∧ ds ≠ []) ↔ Digits ds cs := by
  constructor
  · rintro ⟨h, hds⟩
    rw [takeDigits] at h
    split at h
    case isTrue hstarts =>
      obtain ⟨c, d, rest, rfl, hc⟩ := startsWithDigit_iff.1 hstarts
      cases continues_of_moreDigits h with
      | digit hfirst hrest => exact .mk hfirst hrest
      | underscore => cases digitValue?_underscore.symm.trans hc
    case isFalse => exact absurd (Prod.mk.inj h).1.symm hds
  · rintro ⟨hc, hrest⟩
    rw [takeDigits, if_pos (startsWithDigit_iff.2 ⟨_, _, _, rfl, hc⟩)]
    exact ⟨moreDigits_of_continues (.digit hc hrest), List.cons_ne_nil _ _⟩

/-- Digits that go on after a digit end in a digit, if there are any. -/
theorem Continues.eq_nil_or_concat (h : Continues ds cs) :
    cs = [] ∨ ∃ init c d, cs = init ++ [c] ∧ digitValue? c = some d := by
  induction h with
  | nil => exact .inl rfl
  | @digit c d ds cs hc _ ih =>
    rcases ih with rfl | ⟨init, last, d', rfl, hlast⟩
    · exact .inr ⟨[], c, d, rfl, hc⟩
    · exact .inr ⟨c :: init, last, d', rfl, hlast⟩
  | @underscore c d ds cs hc _ ih =>
    rcases ih with rfl | ⟨init, last, d', rfl, hlast⟩
    · exact .inr ⟨['_'], c, d, rfl, hc⟩
    · exact .inr ⟨'_' :: c :: init, last, d', rfl, hlast⟩

theorem Digits.exists_head (h : Digits ds body) :
    ∃ c d rest, body = c :: rest ∧ digitValue? c = some d := by
  cases h with
  | mk hc _ => exact ⟨_, _, _, rfl, hc⟩

theorem Digits.exists_last (h : Digits ds body) :
    ∃ init c d, body = init ++ [c] ∧ digitValue? c = some d := by
  cases h with
  | @mk c d ds cs hc hrest =>
    rcases hrest.eq_nil_or_concat with rfl | ⟨init, last, d', rfl, hlast⟩
    · exact ⟨[], c, d, rfl, hc⟩
    · exact ⟨c :: init, last, d', rfl, hlast⟩

/-! ## The sign -/

/-- A sign is split off before digits. -/
theorem splitSign_of_sign (h : Sign negative sign) (hbody : Digits ds body) :
    splitSign (sign ++ body) = (negative, body) := by
  cases h with
  | plus | minus => rfl
  | none =>
    obtain ⟨c, d, rest, rfl, hc⟩ := hbody.exists_head
    -- a digit is no sign
    rw [List.nil_append, splitSign]
    · rintro rest ⟨⟩
      cases hc
    · rintro rest ⟨⟩
      cases hc

/-- What is split off is a sign. -/
theorem sign_of_splitSign (h : splitSign cs = (negative, body)) :
    ∃ sign, cs = sign ++ body ∧ Sign negative sign := by
  unfold splitSign at h
  split at h
  case h_1 =>
    obtain ⟨rfl, rfl⟩ := Prod.mk.inj h
    exact ⟨['-'], rfl, .minus⟩
  case h_2 =>
    obtain ⟨rfl, rfl⟩ := Prod.mk.inj h
    exact ⟨['+'], rfl, .plus⟩
  case h_3 =>
    obtain ⟨rfl, rfl⟩ := Prod.mk.inj h
    exact ⟨[], rfl, .none⟩

/-! ## Around a numeral -/

/-- No digit is padding. -/
theorem isPadding_of_digitValue? (h : digitValue? c = some d) : isPadding c = false := by
  rw [isPadding, isBlank_of_digitValue? h, Bool.false_and]

theorem isPadding_of_mem_sign (h : Sign negative sign) (hc : c ∈ sign) : isPadding c = false := by
  cases h with
  | none => cases hc
  | plus | minus =>
    obtain rfl := List.mem_singleton.1 hc
    decide

/-- A numeral neither begins nor ends with padding, so stripping leaves it. -/
theorem strip_around {before after : List Char} (hbefore : ∀ c ∈ before, isPadding c = true)
    (hafter : ∀ c ∈ after, isPadding c = true) (hsign : Sign negative sign)
    (hbody : Digits ds body) : strip (before ++ ((sign ++ body) ++ after)) = sign ++ body := by
  obtain ⟨first, d, rest, hfirst, hd⟩ := hbody.exists_head
  obtain ⟨init, last, d', hlast, hd'⟩ := hbody.exists_last
  have hne : sign ++ body ≠ [] := by simp [hfirst]
  refine dropEndWhile_around hbefore hafter hne (fun c hc => ?_) fun c hc => ?_
  · cases sign with
    | nil =>
      rw [hfirst] at hc
      obtain rfl := Option.some.inj hc
      exact isPadding_of_digitValue? hd
    | cons c' sign =>
      obtain rfl := Option.some.inj hc
      exact isPadding_of_mem_sign hsign List.mem_cons_self
  · rw [hlast, ← List.append_assoc, List.getLast?_concat] at hc
    obtain rfl := Option.some.inj hc
    exact isPadding_of_digitValue? hd'

/-! ## Integers -/

/-- What spells an integer is read as it. -/
theorem integer?_of_spells (h : Spells isPadding n s) : integer? s = some n := by
  cases h with
  | @mk before sign body after negative ds s hs hbefore hafter hsign hbody hlength =>
    obtain ⟨htake, hds⟩ := takeDigits_eq_iff.2 hbody
    obtain ⟨d, rest, rfl⟩ := List.exists_cons_of_ne_nil hds
    simp only [integer?, hs, strip_around hbefore hafter hsign hbody,
      splitSign_of_sign hsign hbody, htake, if_pos hlength, ofDigits_eq, signed]

/-- What is read as an integer spells it. -/
theorem spells_of_integer? (h : integer? s = some n) : Spells isPadding n s := by
  obtain ⟨before, after, hs, hbefore, hafter⟩ := exists_around isPadding s.toList
  have hsplit : splitSign (strip s.toList) =
      ((splitSign (strip s.toList)).1, (splitSign (strip s.toList)).2) := rfl
  obtain ⟨sign, hstrip, hsign⟩ := sign_of_splitSign hsplit
  simp only [integer?] at h
  split at h
  case h_1 => cases h
  case h_3 => cases h
  case h_2 ds hds htake =>
    split at h
    case isFalse => cases h
    case isTrue hlength =>
      -- nothing is left behind the digits
      have hbody : Digits ds (splitSign (strip s.toList)).2 := takeDigits_eq_iff.1 ⟨htake, hds⟩
      have hsigned : signed (splitSign (strip s.toList)).1 ds = n := by
        rw [signed, ← ofDigits_eq]
        exact Option.some.inj h
      rw [← hsigned]
      have hparts : s.toList =
          before ++ ((sign ++ (splitSign (strip s.toList)).2) ++ after) :=
        hs.trans (congrArg (fun numeral => before ++ (numeral ++ after)) hstrip)
      exact .mk hparts hbefore hafter hsign hbody hlength

/-- An integer is read from its spellings between padding, and from no other text. -/
theorem integer?_eq_some_iff : integer? s = some n ↔ Spells isPadding n s :=
  ⟨spells_of_integer?, integer?_of_spells⟩

end ModulePath.Numeral
