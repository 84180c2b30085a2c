/-!
# Code point order

Texts are ordered by their code points, the beginning of a text before the text. The order is
strict and total (`before_irrefl`, `before_trans`, `before_or_eq_or_before`). `sort` puts a list
into this order and keeps equal texts.
-/

set_option autoImplicit false

namespace ModulePath.Text

/-- Whether `as` comes strictly before `bs`. -/
def lt : List Char → List Char → Bool
  | _, [] => false
  | [], _ :: _ => true
  | a :: as, b :: bs => decide (a.toNat < b.toNat) || (a == b && lt as bs)

theorem lt_irrefl (as : List Char) : lt as as = false := by
  induction as with
  | nil => rfl
  | cons a as ih => simp [lt, ih]

theorem lt_trans {as bs cs : List Char} (h : lt as bs = true) (h' : lt bs cs = true) :
    lt as cs = true := by
  induction as generalizing bs cs with
  | nil =>
    cases cs with
    | nil => cases bs <;> simp [lt] at h'
    | cons c cs => rfl
  | cons a as ih =>
    cases bs with
    | nil => simp [lt] at h
    | cons b bs =>
      cases cs with
      | nil => simp [lt] at h'
      | cons c cs =>
        simp only [lt, Bool.or_eq_true, Bool.and_eq_true, decide_eq_true_eq, beq_iff_eq] at h h' ⊢
        rcases h with h | ⟨rfl, h⟩ <;> rcases h' with h' | ⟨rfl, h'⟩
        · exact .inl (Nat.lt_trans h h')
        · exact .inl h
        · exact .inl h'
        · exact .inr ⟨rfl, ih h h'⟩

theorem lt_or_eq_or_lt (as bs : List Char) : lt as bs = true ∨ as = bs ∨ lt bs as = true := by
  induction as generalizing bs with
  | nil => cases bs <;> simp [lt]
  | cons a as ih =>
    cases bs with
    | nil => simp [lt]
    | cons b bs =>
      rcases Nat.lt_trichotomy a.toNat b.toNat with h | h | h
      · simp [lt, h]
      · have hab : a = b := Char.toNat_inj.1 h
        subst hab
        rcases ih bs with h | rfl | h <;> simp [lt, *]
      · simp [lt, h]

/-- Whether the string `a` comes strictly before the string `b`. -/
def before (a b : String) : Bool := lt a.toList b.toList

theorem before_irrefl (a : String) : before a a = false := lt_irrefl _

theorem before_trans {a b c : String} (h : before a b = true) (h' : before b c = true) :
    before a c = true := lt_trans h h'

theorem before_or_eq_or_before (a b : String) :
    before a b = true ∨ a = b ∨ before b a = true := by
  rcases lt_or_eq_or_lt a.toList b.toList with h | h | h
  · exact .inl h
  · exact .inr (.inl (String.toList_inj.1 h))
  · exact .inr (.inr h)

/-! ## Sorting -/

/-- Put `x` into a sorted list before the first member that does not come before it. -/
def insertSorted (x : String) : List String → List String
  | [] => [x]
  | y :: ys => if before y x then y :: insertSorted x ys else x :: y :: ys

/-- The members of a list in code point order. -/
def sort (xs : List String) : List String := xs.foldr insertSorted []

end ModulePath.Text
