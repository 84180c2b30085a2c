import Mathlib.Algebra.Order.Ring.Unbundled.Rat
import ModulePath.Proofs.Cache.Operations

/-!
# What a cache remembers

A cache that only ever stores the values of one function under their keys remembers that function
(`Remembers`): it answers with a value of the function or with nothing. Every operation keeps this,
also one that pushes entries out, and a cache of a positive size never fails to store a value, so
looking a key up and computing its value if need be always answers that value
(`Remembers.getOrCompute`).
-/

set_option autoImplicit false

namespace ModulePath.Cache

/-! ## Positive sizes -/

/-- A size is above zero. A double that is no number passes, since it is not at most zero. -/
def IsPositive : Value → Prop
  | .int n => 0 < n
  | .bool b => b = true
  | .real d => d.leInt 0 = false
  | _ => False

instance : (size : Value) → Decidable (IsPositive size)
  | .int n => inferInstanceAs (Decidable (0 < n))
  | .bool b => inferInstanceAs (Decidable (b = true))
  | .real d => inferInstanceAs (Decidable (d.leInt 0 = false))
  | .null | .str _ | .list _ | .tuple _ | .set _ | .dict _ => inferInstanceAs (Decidable False)

/-- The check of a size lets exactly the positive ones pass. -/
theorem Settings.check_eq_ok_iff {s : Settings} : s.check = .ok () ↔ IsPositive s.size := by
  obtain ⟨size, enabled⟩ := s
  unfold Settings.check IsPositive
  cases size with
  | int n =>
    by_cases h : n ≤ 0
    · simp [Value.toInt?, h, Outcome.refuse]
    · simp [Value.toInt?, h, Int.lt_of_not_ge h]
  | bool b => cases b <;> simp [Value.toInt?, Outcome.refuse]
  | real d => cases h : d.leInt 0 <;> simp [h, Outcome.refuse]
  | null | str _ | list _ | tuple _ | set _ | dict _ => simp [Value.toInt?, Outcome.fault]

/-- A finite double that is not at most zero has no sign, and its mantissa is not zero. -/
theorem of_leInt_zero_eq_false {d : Double} {negative : Bool} {mantissa : Nat} {exponent : Int}
    (hparts : d.parts = .finite negative mantissa exponent) (h : d.leInt 0 = false) :
    negative = false ∧ mantissa ≠ 0 := by
  unfold Double.leInt Double.value? at h
  simp only [hparts, Option.map_some, Option.getD_some, decide_eq_false_iff_not] at h
  cases negative with
  | true =>
    have hmagnitude : (0 : Rat) ≤ mkRat ↑(mantissa * (Double.powerOfTwo exponent).1)
        (Double.powerOfTwo exponent).2 := Rat.mkRat_nonneg (Int.natCast_nonneg _) _
    exact absurd (Rat.neg_le_neg hmagnitude) h
  | false =>
    refine ⟨rfl, ?_⟩
    rintro rfl
    exact h (by simp)

/-- A double above zero leaves room for an entry, however small it is. -/
theorem ceiling?_ne_zero {d : Double} (h : d.leInt 0 = false) : ceiling? d ≠ some 0 := by
  unfold ceiling?
  cases hparts : d.parts with
  | nan => simp
  | infinite negative =>
    have hnegative : negative = false := by simpa [Double.leInt, hparts] using h
    simp [hnegative]
  | finite negative mantissa exponent =>
    obtain ⟨rfl, hmantissa⟩ := of_leInt_zero_eq_false hparts h
    have hnum : 0 < mantissa * (Double.powerOfTwo exponent).1 :=
      Nat.mul_pos (Nat.pos_of_ne_zero hmantissa) (Nat.pow_pos Nat.zero_lt_two)
    have hden : 0 < (Double.powerOfTwo exponent).2 := Nat.pow_pos Nat.zero_lt_two
    simp only [Bool.false_eq_true, if_false, ne_eq, Option.some.injEq, Nat.div_eq_zero_iff]
    omega

/-- A positive size is a limit on the number of entries that lets in at least one. -/
theorem limit_of_isPositive {size : Value} (h : IsPositive size) :
    Limit.ofValue size = .unbounded ∨ ∃ n, Limit.ofValue size = .atMost (n + 1) := by
  cases size with
  | int n =>
    have hn : 0 < n := h
    obtain ⟨m, hm⟩ : ∃ m, n.toNat = m + 1 := ⟨n.toNat - 1, by omega⟩
    exact .inr ⟨m, by simp [Limit.ofValue, Value.toInt?, hm]⟩
  | bool b =>
    obtain rfl : b = true := h
    exact .inr ⟨0, rfl⟩
  | real d =>
    have hceiling : ceiling? d ≠ some 0 := ceiling?_ne_zero h
    unfold Limit.ofValue
    cases hd : ceiling? d with
    | none => exact .inl (by simp [hd])
    | some n =>
      cases n with
      | zero => exact absurd hd hceiling
      | succ m => exact .inr ⟨m, by simp [hd]⟩
  | null | str _ | list _ | tuple _ | set _ | dict _ => exact absurd h id

/-! ## Remembered values -/

section

variable {κ α : Type} {f : κ → α} {c : Cache κ α}

/-- A cache with a positive size holds values of a function under their keys. -/
structure Remembers (f : κ → α) (c : Cache κ α) : Prop where
  size : IsPositive c.settings.size
  entries : ∀ e ∈ c.entries, e.2 = some (f e.1)

/-- The counts do not matter, and entries may be missing or stand in another order. -/
theorem Remembers.of_subset {c' : Cache κ α} (h : Remembers f c)
    (hsettings : c'.settings = c.settings) (hentries : ∀ e ∈ c'.entries, e ∈ c.entries) :
    Remembers f c' :=
  ⟨hsettings ▸ h.size, fun e he => h.entries e (hentries e he)⟩

/-! ### Settings -/

/-- A new cache remembers any function, for it is empty. -/
theorem remembers_of_ofSettings? {s : Settings} (h : ofSettings? s = .ok c) : Remembers f c := by
  obtain ⟨hcheck, -⟩ := Outcome.check_seq_eq_ok.1 h
  obtain rfl := eq_of_ofSettings? h
  exact ⟨Settings.check_eq_ok_iff.1 hcheck, fun _ he => absurd he List.not_mem_nil⟩

theorem Remembers.clear (h : Remembers f c) : Remembers f c.clear :=
  ⟨h.size, fun _ he => absurd he List.not_mem_nil⟩

/-- A cache that is switched on again finds the entries it had. -/
theorem Remembers.enable (h : Remembers f c) (enabled : Value) : Remembers f (c.enable enabled) :=
  ⟨h.size, h.entries⟩

/-- Entries that a new size pushes out leave others behind that are right as before. -/
theorem Remembers.resize (h : Remembers f c) {size : Value} (hsize : IsPositive size) :
    Remembers f (c.resize size) :=
  ⟨hsize, h.entries⟩

/-- A positive size always makes room, by pushing out the oldest entries. -/
theorem Remembers.makeRoom (h : Remembers f c) :
    ∃ c', c.makeRoom = (.ok (), c') ∧ Remembers f c' := by
  unfold Cache.makeRoom
  rcases limit_of_isPositive h.size with hlimit | ⟨n, hlimit⟩
  · rw [hlimit]
    exact ⟨c, rfl, h⟩
  · rw [hlimit]
    exact ⟨_, rfl, h.of_subset rfl fun _ he => List.mem_of_mem_drop he⟩

end

/-! ### Keys -/

variable {κ α : Type} [BEq κ] {f : κ → α} {c : Cache κ α} {key : κ}

/-- Without an entry, the other entries are right as before. -/
theorem Remembers.invalidate (h : Remembers f c) (key : κ) :
    Remembers f (c.invalidate key).2 :=
  h.of_subset rfl fun _ he => mem_of_mem_without he

variable [LawfulBEq κ]

/-- A look-up answers with nothing or with the value of the key. -/
theorem Remembers.get (h : Remembers f c) (key : κ) :
    ((c.get key).1 = none ∨ (c.get key).1 = some (f key)) ∧ Remembers f (c.get key).2 := by
  rcases get_cases c key with ⟨-, v, hfind, hget⟩ | ⟨-, hget⟩
  · obtain ⟨hmem, -⟩ := find?_eq_some hfind
    rw [hget]
    refine ⟨.inr (h.entries _ hmem), h.of_subset rfl fun e he => ?_⟩
    rcases List.mem_append.1 he with he | he
    · exact mem_of_mem_without he
    · rwa [List.mem_singleton.1 he]
  · rw [hget]
    exact ⟨.inl rfl, h.of_subset rfl fun _ he => he⟩

/-- Storing the value of a key succeeds. -/
theorem Remembers.set (h : Remembers f c) (key : κ) :
    ∃ c', c.set key (some (f key)) = (.ok (), c') ∧ Remembers f c' := by
  unfold Cache.set
  cases c.isEnabled with
  | false => exact ⟨c, rfl, h⟩
  | true =>
    rw [if_pos rfl]
    cases hfind : c.find? key with
    | some e =>
      -- the entry of the key is replaced, so no other one has to go
      obtain ⟨-, rfl⟩ := find?_eq_some hfind
      refine ⟨_, rfl, h.size, fun e' he' => ?_⟩
      rcases List.mem_append.1 he' with he' | he'
      · exact h.entries e' (mem_of_mem_without he')
      · rw [List.mem_singleton.1 he']
    | none =>
      obtain ⟨c', hroom, h'⟩ := h.makeRoom
      rw [hroom]
      refine ⟨_, rfl, h'.size, fun e' he' => ?_⟩
      rcases List.mem_append.1 he' with he' | he'
      · exact h'.entries e' he'
      · rw [List.mem_singleton.1 he']

/-- A cache that remembers a function answers with its value, found or made anew. -/
theorem Remembers.getOrCompute (h : Remembers f c) (key : κ) :
    ∃ isNew c', c.getOrCompute key (some (f key)) = (.ok ⟨some (f key), isNew⟩, c') ∧
      Remembers f c' := by
  obtain ⟨hvalue, h'⟩ := h.get key
  rcases hvalue with hnone | hsome
  · obtain ⟨c', hset, h''⟩ := h'.set key
    rw [getOrCompute_of_none hnone, hset]
    exact ⟨true, c', rfl, h''⟩
  · rw [getOrCompute_of_value hsome]
    exact ⟨false, _, rfl, h'⟩

end ModulePath.Cache
