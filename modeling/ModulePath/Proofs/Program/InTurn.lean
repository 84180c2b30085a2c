import ModulePath.Proofs.Program.Settles
import ModulePath.Proofs.Program.Trace

/-!
# Programs for the members of a list

The programs for the members of a list run in turn, and their answers are put together. The first
one that fails ends the whole: all before it have answered, and what they log and it logs is all
that is logged (`exists_of_inTurn_eq_error`).
-/

set_option autoImplicit false

namespace ModulePath.Program

variable {ε ι α : Type} {fs : FileSystem} {visit : ι → Program ε (List α)} {members : List ι}
  {answers : List α} {e : Failure ε}

/-- Run a program for every member of a list and put the answers together. -/
def inTurn (visit : ι → Program ε (List α)) : List ι → Program ε (List α)
  | [] => pure []
  | i :: rest => do
    let first ← visit i
    return first ++ (← inTurn visit rest)

/-- A program is run for the first member and then for the others. -/
theorem outcome_inTurn_cons_eq_ok {i : ι} {rest : List ι} :
    (inTurn visit (i :: rest)).outcome fs = .ok answers ↔
      ∃ first others, (visit i).outcome fs = .ok first ∧
        (inTurn visit rest).outcome fs = .ok others ∧ answers = first ++ others := by
  rw [inTurn, outcome_bind_eq_ok]
  simp only [outcome_bind_eq_ok, outcome_pure_eq_ok]
  constructor
  · rintro ⟨first, hfirst, others, hothers, rfl⟩
    exact ⟨first, others, hfirst, hothers, rfl⟩
  · rintro ⟨first, others, hfirst, hothers, rfl⟩
    exact ⟨first, hfirst, others, hothers, rfl⟩

/-- The records of the first member come first. -/
theorem records_inTurn_cons {i : ι} {rest : List ι} {first : List α}
    (h : (visit i).outcome fs = .ok first) :
    (inTurn visit (i :: rest)).records fs =
      (visit i).records fs ++ (inTurn visit rest).records fs := by
  rw [inTurn, records_bind_of_ok h]
  cases hrest : (inTurn visit rest).outcome fs with
  | ok others =>
    rw [records_bind_of_ok hrest]
    exact congrArg _ (List.append_nil _)
  | error e => rw [records_bind_of_error hrest]

theorem Does.inTurn {E : Event → Prop} (h : ∀ i, Does fs E (visit i)) (members : List ι) :
    Does fs E (inTurn visit members) := by
  induction members with
  | nil => exact does_pure []
  | cons i rest ih => exact (h i).bind fun _ _ => ih.bind fun _ _ => does_pure _

/-- The records of all members come in their order. -/
theorem records_inTurn (h : (inTurn visit members).outcome fs = .ok answers) :
    (inTurn visit members).records fs = members.flatMap fun i => (visit i).records fs := by
  induction members generalizing answers with
  | nil => rfl
  | cons i rest ih =>
    obtain ⟨first, others, hfirst, hothers, -⟩ := outcome_inTurn_cons_eq_ok.1 h
    rw [records_inTurn_cons hfirst, ih hothers, List.flatMap_cons]

/-- The first member whose program fails, after those whose programs answer. -/
theorem exists_of_inTurn_eq_error (h : (inTurn visit members).outcome fs = .error e) :
    ∃ before i after answers, members = before ++ i :: after ∧
      (inTurn visit before).outcome fs = .ok answers ∧ (visit i).outcome fs = .error e ∧
      (inTurn visit members).records fs =
        (inTurn visit before).records fs ++ (visit i).records fs := by
  induction members with
  | nil => cases h
  | cons i rest ih =>
    cases hfirst : (visit i).outcome fs with
    | error e' =>
      rw [inTurn, outcome_bind, hfirst] at h
      obtain rfl : e' = e := Except.error.inj h
      exact ⟨[], i, rest, [], rfl, rfl, hfirst, records_bind_of_error hfirst⟩
    | ok first =>
      -- the first member is done, so one of the others fails
      rw [inTurn, outcome_bind_eq_error, hfirst] at h
      rcases h with h | ⟨_, -, h⟩
      · cases h
      · rcases outcome_bind_eq_error.1 h with h | ⟨others, -, h⟩
        · obtain ⟨before, j, after, answers, rfl, hbefore, hj, hrecords⟩ := ih h
          refine ⟨i :: before, j, after, first ++ answers, rfl, ?_, hj, ?_⟩
          · exact outcome_inTurn_cons_eq_ok.2 ⟨first, answers, hfirst, hbefore, rfl⟩
          · rw [records_inTurn_cons hfirst, records_inTurn_cons hfirst, hrecords, List.append_assoc]
        · cases h

end ModulePath.Program
