import ModulePath.Config.Load
import ModulePath.Proofs.Outcome
import ModulePath.Proofs.Program.Run
import ModulePath.Proofs.Value.Dictionary

/-!
# Configuration files

A configuration file is loaded by reading the data in it and giving them to a source. The data are
well keyed, as those of every document are.
-/

set_option autoImplicit false

namespace ModulePath.Config

variable {σ α : Type} {w : World σ} {x y : σ} {yaml : Yaml.Reader} {file : String} {v : Value}
  {st : Store}

/-- What is made of a file is made of what it holds. -/
theorem exists_of_run_fromFile {read : Content → Outcome Unit α} {a : α}
    (h : (fromFile read file).run w x = (.ok a, y)) : ∃ c, read c = .ok a := by
  obtain ⟨path, y₁, -, h⟩ := Program.run_bind_eq_ok.1 h
  obtain ⟨present, y₂, -, h⟩ := Program.run_bind_eq_ok.1 h
  split at h
  case isFalse => cases h
  case isTrue =>
    obtain ⟨directory, y₃, -, h⟩ := Program.run_bind_eq_ok.1 h
    split at h
    case isTrue => cases h
    case isFalse =>
      obtain ⟨content, y₄, -, h⟩ := Program.run_bind_eq_ok.1 h
      exact ⟨content, Outcome.mapCause_eq_ok.1 (Prod.mk.inj h).1⟩

/-- What is read from a file is the data of a document. -/
theorem wellKeyed_of_data (h : (data yaml file).run w x = (.ok v, y)) : v.WellKeyed := by
  obtain ⟨content, hread⟩ := exists_of_run_fromFile h
  exact yaml.wellKeyed hread

namespace Store

/-- Data that are no dictionary are refused for that. -/
theorem loadData_of_not_isDict {s : Source} (h : ¬ v.IsDict) :
    st.loadData file s v = Outcome.refuse (.notDictionary file) := by
  cases v with
  | dict entries => exact absurd ⟨entries, rfl⟩ h
  | null | bool _ | int _ | real _ | str _ | list _ | tuple _ | set _ => rfl

/-- A file gives a source the data of its document, which is a dictionary. -/
theorem exists_loadFrom_of_loadFile {st' : Store} {s : Source}
    (h : (st.loadFile yaml file s).run w x = (.ok st', y)) :
    ∃ entries, (Value.dict entries).WellKeyed ∧
      st.loadFrom file (.dict entries) s = .ok st' := by
  obtain ⟨v, z, hdata, h⟩ := Program.run_bind_eq_ok.1 h
  obtain ⟨hload, -⟩ := Prod.mk.inj h
  by_cases hv : v.IsDict
  case neg =>
    rw [loadData_of_not_isDict hv] at hload
    cases hload
  case pos =>
    obtain ⟨entries, rfl⟩ := hv
    exact ⟨entries, wellKeyed_of_data hdata, hload⟩

end Store

end ModulePath.Config
