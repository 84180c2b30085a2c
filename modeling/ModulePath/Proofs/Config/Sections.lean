import ModulePath.Cache.Settings
import ModulePath.Proofs.Cache.Memo
import ModulePath.Proofs.Layers.Settings

/-!
# The sections of a checked configuration

A configuration that passes the check has every section, and what each of them holds passes the
check of that section (`exists_section_of_validate`); a section that is missing is empty. What is in
a checked section can be used: a log level is the name of a level or nothing, a log file is a text
or nothing, and the size of the cache is positive.
-/

set_option autoImplicit false

namespace ModulePath.Config

variable {st : Store} {s : Section} {entries : Entries} {v : Value}

/-! ## Sections -/

/-- Nothing is wrong with a section without fields. -/
theorem checkSection_nil (s : Section) : checkSection s (.dict []) = .ok () := by
  cases s with
  | layers => rfl
  | cache => rfl
  | logging => rfl

/-- Only a dictionary passes as a section. -/
theorem exists_dict_of_checkSection (h : checkSection s v = .ok ()) :
    ∃ entries, v = .dict entries := by
  cases v with
  | dict entries => exact ⟨entries, rfl⟩
  | null | bool _ | int _ | real _ | str _ | list _ | tuple _ | set _ =>
    have hshape : (refuse (.sectionShape s) : Outcome Invalid Unit) = .ok () := by
      cases s <;> exact h
    exact absurd hshape refuse_ne_ok

theorem checkSectionOf_eq_ok (h : checkSectionOf entries s = .ok ()) :
    (∃ es, Value.field? s.key entries = some (.dict es) ∧ checkSection s (.dict es) = .ok ()) ∨
      Value.field? s.key entries = none := by
  unfold checkSectionOf at h
  cases hfield : Value.field? s.key entries with
  | none => exact .inr rfl
  | some v =>
    rw [hfield] at h
    obtain ⟨es, rfl⟩ := exists_dict_of_checkSection h
    exact .inl ⟨es, rfl, h⟩

/-- All sections, in the order of the check. -/
def Section.inOrder : List Section := [.layers, .cache, .logging]

theorem Section.mem_inOrder (s : Section) : s ∈ Section.inOrder := by
  cases s <;> decide

/-- A configuration whose sections are found is checked section by section. -/
theorem check_dict_eq {sections : Entries}
    (hroot : (Value.field? rootKey entries).getD (.dict entries) = .dict sections) :
    check (.dict entries) = forM Section.inOrder (checkSectionOf sections) := by
  rw [check, hroot]
  simp only [Section.inOrder, List.forM_cons, List.forM_nil, Outcome.bind_pure_unit]

/-- A dictionary passes if each of its sections does. -/
theorem check_dict_eq_ok_iff : check (.dict entries) = .ok () ↔
    ∃ sections, (Value.field? rootKey entries).getD (.dict entries) = .dict sections ∧
      ∀ s, checkSectionOf sections s = .ok () := by
  cases hroot : (Value.field? rootKey entries).getD (.dict entries) with
  | dict sections =>
    rw [check_dict_eq hroot, Outcome.forM_eq_ok_iff]
    simp only [Value.dict.injEq, exists_eq_left']
    exact ⟨fun h s => h s s.mem_inOrder, fun h s _ => h s⟩
  | null | bool _ | int _ | real _ | str _ | list _ | tuple _ | set _ =>
    simp [check, hroot, refuse_ne_ok]

/-- What stands under the root key is a dictionary whose sections are all checked. -/
theorem checkSectionOf_of_check (hroot : Value.field? rootKey entries = some v)
    (h : check (.dict entries) = .ok ()) :
    ∃ sections, v = .dict sections ∧ ∀ s, checkSectionOf sections s = .ok () := by
  rw [check_dict_eq_ok_iff, hroot, Option.getD_some] at h
  exact h

/-- A section is read below the key of the program. -/
theorem section?_of_root {sections : Entries} (name : String)
    (hroot : Value.field? rootKey st.mergedEntries = some (.dict sections)) :
    st.section? name = Store.dictOf ((Value.field? name sections).getD (.dict [])) := by
  simp only [Store.section?, hroot, Option.getD_some]

/-- Every section of a checked configuration can be looked up, and passes its own check. -/
theorem exists_section_of_validate (h : st.validate = .ok ()) (s : Section) :
    ∃ es, st.section? s.key = .ok es ∧ checkSection s (.dict es) = .ok () := by
  have hcheck : check (.dict st.mergedEntries) = .ok () := Outcome.mapCause_eq_ok.1 h
  cases hroot : Value.field? rootKey st.mergedEntries with
  | none =>
    refine ⟨[], ?_, checkSection_nil s⟩
    simp only [Store.section?, hroot, Option.getD_none]
    rfl
  | some v =>
    obtain ⟨sections, rfl, hsections⟩ := checkSectionOf_of_check hroot hcheck
    rw [section?_of_root s.key hroot]
    rcases checkSectionOf_eq_ok (hsections s) with ⟨es, hfield, hsection⟩ | hfield
    · rw [hfield]
      exact ⟨es, rfl, hsection⟩
    · rw [hfield]
      exact ⟨[], rfl, checkSection_nil s⟩

/-! ## Values -/

/-- A checked log level is the name of a level, unless it is nothing. -/
theorem logLevelFault?_eq_none (h : logLevelFault? v = none) :
    v = .null ∨ ∃ s level, v = .str s ∧ Log.Level.ofName? s = some level := by
  cases v with
  | null => exact .inl rfl
  | str s =>
    cases hlevel : Log.Level.ofName? s with
    | some level => exact .inr ⟨s, level, rfl, hlevel⟩
    | none => simp [logLevelFault?, hlevel] at h
  | bool _ | int _ | real _ | list _ | tuple _ | set _ | dict _ => cases h

/-- A level that passes is null or the name of a level. -/
theorem checkLogging_eq_ok (h : checkLogging (.dict entries) = .ok ()) (v : Value)
    (hv : Value.field? "level" entries = some v) :
    v = .null ∨ ∃ s level, v = .str s ∧ Log.Level.ofName? s = some level := by
  obtain ⟨⟨⟩, hlevel, -⟩ := Outcome.seq_eq_ok.1 h
  exact logLevelFault?_eq_none (checkField_eq_ok_iff.1 hlevel v hv)

/-- The check of the cache section lets through only a size that a cache can have. -/
theorem isPositive_of_checkCache (h : checkCache (.dict entries) = .ok ()) :
    Cache.IsPositive (Cache.Settings.ofEntries entries).size := by
  obtain ⟨-, -, h⟩ := Outcome.seq_eq_ok.1 h
  obtain ⟨⟨⟩, -, hsize⟩ := Outcome.seq_eq_ok.1 h
  unfold Cache.Settings.ofEntries
  cases hfield : Value.field? "max_patterns" entries with
  | none =>
    have hdefault : Cache.IsPositive (.int 1024) := by decide
    exact hdefault
  | some v =>
    have hfault : cacheSizeFault? v = none := checkField_eq_ok_iff.1 hsize v hfield
    cases v with
    | int n =>
      by_cases hn : 0 < n
      · exact hn
      · simp [cacheSizeFault?, hn] at hfault
    | null | bool _ | real _ | str _ | list _ | tuple _ | set _ | dict _ => cases hfault

end ModulePath.Config
