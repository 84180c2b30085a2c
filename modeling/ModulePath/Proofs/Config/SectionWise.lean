import ModulePath.Proofs.Config.Overlay

/-!
# Configurations section by section

A property of single sections holds of a configuration if the sections stand under the root key and
every one of them that is there is a dictionary with the property (`SectionWise`). If laying one
section over another keeps the property, so does laying one configuration over another
(`SectionWise.overlayAll`), and the merged tree of a store has it when all trees have
(`sectionWise_foldl`).
-/

set_option autoImplicit false

namespace ModulePath.Config

open Value (DistinctTexts WellKeyed field?)

variable {P : Section → Entries → Prop} {entries lower upper : Entries}

/-- The sections stand under the root key, and each of them that is there has a property. -/
def SectionWise (P : Section → Entries → Prop) (entries : Entries) : Prop :=
  ∃ sections, field? rootKey entries = some (.dict sections) ∧
    ∀ s w, field? s.key sections = some w → ∃ fields, w = .dict fields ∧ P s fields

/-- Laying a section over another one keeps a property. -/
def KeptByOverlay (P : Section → Entries → Prop) : Prop :=
  ∀ s lower upper, (Value.dict upper).WellKeyed → P s lower → P s upper →
    P s (overlayAll lower upper)

/-- A configuration that is laid over nothing. -/
theorem SectionWise.overlayAll_nil (hkeys : (Value.dict upper).WellKeyed)
    (hupper : SectionWise P upper) : SectionWise P (overlayAll [] upper) := by
  obtain ⟨more, hmore, hsections⟩ := hupper
  exact ⟨more, field?_overlayAll_of_some (Value.wellKeyed_dict_iff.1 hkeys).1 hmore, hsections⟩

/-- What holds of the sections of two trees holds of the one laid over the other, if it is kept by
laying entries over one another. -/
theorem SectionWise.overlayAll (hP : KeptByOverlay P) (hkeys : (Value.dict upper).WellKeyed)
    (hlower : SectionWise P lower) (hupper : SectionWise P upper) :
    SectionWise P (overlayAll lower upper) := by
  obtain ⟨sections, hroot, hsections⟩ := hlower
  obtain ⟨more, hmore, hmoreSections⟩ := hupper
  have hmoreKeys : (Value.dict more).WellKeyed := hkeys.of_field? hmore
  refine ⟨Config.overlayAll sections more, ?_, fun s w hw => ?_⟩
  · rw [field?_overlayAll_of_some (Value.wellKeyed_dict_iff.1 hkeys).1 hmore, hroot,
      Option.elim_some, overlay]
  · cases hfield : field? s.key more with
    | none =>
      rw [field?_overlayAll_of_none hfield] at hw
      exact hsections s w hw
    | some u =>
      obtain ⟨fields, rfl, hfields⟩ := hmoreSections s u hfield
      rw [field?_overlayAll_of_some (Value.wellKeyed_dict_iff.1 hmoreKeys).1 hfield] at hw
      obtain rfl := Option.some.inj hw
      -- the section is laid over the lower one, if that is there
      cases hold : field? s.key sections with
      | none => exact ⟨fields, rfl, hfields⟩
      | some old =>
        obtain ⟨oldFields, rfl, holdFields⟩ := hsections s old hold
        refine ⟨Config.overlayAll oldFields fields, ?_, ?_⟩
        · rw [Option.elim_some, overlay]
        · exact hP s oldFields fields (hmoreKeys.of_field? hfield) holdFields hfields

/-- Trees are laid over one another one by one. What there is of the merged configuration at any
time is empty or has its sections. -/
theorem sectionWise_foldl (hP : KeptByOverlay P) {trees : List Entries}
    (htrees : ∀ tree ∈ trees, (Value.dict tree).WellKeyed ∧ SectionWise P tree) {merged : Entries}
    (hmerged : merged = [] ∨ SectionWise P merged) :
    trees.foldl overlayAll merged = [] ∨ SectionWise P (trees.foldl overlayAll merged) := by
  induction trees generalizing merged with
  | nil => exact hmerged
  | cons tree trees ih =>
    obtain ⟨⟨hkeys, htree⟩, hrest⟩ := List.forall_mem_cons.1 htrees
    rw [List.foldl_cons]
    apply ih hrest
    right
    rcases hmerged with rfl | hmerged
    · exact htree.overlayAll_nil hkeys
    · exact hmerged.overlayAll hP hkeys htree

end ModulePath.Config
