import ModulePath.Proofs.Layers.Searchable
import ModulePath.Proofs.Outcome.Members
import ModulePath.Proofs.Program.Settles

/-!
# How the search for layers fails

No question about a tree leads to a fault. So a search on a tree ends in an answer or in an error
that names its cause and a path (`concludes_resolveRoot`), and the search from a root ends in such
an error exactly if the tree cannot be searched. The search from several roots ends in the error of
the first root that has one (`outcome_resolve_eq_error_iff`). Both are put together in
`searchable_or_fails`.
-/

set_option autoImplicit false

namespace ModulePath

open Program (Settles settles_pure settles_refuse settles_note settles_isDirectory
  settles_isReadable settles_isPresent settles_subdirectories outcome_bind_eq_error)

/-- The files of a tree hold texts, so what is read is never a fault. -/
theorem Tree.settles_text {ε : Type} {P : ε → Prop} {t : Tree} {q : Path} {cause : String → ε}
    (h : ∀ reason, P (cause reason)) : Settles t.fileSystem P (Program.text q cause) := by
  unfold Settles Program.text
  rw [Program.outcome, FileSystem.answer, Tree.fileSystem]
  dsimp only
  cases t.failure? q with
  | some reason => exact .inr ⟨cause reason, rfl, h reason⟩
  | none =>
    cases t.file? q with
    | some s => exact .inl ⟨s, rfl⟩
    | none => exact .inr ⟨cause "No such file", rfl, h _⟩

namespace Layers

variable {t : Tree} {layout : Layout} {root dir : Path}

/-! ## Errors of searches -/

/-- Whether a cause has nothing but a text of its own. -/
def Cause.isOther : Cause → Bool
  | .other _ _ => true
  | _ => false

theorem Cause.ne_other {cause : Cause} (h : cause.isOther = false) (text : String) (code : Code) :
    cause ≠ .other text code := by
  rintro rfl
  cases h

/-- An error says what is wrong and names a path. -/
structure Error.Specific (e : Error) : Prop where
  cause_ne : ∀ text code, e.cause ≠ .other text code
  path_eq : ∃ p : Path, e.path = some p.text

/-- A search on a tree ends in an answer or in a specific error. -/
abbrev Concludes (t : Tree) {α : Type} (s : Search α) : Prop :=
  Settles t.fileSystem Error.Specific s

/-- A search that stops at a cause of the list concludes. -/
theorem concludes_stop {α : Type} {cause : Cause} {p : Path}
    (h : cause.isOther = false) : Concludes t (stop cause p : Search α) :=
  settles_refuse ⟨Cause.ne_other h, p, rfl⟩

theorem settles_logEntry {ε : Type} {P : ε → Prop} {fs : FileSystem} (e : Log.Entry) :
    Settles fs P (logEntry e : Program ε Unit) :=
  settles_note _

/-! ### The configuration file -/

/-- A list of names is gone through up to the first that is not valid. -/
theorem settles_addNames {fs : FileSystem} (rest names : List String) :
    Settles fs (fun _ => True) (addNames names rest) := by
  induction rest generalizing names with
  | nil => exact settles_pure names
  | cons name rest ih =>
    rw [addNames]
    cases nameFault? name with
    | some f => exact settles_refuse trivial
    | none => exact .ite ((settles_logEntry _).bind fun _ _ => ih names) (ih _)

theorem settles_checkPath {fs : FileSystem} (p : Option String) :
    Settles fs (fun _ => True) (Conf.checkPath p) := by
  unfold Conf.checkPath
  cases p.bind relativePathFault? with
  | some f => exact settles_refuse trivial
  | none => exact settles_pure ()

theorem settles_ofText {fs : FileSystem} (text : String) :
    Settles fs (fun _ => True) (Conf.ofText text) := by
  refine (settles_checkPath _).bind fun _ _ => ?_
  refine (settles_checkPath _).bind fun _ _ => ?_
  have hnames : Settles fs (fun _ => True)
      (layerNames ((Properties.ofText text).get? "layers")) :=
    (settles_addNames _ _).bind fun _ _ => settles_pure _
  exact (hnames.mapCause fun _ _ => trivial).bind fun _ _ => settles_pure _

theorem concludes_configuredStructure {file : Path} :
    Concludes t (configuredStructure layout root file) := by
  refine (Tree.settles_text fun reason => ⟨Cause.ne_other rfl, file, rfl⟩).bind fun text _ => ?_
  refine ((settles_ofText text).mapCause fun f _ => ⟨Cause.ne_other rfl, file, rfl⟩).bind
    fun conf _ => ?_
  refine (settles_isDirectory _).bind fun _ _ => .ite ?_ (concludes_stop rfl)
  exact (settles_logEntry _).bind fun _ _ => settles_pure _

/-- A structure is discovered, or one of the causes is reported. -/
theorem concludes_discoveredStructure : Concludes t (discoveredStructure layout root) := by
  refine (settles_isDirectory _).bind fun _ _ => .ite ?_ (settles_pure none)
  refine (settles_subdirectories fun _ => ⟨Cause.ne_other rfl, _, rfl⟩).bind fun names _ => ?_
  cases discoveryOrder names with
  | nil => exact settles_pure none
  | cons name rest => exact settles_pure _

theorem concludes_structureOf : Concludes t (structureOf layout root) := by
  refine (settles_isPresent _).bind fun _ _ => .ite ?_ concludes_discoveredStructure
  exact concludes_configuredStructure.bind fun _ _ => settles_pure _

/-! ### Layers and add-ons -/

theorem concludes_overlayPaths {registration : Path} (names : List String) :
    Concludes t (overlayPaths dir registration names) := by
  induction names with
  | nil => exact settles_pure []
  | cons name rest ih =>
    rw [overlayPaths]
    cases nameFault? name with
    | some f => exact concludes_stop rfl
    | none =>
      refine (settles_isDirectory _).bind fun _ _ => .ite ?_ (concludes_stop rfl)
      refine (settles_isReadable _).bind fun _ _ => .ite ?_ (concludes_stop rfl)
      exact ih.bind fun _ _ => settles_pure _

theorem concludes_overlays : Concludes t (overlays layout dir) := by
  refine (settles_isPresent _).bind fun _ _ => .ite ?_ (settles_pure [])
  refine (settles_isDirectory _).bind fun _ _ => .isUsable_bind fun _ => ?_
  refine .ite ?_ (concludes_stop rfl)
  refine (settles_isPresent _).bind fun _ _ => .ite ?_ (settles_pure [])
  refine (settles_isReadable _).bind fun _ _ => .ite ?_ (concludes_stop rfl)
  refine (Tree.settles_text fun _ => ⟨Cause.ne_other rfl, _, rfl⟩).bind fun text _ => ?_
  exact concludes_overlayPaths _

theorem settles_logOverlays (role : Role) (paths : List Path) :
    Concludes t (logOverlays role paths) := by
  induction paths with
  | nil => exact settles_pure ()
  | cons p rest ih => exact (settles_logEntry _).bind fun _ _ => ih

/-- A directory is searched, or one of the causes is reported. -/
theorem concludes_block {role : Role} : Concludes t (block layout role dir) := by
  refine concludes_overlays.bind fun paths _ => ?_
  refine (settles_logOverlays role paths).bind fun _ _ => ?_
  exact (settles_logEntry _).bind fun _ _ => settles_pure _

theorem concludes_layerBlocks (names : List String) :
    Concludes t (layerBlocks layout dir names) := by
  induction names with
  | nil => exact settles_pure []
  | cons name rest ih =>
    refine (settles_isDirectory _).bind fun _ _ => .ite ?_ (concludes_stop rfl)
    refine concludes_block.bind fun first _ => ?_
    exact ih.bind fun _ _ => settles_pure _

theorem concludes_addOnBlocks (names : List String) :
    Concludes t (addOnBlocks layout dir names) := by
  induction names with
  | nil => exact settles_pure []
  | cons name rest ih =>
    refine concludes_block.bind fun first _ => ?_
    exact ih.bind fun _ _ => settles_pure _

theorem concludes_addOns : Concludes t (addOns layout dir) := by
  refine (settles_isDirectory _).bind fun _ _ => .ite ?_ (settles_pure [])
  refine (settles_subdirectories fun _ => ⟨Cause.ne_other rfl, _, rfl⟩).bind fun names _ => ?_
  exact concludes_addOnBlocks _

/-- The search from a root ends in its search path or in a specific error. -/
theorem concludes_resolveRoot : Concludes t (resolveRoot layout root) := by
  refine Settles.within ?_
  refine (settles_logEntry _).bind fun _ _ => ?_
  refine concludes_structureOf.bind fun found _ => ?_
  cases found with
  | none => exact settles_pure [root]
  | some s =>
    refine (concludes_layerBlocks s.layers).bind fun layers _ => ?_
    exact concludes_addOns.bind fun more _ => settles_pure _

/-! ## The first root that fails -/

section FirstFailure

variable {fs : FileSystem} {e : Failure Error}

/-- The search from several roots ends in the error of the first one that has an error. -/
theorem outcome_resolveRoots_eq_error_iff {roots : List Path} :
    (resolveRoots layout roots).outcome fs = .error e ↔
      ∃ before root after, roots = before ++ root :: after ∧
        (∀ r ∈ before, ∃ paths, (resolveRoot layout r).outcome fs = .ok paths) ∧
        (resolveRoot layout root).outcome fs = .error e := by
  induction roots with
  | nil =>
    constructor
    · intro h
      cases h
    · intro h
      exact absurd h Outcome.not_exists_first_nil
  | cons first rest ih =>
    rw [resolveRoots, outcome_bind_eq_error, Outcome.exists_first_cons_iff, ← ih]
    -- either the first root fails, or it is resolved and one of the others fails
    refine or_congr_right ?_
    constructor
    · rintro ⟨paths, hfirst, h⟩
      rcases outcome_bind_eq_error.1 h with hrest | ⟨_, -, hpure⟩
      · exact ⟨⟨paths, hfirst⟩, hrest⟩
      · cases hpure
    · rintro ⟨⟨paths, hfirst⟩, hrest⟩
      exact ⟨paths, hfirst, outcome_bind_eq_error.2 (.inl hrest)⟩

/-- Several roots fail at the first one that does. -/
theorem outcome_resolve_eq_error_iff {roots : List Path} :
    (resolve layout roots).outcome fs = .error e ↔
      ∃ before root after, roots = before ++ root :: after ∧
        (∀ r ∈ before, ∃ paths, (resolveRoot layout r).outcome fs = .ok paths) ∧
        (resolveRoot layout root).outcome fs = .error e := by
  rw [← outcome_resolveRoots_eq_error_iff, resolve, outcome_bind_eq_error]
  constructor
  · rintro (h | ⟨paths, -, h⟩)
    · exact h
    · cases h
  · exact .inl

end FirstFailure

/-- On every tree, with every layout, the search from a root succeeds if the tree can be searched,
and ends in a specific error if it cannot. The search from several roots ends in the error of the
first root from which the tree cannot be searched. -/
theorem searchable_or_fails (t : Tree) (layout : Layout) :
    (∀ root : Path,
      (Searchable t layout root ∧
        ∃ paths, (resolveRoot layout root).outcome t.fileSystem = .ok paths) ∨
      (¬ Searchable t layout root ∧ ∃ e : Error,
        (resolveRoot layout root).outcome t.fileSystem = .error (.refused e) ∧ e.Specific)) ∧
    ∀ (roots : List Path) (e : Failure Error),
      (resolve layout roots).outcome t.fileSystem = .error e ↔
        ∃ before root after, roots = before ++ root :: after ∧
          (∀ r ∈ before, Searchable t layout r) ∧
          (resolveRoot layout root).outcome t.fileSystem = .error e := by
  refine ⟨fun root => ?_, fun roots e => ?_⟩
  · have hconcludes : Concludes t (resolveRoot layout root) := concludes_resolveRoot
    rcases hconcludes with h | ⟨e, he, hspecific⟩
    · exact .inl ⟨exists_resolveRoot_eq_ok_iff.1 h, h⟩
    · refine .inr ⟨fun hsearchable => ?_, e, he, hspecific⟩
      obtain ⟨paths, hpaths⟩ := exists_resolveRoot_eq_ok_iff.2 hsearchable
      rw [he] at hpaths
      cases hpaths
  · simp only [outcome_resolve_eq_error_iff, exists_resolveRoot_eq_ok_iff]

end Layers

end ModulePath
