import ModulePath.Proofs.FileSystem.Tree
import ModulePath.Proofs.Layers.Success

/-!
# Trees that can be searched

What a tree has to hold for the search from a root to succeed, told of the tree alone
(`Searchable`): the root has no layers, or it has a layering structure (`Structured`) whose layers
are directories and whose add-ons can be listed, and every layer and add-on has sound overlays
(`SoundOverlays`). This is exact in both directions (`exists_resolveRoot_eq_ok_iff`).
-/

set_option autoImplicit false

namespace ModulePath

/-! ## Using paths of a tree -/

namespace Tree

variable (t : Tree) (p : Path)

/-- A path can be read as a text. -/
def ReadsAs (s : String) : Prop := t.failure? p = none ∧ t.file? p = some s

/-- A path is a directory to which access is not denied. -/
def IsOpen : Prop := p ∈ t.directories ∧ p ∉ t.denied

/-- A path is a directory that can be listed. -/
def IsListable : Prop := p ∈ t.directories ∧ t.failure? p = none

end Tree

namespace Layers

/-! ## What can be searched -/

section Definitions

variable (t : Tree) (layout : Layout)

/-- The overlays of a directory are sound: there is nothing where they would be, or there is an open
directory in which nothing registers overlays, or every name that is registered there is a valid
name of an open directory. -/
inductive SoundOverlays (dir : Path) : Prop
  | absent (h : t.hasPath (overlaysAt layout dir) = false)
  | unregistered (hopen : t.IsOpen (overlaysAt layout dir))
    (h : t.hasPath (registrationAt layout dir) = false)
  | registered (text : String) (hopen : t.IsOpen (overlaysAt layout dir))
    (htext : t.ReadsAs (registrationAt layout dir) text)
    (hlines : ∀ line ∈ Text.splitLines text.toList, registeredName line ≠ [] →
      nameFault? (String.ofList (registeredName line)) = none ∧
        t.IsOpen ((overlaysAt layout dir).child (String.ofList (registeredName line))))

/-- A root has a layering structure: that of its configuration file, if there is one, or else the
directories of layers. -/
inductive Structured (root : Path) : Structure → Prop
  | configured (text : String) (conf : Conf)
    (htext : t.ReadsAs (root.child layout.configFile) text)
    (hconf : (Conf.ofText text).outcome t.fileSystem = .ok conf)
    (hdir : root.child (conf.layersPath.getD layout.layersPath) ∈ t.directories) :
    Structured root ⟨root.child (conf.layersPath.getD layout.layersPath), conf.layers,
      root.child (conf.addOnsPath.getD layout.addOnsPath)⟩
  | discovered (hconf : t.hasPath (root.child layout.configFile) = false)
    (hdir : t.IsListable (root.child layout.layersPath))
    (hlayers : t.childNames (root.child layout.layersPath) ≠ []) :
    Structured root ⟨root.child layout.layersPath,
      discoveryOrder (t.childNames (root.child layout.layersPath)), root.child layout.addOnsPath⟩

/-- The search from a root can succeed. -/
inductive Searchable (root : Path) : Prop
  | noLayers (hconf : t.hasPath (root.child layout.configFile) = false)
    (hlayers : root.child layout.layersPath ∉ t.directories ∨
      (t.IsListable (root.child layout.layersPath) ∧
        t.childNames (root.child layout.layersPath) = []))
  | layered (s : Structure) (hs : Structured t layout root s)
    (hlayers : ∀ name ∈ s.layers, s.layersDir.child name ∈ t.directories ∧
      SoundOverlays t layout (s.layersDir.child name))
    (haddOns : s.addOnsDir ∉ t.directories ∨
      (t.IsListable s.addOnsDir ∧
        ∀ name ∈ t.childNames s.addOnsDir, SoundOverlays t layout (s.addOnsDir.child name)))

end Definitions

variable {t : Tree} {layout : Layout} {root dir : Path}

/-! ## Overlays -/

theorem isOpen_iff {p : Path} :
    t.IsOpen p ↔ t.fileSystem.isDirectory p = true ∧ t.fileSystem.isReadable p = true := by
  rw [Tree.isDirectory_fileSystem_iff, Tree.IsOpen]
  refine and_congr_right fun hdir => ?_
  have hpath : t.hasPath p = true := by
    simp [Tree.hasPath, hdir]
  simp [Tree.fileSystem, hpath]

theorem hasPath_of_isOpen {p : Path} (h : t.IsOpen p) : t.hasPath p = true := by
  simp [Tree.hasPath, h.1]

theorem hasPath_of_readsAs {p : Path} {s : String} (h : t.ReadsAs p s) : t.hasPath p = true := by
  simp [Tree.hasPath, h.2]

/-- A path that can be read as a text is not denied. -/
theorem isReadable_of_readsAs {p : Path} {s : String} (h : t.ReadsAs p s) :
    t.fileSystem.isReadable p = true := by
  have hdenied : p ∉ t.denied := by
    intro hdenied
    have hfailure : t.failure? p = some "Permission denied" := by
      rw [Tree.failure?, if_pos (List.contains_iff_mem.2 hdenied)]
    rw [h.1] at hfailure
    cases hfailure
  simp [Tree.fileSystem, hasPath_of_readsAs h, hdenied]

/-- A registered name is what is left of some line. -/
theorem mem_registeredNames {text name : String} :
    name ∈ registeredNames text ↔ ∃ line ∈ Text.splitLines text.toList,
      registeredName line ≠ [] ∧ String.ofList (registeredName line) = name := by
  unfold registeredNames
  constructor
  · intro h
    obtain ⟨cs, hcs, rfl⟩ := List.mem_map.1 h
    obtain ⟨hcs, hne⟩ := List.mem_filter.1 hcs
    obtain ⟨line, hline, rfl⟩ := List.mem_map.1 hcs
    exact ⟨line, hline, by simpa using hne, rfl⟩
  · rintro ⟨line, hline, hne, rfl⟩
    refine List.mem_map.2 ⟨registeredName line, List.mem_filter.2 ⟨?_, by simpa using hne⟩, rfl⟩
    exact List.mem_map.2 ⟨line, hline, rfl⟩

/-- An overlay has a name without a fault and is open. -/
theorem isOverlay_iff {name : String} :
    IsOverlay t.fileSystem dir name ↔ nameFault? name = none ∧ t.IsOpen (dir.child name) := by
  rw [isOpen_iff]
  constructor
  · intro h
    exact ⟨h.valid, h.isDirectory, h.isReadable⟩
  · rintro ⟨hvalid, hdir, hread⟩
    exact ⟨hvalid, hdir, hread⟩

/-- Overlays are found exactly if they are sound. -/
theorem exists_overlays_iff :
    (∃ paths, Overlays t.fileSystem layout dir paths) ↔ SoundOverlays t layout dir := by
  constructor
  · rintro ⟨paths, h⟩
    cases h with
    | noDirectory absent => exact .absent absent
    | noRegistration _ hdir hread unregistered =>
      exact .unregistered (isOpen_iff.2 ⟨hdir, hread⟩) unregistered
    | @registered text _ hdir hread _ _ htext hsound =>
      refine .registered text (isOpen_iff.2 ⟨hdir, hread⟩) (Tree.hasText_fileSystem_iff.1 htext) ?_
      -- a registered name is one of a line that is not empty
      intro line hline hne
      exact isOverlay_iff.1 (hsound _ (mem_registeredNames.2 ⟨line, hline, hne, rfl⟩))
  · intro h
    cases h with
    | absent h => exact ⟨[], .noDirectory h⟩
    | unregistered hopen h =>
      obtain ⟨hdir, hread⟩ := isOpen_iff.1 hopen
      exact ⟨[], .noRegistration (hasPath_of_isOpen hopen) hdir hread h⟩
    | registered text hopen htext hlines =>
      obtain ⟨hdir, hread⟩ := isOpen_iff.1 hopen
      refine ⟨_, .registered (hasPath_of_isOpen hopen) hdir hread (hasPath_of_readsAs htext)
        (isReadable_of_readsAs htext) (Tree.hasText_fileSystem_iff.2 htext) fun name hname => ?_⟩
      obtain ⟨line, hline, hne, rfl⟩ := mem_registeredNames.1 hname
      exact isOverlay_iff.2 (hlines line hline hne)

/-! ## Layers and add-ons -/

/-- A directory has its overlays exactly if all that it registers are sound. -/
theorem exists_withOverlays_iff :
    (∃ paths, WithOverlays t.fileSystem layout dir paths) ↔ SoundOverlays t layout dir := by
  rw [← exists_overlays_iff]
  constructor
  · rintro ⟨paths, above, h, -⟩
    exact ⟨above, h⟩
  · rintro ⟨above, h⟩
    exact ⟨above ++ [dir], above, h, rfl⟩

/-- There are blocks for a list exactly if there is one for each member. -/
theorem exists_blocks_iff {α β : Type} {R : α → List β → Prop} {as : List α} :
    (∃ bs, Blocks R as bs) ↔ ∀ a ∈ as, ∃ bs, R a bs := by
  induction as with
  | nil => exact ⟨fun _ => List.forall_mem_nil _, fun _ => ⟨[], blocks_nil_iff.2 rfl⟩⟩
  | cons a as ih =>
    rw [List.forall_mem_cons, ← ih]
    constructor
    · rintro ⟨bs, h⟩
      obtain ⟨first, rest, hfirst, hrest, -⟩ := blocks_cons_iff.1 h
      exact ⟨⟨first, hfirst⟩, rest, hrest⟩
    · rintro ⟨⟨first, hfirst⟩, rest, hrest⟩
      exact ⟨first ++ rest, blocks_cons_iff.2 ⟨first, rest, hfirst, hrest, rfl⟩⟩

/-- Directories have their blocks exactly if all that they register is sound. -/
theorem exists_directoryBlocks_iff {names : List String} :
    (∃ paths, Blocks (WithOverlays t.fileSystem layout) (names.map dir.child) paths) ↔
      ∀ name ∈ names, SoundOverlays t layout (dir.child name) := by
  simp only [exists_blocks_iff, exists_withOverlays_iff, List.forall_mem_map]

theorem isListable_iff {p : Path} :
    t.IsListable p ↔ t.fileSystem.isDirectory p = true ∧
      t.fileSystem.subdirectories p = .ok (t.childNames p) := by
  rw [Tree.isDirectory_fileSystem_iff, Tree.subdirectories_fileSystem_eq_ok, Tree.IsListable,
    and_iff_left rfl]

/-- Add-ons are found exactly if there is no directory for them, or it can be listed and all in it
is sound. -/
theorem exists_addOns_iff :
    (∃ paths, AddOns t.fileSystem layout dir paths) ↔
      dir ∉ t.directories ∨ (t.IsListable dir ∧
        ∀ name ∈ t.childNames dir, SoundOverlays t layout (dir.child name)) := by
  rw [← Tree.isDirectory_fileSystem_eq_false_iff]
  constructor
  · rintro ⟨paths, h⟩
    cases h with
    | noDirectory absent => exact .inl absent
    | @listed names _ isDirectory listing blocks =>
      obtain ⟨hfailure, rfl⟩ := Tree.subdirectories_fileSystem_eq_ok.1 listing
      refine .inr ⟨isListable_iff.2 ⟨isDirectory, listing⟩, fun name hname => ?_⟩
      exact exists_directoryBlocks_iff.1 ⟨_, blocks⟩ name (Text.mem_sort.2 hname)
  · rintro (absent | ⟨hlist, hsound⟩)
    · exact ⟨[], .noDirectory absent⟩
    · obtain ⟨isDirectory, listing⟩ := isListable_iff.1 hlist
      have hsorted : ∀ name ∈ Text.sort (t.childNames dir),
          SoundOverlays t layout (dir.child name) :=
        fun name hname => hsound name (Text.mem_sort.1 hname)
      obtain ⟨paths, hblocks⟩ := exists_directoryBlocks_iff.2 hsorted
      exact ⟨paths, .listed isDirectory listing hblocks⟩

/-! ## Roots -/

/-- A structure is found exactly in the two ways to have one. -/
theorem found_some_iff {s : Structure} :
    Found t.fileSystem layout root (some s) ↔ Structured t layout root s := by
  constructor
  · intro h
    cases h with
    | configured _ htext parsed hdir =>
      exact .configured _ _ (Tree.hasText_fileSystem_iff.1 htext) parsed
        (Tree.isDirectory_fileSystem_iff.1 hdir)
    | discovered absent hdir listing nonempty =>
      obtain ⟨hfailure, rfl⟩ := Tree.subdirectories_fileSystem_eq_ok.1 listing
      exact .discovered absent (isListable_iff.2 ⟨hdir, listing⟩) nonempty
  · intro h
    cases h with
    | configured text conf htext hconf hdir =>
      exact .configured (hasPath_of_readsAs htext) (Tree.hasText_fileSystem_iff.2 htext) hconf
        (Tree.isDirectory_fileSystem_iff.2 hdir)
    | discovered hconf hdir hlayers =>
      obtain ⟨hdir, listing⟩ := isListable_iff.1 hdir
      exact .discovered hconf hdir listing hlayers

/-- No structure is found exactly if none is configured and none is there to be discovered. -/
theorem found_none_iff :
    Found t.fileSystem layout root none ↔
      t.hasPath (root.child layout.configFile) = false ∧
        (root.child layout.layersPath ∉ t.directories ∨
          (t.IsListable (root.child layout.layersPath) ∧
            t.childNames (root.child layout.layersPath) = [])) := by
  rw [← Tree.isDirectory_fileSystem_eq_false_iff]
  constructor
  · intro h
    cases h with
    | noLayers absent noDirectory => exact ⟨absent, .inl noDirectory⟩
    | emptyLayers absent hdir listing =>
      obtain ⟨hfailure, hnone⟩ := Tree.subdirectories_fileSystem_eq_ok.1 listing
      refine ⟨absent, .inr ⟨⟨Tree.isDirectory_fileSystem_iff.1 hdir, hfailure⟩, hnone.symm⟩⟩
  · rintro ⟨absent, noDirectory | ⟨hlist, hnone⟩⟩
    · exact .noLayers absent noDirectory
    · obtain ⟨hdir, listing⟩ := isListable_iff.1 hlist
      rw [hnone] at listing
      exact .emptyLayers absent hdir listing

/-- The search from a root succeeds exactly if the tree can be searched. -/
theorem exists_resolveRoot_eq_ok_iff :
    (∃ paths, (resolveRoot layout root).outcome t.fileSystem = .ok paths) ↔
      Searchable t layout root := by
  simp only [outcome_resolveRoot_eq_ok]
  constructor
  · rintro ⟨paths, h⟩
    cases h with
    | plain found =>
      obtain ⟨hconf, hlayers⟩ := found_none_iff.1 found
      exact .noLayers hconf hlayers
    | @layered s _ _ found directories blocks addOns =>
      refine .layered s (found_some_iff.1 found) (fun name hname => ⟨?_, ?_⟩)
        (exists_addOns_iff.1 ⟨_, addOns⟩)
      · exact Tree.isDirectory_fileSystem_iff.1 (directories name hname)
      · exact exists_directoryBlocks_iff.1 ⟨_, blocks⟩ name hname
  · intro h
    cases h with
    | noLayers hconf hlayers => exact ⟨[root], .plain (found_none_iff.2 ⟨hconf, hlayers⟩)⟩
    | layered s hs hlayers haddOns =>
      obtain ⟨layers, hblocks⟩ :=
        exists_directoryBlocks_iff.2 fun name hname => (hlayers name hname).2
      obtain ⟨more, hmore⟩ := exists_addOns_iff.2 haddOns
      refine ⟨_, .layered (found_some_iff.2 hs) (fun name hname => ?_) hblocks hmore⟩
      exact Tree.isDirectory_fileSystem_iff.2 (hlayers name hname).1

end Layers

end ModulePath
