import ModulePath.Proofs.FileSystem.Tree
import ModulePath.Proofs.Layers.Success

/-!
# The search path of a tree

What the search path of module roots consists of, told of the tree alone: one block for each root
(`Block`), which is the root and, if the root has a layering structure (`HasStructure`,
`Layering`), its layers and its add-ons, each after its overlays (`withOverlays`). A search that
succeeds finds exactly these blocks (`resolve_eq_blocks`), and since a root has one block only, the
blocks tell what it finds (`eq_flatten_of_resolve`).
-/

set_option autoImplicit false

namespace ModulePath.Layers

/-! ## Blocks of a tree -/

section Tree

variable (t : Tree) (layout : Layout)

/-- The directories that are registered as overlays of a directory, in the order of the lines. -/
def overlayDirs (dir : Path) : List Path :=
  if t.hasPath (overlaysAt layout dir) && t.hasPath (registrationAt layout dir) then
    (registeredNames ((t.file? (registrationAt layout dir)).getD "")).map
      (overlaysAt layout dir).child
  else []

/-- A directory after its overlays. -/
def withOverlays (dir : Path) : List Path := overlayDirs t layout dir ++ [dir]

/-- A root has a configuration file or a directory with layers. -/
def HasStructure (root : Path) : Prop :=
  t.hasPath (root.child layout.configFile) = true ∨
    (root.child layout.layersPath ∈ t.directories ∧
      t.childNames (root.child layout.layersPath) ≠ [])

/-- The layering structure of a root: what the configuration file says, or else the directories of
layers in code point order, the base layer last. -/
inductive Layering (root : Path) : Structure → Prop where
  | configured {text : String} {conf : Conf}
      (present : t.hasPath (root.child layout.configFile) = true)
      (file : t.file? (root.child layout.configFile) = some text)
      (parsed : (Conf.ofText text).outcome t.fileSystem = .ok conf) :
      Layering root
        ⟨root.child (((Properties.ofText text).nonEmpty? "layers.path").getD layout.layersPath),
          conf.layers,
          root.child (((Properties.ofText text).nonEmpty? "add-ons.path").getD layout.addOnsPath)⟩
  | discovered {others : List String}
      (absent : t.hasPath (root.child layout.configFile) = false)
      (sorted : Text.Sorts others
        ((t.childNames (root.child layout.layersPath)).erase baseLayer)) :
      Layering root
        ⟨root.child layout.layersPath,
          others ++ (if baseLayer ∈ t.childNames (root.child layout.layersPath) then [baseLayer]
            else []),
          root.child layout.addOnsPath⟩

/-- The names of the add-ons in a directory, in code point order. -/
inductive AddOnNames (dir : Path) : List String → Prop where
  | listed {names : List String} (isDirectory : dir ∈ t.directories)
      (sorted : Text.Sorts names (t.childNames dir)) : AddOnNames dir names
  | none (noDirectory : dir ∉ t.directories) : AddOnNames dir []

/-- The block of a root in the search path. -/
inductive Block (root : Path) : List Path → Prop where
  | plain (noStructure : ¬ HasStructure t layout root) : Block root [root]
  | layered {s : Structure} {addOns : List String} (hasStructure : HasStructure t layout root)
      (layering : Layering t layout root s) (addOnNames : AddOnNames t s.addOnsDir addOns) :
      Block root (root :: (s.layers.map s.layersDir.child ++ addOns.map s.addOnsDir.child).flatMap
        (withOverlays t layout))

end Tree

variable {t : Tree} {layout : Layout} {root dir : Path} {paths : List Path}

/-! ## One block of a root -/

/-- There is one layering structure of a root. -/
theorem Layering.unique {s s' : Structure} (h : Layering t layout root s)
    (h' : Layering t layout root s') : s = s' := by
  cases h with
  | configured present file parsed =>
    cases h' with
    | configured _ file' parsed' =>
      obtain rfl := Option.some.inj (file.symm.trans file')
      obtain rfl := Except.ok.inj (parsed.symm.trans parsed')
      rfl
    | discovered absent _ => simp [absent] at present
  | discovered absent sorted =>
    cases h' with
    | configured present _ _ => simp [absent] at present
    | discovered _ sorted' =>
      obtain rfl := sorted.unique sorted'
      rfl

/-- There is one list of add-ons of a root. -/
theorem AddOnNames.unique {names names' : List String} (h : AddOnNames t dir names)
    (h' : AddOnNames t dir names') : names = names' := by
  cases h with
  | listed isDirectory sorted =>
    cases h' with
    | listed _ sorted' => exact sorted.unique sorted'
    | none noDirectory => exact absurd isDirectory noDirectory
  | none noDirectory =>
    cases h' with
    | listed isDirectory _ => exact absurd isDirectory noDirectory
    | none _ => rfl

/-- There is one block of a root. -/
theorem Block.unique {paths' : List Path} (h : Block t layout root paths)
    (h' : Block t layout root paths') : paths = paths' := by
  -- whether the root has a structure decides between the two kinds of block
  cases h with
  | plain noStructure =>
    cases h' with
    | plain _ => rfl
    | layered hasStructure _ _ => exact absurd hasStructure noStructure
  | layered hasStructure layering addOnNames =>
    cases h' with
    | plain noStructure => exact absurd hasStructure noStructure
    | layered _ layering' addOnNames' =>
      obtain rfl := layering.unique layering'
      obtain rfl := addOnNames.unique addOnNames'
      rfl

/-! ## What a search finds -/

theorem Overlays.eq_overlayDirs (h : Overlays t.fileSystem layout dir paths) :
    paths = overlayDirs t layout dir := by
  unfold overlayDirs
  cases h with
  | noDirectory absent =>
    rw [Tree.contains_fileSystem] at absent
    rw [absent, Bool.false_and, if_neg Bool.false_ne_true]
  | noRegistration _ _ _ unregistered =>
    rw [Tree.contains_fileSystem] at unregistered
    rw [unregistered, Bool.and_false, if_neg Bool.false_ne_true]
  | registered present _ _ registered _ hasText _ =>
    rw [Tree.contains_fileSystem] at present registered
    obtain ⟨-, hfile⟩ := Tree.hasText_fileSystem_iff.1 hasText
    rw [present, registered, hfile]
    rfl

theorem WithOverlays.eq_withOverlays (h : WithOverlays t.fileSystem layout dir paths) :
    paths = withOverlays t layout dir := by
  obtain ⟨above, habove, rfl⟩ := h
  rw [withOverlays, habove.eq_overlayDirs]

/-- Directories that are found one after another, each after its overlays. -/
theorem Blocks.eq_flatMap {dirs : List Path}
    (h : Blocks (WithOverlays t.fileSystem layout) dirs paths) :
    paths = dirs.flatMap (withOverlays t layout) := by
  induction dirs generalizing paths with
  | nil => exact blocks_nil_iff.1 h
  | cons dir rest ih =>
    obtain ⟨first, others, hfirst, hothers, rfl⟩ := blocks_cons_iff.1 h
    rw [List.flatMap_cons, ← hfirst.eq_withOverlays, ← ih hothers]

/-- Add-ons are listed in the order of the names that are found. -/
theorem AddOns.exists_names (h : AddOns t.fileSystem layout dir paths) :
    ∃ names, AddOnNames t dir names ∧
      paths = (names.map dir.child).flatMap (withOverlays t layout) := by
  cases h with
  | noDirectory absent =>
    exact ⟨[], .none (Tree.isDirectory_fileSystem_eq_false_iff.1 absent), rfl⟩
  | listed isDirectory listing blocks =>
    obtain ⟨-, rfl⟩ := Tree.subdirectories_fileSystem_eq_ok.1 listing
    have hdir : dir ∈ t.directories := Tree.isDirectory_fileSystem_iff.1 isDirectory
    exact ⟨_, .listed hdir (Text.sorts_sort _), blocks.eq_flatMap⟩

/-- No structure is found exactly where the tree has none. -/
theorem Found.not_hasStructure (h : Found t.fileSystem layout root none) :
    ¬ HasStructure t layout root := by
  rintro (present | ⟨isDirectory, nonempty⟩)
  · cases h with
    | noLayers absent _ => exact Bool.false_ne_true (absent.symm.trans present)
    | emptyLayers absent _ _ => exact Bool.false_ne_true (absent.symm.trans present)
  · cases h with
    | noLayers _ noDirectory =>
      exact Tree.isDirectory_fileSystem_eq_false_iff.1 noDirectory isDirectory
    | emptyLayers _ _ listing =>
      exact nonempty (Tree.subdirectories_fileSystem_eq_ok.1 listing).2.symm

/-- A structure that is found layers the tree. -/
theorem Found.layering {s : Structure} (h : Found t.fileSystem layout root (some s)) :
    HasStructure t layout root ∧ Layering t layout root s := by
  cases h with
  | configured present hasText parsed isDirectory =>
    obtain ⟨-, hfile⟩ := Tree.hasText_fileSystem_iff.1 hasText
    have hlayering := Layering.configured present hfile parsed
    -- the directories that the file names are those of its properties that are not empty
    obtain ⟨-, -, layers, -, rfl⟩ := outcome_ofText_eq_ok.1 parsed
    exact ⟨.inl present, hlayering⟩
  | discovered absent isDirectory listing nonempty =>
    obtain ⟨-, rfl⟩ := Tree.subdirectories_fileSystem_eq_ok.1 listing
    have hdir : root.child layout.layersPath ∈ t.directories :=
      Tree.isDirectory_fileSystem_iff.1 isDirectory
    rw [discoveryOrder_eq]
    exact ⟨.inr ⟨hdir, nonempty⟩, .discovered absent (Text.sorts_sort _)⟩

/-- What the search of a root finds is its block. -/
theorem RootPath.block (h : RootPath t.fileSystem layout root paths) :
    Block t layout root paths := by
  cases h with
  | plain found => exact .plain found.not_hasStructure
  | layered found _ blocks addOns =>
    obtain ⟨hasStructure, hlayering⟩ := found.layering
    obtain ⟨names, hnames, rfl⟩ := addOns.exists_names
    rw [blocks.eq_flatMap, ← List.flatMap_append]
    exact .layered hasStructure hlayering hnames

/-- A search that succeeds finds the blocks of the roots, one after another. -/
theorem resolve_eq_blocks {roots : List Path}
    (h : (resolve layout roots).outcome t.fileSystem = .ok paths) :
    ∃ blocks, List.Forall₂ (Block t layout) roots blocks ∧ paths = blocks.flatten := by
  have hfound : Blocks (RootPath t.fileSystem layout) roots paths := outcome_resolve_eq_ok.1 h
  exact hfound.imp fun _ _ hroot => hroot.block

/-- Whichever blocks the roots have, they are what a search that succeeds finds. -/
theorem eq_flatten_of_resolve {roots : List Path} {blocks : List (List Path)}
    (h : (resolve layout roots).outcome t.fileSystem = .ok paths)
    (hblocks : List.Forall₂ (Block t layout) roots blocks) : paths = blocks.flatten := by
  have hfound : Blocks (RootPath t.fileSystem layout) roots paths := outcome_resolve_eq_ok.1 h
  obtain ⟨found, hall, rfl⟩ := hfound.imp fun _ _ hroot => hroot.block
  refine congrArg List.flatten ?_
  clear h hfound
  induction hall generalizing blocks with
  | nil =>
    cases hblocks
    rfl
  | cons hfirst _ ih =>
    cases hblocks with
    | cons hfirst' hrest' => rw [hfirst.unique hfirst', ih hrest']

/-- A root with a configuration file, an overlay and an add-on, and a root whose layers are
discovered. -/
def sampleTree : Tree :=
  let directories := ["/m/layers/base", "/m/layers/top/.overlays/fix", "/m/add-ons/more",
    "/n/layers/base", "/n/layers/extra"].map Path.ofText
  let tree : Tree := directories.foldl Tree.makeDirectory {}
  (tree.write (.ofText "/m/layers.conf") "layers=top").write
    (.ofText "/m/layers/top/.overlays/.overlays") "\tfix\n"

/-- The roots of the sample, the last of which is not in the tree. -/
def sampleRoots : List Path := ["/m", "/n", "/plain"].map .ofText

/-- The search path of the sample. -/
def samplePath : List Path :=
  ["/m", "/m/layers/top/.overlays/fix", "/m/layers/top", "/m/layers/base", "/m/add-ons/more",
    "/n", "/n/layers/extra", "/n/layers/base", "/plain"].map .ofText

theorem resolve_sampleTree :
    (resolve .default sampleRoots).outcome sampleTree.fileSystem = .ok samplePath ∧
      ∃ blocks, List.Forall₂ (Block sampleTree .default) sampleRoots blocks ∧
        samplePath = blocks.flatten := by
  have h : (resolve .default sampleRoots).outcome sampleTree.fileSystem = .ok samplePath := by
    decide +kernel
  exact ⟨h, resolve_eq_blocks h⟩

end ModulePath.Layers
