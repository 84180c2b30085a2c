import ModulePath.Proofs.FileSystem.Listing
import ModulePath.Proofs.Layers.Names
import ModulePath.Proofs.Layers.Settings

/-!
# The entries of a search path

After the root, the search path of a root consists of directories: layers and add-ons, each after
its overlays, and the overlays can be read (`UsableBlock`). In the usual layout no entry comes twice
if the configuration file leaves the directories of layers and add-ons where they are and overlays
are registered once (`resolveRoot_entries`). The reason is where entries are: a layer or add-on with
its overlays is within its own directory, and these directories lie apart.
-/

set_option autoImplicit false

namespace ModulePath.Layers

variable {fs : FileSystem} {layout : Layout} {dir root : Path} {names : List String}
  {paths : List Path}

/-! ## Entries are directories -/

/-- A layer or add-on after its overlays. All of them are directories, and the overlays can be
read. -/
structure UsableBlock (fs : FileSystem) (layout : Layout) (dir : Path) (block : List Path) :
    Prop where
  isDirectory : fs.isDirectory dir = true
  afterOverlays : ∃ above, (overlays layout dir).outcome fs = .ok above ∧ block = above ++ [dir] ∧
    ∀ overlay ∈ above, fs.isDirectory overlay = true ∧ fs.isReadable overlay = true

/-- The overlays of a directory can be listed and read. -/
theorem Overlays.usable (h : Overlays fs layout dir paths) :
    ∀ overlay ∈ paths, fs.isDirectory overlay = true ∧ fs.isReadable overlay = true := by
  obtain ⟨names, rfl, hnames, -⟩ := h.exists_names
  refine List.forall_mem_map.2 fun name hname => ?_
  exact ⟨(hnames name hname).isDirectory, (hnames name hname).isReadable⟩

/-- Every entry of a block is a directory. -/
theorem UsableBlock.isDirectory_of_mem (h : UsableBlock fs layout dir paths) :
    ∀ p ∈ paths, fs.isDirectory p = true := by
  obtain ⟨above, -, rfl, husable⟩ := h.afterOverlays
  intro p hp
  rcases List.mem_append.1 hp with hp | hp
  · exact (husable p hp).1
  · obtain rfl := List.mem_singleton.1 hp
    exact h.isDirectory

theorem usable_of_blocks {dirs : List Path} (hdirs : ∀ dir ∈ dirs, fs.isDirectory dir = true)
    (h : Blocks (WithOverlays fs layout) dirs paths) :
    Blocks (UsableBlock fs layout) dirs paths := by
  induction dirs generalizing paths with
  | nil => exact blocks_nil_iff.2 (blocks_nil_iff.1 h)
  | cons dir rest ih =>
    obtain ⟨hdir, hrest⟩ := List.forall_mem_cons.1 hdirs
    obtain ⟨_, others, ⟨above, habove, rfl⟩, hothers, rfl⟩ := blocks_cons_iff.1 h
    have hoverlays := outcome_overlays_eq_ok.2 habove
    have hblock : UsableBlock fs layout dir (above ++ [dir]) :=
      ⟨hdir, above, hoverlays, rfl, habove.usable⟩
    exact blocks_cons_iff.2 ⟨_, others, hblock, ih hrest hothers, rfl⟩

/-- Add-ons are the directories that are listed, which nothing checks again. -/
theorem AddOns.usable (hlists : fs.ListsDirectories) (h : AddOns fs layout dir paths) :
    ∃ dirs, Blocks (UsableBlock fs layout) dirs paths := by
  cases h with
  | noDirectory _ => exact ⟨[], blocks_nil_iff.2 rfl⟩
  | @listed names _ _ listing blocks =>
    refine ⟨_, usable_of_blocks (List.forall_mem_map.2 fun name hname => ?_) blocks⟩
    exact (hlists dir names listing name (Text.mem_sort.1 hname)).2

/-- The search path of a root is the root and blocks of usable directories. -/
theorem RootPath.usable (hlists : fs.ListsDirectories) (h : RootPath fs layout root paths) :
    ∃ dirs rest, paths = root :: rest ∧ Blocks (UsableBlock fs layout) dirs rest := by
  cases h with
  | plain _ => exact ⟨[], [], rfl, blocks_nil_iff.2 rfl⟩
  | layered _ directories blocks addOns =>
    have hlayers := usable_of_blocks (List.forall_mem_map.2 directories) blocks
    obtain ⟨dirs, hmore⟩ := addOns.usable hlists
    exact ⟨_, _, rfl, blocks_append_iff.2 ⟨_, _, hlayers, hmore, rfl⟩⟩

/-! ## Entries are distinct -/

/-! ### Blocks -/

/-- Registrations of overlays give each name once. -/
def RegistersOnce (fs : FileSystem) (layout : Layout) : Prop :=
  ∀ dir text, fs.HasText (registrationAt layout dir) text → (registeredNames text).Nodup

/-- Overlays stand where their directory keeps them. -/
theorem Overlays.isWithin (h : Overlays fs layout dir paths) :
    ∀ overlay ∈ paths, (overlaysAt layout dir).isWithin overlay = true := by
  obtain ⟨names, rfl, hnames, -⟩ := h.exists_names
  refine List.forall_mem_map.2 fun name hname => ?_
  have hcomponent := Path.isComponent_of_nameFault? (hnames name hname).valid
  exact hcomponent.isWithin_child (Path.isWithin_self _)

/-- A directory that registers each name once has each overlay once. -/
theorem Overlays.nodup (honce : RegistersOnce fs layout) (h : Overlays fs layout dir paths) :
    paths.Nodup := by
  obtain ⟨names, rfl, hnames, hregistered⟩ := h.exists_names
  have hnodup : names.Nodup := by
    rcases hregistered with rfl | ⟨text, htext, rfl⟩
    · exact List.nodup_nil
    · exact honce dir text htext
  -- names that are told apart lead to paths that lie apart, which is more than being distinct
  have hapart := Path.pairwise_apart_child hnodup
    (fun name hname => Path.isComponent_of_nameFault? (hnames name hname).valid)
    (overlaysAt layout dir)
  exact hapart.imp Path.Apart.ne

/-- A directory and its overlays are within it. -/
theorem WithOverlays.isWithin (hplace : Path.IsComponent layout.overlaysDir)
    (h : WithOverlays fs layout dir paths) : ∀ p ∈ paths, dir.isWithin p = true := by
  obtain ⟨above, habove, rfl⟩ := h
  intro p hp
  rcases List.mem_append.1 hp with hp | hp
  · have hbase : dir.isWithin (overlaysAt layout dir) = true :=
      hplace.isWithin_child (Path.isWithin_self dir)
    exact Path.isWithin_trans hbase (habove.isWithin p hp)
  · obtain rfl := List.mem_singleton.1 hp
    exact Path.isWithin_self _

/-- A directory is none of its own overlays. -/
theorem WithOverlays.nodup (hplace : Path.IsComponent layout.overlaysDir)
    (honce : RegistersOnce fs layout) (h : WithOverlays fs layout dir paths) : paths.Nodup := by
  obtain ⟨above, habove, rfl⟩ := h
  refine (habove.nodup honce).append (List.nodup_singleton dir) fun p hp hdir => ?_
  -- overlays are further down than the directory that they belong to
  exact hplace.ne_of_isWithin (habove.isWithin p hp) (List.mem_singleton.1 hdir)

/-- Blocks are told apart by the directories that they are within: the induction is on these. -/
theorem nodup_of_apart {dirs : List Path} (hplace : Path.IsComponent layout.overlaysDir)
    (honce : RegistersOnce fs layout) (hdirs : dirs.Pairwise Path.Apart)
    (h : Blocks (WithOverlays fs layout) dirs paths) : paths.Nodup := by
  induction dirs generalizing paths with
  | nil =>
    obtain rfl := blocks_nil_iff.1 h
    exact List.nodup_nil
  | cons dir rest ih =>
    obtain ⟨hdir, hrest⟩ := List.pairwise_cons.1 hdirs
    obtain ⟨first, others, hfirst, hothers, rfl⟩ := blocks_cons_iff.1 h
    refine (hfirst.nodup hplace honce).append (ih hrest hothers) fun p hp hp' => ?_
    -- an entry of both parts would be within two directories that lie apart
    obtain ⟨dir', hdir', block, hblock, hmem⟩ := hothers.exists_of_mem hp'
    have hwithin : dir.isWithin p = true := hfirst.isWithin hplace p hp
    exact (hdir dir' hdir').not_within_both hwithin (hblock.isWithin hplace p hmem)

/-- The entries for names in a directory are within the directory, and none comes twice. -/
theorem blocks_of_names (hplace : Path.IsComponent layout.overlaysDir)
    (honce : RegistersOnce fs layout) (hnodup : names.Nodup)
    (hnames : ∀ name ∈ names, Path.IsComponent name)
    (h : Blocks (WithOverlays fs layout) (names.map dir.child) paths) :
    paths.Nodup ∧ ∀ p ∈ paths, dir.isWithin p = true := by
  refine ⟨nodup_of_apart hplace honce (Path.pairwise_apart_child hnodup hnames dir) h, ?_⟩
  intro p hp
  obtain ⟨_, hmem, block, hblock, hp⟩ := h.exists_of_mem hp
  obtain ⟨name, hname, rfl⟩ := List.mem_map.1 hmem
  have hentry := (hnames name hname).isWithin_child (Path.isWithin_self dir)
  exact Path.isWithin_trans hentry (hblock.isWithin hplace p hp)

/-! ### Layers and add-ons -/

/-- Layers that are named are distinct, however often they are. -/
theorem layerNames_distinct {s : Option String} {layers : List String}
    (h : (layerNames s).outcome fs = .ok layers) :
    layers.Nodup ∧ ∀ name ∈ layers, Path.IsComponent name := by
  have hsettled : Settled layers := settled_of_outcome_layerNames h
  refine ⟨hsettled.nodup, fun name hname => ?_⟩
  exact Path.isComponent_of_nameFault? (hsettled.valid name hname)

/-- The layers of a root are distinct names, whether they are named or listed. -/
theorem Found.layers_distinct {s : Structure} (hlists : fs.ListsDirectories) (honce : ListsOnce fs)
    (h : Found fs layout root (some s)) :
    s.layers.Nodup ∧ ∀ name ∈ s.layers, Path.IsComponent name := by
  cases h with
  | configured _ _ parsed _ =>
    obtain ⟨-, -, layers, hlayers, rfl⟩ := outcome_ofText_eq_ok.1 parsed
    exact layerNames_distinct hlayers
  | discovered _ _ listing _ =>
    refine ⟨(discoveryOrder_perm _).nodup_iff.2 (honce _ _ listing), fun name hname => ?_⟩
    exact (hlists _ _ listing name (mem_discoveryOrder.1 hname)).1

/-- The blocks of several add-ons share no directory. -/
theorem AddOns.distinct (hplace : Path.IsComponent layout.overlaysDir)
    (hlists : fs.ListsDirectories) (honce : ListsOnce fs) (hregister : RegistersOnce fs layout)
    (h : AddOns fs layout dir paths) : paths.Nodup ∧ ∀ p ∈ paths, dir.isWithin p = true := by
  cases h with
  | noDirectory _ => exact ⟨List.nodup_nil, List.forall_mem_nil _⟩
  | @listed names _ _ listing blocks =>
    have hnodup : (Text.sort names).Nodup :=
      (Text.sorts_sort names).perm.nodup_iff.2 (honce dir names listing)
    refine blocks_of_names hplace hregister hnodup (fun name hname => ?_) blocks
    exact (hlists dir names listing name (Text.mem_sort.1 hname)).1

/-- The configuration file of a root leaves layers and add-ons at their usual places. -/
def KeepsPlaces (fs : FileSystem) (layout : Layout) (root : Path) : Prop :=
  ∀ text, fs.HasText (root.child layout.configFile) text →
    (Properties.ofText text).nonEmpty? "layers.path" = none ∧
      (Properties.ofText text).nonEmpty? "add-ons.path" = none

/-- A structure is in the places that the settings name. -/
theorem Found.places {s : Structure} (hkeeps : KeepsPlaces fs layout root)
    (h : Found fs layout root (some s)) :
    s.layersDir = root.child layout.layersPath ∧ s.addOnsDir = root.child layout.addOnsPath := by
  cases h with
  | configured _ hasText parsed _ =>
    obtain ⟨hlayers, haddOns⟩ := hkeeps _ hasText
    obtain ⟨-, -, layers, -, rfl⟩ := outcome_ofText_eq_ok.1 parsed
    simp only [hlayers, haddOns, Option.getD_none, and_self]
  | discovered _ _ _ _ => exact ⟨rfl, rfl⟩

/-! ## The entries of a root -/

/-- In the usual layout the layers of a root and its add-ons are in two directories that lie apart,
below the root. -/
theorem RootPath.nodup (hlists : fs.ListsDirectories) (honce : ListsOnce fs)
    (hkeeps : KeepsPlaces fs .default root) (hregister : RegistersOnce fs .default)
    (h : RootPath fs .default root paths) : paths.Nodup := by
  have hplace : Path.IsComponent Layout.default.overlaysDir :=
    Path.isComponent_of_nameFault? valid_default.overlaysDir
  have hlayersPath : Path.IsComponent Layout.default.layersPath :=
    Path.isComponent_of_nameFault? (by decide)
  have haddOnsPath : Path.IsComponent Layout.default.addOnsPath :=
    Path.isComponent_of_nameFault? (by decide)
  have hapart := Path.apart_child hlayersPath haddOnsPath (by decide) root
  cases h with
  | plain _ => exact List.nodup_singleton root
  | @layered s layers more found _ blocks addOns =>
    obtain ⟨hnodup, hnames⟩ := found.layers_distinct hlists honce
    obtain ⟨hlayersDir, haddOnsDir⟩ := found.places hkeeps
    obtain ⟨hlayers, hinLayers⟩ := blocks_of_names hplace hregister hnodup hnames blocks
    obtain ⟨hmore, hinAddOns⟩ := addOns.distinct hplace hlists honce hregister
    rw [hlayersDir] at hinLayers
    rw [haddOnsDir] at hinAddOns
    -- the root is above both directories, and nothing is within both of them
    refine List.nodup_cons.2 ⟨fun hroot => ?_, hlayers.append hmore fun p hp hp' => ?_⟩
    · rcases List.mem_append.1 hroot with hroot | hroot
      · exact hlayersPath.ne_of_isWithin (hinLayers root hroot) rfl
      · exact haddOnsPath.ne_of_isWithin (hinAddOns root hroot) rfl
    · exact hapart.not_within_both (hinLayers p hp) (hinAddOns p hp')

/-- After the root, all entries of a search path are directories, those of overlays can be read, and
in the usual layout none comes twice if the configuration file moves neither layers nor add-ons and
overlays are registered once. What is asked of the file system, that it lists the names of
directories and each once, holds of trees as they are built. -/
theorem resolveRoot_entries :
    (∀ t : Tree, t.Built → t.fileSystem.ListsDirectories ∧ ListsOnce t.fileSystem) ∧
      ∀ (fs : FileSystem) (layout : Layout) (root : Path) (paths : List Path),
        fs.ListsDirectories → (resolveRoot layout root).outcome fs = .ok paths →
          (∃ dirs rest, paths = root :: rest ∧ Blocks (UsableBlock fs layout) dirs rest ∧
            ∀ p ∈ rest, fs.isDirectory p = true) ∧
          (layout = .default → ListsOnce fs → KeepsPlaces fs layout root →
            RegistersOnce fs layout → paths.Nodup) := by
  refine ⟨fun t ht => ⟨ht.listsDirectories, listsOnce_fileSystem ht.wellFormed⟩, ?_⟩
  intro fs layout root paths hlists hok
  have hpath : RootPath fs layout root paths := outcome_resolveRoot_eq_ok.1 hok
  constructor
  · obtain ⟨dirs, rest, hrest, hblocks⟩ := hpath.usable hlists
    refine ⟨dirs, rest, hrest, hblocks, fun p hp => ?_⟩
    obtain ⟨dir, -, block, hblock, hmem⟩ := hblocks.exists_of_mem hp
    exact hblock.isDirectory_of_mem p hmem
  · rintro rfl honce hkeeps hregister
    exact hpath.nodup hlists honce hkeeps hregister

/-- A root whose configuration file names a layer twice, with an overlay and an add-on. -/
def repeatingTree : Tree :=
  ((((Tree.makeDirectory {} (.ofText "/m/layers/base")).makeDirectory
    (.ofText "/m/layers/top/.overlays/fix")).makeDirectory (.ofText "/m/add-ons/more")).write
    (.ofText "/m/layers.conf") "layers=top,base,top").write
    (.ofText "/m/layers/top/.overlays/.overlays") "fix\n"

/-- The search path of that root. -/
def repeatingPath : List Path :=
  ["/m", "/m/layers/top/.overlays/fix", "/m/layers/top", "/m/layers/base",
    "/m/add-ons/more"].map .ofText

/-- The layer that is named twice comes once. -/
theorem resolveRoot_repeatingTree :
    repeatingTree.Built ∧ KeepsPlaces repeatingTree.fileSystem .default (.ofText "/m") ∧
      RegistersOnce repeatingTree.fileSystem .default ∧
      (resolveRoot .default (.ofText "/m")).outcome repeatingTree.fileSystem = .ok repeatingPath ∧
      repeatingPath.Nodup ∧
      ∃ dirs rest, repeatingPath = .ofText "/m" :: rest ∧
        Blocks (UsableBlock repeatingTree.fileSystem .default) dirs rest := by
  have hbuilt : repeatingTree.Built :=
    .write (.write (.makeDirectory (.makeDirectory (.makeDirectory .empty _) _) _) _ _) _ _
  -- both conditions are about texts, and the tree holds two
  have hkeeps : KeepsPlaces repeatingTree.fileSystem .default (.ofText "/m") := by
    have hfiles : ∀ e ∈ repeatingTree.files,
        (Properties.ofText e.2).nonEmpty? "layers.path" = none ∧
          (Properties.ofText e.2).nonEmpty? "add-ons.path" = none := by decide +kernel
    intro text htext
    have hmem := Tree.mem_files_of_hasText htext
    exact hfiles (_, text) hmem
  have honce : RegistersOnce repeatingTree.fileSystem .default := by
    have hfiles : ∀ e ∈ repeatingTree.files, (registeredNames e.2).Nodup := by decide +kernel
    intro dir text htext
    have hmem := Tree.mem_files_of_hasText htext
    exact hfiles (_, text) hmem
  have hok : (resolveRoot .default (.ofText "/m")).outcome repeatingTree.fileSystem =
      .ok repeatingPath := by
    decide +kernel
  obtain ⟨htrees, hentries⟩ := resolveRoot_entries
  obtain ⟨hlists, hlistsOnce⟩ := htrees repeatingTree hbuilt
  obtain ⟨⟨dirs, rest, hrest, hblocks, -⟩, hnodup⟩ := hentries _ _ _ _ hlists hok
  exact ⟨hbuilt, hkeeps, honce, hok, hnodup rfl hlistsOnce hkeeps honce, dirs, rest, hrest, hblocks⟩

end ModulePath.Layers
