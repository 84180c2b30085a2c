import ModulePath.Proofs.Layers.Entries
import ModulePath.Proofs.Layers.Trace

/-!
# What the search from a root reads

The directories of a root are its layers in order and then its add-ons (`directoriesOf`). The search
reads the configuration file, if there is one, and goes along these directories up to the last one
or to one that fails, reading the registrations of overlays that it can open (`reads_resolveRoot`).
Registrations of different directories are different files below those that can be the configuration
file, so nothing is read twice if layers and add-ons are in two directories (`resolveRoot_reads`).
-/

set_option autoImplicit false

namespace ModulePath.Layers

open Program (Does does_pure does_refuse does_note does_subdirectories)

variable {fs : FileSystem} {layout : Layout} {dir root : Path} {dirs more : List Path}
  {α β : Type} {s : Search α} {f : α → Search β}

/-! ## Going along directories -/

/-- The registrations of directories, as far as they are opened. -/
def registrationsOf (fs : FileSystem) (layout : Layout) (dirs : List Path) : List Path :=
  (dirs.filter (opensRegistration fs layout)).map (registrationAt layout)

/-- A search goes along directories and reads their registrations. If it succeeds, then it gets to
the last one. -/
def Visits (fs : FileSystem) (layout : Layout) (dirs : List Path) (s : Search α) : Prop :=
  ∃ visited, visited <+: dirs ∧ s.reads fs = registrationsOf fs layout visited ∧
    ∀ a, s.outcome fs = .ok a → visited = dirs

theorem visits_refuse (cause : Error) : Visits fs layout dirs (.refuse cause : Search α) :=
  ⟨[], List.nil_prefix, rfl, fun _ h => absurd h Program.outcome_refuse_ne_ok⟩

/-- A search that reads nothing visits nothing. -/
theorem visits_of_unread (h : Does fs Event.Unread s) : Visits fs layout [] s :=
  ⟨[], List.prefix_refl [], h.reads_eq_nil, fun _ _ => rfl⟩

/-- What is visited first and what is visited then. -/
theorem Visits.bind (hs : Visits fs layout dirs s)
    (hf : ∀ a, s.outcome fs = .ok a → Visits fs layout more (f a)) :
    Visits fs layout (dirs ++ more) (s >>= f) := by
  obtain ⟨visited, hprefix, hreads, hall⟩ := hs
  cases h : s.outcome fs with
  | ok a =>
    -- the first part got to the end of its directories, where the second one goes on
    obtain rfl := hall a h
    obtain ⟨others, hothers, hreads', hall'⟩ := hf a h
    refine ⟨visited ++ others, (List.prefix_append_right_inj visited).2 hothers, ?_, ?_⟩
    · rw [Program.reads_bind_of_ok h, hreads, hreads', registrationsOf, registrationsOf,
        registrationsOf, List.filter_append, List.map_append]
    · intro b hb
      rw [Program.outcome_bind, h] at hb
      rw [hall' b hb]
  | error e =>
    -- the second part is not reached, and the whole does not succeed
    refine ⟨visited, hprefix.trans (List.prefix_append dirs more), ?_, ?_⟩
    · rw [Program.reads_bind_of_error h, hreads]
    · intro b hb
      rw [Program.outcome_bind, h] at hb
      cases hb

/-- What reads no file can come before. -/
theorem Visits.of_unread_bind (hs : Does fs Event.Unread s)
    (hf : ∀ a, s.outcome fs = .ok a → Visits fs layout dirs (f a)) :
    Visits fs layout dirs (s >>= f) :=
  (visits_of_unread hs).bind hf

/-- What reads no file can come after. -/
theorem Visits.bind_unread (hs : Visits fs layout dirs s) (hf : ∀ a, Does fs Event.Unread (f a)) :
    Visits fs layout dirs (s >>= f) := by
  have hboth : Visits fs layout (dirs ++ []) (s >>= f) := hs.bind fun a _ => visits_of_unread (hf a)
  rwa [List.append_nil] at hboth

theorem visits_isDirectory_bind {q : Path} {f : Bool → Search α} :
    Visits fs layout dirs (Program.isDirectory q >>= f) ↔
      Visits fs layout dirs (f (fs.isDirectory q)) :=
  Iff.rfl

/-! ## Layers and add-ons -/

/-- One directory is visited for its block. -/
theorem visits_block (role : Role) : Visits fs layout [dir] (block layout role dir) := by
  refine ⟨[dir], List.prefix_refl _, ?_, fun _ _ => rfl⟩
  rw [reads_block, reads_overlays, registrationsOf]
  cases hopen : opensRegistration fs layout dir with
  | false => rw [List.filter_cons_of_neg (Bool.eq_false_iff.1 hopen)]; rfl
  | true => rw [List.filter_cons_of_pos hopen]; rfl

/-- The layers are visited in their order. -/
theorem visits_layerBlocks (names : List String) :
    Visits fs layout (names.map dir.child) (layerBlocks layout dir names) := by
  induction names with
  | nil => exact visits_of_unread (does_pure [])
  | cons name rest ih =>
    rw [layerBlocks, visits_isDirectory_bind, List.map_cons]
    cases fs.isDirectory (dir.child name) with
    | false => exact visits_refuse _
    | true => exact (visits_block .layer).bind fun _ _ => ih.bind_unread fun _ => does_pure _

theorem visits_addOnBlocks (names : List String) :
    Visits fs layout (names.map dir.child) (addOnBlocks layout dir names) := by
  induction names with
  | nil => exact visits_of_unread (does_pure [])
  | cons name rest ih =>
    exact (visits_block .addOn).bind fun _ _ => ih.bind_unread fun _ => does_pure _

/-- The add-ons in a directory in order, if it can be listed. -/
def addOnDirectories (fs : FileSystem) (dir : Path) : List Path :=
  if fs.isDirectory dir then
    match fs.subdirectories dir with
    | .ok names => (Text.sort names).map dir.child
    | .error _ => []
  else []

theorem visits_addOns : Visits fs layout (addOnDirectories fs dir) (addOns layout dir) := by
  unfold addOns addOnDirectories
  rw [visits_isDirectory_bind]
  cases fs.isDirectory dir with
  | false => exact visits_of_unread (does_pure [])
  | true =>
    refine Visits.of_unread_bind (does_subdirectories trivial) fun names h => ?_
    rw [Program.outcome_subdirectories_eq_ok.1 h]
    exact visits_addOnBlocks _

/-! ## Roots -/

/-- The directories of a root in the order in which they are searched: its layers, and then its
add-ons. -/
def directoriesOf (fs : FileSystem) (layout : Layout) (root : Path) : List Path :=
  match (structureOf layout root).outcome fs with
  | .ok (some s) => s.layers.map s.layersDir.child ++ addOnDirectories fs s.addOnsDir
  | .ok none => []
  | .error _ => []

/-- The configuration is read first, and then the registrations of the directories in their order,
up to a failure. -/
theorem reads_resolveRoot (fs : FileSystem) (layout : Layout) (root : Path) :
    ∃ visited, visited <+: directoriesOf fs layout root ∧
      (resolveRoot layout root).reads fs =
        (if fs.contains (root.child layout.configFile) then [root.child layout.configFile]
          else []) ++ registrationsOf fs layout visited ∧
      ∀ paths, (resolveRoot layout root).outcome fs = .ok paths →
        visited = directoriesOf fs layout root := by
  rw [resolveRoot, Program.reads_within, Program.outcome_within, searchRoot, outcome_logEntry_bind,
    logEntry, Program.reads_note_bind, ← reads_structureOf, directoriesOf]
  cases hfound : (structureOf layout root).outcome fs with
  | error e =>
    refine ⟨[], List.nil_prefix, ?_, fun _ _ => rfl⟩
    rw [Program.reads_bind_of_error hfound, registrationsOf, List.filter_nil, List.map_nil,
      List.append_nil]
  | ok found =>
    rw [Program.reads_bind_of_ok hfound, Program.outcome_bind, hfound]
    cases found with
    | none => exact ⟨[], List.nil_prefix, rfl, fun _ _ => rfl⟩
    | some s =>
      -- the add-ons are visited only after all layers
      have haddOns (layers : List Path) : Visits fs layout (addOnDirectories fs s.addOnsDir)
          (addOns layout s.addOnsDir >>= fun more => pure (root :: (layers ++ more))) :=
        visits_addOns.bind_unread fun _ => does_pure _
      obtain ⟨visited, hprefix, hreads, hall⟩ :=
        (visits_layerBlocks s.layers).bind fun layers _ => haddOns layers
      exact ⟨visited, hprefix, congrArg _ hreads, hall⟩

/-! ## Nothing is read twice -/

/-- Different directories have their registrations in different files. -/
theorem registrationAt_injective (hplace : Path.IsComponent layout.overlaysDir) :
    Function.Injective (registrationAt layout) := by
  intro d d' h
  obtain ⟨hbase, -⟩ := hplace.child_inj hplace h
  exact (hplace.child_inj hplace hbase).1

/-- A registration is too far down to be the configuration file. -/
theorem registrationAt_ne_configFile (hvalid : layout.Valid) (hdir : root.isWithin dir = true) :
    registrationAt layout dir ≠ root.child layout.configFile := by
  have hplace := Path.isComponent_of_nameFault? hvalid.overlaysDir
  intro h
  obtain ⟨hroot, -⟩ := hplace.child_inj (Path.isComponent_of_nameFault? hvalid.configFile) h
  refine hplace.ne_of_isWithin (p := dir) (q := dir) ?_ rfl
  rw [show dir.child layout.overlaysDir = root from hroot]
  exact hdir

/-- A directory that the configuration file names is below the root, and so is the usual one. -/
theorem isWithin_getD {p : Option String} {place : String}
    (hp : p.bind relativePathFault? = none) (hplace : relativePathFault? place = none) :
    root.isWithin (root.child (p.getD place)) = true := by
  have hrelative : relativePathFault? (p.getD place) = none := by
    cases p with
    | none => exact hplace
    | some s => exact hp
  exact Path.isWithin_child (Path.isWithin_self root)
    (Path.leadsInside_of_relativePathFault? hrelative).relative

/-- A structure lies within its root. -/
theorem Found.isWithin (hvalid : layout.Valid) {s : Structure}
    (h : Found fs layout root (some s)) :
    root.isWithin s.layersDir = true ∧ root.isWithin s.addOnsDir = true := by
  cases h with
  | configured _ _ parsed _ =>
    obtain ⟨hlayersPath, haddOnsPath, layers, -, rfl⟩ := outcome_ofText_eq_ok.1 parsed
    dsimp only
    constructor
    · exact isWithin_getD hlayersPath hvalid.layersPath
    · exact isWithin_getD haddOnsPath hvalid.addOnsPath
  | discovered _ _ _ _ =>
    exact ⟨isWithin_getD (p := none) rfl hvalid.layersPath,
      isWithin_getD (p := none) rfl hvalid.addOnsPath⟩

/-- Add-ons are told by distinct names. -/
theorem addOnDirectories_names (hlists : fs.ListsDirectories) (honce : ListsOnce fs) (dir : Path) :
    ∃ names : List String, addOnDirectories fs dir = names.map dir.child ∧ names.Nodup ∧
      ∀ name ∈ names, Path.IsComponent name := by
  unfold addOnDirectories
  split
  case isFalse => exact ⟨[], rfl, List.nodup_nil, List.forall_mem_nil _⟩
  case isTrue =>
    cases hlisting : fs.subdirectories dir with
    | error reason => exact ⟨[], rfl, List.nodup_nil, List.forall_mem_nil _⟩
    | ok names =>
      refine ⟨Text.sort names, rfl, ?_, fun name hname => ?_⟩
      · exact (Text.sorts_sort names).perm.nodup_iff.2 (honce dir names hlisting)
      · exact (hlists dir names hlisting name (Text.mem_sort.1 hname)).1

/-- The directories of a root are distinct and below it. -/
theorem directoriesOf_distinct (hvalid : layout.Valid) (hlists : fs.ListsDirectories)
    (honce : ListsOnce fs) (hapart : ∀ s, (structureOf layout root).outcome fs = .ok (some s) →
      s.layersDir ≠ s.addOnsDir) :
    (directoriesOf fs layout root).Nodup ∧
      ∀ dir ∈ directoriesOf fs layout root, root.isWithin dir = true := by
  unfold directoriesOf
  cases houtcome : (structureOf layout root).outcome fs with
  | error e => exact ⟨List.nodup_nil, List.forall_mem_nil _⟩
  | ok found =>
    cases found with
    | none => exact ⟨List.nodup_nil, List.forall_mem_nil _⟩
    | some s =>
      have hfound : Found fs layout root (some s) := outcome_structureOf_eq_ok.1 houtcome
      obtain ⟨hlayersIn, haddOnsIn⟩ := hfound.isWithin hvalid
      obtain ⟨hlayers, hlayerNames⟩ := hfound.layers_distinct hlists honce
      obtain ⟨names, haddOns, hnames, haddOnNames⟩ :=
        addOnDirectories_names hlists honce s.addOnsDir
      dsimp only
      rw [haddOns]
      constructor
      · refine List.Nodup.append ?_ ?_ fun d hd hd' => ?_
        · exact (Path.pairwise_apart_child hlayers hlayerNames _).imp Path.Apart.ne
        · exact (Path.pairwise_apart_child hnames haddOnNames _).imp Path.Apart.ne
        · -- a layer that is an add-on as well is an entry of both directories
          obtain ⟨layer, hlayer, rfl⟩ := List.mem_map.1 hd
          obtain ⟨name, hname, heq⟩ := List.mem_map.1 hd'
          obtain ⟨hsame, -⟩ := (haddOnNames name hname).child_inj (hlayerNames layer hlayer) heq
          exact hapart s houtcome hsame.symm
      · refine List.forall_mem_append.2 ⟨List.forall_mem_map.2 fun name hname => ?_,
          List.forall_mem_map.2 fun name hname => ?_⟩
        · exact (hlayerNames name hname).isWithin_child hlayersIn
        · exact (haddOnNames name hname).isWithin_child haddOnsIn

/-- With settings that pass the check, the search from a root reads no file twice, unless layers and
add-ons are in one directory. It reads the configuration file first, if there is one, and then
nothing but the registrations that it opens in directories of the root, in the order in which it
goes along these, up to the last one if it succeeds. What is asked of the file system, that it lists
the names of directories and each once, holds of trees as they are built. -/
theorem resolveRoot_reads :
    (∀ t : Tree, t.Built → t.fileSystem.ListsDirectories ∧ ListsOnce t.fileSystem) ∧
      ∀ settings : Value, Config.checkLayers settings = .ok () →
        ∃ entries layout, settings = .dict entries ∧
          (LayoutOf.ofEntries entries).toLayout? = some layout ∧
          ∀ (fs : FileSystem) (root : Path), fs.ListsDirectories → ListsOnce fs →
            (∀ s, (structureOf layout root).outcome fs = .ok (some s) →
              s.layersDir ≠ s.addOnsDir) →
            ((resolveRoot layout root).reads fs).Nodup ∧
              ∃ visited, visited <+: directoriesOf fs layout root ∧
                (resolveRoot layout root).reads fs =
                  (if fs.contains (root.child layout.configFile) then
                    [root.child layout.configFile] else []) ++
                    registrationsOf fs layout visited ∧
                ∀ paths, (resolveRoot layout root).outcome fs = .ok paths →
                  visited = directoriesOf fs layout root := by
  refine ⟨fun t ht => ⟨ht.listsDirectories, listsOnce_fileSystem ht.wellFormed⟩, ?_⟩
  intro settings hsettings
  cases settings with
  | dict entries =>
    obtain ⟨layout, hlayout, hvalid⟩ := exists_layout hsettings
    refine ⟨entries, layout, rfl, hlayout, fun fs root hlists honce hapart => ?_⟩
    obtain ⟨hnodup, hwithin⟩ := directoriesOf_distinct hvalid hlists honce hapart
    obtain ⟨visited, hprefix, hreads, hall⟩ := reads_resolveRoot fs layout root
    refine ⟨?_, visited, hprefix, hreads, hall⟩
    rw [hreads]
    have hplace := Path.isComponent_of_nameFault? hvalid.overlaysDir
    -- the configuration file, the registrations among themselves, and one against the others
    refine List.Nodup.append ?_ ?_ fun file hfile hregistration => ?_
    · split
      case isTrue => exact List.nodup_singleton _
      case isFalse => exact List.nodup_nil
    · have hvisited : visited.Nodup := hnodup.sublist hprefix.sublist
      exact (hvisited.filter _).map (registrationAt_injective hplace)
    · obtain ⟨dir, hdir, rfl⟩ := List.mem_map.1 hregistration
      have hmem : dir ∈ directoriesOf fs layout root :=
        hprefix.subset (List.mem_filter.1 hdir).1
      have hne := registrationAt_ne_configFile hvalid (hwithin dir hmem)
      split at hfile
      case isTrue => exact hne (List.mem_singleton.1 hfile)
      case isFalse => cases hfile
  | null | bool _ | int _ | real _ | str _ | list _ | tuple _ | set _ =>
    exact absurd hsettings Config.refuse_ne_ok

/-- A root with two layers and an add-on that all register overlays. One of the base layer is
missing. -/
def readingTree : Tree :=
  (((((Tree.makeDirectory {} (.ofText "/m/layers/top/.overlays/fix")).makeDirectory
    (.ofText "/m/add-ons/more")).write (.ofText "/m/layers.conf") "layers=top").write
    (.ofText "/m/layers/top/.overlays/.overlays") "fix\n").write
    (.ofText "/m/layers/base/.overlays/.overlays") "gone\n").write
    (.ofText "/m/add-ons/more/.overlays/.overlays") "fix\n"

/-- The search gets as far as to the base layer and reads three files. -/
theorem reads_readingTree :
    readingTree.Built ∧ Config.checkLayers (.dict []) = .ok () ∧
      (resolveRoot .default (.ofText "/m")).reads readingTree.fileSystem =
        ["/m/layers.conf", "/m/layers/top/.overlays/.overlays",
          "/m/layers/base/.overlays/.overlays"].map .ofText ∧
      ((resolveRoot .default (.ofText "/m")).reads readingTree.fileSystem).Nodup ∧
      ∃ visited, visited <+: directoriesOf readingTree.fileSystem .default (.ofText "/m") ∧
        (resolveRoot .default (.ofText "/m")).reads readingTree.fileSystem =
          .ofText "/m/layers.conf" :: registrationsOf readingTree.fileSystem .default visited := by
  have hbuilt : readingTree.Built :=
    .write (.write (.write (.write (.makeDirectory (.makeDirectory .empty _) _) _ _) _ _) _ _) _ _
  have hsettings : Config.checkLayers (.dict []) = .ok () := rfl
  have hconf : readingTree.fileSystem.contains
      ((Path.ofText "/m").child Layout.default.configFile) = true := by decide +kernel
  have hstructure : (structureOf .default (.ofText "/m")).outcome readingTree.fileSystem =
      .ok (some ⟨.ofText "/m/layers", ["top", "base"], .ofText "/m/add-ons"⟩) := by decide +kernel
  obtain ⟨htrees, hreads⟩ := resolveRoot_reads
  obtain ⟨hlists, honce⟩ := htrees readingTree hbuilt
  obtain ⟨entries, layout, hentries, hlayout, hreads⟩ := hreads _ hsettings
  -- the settings are empty, so the layout is the usual one
  obtain rfl := Value.dict.inj hentries
  obtain rfl : .default = layout := Option.some.inj hlayout
  obtain ⟨hnodup, visited, hprefix, hall, -⟩ :=
    hreads readingTree.fileSystem (.ofText "/m") hlists honce fun s hs => by
      rw [hstructure] at hs
      obtain rfl := Option.some.inj (Except.ok.inj hs)
      decide
  rw [if_pos hconf] at hall
  exact ⟨hbuilt, hsettings, by decide +kernel, hnodup, visited, hprefix, hall⟩

end ModulePath.Layers
