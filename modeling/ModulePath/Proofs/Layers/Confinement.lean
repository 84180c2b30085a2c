import ModulePath.Proofs.FileSystem.Agreement
import ModulePath.Proofs.Layers.Settings
import ModulePath.Proofs.Layers.Success

/-!
# Search paths stay in their root

The search path of a root is found by asking only about paths that the root encloses, and consists
of such paths, whatever the files of the tree say (`resolveRoot_staysIn`). What is elsewhere in the
tree does not matter (`resolveRoot_confined`). The places in checked settings, the directories and
names of a configuration file and the names of overlays all lead inside; the names that are listed
do so in a tree whose directories have no `..` below the root.

A root is searched within any set of paths that has with a path also its children (`Closed`),
enclosed or not (`searchRoot_confined`).
-/

set_option autoImplicit false

namespace ModulePath.Layers

open Program (Confined)

/-! ## Sets of paths -/

/-- A set of paths with which come the paths of their children by the names of a set, among them
all usable names. -/
structure Closed (S : Path → Prop) (N : String → Prop) : Prop where
  child : ∀ p name, S p → N name → S (p.child name)
  valid : ∀ name, nameFault? name = none → N name

/-- What leads inside a root does not leave it. -/
theorem closed_encloses (root : Path) : Closed root.Encloses Path.LeadsInside :=
  ⟨fun _ _ hp hname => hp.child hname, fun _ => Path.leadsInside_of_nameFault?⟩

/-- All paths of a list are in a set. -/
def AllIn (S : Path → Prop) (paths : List Path) : Prop := ∀ p ∈ paths, S p

theorem AllIn.append {S : Path → Prop} {ps qs : List Path} (hps : AllIn S ps) (hqs : AllIn S qs) :
    AllIn S (ps ++ qs) :=
  List.forall_mem_append.2 ⟨hps, hqs⟩

variable {layout : Layout} {root dir : Path} {names : List String}

section Blocks

variable {S : Path → Prop} {N : String → Prop}

theorem confined_logEntry_bind {ε α : Type} {Q : α → Prop} {e : Log.Entry}
    {f : Unit → Program ε α} (h : Confined S N Q (f ())) : Confined S N Q (logEntry e >>= f) :=
  Confined.note_bind h

theorem logOverlays_confined {role : Role} {paths : List Path} :
    Confined S N (fun _ => True) (logOverlays role paths) := by
  induction paths with
  | nil => exact .pure trivial
  | cons p rest ih => exact confined_logEntry_bind ih

variable (hS : Closed S N)

include hS

/-! ## Overlays -/

/-- Overlays are looked for in the directory that registers them. -/
theorem overlayPaths_confined {registration : Path} (hdir : S dir) :
    Confined S N (AllIn S) (overlayPaths dir registration names) := by
  induction names with
  | nil => exact .pure (List.forall_mem_nil _)
  | cons name rest ih =>
    rw [overlayPaths]
    cases hname : nameFault? name with
    | some f => exact .refuse
    | none =>
      have hoverlay : S (dir.child name) := hS.child dir name hdir (hS.valid name hname)
      refine Confined.bind (.isDirectory hoverlay) fun isDirectory _ => ?_
      cases isDirectory with
      | false => exact .refuse
      | true =>
        refine Confined.bind (.isReadable hoverlay) fun isReadable _ => ?_
        cases isReadable with
        | false => exact .refuse
        | true =>
          refine Confined.bind ih fun paths hpaths => ?_
          exact .pure (List.forall_mem_cons.2 ⟨hoverlay, hpaths⟩)

theorem overlays_confined (hname : N layout.overlaysDir) (hdir : S dir) :
    Confined S N (AllIn S) (overlays layout dir) := by
  have hbase : S (dir.child layout.overlaysDir) := hS.child _ _ hdir hname
  have hregistration := hS.child _ _ hbase hname
  -- what comes after the test whether the overlays can be used
  have hrest (isReadable : Bool) : Confined S N (AllIn S) (do
      if isReadable then
        let registration := (dir.child layout.overlaysDir).child layout.overlaysDir
        if ← Program.isPresent registration then
          if ← Program.isReadable registration then
            let text ← Program.text registration fun reason =>
              ⟨.badRegistration reason .denied, registration.text⟩
            overlayPaths (dir.child layout.overlaysDir) registration (registeredNames text)
          else stop (.badRegistration none .denied) registration
        else return []
      else stop .badOverlaysDirectory (dir.child layout.overlaysDir) : Search (List Path)) := by
    cases isReadable with
    | false => exact .refuse
    | true =>
      refine Confined.bind (.isPresent hregistration) fun registered _ => ?_
      cases registered with
      | false => exact .pure (List.forall_mem_nil _)
      | true =>
        refine Confined.bind (.isReadable hregistration) fun readable _ => ?_
        cases readable with
        | false => exact .refuse
        | true =>
          exact Confined.bind (.text hregistration) fun text _ => overlayPaths_confined hS hbase
  refine Confined.bind (.isPresent hbase) fun present _ => ?_
  cases present with
  | false => exact .pure (List.forall_mem_nil _)
  | true =>
    refine Confined.bind (.isDirectory hbase) fun isDirectory _ => ?_
    cases isDirectory with
    | false => exact hrest false
    | true => exact Confined.bind (.isReadable hbase) fun isReadable _ => hrest isReadable

/-! ## Layers and add-ons -/

/-- A directory is searched for its overlays without leaving the set. -/
theorem block_confined {role : Role} (hname : N layout.overlaysDir) (hdir : S dir) :
    Confined S N (AllIn S) (block layout role dir) := by
  refine Confined.bind (overlays_confined hS hname hdir) fun paths hpaths => ?_
  refine Confined.bind logOverlays_confined fun _ _ => ?_
  refine confined_logEntry_bind (.pure ?_)
  exact hpaths.append (List.forall_mem_singleton.2 hdir)

theorem layerBlocks_confined (hoverlays : N layout.overlaysDir) (hdir : S dir)
    (hnames : ∀ name ∈ names, N name) : Confined S N (AllIn S) (layerBlocks layout dir names) := by
  induction names with
  | nil => exact .pure (List.forall_mem_nil _)
  | cons name rest ih =>
    obtain ⟨hname, hrest⟩ := List.forall_mem_cons.1 hnames
    have hlayer : S (dir.child name) := hS.child dir name hdir hname
    refine Confined.bind (.isDirectory hlayer) fun isDirectory _ => ?_
    cases isDirectory with
    | false => exact .refuse
    | true =>
      refine Confined.bind (block_confined hS hoverlays hlayer) fun first hfirst => ?_
      refine Confined.bind (ih hrest) fun others hothers => ?_
      exact .pure (hfirst.append hothers)

theorem addOnBlocks_confined (hoverlays : N layout.overlaysDir) (hdir : S dir)
    (hnames : ∀ name ∈ names, N name) : Confined S N (AllIn S) (addOnBlocks layout dir names) := by
  induction names with
  | nil => exact .pure (List.forall_mem_nil _)
  | cons name rest ih =>
    obtain ⟨hname, hrest⟩ := List.forall_mem_cons.1 hnames
    have haddOn : S (dir.child name) := hS.child dir name hdir hname
    refine Confined.bind (block_confined hS hoverlays haddOn) fun first hfirst => ?_
    refine Confined.bind (ih hrest) fun others hothers => ?_
    exact .pure (hfirst.append hothers)

/-- The add-ons are gone through in order, however they are listed. -/
theorem addOns_confined (hoverlays : N layout.overlaysDir) (hdir : S dir) :
    Confined S N (AllIn S) (addOns layout dir) := by
  refine Confined.bind (.isDirectory hdir) fun isDirectory _ => ?_
  cases isDirectory with
  | false => exact .pure (List.forall_mem_nil _)
  | true =>
    refine Confined.subdirectories_bind hdir (fun names hnames => ?_) fun names names' hperm => ?_
    · refine addOnBlocks_confined hS hoverlays hdir fun name hname => ?_
      exact hnames name (Text.mem_sort.1 hname)
    · -- the add-ons come after the listing in the order of their names
      rw [Text.sort_eq_of_perm hperm]

end Blocks

/-! ## The configuration file -/

section Structures

variable {S : Path → Prop} {N : String → Prop}

/-- Reading names asks about nothing. -/
theorem addNames_confined {more : List String} (hnames : ∀ name ∈ names, nameFault? name = none) :
    Confined S N (fun all => ∀ name ∈ all, nameFault? name = none) (addNames names more) := by
  induction more generalizing names with
  | nil => exact .pure hnames
  | cons name rest ih =>
    rw [addNames]
    cases hname : nameFault? name with
    | some f => exact .refuse
    | none =>
      by_cases hknown : names.contains name = true
      · rw [if_pos hknown]
        exact confined_logEntry_bind (ih hnames)
      · rw [if_neg hknown]
        exact ih (List.forall_mem_append.2 ⟨hnames, List.forall_mem_singleton.2 hname⟩)

/-- Names of layers that are read have no fault. -/
theorem layerNames_confined {s : Option String} :
    Confined S N (fun all => ∀ name ∈ all, nameFault? name = none) (layerNames s) := by
  refine Confined.bind (addNames_confined (List.forall_mem_nil _)) fun all hall => .pure ?_
  intro name hname
  rcases mem_withBase hname with hname | rfl
  · exact hall name hname
  · decide

/-- What a configuration file says leads inside. -/
structure Conf.Usable (conf : Conf) : Prop where
  layers : ∀ name ∈ conf.layers, nameFault? name = none
  layersPath : ∀ p, conf.layersPath = some p → relativePathFault? p = none
  addOnsPath : ∀ p, conf.addOnsPath = some p → relativePathFault? p = none

theorem checkPath_confined {p : Option String} :
    Confined S N (fun _ => ∀ s, p = some s → relativePathFault? s = none) (Conf.checkPath p) := by
  unfold Conf.checkPath
  cases hfault : p.bind relativePathFault? with
  | some f => exact .refuse
  | none =>
    refine .pure fun s hs => ?_
    rwa [hs, Option.bind_some] at hfault

/-- A configuration that is read from a text leads nowhere outside. -/
theorem ofText_confined {text : String} : Confined S N Conf.Usable (Conf.ofText text) := by
  refine Confined.bind checkPath_confined fun _ hlayersPath => ?_
  refine Confined.bind checkPath_confined fun _ haddOnsPath => ?_
  refine Confined.bind (.mapCause layerNames_confined) fun all hall => ?_
  exact .pure ⟨hall, hlayersPath, haddOnsPath⟩

/-! ## The structure of a root -/

/-- The places of a layout are told by names of a set, and so is every place that a configuration
file can name. -/
structure Places (N : String → Prop) (layout : Layout) : Prop where
  configFile : N layout.configFile
  layersPath : N layout.layersPath
  addOnsPath : N layout.addOnsPath
  overlaysDir : N layout.overlaysDir
  named : ∀ s, relativePathFault? s = none → N s

/-- A directory that the file names, or else the one of the layout. -/
theorem Places.getD (h : Places N layout) {p : Option String} {place : String}
    (hp : ∀ s, p = some s → relativePathFault? s = none) (hplace : N place) :
    N (p.getD place) := by
  cases p with
  | none => exact hplace
  | some s => exact h.named s (hp s rfl)

/-- The directories of a layering structure are in a set of paths, and the names of its layers in
one of names. -/
structure Structure.IsIn (S : Path → Prop) (N : String → Prop) (s : Structure) : Prop where
  layersDir : S s.layersDir
  layers : ∀ name ∈ s.layers, N name
  addOnsDir : S s.addOnsDir

variable (hS : Closed S N) (hplaces : Places N layout)

include hS hplaces

/-- A configured structure lies inside. -/
theorem configuredStructure_confined {file : Path} (hroot : S root) (hfile : S file) :
    Confined S N (Structure.IsIn S N) (configuredStructure layout root file) := by
  refine Confined.bind (.text hfile) fun text _ => ?_
  refine Confined.bind (.mapCause ofText_confined) fun conf hconf => ?_
  -- only a file that was checked gets as far as naming directories
  have hlayersDir := hS.child _ _ hroot (hplaces.getD hconf.layersPath hplaces.layersPath)
  have haddOnsDir := hS.child _ _ hroot (hplaces.getD hconf.addOnsPath hplaces.addOnsPath)
  refine Confined.bind (.isDirectory hlayersDir) fun isDirectory _ => ?_
  cases isDirectory with
  | false => exact .refuse
  | true =>
    refine confined_logEntry_bind (.pure ⟨hlayersDir, fun name hname => ?_, haddOnsDir⟩)
    exact hS.valid name (hconf.layers name hname)

theorem discoveredStructure_confined (hroot : S root) :
    Confined S N (fun s => ∀ found, s = some found → found.IsIn S N)
      (discoveredStructure layout root) := by
  have hlayersDir := hS.child _ _ hroot hplaces.layersPath
  have haddOnsDir := hS.child _ _ hroot hplaces.addOnsPath
  refine Confined.bind (.isDirectory hlayersDir) fun isDirectory _ => ?_
  cases isDirectory with
  | false => exact .pure nofun
  | true =>
    refine Confined.subdirectories_bind hlayersDir (fun names hnames => ?_)
      fun names names' hperm => ?_
    · cases horder : discoveryOrder names with
      | nil => exact .pure nofun
      | cons first rest =>
        refine .pure fun found hfound => ?_
        obtain rfl := Option.some.inj hfound
        refine ⟨hlayersDir, fun name hname => hnames name (mem_discoveryOrder.1 ?_), haddOnsDir⟩
        rwa [horder]
    · -- the names are sorted before anything depends on them
      have hsame : discoveryOrder names = discoveryOrder names' := by
        rw [discoveryOrder, discoveryOrder, Text.sort_eq_of_perm hperm]
      simp only [hsame]

/-- A structure that is found lies inside. -/
theorem structureOf_confined (hroot : S root) :
    Confined S N (fun s => ∀ found, s = some found → found.IsIn S N) (structureOf layout root) := by
  have hfile := hS.child _ _ hroot hplaces.configFile
  refine Confined.bind (.isPresent hfile) fun present _ => ?_
  cases present with
  | false => exact discoveredStructure_confined hS hplaces hroot
  | true =>
    refine Confined.bind (configuredStructure_confined hS hplaces hroot hfile) fun s hs => .pure ?_
    rintro _ ⟨⟩
    exact hs

/-! ## Roots -/

theorem searchRoot_confined (hroot : S root) :
    Confined S N (AllIn S) (searchRoot layout root) := by
  refine confined_logEntry_bind ?_
  refine Confined.bind (structureOf_confined hS hplaces hroot) fun found hfound => ?_
  cases found with
  | none => exact .pure (List.forall_mem_singleton.2 hroot)
  | some s =>
    obtain ⟨hlayersDir, hlayers, haddOnsDir⟩ := hfound s rfl
    have hblocks := layerBlocks_confined hS hplaces.overlaysDir hlayersDir hlayers
    have hmore := addOns_confined hS hplaces.overlaysDir haddOnsDir
    refine Confined.bind hblocks fun layers hlayers => ?_
    refine Confined.bind hmore fun more hmore => .pure ?_
    exact List.forall_mem_cons.2 ⟨hroot, hlayers.append hmore⟩

theorem resolveRoots_confined {roots : List Path} (hroots : AllIn S roots) :
    Confined S N (AllIn S) (resolveRoots layout roots) := by
  induction roots with
  | nil => exact .pure (List.forall_mem_nil _)
  | cons root rest ih =>
    obtain ⟨hroot, hrest⟩ := List.forall_mem_cons.1 hroots
    refine Confined.bind (.within (searchRoot_confined hS hplaces hroot)) fun first hfirst => ?_
    refine Confined.bind (ih hrest) fun others hothers => ?_
    exact .pure (hfirst.append hothers)

/-- Roots are searched one after the other without leaving the set. -/
theorem resolve_confined {roots : List Path} (hroots : AllIn S roots) :
    Confined S N (AllIn S) (resolve layout roots) := by
  refine Confined.bind (resolveRoots_confined hS hplaces hroots) fun paths hpaths => ?_
  exact confined_logEntry_bind (.pure hpaths)

end Structures

/-! ## Enclosed paths -/

/-- A program asks only about paths that a root encloses, and its answers satisfy `Q`. -/
abbrev StaysIn (root : Path) {ε α : Type} (Q : α → Prop) (s : Program ε α) : Prop :=
  Confined root.Encloses Path.LeadsInside Q s

/-- All paths of a list are enclosed by a root. -/
abbrev AllEnclosed (root : Path) (paths : List Path) : Prop := AllIn root.Encloses paths

/-- The places of a checked layout lead inside. -/
theorem Layout.Valid.places (h : layout.Valid) : Places Path.LeadsInside layout where
  configFile := Path.leadsInside_of_nameFault? h.configFile
  layersPath := Path.leadsInside_of_relativePathFault? h.layersPath
  addOnsPath := Path.leadsInside_of_relativePathFault? h.addOnsPath
  overlaysDir := Path.leadsInside_of_nameFault? h.overlaysDir
  named := fun _ => Path.leadsInside_of_relativePathFault?

/-- Nothing outside of its root is looked at for a search path. -/
theorem resolveRoot_staysIn (hlayout : layout.Valid) :
    StaysIn root (AllEnclosed root) (resolveRoot layout root) :=
  .within (searchRoot_confined (closed_encloses root) hlayout.places root.encloses_self)

/-- With settings that pass the check, the search path of a root is found inside the root: no
question and no answer leads out of it, and nothing that lies elsewhere plays a part. This holds of
all trees as they are built (`Tree.Built.wellFormed`) that have no `..` below the root. -/
theorem resolveRoot_confined {settings : Value} (h : Config.checkLayers settings = .ok ()) :
    ∃ entries layout, settings = .dict entries ∧
      (LayoutOf.ofEntries entries).toLayout? = some layout ∧
      ∀ (root : Path) (t : Tree), t.WellFormed → t.NoStepsOut root →
        (∀ q ∈ (resolveRoot layout root).queries t.fileSystem,
          ∃ p, q.path? = some p ∧ root.Encloses p) ∧
        (∀ paths, (resolveRoot layout root).outcome t.fileSystem = .ok paths →
          ∀ p ∈ paths, root.Encloses p) ∧
        ∀ t' : Tree, t'.WellFormed → Tree.AgreeWithin root t t' →
          (resolveRoot layout root).outcome t.fileSystem =
            (resolveRoot layout root).outcome t'.fileSystem := by
  cases settings with
  | dict entries =>
    obtain ⟨layout, hlayout, hvalid⟩ := exists_layout h
    refine ⟨entries, layout, rfl, hlayout, fun root t hwf hno => ?_⟩
    have hconfined : StaysIn root (AllEnclosed root) (resolveRoot layout root) :=
      resolveRoot_staysIn hvalid
    have hlists := Tree.lists_fileSystem hwf hno
    refine ⟨hconfined.path_of_mem_queries hlists, fun paths hok => ?_, fun t' hwf' hagree => ?_⟩
    · exact hconfined.of_outcome_eq_ok hlists hok
    · exact hconfined.outcome_eq hlists (Tree.agreeOn_fileSystem hwf hwf' hagree)
  | null | bool _ | int _ | real _ | str _ | list _ | tuple _ | set _ =>
    exact absurd h Config.refuse_ne_ok

/-- A root with a layer, its overlay and an add-on. -/
def sampleInside : Tree :=
  ((Tree.makeDirectory {} (.ofText "/m/layers/base/.overlays/fix")).makeDirectory
    (.ofText "/m/add-ons/more")).write (.ofText "/m/layers/base/.overlays/.overlays") "fix\n"

/-- The same root beside another directory, which cannot be used, nor can the one above both. -/
def sampleElsewhere : Tree :=
  ((sampleInside.makeDirectory (.ofText "/n")).deny (.ofText "/n")).deny (.ofText "/")

theorem built_sampleInside : sampleInside.Built :=
  .write (.makeDirectory (.makeDirectory .empty _) _) _ _

/-- The two trees hold the same within the root. -/
theorem agreeWithin_samples :
    Tree.AgreeWithin (.ofText "/m") sampleInside sampleElsewhere := by
  have hdirectories : sampleElsewhere.directories =
      sampleInside.directories ++ [.ofText "/n"] := by decide +kernel
  have hfiles : sampleElsewhere.files = sampleInside.files := by decide +kernel
  have hfailing : sampleElsewhere.failing = sampleInside.failing := by decide +kernel
  have hnone : sampleInside.denied = [] := by decide +kernel
  have hdenied : sampleElsewhere.denied = [.ofText "/", .ofText "/n"] := by decide +kernel
  -- the trees differ in what is not within the root
  have hother : (Path.ofText "/m").isWithin (.ofText "/n") = false := by decide
  have habove : (Path.ofText "/m").isWithin (.ofText "/") = false := by decide
  refine ⟨fun p hp => ?_, fun p hp => ?_, fun p hp => ?_, fun p hp => ?_⟩
  · rw [hdirectories, List.mem_append, List.mem_singleton]
    refine ⟨.inl, ?_⟩
    rintro (hmem | rfl)
    · exact hmem
    · simp [hother] at hp
  · rw [Tree.file?, Tree.file?, hfiles]
  · rw [hnone, hdenied]
    refine ⟨fun hmem => absurd hmem List.not_mem_nil, fun hmem => ?_⟩
    rcases List.mem_cons.1 hmem with rfl | hmem
    · simp [habove] at hp
    · obtain rfl := List.mem_singleton.1 hmem
      simp [hother] at hp
  · rw [hfailing]

/-- What is found in one tree is found in the other. -/
theorem resolveRoot_sampleElsewhere :
    Config.checkLayers (.dict []) = .ok () ∧
      (resolveRoot .default (.ofText "/m")).outcome sampleElsewhere.fileSystem =
        .ok (["/m", "/m/layers/base/.overlays/fix", "/m/layers/base", "/m/add-ons/more"].map
          .ofText) := by
  have hsettings : Config.checkLayers (.dict []) = .ok () := rfl
  obtain ⟨entries, layout, hentries, hlayout, hconfined⟩ := resolveRoot_confined hsettings
  obtain rfl := Value.dict.inj hentries
  obtain rfl : .default = layout := Option.some.inj hlayout
  have hwf := built_sampleInside.wellFormed
  have hwf' : sampleElsewhere.WellFormed :=
    (((built_sampleInside.makeDirectory "/n").deny (.ofText "/n")).deny (.ofText "/")).wellFormed
  have hno : sampleInside.NoStepsOut (.ofText "/m") := by
    unfold Tree.NoStepsOut
    decide +kernel
  obtain ⟨-, -, hsame⟩ := hconfined (.ofText "/m") sampleInside hwf hno
  rw [← hsame sampleElsewhere hwf' agreeWithin_samples]
  exact ⟨hsettings, by decide +kernel⟩

end ModulePath.Layers
