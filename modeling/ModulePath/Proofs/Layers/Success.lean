import Mathlib.Data.List.Forall2
import ModulePath.Layers.Resolve
import ModulePath.Proofs.Program.Outcome
import ModulePath.Proofs.Text.Sort

/-!
# How the search for layers succeeds

For every part of the search, what must be true of the file system for it to succeed and what its
answer is then (`outcome_overlays_eq_ok`, `outcome_structureOf_eq_ok`, `outcome_resolveRoot_eq_ok`,
`outcome_resolve_eq_ok`). Each is read off the part once; what is said of search paths elsewhere
starts from these facts and opens no program.
-/

set_option autoImplicit false

namespace ModulePath.Layers

/-! ## Blocks -/

section Blocks

variable {α β : Type} {R S : α → List β → Prop}

/-- A list put together from one block for each member of another, in order. -/
def Blocks (R : α → List β → Prop) (as : List α) (bs : List β) : Prop :=
  ∃ blocks, List.Forall₂ R as blocks ∧ bs = blocks.flatten

theorem blocks_nil_iff {bs : List β} : Blocks R [] bs ↔ bs = [] := by
  constructor
  · rintro ⟨blocks, h, rfl⟩
    rw [List.forall₂_nil_left_iff.1 h, List.flatten_nil]
  · rintro rfl
    exact ⟨[], .nil, rfl⟩

/-- The blocks of a list begin with one for its first member. -/
theorem blocks_cons_iff {a : α} {as : List α} {bs : List β} :
    Blocks R (a :: as) bs ↔ ∃ first rest, R a first ∧ Blocks R as rest ∧ bs = first ++ rest := by
  constructor
  · rintro ⟨blocks, h, rfl⟩
    obtain ⟨first, others, ha, has, rfl⟩ := List.forall₂_cons_left_iff.1 h
    exact ⟨first, others.flatten, ha, ⟨others, has, rfl⟩, List.flatten_cons⟩
  · rintro ⟨first, rest, ha, ⟨others, has, rfl⟩, rfl⟩
    exact ⟨first :: others, .cons ha has, List.flatten_cons.symm⟩

/-- Blocks may be described in a weaker way. -/
theorem Blocks.imp {as : List α} {bs : List β} (h : Blocks R as bs)
    (hRS : ∀ a b, R a b → S a b) : Blocks S as bs := by
  obtain ⟨blocks, hall, rfl⟩ := h
  exact ⟨blocks, hall.imp hRS, rfl⟩

/-- What is put together comes from one of the blocks. -/
theorem Blocks.exists_of_mem {as : List α} {bs : List β} {b : β} (h : Blocks R as bs)
    (hb : b ∈ bs) : ∃ a ∈ as, ∃ block, R a block ∧ b ∈ block := by
  induction as generalizing bs with
  | nil =>
    obtain rfl := blocks_nil_iff.1 h
    cases hb
  | cons a as ih =>
    obtain ⟨first, rest, hfirst, hrest, rfl⟩ := blocks_cons_iff.1 h
    rcases List.mem_append.1 hb with hb | hb
    · exact ⟨a, List.mem_cons_self, first, hfirst, hb⟩
    · obtain ⟨a', ha', found⟩ := ih hrest hb
      exact ⟨a', List.mem_cons_of_mem a ha', found⟩

end Blocks

variable {fs : FileSystem} {layout : Layout} {dir root : Path} {paths : List Path}

theorem outcome_stop_ne_ok {α : Type} {cause : Cause} {p : Path} {a : α} :
    (stop cause p).outcome fs ≠ .ok a :=
  Program.outcome_refuse_ne_ok

@[simp] theorem outcome_logEntry_bind {α : Type} (e : Log.Entry) (f : Unit → Search α) :
    (logEntry e >>= f).outcome fs = (f ()).outcome fs :=
  Program.outcome_note_bind _ f

/-- A search that stops unless a test holds. -/
theorem outcome_ite_stop_eq_ok {α : Type} {b : Bool} {s : Search α} {cause : Cause} {p : Path}
    {a : α} : (if b then s else stop cause p).outcome fs = .ok a ↔
      b = true ∧ s.outcome fs = .ok a :=
  Program.outcome_ite_refuse_eq_ok

/-! ## Overlays -/

/-- Where the overlays of a directory are. -/
abbrev overlaysAt (layout : Layout) (dir : Path) : Path := dir.child layout.overlaysDir

/-- Where the overlays of a directory are registered. -/
abbrev registrationAt (layout : Layout) (dir : Path) : Path :=
  (overlaysAt layout dir).child layout.overlaysDir

/-- A name that registers an overlay in `dir` which can be used. -/
structure IsOverlay (fs : FileSystem) (dir : Path) (name : String) : Prop where
  valid : nameFault? name = none
  isDirectory : fs.isDirectory (dir.child name) = true
  isReadable : fs.isReadable (dir.child name) = true

/-- Overlays are found if each name leads to one, and they are found in the order of their names. -/
theorem outcome_overlayPaths_eq_ok {registration : Path} {names : List String} :
    (overlayPaths dir registration names).outcome fs = .ok paths ↔
      (∀ name ∈ names, IsOverlay fs dir name) ∧ paths = names.map dir.child := by
  -- the first bad name ends the search, so success says something of every name
  induction names generalizing paths with
  | nil =>
    rw [overlayPaths, Program.outcome_pure_eq_ok, List.map_nil]
    exact ⟨fun h => ⟨List.forall_mem_nil _, h⟩, fun h => h.2⟩
  | cons name rest ih =>
    rw [overlayPaths]
    cases hname : nameFault? name with
    | some f =>
      have hbad : ¬ IsOverlay fs dir name := fun h => by simp [h.valid] at hname
      simp [outcome_stop_ne_ok, hbad]
    | none =>
      simp only [Program.outcome_isDirectory_bind, Program.outcome_isReadable_bind,
        outcome_ite_stop_eq_ok, Program.outcome_bind_eq_ok, ih, Program.outcome_pure_eq_ok]
      constructor
      · rintro ⟨hdir, hread, _, ⟨hrest, rfl⟩, rfl⟩
        exact ⟨List.forall_mem_cons.2 ⟨⟨hname, hdir, hread⟩, hrest⟩, rfl⟩
      · rintro ⟨h, rfl⟩
        obtain ⟨hfirst, hrest⟩ := List.forall_mem_cons.1 h
        exact ⟨hfirst.isDirectory, hfirst.isReadable, _, ⟨hrest, rfl⟩, rfl⟩

/-- The overlays of a directory that are found, and why they are. -/
inductive Overlays (fs : FileSystem) (layout : Layout) (dir : Path) : List Path → Prop where
  | noDirectory (absent : fs.contains (overlaysAt layout dir) = false) : Overlays fs layout dir []
  | noRegistration (present : fs.contains (overlaysAt layout dir) = true)
      (isDirectory : fs.isDirectory (overlaysAt layout dir) = true)
      (isReadable : fs.isReadable (overlaysAt layout dir) = true)
      (unregistered : fs.contains (registrationAt layout dir) = false) : Overlays fs layout dir []
  | registered {text : String} (present : fs.contains (overlaysAt layout dir) = true)
      (isDirectory : fs.isDirectory (overlaysAt layout dir) = true)
      (isReadable : fs.isReadable (overlaysAt layout dir) = true)
      (registered : fs.contains (registrationAt layout dir) = true)
      (readable : fs.isReadable (registrationAt layout dir) = true)
      (hasText : fs.HasText (registrationAt layout dir) text)
      (sound : ∀ name ∈ registeredNames text, IsOverlay fs (overlaysAt layout dir) name) :
      Overlays fs layout dir ((registeredNames text).map (overlaysAt layout dir).child)

/-- Overlays that are found are usable entries of their directory, and if there are any, a text
registers them. -/
theorem Overlays.exists_names (h : Overlays fs layout dir paths) :
    ∃ names, paths = names.map (overlaysAt layout dir).child ∧
      (∀ name ∈ names, IsOverlay fs (overlaysAt layout dir) name) ∧
      (names = [] ∨
        ∃ text, fs.HasText (registrationAt layout dir) text ∧ names = registeredNames text) := by
  cases h with
  | noDirectory _ => exact ⟨[], rfl, List.forall_mem_nil _, .inl rfl⟩
  | noRegistration _ _ _ _ => exact ⟨[], rfl, List.forall_mem_nil _, .inl rfl⟩
  | registered _ _ _ _ _ hasText sound => exact ⟨_, rfl, sound, .inr ⟨_, hasText, rfl⟩⟩

/-- The second of two tests is made only if the first one holds. -/
theorem outcome_isUsable_bind {α : Type} (b : Bool) (p : Path) (f : Bool → Search α) :
    (if b then Program.isReadable p >>= f else pure false >>= f).outcome fs =
      (f (b && fs.isReadable p)).outcome fs := by
  cases b with
  | true => rfl
  | false => rfl

theorem outcome_overlays_eq_ok :
    (overlays layout dir).outcome fs = .ok paths ↔ Overlays fs layout dir paths := by
  unfold overlays
  rw [Program.outcome_isPresent_bind]
  -- the tests in the order in which the program makes them
  by_cases hbase : fs.contains (overlaysAt layout dir) = true
  · rw [if_pos hbase]
    rw [Program.outcome_isDirectory_bind, outcome_isUsable_bind, outcome_ite_stop_eq_ok,
      Bool.and_eq_true, Program.outcome_isPresent_bind]
    by_cases hreg : fs.contains (registrationAt layout dir) = true
    · rw [if_pos hreg, Program.outcome_isReadable_bind, outcome_ite_stop_eq_ok,
        Program.outcome_bind_eq_ok]
      simp only [Program.outcome_text_eq_ok, outcome_overlayPaths_eq_ok]
      constructor
      · rintro ⟨⟨hdir, hread⟩, hreadable, text, htext, hsound, rfl⟩
        exact .registered hbase hdir hread hreg hreadable htext hsound
      · intro h
        cases h with
        | noDirectory absent => simp [absent] at hbase
        | noRegistration _ _ _ unregistered => simp [unregistered] at hreg
        | registered _ hdir hread _ hreadable htext hsound =>
          exact ⟨⟨hdir, hread⟩, hreadable, _, htext, hsound, rfl⟩
    · rw [if_neg hreg]
      constructor
      · rintro ⟨⟨hdir, hread⟩, h⟩
        obtain rfl := Program.outcome_pure_eq_ok.1 h
        exact .noRegistration hbase hdir hread (Bool.eq_false_iff.2 hreg)
      · intro h
        cases h with
        | noDirectory absent => simp [absent] at hbase
        | noRegistration _ hdir hread _ => exact ⟨⟨hdir, hread⟩, rfl⟩
        | registered _ _ _ registered _ _ _ => exact absurd registered hreg
  · rw [if_neg hbase]
    constructor
    · intro h
      obtain rfl := Program.outcome_pure_eq_ok.1 h
      exact .noDirectory (Bool.eq_false_iff.2 hbase)
    · intro h
      cases h with
      | noDirectory _ => rfl
      | noRegistration present _ _ _ => exact absurd present hbase
      | registered present _ _ _ _ _ _ => exact absurd present hbase

/-! ## Layers and add-ons -/

/-- A directory after the overlays that are found for it. -/
def WithOverlays (fs : FileSystem) (layout : Layout) (dir : Path) (paths : List Path) : Prop :=
  ∃ above, Overlays fs layout dir above ∧ paths = above ++ [dir]

theorem outcome_logOverlays_bind {α : Type} (role : Role) (ps : List Path)
    (f : Unit → Search α) : (logOverlays role ps >>= f).outcome fs = (f ()).outcome fs := by
  have hlog : (logOverlays role ps).outcome fs = .ok () := by
    induction ps with
    | nil => rfl
    | cons p rest ih => exact ih
  rw [Program.outcome_bind, hlog]
  rfl

/-- A directory is found with its overlays. -/
theorem outcome_block_eq_ok {role : Role} :
    (block layout role dir).outcome fs = .ok paths ↔ WithOverlays fs layout dir paths := by
  unfold block WithOverlays
  rw [Program.outcome_bind_eq_ok]
  simp only [outcome_logOverlays_bind, outcome_logEntry_bind, outcome_overlays_eq_ok,
    Program.outcome_pure_eq_ok]

/-- The layers are found with their overlays, in their order. -/
theorem outcome_layerBlocks_eq_ok {names : List String} :
    (layerBlocks layout dir names).outcome fs = .ok paths ↔
      (∀ name ∈ names, fs.isDirectory (dir.child name) = true) ∧
        Blocks (WithOverlays fs layout) (names.map dir.child) paths := by
  induction names generalizing paths with
  | nil =>
    rw [layerBlocks, Program.outcome_pure_eq_ok, List.map_nil, blocks_nil_iff]
    exact ⟨fun h => ⟨List.forall_mem_nil _, h⟩, fun h => h.2⟩
  | cons name rest ih =>
    rw [layerBlocks, Program.outcome_isDirectory_bind, outcome_ite_stop_eq_ok,
      Program.outcome_bind_eq_ok, List.map_cons, blocks_cons_iff, List.forall_mem_cons]
    simp only [Program.outcome_bind_eq_ok, outcome_block_eq_ok, ih,
      Program.outcome_pure_eq_ok]
    constructor
    · rintro ⟨hname, first, hfirst, others, ⟨hrest, hothers⟩, rfl⟩
      exact ⟨⟨hname, hrest⟩, first, others, hfirst, hothers, rfl⟩
    · rintro ⟨⟨hname, hrest⟩, first, others, hfirst, hothers, rfl⟩
      exact ⟨hname, first, hfirst, others, ⟨hrest, hothers⟩, rfl⟩

theorem outcome_addOnBlocks_eq_ok {names : List String} :
    (addOnBlocks layout dir names).outcome fs = .ok paths ↔
      Blocks (WithOverlays fs layout) (names.map dir.child) paths := by
  induction names generalizing paths with
  | nil => rw [addOnBlocks, Program.outcome_pure_eq_ok, List.map_nil, blocks_nil_iff]
  | cons name rest ih =>
    rw [addOnBlocks, Program.outcome_bind_eq_ok, List.map_cons, blocks_cons_iff]
    simp only [Program.outcome_bind_eq_ok, outcome_block_eq_ok, ih,
      Program.outcome_pure_eq_ok]
    constructor
    · rintro ⟨first, hfirst, others, hothers, rfl⟩
      exact ⟨first, others, hfirst, hothers, rfl⟩
    · rintro ⟨first, others, hfirst, hothers, rfl⟩
      exact ⟨first, hfirst, others, hothers, rfl⟩

/-- The search path of the add-ons in a directory, if it is one. -/
inductive AddOns (fs : FileSystem) (layout : Layout) (dir : Path) : List Path → Prop where
  | noDirectory (absent : fs.isDirectory dir = false) : AddOns fs layout dir []
  | listed {names : List String} {paths : List Path} (isDirectory : fs.isDirectory dir = true)
      (listing : fs.subdirectories dir = .ok names)
      (blocks : Blocks (WithOverlays fs layout) ((Text.sort names).map dir.child) paths) :
      AddOns fs layout dir paths

theorem outcome_addOns_eq_ok :
    (addOns layout dir).outcome fs = .ok paths ↔ AddOns fs layout dir paths := by
  unfold addOns
  rw [Program.outcome_isDirectory_bind]
  by_cases hdir : fs.isDirectory dir = true
  · rw [if_pos hdir, Program.outcome_bind_eq_ok]
    simp only [Program.outcome_subdirectories_eq_ok, outcome_addOnBlocks_eq_ok]
    constructor
    · rintro ⟨names, hnames, hblocks⟩
      exact .listed hdir hnames hblocks
    · intro h
      cases h with
      | noDirectory absent => simp [absent] at hdir
      | listed _ hnames hblocks => exact ⟨_, hnames, hblocks⟩
  · rw [if_neg hdir]
    constructor
    · intro h
      obtain rfl := Program.outcome_pure_eq_ok.1 h
      exact .noDirectory (Bool.eq_false_iff.2 hdir)
    · intro h
      cases h with
      | noDirectory _ => rfl
      | listed isDirectory _ _ => exact absurd isDirectory hdir

/-! ## The structure of a root -/

/-! ### The order of discovered layers -/

theorem discoveryOrder_eq (names : List String) :
    discoveryOrder names =
      Text.sort (names.erase baseLayer) ++ if baseLayer ∈ names then [baseLayer] else [] := by
  unfold discoveryOrder
  by_cases hbase : baseLayer ∈ names
  · rw [if_pos hbase, if_pos (List.contains_iff_mem.2 (Text.mem_sort.2 hbase)), Text.sort_erase]
  · have hsorted : ¬ (Text.sort names).contains baseLayer = true := fun h =>
      hbase (Text.mem_sort.1 (List.contains_iff_mem.1 h))
    rw [if_neg hbase, if_neg hsorted, List.erase_of_not_mem hbase, List.append_nil]

/-- Discovered layers are all that are there. -/
theorem discoveryOrder_perm (names : List String) : (discoveryOrder names).Perm names := by
  rw [discoveryOrder_eq]
  have hothers := (Text.sorts_sort (names.erase baseLayer)).perm
  by_cases hbase : baseLayer ∈ names
  · rw [if_pos hbase]
    have hlast := List.perm_append_singleton baseLayer (Text.sort (names.erase baseLayer))
    exact hlast.trans ((hothers.cons baseLayer).trans (List.perm_cons_erase hbase).symm)
  · rw [if_neg hbase, List.append_nil]
    rwa [List.erase_of_not_mem hbase] at hothers ⊢

theorem mem_discoveryOrder {name : String} {names : List String} :
    name ∈ discoveryOrder names ↔ name ∈ names :=
  (discoveryOrder_perm names).mem_iff

theorem discoveryOrder_eq_nil_iff {names : List String} :
    discoveryOrder names = [] ↔ names = [] := by
  constructor
  · intro h
    have hperm := discoveryOrder_perm names
    rw [h] at hperm
    exact hperm.nil_eq.symm
  · rintro rfl
    rfl

/-! ### The configuration file -/

theorem mem_withBase {name : String} {names : List String} (h : name ∈ withBase names) :
    name ∈ names ∨ name = baseLayer := by
  unfold withBase at h
  split at h
  case isTrue => exact .inl h
  case isFalse => exact (List.mem_append.1 h).imp_right List.mem_singleton.1

theorem outcome_checkPath_eq_ok {p : Option String} {u : Unit} :
    (Conf.checkPath p).outcome fs = .ok u ↔ p.bind relativePathFault? = none := by
  unfold Conf.checkPath
  cases p.bind relativePathFault? with
  | some f => simp [Program.outcome_refuse_ne_ok]
  | none => simp [Program.outcome_pure_eq_ok]

/-- A configuration file can be read if the directories that it names are relative and its names
are valid. -/
theorem outcome_ofText_eq_ok {text : String} {conf : Conf} :
    (Conf.ofText text).outcome fs = .ok conf ↔
      ((Properties.ofText text).nonEmpty? "layers.path").bind relativePathFault? = none ∧
      ((Properties.ofText text).nonEmpty? "add-ons.path").bind relativePathFault? = none ∧
      ∃ layers, (layerNames ((Properties.ofText text).get? "layers")).outcome fs = .ok layers ∧
        conf = ⟨layers, (Properties.ofText text).nonEmpty? "layers.path",
          (Properties.ofText text).nonEmpty? "add-ons.path"⟩ := by
  unfold Conf.ofText
  simp only [outcome_checkPath_eq_ok, Program.outcome_bind_eq_ok,
    Program.outcome_mapCause_eq_ok, Program.outcome_pure_eq_ok, exists_and_left, exists_const]

/-! ### Finding the structure -/

/-- The layering structure of a root that is found, if there is one, and why it is. -/
inductive Found (fs : FileSystem) (layout : Layout) (root : Path) : Option Structure → Prop where
  | configured {text : String} {conf : Conf}
      (present : fs.contains (root.child layout.configFile) = true)
      (hasText : fs.HasText (root.child layout.configFile) text)
      (parsed : (Conf.ofText text).outcome fs = .ok conf)
      (isDirectory :
        fs.isDirectory (root.child (conf.layersPath.getD layout.layersPath)) = true) :
      Found fs layout root (some ⟨root.child (conf.layersPath.getD layout.layersPath), conf.layers,
        root.child (conf.addOnsPath.getD layout.addOnsPath)⟩)
  | discovered {names : List String}
      (absent : fs.contains (root.child layout.configFile) = false)
      (isDirectory : fs.isDirectory (root.child layout.layersPath) = true)
      (listing : fs.subdirectories (root.child layout.layersPath) = .ok names)
      (nonempty : names ≠ []) :
      Found fs layout root (some ⟨root.child layout.layersPath, discoveryOrder names,
        root.child layout.addOnsPath⟩)
  | noLayers (absent : fs.contains (root.child layout.configFile) = false)
      (noDirectory : fs.isDirectory (root.child layout.layersPath) = false) :
      Found fs layout root none
  | emptyLayers (absent : fs.contains (root.child layout.configFile) = false)
      (isDirectory : fs.isDirectory (root.child layout.layersPath) = true)
      (listing : fs.subdirectories (root.child layout.layersPath) = .ok []) :
      Found fs layout root none

/-- A configured structure is what its file says, with the settings for what the file leaves
open. -/
theorem outcome_configuredStructure_eq_ok {file : Path} {s : Structure} :
    (configuredStructure layout root file).outcome fs = .ok s ↔
      ∃ text conf, fs.HasText file text ∧ (Conf.ofText text).outcome fs = .ok conf ∧
        fs.isDirectory (root.child (conf.layersPath.getD layout.layersPath)) = true ∧
        s = ⟨root.child (conf.layersPath.getD layout.layersPath), conf.layers,
          root.child (conf.addOnsPath.getD layout.addOnsPath)⟩ := by
  unfold configuredStructure
  simp only [Program.outcome_bind_eq_ok, Program.outcome_text_eq_ok,
    Program.outcome_mapCause_eq_ok, Program.outcome_isDirectory_bind, outcome_ite_stop_eq_ok,
    outcome_logEntry_bind, Program.outcome_pure_eq_ok, exists_and_left]

/-- A discovered structure is what its directories say. -/
theorem outcome_discoveredStructure_eq_ok {found : Option Structure} :
    (discoveredStructure layout root).outcome fs = .ok found ↔
      (fs.isDirectory (root.child layout.layersPath) = false ∧ found = none) ∨
      (fs.isDirectory (root.child layout.layersPath) = true ∧
        ∃ names, fs.subdirectories (root.child layout.layersPath) = .ok names ∧
          ((names = [] ∧ found = none) ∨
            (names ≠ [] ∧ found = some ⟨root.child layout.layersPath, discoveryOrder names,
              root.child layout.addOnsPath⟩))) := by
  unfold discoveredStructure
  rw [Program.outcome_isDirectory_bind]
  by_cases hdir : fs.isDirectory (root.child layout.layersPath) = true
  · rw [if_pos hdir, Program.outcome_bind_eq_ok]
    simp only [hdir, Program.outcome_subdirectories_eq_ok, Bool.true_eq_false, false_and,
      true_and, false_or]
    refine exists_congr fun names => and_congr_right fun _ => ?_
    -- the program looks at the ordered names, which are none exactly when there are no names
    rcases horder : discoveryOrder names with _ | ⟨first, rest⟩
    · have hnames : names = [] := discoveryOrder_eq_nil_iff.1 horder
      simp [hnames, Program.outcome_pure_eq_ok]
    · have hnames : names ≠ [] := fun h => by
        rw [discoveryOrder_eq_nil_iff.2 h] at horder
        cases horder
      simp [hnames, Program.outcome_pure_eq_ok]
  · rw [if_neg hdir, Program.outcome_pure_eq_ok]
    simp [hdir]

theorem outcome_structureOf_eq_ok {found : Option Structure} :
    (structureOf layout root).outcome fs = .ok found ↔ Found fs layout root found := by
  unfold structureOf
  rw [Program.outcome_isPresent_bind]
  by_cases hconf : fs.contains (root.child layout.configFile) = true
  · rw [if_pos hconf, Program.outcome_bind_eq_ok]
    simp only [outcome_configuredStructure_eq_ok, Program.outcome_pure_eq_ok]
    constructor
    · rintro ⟨s, ⟨text, conf, htext, hparsed, hdir, rfl⟩, rfl⟩
      exact .configured hconf htext hparsed hdir
    · intro h
      cases h with
      | configured _ htext hparsed hdir => exact ⟨_, ⟨_, _, htext, hparsed, hdir, rfl⟩, rfl⟩
      | discovered absent _ _ _ => simp [absent] at hconf
      | noLayers absent _ => simp [absent] at hconf
      | emptyLayers absent _ _ => simp [absent] at hconf
  · have habsent : fs.contains (root.child layout.configFile) = false := Bool.eq_false_iff.2 hconf
    rw [if_neg hconf, outcome_discoveredStructure_eq_ok]
    constructor
    · rintro (⟨hdir, rfl⟩ | ⟨hdir, names, hnames, ⟨rfl, rfl⟩ | ⟨hne, rfl⟩⟩)
      · exact .noLayers habsent hdir
      · exact .emptyLayers habsent hdir hnames
      · exact .discovered habsent hdir hnames hne
    · intro h
      cases h with
      | configured present _ _ _ => exact absurd present hconf
      | discovered _ hdir hnames hne => exact .inr ⟨hdir, _, hnames, .inr ⟨hne, rfl⟩⟩
      | noLayers _ hdir => exact .inl ⟨hdir, rfl⟩
      | emptyLayers _ hdir hnames => exact .inr ⟨hdir, [], hnames, .inl ⟨rfl, rfl⟩⟩

/-! ## Roots -/

/-- The search path of a root that is found, and why it is. -/
inductive RootPath (fs : FileSystem) (layout : Layout) (root : Path) : List Path → Prop where
  | plain (found : Found fs layout root none) : RootPath fs layout root [root]
  | layered {s : Structure} {layers more : List Path} (found : Found fs layout root (some s))
      (directories : ∀ name ∈ s.layers, fs.isDirectory (s.layersDir.child name) = true)
      (blocks : Blocks (WithOverlays fs layout) (s.layers.map s.layersDir.child) layers)
      (addOns : AddOns fs layout s.addOnsDir more) :
      RootPath fs layout root (root :: (layers ++ more))

/-- A root is resolved to the search path that belongs to it. -/
theorem outcome_resolveRoot_eq_ok :
    (resolveRoot layout root).outcome fs = .ok paths ↔ RootPath fs layout root paths := by
  unfold resolveRoot searchRoot
  rw [Program.outcome_within, outcome_logEntry_bind, Program.outcome_bind_eq_ok]
  simp only [outcome_structureOf_eq_ok]
  constructor
  · rintro ⟨_ | s, hfound, h⟩
    · obtain rfl := Program.outcome_pure_eq_ok.1 h
      exact .plain hfound
    · simp only [Program.outcome_bind_eq_ok, outcome_layerBlocks_eq_ok, outcome_addOns_eq_ok,
        Program.outcome_pure_eq_ok] at h
      obtain ⟨layers, ⟨hdirs, hlayers⟩, more, hmore, rfl⟩ := h
      exact .layered hfound hdirs hlayers hmore
  · intro h
    cases h with
    | plain hfound => exact ⟨none, hfound, rfl⟩
    | layered hfound hdirs hlayers hmore =>
      refine ⟨some _, hfound, ?_⟩
      simp only [Program.outcome_bind_eq_ok, outcome_layerBlocks_eq_ok, outcome_addOns_eq_ok,
        Program.outcome_pure_eq_ok]
      exact ⟨_, ⟨hdirs, hlayers⟩, _, hmore, rfl⟩

theorem outcome_resolveRoots_eq_ok {roots : List Path} :
    (resolveRoots layout roots).outcome fs = .ok paths ↔
      Blocks (RootPath fs layout) roots paths := by
  induction roots generalizing paths with
  | nil => rw [resolveRoots, Program.outcome_pure_eq_ok, blocks_nil_iff]
  | cons root rest ih =>
    rw [resolveRoots, Program.outcome_bind_eq_ok, blocks_cons_iff]
    simp only [Program.outcome_bind_eq_ok, outcome_resolveRoot_eq_ok, ih,
      Program.outcome_pure_eq_ok]
    constructor
    · rintro ⟨first, hfirst, others, hothers, rfl⟩
      exact ⟨first, others, hfirst, hothers, rfl⟩
    · rintro ⟨first, others, hfirst, hothers, rfl⟩
      exact ⟨first, hfirst, others, hothers, rfl⟩

/-- Roots are resolved to their search paths one after the other. -/
theorem outcome_resolve_eq_ok {roots : List Path} :
    (resolve layout roots).outcome fs = .ok paths ↔ Blocks (RootPath fs layout) roots paths := by
  unfold resolve
  rw [Program.outcome_bind_eq_ok]
  simp only [outcome_logEntry_bind, outcome_resolveRoots_eq_ok, Program.outcome_pure_eq_ok]
  constructor
  · rintro ⟨found, hfound, rfl⟩
    exact hfound
  · intro h
    exact ⟨paths, h, rfl⟩

end ModulePath.Layers
