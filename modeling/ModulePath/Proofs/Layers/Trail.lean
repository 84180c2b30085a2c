import ModulePath.Log.Registry
import ModulePath.Proofs.Layers.Trace
import ModulePath.Proofs.Program.InTurn
import ModulePath.Proofs.Program.Run

/-!
# The log trail of a search

Of the debug records that a search logs some name directories (`directories`), and these are the
entries of its search path in order. The layers of a root and its add-ons are searched in turn. A
search that fails has named the root and the entries of those layers and add-ons that were complete
when it failed (`Stopped`, `searchRoot_stopped`).
-/

set_option autoImplicit false

namespace ModulePath.Layers

open Log (valueOf?)
open Program (inTurn records_bind_of_ok records_bind_of_error)

variable {fs : FileSystem} {layout : Layout} {dir root : Path} {role : Role} {names : List String}
  {paths : List Path} {e : Failure Error}

/-! ## Directories in records -/

/-- The directory that a debug record names. -/
def directory? (r : Log.Record) : Option Value :=
  if r.level = .debug then valueOf? "directory" r.context else none

/-- The directories that debug records name, in order. -/
def directories (rs : List Log.Record) : List Value := rs.filterMap directory?

/-- Paths as records name them. -/
def namesOf (paths : List Path) : List Value := paths.map fun p => .str p.text

theorem directories_append (rs rs' : List Log.Record) :
    directories (rs ++ rs') = directories rs ++ directories rs' :=
  List.filterMap_append

theorem namesOf_append (ps qs : List Path) : namesOf (ps ++ qs) = namesOf ps ++ namesOf qs :=
  List.map_append

theorem namesOf_cons (p : Path) (ps : List Path) :
    namesOf (p :: ps) = .str p.text :: namesOf ps := rfl

theorem directories_cons {r : Log.Record} {v : Value} (h : directory? r = some v)
    (rs : List Log.Record) : directories (r :: rs) = v :: directories rs :=
  List.filterMap_cons_some h

/-- Records without a directory leave no trail. -/
theorem directories_eq_nil {rs : List Log.Record} (h : ∀ r ∈ rs, directory? r = none) :
    directories rs = [] :=
  List.filterMap_eq_nil_iff.2 h

theorem directory?_overlayRecord (p : Path) :
    directory? (overlayRecord role p) = some (.str p.text) := rfl

theorem directory?_addedRecord : directory? (addedRecord role dir) = some (.str dir.text) := rfl

theorem IsStructureRecord.directory?_eq_none {file : Path} {r : Log.Record}
    (h : IsStructureRecord file r) : directory? r = none := by
  cases h with
  | repeated name => rfl
  | conf layers => rfl

/-- What is logged when the search from a root begins. -/
def rootRecord (root : Path) : Log.Record :=
  recordOf ⟨.debug, "Added module root", [pathField "directory" root]⟩

theorem directory?_rootRecord : directory? (rootRecord root) = some (.str root.text) := rfl

/-! ## Blocks -/

/-- The trail of a directory names what is found for it. -/
theorem directories_block (h : (block layout role dir).outcome fs = .ok paths) :
    directories ((block layout role dir).records fs) = namesOf paths := by
  obtain ⟨above, habove, rfl⟩ := outcome_block_eq_ok.1 h
  rw [records_block_of_ok (outcome_overlays_eq_ok.2 habove), directories_append, namesOf_append]
  have hoverlays : directories (above.map (overlayRecord role)) = namesOf above := by
    have hnamed : directory? ∘ overlayRecord role = some ∘ fun p => .str p.text :=
      funext directory?_overlayRecord
    rw [directories, List.filterMap_map, hnamed, List.filterMap_eq_map, namesOf]
  rw [hoverlays, directories_cons directory?_addedRecord]
  rfl

/-! ## Layers and add-ons in turn -/

/-- Search a layer, if it is a directory. -/
def searchLayer (layout : Layout) (dir : Path) (name : String) : Search (List Path) := do
  if ← Program.isDirectory (dir.child name) then block layout .layer (dir.child name)
  else stop (.missingLayer name) (dir.child name)

theorem layerBlocks_eq_inTurn :
    layerBlocks layout dir names = inTurn (searchLayer layout dir) names := by
  induction names with
  | nil => rfl
  | cons name rest ih =>
    rw [layerBlocks, inTurn, searchLayer, Program.bind_bind]
    -- what follows the block of a layer follows it in the one branch that has a block
    refine congrArg (Program.isDirectory (dir.child name) >>= ·) (funext fun isDirectory => ?_)
    cases isDirectory with
    | false => rfl
    | true => rw [if_pos rfl, if_pos rfl, ih]

theorem addOnBlocks_eq_inTurn :
    addOnBlocks layout dir names =
      inTurn (fun name => block layout .addOn (dir.child name)) names := by
  induction names with
  | nil => rfl
  | cons name rest ih => rw [addOnBlocks, inTurn, ih]

theorem resolveRoots_eq_inTurn (roots : List Path) :
    resolveRoots layout roots = inTurn (resolveRoot layout) roots := by
  induction roots with
  | nil => rfl
  | cons root rest ih => rw [resolveRoots, inTurn, ih]

/-- If every part names the directories that it finds, then the whole does. -/
theorem directories_inTurn {ι : Type} {visit : ι → Search (List Path)} {members : List ι}
    (hvisit : ∀ i ∈ members, ∀ ps, (visit i).outcome fs = .ok ps →
      directories ((visit i).records fs) = namesOf ps)
    (h : (inTurn visit members).outcome fs = .ok paths) :
    directories ((inTurn visit members).records fs) = namesOf paths := by
  induction members generalizing paths with
  | nil =>
    obtain rfl := Program.outcome_pure_eq_ok.1 h
    rfl
  | cons i rest ih =>
    obtain ⟨hfirst, hrest⟩ := List.forall_mem_cons.1 hvisit
    obtain ⟨first, others, hi, hothers, rfl⟩ := Program.outcome_inTurn_cons_eq_ok.1 h
    rw [Program.records_inTurn_cons hi, directories_append, namesOf_append, hfirst first hi,
      ih hrest hothers]

/-- A layer cannot be searched: it is missing, or its overlays cannot be found. -/
inductive LayerFails (fs : FileSystem) (layout : Layout) (dir : Path) (name : String) :
    Failure Error → Prop
  | missing (h : fs.isDirectory (dir.child name) = false) :
    LayerFails fs layout dir name
      (.refused ⟨.missingLayer name, some (dir.child name).text⟩)
  | overlays {e : Failure Error} (hdir : fs.isDirectory (dir.child name) = true)
    (h : (overlays layout (dir.child name)).outcome fs = .error e) : LayerFails fs layout dir name e

/-- An add-on cannot be searched: its overlays cannot be found. -/
def AddOnFails (fs : FileSystem) (layout : Layout) (dir : Path) (name : String)
    (e : Failure Error) : Prop :=
  (overlays layout (dir.child name)).outcome fs = .error e

/-- A search finds the block of a directory and names its entries, or it fails and logs nothing. -/
structure LogsBlock (fs : FileSystem) (layout : Layout) (dir : Path) (fails : Failure Error → Prop)
    (s : Search (List Path)) : Prop where
  found : ∀ ps, s.outcome fs = .ok ps →
    WithOverlays fs layout dir ps ∧ directories (s.records fs) = namesOf ps
  failed : ∀ e, s.outcome fs = .error e → fails e ∧ s.records fs = []

/-- The records about a layer name its block, or fail before it. -/
theorem logsBlock_searchLayer (name : String) :
    LogsBlock fs layout (dir.child name) (LayerFails fs layout dir name)
      (searchLayer layout dir name) := by
  constructor
  · intro ps h
    rw [searchLayer, Program.outcome_isDirectory_bind, outcome_ite_stop_eq_ok] at h
    rw [searchLayer, Program.records_isDirectory_bind, h.1, if_pos rfl]
    exact ⟨outcome_block_eq_ok.1 h.2, directories_block h.2⟩
  · intro e h
    rw [searchLayer, Program.outcome_isDirectory_bind] at h
    rw [searchLayer, Program.records_isDirectory_bind]
    cases hdir : fs.isDirectory (dir.child name) with
    | false =>
      rw [hdir] at h
      obtain rfl : Failure.refused _ = e := Except.error.inj h
      exact ⟨.missing hdir, rfl⟩
    | true =>
      rw [hdir, if_pos rfl, outcome_block_eq_error] at h
      exact ⟨.overlays hdir h, records_block_of_error h⟩

theorem logsBlock_addOn (name : String) :
    LogsBlock fs layout (dir.child name) (AddOnFails fs layout dir name)
      (block layout .addOn (dir.child name)) := by
  constructor
  · intro ps h
    exact ⟨outcome_block_eq_ok.1 h, directories_block h⟩
  · intro e h
    have hfails := outcome_block_eq_error.1 h
    exact ⟨hfails, records_block_of_error hfails⟩

/-- Directories are searched up to one that fails. The blocks of those before it are complete. -/
inductive BrokenOff (fs : FileSystem) (layout : Layout) (dir : Path) (fails : String → Prop) :
    List String → List Path → Prop
  | intro {before : List String} {name : String} {after : List String} {done : List Path}
    (complete : Blocks (WithOverlays fs layout) (before.map dir.child) done) (h : fails name) :
    BrokenOff fs layout dir fails (before ++ name :: after) done

section InTurn

variable {fails : String → Failure Error → Prop} {visit : String → Search (List Path)}
  (hvisit : ∀ name, LogsBlock fs layout (dir.child name) (fails name) (visit name))

include hvisit

/-- A search in turn finds a block for each name, and its trail names them all. -/
theorem blocks_of_inTurn (h : (inTurn visit names).outcome fs = .ok paths) :
    Blocks (WithOverlays fs layout) (names.map dir.child) paths ∧
      directories ((inTurn visit names).records fs) = namesOf paths := by
  refine ⟨?_, directories_inTurn (fun name _ ps hps => ((hvisit name).found ps hps).2) h⟩
  induction names generalizing paths with
  | nil => exact blocks_nil_iff.2 (Program.outcome_pure_eq_ok.1 h)
  | cons name rest ih =>
    obtain ⟨first, others, hfirst, hothers, rfl⟩ := Program.outcome_inTurn_cons_eq_ok.1 h
    have hblock := ((hvisit name).found first hfirst).1
    exact blocks_cons_iff.2 ⟨first, others, hblock, ih hothers, rfl⟩

/-- A search in turn that fails has a trail up to the failure. -/
theorem brokenOff_of_inTurn (h : (inTurn visit names).outcome fs = .error e) :
    ∃ done, BrokenOff fs layout dir (fails · e) names done ∧
      directories ((inTurn visit names).records fs) = namesOf done := by
  obtain ⟨before, name, after, done, rfl, hbefore, hname, hrecords⟩ :=
    Program.exists_of_inTurn_eq_error h
  obtain ⟨hcomplete, hdirectories⟩ := blocks_of_inTurn hvisit hbefore
  obtain ⟨hfails, hnone⟩ := (hvisit name).failed e hname
  refine ⟨done, .intro hcomplete hfails, ?_⟩
  rw [hrecords, hnone, List.append_nil, hdirectories]

end InTurn

theorem directories_layerBlocks (h : (layerBlocks layout dir names).outcome fs = .ok paths) :
    directories ((layerBlocks layout dir names).records fs) = namesOf paths := by
  rw [layerBlocks_eq_inTurn] at h ⊢
  exact (blocks_of_inTurn logsBlock_searchLayer h).2

/-! ## Add-ons -/

/-- The add-ons in a directory cannot be searched: they cannot be listed, or one of them fails. -/
inductive AddOnsFail (fs : FileSystem) (layout : Layout) (dir : Path) :
    Failure Error → List Path → Prop
  | unlisted {reason : String} (h : fs.subdirectories dir = .error reason) :
    AddOnsFail fs layout dir (.refused ⟨.unlistedAddOns, some dir.text⟩) []
  | brokenOff {names : List String} {e : Failure Error} {done : List Path}
    (listing : fs.subdirectories dir = .ok names)
    (h : BrokenOff fs layout dir (AddOnFails fs layout dir · e) (Text.sort names) done) :
    AddOnsFail fs layout dir e done

theorem records_subdirectories_bind {names : List String} {cause : String → Error}
    {f : List String → Search (List Path)} (h : fs.subdirectories dir = .ok names) :
    (Program.subdirectories dir cause >>= f).records fs = (f names).records fs :=
  records_bind_of_ok (Program.outcome_subdirectories_eq_ok.2 h)

theorem directories_addOns (h : (addOns layout dir).outcome fs = .ok paths) :
    directories ((addOns layout dir).records fs) = namesOf paths := by
  rw [addOns, Program.records_isDirectory_bind]
  cases outcome_addOns_eq_ok.1 h with
  | noDirectory absent =>
    rw [absent]
    rfl
  | @listed names _ isDirectory listing blocks =>
    rw [isDirectory, if_pos rfl, records_subdirectories_bind listing, addOnBlocks_eq_inTurn]
    have hblocks := outcome_addOnBlocks_eq_ok.2 blocks
    rw [addOnBlocks_eq_inTurn] at hblocks
    exact (blocks_of_inTurn logsBlock_addOn hblocks).2

/-- Add-ons fail with a trail up to the failure. -/
theorem addOns_fail (h : (addOns layout dir).outcome fs = .error e) :
    ∃ done, fs.isDirectory dir = true ∧ AddOnsFail fs layout dir e done ∧
      directories ((addOns layout dir).records fs) = namesOf done := by
  rw [addOns, Program.outcome_isDirectory_bind] at h
  rw [addOns, Program.records_isDirectory_bind]
  cases hdir : fs.isDirectory dir with
  | false =>
    rw [hdir] at h
    cases h
  | true =>
    rw [hdir, if_pos rfl] at h
    rw [if_pos rfl]
    cases hlisting : fs.subdirectories dir with
    | error reason =>
      -- nothing is logged before the listing, so there is nothing that was complete
      have houtcome (cause : String → Error) : (Program.subdirectories dir cause).outcome fs =
          .error (.refused (cause reason)) := by
        rw [Program.subdirectories, Program.outcome, FileSystem.answer, hlisting]
        rfl
      rw [Program.outcome_bind, houtcome] at h
      obtain rfl := Except.error.inj h
      refine ⟨[], rfl, .unlisted hlisting, ?_⟩
      rw [records_bind_of_error (houtcome _)]
      rfl
    | ok names =>
      rw [Program.outcome_bind, Program.outcome_subdirectories_eq_ok.2 hlisting] at h
      change (addOnBlocks layout dir (Text.sort names)).outcome fs = _ at h
      rw [addOnBlocks_eq_inTurn] at h
      rw [records_subdirectories_bind hlisting, addOnBlocks_eq_inTurn]
      obtain ⟨done, hbroken, hdirectories⟩ := brokenOff_of_inTurn logsBlock_addOn h
      exact ⟨done, rfl, .brokenOff hlisting hbroken, hdirectories⟩

/-! ## Roots -/

/-- The search from a root fails after the blocks of some of its layers and add-ons: its structure
cannot be found, or else a layer or its add-ons cannot be searched. -/
inductive Stopped (fs : FileSystem) (layout : Layout) (root : Path) (e : Failure Error) :
    List Path → Prop
  | structure (h : (structureOf layout root).outcome fs = .error e) : Stopped fs layout root e []
  | layers {s : Structure} {done : List Path} (found : Found fs layout root (some s))
    (h : BrokenOff fs layout s.layersDir (LayerFails fs layout s.layersDir · e) s.layers done) :
    Stopped fs layout root e done
  | addOns {s : Structure} {layers done : List Path} (found : Found fs layout root (some s))
    (complete : Blocks (WithOverlays fs layout) (s.layers.map s.layersDir.child) layers)
    (isDirectory : fs.isDirectory s.addOnsDir = true)
    (h : AddOnsFail fs layout s.addOnsDir e done) : Stopped fs layout root e (layers ++ done)

/-- Records about a structure leave no trail. -/
theorem directories_structureOf : directories ((structureOf layout root).records fs) = [] :=
  directories_eq_nil fun r hr => (Program.does_logs_iff.1 does_structureOf r hr).directory?_eq_none

/-- The root is named first, and what comes after its structure is found is named after it. -/
theorem directories_searchRoot {found : Option Structure}
    (h : (structureOf layout root).outcome fs = .ok found)
    (f : Option Structure → Search (List Path)) :
    directories ((Program.note (rootRecord root) >>= fun _ => structureOf layout root >>= f).records
      fs) = .str root.text :: directories ((f found).records fs) := by
  rw [Program.records_note_bind, records_bind_of_ok h, directories_cons directory?_rootRecord,
    directories_append, directories_structureOf, List.nil_append]

/-- The trail of a root names its search path. -/
theorem directories_searchRoot_of_ok (h : (searchRoot layout root).outcome fs = .ok paths) :
    directories ((searchRoot layout root).records fs) = namesOf paths := by
  have hpath : RootPath fs layout root paths :=
    outcome_resolveRoot_eq_ok.1 ((Program.outcome_within _ _).trans h)
  cases hpath with
  | plain found =>
    have hfound := outcome_structureOf_eq_ok.2 found
    exact directories_searchRoot hfound _
  | @layered s layers more found isDirectory blocks addOns =>
    have hfound := outcome_structureOf_eq_ok.2 found
    have hlayers := outcome_layerBlocks_eq_ok.2 ⟨isDirectory, blocks⟩
    have hmore := outcome_addOns_eq_ok.2 addOns
    refine (directories_searchRoot hfound _).trans ?_
    rw [records_bind_of_ok hlayers, records_bind_of_ok hmore, directories_append,
      directories_append, directories_layerBlocks hlayers, directories_addOns hmore, namesOf_cons,
      namesOf_append]
    exact congrArg (_ :: _ ++ ·) (List.append_nil _)

/-- The trail of a root that fails names the root and what was found before the failure. -/
theorem searchRoot_stopped (h : (searchRoot layout root).outcome fs = .error e) :
    ∃ done, Stopped fs layout root e done ∧
      directories ((searchRoot layout root).records fs) = namesOf (root :: done) := by
  rw [searchRoot, outcome_logEntry_bind, Program.outcome_bind_eq_error] at h
  rcases h with hstructure | ⟨_ | s, hfound, h⟩
  · refine ⟨[], .structure hstructure, ?_⟩
    have hrecords : (searchRoot layout root).records fs =
        rootRecord root :: (structureOf layout root).records fs :=
      congrArg (_ :: ·) (records_bind_of_error hstructure)
    rw [hrecords, directories_cons directory?_rootRecord, directories_structureOf]
    rfl
  · cases h
  -- the search goes on to the layers and then to the add-ons, and either of them may fail
  · have found := outcome_structureOf_eq_ok.1 hfound
    have hall := directories_searchRoot hfound
    rcases Program.outcome_bind_eq_error.1 h with hlayers | ⟨layers, hlayers, h⟩
    · have hbroken := hlayers
      rw [layerBlocks_eq_inTurn] at hbroken
      obtain ⟨done, hbroken, hdirectories⟩ := brokenOff_of_inTurn logsBlock_searchLayer hbroken
      refine ⟨done, .layers found hbroken, (hall _).trans ?_⟩
      rw [records_bind_of_error hlayers, layerBlocks_eq_inTurn, hdirectories]
      rfl
    · rcases Program.outcome_bind_eq_error.1 h with hmore | ⟨more, -, h⟩
      · obtain ⟨done, hdir, hfail, hdirectories⟩ := addOns_fail hmore
        obtain ⟨-, hblocks⟩ := outcome_layerBlocks_eq_ok.1 hlayers
        refine ⟨layers ++ done, .addOns found hblocks hdir hfail, (hall _).trans ?_⟩
        rw [records_bind_of_ok hlayers, records_bind_of_error hmore, directories_append,
          directories_layerBlocks hlayers, hdirectories, namesOf_cons, namesOf_append]
      · cases h

end ModulePath.Layers
