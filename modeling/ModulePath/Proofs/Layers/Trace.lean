import ModulePath.Proofs.Layers.Success
import ModulePath.Proofs.Program.Settles
import ModulePath.Proofs.Program.Trace

/-!
# What the parts of the search for layers do

Looking overlays up reads at most their registration and logs nothing (`reads_overlays`,
`records_overlays`). A block logs its entries once all of them are found (`records_block_of_ok`),
and nothing if one is missing. Finding the structure of a root reads at most its configuration file
(`reads_structureOf`), and logs nothing but that names are repeated and what the file says
(`does_structureOf`).
-/

set_option autoImplicit false

namespace ModulePath.Layers

open Program (Does does_pure does_refuse does_note does_isDirectory does_isReadable does_isPresent
  does_subdirectories does_text)

variable {fs : FileSystem} {layout : Layout} {dir root registration file : Path} {role : Role}
  {paths : List Path} {e : Failure Error}

/-- The record of an entry outside all contexts. -/
abbrev recordOf (e : Log.Entry) : Log.Record := .ofEntry loggerName [] e

/-! ## Overlays -/

theorem does_overlayPaths (names : List String) :
    Does fs Event.IsLook (overlayPaths dir registration names) := by
  induction names with
  | nil => exact does_pure []
  | cons name rest ih =>
    rw [overlayPaths]
    cases nameFault? name with
    | some f => exact does_refuse _
    | none =>
      refine (does_isDirectory trivial).bind fun _ _ => .ite ?_ (does_refuse _)
      refine (does_isReadable trivial).bind fun _ _ => .ite ?_ (does_refuse _)
      exact ih.bind fun _ _ => does_pure _

/-- Whether the search for overlays gets as far as to their registration. -/
def opensRegistration (fs : FileSystem) (layout : Layout) (dir : Path) : Bool :=
  fs.contains (overlaysAt layout dir) &&
    (fs.isDirectory (overlaysAt layout dir) && fs.isReadable (overlaysAt layout dir)) &&
    (fs.contains (registrationAt layout dir) && fs.isReadable (registrationAt layout dir))

theorem reads_isUsable_bind {α : Type} (b : Bool) (p : Path) (f : Bool → Search α) :
    (if b then Program.isReadable p >>= f else pure false >>= f).reads fs =
      (f (b && fs.isReadable p)).reads fs := by
  cases b with
  | true => rfl
  | false => rfl

/-- The registration of a directory is read if it can be. -/
theorem reads_overlays :
    (overlays layout dir).reads fs =
      if opensRegistration fs layout dir then [registrationAt layout dir] else [] := by
  have htext (cause : String → Error) :
      (Program.text (registrationAt layout dir) cause >>= fun text =>
        overlayPaths (overlaysAt layout dir) (registrationAt layout dir)
          (registeredNames text)).reads fs = [registrationAt layout dir] := by
    rw [Program.reads_bind_of_unread fun text =>
      (does_overlayPaths _).imp fun _ => Event.IsLook.unread, Program.reads_text]
  unfold overlays opensRegistration
  rw [Program.reads_isPresent_bind]
  -- the tests in the order in which the program makes them; one that fails ends the search
  cases fs.contains (overlaysAt layout dir) with
  | false => rfl
  | true =>
    rw [if_pos rfl, Program.reads_isDirectory_bind, reads_isUsable_bind, Bool.true_and]
    cases fs.isDirectory (overlaysAt layout dir) && fs.isReadable (overlaysAt layout dir) with
    | false => rfl
    | true =>
      dsimp only
      rw [if_pos rfl, Program.reads_isPresent_bind, Bool.true_and]
      cases fs.contains (registrationAt layout dir) with
      | false => rfl
      | true =>
        rw [if_pos rfl, Program.reads_isReadable_bind, Bool.true_and]
        cases fs.isReadable (registrationAt layout dir) with
        | false => rfl
        | true => exact htext _

/-- Looking for overlays writes no record. -/
theorem does_overlays : Does fs (Event.Logs fun _ => False) (overlays layout dir) := by
  refine (does_isPresent trivial).bind fun _ _ => .ite ?_ (does_pure [])
  refine (does_isDirectory trivial).bind fun _ _ => .isUsable_bind trivial fun _ => ?_
  refine .ite ?_ (does_refuse _)
  refine (does_isPresent trivial).bind fun _ _ => .ite ?_ (does_pure [])
  refine (does_isReadable trivial).bind fun _ _ => .ite ?_ (does_refuse _)
  refine (does_text trivial).bind fun text _ => ?_
  exact (does_overlayPaths _).imp fun _ => Event.IsLook.logs _

theorem records_overlays : (overlays layout dir).records fs = [] := does_overlays.records_eq_nil

/-! ## Blocks -/

/-- What is logged for an overlay. -/
def overlayRecord (role : Role) (p : Path) : Log.Record :=
  recordOf ⟨.debug, "Added overlay", [pathField "directory" p, ("kind", .str role.text)]⟩

/-- What is logged for a layer or add-on itself. -/
def addedRecord (role : Role) (dir : Path) : Log.Record :=
  recordOf ⟨.debug, "Added " ++ role.text, [pathField "directory" dir]⟩

theorem outcome_logOverlays : (logOverlays role paths).outcome fs = .ok () := by
  induction paths with
  | nil => rfl
  | cons p rest ih => exact ih

/-- There is a record for each overlay. -/
theorem records_logOverlays :
    (logOverlays role paths).records fs = paths.map (overlayRecord role) := by
  induction paths with
  | nil => rfl
  | cons p rest ih => exact congrArg (overlayRecord role p :: ·) ih

theorem does_logOverlays : Does fs Event.Unread (logOverlays role paths) := by
  induction paths with
  | nil => exact does_pure ()
  | cons p rest ih => exact (does_note trivial).bind fun _ _ => ih

theorem reads_block : (block layout role dir).reads fs = (overlays layout dir).reads fs := by
  apply Program.reads_bind_of_unread
  intro paths
  refine does_logOverlays.bind fun _ _ => ?_
  exact (does_note trivial).bind fun _ _ => does_pure _

/-- The records about a directory that is found name its overlays first. -/
theorem records_block_of_ok (h : (overlays layout dir).outcome fs = .ok paths) :
    (block layout role dir).records fs =
      paths.map (overlayRecord role) ++ [addedRecord role dir] := by
  rw [block, Program.records_bind_of_ok h, records_overlays, List.nil_append,
    Program.records_bind_of_ok outcome_logOverlays, records_logOverlays]
  rfl

/-- A block ends in an error exactly if its overlays do, and then it logs nothing. -/
theorem outcome_block_eq_error :
    (block layout role dir).outcome fs = .error e ↔
      (overlays layout dir).outcome fs = .error e := by
  rw [block, Program.outcome_bind_eq_error]
  constructor
  · rintro (h | ⟨paths, -, h⟩)
    · exact h
    · rw [outcome_logOverlays_bind] at h
      cases h
  · exact .inl

/-- There is no record about a directory that fails. -/
theorem records_block_of_error (h : (overlays layout dir).outcome fs = .error e) :
    (block layout role dir).records fs = [] := by
  rw [block, Program.records_bind_of_error h, records_overlays]

/-! ## The structure of a root -/

/-- It is logged that a name is repeated. -/
def LogsRepeat (x : Event) : Prop := ∃ name, x = .logged (recordOf (duplicateEntry name))

theorem LogsRepeat.unread {x : Event} (h : LogsRepeat x) : x.Unread := by
  obtain ⟨name, rfl⟩ := h
  exact trivial

theorem does_checkPath (p : Option String) : Does fs LogsRepeat (Conf.checkPath p) := by
  unfold Conf.checkPath
  cases p.bind relativePathFault? with
  | some f => exact does_refuse _
  | none => exact does_pure ()

theorem does_addNames (rest names : List String) : Does fs LogsRepeat (addNames names rest) := by
  induction rest generalizing names with
  | nil => exact does_pure names
  | cons name rest ih =>
    rw [addNames]
    cases nameFault? name with
    | some f => exact does_refuse _
    | none => exact .ite ((does_note ⟨name, rfl⟩).bind fun _ _ => ih names) (ih _)

/-- Reading a configuration file does nothing but log that names are repeated. -/
theorem does_ofText (text : String) : Does fs LogsRepeat (Conf.ofText text) := by
  have hlayers : Does fs LogsRepeat (layerNames ((Properties.ofText text).get? "layers")) :=
    (does_addNames _ []).bind fun names _ => does_pure (withBase names)
  refine (does_checkPath _).bind fun _ _ => (does_checkPath _).bind fun _ _ => ?_
  exact hlayers.mapCause.bind fun _ _ => does_pure _

theorem does_discoveredStructure : Does fs Event.IsLook (discoveredStructure layout root) := by
  refine (does_isDirectory trivial).bind fun _ _ => .ite ?_ (does_pure none)
  refine (does_subdirectories trivial).bind fun names _ => ?_
  cases discoveryOrder names with
  | nil => exact does_pure none
  | cons name rest => exact does_pure _

/-- The configuration is read once. -/
theorem reads_configuredStructure : (configuredStructure layout root file).reads fs = [file] := by
  unfold configuredStructure
  rw [Program.reads_bind_of_unread, Program.reads_text]
  intro text
  have hconf : Does fs Event.Unread (Conf.ofText text) :=
    (does_ofText text).imp fun _ => LogsRepeat.unread
  refine hconf.mapCause.bind fun conf _ => ?_
  refine (does_isDirectory trivial).bind fun _ _ => .ite ?_ (does_refuse _)
  exact (does_note trivial).bind fun _ _ => does_pure _

theorem reads_structureOf :
    (structureOf layout root).reads fs =
      if fs.contains (root.child layout.configFile) then [root.child layout.configFile]
      else [] := by
  unfold structureOf
  rw [Program.reads_isPresent_bind]
  cases fs.contains (root.child layout.configFile) with
  | false => exact (does_discoveredStructure.imp fun _ => Event.IsLook.unread).reads_eq_nil
  | true =>
    rw [if_pos rfl, if_pos rfl, Program.reads_bind_of_unread fun _ => does_pure _,
      reads_configuredStructure]

/-- What is logged when a configuration file is read. -/
def confRecord (file : Path) (layers : List String) : Log.Record :=
  recordOf ⟨.debug, "Read layer configuration",
    [pathField "file" file, ("layers", .str (String.intercalate "," layers))]⟩

/-- A record that is logged while the structure of a root is found. -/
inductive IsStructureRecord (file : Path) : Log.Record → Prop
  | repeated (name : String) : IsStructureRecord file (recordOf (duplicateEntry name))
  | conf (layers : List String) : IsStructureRecord file (confRecord file layers)

theorem does_configuredStructure :
    Does fs (Event.Logs (IsStructureRecord file)) (configuredStructure layout root file) := by
  have hconf (text : String) :
      Does fs (Event.Logs (IsStructureRecord file)) (Conf.ofText text) := by
    refine (does_ofText text).imp ?_
    rintro _ ⟨name, rfl⟩
    exact .repeated name
  refine (does_text trivial).bind fun text _ => (hconf text).mapCause.bind fun conf _ => ?_
  refine (does_isDirectory trivial).bind fun _ _ => .ite ?_ (does_refuse _)
  exact (does_note (.conf conf.layers)).bind fun _ _ => does_pure _

/-- All records about a structure are of the known kinds. -/
theorem does_structureOf :
    Does fs (Event.Logs (IsStructureRecord (root.child layout.configFile)))
      (structureOf layout root) := by
  refine (does_isPresent trivial).bind fun _ _ => .ite ?_ ?_
  · exact does_configuredStructure.bind fun _ _ => does_pure _
  · exact does_discoveredStructure.imp fun _ => Event.IsLook.logs _

end ModulePath.Layers
