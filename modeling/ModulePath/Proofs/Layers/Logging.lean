import ModulePath.FileSystem.Tree
import ModulePath.Proofs.Layers.Trail
import ModulePath.Proofs.Log.Stack
import ModulePath.Proofs.Value.Parts

/-!
# The log trail of all roots

All records of a root carry the root: it is entered as a context before its search path is found,
and left however that ends (`runRoots`). So the loggers are as they were after the search from
several roots, and what is logged later carries no root (`resolve_trail`). The records that name
directories name the entries of the search path in order, and if the search fails, those of the
roots before the one that it failed at, this root, and what was complete of it.
-/

set_option autoImplicit false

namespace ModulePath.Layers

open Log (Logging valueOf?)
open Program (Does does_pure does_refuse does_note does_isDirectory does_subdirectories inTurn
  records_bind_of_ok records_bind_of_error)

variable {fs : FileSystem} {layout : Layout} {dir root : Path} {role : Role} {names : List String}
  {paths : List Path} {e : Failure Error}

/-! ## Records of a root -/

/-- The fields that records have outside of the context of a root. -/
def fieldNames : List String := ["directory", "kind", "file", "layers", "layer"]

/-- A record of a search, outside of the context of its root. -/
structure Bare (r : Log.Record) : Prop where
  logger : r.logger = loggerName
  level : r.level ≠ .info
  plain : r.exception = false
  merged : Log.Context.update [] r.context = r.context
  texts : ∀ e ∈ r.context, e.2.IsText
  fields : ∀ key ∈ r.context.keys, key ∈ fieldNames

/-- A record with texts in its known fields is bare. -/
theorem bare_recordOf {entry : Log.Entry} (hlevel : entry.level ≠ .info)
    (htexts : ∀ e ∈ entry.fields, e.2.IsText)
    (hfields : ∀ key ∈ entry.fields.keys, key ∈ fieldNames) : Bare (recordOf entry) where
  logger := rfl
  level := hlevel
  plain := rfl
  merged := Log.Context.update_update_nil [] entry.fields
  texts e he := htexts e ((Log.Context.mem_update he).resolve_left List.not_mem_nil)
  fields key hkey := by
    have hmem := (Log.Context.mem_keys_update.1 hkey).resolve_left List.not_mem_nil
    exact hfields key hmem

theorem bare_overlayRecord (p : Path) : Bare (overlayRecord role p) := by
  refine bare_recordOf nofun (by simp [pathField, Value.IsText]) ?_
  change ∀ key ∈ ["directory", "kind"], key ∈ fieldNames
  decide

theorem bare_addedRecord : Bare (addedRecord role dir) := by
  refine bare_recordOf nofun (by simp [pathField, Value.IsText]) ?_
  change ∀ key ∈ ["directory"], key ∈ fieldNames
  decide

theorem bare_rootRecord : Bare (rootRecord root) := by
  refine bare_recordOf nofun (by simp [pathField, Value.IsText]) ?_
  change ∀ key ∈ ["directory"], key ∈ fieldNames
  decide

/-- Records about a structure are bare. -/
theorem IsStructureRecord.bare {file : Path} {r : Log.Record} (h : IsStructureRecord file r) :
    Bare r := by
  cases h with
  | repeated name =>
    refine bare_recordOf nofun (by simp [duplicateEntry, Value.IsText]) ?_
    change ∀ key ∈ ["layer"], key ∈ fieldNames
    decide
  | conf layers =>
    refine bare_recordOf nofun (by simp [pathField, Value.IsText]) ?_
    change ∀ key ∈ ["file", "layers"], key ∈ fieldNames
    decide

theorem bare_logOverlays (ps : List Path) : Does fs (Event.Logs Bare) (logOverlays role ps) := by
  induction ps with
  | nil => exact does_pure ()
  | cons p rest ih => exact (does_note (bare_overlayRecord p)).bind fun _ _ => ih

/-- Only bare records are written about a directory. -/
theorem bare_block : Does fs (Event.Logs Bare) (block layout role dir) := by
  have hoverlays : Does fs (Event.Logs Bare) (overlays layout dir) :=
    does_overlays.imp fun _ => Event.Logs.imp fun _ => False.elim
  refine hoverlays.bind fun paths _ => (bare_logOverlays paths).bind fun _ _ => ?_
  exact (does_note bare_addedRecord).bind fun _ _ => does_pure _

theorem bare_layerBlocks (names : List String) :
    Does fs (Event.Logs Bare) (layerBlocks layout dir names) := by
  rw [layerBlocks_eq_inTurn]
  refine .inTurn (fun name => ?_) names
  exact (does_isDirectory trivial).bind fun _ _ => .ite bare_block (does_refuse _)

theorem bare_addOns : Does fs (Event.Logs Bare) (addOns layout dir) := by
  refine (does_isDirectory trivial).bind fun _ _ => .ite ?_ (does_pure [])
  refine (does_subdirectories trivial).bind fun names _ => ?_
  rw [addOnBlocks_eq_inTurn]
  exact .inTurn (fun _ => bare_block) _

/-- Only bare records are written about a root. -/
theorem bare_searchRoot : Does fs (Event.Logs Bare) (searchRoot layout root) := by
  have hstructure : Does fs (Event.Logs Bare) (structureOf layout root) :=
    does_structureOf.imp fun _ => Event.Logs.imp fun _ => IsStructureRecord.bare
  refine (does_note bare_rootRecord).bind fun _ _ => hstructure.bind fun found _ => ?_
  cases found with
  | none => exact does_pure _
  | some s => exact (bare_layerBlocks _).bind fun _ _ => bare_addOns.bind fun _ _ => does_pure _

/-- A record of the search from a root: it carries the root, and it is no summary. -/
structure OfRoot (root : Path) (r : Log.Record) : Prop where
  logger : r.logger = loggerName
  level : r.level ≠ .info
  root : valueOf? "root" r.context = some (.str root.text)

/-- A record that is emitted as it is where there is no context. -/
structure Emittable (r : Log.Record) : Prop where
  logger : r.logger = loggerName
  plain : r.exception = false
  merged : Log.Context.update [] r.context = r.context
  written : r.context.hasText = true
  admits : Log.Registry.Admits r.context

/-- A bare record becomes one about a root within the context of the root. -/
theorem Bare.ofRoot {r : Log.Record} (h : Bare r) :
    OfRoot root (r.within [pathField "root" root]) where
  logger := h.logger
  level := h.level
  root := by
    have hnone : valueOf? "root" r.context = none := by
      apply Log.Context.valueOf?_eq_none
      intro hmem
      exact absurd (h.fields _ hmem) (by decide)
    rw [Log.Record.within, Log.Context.valueOf?_update, h.merged, hnone]
    rfl

/-- A bare record can be emitted within the context of a root. -/
theorem Bare.emittable {r : Log.Record} (h : Bare r) :
    Emittable (r.within [pathField "root" root]) where
  logger := h.logger
  plain := h.plain
  merged := Log.Context.update_update_frame [] _ _
  written := by
    refine List.all_eq_true.2 fun e he => Value.hasText_of_isText ?_
    rcases Log.Context.mem_update he with he | he
    · rw [List.mem_singleton.1 he]
      exact ⟨root.text, rfl⟩
    · exact h.texts e he
  admits key hkey := by
    rcases Log.Context.mem_keys_update.1 hkey with hkey | hkey
    · obtain rfl : key = "root" := List.mem_singleton.1 hkey
      decide
    · have hreserved : ∀ key ∈ fieldNames, key ∉ Log.reservedFields := by decide
      exact hreserved key (h.fields key hkey)

/-- The context of a root names no directory. -/
theorem Bare.directory?_within {r : Log.Record} (h : Bare r) :
    directory? (r.within [pathField "root" root]) = directory? r := by
  have hnone : valueOf? "directory" (Log.Context.update [] [pathField "root" root]) = none := rfl
  rw [directory?, directory?, Log.Record.within, Log.Context.valueOf?_update, h.merged, hnone,
    Option.or_none]

/-- The records about a root are those of its search, each within the context of the root. -/
theorem records_resolveRoot : (resolveRoot layout root).records fs =
    ((searchRoot layout root).records fs).map (Log.Record.within [pathField "root" root]) :=
  Program.records_within _ _

theorem directories_resolveRoot :
    directories ((resolveRoot layout root).records fs) =
      directories ((searchRoot layout root).records fs) := by
  rw [records_resolveRoot, directories, directories, List.filterMap_map]
  apply List.filterMap_congr
  intro r hr
  exact (Program.does_logs_iff.1 bare_searchRoot r hr).directory?_within

/-- All records about a root are within its context. -/
theorem ofRoot_records :
    ∀ r ∈ (resolveRoot layout root).records fs, OfRoot root r ∧ Emittable r := by
  rw [records_resolveRoot]
  refine List.forall_mem_map.2 fun r hr => ?_
  have hbare : Bare r := Program.does_logs_iff.1 bare_searchRoot r hr
  exact ⟨hbare.ofRoot, hbare.emittable⟩

/-! ## The whole search -/

/-- What is logged when all search paths are found. -/
def resolvedRecord (n : Nat) : Log.Record :=
  recordOf ⟨.info, "Resolved layered module path", [Log.countField "entries" n]⟩

/-- All records of a list are of a root. -/
def RootTrail (root : Path) (trail : List Log.Record) : Prop := ∀ r ∈ trail, OfRoot root r

theorem blocks_flatMap {α β : Type} (f : α → List β) (as : List α) :
    Blocks (fun a bs => bs = f a) as (as.flatMap f) := by
  induction as with
  | nil => exact blocks_nil_iff.2 rfl
  | cons a as ih => exact blocks_cons_iff.2 ⟨f a, as.flatMap f, rfl, ih, List.flatMap_cons⟩

/-- Where all roots are resolved, there is a trail for each. -/
theorem rootTrails_of_ok {roots : List Path}
    (h : (resolveRoots layout roots).outcome fs = .ok paths) :
    Blocks RootTrail roots ((resolveRoots layout roots).records fs) ∧
      directories ((resolveRoots layout roots).records fs) = namesOf paths := by
  rw [resolveRoots_eq_inTurn] at h ⊢
  constructor
  · rw [Program.records_inTurn h]
    refine (blocks_flatMap _ roots).imp ?_
    rintro root _ rfl r hr
    exact (ofRoot_records r hr).1
  · refine directories_inTurn (fun root _ ps hps => ?_) h
    rw [directories_resolveRoot]
    exact directories_searchRoot_of_ok ((Program.outcome_within _ _).symm.trans hps)

/-- Where a root fails, there is a trail for each root before it and a trail up to the failure. -/
theorem rootTrails_of_error {roots : List Path}
    (h : (resolveRoots layout roots).outcome fs = .error e) :
    ∃ earlier root later paths done trail last, roots = earlier ++ root :: later ∧
      (resolveRoots layout earlier).outcome fs = .ok paths ∧ Stopped fs layout root e done ∧
      (resolveRoots layout roots).records fs = trail ++ last ∧ Blocks RootTrail earlier trail ∧
      RootTrail root last ∧ directories trail = namesOf paths ∧
      directories last = namesOf (root :: done) := by
  rw [resolveRoots_eq_inTurn] at h
  obtain ⟨earlier, root, later, paths, rfl, hearlier, hroot, hrecords⟩ :=
    Program.exists_of_inTurn_eq_error h
  rw [← resolveRoots_eq_inTurn] at hearlier
  obtain ⟨htrail, hdirectories⟩ := rootTrails_of_ok hearlier
  obtain ⟨done, hstopped, hlast⟩ :=
    searchRoot_stopped ((Program.outcome_within _ _).symm.trans hroot)
  rw [← resolveRoots_eq_inTurn, ← resolveRoots_eq_inTurn] at hrecords
  refine ⟨earlier, root, later, paths, done, _, _, rfl, hearlier, hstopped, hrecords, htrail,
    fun r hr => (ofRoot_records r hr).1, hdirectories, ?_⟩
  rw [directories_resolveRoot, hlast]

/-- A success is recorded last. -/
theorem records_resolve_of_ok {roots : List Path}
    (h : (resolve layout roots).outcome fs = .ok paths) :
    (resolveRoots layout roots).outcome fs = .ok paths ∧
      (resolve layout roots).records fs =
        (resolveRoots layout roots).records fs ++ [resolvedRecord paths.length] := by
  obtain ⟨found, hfound, hpaths⟩ := Program.outcome_bind_eq_ok.1 h
  rw [outcome_logEntry_bind] at hpaths
  obtain rfl := Program.outcome_pure_eq_ok.1 hpaths
  exact ⟨hfound, records_bind_of_ok hfound⟩

/-- A failure is recorded by no record of its own. -/
theorem records_resolve_of_error {roots : List Path}
    (h : (resolve layout roots).outcome fs = .error e) :
    (resolveRoots layout roots).outcome fs = .error e ∧
      (resolve layout roots).records fs = (resolveRoots layout roots).records fs := by
  rcases Program.outcome_bind_eq_error.1 h with hroots | ⟨found, -, hpure⟩
  · exact ⟨hroots, records_bind_of_error hroots⟩
  · rw [outcome_logEntry_bind] at hpure
    cases hpure

theorem emittable_resolvedRecord (n : Nat) : Emittable (resolvedRecord n) where
  logger := rfl
  plain := rfl
  merged := Log.Context.update_update_nil [] _
  written := rfl
  admits key hkey := by
    obtain rfl : key = "entries" := List.mem_singleton.1 hkey
    decide

/-- Every record of a resolution can be emitted. -/
theorem emittable_records (fs : FileSystem) (layout : Layout) (roots : List Path) :
    ∀ r ∈ (resolve layout roots).records fs, Emittable r := by
  have hroots : Does fs (Event.Logs Emittable) (resolveRoots layout roots) := by
    rw [resolveRoots_eq_inTurn]
    refine .inTurn (fun root => Program.does_logs_iff.2 fun r hr => ?_) roots
    exact (ofRoot_records r hr).2
  refine Program.does_logs_iff.1 (hroots.bind fun paths _ => ?_)
  exact (does_note (emittable_resolvedRecord paths.length)).bind fun _ _ => does_pure _

/-! ## Running on loggers -/

/-- The search from roots as it runs on loggers: every root is a context that is entered before its
search path is found and left again, however that ends. -/
def runRoots (fs : FileSystem) (layout : Layout) :
    List Path → Logging → Outcome Error (List Path) × Logging
  | [], s => (.ok [], s)
  | root :: rest, s =>
    match Logging.runInside fs loggerName [pathField "root" root] (searchRoot layout root) s with
    | (.error e, s) => (.error e, s)
    | (.ok first, s) =>
      match runRoots fs layout rest s with
      | (.error e, s) => (.error e, s)
      | (.ok others, s) => (.ok (first ++ others), s)

/-- The whole search as it runs on loggers. -/
def runResolve (fs : FileSystem) (layout : Layout) (roots : List Path) (s : Logging) :
    Outcome Error (List Path) × Logging :=
  match runRoots fs layout roots s with
  | (.error e, s) => (.error e, s)
  | (.ok paths, s) => (.ok paths, s.record (resolvedRecord paths.length))

theorem runRoots_eq (roots : List Path) (s : Logging)
    (hchannel : ∃ channel, s.loggers.channel? loggerName = .ok channel) :
    runRoots fs layout roots s = (resolveRoots layout roots).run (Logging.world fs) s := by
  induction roots generalizing s with
  | nil => rfl
  | cons root rest ih =>
    have hadmits : Log.Registry.Admits [pathField "root" root] := by
      change ∀ key ∈ ["root"], key ∉ Log.reservedFields
      decide
    have hroot : (resolveRoot layout root).run (Logging.world fs) s =
        Logging.runInside fs loggerName [pathField "root" root] (searchRoot layout root) s :=
      Logging.run_within hchannel hadmits _
    have hloggers : ((resolveRoot layout root).run (Logging.world fs) s).2.loggers = s.loggers :=
      Logging.loggers_run _ s
    rw [runRoots, ← hroot, resolveRoots, Program.run_bind]
    cases hrun : (resolveRoot layout root).run (Logging.world fs) s with
    | mk r s' =>
      rw [hrun] at hloggers
      cases r with
      | error e => rfl
      | ok first =>
        dsimp only at hloggers ⊢
        -- the loggers are as they were, so the rest can enter its contexts too
        rw [← hloggers] at hchannel
        rw [ih s' hchannel, Program.run_bind]
        cases (resolveRoots layout rest).run (Logging.world fs) s' with
        | mk r s'' =>
          cases r with
          | error e => rfl
          | ok others => rfl

/-- A resolution with loggers writes the records that the search says. -/
theorem runResolve_eq (roots : List Path) (s : Logging)
    (hchannel : ∃ channel, s.loggers.channel? loggerName = .ok channel) :
    runResolve fs layout roots s = (resolve layout roots).run (Logging.world fs) s := by
  rw [runResolve, runRoots_eq roots s hchannel, resolve, Program.run_bind]
  cases (resolveRoots layout roots).run (Logging.world fs) s with
  | mk r s' =>
    cases r with
    | error e => rfl
    | ok found => rfl

/-- Where the logger lets all levels pass and there is no context around the search, its records are
emitted as they are. -/
theorem runResolve_of_outside {logging : Logging}
    (hchannel : logging.loggers.channel? loggerName = .ok ⟨.debug, true⟩)
    (hframes : logging.loggers.frames = []) (roots : List Path) :
    runResolve fs layout roots logging =
      ((resolve layout roots).outcome fs,
        { logging with emitted := logging.emitted ++ (resolve layout roots).records fs }) := by
  rw [runResolve_eq roots logging ⟨_, hchannel⟩]
  apply Logging.run_of_emitted
  intro r hr
  have hemittable := emittable_records fs layout roots r hr
  refine Log.Registry.take_eq_self ?_ hframes hemittable.admits hemittable.written
    hemittable.merged hemittable.plain
  rw [hemittable.logger, hchannel]

/-- The debug records of a search name the entries of its answer in order, and a last record counts
them. A search that fails has named the entries of the roots before the one that it failed at, this
root, and what was complete of it. All records of a root carry the root, and there is no summary but
the last record of a search that succeeds.

When the search runs on loggers that let all levels pass, with no context around it, it emits these
records as they are. It leaves the loggers as they were however it ends, so that later calls carry
no root. -/
theorem resolve_trail (fs : FileSystem) (layout : Layout) (roots : List Path) :
    (∀ paths, (resolve layout roots).outcome fs = .ok paths →
      directories ((resolve layout roots).records fs) = namesOf paths ∧
        ∃ trail, (resolve layout roots).records fs = trail ++ [resolvedRecord paths.length] ∧
          Blocks RootTrail roots trail) ∧
    (∀ e, (resolve layout roots).outcome fs = .error e →
      ∃ earlier root later paths done trail last, roots = earlier ++ root :: later ∧
        (resolveRoots layout earlier).outcome fs = .ok paths ∧ Stopped fs layout root e done ∧
        directories ((resolve layout roots).records fs) = namesOf (paths ++ root :: done) ∧
        (resolve layout roots).records fs = trail ++ last ∧ Blocks RootTrail earlier trail ∧
        RootTrail root last) ∧
    ∀ logging : Logging, logging.loggers.channel? loggerName = .ok ⟨.debug, true⟩ →
      logging.loggers.frames = [] →
        runResolve fs layout roots logging =
          ((resolve layout roots).outcome fs,
            { logging with emitted := logging.emitted ++ (resolve layout roots).records fs }) ∧
        ∀ (name : String) (entry : Log.Entry) (rs : List Log.Record), "root" ∉ entry.fields.keys →
          (runResolve fs layout roots logging).2.loggers.emit name entry = .ok rs →
            ∀ r ∈ rs, valueOf? "root" r.context = none := by
  refine ⟨fun paths h => ?_, fun e h => ?_, fun logging hchannel hframes => ?_⟩
  · obtain ⟨hroots, hrecords⟩ := records_resolve_of_ok h
    obtain ⟨htrail, hdirectories⟩ := rootTrails_of_ok hroots
    refine ⟨?_, _, hrecords, htrail⟩
    rw [hrecords, directories_append, hdirectories]
    exact List.append_nil _
  · obtain ⟨hroots, hrecords⟩ := records_resolve_of_error h
    obtain ⟨earlier, root, later, paths, done, trail, last, hsplit, hearlier, hstopped, hall,
      htrail, hlast, hnamed, hnamedLast⟩ := rootTrails_of_error hroots
    refine ⟨earlier, root, later, paths, done, trail, last, hsplit, hearlier, hstopped, ?_,
      hrecords.trans hall, htrail, hlast⟩
    rw [hrecords, hall, directories_append, hnamed, hnamedLast, namesOf_append]
  -- the loggers are left as they were, so a later call knows nothing of the roots
  · have hrun : runResolve fs layout roots logging = _ :=
      runResolve_of_outside hchannel hframes roots
    refine ⟨hrun, fun name entry rs hkey h => ?_⟩
    rw [hrun] at h
    exact Log.Registry.valueOf?_of_emit hframes hkey h

/-- A root with two layers, of which the second one registers an overlay that is missing. -/
def brokenTree : Tree :=
  ((Tree.makeDirectory {} (.ofText "/m/layers/a")).makeDirectory (.ofText "/m/layers/b")).write
    (.ofText "/m/layers/b/.overlays/.overlays") "gone\n"

/-- Loggers of which the one of layered modules lets all levels pass. -/
def openLogging : Logging := { loggers := { channels := [(loggerName, ⟨.debug, true⟩)] } }

/-- The first root has no layers. The search from it succeeds; the one that goes on to the second
root fails and has named both roots and a layer. -/
theorem trail_brokenTree :
    (directories ((resolve .default [.ofText "/n"]).records brokenTree.fileSystem) =
        namesOf [.ofText "/n"] ∧
      ∃ trail, (resolve .default [.ofText "/n"]).records brokenTree.fileSystem =
        trail ++ [resolvedRecord 1] ∧ Blocks RootTrail [.ofText "/n"] trail) ∧
    (∃ earlier root later paths done, [.ofText "/n", .ofText "/m"] = earlier ++ root :: later ∧
      Stopped brokenTree.fileSystem .default root
        (.refused ⟨.missingOverlay "gone", some "/m/layers/b/.overlays/gone"⟩) done ∧
      directories ((resolve .default [.ofText "/n", .ofText "/m"]).records brokenTree.fileSystem) =
        namesOf (paths ++ root :: done)) ∧
    (directories ((resolve .default [.ofText "/n", .ofText "/m"]).records
      brokenTree.fileSystem)).map Value.display = ["/n", "/m", "/m/layers/a"] ∧
    (runResolve brokenTree.fileSystem .default [.ofText "/n", .ofText "/m"] openLogging).2.emitted =
      (resolve .default [.ofText "/n", .ofText "/m"]).records brokenTree.fileSystem := by
  have hok : (resolve .default [.ofText "/n"]).outcome brokenTree.fileSystem =
      .ok [.ofText "/n"] := by decide +kernel
  have hfails : (resolve .default [.ofText "/n", .ofText "/m"]).outcome brokenTree.fileSystem =
      .error (.refused ⟨.missingOverlay "gone", some "/m/layers/b/.overlays/gone"⟩) := by
    decide +kernel
  obtain ⟨hfirst, -, -⟩ := resolve_trail brokenTree.fileSystem .default [.ofText "/n"]
  obtain ⟨-, hboth, hruns⟩ :=
    resolve_trail brokenTree.fileSystem .default [.ofText "/n", .ofText "/m"]
  obtain ⟨earlier, root, later, paths, done, -, -, hsplit, -, hstopped, hnamed, -⟩ := hboth _ hfails
  obtain ⟨hrun, -⟩ := hruns openLogging rfl rfl
  refine ⟨hfirst _ hok, ⟨earlier, root, later, paths, done, hsplit, hstopped, hnamed⟩, ?_, ?_⟩
  · decide +kernel
  · rw [hrun]
    rfl

end ModulePath.Layers
