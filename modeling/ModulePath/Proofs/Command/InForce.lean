import ModulePath.BuiltIn
import ModulePath.FileSystem.Tree
import ModulePath.Log.Registry
import ModulePath.Proofs.Command.Run
import ModulePath.Proofs.Config.Sections

/-!
# Settings in force

A configuration that passes the check and names no log file can be put in force, whatever sources
it comes from, with one exception: a log level that is nothing passes the check, but is no level.
So a command line that comes so far goes on to its task or, with such a level, ends in a fault
(`configured_goes_on`).
-/

set_option autoImplicit false

namespace ModulePath

/-! ## Log settings -/

namespace Config.Store

variable {st : Store} {entries : Entries} {key : String}

/-- A field of the log settings. -/
def logField? (st : Store) (key : String) : Option Value :=
  (st.section? "logging").toOption.bind (Value.field? key)

/-- A field of the log section is a field of its entries. -/
theorem logField?_of_section (h : st.section? "logging" = .ok entries) :
    st.logField? key = Value.field? key entries := by
  rw [logField?, h]
  rfl

/-- No log file is named: what stands in its place is nothing, or an empty text. -/
def NamesNoLogFile (st : Store) : Prop := ∀ f, st.logField? "file" = some (.str f) → f = ""

/-- The log level is there, and is nothing. -/
def LevelIsNull (st : Store) : Prop := st.logField? "level" = some .null

/-- A file is named by a text that is not empty. -/
theorem namesNoLogFile_iff :
    ((st.logField? "file").bind text?).all (· = "") = true ↔ st.NamesNoLogFile := by
  unfold NamesNoLogFile
  cases st.logField? "file" with
  | none => simp
  | some v => cases v <;> simp [text?]

instance : DecidablePred NamesNoLogFile := fun _ => decidable_of_iff _ namesNoLogFile_iff

instance : DecidablePred LevelIsNull := fun st =>
  match h : st.logField? "level" with
  | some .null => .isTrue h
  | none | some (.bool _) | some (.int _) | some (.real _) | some (.str _) | some (.list _)
  | some (.tuple _) | some (.set _) | some (.dict _) => .isFalse fun hnull => by
    rw [LevelIsNull, h] at hnull
    cases hnull

end Config.Store

namespace Command

open Config (Store)

variable {st : Store} {entries : Config.Entries}

/-- A log file that is not named is none. -/
theorem logFile_eq_none (h : ∀ f, Value.field? "file" entries = some (.str f) → f = "") :
    ((Value.field? "file" entries).bind Config.text?).filter (fun f => !f.isEmpty) = none := by
  cases hfile : Value.field? "file" entries with
  | none => rfl
  | some v =>
    cases v with
    | str f =>
      obtain rfl : f = "" := h f hfile
      rfl
    | null | bool _ | int _ | real _ | list _ | tuple _ | set _ | dict _ => rfl

/-- A level that is null has no number. -/
theorem logSettings?_of_null (h : Value.field? "level" entries = some .null) :
    logSettings? entries = .error .value := by
  unfold logSettings?
  rw [h]
  rfl

/-- A checked level that is there and is not nothing is the name of a level. -/
theorem exists_level (hcheck : Config.checkLogging (.dict entries) = .ok ())
    (h : Value.field? "level" entries ≠ some .null) :
    ∃ level,
      Log.Level.ofValue? ((Value.field? "level" entries).getD (.str "INFO")) = .ok level := by
  cases hlevel : Value.field? "level" entries with
  | none => exact ⟨.info, by decide⟩
  | some v =>
    rcases Config.checkLogging_eq_ok hcheck v hlevel with rfl | ⟨s, level, rfl, hs⟩
    · exact absurd hlevel h
    · refine ⟨level, ?_⟩
      rw [Option.getD_some, Log.Level.ofValue?, hs]

/-! ## Putting settings in force -/

/-- The settings that a configuration puts in force: the cache can have its size, the layout is
usable, and the level can be set for all loggers, whichever are registered. -/
structure InForce (st : Store) (s : Session) : Prop where
  cache_eq : Cache.Settings.ofStore? st = .ok s.cache
  cache_check : s.cache.check = .ok ()
  layout_eq : ∃ places, Layers.LayoutOf.ofStore? st = .ok places ∧
    places.toLayout? = some s.layout
  layout_valid : s.layout.Valid
  loggers : ∃ entries, st.section? "logging" = .ok entries ∧ ∀ r : Log.Registry,
    ∃ r', r.configure ((Value.field? "level" entries).getD (.str "INFO")) = .ok r'

/-- The steps of putting settings in force, when all of them succeed. -/
theorem putInForce_eq_pure {s : Session} {log : LogSettings} {places : Layers.LayoutOf Value}
    (hlogging : st.section? "logging" = .ok entries) (hlog : logSettings? entries = .ok log)
    (hfile : log.file = none) (hcache : Cache.Settings.ofStore? st = .ok s.cache)
    (hcheck : s.cache.check = .ok ()) (hplaces : Layers.LayoutOf.ofStore? st = .ok places)
    (hlayout : places.toLayout? = some s.layout) : putInForce st = pure s := by
  simp only [putInForce, hlogging, hlog, hfile, hcache, hcheck, hplaces, hlayout,
    Outcome.mapCause, Program.ofFaulty_ok, Program.ofOutcome_ok, Program.pure_bind]

/-- A checked configuration can be put in force if it names no log file and its level is not
nothing. -/
theorem exists_putInForce (h : st.validate = .ok ()) (hfile : st.NamesNoLogFile)
    (hlevel : ¬ st.LevelIsNull) : ∃ s, InForce st s ∧ putInForce st = pure s := by
  obtain ⟨logging, hlogging, hloggingCheck⟩ := Config.exists_section_of_validate h .logging
  obtain ⟨cache, hcache, hcacheCheck⟩ := Config.exists_section_of_validate h .cache
  obtain ⟨layers, hlayers, hlayersCheck⟩ := Config.exists_section_of_validate h .layers
  -- each consumer, from the check of its section
  obtain ⟨level, hcoerced⟩ := exists_level hloggingCheck fun hnull =>
    hlevel ((Store.logField?_of_section hlogging).trans hnull)
  have hpositive : (Cache.Settings.ofEntries cache).check = .ok () :=
    Cache.Settings.check_eq_ok_iff.2 (Config.isPositive_of_checkCache hcacheCheck)
  obtain ⟨layout, hlayout, hvalid⟩ := Layers.exists_layout hlayersCheck
  have hlog : logSettings? logging = .ok ⟨level, none⟩ := by
    unfold logSettings?
    rw [hcoerced,
      logFile_eq_none fun f hf => hfile f ((Store.logField?_of_section hlogging).trans hf)]
    rfl
  have hcacheEq : Cache.Settings.ofStore? st = .ok (.ofEntries cache) := by
    have hkey : st.section? "cache" = .ok cache := hcache
    rw [Cache.Settings.ofStore?, hkey]
    rfl
  have hplaces : Layers.LayoutOf.ofStore? st = .ok (.ofEntries layers) := by
    have hkey : st.section? "layers" = .ok layers := hlayers
    rw [Layers.LayoutOf.ofStore?, hkey]
    rfl
  refine ⟨⟨.ofEntries cache, layout⟩, ?_, ?_⟩
  · refine ⟨hcacheEq, hpositive, ⟨_, hplaces, hlayout⟩, hvalid, logging, hlogging, fun r => ?_⟩
    unfold Log.Registry.configure
    rw [hcoerced]
    exact ⟨_, rfl⟩
  · exact putInForce_eq_pure hlogging hlog rfl hcacheEq hpositive hplaces hlayout

/-- A level that is nothing cannot be put in force. -/
theorem putInForce_of_levelIsNull (hcheck : st.validate = .ok ()) (h : st.LevelIsNull) :
    putInForce st = .fault .value := by
  obtain ⟨logging, hlogging, -⟩ := Config.exists_section_of_validate hcheck .logging
  have hnull : Value.field? "level" logging = some .null :=
    (Store.logField?_of_section hlogging).symm.trans h
  have hlogging : st.section? "logging" = .ok logging := hlogging
  simp only [putInForce, hlogging, logSettings?_of_null hnull, Program.ofFaulty_ok,
    Program.pure_bind, Program.ofFaulty_error_bind]

/-! ## Runs -/

section

variable {σ : Type} {libs : Libraries} {w : World σ} {vars : Config.Environment.Variables}
  {words : List String} {o : Options} {x y : σ}

/-- A configuration that is read for a run has passed the check. -/
theorem validate_of_configure (h : (configure libs vars o).run w x = (.ok st, y)) :
    st.validate = .ok () := by
  -- the flag for debugging changes what is checked, but the check comes last either way
  have hchecked {loaded : Store} {z : σ} (h : (do
      Program.ofOutcome (Outcome.mapCause Problem.config loaded.validate)
      return loaded).run w z = (.ok st, y)) : st.validate = .ok () := by
    obtain ⟨⟨⟩, z', hvalidate, h⟩ := Program.run_bind_eq_ok.1 h
    obtain ⟨hst, -⟩ := Prod.mk.inj h
    obtain rfl : loaded = st := Except.ok.inj hst
    obtain ⟨hvalidate, -⟩ := Prod.mk.inj hvalidate
    exact Outcome.mapCause_eq_ok.1 hvalidate
  obtain ⟨loaded, z, -, h⟩ := Program.run_bind_eq_ok.1 h
  dsimp only at h
  split at h
  case isTrue =>
    obtain ⟨debugging, z, -, h⟩ := Program.run_bind_eq_ok.1 h
    exact hchecked h
  case isFalse =>
    obtain ⟨same, z, -, h⟩ := Program.run_bind_eq_ok.1 h
    exact hchecked h

/-- A run whose configuration can be put in force comes to its task. -/
theorem comes_of_putInForce {s : Session} (hparse : parse words = .ok o)
    (hconfigure : (configure libs vars o).run w x = (.ok st, y)) (hforce : putInForce st = pure s) :
    Comes libs w vars words x o st s y := by
  refine ⟨hparse, y, hconfigure, ?_⟩
  rw [hforce]
  rfl

/-- The fault of a level that is nothing ends the run. -/
theorem run_of_levelIsNull (hparse : parse words = .ok o)
    (hconfigure : (configure libs vars o).run w x = (.ok st, y)) (hlevel : st.LevelIsNull) :
    (run libs vars words).run w x = (.error (.fault .value), y) := by
  have hfault : (putInForce st).run w y = (.error (.fault .value), y) := by
    rw [putInForce_of_levelIsNull (validate_of_configure hconfigure) hlevel]
    rfl
  rw [run, hparse]
  refine (run_after_of_ok hconfigure).trans ?_
  exact run_withAnswer_of_error (run_after_of_fault hfault)

/-- A checked configuration that names no log file can be put in force, unless its level is nothing.
A command line that comes to it goes on to its task, or else ends in a fault. -/
theorem configured_goes_on {st : Store} (h : st.validate = .ok ()) (hfile : st.NamesNoLogFile) :
    ((¬ st.LevelIsNull ∧ ∃ s, InForce st s ∧ putInForce st = pure s) ∨
      (st.LevelIsNull ∧ putInForce st = .fault .value)) ∧
    ∀ (σ : Type) (libs : Libraries) (w : World σ) (vars : Config.Environment.Variables)
      (words : List String) (o : Options) (x y : σ), parse words = .ok o →
      (configure libs vars o).run w x = (.ok st, y) →
      (¬ st.LevelIsNull ∧ ∃ s, Comes libs w vars words x o st s y ∧
        (run libs vars words).run w x =
          (withAnswer (runTask libs s o.task) fun a => { a with config := some st }).run w y) ∨
      (st.LevelIsNull ∧ (run libs vars words).run w x = (.error (.fault .value), y)) := by
  by_cases hlevel : st.LevelIsNull
  · refine ⟨.inr ⟨hlevel, putInForce_of_levelIsNull h hlevel⟩, ?_⟩
    intro σ libs w vars words o x y hparse hconfigure
    exact .inr ⟨hlevel, run_of_levelIsNull hparse hconfigure hlevel⟩
  · obtain ⟨s, hs, hforce⟩ := exists_putInForce h hfile hlevel
    refine ⟨.inl ⟨hlevel, s, hs, hforce⟩, ?_⟩
    intro σ libs w vars words o x y hparse hconfigure
    have hcomes : Comes libs w vars words x o st s y := comes_of_putInForce hparse hconfigure hforce
    exact .inl ⟨hlevel, s, hcomes, hcomes.run_eq⟩

end

/-! ### Two configuration files -/

/-- A tree with a module root and a configuration file. -/
def configuredTree (text : String) : Tree where
  directories := [⟨.root, []⟩, Path.ofText "r"]
  files := [(Path.ofText "c.yaml", text)]

/-- A command line that asks for the search path of the root with that file. -/
def configuredWords : List String := ["-c", "c.yaml", "path", "r"]

/-- The options of that command line. -/
def configuredOptions : Options := ⟨some "c.yaml", false, .path ["r"]⟩

/-- Settings in the file, with a log file that is nothing. -/
def quietTree : Tree :=
  configuredTree "logging:\n  level: Warning\n  file:\ncache:\n  max_patterns: 7\n"

/-- The same with a log level that is nothing. -/
def nullLevelTree : Tree := configuredTree "logging:\n  level: null\n"

/-- A test of the configuration that the command line comes to. -/
def passes (t : Tree) (p : Store → Bool) : Bool :=
  ((configure .builtIn [] configuredOptions).outcome t.fileSystem).toOption.any p

theorem exists_of_passes {t : Tree} {p : Store → Bool} (h : passes t p = true) :
    ∃ st, (configure .builtIn [] configuredOptions).run t.fileSystem.world () = (.ok st, ()) ∧
      p st = true := by
  unfold passes at h
  cases hconfigure : (configure .builtIn [] configuredOptions).outcome t.fileSystem with
  | error e =>
    rw [hconfigure] at h
    cases h
  | ok st =>
    rw [hconfigure] at h
    refine ⟨st, ?_, h⟩
    rw [Program.run_world, hconfigure]

/-- The settings of the first file are put in force, and the run goes on to its task. -/
theorem run_quietTree :
    ∃ st : Store, parse configuredWords = .ok configuredOptions ∧
      (configure .builtIn [] configuredOptions).run quietTree.fileSystem.world () = (.ok st, ()) ∧
      st.validate = .ok () ∧ st.NamesNoLogFile ∧
      (∃ s, InForce st s ∧ putInForce st = pure s) ∧
      ∃ s, Comes .builtIn quietTree.fileSystem.world [] configuredWords () configuredOptions st s
        () := by
  have hparse : parse configuredWords = .ok configuredOptions := rfl
  have hpasses :
      passes quietTree (fun st => decide (st.NamesNoLogFile ∧ ¬ st.LevelIsNull)) = true :=
    -- what is decided is a property of the store, for the run itself is too large a term
    by decide +kernel
  obtain ⟨st, hconfigure, hst⟩ := exists_of_passes hpasses
  obtain ⟨hfile, hlevel⟩ := of_decide_eq_true hst
  have hvalidate : st.validate = .ok () := validate_of_configure hconfigure
  obtain ⟨hput, hruns⟩ := configured_goes_on hvalidate hfile
  refine ⟨st, hparse, hconfigure, hvalidate, hfile, ?_, ?_⟩
  · rcases hput with ⟨-, hforce⟩ | ⟨hnull, -⟩
    · exact hforce
    · exact absurd hnull hlevel
  · rcases hruns _ _ _ _ _ _ _ _ hparse hconfigure with ⟨-, s, hcomes, -⟩ | ⟨hnull, -⟩
    · exact ⟨s, hcomes⟩
    · exact absurd hnull hlevel

/-- The second file names no log file either and passes the check, and yet the run ends in a
fault. -/
theorem run_nullLevelTree :
    ∃ st : Store, parse configuredWords = .ok configuredOptions ∧
      (configure .builtIn [] configuredOptions).run nullLevelTree.fileSystem.world () =
        (.ok st, ()) ∧
      st.validate = .ok () ∧ st.NamesNoLogFile ∧ putInForce st = .fault .value ∧
      (run .builtIn [] configuredWords).run nullLevelTree.fileSystem.world () =
        (.error (.fault .value), ()) := by
  have hpasses :
      passes nullLevelTree (fun st => decide (st.NamesNoLogFile ∧ st.LevelIsNull)) = true :=
    by decide +kernel
  obtain ⟨st, hconfigure, hst⟩ := exists_of_passes hpasses
  obtain ⟨hfile, hlevel⟩ := of_decide_eq_true hst
  have hvalidate : st.validate = .ok () := validate_of_configure hconfigure
  exact ⟨st, rfl, hconfigure, hvalidate, hfile, putInForce_of_levelIsNull hvalidate hlevel,
    run_of_levelIsNull rfl hconfigure hlevel⟩

end Command

end ModulePath
