import ModulePath.Proofs.Command.InForce
import ModulePath.Proofs.Command.Run
import ModulePath.Proofs.Config.Quotable

/-!
# How a command line takes its configuration

What a source gets is its whole tree, or it keeps the one that it has: data that are loaded are
accepted or refused, or they meet one of the two faults of the check (`loading_ends`). A command
line tells of every refusal, whether of its configuration file or of the configuration that the file
and the environment make together, and of nothing else; only the file can bring a fault, since the
check of what the environment sets never meets one.
-/

set_option autoImplicit false

namespace ModulePath

namespace Config

variable {σ : Type} {w : World σ} {x y : σ} {yaml : Yaml.Reader} {file : String} {v : Value}
  {st : Store}

namespace Store

/-- A configuration is put together from the data in its file. -/
theorem run_ofFile_of_data (vars : Environment.Variables) (hfile : file ≠ "")
    (h : (data yaml file).run w x = (.ok v, y)) :
    (ofFile yaml (some file) vars).run w x =
      ((initial.loadData file .user v).map (·.loadEnvironment vars), y) := by
  have hname : (some file).filter (fun f => !f.isEmpty) = some file := by
    simp [Option.filter, hfile]
  unfold ofFile
  rw [hname]
  dsimp only
  rw [loadFile, Program.bind_bind, Program.run_bind_of_ok h]
  cases initial.loadData file .user v with
  | ok st => rfl
  | error e => rfl

end Store

end Config

namespace Command

open Config (Store Source Section check FirstSection)

variable {σ : Type} {libs : Libraries} {w : World σ} {x y : σ} {vars : Config.Environment.Variables}
  {words : List String} {o : Options} {st : Store} {file : String} {v : Value}

/-! ## Putting the configuration together -/

/-- The key of the log level. -/
theorem keyParts_logLevel :
    Config.keyParts "modfilter.logging.level" = ["modfilter", "logging", "level"] := by
  decide +kernel

/-- The tree of a command line that asks for debugging. -/
def debugTree : Config.Entries :=
  [(.str "modfilter", .dict [(.str "logging", .dict [(.str "level", .str "DEBUG")])])]

/-- Nothing is in the way of the log level in a source without a tree. -/
theorem set_logLevel (h : st.tree .arguments = none) :
    st.set "modfilter.logging.level" (.str "DEBUG") .arguments =
      .ok (st.replace .arguments debugTree) := by
  unfold Config.Store.set
  rw [keyParts_logLevel, h]
  rfl

/-- The tree of a debug option does no harm to what can be quoted. -/
theorem quotable_debugTree (hst : st.Quotable) : (st.replace .arguments debugTree).Quotable := by
  have hkeys : (Value.dict debugTree).WellKeyed :=
    Value.wellKeyed_nil.put (Value.wellKeyed_nil.put (Value.wellKeyed_nil.put
      (.other fun ⟨_, h⟩ => by cases h) (.str "level")) (.str "logging")) (.str "modfilter")
  have hwrap : Config.Store.wrap debugTree = debugTree := if_pos (by decide)
  rw [← hwrap]
  exact hst.replace_wrap hkeys rfl .arguments

/-- The configuration of a run after the command line has had its say. -/
def Options.applyTo (o : Options) (st : Store) : Store :=
  if o.debug then st.replace .arguments debugTree else st

/-- A configuration that is checked last. -/
theorem run_checked (w : World σ) (st : Store) (y : σ) :
    (do
      Program.ofOutcome (Outcome.mapCause Problem.config st.validate)
      return st : Program Problem Store).run w y =
      (Outcome.mapCause .config (st.validate.map fun _ => st), y) := by
  cases st.validate with
  | ok u => rfl
  | error e => rfl

/-- Once the file and the environment are loaded, all that is left is the check of the merged
configuration. -/
theorem run_configure_of_ok
    (h : (Config.Store.ofFile libs.yaml o.config vars).run w x = (.ok st, y))
    (harguments : st.tree .arguments = none) :
    (configure libs vars o).run w x =
      (Outcome.mapCause .config ((o.applyTo st).validate.map fun _ => o.applyTo st), y) := by
  have hload : ((Config.Store.ofFile libs.yaml o.config vars).mapCause Problem.config).run w x =
      (.ok st, y) := by
    rw [Program.run_mapCause, h]
    rfl
  refine (Program.run_bind_of_ok hload).trans ?_
  rw [← run_checked w (o.applyTo st) y]
  unfold Options.applyTo
  cases o.debug with
  | false => rfl
  | true =>
    rw [set_logLevel harguments]
    rfl

/-- A configuration that cannot be read leaves no session: its failure is the answer to
configuring. -/
theorem run_configure_of_error {e : Failure Config.Error}
    (h : (Config.Store.ofFile libs.yaml o.config vars).run w x = (.error e, y)) :
    (configure libs vars o).run w x = (.error (e.map .config), y) := by
  refine Program.run_bind_of_error ?_
  rw [Program.run_mapCause, h]
  rfl

/-! ## Data of a configuration file -/

/-- Why a command line refuses the data `v` of its configuration file, alone or together with the
settings of the environment. -/
inductive Refuses (vars : Config.Environment.Variables) (o : Options) (file : String) (v : Value) :
    Config.Error → Prop
  | misshapen (hv : ¬ v.IsDict) : Refuses vars o file v (.notDictionary file)
  | invalid {fault : Config.Invalid} (hcheck : check v = .error (.refused fault)) :
    Refuses vars o file v (.invalid file fault)
  | merged {st : Store} {e : Config.Error} (hload : Store.initial.loadData file .user v = .ok st)
    (hmerged : (o.applyTo (st.loadEnvironment vars)).validate = .error (.refused e)) :
    Refuses vars o file v e

/-- What a command line makes of the data `v` of its configuration file: how the configuration comes
out and how the run does. -/
inductive Takes (vars : Config.Environment.Variables) (o : Options) (file : String) (v : Value) :
    Outcome Problem Store → Outcome Empty Answer → Prop
  /-- The configuration is valid, and the run goes on. -/
  | goesOn {st : Store} {answer : Outcome Empty Answer} (hcheck : check v = .ok ())
    (hload : Store.initial.loadData file .user v = .ok st)
    (hmerged : (o.applyTo (st.loadEnvironment vars)).validate = .ok ()) :
    Takes vars o file v (.ok (o.applyTo (st.loadEnvironment vars))) answer
  | told {e : Config.Error} (h : Refuses vars o file v e) :
    Takes vars o file v (.error (.refused (.config e))) (.ok (.ofProblem (.config e)))
  | oddField (h : FirstSection Section.HasOddField v) :
    Takes vars o file v (.error (.fault .kind)) (.error (.fault .kind))
  | unwritable (h : FirstSection Section.HasUnwritable v) :
    Takes vars o file v (.error (.fault .digits)) (.error (.fault .digits))

section

variable {problem : Problem} {f : Fault}

/-- Words that can be parsed are run as the options that they stand for. -/
theorem run_eq_runOptions (hparse : parse words = .ok o) :
    run libs vars words = runOptions libs vars o := by
  rw [run, hparse]

/-- A configuration that is refused is told of. -/
theorem run_of_configure_refused (hparse : parse words = .ok o)
    (h : (configure libs vars o).run w x = (.error (.refused problem), y)) :
    (run libs vars words).run w x = (.ok (.ofProblem problem), y) := by
  rw [run_eq_runOptions hparse]
  exact run_after_of_refused h

/-- A fault in the configuration is a fault of the run. -/
theorem run_of_configure_fault (hparse : parse words = .ok o)
    (h : (configure libs vars o).run w x = (.error (.fault f), y)) :
    (run libs vars words).run w x = (.error (.fault f), y) := by
  rw [run_eq_runOptions hparse]
  exact run_after_of_fault h

end

/-- A store whose merged configuration can be quoted is valid or refused. -/
theorem validate_cases (h : st.Quotable) :
    st.validate = .ok () ∨ ∃ e, st.validate = .error (.refused e) := by
  cases hvalidate : st.validate with
  | ok u => exact .inl rfl
  | error e =>
    cases e with
    | refused e => exact .inr ⟨e, rfl⟩
    | fault f => exact absurd hvalidate h.validate_ne_fault

/-- The options put no text into a configuration that could not be quoted. -/
theorem quotable_applyTo (h : st.Quotable) : (o.applyTo st).Quotable := by
  unfold Options.applyTo
  split
  case isTrue => exact quotable_debugTree h
  case isFalse => exact h

/-- What is loaded from the data of a file gives no arguments, and can be quoted. -/
theorem of_loadData (file : String) (hkeys : v.WellKeyed) (hcheck : check v = .ok ()) :
    ∃ st, Store.initial.loadData file .user v = .ok st ∧ st.tree .arguments = none ∧
      st.Quotable := by
  cases v with
  | dict entries =>
    refine ⟨_, Config.Store.loadFrom_of_check_eq_ok hcheck, rfl, ?_⟩
    exact Config.Store.quotable_initial.replace_wrap hkeys hcheck .user
  | null | bool _ | int _ | real _ | str _ | list _ | tuple _ | set _ => cases hcheck

/-- How a run takes its file is decided by the data of the file. -/
theorem takes_of_data (hparse : parse words = .ok o) (hconfig : o.config = some file)
    (hfile : file ≠ "") (hdata : (Config.data libs.yaml file).run w x = (.ok v, y)) :
    Takes vars o file v ((configure libs vars o).run w x).1 ((run libs vars words).run w x).1 := by
  have hofFile := Config.Store.run_ofFile_of_data vars hfile hdata
  rw [← hconfig] at hofFile
  -- loading fails on the shape of the data, then on their check, then on what is merged
  by_cases hv : v.IsDict
  case neg =>
    rw [Config.Store.loadData_of_not_isDict hv] at hofFile
    have hconfigure := run_configure_of_error hofFile
    rw [hconfigure, run_of_configure_refused hparse hconfigure]
    exact .told (.misshapen hv)
  case pos =>
    obtain ⟨entries, rfl⟩ := hv
    cases hcheck : check (.dict entries) with
    | error e =>
      have hload : Store.initial.loadData file .user (.dict entries) =
          .error (e.map (.invalid file)) := Config.Store.loadFrom_of_check_eq_error hcheck
      rw [hload] at hofFile
      have hconfigure := run_configure_of_error hofFile
      rw [hconfigure]
      cases e with
      | refused fault =>
        rw [run_of_configure_refused hparse hconfigure]
        exact .told (.invalid hcheck)
      | fault f =>
        rw [run_of_configure_fault hparse hconfigure]
        rcases Config.check_eq_fault_iff.1 hcheck with ⟨rfl, h⟩ | ⟨rfl, h⟩
        · exact .oddField h
        · exact .unwritable h
    | ok u =>
      obtain ⟨st, hload, harguments, hquotable⟩ :=
        of_loadData file (Config.wellKeyed_of_data hdata) hcheck
      rw [hload] at hofFile
      have hconfigure := run_configure_of_ok hofFile
        ((Config.Store.tree_loadEnvironment_of_ne (by decide)).trans harguments)
      have hmerged : (o.applyTo (st.loadEnvironment vars)).Quotable :=
        quotable_applyTo (hquotable.loadEnvironment vars)
      rcases validate_cases hmerged with hvalid | ⟨e, hrefused⟩
      · rw [hvalid] at hconfigure
        rw [hconfigure]
        exact .goesOn hcheck hload hvalid
      · rw [hrefused] at hconfigure
        rw [hconfigure, run_of_configure_refused hparse hconfigure]
        exact .told (.merged hload hrefused)

/-- Without a configuration file only the environment can bring what is refused, and that is told
of. -/
theorem run_without_file (hparse : parse words = .ok o)
    (hconfig : o.config = none ∨ o.config = some "") :
    ((o.applyTo (Store.initial.loadEnvironment vars)).validate = .ok () ∧
      (configure libs vars o).run w x = (.ok (o.applyTo (Store.initial.loadEnvironment vars)), x)) ∨
    ∃ e, (configure libs vars o).run w x = (.error (.refused (.config e)), x) ∧
      (run libs vars words).run w x = (.ok (.ofProblem (.config e)), x) := by
  have hofFile : (Store.ofFile libs.yaml o.config vars).run w x =
      (.ok (Store.initial.loadEnvironment vars), x) := by
    rcases hconfig with hconfig | hconfig
    · rw [hconfig]
      rfl
    · rw [hconfig]
      rfl
  have hconfigure := run_configure_of_ok hofFile
    (Config.Store.tree_loadEnvironment_of_ne (by decide))
  -- the settings come from the environment and the options only, all of which can be quoted
  have hmerged : (o.applyTo (Store.initial.loadEnvironment vars)).Quotable :=
    quotable_applyTo (Config.Store.quotable_initial.loadEnvironment vars)
  rcases validate_cases hmerged with hvalid | ⟨e, hrefused⟩
  · rw [hvalid] at hconfigure
    exact .inl ⟨hvalid, hconfigure⟩
  · rw [hrefused] at hconfigure
    exact .inr ⟨e, hconfigure, run_of_configure_refused hparse hconfigure⟩

/-- How the check of any data ends, what loading them leaves in the sources, and what a command
line makes of them in its configuration file. One without such a file has only the environment to
read. -/
theorem loading_ends (v : Value) :
    (check v = .ok () ∨ (∃ fault, check v = .error (.refused fault)) ∨
      (check v = .error (.fault .kind) ∧ FirstSection Section.HasOddField v) ∨
      (check v = .error (.fault .digits) ∧ FirstSection Section.HasUnwritable v)) ∧
    (∀ f, check v = .error (.fault f) ↔
      (f = .kind ∧ FirstSection Section.HasOddField v) ∨
        (f = .digits ∧ FirstSection Section.HasUnwritable v)) ∧
    (∀ st source, Store.Loads st source v (st.load v source) (st.after (st.load v source))) ∧
    (∀ (σ : Type) (libs : Libraries) (w : World σ) (vars : Config.Environment.Variables)
      (words : List String) (o : Options) (file : String) (x y : σ),
      parse words = .ok o → o.config = some file → file ≠ "" →
      (Config.data libs.yaml file).run w x = (.ok v, y) →
      Takes vars o file v ((configure libs vars o).run w x).1 ((run libs vars words).run w x).1) ∧
    ∀ (σ : Type) (libs : Libraries) (w : World σ) (vars : Config.Environment.Variables)
      (words : List String) (o : Options) (x : σ), parse words = .ok o →
      o.config = none ∨ o.config = some "" →
      ((o.applyTo (Store.initial.loadEnvironment vars)).validate = .ok () ∧
        (configure libs vars o).run w x =
          (.ok (o.applyTo (Store.initial.loadEnvironment vars)), x)) ∨
      ∃ e, (configure libs vars o).run w x = (.error (.refused (.config e)), x) ∧
        (run libs vars words).run w x = (.ok (.ofProblem (.config e)), x) := by
  refine ⟨?_, fun f => Config.check_eq_fault_iff, fun st source => st.loads_load source v, ?_, ?_⟩
  · cases hcheck : check v with
    | ok u => exact .inl rfl
    | error e =>
      cases e with
      | refused fault => exact .inr (.inl ⟨fault, rfl⟩)
      | fault f =>
        -- the check meets no other faults than these two
        rcases Config.check_eq_fault_iff.1 hcheck with ⟨rfl, h⟩ | ⟨rfl, h⟩
        · exact .inr (.inr (.inl ⟨rfl, h⟩))
        · exact .inr (.inr (.inr ⟨rfl, h⟩))
  · intro σ libs w vars words o file x y hparse hconfig hfile hdata
    exact takes_of_data hparse hconfig hfile hdata
  · intro σ libs w vars words o x hparse hconfig
    exact run_without_file hparse hconfig

/-- A field of the pattern cache that is a number. -/
def numberedCache : Value := .dict [(.str "cache", .dict [(.int 1, .str "x")])]

/-- A tree with that configuration in its file. -/
def numberedTree : Tree := configuredTree "cache:\n  1: x\n"

/-- A command line on that tree comes to read the file. -/
theorem run_numberedTree :
    ∃ v, parse configuredWords = .ok configuredOptions ∧
      configuredOptions.config = some "c.yaml" ∧ "c.yaml" ≠ "" ∧
      (Config.data Libraries.builtIn.yaml "c.yaml").run numberedTree.fileSystem.world () =
        (.ok v, ()) ∧
      Takes [] configuredOptions "c.yaml" v
        ((configure .builtIn [] configuredOptions).run numberedTree.fileSystem.world ()).1
        ((run .builtIn [] configuredWords).run numberedTree.fileSystem.world ()).1 := by
  obtain ⟨v, hdata⟩ : ∃ v,
      (Config.data Libraries.builtIn.yaml "c.yaml").outcome numberedTree.fileSystem = .ok v :=
    Outcome.exists_of_isOk (by decide +kernel)
  have hdata : (Config.data Libraries.builtIn.yaml "c.yaml").run
      numberedTree.fileSystem.world () = (.ok v, ()) := by
    rw [Program.run_world, hdata]
  obtain ⟨-, -, -, hruns, -⟩ := loading_ends v
  have hfile : "c.yaml" ≠ "" := by decide
  exact ⟨v, rfl, rfl, hfile, hdata, hruns _ _ _ _ _ _ _ _ _ rfl rfl hfile hdata⟩

/-- The field can be in no refusal: data with it are neither accepted nor refused, by no source, and
the run of a command line with it in its file tells of nothing. -/
theorem numberedCache_not_refused :
    check numberedCache = .error (.fault .kind) ∧
      Store.initial.load numberedCache .runtime = .error (.fault .kind) ∧
      (run .builtIn [] configuredWords).outcome numberedTree.fileSystem matches
        .error (.fault .kind) := by
  refine ⟨rfl, rfl, ?_⟩
  decide +kernel

end Command

end ModulePath
