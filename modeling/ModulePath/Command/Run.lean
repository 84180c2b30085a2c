import ModulePath.Cache.Settings
import ModulePath.Command.Options
import ModulePath.Config.Load
import ModulePath.Descriptor.Load
import ModulePath.Edge.Resolve
import ModulePath.Layers.Resolve
import ModulePath.Libraries
import ModulePath.Report

/-!
# Running a command

A run reads the configuration, puts it in force and does its task. What it prints and its exit code
are its answer; of the files it only touches the log file. It has libraries to read YAML and to
render templates.
-/

set_option autoImplicit false

namespace ModulePath.Command

/-- Why a task is not done. -/
inductive Problem where
  | config (e : Config.Error)
  | cache (e : Cache.Settings.Error)
  | descriptor (e : Descriptor.LoadError)
  | layers (e : Layers.Error)

/-- The text of a problem. -/
def Problem.message : Problem → String
  | config e => e.message
  | cache e => "Invalid cache configuration: " ++ e.message
  | descriptor e => e.message
  | layers e => e.message

/-- The name and the version of the program. -/
def versionText : String := "modfilter 1.0.0"

/-- The logger of the command line. -/
def loggerName : String := "modfilter.cli"

/-! ## Settings -/

/-- The configuration of a run: that of the file and of the environment, and the log level that
debugging asks for. -/
def configure (libs : Libraries) (vars : Config.Environment.Variables) (o : Options) :
    Program Problem Config.Store := do
  let st ← (Config.Store.ofFile libs.yaml o.config vars).mapCause .config
  let st ←
    if o.debug then .ofFaulty (st.set "modfilter.logging.level" (.str "DEBUG") .arguments)
    else pure st
  .ofOutcome (Outcome.mapCause .config st.validate)
  return st

/-- Where log records go. -/
structure LogSettings where
  level : Log.Level
  /-- The log file, if there is one. -/
  file : Option String

/-- The log settings in the section of a configuration. -/
def logSettings? (entries : Config.Entries) : Except Fault LogSettings := do
  let level ← Log.Level.ofValue? ((Value.field? "level" entries).getD (.str "INFO"))
  return ⟨level, ((Value.field? "file" entries).bind Config.text?).filter fun f => !f.isEmpty⟩

/-- What is in force during a task. -/
structure Session where
  cache : Cache.Settings
  layout : Layers.Layout

/-- Put a configuration in force. -/
def putInForce (st : Config.Store) : Program Problem Session := do
  let logging ← .ofFaulty (st.section? "logging")
  let log ← .ofFaulty (logSettings? logging)
  match log.file with
  | some file => .ofFaulty (← Program.query (.openLog file log.level))
  | none => pure ()
  let cache ← .ofFaulty (Cache.Settings.ofStore? st)
  .ofOutcome (Outcome.mapCause .cache cache.check)
  let places ← .ofFaulty (Layers.LayoutOf.ofStore? st)
  match places.toLayout? with
  | some layout => return ⟨cache, layout⟩
  | none => .fault .kind

/-! ## Tasks -/

/-- The record that a task begins with. -/
def startRecord (task : Task) : Log.Record :=
  .ofEntry loggerName [] ⟨.debug, "Running command", [("command", .str task.name)]⟩

/-- Load a descriptor and log its edges. -/
def loadDescriptor (libs : Libraries) (file : String) : Program Problem Descriptor := do
  let d ← (Descriptor.load libs.yaml file).mapCause .descriptor
  Program.noteAll d.log
  return d

/-- The text that a task prints. -/
def perform (libs : Libraries) (layout : Layers.Layout) : Task → Program Problem String
  | .path roots => do
    let paths ← (Layers.resolve layout (roots.map Path.ofText)).mapCause .layers
    .ofFaulty (Report.modulePath libs.templates paths)
  | .describe file => do
    let d ← loadDescriptor libs file
    .ofFaulty (Report.edges libs.templates d.name d.edges)
  | .check file paths => do
    let d ← loadDescriptor libs file
    .ofFaulty (Report.check libs.templates d.name d.edges paths)

/-- Do a task. -/
def doTask (libs : Libraries) (layout : Layers.Layout) (task : Task) :
    Program Problem String := do
  Program.note (startRecord task)
  perform libs layout task

/-! ## Runs -/

/-- What a run leaves behind. -/
structure Answer where
  exit : Nat
  output : String
  /-- The text of errors; `none` if it explains the usage. -/
  errors : Option String
  /-- The configuration in force, if there came to be one. -/
  config : Option Config.Store := none
  /-- The settings of the pattern cache, if they were put in force. -/
  cache : Option Cache.Settings := none

namespace Answer

/-- The answer to a problem. -/
def ofProblem (p : Problem) : Answer :=
  { exit := 1, output := "", errors := some ("Error: " ++ p.message ++ "\n") }

/-- The answer of a task that is done. -/
def ofText (text : String) : Answer := { exit := 0, output := text, errors := some "" }

/-- The answer when there is no task. -/
def ofStop : Stop → Answer
  | .version => { exit := 0, output := versionText ++ "\n", errors := none }
  | .help => { exit := 0, output := "", errors := none }
  | .usage => { exit := 2, output := "", errors := none }

end Answer

/-- A program whose problems are answers. -/
abbrev Run := Program Empty Answer

/-- Go on with a run after a program; its problem ends the run. -/
def after {α : Type} (p : Program Problem α) (next : α → Run) : Run := do
  match ← p.attempt with
  | .ok a => next a
  | .error problem => return .ofProblem problem

/-- Complete the answer of a run. -/
def withAnswer (r : Run) (complete : Answer → Answer) : Run := do
  return complete (← r)

/-- Do a task with settings in force. -/
def runTask (libs : Libraries) (s : Session) (task : Task) : Run :=
  withAnswer (after (doTask libs s.layout task) fun text => return .ofText text)
    fun a => { a with cache := some s.cache }

/-- Run what a command line asks for. -/
def runOptions (libs : Libraries) (vars : Config.Environment.Variables) (o : Options) : Run :=
  after (configure libs vars o) fun st =>
    withAnswer (after (putInForce st) fun s => runTask libs s o.task)
      fun a => { a with config := some st }

/-- Run a command line. -/
def run (libs : Libraries) (vars : Config.Environment.Variables) (words : List String) : Run :=
  match parse words with
  | .ok o => runOptions libs vars o
  | .error stop => return .ofStop stop

end ModulePath.Command
