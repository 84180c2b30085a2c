import ModulePath.Command.Run
import ModulePath.Proofs.Program.Outcome
import ModulePath.Proofs.Program.Run
import ModulePath.Proofs.Report.Layout

/-!
# Runs of command lines

How a run goes on after a program (`after`): with its answer if there is one, with the answer to its
problem if it refuses, and not at all if it meets a fault. Once its settings are in force (`Comes`),
a run is its task and ends as the task does; a task about a descriptor file (`About`) ends as
reading the data in the file does (`run_doTask_of_ok`, `run_doTask_of_error`).
-/

set_option autoImplicit false

namespace ModulePath.Command

variable {σ α : Type} {w : World σ} {p : Program Problem α} {next : α → Run} {x y : σ}

/-! ## Going on -/

/-- What follows on a result runs in the state that the result left. -/
theorem run_after_of_ok {a : α} (h : p.run w x = (.ok a, y)) :
    (after p next).run w x = (next a).run w y := by
  unfold after
  rw [Program.run_bind, Program.run_attempt, h]

/-- A problem is answered. -/
theorem run_after_of_refused {cause : Problem} (h : p.run w x = (.error (.refused cause), y)) :
    (after p next).run w x = (.ok (.ofProblem cause), y) := by
  unfold after
  rw [Program.run_bind, Program.run_attempt, h]
  rfl

/-- A fault is let through. -/
theorem run_after_of_fault {f : Fault} (h : p.run w x = (.error (.fault f), y)) :
    (after p next).run w x = (.error (.fault f), y) := by
  unfold after
  rw [Program.run_bind, Program.run_attempt, h]

/-- An answer is completed with what is known of the session. -/
theorem run_withAnswer_of_ok {r : Run} {complete : Answer → Answer} {a : Answer}
    (h : r.run w x = (.ok a, y)) : (withAnswer r complete).run w x = (.ok (complete a), y) :=
  Program.run_bind_of_ok h

theorem run_withAnswer_of_error {r : Run} {complete : Answer → Answer} {e : Failure Empty}
    (h : r.run w x = (.error e, y)) : (withAnswer r complete).run w x = (.error e, y) :=
  Program.run_bind_of_error h

end ModulePath.Command

namespace ModulePath.Descriptor

variable {σ : Type} {w : World σ} {x y : σ} {yaml : Yaml.Reader} {file : String} {v : Value}

/-! ## Descriptor files -/

/-- A descriptor is loaded from the data in its file. -/
theorem run_load_of_data (h : (data yaml file).run w x = (.ok v, y)) :
    (load yaml file).run w x = (Outcome.mapCause (.invalid file) (ofValue? v), y) :=
  Program.run_bind_of_ok h

end ModulePath.Descriptor

namespace ModulePath.Command

variable {σ : Type} {w : World σ} {x y z : σ} {libs : Libraries} {file : String} {v : Value}
  {task : Task} {layout : Layers.Layout} {d : Descriptor}

/-! ## Tasks on a descriptor -/

/-- A task is about the descriptor in a file. -/
def About (file : String) : Task → Prop
  | .path _ => False
  | .describe f | .check f _ => f = file

/-- What a task prints of a descriptor. -/
def printed (d : Descriptor) : Task → String
  | .path _ => ""
  | .describe _ => Report.ofLines (Report.edgesLines d.name d.edges)
  | .check _ paths => Report.ofLines (Report.moduleLines d.name d.edges paths)

/-- A descriptor that can be read is loaded with its records. -/
theorem run_loadDescriptor_of_ok (hdata : (Descriptor.data libs.yaml file).run w x = (.ok v, y))
    (hv : Descriptor.ofValue? v = .ok d) :
    (loadDescriptor libs file).run w x = (.ok d, d.log.foldl w.record y) := by
  have hload : ((Descriptor.load libs.yaml file).mapCause Problem.descriptor).run w x =
      (.ok d, y) := by
    rw [Program.run_mapCause, Descriptor.run_load_of_data hdata, hv]
    rfl
  have hlog : (Program.noteAll d.log : Program Problem Unit).run w y =
      (.ok (), d.log.foldl w.record y) := Program.run_noteAll w d.log y
  exact (Program.run_bind_of_ok hload).trans (Program.run_bind_of_ok hlog)

/-- Data that are no descriptor are refused with the name of their file. -/
theorem run_loadDescriptor_of_error {e : Failure Descriptor.Error}
    (hdata : (Descriptor.data libs.yaml file).run w x = (.ok v, y))
    (hv : Descriptor.ofValue? v = .error e) :
    (loadDescriptor libs file).run w x =
      (.error (e.map fun cause => .descriptor (.invalid file cause)), y) := by
  refine Program.run_bind_of_error ?_
  rw [Program.run_mapCause, Descriptor.run_load_of_data hdata, hv]
  cases e with
  | refused cause => rfl
  | fault f => rfl

/-- A task about a descriptor loads it and prints something of it. -/
theorem perform_eq (habout : About file task) :
    perform libs layout task = loadDescriptor libs file >>= fun d => pure (printed d task) := by
  cases task with
  | path roots => exact habout.elim
  | describe f =>
    obtain rfl : f = file := habout
    simp only [perform, Report.edges_eq, Program.ofFaulty_ok]
    rfl
  | check f paths =>
    obtain rfl : f = file := habout
    simp only [perform, Report.check_eq, Program.ofFaulty_ok]
    rfl

/-- A task begins with a record of it. -/
theorem run_doTask (libs : Libraries) (w : World σ) (layout : Layers.Layout) (task : Task) (x : σ) :
    (doTask libs layout task).run w x =
      (perform libs layout task).run w (w.record x (startRecord task)) :=
  rfl

/-- A task on a descriptor file whose data are a descriptor. -/
theorem run_doTask_of_ok (habout : About file task)
    (hdata : (Descriptor.data libs.yaml file).run w (w.record x (startRecord task)) = (.ok v, y))
    (hv : Descriptor.ofValue? v = .ok d) :
    (doTask libs layout task).run w x = (.ok (printed d task), d.log.foldl w.record y) := by
  rw [run_doTask, perform_eq habout]
  exact Program.run_bind_of_ok (run_loadDescriptor_of_ok hdata hv)

/-- A task about a file that holds no descriptor is refused with the name of the file. -/
theorem run_doTask_of_error {e : Failure Descriptor.Error} (habout : About file task)
    (hdata : (Descriptor.data libs.yaml file).run w (w.record x (startRecord task)) = (.ok v, y))
    (hv : Descriptor.ofValue? v = .error e) :
    (doTask libs layout task).run w x =
      (.error (e.map fun cause => .descriptor (.invalid file cause)), y) := by
  rw [run_doTask, perform_eq habout]
  exact Program.run_bind_of_error (run_loadDescriptor_of_error hdata hv)

/-! ## Runs that come to their task -/

/-- A command line comes to its task: with the options `o`, the configuration `st` and the settings
`s`, and with the world in the state `y`. -/
structure Comes (libs : Libraries) (w : World σ) (vars : Config.Environment.Variables)
    (words : List String) (x : σ) (o : Options) (st : Config.Store) (s : Session) (y : σ) :
    Prop where
  parse_eq : parse words = .ok o
  inForce : ∃ z, (configure libs vars o).run w x = (.ok st, z) ∧
    (putInForce st).run w z = (.ok s, y)

section

variable {vars : Config.Environment.Variables} {words : List String} {o : Options}
  {st : Config.Store} {s : Session}

/-- From there on the task is the run. -/
theorem Comes.run_eq (h : Comes libs w vars words x o st s y) :
    (run libs vars words).run w x =
      (withAnswer (runTask libs s o.task) fun a => { a with config := some st }).run w y := by
  obtain ⟨z, hconfigure, hput⟩ := h.inForce
  have hrun : run libs vars words = runOptions libs vars o := by
    unfold run
    rw [h.parse_eq]
  rw [hrun]
  refine (run_after_of_ok hconfigure).trans ?_
  unfold withAnswer
  rw [Program.run_bind, Program.run_bind, run_after_of_ok hput]

/-- On a file system that nothing changes, a run comes to its task if its settings can be put in
force. -/
theorem exists_comes {fs : FileSystem} (hparse : parse words = .ok o)
    (hforce : ((configure libs vars o >>= putInForce).outcome fs).isOk = true) :
    ∃ st s, Comes libs fs.world vars words () o st s () := by
  obtain ⟨s, hs⟩ := Outcome.exists_of_isOk hforce
  obtain ⟨st, hst, hput⟩ := Program.outcome_bind_eq_ok.1 hs
  refine ⟨st, s, hparse, (), ?_, ?_⟩
  · rw [Program.run_world, hst]
  · rw [Program.run_world, hput]

/-- The answer of a run that comes to its task. -/
def complete (st : Config.Store) (s : Session) (a : Answer) : Answer :=
  { a with config := some st, cache := some s.cache }

theorem Comes.run_of_ok {text : String} (h : Comes libs w vars words x o st s y)
    (htask : (doTask libs s.layout o.task).run w y = (.ok text, z)) :
    (run libs vars words).run w x = (.ok (complete st s (.ofText text)), z) := by
  have hafter : (after (doTask libs s.layout o.task) fun text => return .ofText text).run w y =
      (.ok (.ofText text), z) := run_after_of_ok htask
  rw [h.run_eq]
  exact run_withAnswer_of_ok (run_withAnswer_of_ok hafter)

/-- A task that is refused gives its problem and the exit code that goes with it. -/
theorem Comes.run_of_refused {problem : Problem} (h : Comes libs w vars words x o st s y)
    (htask : (doTask libs s.layout o.task).run w y = (.error (.refused problem), z)) :
    (run libs vars words).run w x = (.ok (complete st s (.ofProblem problem)), z) := by
  rw [h.run_eq]
  exact run_withAnswer_of_ok (run_withAnswer_of_ok (run_after_of_refused htask))

theorem Comes.run_of_fault {f : Fault} (h : Comes libs w vars words x o st s y)
    (htask : (doTask libs s.layout o.task).run w y = (.error (.fault f), z)) :
    (run libs vars words).run w x = (.error (.fault f), z) := by
  rw [h.run_eq]
  exact run_withAnswer_of_error (run_withAnswer_of_error (run_after_of_fault htask))

end

end ModulePath.Command
