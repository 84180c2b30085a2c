import ModulePath.BuiltIn
import ModulePath.FileSystem.Tree
import ModulePath.Proofs.Command.Run
import ModulePath.Proofs.Descriptor.Ending

/-!
# Malformed descriptors

What becomes of data that are no descriptor. Every reader refuses them or meets one of two faults,
and a command line that comes to read them tells of a refusal but lets a fault through (`Reports`).
The first fault is met for every dictionary whose attributes that are not allowed fall into two
parts without an order between them (`reading_ends`): in whatever order they are sorted, a member of
one part is compared with one of the other.
-/

set_option autoImplicit false

namespace ModulePath

namespace Descriptor

variable {entries : Entries}

/-! ## Attributes without an order -/

/-- The attributes of a dependency on a module. -/
def moduleAttributes : List String :=
  ["module", "export", "optional", "services", "imports", "exports"]

/-- The attributes of a dependency on the platform. -/
def platformAttributes : List String := ["export", "paths", "exports"]

/-- The attributes of a descriptor. -/
def attributes : List String := ["name", "exports", "dependencies"]

/-- Unknown attributes without an order end the reading of a descriptor: they cannot be sorted for
the message. -/
theorem ofValue?_of_divided (h : Value.Divided (unknown attributes entries)) :
    ofValue? (.dict entries) = Outcome.fault .kind := by
  rw [ofValue?, ← attributes, checkAttributes_of_divided h]
  rfl

theorem platformDependency?_of_divided
    (h : Value.Divided (unknown platformAttributes entries)) :
    platformDependency? (.dict entries) = Outcome.fault .kind := by
  rw [platformDependency?, ← platformAttributes, checkAttributes_of_divided h]
  rfl

theorem moduleDependency?_of_divided (h : Value.Divided (unknown moduleAttributes entries)) :
    moduleDependency? (.dict entries) = Outcome.fault .kind := by
  rw [moduleDependency?, ← moduleAttributes, checkAttributes_of_divided h]
  rfl

/-- A dependency that is not marked as one on the platform is read as one on a module. -/
theorem dependency?_of_divided (hsystem : Value.field? "system" entries = none)
    (h : Value.Divided (unknown moduleAttributes entries)) :
    dependency? (.dict entries) = Outcome.fault .kind := by
  rw [dependency?, hsystem]
  dsimp only
  rw [moduleDependency?_of_divided h]
  rfl

theorem rule?_of_divided {kind : Rule.Kind}
    (h : Value.Divided (unknown [if kind.isSet then "paths" else "path"] entries)) :
    rule? (.dict [(.str kind.text, .dict entries)]) = Outcome.fault .kind := by
  have hkind : Rule.Kind.ofText? kind.text = some kind := by
    cases kind <;> decide
  have hrule : rule? (.dict [(.str kind.text, .dict entries)]) = ruleOf? kind (.dict entries) := by
    rw [rule?, hkind]
  rw [hrule]
  unfold ruleOf?
  cases hset : kind.isSet with
  | true =>
    rw [hset, if_pos rfl] at h
    rw [if_pos rfl, ruleArgument?, checkAttributes_of_divided h]
    rfl
  | false =>
    rw [hset, if_neg Bool.false_ne_true] at h
    rw [if_neg Bool.false_ne_true, ruleArgument?, checkAttributes_of_divided h]
    rfl

theorem rules?_of_divided {kind : Rule.Kind}
    (h : Value.Divided (unknown [if kind.isSet then "paths" else "path"] entries)) :
    rules? (.list [.dict [(.str kind.text, .dict entries)]]) = Outcome.fault .kind := by
  rw [rules?, List.mapM_cons, rule?_of_divided h]
  rfl

end Descriptor

namespace Command

open Descriptor (Ends ofValue? unknown)

variable {σ : Type} {libs : Libraries} {w : World σ} {x y z : σ}
  {vars : Config.Environment.Variables} {words : List String} {o : Options} {st : Config.Store}
  {s : Session} {file : String} {v : Value}

/-! ## Runs -/

/-- The answer of a task to data in a descriptor file that are no descriptor. -/
def malformed (file : String) (e : Descriptor.Error) : Answer :=
  { exit := 1, output := "", errors := some ("Error: " ++ file ++ ": " ++ e.message ++ "\n") }

theorem ofProblem_invalid (e : Descriptor.Error) :
    Answer.ofProblem (.descriptor (.invalid file e)) = malformed file e := by
  have hmessage : Problem.message (.descriptor (.invalid file e)) = file ++ ": " ++ e.message := rfl
  rw [Answer.ofProblem, malformed, hmessage, ← String.append_assoc, ← String.append_assoc]

/-- How a run ends that comes to read a descriptor from the data `v` in a file. -/
inductive Reports (file : String) (task : Task) (v : Value) (st : Config.Store) (s : Session) :
    Outcome Empty Answer → Prop
  | done {d : Descriptor} (hv : ofValue? v = .ok d) :
    Reports file task v st s (.ok (complete st s (.ofText (printed d task))))
  | told {e : Descriptor.Error} (hv : ofValue? v = .error (.refused e)) :
    Reports file task v st s (.ok (complete st s (malformed file e)))
  /-- The keys of a dictionary have no order. -/
  | unordered (hv : ofValue? v = .error (.fault .kind)) (h : v.Disordered) :
    Reports file task v st s (.error (.fault .kind))
  /-- The data cannot be written. -/
  | unwritable (hv : ofValue? v = .error (.fault .digits)) (h : v.hasText = false) :
    Reports file task v st s (.error (.fault .digits))

/-- A run that comes to its task reports what reading the descriptor answers. -/
theorem Comes.reports (h : Comes libs w vars words x o st s y) (habout : About file o.task)
    (hdata : (Descriptor.data libs.yaml file).run w (w.record y (startRecord o.task)) =
      (.ok v, z)) :
    Reports file o.task v st s ((run libs vars words).run w x).1 := by
  have hends : Ends v (ofValue? v) := Descriptor.ends_ofValue?
  cases hv : ofValue? v with
  | ok d =>
    rw [h.run_of_ok (run_doTask_of_ok habout hdata hv)]
    exact .done hv
  | error e =>
    have htask : (doTask libs s.layout o.task).run w y =
        (.error (e.map fun cause => .descriptor (.invalid file cause)), z) :=
      run_doTask_of_error habout hdata hv
    -- how the reader ends decides how the run does
    rw [hv] at hends
    cases hends with
    | refusal e =>
      rw [h.run_of_refused htask, ofProblem_invalid]
      exact .told hv
    | unordered hkeys =>
      rw [h.run_of_fault htask]
      exact .unordered hv hkeys
    | unwritable htext =>
      rw [h.run_of_fault htask]
      exact .unwritable hv htext

/-- Whatever the data, each reader of a descriptor gives an answer or refuses them, unless their
keys have no order or they cannot be written; and a run that comes to read them ends accordingly.
Unknown attributes in two parts without an order between them do lead to a fault. -/
theorem reading_ends (v : Value) :
    (Ends v (Descriptor.rule? v) ∧ Ends v (Descriptor.rules? v) ∧
      Ends v (Descriptor.moduleDependency? v) ∧ Ends v (Descriptor.platformDependency? v) ∧
      Ends v (Descriptor.dependency? v) ∧ Ends v (ofValue? v)) ∧
    (∀ (σ : Type) (libs : Libraries) (w : World σ) (vars : Config.Environment.Variables)
      (words : List String) (x y z : σ) (o : Options) (st : Config.Store) (s : Session)
      (file : String),
      Comes libs w vars words x o st s y → About file o.task →
      (Descriptor.data libs.yaml file).run w (w.record y (startRecord o.task)) = (.ok v, z) →
      Reports file o.task v st s ((run libs vars words).run w x).1) ∧
    (∀ entries : Descriptor.Entries, v = .dict entries →
      (∀ kind : Rule.Kind,
        Value.Divided (unknown [if kind.isSet then "paths" else "path"] entries) →
        Descriptor.rule? (.dict [(.str kind.text, v)]) = .error (.fault .kind) ∧
          Descriptor.rules? (.list [.dict [(.str kind.text, v)]]) = .error (.fault .kind)) ∧
      (Value.Divided (unknown Descriptor.moduleAttributes entries) →
        Descriptor.moduleDependency? v = .error (.fault .kind) ∧
          (Value.field? "system" entries = none →
            Descriptor.dependency? v = .error (.fault .kind))) ∧
      (Value.Divided (unknown Descriptor.platformAttributes entries) →
        Descriptor.platformDependency? v = .error (.fault .kind)) ∧
      (Value.Divided (unknown Descriptor.attributes entries) →
        ofValue? v = .error (.fault .kind))) := by
  refine ⟨?_, ?_, ?_⟩
  · exact ⟨Descriptor.ends_rule?, Descriptor.ends_rules?, Descriptor.ends_moduleDependency?,
      Descriptor.ends_platformDependency?, Descriptor.ends_dependency?, Descriptor.ends_ofValue?⟩
  · intro σ libs w vars words x y z o st s file hcomes habout hdata
    exact hcomes.reports habout hdata
  · rintro entries rfl
    refine ⟨fun kind h => ?_, fun h => ?_, Descriptor.platformDependency?_of_divided,
      Descriptor.ofValue?_of_divided⟩
    · exact ⟨Descriptor.rule?_of_divided h, Descriptor.rules?_of_divided h⟩
    · exact ⟨Descriptor.moduleDependency?_of_divided h,
        fun hsystem => Descriptor.dependency?_of_divided hsystem h⟩

/-! ### Mixed keys -/

/-- The entries of a dictionary with a number and a text as unknown attributes. -/
def mixedEntries : Descriptor.Entries :=
  [(.str "name", .str "m"), (.int 1, .null), (.str "x", .null)]

/-- Whether or not the name is allowed, the number is a part of its own. -/
theorem divided_mixedEntries {allowed : List String} (h : "x" ∉ allowed) :
    Value.Divided (unknown allowed mixedEntries) := by
  have hkeys : ∀ k ∈ unknown allowed mixedEntries, k = .int 1 ∨ ∃ s, k = .str s := by
    intro k hk
    have hmem : k ∈ mixedEntries.map (·.1) := (Descriptor.mem_unknown.1 hk).1
    simp only [mixedEntries, List.map_cons, List.map_nil, List.mem_cons, List.not_mem_nil,
      or_false] at hmem
    rcases hmem with rfl | rfl | rfl
    · exact .inr ⟨"name", rfl⟩
    · exact .inl rfl
    · exact .inr ⟨"x", rfl⟩
  -- the number stands on the one side and the texts on the other
  refine ⟨(· = .int 1), ⟨.int 1, ?_, rfl⟩, ⟨.str "x", ?_, fun hx => by cases hx⟩, ?_⟩
  · exact Descriptor.mem_unknown.2 ⟨by simp [mixedEntries], fun a _ ha => by cases ha⟩
  · refine Descriptor.mem_unknown.2 ⟨by simp [mixedEntries], fun a ha hx => ?_⟩
    obtain rfl : "x" = a := Value.str.inj hx
    exact h ha
  · rintro k - k' hk' rfl hne
    rcases hkeys k' hk' with rfl | ⟨s, rfl⟩
    · exact absurd rfl hne
    · exact ⟨rfl, rfl⟩

/-- A tree with a descriptor file that holds such entries. -/
def mixedTree : Tree := { files := [(Path.ofText "m.yaml", "name: m\n1:\nx:\n")] }

/-- A command line on that tree comes to read the file, and the entries have what leads each reader
to a fault. -/
theorem run_mixedTree :
    (∃ (st : Config.Store) (s : Session) (v : Value),
      Comes .builtIn mixedTree.fileSystem.world [] ["describe", "m.yaml"] ()
        ⟨none, false, .describe "m.yaml"⟩ st s () ∧
      (Descriptor.data Libraries.builtIn.yaml "m.yaml").run mixedTree.fileSystem.world () =
        (.ok v, ()) ∧
      Reports "m.yaml" (.describe "m.yaml") v st s
        ((run .builtIn [] ["describe", "m.yaml"]).run mixedTree.fileSystem.world ()).1) ∧
    (Value.Divided (unknown ["path"] mixedEntries) ∧
      Descriptor.rule? (.dict [(.str "include", .dict mixedEntries)]) = .error (.fault .kind)) ∧
    (Value.field? "system" mixedEntries = none ∧
      Value.Divided (unknown Descriptor.moduleAttributes mixedEntries) ∧
      Descriptor.moduleDependency? (.dict mixedEntries) = .error (.fault .kind) ∧
      Descriptor.dependency? (.dict mixedEntries) = .error (.fault .kind)) ∧
    (Value.Divided (unknown Descriptor.platformAttributes mixedEntries) ∧
      Descriptor.platformDependency? (.dict mixedEntries) = .error (.fault .kind)) ∧
    (Value.Divided (unknown Descriptor.attributes mixedEntries) ∧
      ofValue? (.dict mixedEntries) = .error (.fault .kind)) := by
  obtain ⟨-, -, hfaults⟩ := reading_ends (.dict mixedEntries)
  obtain ⟨hrule, hdependency, hplatform, hdescriptor⟩ := hfaults mixedEntries rfl
  refine ⟨?_, ?_, ?_, ?_, ?_⟩
  -- the run comes to its task, and the file is read
  · obtain ⟨st, s, hcomes⟩ : ∃ st s, Comes .builtIn mixedTree.fileSystem.world []
        ["describe", "m.yaml"] () ⟨none, false, .describe "m.yaml"⟩ st s () :=
      exists_comes rfl (by decide +kernel)
    obtain ⟨v, hdata⟩ : ∃ v,
        (Descriptor.data Libraries.builtIn.yaml "m.yaml").outcome mixedTree.fileSystem = .ok v :=
      Outcome.exists_of_isOk (by decide +kernel)
    have hdata : (Descriptor.data Libraries.builtIn.yaml "m.yaml").run
        mixedTree.fileSystem.world () = (.ok v, ()) := by
      rw [Program.run_world, hdata]
    obtain ⟨-, hruns, -⟩ := reading_ends v
    exact ⟨st, s, v, hcomes, hdata, hruns _ _ _ _ _ _ _ _ _ _ _ _ hcomes rfl hdata⟩
  · have h : Value.Divided (unknown ["path"] mixedEntries) := divided_mixedEntries (by decide)
    exact ⟨h, (hrule .includePath h).1⟩
  · have h : Value.Divided (unknown Descriptor.moduleAttributes mixedEntries) :=
      divided_mixedEntries (by decide)
    exact ⟨rfl, h, (hdependency h).1, (hdependency h).2 rfl⟩
  · have h : Value.Divided (unknown Descriptor.platformAttributes mixedEntries) :=
      divided_mixedEntries (by decide)
    exact ⟨h, hplatform h⟩
  · have h : Value.Divided (unknown Descriptor.attributes mixedEntries) :=
      divided_mixedEntries (by decide)
    exact ⟨h, hdescriptor h⟩

/-- On such entries no reader gives an answer and none refuses, and neither does the run of a
command line that comes to read them. -/
theorem mixedEntries_not_refused :
    Descriptor.rule? (.dict [(.str "include", .dict mixedEntries)]) = .error (.fault .kind) ∧
      Descriptor.rules? (.list [.dict [(.str "include", .dict mixedEntries)]]) =
        .error (.fault .kind) ∧
      Descriptor.moduleDependency? (.dict mixedEntries) = .error (.fault .kind) ∧
      Descriptor.platformDependency? (.dict mixedEntries) = .error (.fault .kind) ∧
      Descriptor.dependency? (.dict mixedEntries) = .error (.fault .kind) ∧
      ofValue? (.dict mixedEntries) = .error (.fault .kind) ∧
      (run .builtIn [] ["describe", "m.yaml"]).outcome mixedTree.fileSystem matches
        .error (.fault .kind) := by
  refine ⟨rfl, rfl, rfl, rfl, rfl, rfl, ?_⟩
  decide +kernel

end Command

end ModulePath
