import ModulePath.Proofs.Program.Outcome

/-!
# What programs do

The trace of a program on a file system, computed along the ways in which programs are put together.
A sequence does what its first part does; if that ends in an answer, it then does what the rest does
with this answer, and else nothing more (`events_bind_of_ok`, `events_bind_of_error`). What holds of
every event of the parts holds of every event of the whole (`Does.bind`).
-/

set_option autoImplicit false

namespace ModulePath

/-! ## Events -/

namespace Event

/-- An event that is a look at the tree: no file is read and nothing is logged. -/
def IsLook : Event → Prop
  | asked (.presence _) | asked (.kind _) | asked (.access _) | asked (.listing _) => True
  | asked (.content _) | asked (.home _) | asked (.openLog ..) | logged _ => False

/-- No file is read. -/
def Unread : Event → Prop
  | asked (.content _) => False
  | asked (.presence _) | asked (.kind _) | asked (.access _) | asked (.listing _) => True
  | asked (.home _) | asked (.openLog ..) | logged _ => True

/-- If a record is logged, it has a property. -/
def Logs (P : Log.Record → Prop) : Event → Prop
  | logged r => P r
  | asked _ => True

variable {x : Event}

theorem IsLook.unread (h : x.IsLook) : x.Unread := by
  match x, h with
  | asked (.presence _), _ | asked (.kind _), _ | asked (.access _), _ | asked (.listing _), _ =>
    exact trivial

theorem Logs.imp {P Q : Log.Record → Prop} (hPQ : ∀ r, P r → Q r) (h : x.Logs P) : x.Logs Q := by
  match x, h with
  | logged r, hr => exact hPQ r hr
  | asked _, _ => exact trivial

theorem IsLook.logs (P : Log.Record → Prop) (h : x.IsLook) : x.Logs P := by
  match x, h with
  | asked _, _ => exact trivial

end Event

namespace Program

variable {ε δ α β : Type} {fs : FileSystem} {p : Program ε α} {f : α → Program ε β} {a : α}
  {e : Failure ε}

/-! ## Sequences -/

/-- What follows a result does so after it. -/
theorem events_bind_of_ok (h : p.outcome fs = .ok a) :
    (p >>= f).events fs = p.events fs ++ (f a).events fs := by
  change (p.andThen f).events fs = _
  induction p with
  | done r =>
    obtain rfl : r = .ok a := h
    rfl
  | log r next ih => exact congrArg (Event.logged r :: ·) (ih h)
  | ask q next ih => exact congrArg (Event.asked q :: ·) (ih (fs.answer q) h)

/-- A failure ends a sequence. -/
theorem events_bind_of_error (h : p.outcome fs = .error e) :
    (p >>= f).events fs = p.events fs := by
  change (p.andThen f).events fs = _
  induction p with
  | done r =>
    obtain rfl : r = .error e := h
    rfl
  | log r next ih => exact congrArg (Event.logged r :: ·) (ih h)
  | ask q next ih => exact congrArg (Event.asked q :: ·) (ih (fs.answer q) h)

theorem reads_bind_of_ok (h : p.outcome fs = .ok a) :
    (p >>= f).reads fs = p.reads fs ++ (f a).reads fs := by
  simp only [reads, queries, events_bind_of_ok h, List.filterMap_append]

theorem reads_bind_of_error (h : p.outcome fs = .error e) : (p >>= f).reads fs = p.reads fs := by
  simp only [reads, queries, events_bind_of_error h]

/-- After a result, the records go on. -/
theorem records_bind_of_ok (h : p.outcome fs = .ok a) :
    (p >>= f).records fs = p.records fs ++ (f a).records fs := by
  simp only [records, events_bind_of_ok h, List.filterMap_append]

/-- After a failure nothing more is recorded. -/
theorem records_bind_of_error (h : p.outcome fs = .error e) :
    (p >>= f).records fs = p.records fs := by
  simp only [records, events_bind_of_error h]

/-! ## Files that are read -/

@[simp] theorem reads_note_bind (r : Log.Record) (f : Unit → Program ε α) :
    (note r >>= f).reads fs = (f ()).reads fs := rfl

@[simp] theorem reads_isDirectory_bind (q : Path) (f : Bool → Program ε α) :
    (isDirectory q >>= f).reads fs = (f (fs.isDirectory q)).reads fs := rfl

@[simp] theorem reads_isReadable_bind (q : Path) (f : Bool → Program ε α) :
    (isReadable q >>= f).reads fs = (f (fs.isReadable q)).reads fs := rfl

@[simp] theorem reads_isPresent_bind (q : Path) (f : Bool → Program ε α) :
    (isPresent q >>= f).reads fs = (f (fs.contains q)).reads fs := by
  have hnone : (isPresent q : Program ε Bool).reads fs = [] := by
    unfold isPresent reads queries
    rw [events, FileSystem.answer]
    cases fs.presence q with
    | ok b => rfl
    | error e => rfl
  rw [reads_bind_of_ok (outcome_isPresent q), hnone, List.nil_append]

/-- A text is read once, whether or not it can be. -/
theorem reads_text (q : Path) (cause : String → ε) : (text q cause).reads fs = [q] := by
  unfold text reads queries
  rw [events, FileSystem.answer]
  cases fs.content q with
  | ok c => rfl
  | error reason => rfl

theorem reads_within (c : Log.Context) (p : Program ε α) : (p.within c).reads fs = p.reads fs := by
  have hqueries : (p.within c).queries fs = p.queries fs := by
    induction p with
    | done r => rfl
    | log r next ih => exact ih
    | ask q next ih => exact congrArg (q :: ·) (ih (fs.answer q))
  rw [reads, reads, hqueries]

/-! ## Records that are logged -/

theorem records_note_bind (r : Log.Record) (f : Unit → Program ε α) :
    (note r >>= f).records fs = r :: (f ()).records fs := rfl

@[simp] theorem records_isDirectory_bind (q : Path) (f : Bool → Program ε α) :
    (isDirectory q >>= f).records fs = (f (fs.isDirectory q)).records fs := rfl

/-- A context is put around each record. -/
theorem records_within (c : Log.Context) (p : Program ε α) :
    (p.within c).records fs = (p.records fs).map (Log.Record.within c) := by
  induction p with
  | done r => rfl
  | log r next ih => exact congrArg (r.within c :: ·) ih
  | ask q next ih => exact ih (fs.answer q)

/-! ## Events of a kind -/

/-- All that a program does has a property. -/
def Does (fs : FileSystem) (E : Event → Prop) (p : Program ε α) : Prop := ∀ x ∈ p.events fs, E x

section Does

variable {E : Event → Prop}

/-- What a program does may be described in a weaker way. -/
theorem Does.imp {E' : Event → Prop} (h : Does fs E p) (hE : ∀ x, E x → E' x) : Does fs E' p :=
  fun x hx => hE x (h x hx)

theorem does_done (r : Outcome ε α) : Does fs E (done r) := List.forall_mem_nil _

theorem does_pure (a : α) : Does fs E (pure a : Program ε α) := does_done _

theorem does_refuse (cause : ε) : Does fs E (refuse cause : Program ε α) := does_done _

/-- What is done before and what is done after a result. -/
theorem Does.bind (hp : Does fs E p) (hf : ∀ a, p.outcome fs = .ok a → Does fs E (f a)) :
    Does fs E (p >>= f) := by
  unfold Does
  cases h : p.outcome fs with
  | ok a =>
    rw [events_bind_of_ok h]
    exact List.forall_mem_append.2 ⟨hp, hf a h⟩
  | error e =>
    rw [events_bind_of_error h]
    exact hp

theorem Does.ite {b : Bool} {q : Program ε α} (hp : Does fs E p) (hq : Does fs E q) :
    Does fs E (if b then p else q) := by
  cases b with
  | true => exact hp
  | false => exact hq

theorem Does.mapCause {g : ε → δ} (hp : Does fs E p) : Does fs E (p.mapCause g) := by
  induction p with
  | done r => exact does_done _
  | log r next ih =>
    obtain ⟨hr, hnext⟩ := List.forall_mem_cons.1 hp
    exact List.forall_mem_cons.2 ⟨hr, ih hnext⟩
  | ask q next ih =>
    obtain ⟨hq, hnext⟩ := List.forall_mem_cons.1 hp
    exact List.forall_mem_cons.2 ⟨hq, ih (fs.answer q) hnext⟩

theorem does_note {r : Log.Record} (h : E (.logged r)) : Does fs E (note r : Program ε Unit) :=
  List.forall_mem_singleton.2 h

theorem does_isDirectory {q : Path} (h : E (.asked (.kind q))) :
    Does fs E (isDirectory q : Program ε Bool) :=
  List.forall_mem_singleton.2 h

theorem does_isReadable {q : Path} (h : E (.asked (.access q))) :
    Does fs E (isReadable q : Program ε Bool) :=
  List.forall_mem_singleton.2 h

theorem does_isPresent {q : Path} (h : E (.asked (.presence q))) :
    Does fs E (isPresent q : Program ε Bool) := by
  unfold Does isPresent
  rw [events, FileSystem.answer]
  cases fs.presence q with
  | ok b => exact List.forall_mem_singleton.2 h
  | error e => exact List.forall_mem_singleton.2 h

theorem does_subdirectories {q : Path} {cause : String → ε} (h : E (.asked (.listing q))) :
    Does fs E (subdirectories q cause) :=
  List.forall_mem_singleton.2 h

theorem does_text {q : Path} {cause : String → ε} (h : E (.asked (.content q))) :
    Does fs E (text q cause) := by
  unfold Does text
  rw [events, FileSystem.answer]
  cases fs.content q with
  | ok c => exact List.forall_mem_singleton.2 h
  | error reason => exact List.forall_mem_singleton.2 h

/-- The second of two tests is made only if the first one holds. -/
theorem Does.isUsable_bind {b : Bool} {q : Path} {f : Bool → Program ε α}
    (h : E (.asked (.access q))) (hf : ∀ usable, Does fs E (f usable)) :
    Does fs E (if b then isReadable q >>= f else pure false >>= f) :=
  .ite ((does_isReadable h).bind fun usable _ => hf usable) (hf false)

/-! ### Programs that do not read or do not log -/

/-- A program that does nothing but ask other questions reads no file. -/
theorem Does.reads_eq_nil (h : Does fs Event.Unread p) : p.reads fs = [] := by
  rw [reads, queries, List.filterMap_filterMap, List.filterMap_eq_nil_iff]
  intro x hx
  match x, h x hx with
  | .logged r, _ => rfl
  | .asked (.presence q), _ | .asked (.kind q), _ => rfl
  | .asked (.access q), _ | .asked (.listing q), _ => rfl
  | .asked (.home user), _ | .asked (.openLog file level), _ => rfl

/-- What reads no file can be left out at the end. -/
theorem reads_bind_of_unread (hf : ∀ a, Does fs Event.Unread (f a)) :
    (p >>= f).reads fs = p.reads fs := by
  cases h : p.outcome fs with
  | ok a => rw [reads_bind_of_ok h, (hf a).reads_eq_nil, List.append_nil]
  | error e => exact reads_bind_of_error h

/-- The records that a program writes are those among its events. -/
theorem does_logs_iff {P : Log.Record → Prop} :
    Does fs (Event.Logs P) p ↔ ∀ r ∈ p.records fs, P r := by
  constructor
  · intro h r hr
    obtain ⟨x, hx, hrecord⟩ := List.mem_filterMap.1 hr
    match x, hrecord with
    | .logged _, rfl => exact h _ hx
  · intro h x hx
    match x, hx with
    | .asked q, _ => exact trivial
    | .logged r, hx => exact h r (List.mem_filterMap.2 ⟨_, hx, rfl⟩)

/-- Where nothing may be logged there is no record. -/
theorem Does.records_eq_nil (h : Does fs (Event.Logs fun _ => False) p) : p.records fs = [] :=
  List.eq_nil_iff_forall_not_mem.2 (does_logs_iff.1 h)

end Does

end Program

end ModulePath
