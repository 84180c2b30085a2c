import ModulePath.Program.Trace

/-!
# Confined programs

A program is confined to a set of paths if it asks about no others, whatever it is answered, and
does not depend on the order in which directories are listed (`Program.Confined`). On file systems
that agree about these paths a confined program ends in the same outcome (`Confined.outcome_eq`).

What a program may be answered is restricted in one point: the names in a listing are those of a
given set. A program that goes on to the listed directories is confined for no other reason.
-/

set_option autoImplicit false

namespace ModulePath

/-! ## Questions and answers -/

namespace Query

/-- The path that a question is about. -/
def path? : Query → Option Path
  | presence p | kind p | access p | listing p | content p => some p
  | home _ | openLog .. => none

/-- An answer lists only names of a set, if it lists names at all. -/
def Allows (N : String → Prop) : (q : Query) → q.Answer → Prop
  | listing _, answer => ∀ names, answer = .ok names → ∀ name ∈ names, N name
  | presence _, _ | kind _, _ | access _, _ | content _, _ | home _, _ | openLog .., _ => True

/-- Two answers are the same, but for the order of the names in a listing. -/
def Alike : (q : Query) → q.Answer → q.Answer → Prop
  | listing _, answer, answer' =>
    answer = answer' ∨
      ∃ names names' : List String, answer = .ok names ∧ answer' = .ok names' ∧ names.Perm names'
  | presence _, answer, answer' | kind _, answer, answer' | access _, answer, answer'
  | content _, answer, answer' | home _, answer, answer' | openLog .., answer, answer' =>
    answer = answer'

end Query

namespace FileSystem

/-- At the paths of a set, a file system lists only names of a set. -/
def Lists (fs : FileSystem) (S : Path → Prop) (N : String → Prop) : Prop :=
  ∀ (q : Query) (p : Path), q.path? = some p → S p → q.Allows N (fs.answer q)

/-- Two file systems answer alike about the paths of a set. -/
def AgreeOn (S : Path → Prop) (fs fs' : FileSystem) : Prop :=
  ∀ (q : Query) (p : Path), q.path? = some p → S p → q.Alike (fs.answer q) (fs'.answer q)

end FileSystem

namespace Program

variable {ε δ α β : Type} {S : Path → Prop} {N : String → Prop} {Q : α → Prop} {R : β → Prop}

/-- A program asks only about the paths in `S`, does not depend on the order of listed names, and
ends in answers that satisfy `Q`, if listed names are those of `N`. -/
inductive Confined (S : Path → Prop) (N : String → Prop) (Q : α → Prop) : Program ε α → Prop
  | done {r : Outcome ε α} (h : ∀ a, r = .ok a → Q a) : Confined S N Q (done r)
  | log {r : Log.Record} {next : Program ε α} (h : Confined S N Q next) :
    Confined S N Q (log r next)
  | ask {q : Query} {next : q.Answer → Program ε α} (hpath : ∃ p, q.path? = some p ∧ S p)
    (hnext : ∀ a, q.Allows N a → Confined S N Q (next a))
    (hsame : ∀ a a', q.Alike a a' → next a = next a') : Confined S N Q (ask q next)

namespace Confined

/-! ## What confinement is for -/

section Runs

variable {fs fs' : FileSystem} {p : Program ε α}

/-- Every question of a confined program is about a path of the set. -/
theorem path_of_mem_queries (h : Confined S N Q p) (hfs : fs.Lists S N) :
    ∀ q ∈ p.queries fs, ∃ path, q.path? = some path ∧ S path := by
  induction h with
  | done h => exact List.forall_mem_nil _
  | log h ih => exact ih
  | @ask q next hpath hnext hsame ih =>
    obtain ⟨path, hq, hS⟩ := hpath
    have hrest := ih (fs.answer q) (hfs q path hq hS)
    exact List.forall_mem_cons.2 ⟨⟨path, hq, hS⟩, hrest⟩

/-- Every result of a confined program is as it should be. -/
theorem of_outcome_eq_ok (h : Confined S N Q p) (hfs : fs.Lists S N) {a : α}
    (hok : p.outcome fs = .ok a) : Q a := by
  induction h with
  | done h => exact h a hok
  | log h ih => exact ih hok
  | @ask q next hpath hnext hsame ih =>
    obtain ⟨path, hq, hS⟩ := hpath
    exact ih (fs.answer q) (hfs q path hq hS) hok

/-- File systems that agree about the paths are told apart by no confined program. -/
theorem outcome_eq (h : Confined S N Q p) (hfs : fs.Lists S N)
    (hagree : FileSystem.AgreeOn S fs fs') : p.outcome fs = p.outcome fs' := by
  induction h with
  | done h => rfl
  | log h ih => exact ih
  | @ask q next hpath hnext hsame ih =>
    obtain ⟨path, hq, hS⟩ := hpath
    -- the two answers differ at most in an order that does not count
    have hsame : next (fs.answer q) = next (fs'.answer q) := hsame _ _ (hagree q path hq hS)
    calc (next (fs.answer q)).outcome fs
        = (next (fs.answer q)).outcome fs' := ih (fs.answer q) (hfs q path hq hS)
      _ = (next (fs'.answer q)).outcome fs' := by rw [hsame]

end Runs

/-! ## How programs are put together -/

/-- What follows may rely on what the result before it is known to be. -/
theorem bind {p : Program ε α} {f : α → Program ε β} (hp : Confined S N Q p)
    (hf : ∀ a, Q a → Confined S N R (f a)) : Confined S N R (p >>= f) := by
  induction hp with
  | @done r h =>
    cases r with
    | ok a => exact hf a (h a rfl)
    | error e => exact .done nofun
  | log h ih => exact .log ih
  | ask hpath hnext hsame ih =>
    refine .ask hpath ih fun a a' halike => ?_
    change (_ >>= f) = (_ >>= f)
    rw [hsame a a' halike]

theorem pure {a : α} (h : Q a) : Confined S N Q (Pure.pure a : Program ε α) :=
  .done fun _ hb => Except.ok.inj hb ▸ h

theorem refuse {cause : ε} : Confined S N Q (Program.refuse cause) := .done nofun

theorem note_bind {r : Log.Record} {f : Unit → Program ε α} (h : Confined S N Q (f ())) :
    Confined S N Q (note r >>= f) := .log h

theorem mapCause {p : Program ε α} {g : ε → δ} (h : Confined S N Q p) :
    Confined S N Q (p.mapCause g) := by
  induction h with
  | @done r h =>
    cases r with
    | ok b => exact .done fun a ha => h a (congrArg Except.ok (Except.ok.inj ha))
    | error e => exact .done nofun
  | log _ ih => exact .log ih
  | ask hpath _ hsame ih =>
    refine .ask hpath ih fun a a' halike => ?_
    rw [hsame a a' halike]

/-- A context makes no difference to what is asked. -/
theorem within {p : Program ε α} {c : Log.Context} (h : Confined S N Q p) :
    Confined S N Q (p.within c) := by
  induction h with
  | done h => exact .done h
  | log _ ih => exact .log ih
  | ask hpath _ hsame ih =>
    refine .ask hpath ih fun a a' halike => ?_
    rw [hsame a a' halike]

/-! ## Asking -/

section Asking

variable {path : Path} {cause : String → ε}

theorem isDirectory (h : S path) :
    Confined S N (fun _ => True) (isDirectory path : Program ε Bool) := by
  refine .ask ⟨path, rfl, h⟩ (fun a _ => .done fun _ _ => trivial) ?_
  rintro a a' rfl
  rfl

theorem isReadable (h : S path) :
    Confined S N (fun _ => True) (isReadable path : Program ε Bool) := by
  refine .ask ⟨path, rfl, h⟩ (fun a _ => .done fun _ _ => trivial) ?_
  rintro a a' rfl
  rfl

theorem isPresent (h : S path) :
    Confined S N (fun _ => True) (isPresent path : Program ε Bool) := by
  refine .ask ⟨path, rfl, h⟩ (fun a _ => ?_) ?_
  · cases a with
    | ok b => exact .done fun _ _ => trivial
    | error f => exact .done fun _ _ => trivial
  · rintro a a' rfl
    rfl

theorem text (h : S path) : Confined S N (fun _ => True) (text path cause) := by
  refine .ask ⟨path, rfl, h⟩ (fun a _ => ?_) ?_
  · cases a with
    | ok c => exact .done fun _ _ => trivial
    | error reason => exact .done fun _ _ => trivial
  · rintro a a' rfl
    rfl

/-- What comes after a listing must not depend on the order of the names. -/
theorem subdirectories_bind {f : List String → Program ε α} (h : S path)
    (hf : ∀ names, (∀ name ∈ names, N name) → Confined S N Q (f names))
    (horder : ∀ names names', names.Perm names' → f names = f names') :
    Confined S N Q (subdirectories path cause >>= f) := by
  refine .ask ⟨path, rfl, h⟩ (fun a ha => ?_) ?_
  · cases a with
    | ok names => exact hf names (ha names rfl)
    | error reason => exact .done nofun
  · rintro a a' (rfl | ⟨names, names', rfl, rfl, hperm⟩)
    · rfl
    · exact horder names names' hperm

end Asking

end Confined

end Program

end ModulePath
