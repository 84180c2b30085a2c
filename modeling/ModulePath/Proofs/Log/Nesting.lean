import ModulePath.Proofs.Log.Calls
import ModulePath.Proofs.Log.Stack
import ModulePath.Proofs.Value.Parts

/-!
# Nested contexts

What a program logs is told here by the text of the program alone, without a stack: each call stands
inside certain blocks (`Site`), and the calls that are made are those that the course of the program
reaches (`Script.course`). A run emits exactly the records of these calls, each with the bindings of
the blocks around it and its own, and leaves the loggers as they were, whether the program ends
normally or is left by an exception at any depth (`Script.run_course`). An exception can come from a
call itself: it cannot be made, or a value that is bound at it has no text for the message.
-/

set_option autoImplicit false

namespace ModulePath.Log

/-! ## Calls and their records -/

/-- A call and where it stands: the contexts of the blocks around it, the outermost first. -/
structure Site where
  enclosing : List Context
  name : String
  call : Call

namespace Site

/-- All that is bound at a call, from the outside in. -/
def bindings (site : Site) : Context := site.enclosing.flatten ++ site.call.bindings

/-- Whether the message of a call can be written. -/
def hasMessage (site : Site) : Bool := (Context.update [] site.bindings).hasText

/-- Whether the logger of a call lets it pass. -/
def isHeard (r : Registry) (site : Site) : Bool :=
  match r.level? site.name with
  | .ok threshold => threshold.passes site.call.level
  | .error _ => false

/-- Why a call fails: it is not possible, or it passes and its message cannot be written. -/
def fault? (r : Registry) (site : Site) : Option Fault :=
  match r.fault? site.name site.call.taken site.call.fields with
  | some f => some f
  | none => if site.isHeard r && !site.hasMessage then some .digits else none

/-- A message can be written if the values can that keys are bound to last. -/
theorem hasMessage_iff {site : Site} : site.hasMessage = true ↔
    ∀ key v, valueOf? key site.bindings.reverse = some v → v.hasText = true :=
  Context.hasText_update_nil_iff site.bindings

/-- A call fails for its texts exactly if it is let through, is heard, and some field in force has a
value that cannot be written. -/
theorem fault?_eq_digits_iff {r : Registry} {site : Site} : site.fault? r = some .digits ↔
    r.fault? site.name site.call.taken site.call.fields = none ∧ site.isHeard r = true ∧
      ∃ key v, valueOf? key site.bindings.reverse = some v ∧ v.hasText = false := by
  have hmessage : site.hasMessage = false ↔
      ∃ key v, valueOf? key site.bindings.reverse = some v ∧ v.hasText = false := by
    rw [← Bool.not_eq_true, hasMessage_iff]
    simp only [not_forall, Bool.not_eq_true, exists_prop]
  rw [fault?, ← hmessage]
  cases hfault : r.fault? site.name site.call.taken site.call.fields with
  | none => simp
  | some f =>
    have hother : f ≠ .digits := Registry.ne_digits_of_fault? hfault
    simp [hother]

/-- A call comes to its end if none of its fields has a name that is taken and, where it is heard,
every field in force has a value that can be written. -/
theorem fault?_eq_none_iff {r : Registry} {site : Site} : site.fault? r = none ↔
    (∃ threshold, r.level? site.name = .ok threshold) ∧
      (∀ key ∈ site.call.fields.keys, key ∉ site.call.taken) ∧
      (site.isHeard r = true →
        ∀ key v, valueOf? key site.bindings.reverse = some v → v.hasText = true) := by
  rw [fault?, ← hasMessage_iff, ← and_assoc, ← Registry.fault?_eq_none_iff]
  cases r.fault? site.name site.call.taken site.call.fields with
  | none => simp
  | some f => simp

end Site

/-- A record says what its call does. Its context has every key that is bound, in the order of the
first bindings, with the value of the last. -/
structure Describes (site : Site) (rec : Record) : Prop where
  logger : rec.logger = site.name
  level : rec.level = site.call.level
  text : rec.text = site.call.text
  exception : rec.exception = site.call.isException
  keys : rec.context.keys = site.bindings.keys.eraseDups
  values : ∀ key, valueOf? key rec.context = valueOf? key site.bindings.reverse
  bare : rec.context = [] → rec.message = site.call.text
  annotated : rec.context ≠ [] → rec.message = site.call.text ++ " | " ++
    String.intercalate " " (rec.context.map fun e => e.1 ++ "=" ++ e.2.display)

/-- The records of calls in turn: a call has one exactly when its level is at least that of its
logger. -/
inductive Emits (r : Registry) : List Site → List Record → Prop
  | done : Emits r [] []
  | passes {site : Site} {sites : List Site} {rec : Record} {records : List Record}
    {threshold : Level} (hlevel : r.level? site.name = .ok threshold)
    (h : threshold.number ≤ site.call.level.number) (hrec : Describes site rec)
    (hrest : Emits r sites records) : Emits r (site :: sites) (rec :: records)
  | stops {site : Site} {sites : List Site} {records : List Record} {threshold : Level}
    (hlevel : r.level? site.name = .ok threshold)
    (h : site.call.level.number < threshold.number) (hrest : Emits r sites records) :
    Emits r (site :: sites) records

/-- The records of one part of a run are followed by those of the next. -/
theorem Emits.append {r : Registry} {sites sites' : List Site} {records records' : List Record}
    (h : Emits r sites records) (h' : Emits r sites' records') :
    Emits r (sites ++ sites') (records ++ records') := by
  induction h with
  | done => exact h'
  | passes hlevel h hrec _ ih => exact .passes hlevel h hrec ih
  | stops hlevel h _ ih => exact .stops hlevel h ih

/-! ## The course of a program -/

/-- The calls that a program makes, and how it ends. -/
structure Course where
  sites : List Site
  ending : Except Raised Unit

/-- A course that goes on where another one ended. -/
def Course.before (start next : Course) : Course := ⟨start.sites ++ next.sites, next.ending⟩

/-- The course of a program inside of blocks. -/
def Script.course (r : Registry) : Script → List Context → Course
  | skip, _ => ⟨[], .ok ()⟩
  | raise e, _ => ⟨[], .error e⟩
  | log name call, enclosing =>
    match Site.fault? r ⟨enclosing, name, call⟩ with
    | none => ⟨[⟨enclosing, name, call⟩], .ok ()⟩
    | some f => ⟨[], .error (.fault f)⟩
  | inContext name fields body, enclosing =>
    match r.fault? name ["self"] fields with
    | none => body.course r (enclosing ++ [fields])
    | some f => ⟨[], .error (.fault f)⟩
  | seq first second, enclosing =>
    let start := first.course r enclosing
    match start.ending with
    | .ok _ => start.before (second.course r enclosing)
    | .error _ => start
  | attempt body handler, enclosing =>
    let start := body.course r enclosing
    match start.ending with
    | .ok _ => start
    | .error e => start.before ((handler e).course r enclosing)

/-! ## One call -/

section Calls

variable {r : Registry} {name : String} {enclosing : List Context} {call : Call}

/-- A record whose context binds in turn all that is bound at its call. -/
theorem describes_of_context {site : Site} {rec : Record} (hlogger : rec.logger = site.name)
    (hlevel : rec.level = site.call.level) (htext : rec.text = site.call.text)
    (hexception : rec.exception = site.call.isException)
    (hcontext : rec.context = Context.update [] site.bindings) : Describes site rec where
  logger := hlogger
  level := hlevel
  text := htext
  exception := hexception
  keys := by rw [hcontext, Context.keys_update_nil]
  values key := by rw [hcontext, Context.valueOf?_update_nil]
  bare h := by
    rw [Record.message, h, List.isEmpty_nil, if_pos rfl, htext]
  annotated h := by
    rw [Record.message, if_neg (by simpa using h), htext]
    rfl

/-- The context of a record binds in turn all that is bound at its call. -/
theorem context_record :
    (call.record name enclosing).context =
      Context.update [] (Site.mk enclosing name call).bindings := by
  cases call with
  | plain e =>
    change Context.update (Context.ofFrames enclosing) e.fields = _
    rw [Context.ofFrames_eq_update, ← Context.update_append]
    rfl
  | exception text fields kind exceptionText =>
    change Context.update (Context.ofFrames enclosing)
      (Context.update (Context.update [] fields) (exceptionFields kind exceptionText)) = _
    rw [Context.update_update_frame, Context.ofFrames_eq_update, ← Context.update_append,
      ← Context.update_append]
    rfl

/-- The record of a call describes its place. -/
theorem describes_record : Describes ⟨enclosing, name, call⟩ (call.record name enclosing) := by
  apply describes_of_context
  case hlogger | hlevel | htext | hexception => cases call <;> rfl
  case hcontext => exact context_record

/-- A call fails as its place tells, or emits its record if it is heard. -/
theorem perform_at (enclosing : List Context) :
    Registry.perform { r with frames := enclosing } name call =
      match Site.fault? r ⟨enclosing, name, call⟩ with
      | some f => .error f
      | none => .ok (if Site.isHeard r ⟨enclosing, name, call⟩ then [call.record name enclosing]
          else []) := by
  have hsame : Registry.fault? { r with frames := enclosing } name call.taken call.fields =
      r.fault? name call.taken call.fields := rfl
  have hlevel : Registry.level? { r with frames := enclosing } name = r.level? name := rfl
  have hcall : (call.record name enclosing).level = call.level := by cases call <;> rfl
  rw [Registry.perform_eq, hsame, hlevel, Site.fault?, Site.isHeard, Site.hasMessage,
    ← context_record]
  cases hfault : r.fault? name call.taken call.fields with
  | some f => rfl
  | none =>
    -- a call that is let through is asked for its level first and for its texts then
    obtain ⟨threshold, hthreshold⟩ := (Registry.fault?_eq_none_iff.1 hfault).1
    rw [hthreshold]
    change (call.record name enclosing).emitted threshold = _
    rw [Record.emitted, hcall]
    by_cases hpasses : threshold.passes call.level = true
    · by_cases htext : (call.record name enclosing).context.hasText = true
      · simp [hpasses, htext]
      · simp [hpasses, htext]
    · simp [hpasses]

/-- A call that does not fail is heard exactly if its level is at least that of its logger. -/
theorem emits_of_fault?_eq_none (h : Site.fault? r ⟨enclosing, name, call⟩ = none) :
    Emits r [⟨enclosing, name, call⟩]
      (if Site.isHeard r ⟨enclosing, name, call⟩ then [call.record name enclosing] else []) := by
  have hpossible : r.fault? name call.taken call.fields = none := by
    rw [Site.fault?] at h
    cases hfault : r.fault? name call.taken call.fields with
    | some f =>
      rw [hfault] at h
      cases h
    | none => rfl
  obtain ⟨threshold, hlevel⟩ := (Registry.fault?_eq_none_iff.1 hpossible).1
  rw [Site.isHeard, hlevel]
  dsimp only
  by_cases hpasses : threshold.passes call.level = true
  · rw [if_pos hpasses]
    exact .passes hlevel (of_decide_eq_true hpasses) describes_record .done
  · rw [if_neg hpasses]
    exact .stops hlevel (Nat.lt_of_not_le fun h => hpasses (decide_eq_true h)) .done

end Calls

/-! ## A whole run -/

/-- With these contexts on the stack, a program emits the records of its course inside of them, and
the stack is the same after it. -/
theorem Script.run_inside (r : Registry) (s : Script) (enclosing : List Context) :
    ∃ records, Emits r (s.course r enclosing).sites records ∧
      s.run { r with frames := enclosing } =
        ⟨(s.course r enclosing).ending, { r with frames := enclosing }, records⟩ := by
  -- on the program, for all contexts at once: the body of a block runs with one more
  induction s generalizing enclosing with
  | skip => exact ⟨[], .done, rfl⟩
  | raise e => exact ⟨[], .done, rfl⟩
  | log name call =>
    rw [course, run, perform_at enclosing]
    cases hfault : Site.fault? r ⟨enclosing, name, call⟩ with
    | none => exact ⟨_, emits_of_fault?_eq_none hfault, rfl⟩
    | some f => exact ⟨[], .done, rfl⟩
  | inContext name fields body ih =>
    rw [course, run, Registry.push_eq]
    have hsame : Registry.fault? { r with frames := enclosing } name ["self"] fields =
        r.fault? name ["self"] fields := rfl
    rw [hsame]
    cases r.fault? name ["self"] fields with
    | some f => exact ⟨[], .done, rfl⟩
    | none =>
      obtain ⟨records, hemits, hrun⟩ := ih (enclosing ++ [fields])
      refine ⟨records, hemits, ?_⟩
      dsimp only
      -- however the body ends, the innermost context is the one that was entered
      rw [hrun]
      dsimp only
      rw [Registry.pop_pushed (r := { r with frames := enclosing })]
  | seq first second ihfirst ihsecond =>
    obtain ⟨records, hemits, hrun⟩ := ihfirst enclosing
    rw [course, run, hrun]
    dsimp only
    cases hending : (first.course r enclosing).ending with
    | error e =>
      exact ⟨records, hemits, by rw [hending]⟩
    | ok =>
      -- the second part starts with the stack that the first one left as it was
      obtain ⟨records', hemits', hrun'⟩ := ihsecond enclosing
      refine ⟨records ++ records', hemits.append hemits', ?_⟩
      dsimp only
      rw [hrun']
      rfl
  | attempt body handler ihbody ihhandler =>
    obtain ⟨records, hemits, hrun⟩ := ihbody enclosing
    rw [course, run, hrun]
    dsimp only
    cases hending : (body.course r enclosing).ending with
    | ok =>
      exact ⟨records, hemits, by rw [hending]⟩
    | error e =>
      -- so does the handler: the blocks that the exception has left are gone from the stack
      obtain ⟨records', hemits', hrun'⟩ := ihhandler e enclosing
      refine ⟨records ++ records', hemits.append hemits', ?_⟩
      dsimp only
      rw [hrun']
      rfl

/-- A run of a program makes the calls that its course reaches. Each emits a record exactly when its
level is at least that of its logger, and the record has the bindings of the blocks around the call
and then those of the call itself. After every block the loggers are those before it, with the same
contexts around the next call, in whichever way the block ends.

The course goes on after a call unless the call raises an exception. On a logger that is there, a
call raises one for a field with a name that is taken, and otherwise exactly when its level is at
least that of its logger and some key is bound last to a value that cannot be written. -/
theorem Script.run_course (s : Script) (r : Registry) :
    (∃ records, Emits r (s.course r r.frames).sites records ∧
      s.run r = ⟨(s.course r r.frames).ending, r, records⟩) ∧
    (∀ (name : String) (fields : Context) (body : Script) (inner : Registry),
      ((inContext name fields body).run inner).loggers = inner) ∧
    ∀ site : Site,
      (site.fault? r = none ↔
        (∃ threshold, r.level? site.name = .ok threshold) ∧
          (∀ key ∈ site.call.fields.keys, key ∉ site.call.taken) ∧
          (site.isHeard r = true →
            ∀ key v, valueOf? key site.bindings.reverse = some v → v.hasText = true)) ∧
      (site.fault? r = some .digits ↔
        r.fault? site.name site.call.taken site.call.fields = none ∧ site.isHeard r = true ∧
          ∃ key v, valueOf? key site.bindings.reverse = some v ∧ v.hasText = false) := by
  refine ⟨run_inside r s r.frames, ?_, fun site =>
    ⟨Site.fault?_eq_none_iff, Site.fault?_eq_digits_iff⟩⟩
  intro name fields body inner
  obtain ⟨records, -, hrun⟩ := run_inside inner (inContext name fields body) inner.frames
  exact congrArg Run.loggers hrun

/-- One logger, which lets everything from the level of information on pass. -/
def Registry.informed : Registry := { channels := [("a", ⟨.info, true⟩)] }

/-- A call on this logger, at its level, with one field. -/
def Script.inform (key : String) (value : Value) : Script :=
  .log "a" (.plain ⟨.info, "m", [(key, value)]⟩)

/-- A call at the level of its logger emits no record if its field is named as the text of a call
is, or if the value of the field is too long to be written. -/
theorem Script.run_inform_silent :
    Registry.informed.level? "a" = .ok .info ∧
      (inform "msg" (.int 1)).run .informed = ⟨.error (.fault .kind), .informed, []⟩ ∧
      (inform "count" (.int Value.unwritable)).run .informed =
        ⟨.error (.fault .digits), .informed, []⟩ := by
  have hfault : Site.fault? .informed
      ⟨[], "a", .plain ⟨.info, "m", [("count", .int Value.unwritable)]⟩⟩ = some .digits :=
    Site.fault?_eq_digits_iff.2 ⟨rfl, rfl, "count", .int Value.unwritable, rfl,
      Value.hasText_int_eq_false (Nat.le_refl _)⟩
  obtain ⟨records, hemits, hrun⟩ :=
    run_inside .informed (inform "count" (.int Value.unwritable)) []
  refine ⟨rfl, rfl, ?_⟩
  rw [inform, course, hfault] at hemits hrun
  cases hemits
  exact hrun

/-- An inner block gives a key of an outer one another value, and is left by an exception. -/
example :
    ((Script.inContext "a" [("root", .str "/r"), ("layer", .str "base")]
      (.seq (.attempt (.inContext "b" [("layer", .str "top")]
          (.seq (.log "a" (.plain ⟨.error, "inside", [("path", .str "p")]⟩))
            (.raise (.exception "OSError")))) fun _ => .skip)
        (.log "a" (.plain ⟨.error, "after", []⟩)))).run
      { channels := [("a", ⟨.info, true⟩), ("b", ⟨.info, true⟩)] }).records.map Record.message =
    ["inside | root=/r layer=top path=p", "after | root=/r layer=base"] := by decide +kernel

end ModulePath.Log
