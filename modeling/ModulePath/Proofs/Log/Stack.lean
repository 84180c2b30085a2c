import ModulePath.Proofs.Log.Contexts
import ModulePath.Proofs.Program.Run

/-!
# Programs that log through loggers

In a world of loggers the records of a program are calls on them, which add the contexts on the
stack (`Logging.world`). A program inside a context runs as it does between the context being
entered and left (`run_within`): the stack is as it was before, however the program ends. Where
every record is emitted as it is, a program emits its records and leaves the loggers alone
(`run_of_emitted`).
-/

set_option autoImplicit false

namespace ModulePath.Log

/-! ## Calls on loggers -/

namespace Registry

variable {r r' : Registry} {name : String} {c : Context} {rec : Record}

/-- A record that was made outside all contexts, as a call on its logger. -/
def take (r : Registry) (rec : Record) : Except Fault (List Record) :=
  r.emit rec.logger ⟨rec.level, rec.text, rec.context⟩

/-- Fields that a call can have. -/
def Admits (c : Context) : Prop := ∀ key ∈ c.keys, key ∉ reservedFields

theorem admits_iff : Admits c ↔ (c.map (·.1)).any reservedFields.contains = false := by
  rw [List.any_eq_false]
  exact forall₂_congr fun key _ => List.contains_iff_mem.not.symm

/-- A context without reserved fields is pushed on a channel that can be found. -/
theorem push_eq_ok (hchannel : ∃ channel, r.channel? name = .ok channel) (hc : Admits c) :
    r.push name c = .ok { r with frames := r.frames ++ [c] } := by
  obtain ⟨channel, hchannel⟩ := hchannel
  have hself : ¬ (c.map (·.1)).contains "self" = true := fun h =>
    hc "self" (List.contains_iff_mem.1 h) (by decide)
  rw [push, hchannel]
  exact if_neg hself

/-- Entering a context and leaving it again leads back. -/
theorem pop_pushed : Registry.pop { r with frames := r.frames ++ [c] } = r := by
  rw [pop, List.dropLast_concat]

/-- A call inside a context emits what it would emit outside with the fields of the context. -/
theorem take_pushed (hc : Admits c) :
    Registry.take { r with frames := r.frames ++ [c] } rec = r.take (rec.within c) := by
  have hreserved : (rec.context.map (·.1)).any reservedFields.contains =
      ((rec.within c).context.map (·.1)).any reservedFields.contains := by
    rw [Bool.eq_iff_iff, List.any_eq_true, List.any_eq_true]
    constructor
    · rintro ⟨key, hkey, hreserved⟩
      exact ⟨key, Context.mem_keys_update.2 (.inr hkey), hreserved⟩
    · rintro ⟨key, hkey, hreserved⟩
      rcases Context.mem_keys_update.1 hkey with hkey | hkey
      · have houter := (Context.mem_keys_update.1 hkey).resolve_left List.not_mem_nil
        exact absurd (List.contains_iff_mem.1 hreserved) (hc key houter)
      · exact ⟨key, hkey, hreserved⟩
  have hcontext : Record.ofEntry rec.logger (r.frames ++ [c]) ⟨rec.level, rec.text, rec.context⟩ =
      Record.ofEntry rec.logger r.frames ⟨rec.level, rec.text, (rec.within c).context⟩ := by
    rw [Record.ofEntry, Record.ofEntry, Record.within, Context.ofFrames_concat,
      Context.update_update_frame]
  rw [take, take, emit, emit, hreserved, hcontext]
  rfl

/-- Outside all contexts a record is emitted as it is, if its logger lets all levels pass. -/
theorem take_eq_self (hchannel : r.channel? rec.logger = .ok ⟨.debug, true⟩)
    (hframes : r.frames = []) (hadmits : Admits rec.context) (htext : rec.context.hasText = true)
    (hmerged : Context.update [] rec.context = rec.context) (hplain : rec.exception = false) :
    r.take rec = .ok [rec] := by
  have hpasses : Level.passes .debug rec.level = true := by
    cases rec.level with
    | debug | info | warning | error | critical => rfl
  have hsame : Record.ofEntry rec.logger [] ⟨rec.level, rec.text, rec.context⟩ = rec := by
    rw [Record.ofEntry, Context.ofFrames, List.foldl_nil, hmerged, ← hplain]
  rw [take, emit, hchannel, hframes, hsame]
  change (if _ then _ else if _ then _ else _) = _
  rw [if_neg (Bool.eq_false_iff.1 (admits_iff.1 hadmits)), hpasses, if_pos rfl]
  exact if_pos htext

/-- A call emits no record but its own. -/
theorem eq_ofEntry_of_emit {entry : Entry} {rs : List Record} (h : r.emit name entry = .ok rs) :
    ∀ rec ∈ rs, rec = Record.ofEntry name r.frames entry := by
  unfold emit at h
  cases hchannel : r.channel? name with
  | error f =>
    rw [hchannel] at h
    cases h
  | ok channel =>
    rw [hchannel] at h
    -- clashing fields, the level, the texts, and whether records are kept
    change (if _ then _ else if _ then if _ then _ else _ else _) = _ at h
    split at h
    · cases h
    · split at h
      · split at h
        · obtain rfl := Except.ok.inj h
          intro rec hrec
          split at hrec
          · exact List.mem_singleton.1 hrec
          · cases hrec
        · cases h
      · obtain rfl := Except.ok.inj h
        exact List.forall_mem_nil _

/-- Outside all contexts a call emits no keys but those of its fields. -/
theorem valueOf?_of_emit {key : String} {entry : Entry} {rs : List Record}
    (hframes : r.frames = []) (hkey : key ∉ entry.fields.keys)
    (h : r.emit name entry = .ok rs) : ∀ rec ∈ rs, valueOf? key rec.context = none := by
  intro rec hrec
  rw [eq_ofEntry_of_emit h rec hrec, hframes]
  apply Context.valueOf?_eq_none
  intro hmem
  exact hkey ((Context.mem_keys_update.1 hmem).resolve_left List.not_mem_nil)

end Registry

/-! ## Runs -/

/-- The loggers of a program and the records that they have emitted. -/
structure Logging where
  loggers : Registry
  emitted : List Record := []

namespace Logging

variable {ε α : Type} {fs : FileSystem} {name : String} {c : Context} {s : Logging}

/-- Log a record through its logger. A call that is not possible emits nothing. -/
def record (s : Logging) (rec : Record) : Logging :=
  match s.loggers.take rec with
  | .ok rs => { s with emitted := s.emitted ++ rs }
  | .error _ => s

/-- A file system that nothing changes, and loggers. -/
def world (fs : FileSystem) : World Logging := ⟨fun s q => (fs.answer q, s), record⟩

/-- Run a program between entering a context through a logger and leaving it, however the program
ends. -/
def runInside (fs : FileSystem) (name : String) (c : Context) (p : Program ε α) (s : Logging) :
    Outcome ε α × Logging :=
  match s.loggers.push name c with
  | .error f => (.error (.fault f), s)
  | .ok loggers =>
    let (r, s') := p.run (world fs) { s with loggers }
    (r, { s' with loggers := s'.loggers.pop })

/-- A record changes no logger. -/
theorem loggers_record (s : Logging) (rec : Record) : (s.record rec).loggers = s.loggers := by
  unfold record
  split
  · rfl
  · rfl

/-- A program leaves the loggers as they are. -/
theorem loggers_run (p : Program ε α) (s : Logging) :
    (p.run (world fs) s).2.loggers = s.loggers := by
  induction p generalizing s with
  | done r => rfl
  | log rec next ih => exact (ih (s.record rec)).trans (loggers_record s rec)
  | ask q next ih => exact ih (fs.answer q) s

/-- With the context on the stack, the program emits what it emits inside of it. -/
theorem run_pushed (hc : Registry.Admits c) (p : Program ε α) (r : Registry) (out : List Record) :
    p.run (world fs) ⟨{ r with frames := r.frames ++ [c] }, out⟩ =
      (((p.within c).run (world fs) ⟨r, out⟩).1,
        ⟨{ r with frames := r.frames ++ [c] },
          ((p.within c).run (world fs) ⟨r, out⟩).2.emitted⟩) := by
  induction p generalizing out with
  | done o => rfl
  | ask q next ih => exact ih (fs.answer q) out
  | log rec next ih =>
    rw [Program.within, Program.run, Program.run]
    dsimp only [world]
    unfold record
    dsimp only
    -- the logger merges the context from the stack as the record merged it
    rw [Registry.take_pushed hc]
    cases r.take (rec.within c) with
    | ok rs => exact ih (out ++ rs)
    | error f => exact ih out

/-- A program inside a context runs as it does between the context being entered and left. -/
theorem run_within (hchannel : ∃ channel, s.loggers.channel? name = .ok channel)
    (hc : Registry.Admits c) (p : Program ε α) :
    (p.within c).run (world fs) s = runInside fs name c p s := by
  rw [runInside, Registry.push_eq_ok hchannel hc]
  dsimp only
  rw [run_pushed hc p s.loggers s.emitted]
  dsimp only
  rw [Registry.pop_pushed]
  have hloggers : ((p.within c).run (world fs) s).2.loggers = s.loggers := loggers_run _ s
  exact Prod.ext rfl (congrArg (Logging.mk · _) hloggers)

/-- Records that are emitted as they are. -/
theorem run_of_emitted {p : Program ε α}
    (h : ∀ rec ∈ p.records fs, s.loggers.take rec = .ok [rec]) :
    p.run (world fs) s = (p.outcome fs, { s with emitted := s.emitted ++ p.records fs }) := by
  induction p generalizing s with
  | done r =>
    rw [Program.run, Program.records, Program.events, List.filterMap_nil, List.append_nil]
    rfl
  | ask q next ih => exact ih (fs.answer q) h
  | log rec next ih =>
    obtain ⟨hrec, hrest⟩ := List.forall_mem_cons.1 h
    have hrecord : s.record rec = { s with emitted := s.emitted ++ [rec] } := by
      rw [record, hrec]
    change next.run (world fs) (s.record rec) = _
    rw [hrecord]
    refine (ih (s := { s with emitted := s.emitted ++ [rec] }) hrest).trans ?_
    rw [List.append_assoc]
    rfl

end Logging

end ModulePath.Log
