import ModulePath.Log.Script
import ModulePath.Proofs.Log.Contexts

/-!
# One log call

A call on a logger is possible if the logger is there and no field has a name that is taken. A call
that is possible emits one record exactly if its level is at least that of its logger, or fails
where that record has a value that cannot be written (`Registry.perform_eq`).
-/

set_option autoImplicit false

namespace ModulePath.Log

/-! ## Calls -/

namespace Call

def level : Call → Level
  | plain e => e.level
  | exception .. => .error

def text : Call → String
  | plain e => e.text
  | exception text .. => text

def isException : Call → Bool
  | plain _ => false
  | exception .. => true

def fields : Call → Context
  | plain e => e.fields
  | exception _ fields .. => fields

/-- The names of the other parts of a call, which its fields cannot have. -/
def taken : Call → List String
  | plain _ => reservedFields
  | exception .. => "exc" :: reservedFields

/-- What a call binds: its fields, and then those that come with its exception. -/
def bindings : Call → Context
  | plain e => e.fields
  | exception _ fields kind exceptionText => fields ++ exceptionFields kind exceptionText

/-- The record of a call inside of blocks. -/
def record (name : String) (enclosing : List Context) : Call → Record
  | plain e => Record.ofEntry name enclosing e
  | exception text fields kind exceptionText =>
    { Record.ofEntry name enclosing ⟨.error, text,
        Context.update (Context.update [] fields) (exceptionFields kind exceptionText)⟩ with
      exception := true }

end Call

namespace Record

/-- A record that comes with an exception. -/
def withException (rec : Record) : Record := { rec with exception := true }

/-- What a logger with a level makes of a record. -/
def emitted (rec : Record) (threshold : Level) : Except Fault (List Record) :=
  if threshold.passes rec.level then if rec.context.hasText then .ok [rec] else .error .digits
  else .ok []

/-- A record may be marked before it is known whether it is emitted. -/
theorem map_withException_emitted (rec : Record) (threshold : Level) :
    (rec.emitted threshold).map (List.map withException) =
      rec.withException.emitted threshold := by
  unfold emitted
  change Except.map _ (if threshold.passes rec.level then _ else _) =
    if threshold.passes rec.level then if rec.context.hasText then _ else _ else _
  by_cases hpasses : threshold.passes rec.level
  · rw [if_pos hpasses, if_pos hpasses]
    by_cases htext : rec.context.hasText
    · rw [if_pos htext, if_pos htext]
      rfl
    · rw [if_neg htext, if_neg htext]
      rfl
  · rw [if_neg hpasses, if_neg hpasses]
    rfl

end Record

/-- Why a call or a block is not possible: its logger is not there, or one of its fields has a name
that is taken. -/
def Registry.fault? (r : Registry) (name : String) (taken : List String) (c : Context) :
    Option Fault :=
  match r.channel? name with
  | .error f => some f
  | .ok _ => if ∃ key ∈ c.keys, key ∈ taken then some .kind else none

/-! ## What a call emits -/

variable {r : Registry} {name : String} {c : Context} {e : Entry} {taken : List String}
  {call : Call}

namespace Registry

/-- Where records are kept, a channel keeps them and is else the same. -/
theorem channel?_attended :
    r.attended.channel? name = (r.channel? name).map fun c => { c with keepsRecords := true } := by
  have hvalue : valueOf? name r.attended.channels =
      (valueOf? name r.channels).map fun c => { c with keepsRecords := true } := by
    unfold valueOf? attended
    rw [List.find?_map, Option.map_map, Option.map_map]
    rfl
  rw [channel?, channel?, hvalue]
  cases valueOf? name r.channels with
  | none => rfl
  | some channel => rfl

/-- What is possible: its logger is there, and none of its fields has a name that is taken. -/
theorem fault?_eq_none_iff : r.fault? name taken c = none ↔
    (∃ threshold, r.level? name = .ok threshold) ∧ ∀ key ∈ c.keys, key ∉ taken := by
  rw [fault?, level?]
  cases r.channel? name with
  | error f =>
    constructor
    · intro h
      cases h
    · rintro ⟨⟨_, hlevel⟩, -⟩
      cases hlevel
  | ok channel =>
    have hlevel : ∃ threshold, Except.map Channel.level (Except.ok channel : Except Fault Channel) =
        .ok threshold := ⟨channel.level, rfl⟩
    simp [hlevel]

/-- A call that is refused at once is not refused for its texts. -/
theorem ne_digits_of_fault? {f : Fault} (h : r.fault? name taken c = some f) : f ≠ .digits := by
  unfold fault? channel? at h
  cases hvalue : valueOf? name r.channels with
  | none =>
    rw [hvalue] at h
    obtain rfl := Option.some.inj h
    decide
  | some channel =>
    rw [hvalue] at h
    change (if _ then _ else _) = _ at h
    split at h
    · obtain rfl := Option.some.inj h
      decide
    · cases h

theorem any_contains_iff : c.keys.any taken.contains = true ↔ ∃ key ∈ c.keys, key ∈ taken := by
  simp only [List.any_eq_true, List.contains_iff_mem]

/-- What a registry that keeps records answers to a call. -/
theorem emit_attended :
    r.attended.emit name e = match r.fault? name reservedFields e.fields with
      | some f => .error f
      | none => (r.level? name).bind (Record.ofEntry name r.frames e).emitted := by
  rw [emit, channel?_attended, fault?, level?]
  cases r.channel? name with
  | error f => rfl
  | ok channel =>
    change (if _ then _ else _) = _
    by_cases htaken : ∃ key ∈ e.fields.keys, key ∈ reservedFields
    · rw [if_pos (any_contains_iff.2 htaken), if_pos htaken]
    · rw [if_neg (mt any_contains_iff.1 htaken), if_neg htaken]
      rfl

/-- A context is pushed unless its fields clash with the arguments of the call. -/
theorem push_eq : r.push name c = match r.fault? name ["self"] c with
    | some f => .error f
    | none => .ok { r with frames := r.frames ++ [c] } := by
  rw [push, fault?]
  cases r.channel? name with
  | error f => rfl
  | ok channel =>
    change (if _ then _ else _) = _
    by_cases hself : ∃ key ∈ c.keys, key ∈ ["self"]
    · have hcontains : c.keys.contains "self" = true := by simpa using hself
      rw [if_pos hcontains, if_pos hself]
    · have hcontains : ¬ c.keys.contains "self" = true := by simpa using hself
      rw [if_neg hcontains, if_neg hself]
      rfl

/-- The fields that come with an exception have names of their own. -/
theorem fault?_exception {kind exceptionText : String} (hexc : "exc" ∉ c.keys) :
    r.fault? name reservedFields
        (Context.update (Context.update [] c) (exceptionFields kind exceptionText)) =
      r.fault? name ("exc" :: reservedFields) c := by
  have htaken : (∃ key ∈ (Context.update (Context.update [] c)
      (exceptionFields kind exceptionText)).keys, key ∈ reservedFields) ↔
      ∃ key ∈ c.keys, key ∈ "exc" :: reservedFields := by
    constructor
    · rintro ⟨key, hkey, hreserved⟩
      rcases Context.mem_keys_update.1 hkey with hkey | hkey
      · have hfield := (Context.mem_keys_update.1 hkey).resolve_left List.not_mem_nil
        exact ⟨key, hfield, List.mem_cons_of_mem _ hreserved⟩
      -- the fields about the exception are no reserved ones
      · have hown : ∀ key ∈ ["exception_type", "exception_message"], key ∉ reservedFields := by
          decide
        exact absurd hreserved (hown key hkey)
    · rintro ⟨key, hkey, hreserved⟩
      rcases List.mem_cons.1 hreserved with rfl | hreserved
      · exact absurd hkey hexc
      · exact ⟨key, Context.mem_keys_update.2 (.inl (Context.mem_keys_update.2 (.inr hkey))),
          hreserved⟩
  unfold fault?
  cases r.channel? name with
  | error f => rfl
  | ok channel => exact if_congr htaken rfl rfl

/-- A call with an exception has one name more that its fields cannot have. -/
theorem emitException_attended {channel : Channel} {text kind exceptionText : String}
    (h : r.channel? name = .ok channel) :
    r.attended.emitException name text c kind exceptionText =
      match r.fault? name ("exc" :: reservedFields) c with
      | some f => .error f
      | none => (r.level? name).bind
          (Call.record name r.frames (.exception text c kind exceptionText)).emitted := by
  rw [emitException]
  -- a field of this name would be given twice, which fails before anything else is looked at
  by_cases hexc : "exc" ∈ c.keys
  · have hfault : r.fault? name ("exc" :: reservedFields) c = some .kind := by
      rw [fault?, h]
      exact if_pos ⟨"exc", hexc, List.mem_cons_self⟩
    rw [hfault, if_pos (List.contains_iff_mem.2 hexc)]
  · rw [if_neg (mt List.contains_iff_mem.1 hexc)]
    dsimp only
    rw [emit_attended, fault?_exception hexc]
    cases r.fault? name ("exc" :: reservedFields) c with
    | some f => rfl
    | none =>
      cases r.level? name with
      | error f => rfl
      | ok threshold => exact Record.map_withException_emitted _ threshold

/-- A call that is not possible fails. One that is possible emits its record if its level is at
least that of the logger, and fails too if that record cannot be written. -/
theorem perform_eq : r.perform name call = match r.fault? name call.taken call.fields with
    | some f => .error f
    | none => (r.level? name).bind (call.record name r.frames).emitted := by
  rw [perform]
  cases hchannel : r.channel? name with
  | error f =>
    have hfault : r.fault? name call.taken call.fields = some f := by rw [fault?, hchannel]
    rw [hfault]
    rfl
  | ok channel =>
    change r.attended.keep name call = _
    cases call with
    | plain e => exact emit_attended
    | exception text fields kind exceptionText => exact emitException_attended hchannel

end Registry

end ModulePath.Log
