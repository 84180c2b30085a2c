import ModulePath.Fault
import ModulePath.Layers.Error
import ModulePath.Number.Numeral
import ModulePath.Value.Text

/-!
# Errors of layered modules from loose data

An error can be told by data of any kind: they stand in its text as messages insert them, and the
path and the subject are kept as they were given.
-/

set_option autoImplicit false

namespace ModulePath.Layers

/-- What an error is for. -/
inductive Topic where
  | other
  | layersDirectory
  | layer
  | overlaysDirectory
  | registration
  | overlay
  | conf
  | addOns
deriving DecidableEq, Repr

/-- How few and how many data an error is told by. -/
def Topic.arity : Topic → Nat × Nat
  | other | registration => (1, 3)
  | layersDirectory | overlaysDirectory | addOns => (1, 1)
  | layer => (2, 2)
  | overlay | conf => (2, 3)

/-- An error told by loose data. -/
structure LooseError where
  /-- The cause, with the texts of its data. -/
  cause : Cause
  /-- The text, the layer or the overlay that the cause names, as it was given. -/
  subject : Value
  /-- The directory or the file that the error is about; null if there is none. -/
  path : Value
  /-- The number of its code. -/
  code : Int

namespace LooseError

/-- The number of a code that is given as data. -/
def codeNumber? : Value → Except Fault Int
  | .str s =>
    match Numeral.integer? s with
    | some n => .ok n
    | none => .error .value
  | v =>
    match v.toInt? with
    | some n => .ok n
    | none => .error .kind

/-- An error whose cause has its own code. -/
def ofCause (cause : Cause) (subject path : Value) : LooseError :=
  ⟨cause, subject, path, cause.code.number⟩

/-- The error that data tell. Their number has to fit. -/
def ofValues? (t : Topic) (args : List Value) : Except Fault LooseError :=
  if args.length < t.arity.1 || t.arity.2 < args.length then .error .kind
  else
    let arg (n : Nat) : Value := args[n]?.getD .null
    let withCode (e : LooseError) : Except Fault LooseError :=
      match args[2]? with
      | some c => (codeNumber? c).map fun n => { e with code := n }
      | none => .ok e
    match t with
    | .other => withCode (ofCause (.other (arg 0).display .invalid) (arg 0) (arg 1))
    | .layersDirectory => .ok (ofCause .noLayersDirectory .null (arg 0))
    | .layer => .ok (ofCause (.missingLayer (arg 0).display) (arg 0) (arg 1))
    | .overlaysDirectory => .ok (ofCause .badOverlaysDirectory .null (arg 0))
    | .registration =>
      let reason := if (arg 1).truthy then some (arg 1).display else none
      withCode (ofCause (.badRegistration reason .denied) .null (arg 0))
    | .overlay =>
      let name := (arg 0).display
      let cause : Cause :=
        if args[2]?.all Value.truthy then .missingOverlay name else .unreadableOverlay name
      .ok (ofCause cause (arg 0) (arg 1))
    | .conf => withCode (ofCause (.badConf (arg 1).display .invalid) .null (arg 0))
    | .addOns => .ok (ofCause .unlistedAddOns .null (arg 0))

/-- The text of an error. -/
def message (e : LooseError) : String :=
  match e.path with
  | .null => e.cause.text
  | p => e.cause.text ++ ": " ++ p.display

end LooseError

end ModulePath.Layers
