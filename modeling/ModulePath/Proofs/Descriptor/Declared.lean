import ModulePath.Edge.Basic
import ModulePath.Proofs.Descriptor.Paths
import ModulePath.Proofs.Value.Parts

/-!
# What a descriptor declares

The data of a descriptor list its dependencies. Which edge a piece of data declares is said here
without reading it (`Declares`): the module that it names, whether it is optional, how it treats
services, or the set of platform paths. A descriptor that is read has the name in its data and a
dependency for each piece of data that they list, in order (`declares_of_ofValue?`).
-/

set_option autoImplicit false

namespace ModulePath

/-- Where the edge of a dependency leads. -/
def Dependency.origin : Dependency → Edge.Origin
  | .onModule d => .onModule d.target d.optional d.services
  | .onPlatform d => .onPlatform d.paths

namespace Descriptor

/-! ## Declarations -/

/-- A dictionary has a flag, which is unset if it is not there. -/
inductive HasFlag (key : String) (entries : Entries) : Bool → Prop
  | unset (h : Value.field? key entries = none) : HasFlag key entries false
  | value (b : Bool) (h : Value.field? key entries = some (.bool b)) : HasFlag key entries b
  | text (b : Bool) (s : String) (h : Value.field? key entries = some (.str s))
    (hs : Text.lowerString s = if b then "true" else "false") : HasFlag key entries b

/-- A dictionary has a treatment of services, which are hidden if it says nothing. -/
inductive HasServices (entries : Entries) : Services → Prop
  | unset (h : Value.field? "services" entries = none) : HasServices entries .hidden
  | text (mode : Services) (h : Value.field? "services" entries = some (.str mode.text)) :
    HasServices entries mode

/-- A dictionary lists platform paths, or says nothing of them. -/
inductive ListsPaths (entries : Entries) : TextSet → Prop
  | unset (h : (Value.field? "paths" entries).getD .null = .null) : ListsPaths entries .empty
  | members (v : Value) (items : List Value) (paths : TextSet)
    (h : Value.field? "paths" entries = some v)
    (hitems : v = .list items ∨ v = .tuple items ∨ v = .set items)
    (hmem : ∀ p, p ∈ paths ↔ .str p ∈ items) : ListsPaths entries paths

/-- A piece of data declares an edge that leads somewhere. -/
inductive Declares : Value → Edge.Origin → Prop
  | onModule {entries : Entries} {target : String} {optional : Bool} {services : Services}
    (hplain : Value.field? "system" entries = none)
    (htarget : Value.field? "module" entries = some (.str target))
    (hoptional : HasFlag "optional" entries optional) (hservices : HasServices entries services) :
    Declares (.dict entries) (.onModule target optional services)
  | onPlatform_null : Declares (.dict [(.str "system", .null)]) (.onPlatform .empty)
  | onPlatform {entries : Entries} {paths : TextSet} (hpaths : ListsPaths entries paths) :
    Declares (.dict [(.str "system", .dict entries)]) (.onPlatform paths)

/-- The data of a descriptor list dependencies; what counts as false lists none. -/
inductive Lists (entries : Entries) : List Value → Prop
  | none (h : ((Value.field? "dependencies" entries).getD .null).truthy = false) : Lists entries []
  | list (items : List Value) (h : Value.field? "dependencies" entries = some (.list items)) :
    Lists entries items

variable {entries : Entries} {key : String} {v : Value}

/-! ## Scalars and paths -/

theorem nonEmptyText?_eq_some {o : Option Value} {s : String} (h : nonEmptyText? o = some s) :
    o = some (.str s) := by
  unfold nonEmptyText? at h
  split at h
  case h_1 t =>
    split at h
    · cases h
    · rw [Option.some.inj h]
  case h_2 => cases h

/-- A flag is read from a truth value, or from a word for one in any letters. -/
theorem flag?_eq_ok {b : Bool} (h : flag? key v = .ok b) :
    v = .bool b ∨ ∃ s, v = .str s ∧ Text.lowerString s = if b then "true" else "false" := by
  unfold flag? at h
  split at h
  case h_1 c => exact .inl (congrArg Value.bool (Except.ok.inj h))
  case h_2 s =>
    refine .inr ⟨s, rfl, ?_⟩
    split at h
    case isTrue htrue =>
      obtain rfl : true = b := Except.ok.inj h
      exact eq_of_beq htrue
    case isFalse =>
      split at h
      case isTrue hfalse =>
        obtain rfl : false = b := Except.ok.inj h
        exact eq_of_beq hfalse
      case isFalse => exact absurd h refuse_ne_ok
  case h_3 => exact absurd h refuse_ne_ok

theorem hasFlag_of_flagField? {b : Bool} (h : flagField? entries key = .ok b) :
    HasFlag key entries b := by
  unfold flagField? at h
  cases hfield : Value.field? key entries with
  | none =>
    rw [hfield] at h
    obtain rfl : false = b := Except.ok.inj h
    exact .unset hfield
  | some v =>
    rw [hfield] at h
    rcases flag?_eq_ok h with rfl | ⟨s, rfl, hs⟩
    · exact .value b hfield
    · exact .text b s hfield hs

theorem services_eq_of_ofValue? {mode : Services} (h : Services.ofValue? v = some mode) :
    v = .str mode.text := by
  unfold Services.ofValue? at h
  split at h
  case h_1 s =>
    have hs : (mode.text == s) = true :=
      @List.find?_some _ (fun m : Services => m.text == s) _ _ h
    rw [eq_of_beq hs]
  case h_2 => cases h

theorem hasServices_of_ofValue? {mode : Services}
    (h : Services.ofValue? ((Value.field? "services" entries).getD (.str Services.hidden.text)) =
      some mode) : HasServices entries mode := by
  have htext := services_eq_of_ofValue? h
  cases hfield : Value.field? "services" entries with
  | none =>
    rw [hfield] at h
    obtain rfl : Services.hidden = mode := Option.some.inj h
    exact .unset hfield
  | some v =>
    rw [hfield] at htext
    obtain rfl : v = .str mode.text := htext
    exact .text mode hfield

/-- The paths that are read are the texts that are listed. -/
theorem pathSet?_eq_ok {paths : TextSet} (h : pathSet? key v = .ok paths) :
    ∃ items, (v = .list items ∨ v = .tuple items ∨ v = .set items) ∧
      ∀ p, p ∈ paths ↔ .str p ∈ items := by
  obtain ⟨ps, hps, -, rfl⟩ := pathSet?_eq_ok_iff.1 h
  refine ⟨ps.map .str, hps, ?_⟩
  intro p
  rw [TextSet.mem_ofList]
  simp

/-! ## Dependencies -/

/-- What a dependency on a module declares is in its data. -/
theorem moduleDependency?_eq_ok {d : ModuleDependency} (h : moduleDependency? v = .ok d) :
    ∃ entries, v = .dict entries ∧ Value.field? "module" entries = some (.str d.target) ∧
      HasFlag "optional" entries d.optional ∧ HasServices entries d.services := by
  unfold moduleDependency? at h
  split at h
  case h_2 => exact absurd h refuse_ne_ok
  case h_1 entries =>
    obtain ⟨-, -, h⟩ := Outcome.seq_eq_ok.1 h
    split at h
    case h_1 => exact absurd h refuse_ne_ok
    case h_2 target htarget =>
      dsimp only at h
      split at h
      case h_1 => exact absurd h refuse_ne_ok
      case h_2 services hservices =>
        -- what comes after the attributes that are declared is of no concern here
        obtain ⟨reexport, -, h⟩ := Outcome.seq_eq_ok.1 h
        obtain ⟨optional, hoptional, h⟩ := Outcome.seq_eq_ok.1 h
        obtain ⟨importRules, -, h⟩ := Outcome.seq_eq_ok.1 h
        obtain ⟨exportRules, -, h⟩ := Outcome.seq_eq_ok.1 h
        obtain rfl := Outcome.pure_eq_ok.1 h
        exact ⟨entries, rfl, nonEmptyText?_eq_some htarget, hasFlag_of_flagField? hoptional,
          hasServices_of_ofValue? hservices⟩

theorem platformDependency?_eq_ok {d : PlatformDependency} (h : platformDependency? v = .ok d) :
    (v = .null ∧ d.paths = .empty) ∨ ∃ entries, v = .dict entries ∧ ListsPaths entries d.paths := by
  unfold platformDependency? at h
  split at h
  case h_1 =>
    obtain rfl := Except.ok.inj h
    exact .inl ⟨rfl, rfl⟩
  case h_3 => exact absurd h refuse_ne_ok
  case h_2 entries =>
    refine .inr ⟨entries, rfl, ?_⟩
    obtain ⟨-, -, h⟩ := Outcome.seq_eq_ok.1 h
    -- what is read after the paths does not change them
    have hrest {paths : TextSet} (h : (do
        let reexport ← flagField? entries "export"
        let exportRules ← rulesField? entries "exports"
        return ({ paths, reexport, exportRules } : PlatformDependency)) = .ok d) :
        d.paths = paths := by
      obtain ⟨reexport, -, h⟩ := Outcome.seq_eq_ok.1 h
      obtain ⟨exportRules, -, h⟩ := Outcome.seq_eq_ok.1 h
      rw [← Outcome.pure_eq_ok.1 h]
    split at h
    case h_1 hnull =>
      rw [hrest h]
      exact .unset hnull
    case h_2 v hnull =>
      obtain ⟨paths, hpaths, h⟩ := Outcome.seq_eq_ok.1 h
      rw [hrest h]
      obtain ⟨items, hitems, hmem⟩ := pathSet?_eq_ok hpaths
      cases hfield : Value.field? "paths" entries with
      | none =>
        rw [hfield] at hnull
        exact absurd rfl hnull
      | some w =>
        rw [hfield] at hitems
        exact .members w items paths hfield hitems hmem

/-- A dependency that is read leads where its data declare. -/
theorem declares_of_dependency? {d : Dependency} (h : dependency? v = .ok d) :
    Declares v d.origin := by
  unfold dependency? at h
  split at h
  case h_2 =>
    obtain ⟨m, hm, rfl⟩ := Outcome.map_eq_ok.1 h
    obtain ⟨entries, rfl, -⟩ := moduleDependency?_eq_ok hm
    rename_i hdict
    exact absurd rfl (hdict entries)
  case h_1 entries =>
    split at h
    case h_2 hsystem =>
      obtain ⟨m, hm, rfl⟩ := Outcome.map_eq_ok.1 h
      obtain ⟨_, hentries, htarget, hoptional, hservices⟩ := moduleDependency?_eq_ok hm
      obtain rfl := Value.dict.inj hentries
      exact .onModule hsystem htarget hoptional hservices
    case h_1 platform hsystem =>
      split at h
      case isFalse => exact absurd h refuse_ne_ok
      case isTrue hlength =>
        obtain ⟨p, hp, rfl⟩ := Outcome.map_eq_ok.1 h
        -- the mark is the only entry
        obtain ⟨e, rfl⟩ := List.length_eq_one_iff.1 hlength
        have he : (.str "system", platform) = e :=
          List.mem_singleton.1 (Value.mem_of_field?_eq_some hsystem)
        subst he
        rcases platformDependency?_eq_ok hp with ⟨rfl, hpaths⟩ | ⟨entries, rfl, hpaths⟩
        · have horigin : (Dependency.onPlatform p).origin = .onPlatform .empty := by
            rw [← hpaths]
            rfl
          rw [horigin]
          exact .onPlatform_null
        · exact .onPlatform hpaths

/-- The dependencies that are read are declared in their order. -/
theorem declares_of_dependencies? {ds : List Dependency}
    (h : dependencies? ((Value.field? "dependencies" entries).getD .null) = .ok ds) :
    ∃ items, Lists entries items ∧
      List.Forall₂ (fun w d => Declares w d.origin) items ds := by
  unfold dependencies? at h
  split at h
  case isFalse hfalse =>
    obtain rfl := Except.ok.inj h
    exact ⟨[], .none (Bool.eq_false_iff.2 hfalse), .nil⟩
  case isTrue =>
    split at h
    case h_2 => exact absurd h refuse_ne_ok
    case h_1 items hitems =>
      refine ⟨items, .list items ?_,
        (Outcome.mapM_eq_ok.1 h).imp fun _ _ => declares_of_dependency?⟩
      -- an absent field stands for null, which is no list
      cases hfield : Value.field? "dependencies" entries with
      | none =>
        rw [hfield] at hitems
        cases hitems
      | some w =>
        rw [hfield] at hitems
        exact congrArg some hitems

/-! ## Descriptors -/

/-- A descriptor has the name in its data, and its dependencies lead where the data declare. -/
theorem declares_of_ofValue? {d : Descriptor} (h : ofValue? v = .ok d) :
    ∃ entries items, v = .dict entries ∧ Value.field? "name" entries = some (.str d.name) ∧
      Lists entries items ∧
      List.Forall₂ (fun w d => Declares w d.origin) items d.dependencies := by
  unfold ofValue? at h
  split at h
  case h_2 => exact absurd h refuse_ne_ok
  case h_1 entries =>
    obtain ⟨-, -, h⟩ := Outcome.seq_eq_ok.1 h
    split at h
    case h_1 => exact absurd h refuse_ne_ok
    case h_2 name hname =>
      obtain ⟨dependencies, hdependencies, h⟩ := Outcome.seq_eq_ok.1 h
      obtain ⟨exportRules, -, h⟩ := Outcome.seq_eq_ok.1 h
      obtain rfl := Outcome.pure_eq_ok.1 h
      obtain ⟨items, hlists, hall⟩ := declares_of_dependencies? hdependencies
      exact ⟨entries, items, rfl, nonEmptyText?_eq_some hname, hlists, hall⟩

end Descriptor

end ModulePath
