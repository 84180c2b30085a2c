import Mathlib.Data.List.Induction
import ModulePath.Config.Store
import ModulePath.Proofs.Value.Dictionary

/-!
# Trees laid over one another

What a path of keys leads to in a tree that is laid over another. If the upper tree has nothing
there, it is what was there before (`valueAt?_of_overlay_of_none`); if it has something, and the
result is no dictionary, then it is what the upper tree has (`valueAt?_of_overlay_of_some`). So a
setting in the merged tree of a store is that of the highest source that has anything for the key
(`exists_highest`), and looking the key up source by source finds the same
(`getWithSource?_eq_of_merged`).
-/

set_option autoImplicit false

namespace ModulePath.Config

open Value (DistinctTexts WellKeyed field?)

variable {entries more : Entries} {base upper u v : Value} {part : String} {parts : List String}

/-! ## Following a path -/

theorem valueAt?_dict_cons :
    valueAt? (.dict entries) (part :: parts) = (field? part entries).bind (valueAt? · parts) := rfl

/-! ## Two trees -/

/-- Unless both are dictionaries, what is laid over a value takes its place. -/
theorem overlay_of_not_isDict (h : ¬ (base.IsDict ∧ upper.IsDict)) :
    overlay base upper = upper := by
  rw [overlay]
  intro entries more hbase hupper
  exact h ⟨⟨entries, hbase⟩, more, hupper⟩

/-- A key of entries that are laid over others comes from one of the two. -/
theorem mem_keys_overlayAll {key : Value} (h : key ∈ (overlayAll entries more).map (·.1)) :
    key ∈ entries.map (·.1) ∨ key ∈ more.map (·.1) := by
  induction more generalizing entries with
  | nil => exact .inl h
  | cons e rest ih =>
    rw [List.map_cons, List.mem_cons]
    rcases ih h with hentries | hrest
    · rcases Value.keys_put e.1 _ entries with hsame | ⟨hlast, -⟩
      · exact .inl (hsame ▸ hentries)
      · rw [hlast, List.mem_append, List.mem_singleton] at hentries
        exact hentries.imp_right .inl
    · exact .inr (.inr hrest)

/-- A key that the upper dictionary lacks is left as it is. -/
theorem field?_overlayAll_of_none (h : field? part more = none) :
    field? part (overlayAll entries more) = field? part entries := by
  induction more generalizing entries with
  | nil => rfl
  | cons e rest ih =>
    obtain ⟨key, w⟩ := e
    have hkey : key ≠ .str part := by
      rintro rfl
      rw [Value.field?_cons_self] at h
      cases h
    rw [Value.field?_cons_of_ne hkey] at h
    rw [overlayAll, ih h, Value.field?_put_of_ne hkey]

/-- A key that the upper dictionary has is laid over what the lower one has there. -/
theorem field?_overlayAll_of_some (hkeys : DistinctTexts more) (h : field? part more = some u) :
    field? part (overlayAll entries more) =
      some ((field? part entries).elim u (overlay · u)) := by
  induction more generalizing entries with
  | nil => cases h
  | cons e rest ih =>
    obtain ⟨key, w⟩ := e
    obtain ⟨-, hrest⟩ := List.pairwise_cons.1 hkeys
    rw [overlayAll]
    by_cases hkey : key = .str part
    · -- the entry is laid over the one of its key, and nothing later changes that again
      subst hkey
      obtain rfl : w = u := Option.some.inj (Value.field?_cons_self.symm.trans h)
      rw [field?_overlayAll_of_none hkeys.field?_eq_none, Value.field?_put_self, field?]
      cases Value.lookup (.str part) entries with
      | none => rfl
      | some old => rfl
    · rw [Value.field?_cons_of_ne hkey] at h
      rw [ih hrest h, Value.field?_put_of_ne hkey]

/-- A field that is no dictionary in the upper entries takes the place of what was there. -/
theorem field?_overlayAll_of_not_isDict (hkeys : DistinctTexts more)
    (hmore : ∀ u, field? part more = some u → ¬ u.IsDict) :
    field? part (overlayAll entries more) = (field? part more).or (field? part entries) := by
  cases hfield : field? part more with
  | none => rw [field?_overlayAll_of_none hfield, Option.none_or]
  | some u =>
    rw [field?_overlayAll_of_some hkeys hfield, Option.some_or]
    cases field? part entries with
    | none => rfl
    | some old =>
      rw [Option.elim_some, overlay_of_not_isDict fun h => hmore u hfield h.2]

/-- What stands where the upper value has nothing comes from below. -/
theorem valueAt?_of_overlay_of_none (hkeys : upper.WellKeyed) (hnone : valueAt? upper parts = none)
    (h : valueAt? (overlay base upper) parts = some v) : valueAt? base parts = some v := by
  induction parts generalizing base upper with
  | nil => cases hnone
  | cons part rest ih =>
    by_cases hdict : base.IsDict ∧ upper.IsDict
    case neg =>
      rw [overlay_of_not_isDict hdict, hnone] at h
      cases h
    case pos =>
      obtain ⟨⟨entries, rfl⟩, more, rfl⟩ := hdict
      rw [overlay, valueAt?_dict_cons] at h
      rw [valueAt?_dict_cons] at hnone ⊢
      cases hmore : field? part more with
      | none => rwa [field?_overlayAll_of_none hmore] at h
      | some w =>
        rw [hmore, Option.bind_some] at hnone
        rw [field?_overlayAll_of_some (Value.wellKeyed_dict_iff.1 hkeys).1 hmore] at h
        cases hentries : field? part entries with
        | none =>
          rw [hentries, Option.elim_none, Option.bind_some, hnone] at h
          cases h
        | some old =>
          rw [hentries, Option.elim_some, Option.bind_some] at h
          exact ih (hkeys.of_field? hmore) hnone h

/-- What stands where the upper value has something comes from it. -/
theorem valueAt?_of_overlay_of_some (hkeys : upper.WellKeyed) (hv : ¬ v.IsDict)
    (hsome : valueAt? upper parts = some u) (h : valueAt? (overlay base upper) parts = some v) :
    v = u := by
  induction parts generalizing base upper with
  | nil =>
    obtain rfl := Option.some.inj hsome
    have hoverlay : overlay base upper = v := Option.some.inj h
    -- two dictionaries would make one, so the upper value is all that is left
    by_cases hdict : base.IsDict ∧ upper.IsDict
    · obtain ⟨⟨entries, rfl⟩, more, rfl⟩ := hdict
      exact absurd ⟨_, hoverlay.symm⟩ hv
    · rw [← hoverlay, overlay_of_not_isDict hdict]
  | cons part rest ih =>
    by_cases hdict : base.IsDict ∧ upper.IsDict
    case neg =>
      rw [overlay_of_not_isDict hdict, hsome] at h
      exact (Option.some.inj h).symm
    case pos =>
      obtain ⟨⟨entries, rfl⟩, more, rfl⟩ := hdict
      rw [overlay, valueAt?_dict_cons] at h
      obtain ⟨w, hmore, hw⟩ := Option.bind_eq_some_iff.1 hsome
      rw [field?_overlayAll_of_some (Value.wellKeyed_dict_iff.1 hkeys).1 hmore] at h
      cases hentries : field? part entries with
      | none =>
        rw [hentries, Option.elim_none, Option.bind_some, hw] at h
        exact (Option.some.inj h).symm
      | some old =>
        rw [hentries, Option.elim_some, Option.bind_some] at h
        exact ih (hkeys.of_field? hmore) hw h

/-! ## All sources -/

/-- The rank of a source: its tree is laid over those of lower ranks. -/
def Source.rank : Source → Nat
  | .defaults => 1
  | .system => 2
  | .user => 3
  | .environment => 4
  | .arguments => 5
  | .runtime => 6

theorem Source.mem_ascending (s : Source) : s ∈ Source.ascending := by
  cases s <;> decide

/-- The sources in ascending order. -/
theorem Source.pairwise_rank_ascending :
    Source.ascending.Pairwise fun s s' => s.rank < s'.rank := by
  decide

/-- Where the sources are split at one of them, those before it are lower and those after it are
higher. -/
theorem Source.rank_of_split {s : Source} {lower higher : List Source}
    (h : Source.ascending = lower ++ s :: higher) :
    (∀ s' ∈ lower, s'.rank < s.rank) ∧ ∀ s' ∈ higher, s.rank < s'.rank := by
  have hpairwise := Source.pairwise_rank_ascending
  rw [h, List.pairwise_append, List.pairwise_cons] at hpairwise
  obtain ⟨-, ⟨hhigher, -⟩, hlower⟩ := hpairwise
  exact ⟨fun s' hs' => hlower s' hs' s List.mem_cons_self, hhigher⟩

/-- Of what the sources have, that of the highest one that has anything is found. -/
theorem Source.findSome?_of_split {α : Type} {f : Source → Option α} {a : α} {s : Source}
    {lower higher : List Source} (hsplit : Source.ascending = lower ++ s :: higher)
    (hs : f s = some a) (hhigher : ∀ t ∈ higher, f t = none) :
    Source.ascending.reverse.findSome? f = some a := by
  have hnone : higher.reverse.findSome? f = none :=
    List.findSome?_eq_none_iff.2 fun t ht => hhigher t (List.mem_reverse.1 ht)
  rw [hsplit, List.reverse_append, List.reverse_cons, List.append_assoc, List.findSome?_append,
    hnone, Option.none_or, List.singleton_append, List.findSome?_cons, hs]

namespace Store

variable {st : Store} {s : Source} {key : String}

/-- The trees of all sources are well keyed. -/
def WellKeyed (st : Store) : Prop :=
  ∀ s entries, st.tree s = some entries → (Value.dict entries).WellKeyed

/-- What a source has for a key, also if that is nothing. -/
def settingIn? (st : Store) (parts : List String) (s : Source) : Option Value :=
  (st.tree s).bind fun entries => valueAt? (.dict entries) parts

/-- A source has something for a key. -/
def Defines (st : Store) (parts : List String) (s : Source) : Prop :=
  ∃ v, st.settingIn? parts s = some v

/-- A source that has nothing for a key is passed over. -/
theorem valueIn?_congr {st' : Store} (h : st'.settingIn? parts s = st.settingIn? parts s) :
    st'.valueIn? parts s = st.valueIn? parts s := by
  unfold settingIn? at h
  rw [valueIn?, valueIn?, h]

theorem valueIn?_eq_none (h : st.settingIn? parts s = none) : st.valueIn? parts s = none := by
  unfold settingIn? at h
  rw [valueIn?, h]

/-- A setting that is not null is the value of its key. -/
theorem valueIn?_eq_some (h : st.settingIn? parts s = some v) (hv : v ≠ .null) :
    st.valueIn? parts s = some v := by
  unfold settingIn? at h
  rw [valueIn?, h]
  cases v with
  | null => exact absurd rfl hv
  | bool _ | int _ | real _ | str _ | list _ | tuple _ | set _ | dict _ => rfl

/-- A setting in the trees of some sources, laid over one another, is what the last of them has that
has anything for the key. The induction takes the sources from the highest down. -/
theorem exists_highest (hst : st.WellKeyed) (hv : ¬ v.IsDict) {ss : List Source}
    (h : valueAt? (.dict ((ss.filterMap st.tree).foldl overlayAll [])) parts = some v) :
    ∃ lower s higher, ss = lower ++ s :: higher ∧ st.settingIn? parts s = some v ∧
      ∀ s' ∈ higher, st.settingIn? parts s' = none := by
  induction ss using List.reverseRecOn with
  | nil =>
    cases parts with
    | nil =>
      obtain rfl := Option.some.inj h
      exact absurd ⟨[], rfl⟩ hv
    | cons part rest => cases h
  | append_singleton ss s ih =>
    rw [List.filterMap_append, List.foldl_append] at h
    cases htree : st.tree s with
    | none =>
      rw [List.filterMap_cons_none htree] at h
      obtain ⟨lower, s', higher, rfl, hs', hhigher⟩ := ih h
      have hs : st.settingIn? parts s = none := by rw [settingIn?, htree, Option.bind_none]
      refine ⟨lower, s', higher ++ [s], by rw [List.append_assoc, List.cons_append], hs', ?_⟩
      exact List.forall_mem_append.2 ⟨hhigher, List.forall_mem_singleton.2 hs⟩
    | some entries =>
      rw [List.filterMap_cons_some htree] at h
      have hkeys : (Value.dict entries).WellKeyed := hst s entries htree
      have hs : st.settingIn? parts s = valueAt? (.dict entries) parts := by
        rw [settingIn?, htree, Option.bind_some]
      have hlaid : valueAt? (overlay (.dict ((ss.filterMap st.tree).foldl overlayAll []))
          (.dict entries)) parts = some v := by
        rw [overlay]
        exact h
      -- the last source has something for the path and decides, or it is one of the higher ones
      cases hentries : valueAt? (.dict entries) parts with
      | none =>
        obtain ⟨lower, s', higher, rfl, hs', hhigher⟩ :=
          ih (valueAt?_of_overlay_of_none hkeys hentries hlaid)
        refine ⟨lower, s', higher ++ [s], by rw [List.append_assoc, List.cons_append], hs', ?_⟩
        exact List.forall_mem_append.2 ⟨hhigher, List.forall_mem_singleton.2 (hs.trans hentries)⟩
      | some u =>
        obtain rfl : v = u := valueAt?_of_overlay_of_some hkeys hv hentries hlaid
        exact ⟨ss, s, [], rfl, hs.trans hentries, List.forall_mem_nil _⟩

/-- The search from the highest source down stops at the first source that has a value. -/
theorem getWithSource?_of_split {lower higher : List Source}
    (hsplit : Source.ascending = lower ++ s :: higher)
    (hs : st.valueIn? (keyParts key) s = some v)
    (hhigher : ∀ s' ∈ higher, st.valueIn? (keyParts key) s' = none) :
    st.getWithSource? key = some (s, v) := by
  refine Source.findSome?_of_split hsplit ?_ fun s' hs' => ?_
  · rw [hs, Option.map_some]
  · rw [hhigher s' hs', Option.map_none]

/-- A setting in the merged tree is found by the search from the highest source down, and in the
highest source that has anything for the key. -/
theorem getWithSource?_eq_of_merged (hst : st.WellKeyed)
    (h : valueAt? st.merged (keyParts key) = some v) (hnull : v ≠ .null) (hv : ¬ v.IsDict) :
    ∃ s, st.getWithSource? key = some (s, v) ∧ st.Defines (keyParts key) s ∧
      ∀ s', st.Defines (keyParts key) s' → s'.rank ≤ s.rank := by
  obtain ⟨lower, s, higher, hsplit, hs, hhigher⟩ := exists_highest hst hv h
  refine ⟨s, ?_, ⟨v, hs⟩, fun s' ⟨w, hw⟩ => ?_⟩
  · exact getWithSource?_of_split hsplit (valueIn?_eq_some hs hnull)
      fun s' hs' => valueIn?_eq_none (hhigher s' hs')
  · -- a source that has anything for the key is not one of the higher ones
    obtain ⟨hlower, -⟩ := Source.rank_of_split hsplit
    have hmem : s' ∈ lower ++ s :: higher := hsplit ▸ s'.mem_ascending
    rcases List.mem_append.1 hmem with hs' | hmem
    · exact Nat.le_of_lt (hlower s' hs')
    · rcases List.mem_cons.1 hmem with rfl | hmem
      · exact Nat.le_refl _
      · rw [hhigher s' hmem] at hw
        cases hw

end Store

end ModulePath.Config
