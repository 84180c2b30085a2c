import ModulePath.Proofs.Outcome
import ModulePath.Proofs.Value.Dictionary
import ModulePath.Yaml.Document
import ModulePath.Yaml.Reader

/-!
# The keys of a YAML document

However often a mapping names a key, the dictionary that it stands for has the key once: the data of
a document is well keyed (`wellKeyed_of_ofContent?`).
-/

set_option autoImplicit false

namespace ModulePath.Yaml

open Value (WellKeyed)

variable {v : Value}

/-- A plain scalar is no dictionary. -/
theorem wellKeyed_of_plainValue? {s : String} (h : plainValue? s = .ok v) : v.WellKeyed := by
  apply WellKeyed.other
  rintro ⟨entries, rfl⟩
  simp only [plainValue?] at h
  -- no way to write a scalar gives a dictionary
  repeat' split at h
  all_goals cases h

mutual
/-- The induction is on the node, and along with it on the entries of a mapping. -/
theorem wellKeyed_of_value? {known : List Value} (hknown : ∀ v ∈ known, v.WellKeyed) :
    ∀ {n : Node} {v : Value}, n.value? known = .ok v → v.WellKeyed
  | .scalar true _, _, h => wellKeyed_of_plainValue? h
  | .scalar false s, _, h => by
    obtain rfl := Except.ok.inj h
    exact .other nofun
  | .sequence items, _, h => by
    rw [Node.value?] at h
    obtain ⟨vs, -, hvs⟩ := Outcome.seq_eq_ok.1 h
    obtain rfl := Except.ok.inj hvs
    exact .other nofun
  | .mapping entries, _, h => by
    rw [Node.value?] at h
    obtain ⟨es, hes, hv⟩ := Outcome.seq_eq_ok.1 h
    obtain rfl := Except.ok.inj hv
    exact Value.wellKeyed_ofEntries (wellKeyed_of_entries? hknown hes)
  | .named number, _, h => by
    obtain rfl := Except.ok.inj h
    cases hnumber : known[number]? with
    | none => exact .other nofun
    | some v => exact hknown v (List.mem_of_getElem? hnumber)
/-- The values of entries that are read have distinct keys. -/
theorem wellKeyed_of_entries? {known : List Value} (hknown : ∀ v ∈ known, v.WellKeyed) :
    ∀ {entries : List (Node × Node)} {es : List (Value × Value)},
      Node.entries? known entries = .ok es → ∀ e ∈ es, e.2.WellKeyed
  | [], _, h => by
    obtain rfl := Except.ok.inj h
    exact List.forall_mem_nil _
  | (.scalar plain s, n) :: rest, _, h => by
    rw [Node.entries?] at h
    obtain ⟨key, -, h⟩ := Outcome.seq_eq_ok.1 h
    obtain ⟨v, hv, h⟩ := Outcome.seq_eq_ok.1 h
    obtain ⟨es, hes, h⟩ := Outcome.seq_eq_ok.1 h
    obtain rfl := Except.ok.inj h
    exact List.forall_mem_cons.2
      ⟨wellKeyed_of_value? hknown hv, wellKeyed_of_entries? hknown hes⟩
  | (.sequence _, _) :: _, _, h => by cases h
  | (.mapping _, _) :: _, _, h => by cases h
  | (.named _, _) :: _, _, h => by cases h
end

/-- The collections with anchors stand for well keyed data, one after the other. -/
theorem wellKeyed_of_known? {d : Document} {known : List Value} (h : d.known? = .ok known) :
    ∀ v ∈ known, v.WellKeyed := by
  -- what is known so far is well keyed, whatever it is
  suffices hall : ∀ (ns : List Node) (before : List Value), (∀ v ∈ before, v.WellKeyed) →
      ∀ {known}, ns.foldlM (fun known n => do
        return known ++ [← n.value? known]) before = (.ok known : Outcome Error (List Value)) →
      ∀ v ∈ known, v.WellKeyed from hall d.collections [] (List.forall_mem_nil _) h
  intro ns
  induction ns with
  | nil =>
    intro before hbefore known h
    obtain rfl := Except.ok.inj h
    exact hbefore
  | cons n rest ih =>
    intro before hbefore known h
    rw [List.foldlM_cons] at h
    obtain ⟨next, hnext, h⟩ := Outcome.seq_eq_ok.1 h
    obtain ⟨v, hv, hnext⟩ := Outcome.seq_eq_ok.1 hnext
    obtain rfl := Except.ok.inj hnext
    refine ih _ (fun w hw => ?_) h
    rcases List.mem_append.1 hw with hw | hw
    · exact hbefore w hw
    · obtain rfl := List.mem_singleton.1 hw
      exact wellKeyed_of_value? hbefore hv

/-- The data of a document is well keyed. -/
theorem wellKeyed_of_ofContent? {c : Content} (h : ofContent? c = .ok v) : v.WellKeyed := by
  obtain ⟨d, -, h⟩ := Outcome.seq_eq_ok.1 h
  obtain ⟨-, -, h⟩ := Outcome.seq_eq_ok.1 h
  obtain ⟨known, hknown, h⟩ := Outcome.seq_eq_ok.1 h
  exact wellKeyed_of_value? (wellKeyed_of_known? hknown) h

/-- The reader of these documents. -/
def Reader.builtIn : Reader where
  read c := Outcome.mapCause (fun _ => ()) (ofContent? c)
  wellKeyed h := wellKeyed_of_ofContent? (Outcome.mapCause_eq_ok.1 h)

end ModulePath.Yaml
