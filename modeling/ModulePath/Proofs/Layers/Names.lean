import Mathlib.Data.List.Basic
import ModulePath.Proofs.Layers.BaseLayer
import ModulePath.Proofs.Layers.Failure

/-!
# Lists of layers

A list of layers is what stands between commas, without the blanks around it. Reading a list fails
exactly if one of its entries is no valid name. Otherwise the layers are the entries in the order of
their first occurrence (`FirstOccurrences`), with the base layer at the end if it is not one of
them, and a list in which they are written one after the other is read as the same layers
(`layerNames_settled`).

What is read is settled: its names are valid and distinct entries, the base layer is among them, and
such names are read as they are (`Settled`, `Settled.outcome_layerNames`).
-/

set_option autoImplicit false

namespace ModulePath.Layers

variable {fs : FileSystem} {name : String} {entries names layers : List String}

/-! ## Entries -/

/-- A text that is an entry of a list of names, and the same one if it is read again. -/
structure IsEntry (name : String) : Prop where
  ne_empty : name ≠ ""
  noComma : ',' ∉ name.toList
  trimmed : Text.trim name.toList = name.toList

/-- The entries of a list are what its pieces hold between blanks, if anything. -/
theorem mem_nameEntries {s : String} : name ∈ nameEntries s ↔
    ∃ piece ∈ Text.splitAt ',' s.toList,
      Text.trim piece ≠ [] ∧ String.ofList (Text.trim piece) = name := by
  unfold nameEntries
  simp only [List.mem_map, List.mem_filter, Bool.not_eq_true', List.isEmpty_eq_false_iff]
  constructor
  · rintro ⟨_, ⟨⟨piece, hpiece, rfl⟩, hne⟩, hname⟩
    exact ⟨piece, hpiece, hne, hname⟩
  · rintro ⟨piece, hpiece, hne, hname⟩
    exact ⟨_, ⟨⟨piece, hpiece, rfl⟩, hne⟩, hname⟩

/-- Cutting leaves no commas and trimming no blanks, so neither finds anything a second time. -/
theorem isEntry_of_mem_nameEntries {s : String} (h : name ∈ nameEntries s) : IsEntry name := by
  obtain ⟨piece, hpiece, hne, rfl⟩ := mem_nameEntries.1 h
  refine ⟨?_, ?_, ?_⟩
  · intro hempty
    apply hne
    simpa using congrArg String.toList hempty
  · rw [String.toList_ofList]
    intro hcomma
    exact Text.not_mem_of_mem_splitAt hpiece (Text.mem_of_mem_trim hcomma)
  · rw [String.toList_ofList, Text.trim_trim]

theorem isEntry_baseLayer : IsEntry baseLayer := ⟨by decide, by decide, by decide⟩

theorem toList_intercalate (names : List String) :
    (String.intercalate "," names).toList = [','].intercalate (names.map String.toList) :=
  String.toList_intercalate

/-- Entries that are written one after the other are read as they were. -/
theorem nameEntries_intercalate (hne : names ≠ []) (h : ∀ name ∈ names, IsEntry name) :
    nameEntries (String.intercalate "," names) = names := by
  have hpieces : Text.splitAt ',' (String.intercalate "," names).toList =
      names.map String.toList := by
    rw [toList_intercalate]
    apply Text.splitAt_intercalate
    · simpa using hne
    · exact List.forall_mem_map.2 fun name hname => (h name hname).noComma
  have htrim : (names.map String.toList).map Text.trim = names.map String.toList := by
    rw [List.map_map]
    exact List.map_congr_left fun name hname => (h name hname).trimmed
  have hfilter : (names.map String.toList).filter (fun cs => !cs.isEmpty) =
      names.map String.toList := by
    rw [List.filter_eq_self, List.forall_mem_map]
    intro name hname
    simpa using (h name hname).ne_empty
  rw [nameEntries, hpieces, htrim, hfilter, List.map_map]
  simp

/-! ## First occurrences -/

/-- The members of a list, each once, in the order in which they occur for the first time. -/
structure FirstOccurrences (entries names : List String) : Prop where
  mem_iff : ∀ name, name ∈ names ↔ name ∈ entries
  ordered : names.Pairwise fun a b => entries.idxOf a < entries.idxOf b

theorem FirstOccurrences.nodup (h : FirstOccurrences entries names) : names.Nodup := by
  apply h.ordered.imp
  rintro a b hlt rfl
  exact Nat.lt_irrefl _ hlt

/-- One entry more is new, or it leaves the list as it is. -/
theorem eraseDups_concat (entries : List String) (name : String) :
    (entries ++ [name]).eraseDups =
      entries.eraseDups ++ if name ∈ entries then [] else [name] := by
  rw [List.eraseDups_append, List.cons_removeAll, List.nil_removeAll]
  by_cases hmem : name ∈ entries
  · simp [hmem]
  · simp [hmem, List.eraseDups_cons]

/-- Without repetitions, names stand in the order of their first occurrences. -/
theorem eraseDups_ordered (entries : List String) :
    entries.eraseDups.Pairwise fun a b => entries.idxOf a < entries.idxOf b := by
  -- the induction is from the end: an entry that comes later is no earlier occurrence
  induction entries using List.reverseRecOn with
  | nil => simp
  | append_singleton entries name ih =>
    have hkept : entries.eraseDups.Pairwise fun a b =>
        (entries ++ [name]).idxOf a < (entries ++ [name]).idxOf b := by
      apply ih.imp_of_mem
      intro a b ha hb hlt
      rw [List.mem_eraseDups] at ha hb
      rwa [List.idxOf_append_of_mem ha, List.idxOf_append_of_mem hb]
    rw [eraseDups_concat]
    split
    case isTrue => rwa [List.append_nil]
    case isFalse hnew =>
      refine List.pairwise_append.2 ⟨hkept, List.pairwise_singleton _ _, ?_⟩
      intro a ha b hb
      obtain rfl := List.mem_singleton.1 hb
      rw [List.mem_eraseDups] at ha
      rw [List.idxOf_append_of_mem ha, List.idxOf_append_of_notMem hnew]
      have hbefore : entries.idxOf a < entries.length := List.idxOf_lt_length_iff.2 ha
      omega

/-- What is left without repetitions are the first occurrences. -/
theorem firstOccurrences_eraseDups (entries : List String) :
    FirstOccurrences entries entries.eraseDups :=
  ⟨fun _ => List.mem_eraseDups, eraseDups_ordered entries⟩

theorem nodup_eraseDups (entries : List String) : entries.eraseDups.Nodup :=
  (firstOccurrences_eraseDups entries).nodup

theorem eraseDups_of_nodup (h : names.Nodup) : names.eraseDups = names := by
  induction names using List.reverseRecOn with
  | nil => simp
  | append_singleton names name ih =>
    obtain ⟨hnames, -, hdisjoint⟩ := List.nodup_append.1 h
    have hnew : name ∉ names := fun hmem =>
      hdisjoint name hmem name (List.mem_singleton_self name) rfl
    rw [eraseDups_concat, ih hnames, if_neg hnew]

/-- The base layer is added only where it is absent. -/
theorem nodup_withBase (h : names.Nodup) : (withBase names).Nodup := by
  unfold withBase
  split
  case isTrue => exact h
  case isFalse hbase =>
    refine h.append (List.nodup_singleton _) fun name hname hlast => hbase ?_
    obtain rfl := List.mem_singleton.1 hlast
    exact List.contains_iff_mem.2 hname

theorem baseLayer_mem_withBase (names : List String) : baseLayer ∈ withBase names := by
  unfold withBase
  split
  case isTrue hbase => exact List.contains_iff_mem.1 hbase
  case isFalse => simp

/-! ## Settled names -/

/-- Names that are read as they are when they are written one after the other. -/
structure Settled (layers : List String) : Prop where
  nodup : layers.Nodup
  isEntry : ∀ name ∈ layers, IsEntry name
  valid : ∀ name ∈ layers, nameFault? name = none
  hasBase : baseLayer ∈ layers

/-- Settled names are read as they are when they are written one after the other. -/
theorem Settled.outcome_layerNames (h : Settled layers) :
    (layerNames (some (String.intercalate "," layers))).outcome fs = .ok layers := by
  have hentries : nameEntries (String.intercalate "," layers) = layers :=
    nameEntries_intercalate (List.ne_nil_of_mem h.hasBase) h.isEntry
  rw [outcome_layerNames_eq_ok, Option.getD_some, hentries, eraseDups_of_nodup h.nodup, withBase,
    if_pos (List.contains_iff_mem.2 h.hasBase)]
  exact ⟨h.valid, rfl⟩

/-- What is read from a list of names is settled. -/
theorem settled_of_outcome_layerNames {s : Option String}
    (h : (layerNames s).outcome fs = .ok layers) : Settled layers := by
  obtain ⟨hvalid, rfl⟩ := outcome_layerNames_eq_ok.1 h
  have hcases : ∀ name ∈ withBase (nameEntries (s.getD "")).eraseDups,
      name ∈ nameEntries (s.getD "") ∨ name = baseLayer := by
    intro name hname
    exact (mem_withBase hname).imp_left List.mem_eraseDups.1
  refine ⟨nodup_withBase (nodup_eraseDups _), ?_, ?_, baseLayer_mem_withBase _⟩
  · intro name hname
    rcases hcases name hname with hentry | rfl
    · exact isEntry_of_mem_nameEntries hentry
    · exact isEntry_baseLayer
  · intro name hname
    rcases hcases name hname with hentry | rfl
    · exact hvalid name hentry
    · decide

/-! ## Reading a list -/

/-- A list is read, or refused for an entry that is no valid name. -/
theorem outcome_layerNames_cases (fs : FileSystem) (s : Option String) :
    (∃ layers, (layerNames s).outcome fs = .ok layers) ∨
      ∃ f, (layerNames s).outcome fs = .error (.refused f) := by
  have hsettles : Program.Settles fs (fun _ => True) (layerNames s) :=
    (settles_addNames _ _).bind fun names _ => Program.settles_pure (withBase names)
  rcases hsettles with hok | ⟨f, hf, -⟩
  · exact .inl hok
  · exact .inr ⟨f, hf⟩

/-- A list of names is refused exactly if one of its entries has a fault. -/
theorem exists_refused_iff {s : Option String} :
    (∃ f, (layerNames s).outcome fs = .error (.refused f)) ↔
      ∃ name ∈ nameEntries (s.getD ""), nameFault? name ≠ none := by
  constructor
  · rintro ⟨f, hf⟩
    by_contra hnone
    push Not at hnone
    have hok : (layerNames s).outcome fs = .ok _ := outcome_layerNames_eq_ok.2 ⟨hnone, rfl⟩
    rw [hf] at hok
    cases hok
  · rintro ⟨name, hname, hfault⟩
    rcases outcome_layerNames_cases fs s with ⟨layers, hok⟩ | hrefused
    · exact absurd ((outcome_layerNames_eq_ok.1 hok).1 name hname) hfault
    · exact hrefused

/-- The pieces of a text between its commas. -/
structure CommaPieces (s : String) (pieces : List (List Char)) : Prop where
  joined : [','].intercalate pieces = s.toList
  ne_nil : pieces ≠ []
  noComma : ∀ piece ∈ pieces, ',' ∉ piece

/-- A list of layers is refused exactly if a piece between its commas is neither blank nor, without
the blanks around it, a valid name. Otherwise the layers are distinct: they are the pieces that are
not blank in the order of their first occurrence, and the base layer after them if it is not one of
them. Written with commas they are read as the same layers. No list at all is one without pieces
that count. -/
theorem layerNames_settled (fs : FileSystem) (s : Option String) :
    ∃ pieces entries, CommaPieces (s.getD "") pieces ∧
      entries = ((pieces.map Text.trim).filter (· ≠ [])).map String.ofList ∧
      ((∃ f, (layerNames s).outcome fs = .error (.refused f)) ↔
        ∃ piece ∈ pieces, Text.trim piece ≠ [] ∧
          nameFault? (String.ofList (Text.trim piece)) ≠ none) ∧
      ((∃ f, (layerNames s).outcome fs = .error (.refused f)) ∨
        ∃ named layers, (layerNames s).outcome fs = .ok layers ∧ layers.Nodup ∧
          FirstOccurrences entries named ∧
          layers = (if baseLayer ∈ entries then named else named ++ [baseLayer]) ∧
          (layerNames (some (String.intercalate "," layers))).outcome fs = .ok layers) := by
  refine ⟨Text.splitAt ',' (s.getD "").toList, nameEntries (s.getD ""), ?_, ?_, ?_, ?_⟩
  · exact ⟨Text.intercalate_splitAt _ _, Text.splitAt_ne_nil _ _,
      fun _ => Text.not_mem_of_mem_splitAt⟩
  · unfold nameEntries
    congr 2
    funext cs
    cases cs with
    | nil => rfl
    | cons c cs => simp
  · rw [exists_refused_iff]
    constructor
    · rintro ⟨name, hname, hfault⟩
      obtain ⟨piece, hpiece, hne, rfl⟩ := mem_nameEntries.1 hname
      exact ⟨piece, hpiece, hne, hfault⟩
    · rintro ⟨piece, hpiece, hne, hfault⟩
      exact ⟨_, mem_nameEntries.2 ⟨piece, hpiece, hne, rfl⟩, hfault⟩
  · rcases outcome_layerNames_cases fs s with ⟨layers, hok⟩ | hrefused
    · right
      -- what is read has no name twice, so it is read back as it is
      have hsettled : Settled layers := settled_of_outcome_layerNames hok
      have hlayers : layers = withBase (nameEntries (s.getD "")).eraseDups :=
        (outcome_layerNames_eq_ok.1 hok).2
      refine ⟨_, layers, hok, hsettled.nodup, firstOccurrences_eraseDups _, ?_,
        hsettled.outcome_layerNames⟩
      simp [hlayers, withBase]
    · exact .inl hrefused

/-- Blank pieces do not count, and a name counts where it occurs first. -/
example : (layerNames (some " top ,, base,top,\tmid")).outcome ({} : Tree).fileSystem =
    .ok ["top", "base", "mid"] := by
  decide +kernel

end ModulePath.Layers
