import Mathlib.Data.List.Basic
import ModulePath.Proofs.FileSystem.Agreement
import ModulePath.Proofs.Layers.Success

/-!
# The place of the base layer

The names that a list of layers gives are its entries in order of their first occurrence
(`outcome_addNames_eq_ok`), and the base layer is put at the end if it is not among them
(`outcome_layerNames_eq_ok`). So it is the lowest layer unless the configuration file names another
layer for the first time after it (`NamesBelowBase`), and layers that are listed always end in it.
The search path of a root shows this: below the base layer there are add-ons and nothing else,
except for the layers that are named after it (`resolveRoot_baseLayer`).
-/

set_option autoImplicit false

namespace ModulePath.Layers

variable {fs : FileSystem} {layout : Layout} {root : Path} {paths : List Path}

/-! ## Layers that are named -/

/-- The names are added in order of their first occurrence, if all of them are valid. The induction
is along the entries, with the names so far as they are. -/
theorem outcome_addNames_eq_ok {names entries result : List String} :
    (addNames names entries).outcome fs = .ok result ↔
      (∀ name ∈ entries, nameFault? name = none) ∧
        result = names ++ (entries.removeAll names).eraseDups := by
  induction entries generalizing names with
  | nil =>
    rw [addNames, Program.outcome_pure_eq_ok]
    simp [List.removeAll]
  | cons name rest ih =>
    rw [addNames, List.forall_mem_cons]
    cases hname : nameFault? name with
    | some f => simp [Program.outcome_refuse_ne_ok]
    | none =>
      by_cases hmem : names.contains name = true
      · have hadd : (logEntry (duplicateEntry name) >>= fun _ => addNames names rest).outcome fs =
            (addNames names rest).outcome fs := Program.outcome_note_bind _ _
        simp only [if_pos hmem, hadd, ih, true_and]
        rw [List.cons_removeAll, if_neg (by simpa using hmem)]
      · simp only [if_neg hmem, ih, true_and]
        rw [List.cons_removeAll, if_pos (by simpa using hmem), List.eraseDups_cons]
        -- what is new beside the names so far and this one is what is left of the rest
        have hrest : rest.removeAll (names ++ [name]) =
            (rest.removeAll names).filter fun other => !other == name := by
          simp only [List.removeAll, List.filter_filter]
          apply List.filter_congr
          intro other _
          by_cases hsame : other = name
          · simp [hsame]
          · simp [hsame]
        rw [hrest, List.append_assoc, List.singleton_append]

/-- A list of layers gives its entries in order of their first occurrence, with the base layer. -/
theorem outcome_layerNames_eq_ok {s : Option String} {layers : List String} :
    (layerNames s).outcome fs = .ok layers ↔
      (∀ name ∈ nameEntries (s.getD ""), nameFault? name = none) ∧
        layers = withBase (nameEntries (s.getD "")).eraseDups := by
  rw [layerNames, Program.outcome_bind_eq_ok]
  simp only [outcome_addNames_eq_ok, Program.outcome_pure_eq_ok, List.nil_append]
  have hnone : (nameEntries (s.getD "")).removeAll [] = nameEntries (s.getD "") := by
    simp [List.removeAll]
  rw [hnone]
  constructor
  · rintro ⟨_, ⟨hvalid, rfl⟩, rfl⟩
    exact ⟨hvalid, rfl⟩
  · rintro ⟨hvalid, rfl⟩
    exact ⟨_, ⟨hvalid, rfl⟩, rfl⟩

/-- A layer is named whose first occurrence comes after that of the base layer. -/
def NamesBelowBase (entries : List String) : Prop :=
  ∃ name ∈ entries, entries.idxOf baseLayer < entries.idxOf name

/-- What comes after the base layer in a list is neither before it nor the layer itself. -/
theorem idxOf_base_lt_iff {before after : List String} {name : String}
    (hbefore : baseLayer ∉ before) :
    (before ++ baseLayer :: after).idxOf baseLayer < (before ++ baseLayer :: after).idxOf name ↔
      name ∉ before ∧ name ≠ baseLayer := by
  have hbase : (before ++ baseLayer :: after).idxOf baseLayer = before.length := by
    simp [List.idxOf_append, hbefore]
  rw [hbase, List.idxOf_append]
  by_cases hname : name ∈ before
  · have hlt := List.idxOf_lt_length_iff.2 hname
    rw [if_pos hname]
    simp only [hname, not_true_eq_false, false_and, iff_false]
    omega
  · rw [if_neg hname]
    by_cases hsame : name = baseLayer
    · simp [hsame]
    · rw [List.idxOf_cons_ne _ (Ne.symm hsame)]
      simp only [hname, hsame, ne_eq, not_false_eq_true, and_self, iff_true]
      omega

/-- The layers above the base layer and those below it. -/
theorem exists_around_base (entries : List String) :
    ∃ above below, withBase entries.eraseDups = above ++ baseLayer :: below ∧
      baseLayer ∉ above ∧ baseLayer ∉ below ∧ (below = [] ↔ ¬ NamesBelowBase entries) := by
  by_cases hbase : baseLayer ∈ entries
  · obtain ⟨before, after, rfl, hbefore⟩ := List.eq_append_cons_of_mem hbase
    have hnew (name : String) : name ∈ ((after.removeAll before).filter fun name =>
        !name == baseLayer).eraseDups ↔ name ∈ after ∧ name ∉ before ∧ name ≠ baseLayer := by
      simp [List.removeAll, and_comm]
    refine ⟨before.eraseDups, _, ?_, ?_, fun hmem => ((hnew _).1 hmem).2.2 rfl, ?_⟩
    · have hcontains : (before ++ baseLayer :: after).eraseDups.contains baseLayer = true := by
        simp
      rw [withBase, if_pos hcontains, List.eraseDups_append, List.cons_removeAll,
        if_pos (by simpa using hbefore), List.eraseDups_cons]
    · rwa [List.mem_eraseDups]
    · rw [List.eq_nil_iff_forall_not_mem]
      simp only [hnew, NamesBelowBase, idxOf_base_lt_iff hbefore, not_exists, not_and]
      constructor
      · intro hnone name hname hnot heq
        rcases List.mem_append.1 hname with hmem | hmem
        · exact hnot hmem
        · rcases List.mem_cons.1 hmem with hsame | hafter
          · exact heq hsame
          · exact hnone name hafter hnot heq
      · intro hnone name hafter
        exact hnone name (List.mem_append_right _ (List.mem_cons_of_mem _ hafter))
  · refine ⟨entries.eraseDups, [], ?_, ?_, List.not_mem_nil, ?_⟩
    · rw [withBase, if_neg (by simpa using hbase)]
    · rwa [List.mem_eraseDups]
    · -- the first occurrence of what is not there counts as that after all others
      have hlast : entries.idxOf baseLayer = entries.length := List.idxOf_eq_length_iff.2 hbase
      simp only [NamesBelowBase, hlast, not_exists, not_and, true_iff]
      intro name hname
      have hlt := List.idxOf_lt_length_iff.2 hname
      omega

/-! ## The layers of a root -/

/-- No directory lists a name twice. -/
def ListsOnce (fs : FileSystem) : Prop :=
  ∀ p names, fs.subdirectories p = .ok names → names.Nodup

/-- The configuration file of a root names a layer below the base layer. -/
def ConfiguresBelowBase (fs : FileSystem) (layout : Layout) (root : Path) : Prop :=
  fs.contains (root.child layout.configFile) = true ∧
    ∃ text, fs.HasText (root.child layout.configFile) text ∧
      NamesBelowBase (nameEntries (((Properties.ofText text).get? "layers").getD ""))

/-- A well-formed tree lists the names of directories that are told apart by them. -/
theorem listsOnce_fileSystem {t : Tree} (hwf : t.WellFormed) : ListsOnce t.fileSystem := by
  intro p names hnames
  obtain ⟨-, rfl⟩ := Tree.subdirectories_fileSystem_eq_ok.1 hnames
  exact Tree.nodup_childNames hwf p

theorem hasText_unique {p : Path} {text text' : String} (h : fs.HasText p text)
    (h' : fs.HasText p text') : text = text' := by
  obtain ⟨content, hcontent, htext⟩ := h
  obtain ⟨content', hcontent', htext'⟩ := h'
  obtain rfl := Except.ok.inj (hcontent.symm.trans hcontent')
  exact Except.ok.inj (htext.symm.trans htext')

/-- The base layer among the layers of a root, if it is one of them: layers that are listed end in
it, and layers that are named come after it only if they are named so. -/
theorem Found.exists_around_base {s : Structure} (honce : ListsOnce fs)
    (h : Found fs layout root (some s)) (hbase : baseLayer ∈ s.layers) :
    ∃ above below, s.layers = above ++ baseLayer :: below ∧ baseLayer ∉ above ∧
      baseLayer ∉ below ∧ (below = [] ↔ ¬ ConfiguresBelowBase fs layout root) := by
  cases h with
  | configured present hasText parsed isDirectory =>
    rename_i text conf
    obtain ⟨-, -, layers, hlayers, rfl⟩ := outcome_ofText_eq_ok.1 parsed
    obtain ⟨-, hnames⟩ := outcome_layerNames_eq_ok.1 hlayers
    obtain ⟨above, below, hsplit, habove, hbelow, hiff⟩ :=
      Layers.exists_around_base (nameEntries (((Properties.ofText text).get? "layers").getD ""))
    refine ⟨above, below, hnames.trans hsplit, habove, hbelow, hiff.trans (not_congr ?_)⟩
    constructor
    · intro hnames
      exact ⟨present, _, hasText, hnames⟩
    · rintro ⟨-, text, htext, hnames⟩
      rwa [hasText_unique hasText htext]
  | discovered absent isDirectory listing nonempty =>
    rename_i names
    have hnot : ¬ ConfiguresBelowBase fs layout root := by
      rintro ⟨present, -⟩
      exact Bool.false_ne_true (absent.symm.trans present)
    have horder := discoveryOrder_eq names
    -- discovered layers have the base layer last, so nothing is below it
    have hmem : baseLayer ∈ names := by
      by_contra hno
      simp only [horder, if_neg hno, List.append_nil, Text.mem_sort] at hbase
      exact hno (List.mem_of_mem_erase hbase)
    refine ⟨Text.sort (names.erase baseLayer), [], ?_, ?_, List.not_mem_nil, by simp [hnot]⟩
    · rw [horder, if_pos hmem]
    · rw [Text.mem_sort]
      exact (honce _ _ listing).not_mem_erase

/-! ## The search path of a root -/

/-- Blocks of a list fall into those of its two parts. -/
theorem blocks_append_iff {α β : Type} {R : α → List β → Prop} {as as' : List α} {bs : List β} :
    Blocks R (as ++ as') bs ↔ ∃ xs ys, Blocks R as xs ∧ Blocks R as' ys ∧ bs = xs ++ ys := by
  induction as generalizing bs with
  | nil => simp [blocks_nil_iff]
  | cons a as ih =>
    rw [List.cons_append, blocks_cons_iff]
    constructor
    · rintro ⟨first, rest, ha, hrest, rfl⟩
      obtain ⟨xs, ys, hxs, hys, rfl⟩ := ih.1 hrest
      exact ⟨first ++ xs, ys, blocks_cons_iff.2 ⟨first, xs, ha, hxs, rfl⟩, hys, by simp⟩
    · rintro ⟨_, ys, hall, hys, rfl⟩
      obtain ⟨first, xs, ha, hxs, rfl⟩ := blocks_cons_iff.1 hall
      exact ⟨first, xs ++ ys, ha, ih.2 ⟨xs, ys, hxs, hys, rfl⟩, by simp⟩

/-- There is something in the search path for every layer. -/
theorem blocks_withOverlays_eq_nil_iff {dirs : List Path}
    (h : Blocks (WithOverlays fs layout) dirs paths) : paths = [] ↔ dirs = [] := by
  cases dirs with
  | nil => simp [blocks_nil_iff.1 h]
  | cons dir rest =>
    obtain ⟨_, others, ⟨above, -, rfl⟩, -, rfl⟩ := blocks_cons_iff.1 h
    simp

/-- The search path of a root with the base layer among its layers: the root, the layers above the
base layer and their overlays, the overlays of the base layer, the base layer, and then the add-ons
and their overlays. Layers come between the base layer and the add-ons exactly if the configuration
file names a layer for the first time after the base layer. -/
theorem resolveRoot_baseLayer {s : Structure} (honce : ListsOnce fs)
    (h : (resolveRoot layout root).outcome fs = .ok paths)
    (hs : (structureOf layout root).outcome fs = .ok (some s)) (hbase : baseLayer ∈ s.layers) :
    ∃ above below upper lower addOns,
      s.layers = above ++ baseLayer :: below ∧ baseLayer ∉ above ∧ baseLayer ∉ below ∧
        paths = root :: (upper ++ s.layersDir.child baseLayer :: (lower ++ addOns)) ∧
        Blocks (WithOverlays fs layout) ((above ++ [baseLayer]).map s.layersDir.child)
          (upper ++ [s.layersDir.child baseLayer]) ∧
        Blocks (WithOverlays fs layout) (below.map s.layersDir.child) lower ∧
        AddOns fs layout s.addOnsDir addOns ∧
        (lower = [] ↔ ¬ ConfiguresBelowBase fs layout root) := by
  have hfound : Found fs layout root (some s) := outcome_structureOf_eq_ok.1 hs
  obtain ⟨above, below, hsplit, habove, hbelow, hiff⟩ := hfound.exists_around_base honce hbase
  cases outcome_resolveRoot_eq_ok.1 h with
  | plain hnone =>
    have hnone := outcome_structureOf_eq_ok.2 hnone
    rw [hs] at hnone
    cases hnone
  | layered hfound' _ hblocks haddOns =>
    have hsame := outcome_structureOf_eq_ok.2 hfound'
    rw [hs] at hsame
    obtain rfl := Option.some.inj (Except.ok.inj hsame)
    rw [hsplit, List.append_cons, List.map_append] at hblocks
    obtain ⟨first, lower, hfirst, hlower, rfl⟩ := blocks_append_iff.1 hblocks
    -- the last of the upper directories is that of the base layer
    obtain ⟨highest, last, hhighest, hlast, rfl⟩ :=
      blocks_append_iff.1 (List.map_append ▸ hfirst)
    obtain ⟨_, _, ⟨overlays, hoverlays, rfl⟩, hnil, rfl⟩ := blocks_cons_iff.1 hlast
    obtain rfl := blocks_nil_iff.1 hnil
    refine ⟨above, below, highest ++ overlays, lower, _, hsplit, habove, hbelow, ?_, ?_, hlower,
      haddOns, ?_⟩
    · simp
    · simpa using hfirst
    · rw [blocks_withOverlays_eq_nil_iff hlower, List.map_eq_nil_iff]
      exact hiff

/-- A root whose configuration file names a layer above the base layer and one below it, with an
overlay of the base layer and an add-on. -/
def unevenTree : Tree where
  directories :=
    [[], ["r"], ["r", "layers"], ["r", "layers", "top"], ["r", "layers", "low"],
      ["r", "layers", "base"], ["r", "layers", "base", ".overlays"],
      ["r", "layers", "base", ".overlays", "fix"], ["r", "add-ons"],
      ["r", "add-ons", "more"]].map (Path.mk .root)
  files :=
    [(⟨.root, ["r", "layers.conf"]⟩, "layers=top,base,low"),
      (⟨.root, ["r", "layers", "base", ".overlays", ".overlays"]⟩, "fix")]

/-- What is found in that root. -/
def unevenStructure : Structure where
  layersDir := .ofText "/r/layers"
  layers := ["top", "base", "low"]
  addOnsDir := .ofText "/r/add-ons"

/-- Its search path. -/
def unevenPath : List Path :=
  ["/r", "/r/layers/top", "/r/layers/base/.overlays/fix", "/r/layers/base", "/r/layers/low",
    "/r/add-ons/more"].map .ofText

theorem wellFormed_unevenTree : unevenTree.WellFormed := ⟨by decide +kernel, by decide +kernel⟩

/-- The structure that the tree names, with a layer below the base layer. -/
theorem outcome_structureOf_unevenTree :
    (structureOf .default (.ofText "/r")).outcome unevenTree.fileSystem =
      .ok (some unevenStructure) := by
  decide +kernel

theorem outcome_resolveRoot_unevenTree :
    (resolveRoot .default (.ofText "/r")).outcome unevenTree.fileSystem = .ok unevenPath := by
  decide +kernel

/-- The layer `low` comes after the base layer. -/
theorem resolveRoot_below_base :
    unevenTree.WellFormed ∧
      (structureOf .default (.ofText "/r")).outcome unevenTree.fileSystem =
        .ok (some unevenStructure) ∧
      (resolveRoot .default (.ofText "/r")).outcome unevenTree.fileSystem = .ok unevenPath ∧
      unevenPath.idxOf (unevenStructure.layersDir.child baseLayer) <
        unevenPath.idxOf (unevenStructure.layersDir.child "low") :=
  ⟨wellFormed_unevenTree, outcome_structureOf_unevenTree, outcome_resolveRoot_unevenTree,
    by decide +kernel⟩

theorem resolveRoot_unevenTree :
    ListsOnce unevenTree.fileSystem ∧
      (resolveRoot .default (.ofText "/r")).outcome unevenTree.fileSystem = .ok unevenPath ∧
      (structureOf .default (.ofText "/r")).outcome unevenTree.fileSystem =
        .ok (some unevenStructure) ∧
      baseLayer ∈ unevenStructure.layers ∧
      ∃ above below upper lower addOns,
        unevenStructure.layers = above ++ baseLayer :: below ∧
        unevenPath = .ofText "/r" ::
          (upper ++ unevenStructure.layersDir.child baseLayer :: (lower ++ addOns)) ∧
        (lower = [] ↔ ¬ ConfiguresBelowBase unevenTree.fileSystem .default (.ofText "/r")) := by
  have honce := listsOnce_fileSystem wellFormed_unevenTree
  have hpath := outcome_resolveRoot_unevenTree
  have hfound := outcome_structureOf_unevenTree
  have hbase : baseLayer ∈ unevenStructure.layers := by decide
  obtain ⟨above, below, upper, lower, addOns, hsplit, -, -, hpaths, -, -, -, hlower⟩ :=
    resolveRoot_baseLayer honce hpath hfound hbase
  exact ⟨honce, hpath, hfound, hbase, above, below, upper, lower, addOns, hsplit, hpaths, hlower⟩

end ModulePath.Layers
