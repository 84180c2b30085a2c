import ModulePath.Proofs.Layers.Confinement
import ModulePath.Proofs.Layers.Names
import ModulePath.Proofs.Layers.Properties

/-!
# Layers that are named

Layers that are found by listing their directory can be named in a configuration file instead, in
the order in which they are found, and the search of the root ends in the same outcome
(`resolveRoot_named`). A file that names them is read back as it was written
(`outcome_ofText_confText`), so both ways lead to the same structure. From there on the search stays
within the directories of layers and add-ons, where writing the file changes nothing.
-/

set_option autoImplicit false

namespace ModulePath.Layers

open Program (Confined)

/-! ## What the file says -/

/-- A name that stands for itself in a list of names. -/
structure Listable (name : String) : Prop where
  valid : nameFault? name = none
  noComma : ',' ∉ name.toList
  isLine : Text.IsLine name.toList
  trimmed : Text.trim name.toList = name.toList

/-- The text of a configuration file that names layers and nothing else. -/
def confText (names : List String) : String := "layers=" ++ String.intercalate "," names

variable {fs : FileSystem} {name : String} {names : List String}

theorem Listable.toList_ne_nil (h : Listable name) : name.toList ≠ [] := by
  intro hnil
  obtain rfl : name = "" := String.toList_eq_nil_iff.1 hnil
  exact absurd h.valid (by decide)

/-- A name that can be listed is an entry of a list. -/
theorem Listable.isEntry (h : Listable name) : IsEntry name where
  ne_empty := String.toList_eq_nil_iff.not.1 h.toList_ne_nil
  noComma := h.noComma
  trimmed := h.trimmed

/-- Names that can be listed, with the base layer among them, are read as they are written. -/
theorem settled_of_listable (h : ∀ name ∈ names, Listable name) (hnodup : names.Nodup)
    (hbase : baseLayer ∈ names) : Settled names where
  nodup := hnodup
  isEntry := fun name hname => (h name hname).isEntry
  valid := fun name hname => (h name hname).valid
  hasBase := hbase

/-- There is no blank at the beginning of the list of names. -/
theorem isBlank_head?_intercalate (h : ∀ name ∈ names, Listable name) :
    ∀ c ∈ ([','].intercalate (names.map String.toList)).head?, Text.isBlank c = false := by
  cases names with
  | nil => nofun
  | cons name rest =>
    have hname : Listable name := h name List.mem_cons_self
    rw [List.map_cons, Text.head?_intercalate _ hname.toList_ne_nil]
    exact Text.isBlank_head?_of_trim hname.trimmed

/-- The list of names ends in the base layer, so it can stand in a line. -/
theorem isValue_names (h : ∀ name ∈ names ++ [baseLayer], Listable name) :
    Properties.IsValue (String.intercalate "," (names ++ [baseLayer])) := by
  have hchars := toList_intercalate (names ++ [baseLayer])
  refine ⟨?_, ?_, ?_⟩
  · rw [hchars]
    refine Text.isLine_intercalate (by decide) ?_
    exact List.forall_mem_map.2 fun name hname => (h name hname).isLine
  · rw [hchars]
    exact isBlank_head?_intercalate h
  · obtain ⟨before, hbefore⟩ : ∃ before, [','].intercalate
        (names.map String.toList ++ [baseLayer.toList]) = before ++ baseLayer.toList :=
      Text.exists_intercalate_eq _ _
    rw [hchars, List.map_append, List.map_singleton, hbefore,
      List.getLast?_append_of_ne_nil before (by decide)]
    rintro c ⟨⟩
    decide

theorem writesEntry_confText (h : ∀ name ∈ names ++ [baseLayer], Listable name) :
    Properties.WritesEntry "layers" (String.intercalate "," (names ++ [baseLayer]))
      (confText (names ++ [baseLayer])).toList := by
  have hnone : Properties.IsSpace [] := by decide
  have hkey : Properties.IsKey "layers" := by decide
  have hentry := Properties.WritesEntry.mk hkey (isValue_names h) hnone
    (.mark hnone (.inl rfl) hnone) hnone
  rw [List.append_nil] at hentry
  rw [confText, String.toList_append]
  exact hentry

/-- The file has one property. -/
theorem ofText_confText (h : ∀ name ∈ names ++ [baseLayer], Listable name) :
    Properties.ofText (confText (names ++ [baseLayer])) =
      [("layers", String.intercalate "," (names ++ [baseLayer]))] := by
  have hentry := writesEntry_confText h
  rw [Properties.ofText_eq, Properties.readText_of_isLine hentry.isLine,
    Properties.readLine_of_writesEntry hentry]
  rfl

/-- The file that names layers is read as these layers and nothing else. -/
theorem outcome_ofText_confText (h : ∀ name ∈ names ++ [baseLayer], Listable name)
    (hnodup : (names ++ [baseLayer]).Nodup) :
    (Conf.ofText (confText (names ++ [baseLayer]))).outcome fs =
      .ok ⟨names ++ [baseLayer], none, none⟩ := by
  rw [outcome_ofText_eq_ok, ofText_confText h]
  have hbase : baseLayer ∈ names ++ [baseLayer] :=
    List.mem_append_right _ (List.mem_singleton_self _)
  refine ⟨rfl, rfl, names ++ [baseLayer],
    (settled_of_listable h hnodup hbase).outcome_layerNames, rfl⟩

/-! ## Both ways to a structure -/

/-- There is nothing at a path, and nothing is said about its use. -/
structure IsFree (t : Tree) (p : Path) : Prop where
  noDirectory : p ∉ t.directories
  noFile : t.file? p = none
  notDenied : p ∉ t.denied
  notFailing : ∀ e ∈ t.failing, e.1 ≠ p

/-- There is nothing at a free path. -/
theorem IsFree.hasPath_eq_false {t : Tree} {p : Path} (h : IsFree t p) : t.hasPath p = false := by
  rw [Tree.hasPath, h.noFile, Option.isSome_none, Bool.or_false, Bool.eq_false_iff]
  exact mt List.contains_iff_mem.1 h.noDirectory

theorem IsFree.failure?_eq_none {t : Tree} {p : Path} (h : IsFree t p) : t.failure? p = none := by
  have hfind : (t.failing.find? fun e => e.1 = p) = none := by
    rw [List.find?_eq_none]
    intro e he
    simpa using h.notFailing e he
  rw [Tree.failure?, if_neg (mt List.contains_iff_mem.1 h.notDenied), hfind, Option.map_none]

section Structures

variable {t : Tree} {root : Path} {others : List String}

/-- The directory of layers in a root of the usual layout. -/
abbrev layersAt (root : Path) : Path := root.child Layout.default.layersPath

/-- The configuration file. -/
abbrev confAt (root : Path) : Path := root.child Layout.default.configFile

/-- The directory of add-ons. -/
abbrev addOnsAt (root : Path) : Path := root.child Layout.default.addOnsPath

/-- Layers that can be listed, the base layer among them, and that could be named as well. -/
structure Nameable (t : Tree) (root : Path) : Prop where
  isFree : IsFree t (confAt root)
  isDirectory : layersAt root ∈ t.directories
  canList : t.failure? (layersAt root) = none
  hasBase : baseLayer ∈ t.childNames (layersAt root)
  listable : ∀ name ∈ t.childNames (layersAt root), Listable name

/-- The tree with a configuration file that names the layers: the base layer after the others. -/
def withNames (t : Tree) (root : Path) (others : List String) : Tree :=
  t.write (confAt root) (confText (others ++ [baseLayer]))

/-- The names beside that of the base layer, none of which is listed twice. -/
theorem erase_baseLayer (hwf : t.WellFormed) (p : Path) :
    (t.childNames p).erase baseLayer = (t.childNames p).filter (· != baseLayer) :=
  (Tree.nodup_childNames hwf p).erase_eq_filter baseLayer

variable (hwf : t.WellFormed) (h : Nameable t root)
  (hothers : Text.Sorts others ((t.childNames (layersAt root)).filter (· != baseLayer)))

include hwf h hothers

/-- The layers are listed. -/
theorem outcome_structureOf_listed :
    (structureOf .default root).outcome t.fileSystem =
      .ok (some ⟨layersAt root, others ++ [baseLayer], addOnsAt root⟩) := by
  have horder : discoveryOrder (t.childNames (layersAt root)) = others ++ [baseLayer] := by
    rw [discoveryOrder_eq, if_pos h.hasBase, erase_baseLayer hwf, ← Text.sorts_iff.1 hothers]
  rw [outcome_structureOf_eq_ok, ← horder]
  refine .discovered ?_ ?_ ?_ (List.ne_nil_of_mem h.hasBase)
  · rw [Tree.contains_fileSystem, h.isFree.hasPath_eq_false]
  · exact Tree.isDirectory_fileSystem_iff.2 h.isDirectory
  · exact Tree.subdirectories_fileSystem_eq_ok.2 ⟨h.canList, rfl⟩

omit h in
theorem nodup_others : (others ++ [baseLayer]).Nodup := by
  have hnodup : others.Nodup :=
    hothers.perm.nodup_iff.2 ((Tree.nodup_childNames hwf _).filter _)
  refine List.nodup_append.2 ⟨hnodup, List.nodup_singleton _, ?_⟩
  rintro name hname _ hbase rfl
  obtain rfl := List.mem_singleton.1 hbase
  have hne := (List.mem_filter.1 (hothers.perm.mem_iff.1 hname)).2
  simp at hne

omit hwf in
theorem listable_others : ∀ name ∈ others ++ [baseLayer], Listable name := by
  rw [List.forall_mem_append, List.forall_mem_singleton]
  refine ⟨fun name hname => ?_, h.listable _ h.hasBase⟩
  exact h.listable name (List.mem_filter.1 (hothers.perm.mem_iff.1 hname)).1

/-- The layers are named. -/
theorem outcome_structureOf_named :
    (structureOf .default root).outcome (withNames t root others).fileSystem =
      .ok (some ⟨layersAt root, others ++ [baseLayer], addOnsAt root⟩) := by
  have hfile : (withNames t root others).file? (confAt root) =
      some (confText (others ++ [baseLayer])) := Tree.file?_write_self ..
  have hparsed : (Conf.ofText (confText (others ++ [baseLayer]))).outcome
      (withNames t root others).fileSystem = .ok ⟨others ++ [baseLayer], none, none⟩ :=
    outcome_ofText_confText (listable_others h hothers) (nodup_others hwf hothers)
  have hpresent : (withNames t root others).fileSystem.contains (confAt root) = true := by
    rw [Tree.contains_fileSystem, Tree.hasPath, hfile, Option.isSome_some, Bool.or_true]
  have htext : (withNames t root others).fileSystem.HasText (confAt root)
      (confText (others ++ [baseLayer])) := by
    refine Tree.hasText_fileSystem_iff.2 ⟨?_, hfile⟩
    rw [withNames, Tree.failure?_write, h.isFree.failure?_eq_none]
  have hdirectory : (withNames t root others).fileSystem.isDirectory (layersAt root) = true := by
    rw [Tree.isDirectory_fileSystem_iff, withNames, Tree.directories_write,
      Tree.mem_directories_foldl_addDirectory]
    exact .inl h.isDirectory
  have hfound := Found.configured hpresent htext hparsed hdirectory
  exact outcome_structureOf_eq_ok.2 hfound

end Structures

/-! ## The rest of the search -/

/-- What is within a directory, whatever components come after its own. -/
theorem closed_isWithin (dir : Path) :
    Closed (dir.isWithin · = true) fun name => Path.anchorOf name.toList = .relative :=
  ⟨fun _ _ hp hname => Path.isWithin_child hp hname,
    fun _ hname => (Path.leadsInside_of_nameFault? hname).relative⟩

section Agreement

variable {t t' : Tree} {dir : Path} (hwf : t.WellFormed) (hwf' : t'.WellFormed)
  (hagree : Tree.AgreeWithin dir t t')

include hwf hwf' hagree

/-- The file makes no difference to what is found in the directory of layers. -/
theorem outcome_layerBlocks_eq (h : ∀ name ∈ names, Listable name) :
    (layerBlocks .default dir names).outcome t.fileSystem =
      (layerBlocks .default dir names).outcome t'.fileSystem := by
  have hclosed := closed_isWithin dir
  have hconfined := layerBlocks_confined hclosed (hclosed.valid _ valid_default.overlaysDir)
    (Path.isWithin_self dir) fun name hname => hclosed.valid name (h name hname).valid
  exact hconfined.outcome_eq (Tree.lists_relative hwf _) (Tree.agreeOn_isWithin hwf hwf' hagree)

/-- The file makes no difference to what is found in the directory of add-ons. -/
theorem outcome_addOns_eq :
    (addOns .default dir).outcome t.fileSystem = (addOns .default dir).outcome t'.fileSystem := by
  have hclosed := closed_isWithin dir
  have hconfined := addOns_confined hclosed (hclosed.valid _ valid_default.overlaysDir)
    (Path.isWithin_self dir)
  exact hconfined.outcome_eq (Tree.lists_relative hwf _) (Tree.agreeOn_isWithin hwf hwf' hagree)

end Agreement

/-- Beside the configuration file there are the directories of layers and add-ons. -/
theorem agreeWithin_withNames (t : Tree) (root : Path) (others : List String) {place : String}
    (hplace : place = Layout.default.layersPath ∨ place = Layout.default.addOnsPath) :
    Tree.AgreeWithin (root.child place) t (withNames t root others) := by
  apply Tree.agreeWithin_write
  have hlayers : ¬ Path.partsOf "layers".toList <+: Path.partsOf "layers.conf".toList := by
    decide +kernel
  have haddOns : ¬ Path.partsOf "add-ons".toList <+: Path.partsOf "layers.conf".toList := by
    decide +kernel
  rcases hplace with rfl | rfl
  · exact Path.isWithin_child_eq_false (by decide) (by decide) hlayers root
  · exact Path.isWithin_child_eq_false (by decide) (by decide) haddOns root

theorem wellFormed_withNames {t : Tree} (hwf : t.WellFormed) (s : String) (others : List String) :
    (withNames t (.ofText s) others).WellFormed := by
  refine hwf.write (fun part hpart => ?_) _
  rw [confAt, Path.child_of_relative (by decide), List.mem_append] at hpart
  rcases hpart with hpart | hpart
  · exact Path.separator_not_mem_of_mem_partsOf hpart
  · exact Path.separator_not_mem_of_mem_partsOf hpart

/-- Once the structure of a root is found, its layers and add-ons are gone through. -/
theorem outcome_resolveRoot_of_structure {layout : Layout} {root : Path} {s : Structure}
    (h : (structureOf layout root).outcome fs = .ok (some s)) :
    (resolveRoot layout root).outcome fs =
      (do
        let layers ← layerBlocks layout s.layersDir s.layers
        let more ← addOns layout s.addOnsDir
        return root :: (layers ++ more) : Search (List Path)).outcome fs := by
  rw [resolveRoot, searchRoot, Program.outcome_within, outcome_logEntry_bind,
    Program.outcome_bind, h]
  rfl

/-- Layers that are listed and layers that are named are searched with the same outcome: the same
search path, or the same error. The names are those of the listing in code point order, the base
layer last, and they must be such that a list of them can be read. -/
theorem resolveRoot_named {t : Tree} {s : String} {others : List String} (hwf : t.WellFormed)
    (h : Nameable t (.ofText s))
    (hothers : Text.Sorts others
      ((t.childNames (layersAt (.ofText s))).filter (· != baseLayer))) :
    (resolveRoot .default (.ofText s)).outcome (withNames t (.ofText s) others).fileSystem =
      (resolveRoot .default (.ofText s)).outcome t.fileSystem := by
  have hwf' := wellFormed_withNames hwf s others
  have hlayers := outcome_layerBlocks_eq hwf hwf'
    (agreeWithin_withNames t (.ofText s) others (.inl rfl)) (listable_others h hothers)
  have haddOns := outcome_addOns_eq hwf hwf'
    (agreeWithin_withNames t (.ofText s) others (.inr rfl))
  rw [outcome_resolveRoot_of_structure (outcome_structureOf_named hwf h hothers),
    outcome_resolveRoot_of_structure (outcome_structureOf_listed hwf h hothers)]
  symm
  apply Program.outcome_bind_congr hlayers
  intro layers
  apply Program.outcome_bind_congr haddOns
  intro more
  rw [Program.outcome_pure, Program.outcome_pure]

/-- A root with three layers, one of them with a registered overlay, and an add-on. -/
def unnamedTree : Tree where
  directories :=
    [[], ["m"], ["m", "layers"], ["m", "layers", "top"], ["m", "layers", "top", ".overlays"],
      ["m", "layers", "top", ".overlays", "fix"], ["m", "layers", "base"], ["m", "layers", "extra"],
      ["m", "add-ons"], ["m", "add-ons", "more"]].map (Path.mk .root)
  files := [(⟨.root, ["m", "layers", "top", ".overlays", ".overlays"]⟩, "fix")]

theorem wellFormed_unnamedTree : unnamedTree.WellFormed := ⟨by decide +kernel, by decide +kernel⟩

theorem nameable_unnamedTree : Nameable unnamedTree (.ofText "/m") := by
  have hnames : unnamedTree.childNames (layersAt (.ofText "/m")) = ["top", "base", "extra"] := by
    decide +kernel
  refine ⟨⟨by decide +kernel, by decide +kernel, by decide +kernel, by decide +kernel⟩,
    by decide +kernel, by decide +kernel, by rw [hnames]; decide, ?_⟩
  rw [hnames]
  intro name hname
  simp only [List.mem_cons, List.not_mem_nil, or_false] at hname
  rcases hname with rfl | rfl | rfl
  all_goals exact ⟨by decide, by decide, by decide, by decide⟩

/-- The file is written, and the search path stays what it was. -/
theorem resolveRoot_unnamedTree :
    unnamedTree.WellFormed ∧ Nameable unnamedTree (.ofText "/m") ∧
      Text.Sorts ["extra", "top"]
        ((unnamedTree.childNames (layersAt (.ofText "/m"))).filter (· != baseLayer)) ∧
      (resolveRoot .default (.ofText "/m")).outcome
          (withNames unnamedTree (.ofText "/m") ["extra", "top"]).fileSystem =
        .ok (["/m", "/m/layers/extra", "/m/layers/top/.overlays/fix", "/m/layers/top",
          "/m/layers/base", "/m/add-ons/more"].map .ofText) := by
  have hwf := wellFormed_unnamedTree
  have hothers : Text.Sorts ["extra", "top"]
      ((unnamedTree.childNames (layersAt (.ofText "/m"))).filter (· != baseLayer)) := by
    rw [Text.sorts_iff]
    decide +kernel
  have hsame := resolveRoot_named hwf nameable_unnamedTree hothers
  rw [hsame]
  exact ⟨hwf, nameable_unnamedTree, hothers, by decide +kernel⟩

end ModulePath.Layers
