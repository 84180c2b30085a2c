import ModulePath.Edge.Resolve
import ModulePath.Filter.Resource
import ModulePath.Proofs.Report.Layout
import ModulePath.Proofs.Text.Lines

/-!
# What the report of a check says

The report of which paths cross which edges of a module falls into its lines again if no name and no
path has a line break (`splitLines_moduleLines`): one for the module, and for every edge one for
itself and one for each path. The line of a path says whether it is seen through the edge
(`Edge.Sees`) and whether it is passed on, which only paths are that are seen (`check_shows`).
-/

set_option autoImplicit false

namespace ModulePath

open Text (IsLine isLine_append)

/-! ## Lists of blocks -/

section Blocks

variable {α β : Type} {xs : List α} {f : α → List β} {size : Nat}

theorem length_flatMap_of_const (h : ∀ x ∈ xs, (f x).length = size) :
    (xs.flatMap f).length = xs.length * size := by
  induction xs with
  | nil => simp
  | cons x xs ih =>
    obtain ⟨hx, hxs⟩ := List.forall_mem_cons.1 h
    rw [List.flatMap_cons, List.length_append, hx, ih hxs, List.length_cons, Nat.succ_mul,
      Nat.add_comm]

/-- The members of a list of blocks that all have one size. -/
theorem getElem?_flatMap_of_const (h : ∀ x ∈ xs, (f x).length = size) (i : Nat) {r : Nat}
    (hr : r < size) : (xs.flatMap f)[i * size + r]? = xs[i]?.bind fun x => (f x)[r]? := by
  induction xs generalizing i with
  | nil => simp
  | cons x xs ih =>
    obtain ⟨hx, hxs⟩ := List.forall_mem_cons.1 h
    rw [List.flatMap_cons]
    cases i with
    | zero =>
      rw [Nat.zero_mul, Nat.zero_add, List.getElem?_append_left (hx ▸ hr)]
      rfl
    | succ i =>
      -- the place is beyond the first block
      have hplace : (i + 1) * size + r = (f x).length + (i * size + r) := by
        rw [hx, Nat.succ_mul]
        omega
      rw [hplace, List.getElem?_append_right (Nat.le_add_right _ _), Nat.add_sub_cancel_left,
        ih hxs, List.getElem?_cons_succ]

end Blocks

/-! ## Edges -/

namespace Edge

/-- What is seen through an edge: by a module everything of its own, of another module what the
filter on the way in accepts, and of the platform the paths that are listed. -/
def Sees (e : Edge) (path : String) : Prop :=
  match e.origin with
  | .own _ => True
  | .onModule .. => e.importFilter.accepts path = true
  | .onPlatform paths => path ∈ paths

/-- The edges of a module have a filter of their own on the way in only if they lead to another
module. -/
theorem imports_iff {d : Descriptor} {e : Edge} (he : e ∈ d.edges) (path : String) :
    e.imports path = true ↔ e.Sees path := by
  have hall : Filter.acceptAll.accepts path = true := by simp [Filter.acceptAll, Filter.accepts]
  rcases List.mem_cons.1 he with rfl | he
  · exact iff_of_true hall trivial
  · obtain ⟨dep, -, rfl⟩ := List.mem_map.1 he
    cases dep with
    | onModule m => exact Iff.rfl
    | onPlatform p =>
      unfold imports Sees Dependency.resolve
      simp only [hall, Bool.and_true, TextSet.contains_iff]

/-- What an edge exports it imports as well. -/
theorem exports_iff {e : Edge} {path : String} :
    e.exports path = true ↔ e.imports path = true ∧ e.exportFilter.accepts path = true :=
  Bool.and_eq_true _ _ ▸ Iff.rfl

end Edge

/-- No name in a descriptor has a line break. -/
structure Descriptor.NamesAreLines (d : Descriptor) : Prop where
  own : IsLine d.name.toList
  targets : ∀ m, .onModule m ∈ d.dependencies → IsLine m.target.toList

theorem Descriptor.NamesAreLines.targetText {d : Descriptor} (h : d.NamesAreLines) {e : Edge}
    (he : e ∈ d.edges) : IsLine e.targetText.toList := by
  rcases List.mem_cons.1 he with rfl | he
  · exact h.own
  · obtain ⟨dep, hdep, rfl⟩ := List.mem_map.1 he
    cases dep with
    | onModule m => exact h.targets m hdep
    | onPlatform p =>
      unfold Edge.targetText Dependency.resolve
      simp only [String.toList_append]
      exact isLine_append.2
        ⟨isLine_append.2 ⟨by decide, Text.isLine_toString _⟩, by decide⟩

namespace Report

variable {d : Descriptor} {e : Edge} {name path : String} {paths : List String} {n : Nat}

/-! ## Lines -/

/-- A report splits into its lines again. -/
theorem splitLines_ofLines {lines : List String} (h : ∀ line ∈ lines, IsLine line.toList) :
    Text.splitLines (ofLines lines).toList = lines.map String.toList := by
  have hchars : (ofLines lines).toList = (lines.map String.toList).flatMap (· ++ ['\n']) := by
    rw [ofLines, String.toList_join, List.flatMap_map, List.flatMap_map]
    simp only [String.toList_append]
    rfl
  rw [hchars, Text.splitLines_joined (List.forall_mem_map.2 h)]

/-- Lines are numbered from one on. -/
theorem getElem?_numbered {α : Type} (xs : List α) (i : Nat) :
    (numbered xs)[i]? = xs[i]?.map (i + 1, ·) := by
  unfold numbered
  rw [List.getElem?_map, List.getElem?_zipIdx, Option.map_map, Nat.zero_add]
  rfl

theorem mem_of_mem_numbered {α : Type} {xs : List α} {x : α} (h : (n, x) ∈ numbered xs) :
    x ∈ xs := by
  obtain ⟨⟨y, i⟩, hy, hx⟩ := List.mem_map.1 h
  obtain ⟨-, rfl⟩ := Prod.mk.inj hx
  exact List.fst_mem_of_mem_zipIdx hy

/-- What is put before and after a name has no line break. -/
theorem isLine_edgeHead (h : IsLine e.targetText.toList) (n : Nat) :
    IsLine (edgeHead n e).toList := by
  have hkind : IsLine e.kindText.toList := by
    unfold Edge.kindText
    split
    all_goals decide
  unfold edgeHead
  simp only [String.toList_append, isLine_append]
  exact ⟨⟨⟨⟨⟨by decide, Text.isLine_toString n⟩, by decide⟩, hkind⟩, by decide⟩, h⟩

/-- The line of a path, when it is said whether it is seen and whether it is passed on. -/
def lineOf (path : String) (imported exported : Bool) : String :=
  "      " ++ path ++ ": " ++ (if imported then "imported" else "hidden") ++ ", " ++
    (if exported then "exported" else "not exported")

/-- A line shows whether its path is imported and whether it is exported. -/
theorem checkLine_eq (e : Edge) (path : String) :
    checkLine e path = lineOf path (e.imports path) (e.exports path) := rfl

theorem isLine_lineOf (h : IsLine path.toList) (imported exported : Bool) :
    IsLine (lineOf path imported exported).toList := by
  unfold lineOf
  simp only [String.toList_append, isLine_append]
  refine ⟨⟨⟨⟨⟨by decide, h⟩, by decide⟩, ?_⟩, by decide⟩, ?_⟩
  · cases imported <;> decide
  · cases exported <;> decide

/-- All edges have equally many lines. -/
theorem length_checkLines (paths : List String) (es : List Edge) :
    ∀ ne ∈ numbered es, (checkLines paths ne.1 ne.2).length = 1 + paths.length := by
  intro ne _
  rw [checkLines, List.length_cons, List.length_map, Nat.add_comm]

/-- Without line breaks in names and paths, each line of an edge is one line. -/
theorem isLine_of_mem_checkLines (htarget : IsLine e.targetText.toList)
    (hpaths : ∀ path ∈ paths, IsLine path.toList) :
    ∀ line ∈ checkLines paths n e, IsLine line.toList := by
  unfold checkLines
  rw [List.forall_mem_cons, List.forall_mem_map]
  refine ⟨isLine_edgeHead htarget n, fun path hpath => ?_⟩
  rw [checkLine_eq]
  exact isLine_lineOf (hpaths path hpath) _ _

/-! ## The report -/

/-- The lines of the module and of the blocks of its edges are found again in their text. -/
theorem splitLines_moduleLines (hname : IsLine name.toList) (hd : d.NamesAreLines)
    (hpaths : ∀ path ∈ paths, IsLine path.toList) :
    Text.splitLines (ofLines (moduleLines name d.edges paths)).toList =
      (moduleLines name d.edges paths).map String.toList := by
  apply splitLines_ofLines
  rw [moduleLines, List.forall_mem_cons]
  constructor
  · rw [String.toList_append, isLine_append]
    exact ⟨by decide, hname⟩
  · intro line hline
    obtain ⟨⟨n, e⟩, he, hline⟩ := List.mem_flatMap.1 hline
    exact isLine_of_mem_checkLines (hd.targetText (mem_of_mem_numbered he)) hpaths line hline

/-- The lines of an edge are at the places after those of the edges before it. -/
theorem getElem?_moduleLines {i r : Nat} (hr : r < 1 + paths.length) :
    (moduleLines name d.edges paths)[1 + i * (1 + paths.length) + r]? =
      d.edges[i]?.bind fun e => (checkLines paths (i + 1) e)[r]? := by
  rw [moduleLines, Nat.add_assoc, Nat.add_comm 1 (_ + r), List.getElem?_cons_succ,
    getElem?_flatMap_of_const (length_checkLines paths d.edges) i hr, getElem?_numbered,
    Option.bind_map]
  rfl

/-- The report of a module has one line for the module, and for each edge one for itself and one
for each path, whichever renderer makes it. The line of a path stands at the place of the path after
that of the edge; it names the path, and says that it is seen if and only if it is, and that it is
passed on if and only if it is seen and the filter on the way out accepts it. -/
theorem check_shows (renderer : Template.Renderer) (hname : IsLine name.toList)
    (hd : d.NamesAreLines) (hpaths : ∀ path ∈ paths, IsLine path.toList) :
    ∃ text, check renderer name d.edges paths = .ok text ∧
      (Text.splitLines text.toList).length = 1 + d.edges.length * (1 + paths.length) ∧
      ∀ i j e path, d.edges[i]? = some e → paths[j]? = some path →
        ∃ imported exported : Bool,
          (Text.splitLines text.toList)[1 + i * (1 + paths.length) + 1 + j]? =
            some (lineOf path imported exported).toList ∧
          (imported = true ↔ e.Sees path) ∧
          (exported = true ↔ imported = true ∧ e.exportFilter.accepts path = true) := by
  refine ⟨_, check_eq renderer name d.edges paths, ?_⟩
  rw [splitLines_moduleLines hname hd hpaths]
  constructor
  · have hnumbered : (numbered d.edges).length = d.edges.length := by
      rw [numbered, List.length_map, List.length_zipIdx]
    rw [List.length_map, moduleLines, List.length_cons,
      length_flatMap_of_const (length_checkLines paths d.edges), hnumbered, Nat.add_comm]
  · intro i j e path hi hj
    -- each edge has one line for itself and one for each path
    have hjlt : 1 + j < 1 + paths.length :=
      Nat.add_lt_add_left (List.getElem?_eq_some_iff.1 hj).1 1
    refine ⟨e.imports path, e.exports path, ?_, ?_, Edge.exports_iff⟩
    · rw [List.getElem?_map, Nat.add_assoc, getElem?_moduleLines hjlt, hi, Option.bind_some,
        checkLines, Nat.add_comm 1 j, List.getElem?_cons_succ, List.getElem?_map, hj]
      rfl
    · exact Edge.imports_iff (List.mem_of_getElem? hi) path

/-- A module with a dependency on another module and one on the platform. -/
def sampleDescriptor : Descriptor where
  name := "app"
  dependencies := [.onModule { target := "lib" }, .onPlatform { paths := .ofList ["javax/sql"] }]

/-- The report of that module on two paths has ten lines, and the last one says that the path that
is listed is seen on the platform. -/
theorem check_sampleDescriptor :
    IsLine "app".toList ∧ sampleDescriptor.NamesAreLines ∧
      (∀ path ∈ ["META-INF/x", "javax/sql"], IsLine path.toList) ∧
      ∃ text, check .builtIn "app" sampleDescriptor.edges ["META-INF/x", "javax/sql"] = .ok text ∧
        (Text.splitLines text.toList).length = 10 ∧
        ∃ imported exported : Bool,
          (Text.splitLines text.toList)[9]? =
            some (lineOf "javax/sql" imported exported).toList ∧ imported = true := by
  have hname : IsLine "app".toList := by decide
  have hd : sampleDescriptor.NamesAreLines := by
    refine ⟨hname, fun m hm => ?_⟩
    obtain rfl : m = { target := "lib" } := by simpa [sampleDescriptor] using hm
    decide
  have hpaths : ∀ path ∈ ["META-INF/x", "javax/sql"], IsLine path.toList := by decide
  obtain ⟨text, hcheck, hlength, hlines⟩ := check_shows .builtIn hname hd hpaths
  obtain ⟨imported, exported, hline, hsees, -⟩ := hlines 2 1 _ "javax/sql" rfl rfl
  refine ⟨hname, hd, hpaths, text, hcheck, hlength, imported, exported, hline, hsees.2 ?_⟩
  exact TextSet.mem_ofList.2 (List.mem_singleton_self _)

end Report

end ModulePath
