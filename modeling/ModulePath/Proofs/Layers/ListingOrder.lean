import ModulePath.Proofs.FileSystem.Listing
import ModulePath.Proofs.Layers.Confinement
import ModulePath.Proofs.Layers.SearchPath

/-!
# Search paths and the order of listings

File systems give the names in a directory in any order. What a search ends in, with a search path
or with an error, is the same for all of them (`outcome_resolve_of_agreeOn`): names are put into
code point order before anything depends on them. So the order in which the directories of a tree
were registered does not show (`resolve_rearranged`).
-/

set_option autoImplicit false

namespace ModulePath.Layers

variable {fs fs' : FileSystem} {t t' : Tree}

/-! ## File systems that differ in the order of names -/

theorem closed_all : Closed (fun _ => True) fun _ => True :=
  ⟨fun _ _ _ _ => trivial, fun _ _ => trivial⟩

theorem places_all (layout : Layout) : Places (fun _ => True) layout :=
  ⟨trivial, trivial, trivial, trivial, fun _ _ => trivial⟩

theorem lists_all (fs : FileSystem) : fs.Lists (fun _ => True) fun _ => True := by
  intro q p _ _
  cases q with
  | listing dir => exact fun names _ name _ => trivial
  | presence _ | kind _ | access _ | content _ | home _ | openLog _ _ => trivial

/-- File systems that answer all questions alike, but for the order of names, give the same search
path or the same error. -/
theorem outcome_resolve_of_agreeOn (h : FileSystem.AgreeOn (fun _ => True) fs fs')
    (layout : Layout) (roots : List Path) :
    (resolve layout roots).outcome fs = (resolve layout roots).outcome fs' := by
  have hroots : AllIn (fun _ => True) roots := fun _ _ => trivial
  have hconfined := resolve_confined closed_all (places_all layout) hroots
  exact hconfined.outcome_eq (lists_all fs) h

/-- File systems that answer alike have the same search paths. -/
theorem outcome_resolveRoot_of_agreeOn (h : FileSystem.AgreeOn (fun _ => True) fs fs')
    (layout : Layout) (root : Path) :
    (resolveRoot layout root).outcome fs = (resolveRoot layout root).outcome fs' := by
  have hconfined : Program.Confined (fun _ => True) (fun _ => True) (AllIn fun _ => True)
      (resolveRoot layout root) :=
    .within (searchRoot_confined closed_all (places_all layout) trivial)
  exact hconfined.outcome_eq (lists_all fs) h

/-! ## Trees that were built in another order -/

/-- What is found in one tree for a root is a block of the root in the other tree too. -/
theorem RootPath.block_of_rearranged {layout : Layout} {root : Path} {paths : List Path}
    (h : Tree.Rearranged t t') (hpath : RootPath t.fileSystem layout root paths) :
    Block t' layout root paths := by
  have hok := outcome_resolveRoot_eq_ok.2 hpath
  rw [outcome_resolveRoot_of_agreeOn (h.agreeOn _)] at hok
  exact (outcome_resolveRoot_eq_ok.1 hok).block

/-- Two trees that hold the same give the same search path or the same error, in whatever order
their directories were registered. A search path consists of the blocks of the roots in either
tree, in which discovered layers and add-ons come in code point order, the base layer last among
layers. -/
theorem resolve_rearranged (h : Tree.Rearranged t t') (layout : Layout) (roots : List Path) :
    (resolve layout roots).outcome t.fileSystem = (resolve layout roots).outcome t'.fileSystem ∧
      ∀ paths, (resolve layout roots).outcome t.fileSystem = .ok paths →
        ∃ blocks, List.Forall₂ (fun root block => Block t layout root block ∧
          Block t' layout root block) roots blocks ∧ paths = blocks.flatten := by
  refine ⟨outcome_resolve_of_agreeOn (h.agreeOn _) layout roots, fun paths hok => ?_⟩
  have hfound : Blocks (RootPath t.fileSystem layout) roots paths := outcome_resolve_eq_ok.1 hok
  exact hfound.imp fun _ _ hroot => ⟨hroot.block, hroot.block_of_rearranged h⟩

/-- Layers and add-ons registered in the order of their names. -/
def ascendingTree : Tree :=
  (["/m/add-ons/x", "/m/add-ons/y", "/m/layers/a", "/m/layers/base", "/m/layers/c"].map
    Path.ofText).foldl Tree.makeDirectory {}

/-- The same registered the other way round. -/
def descendingTree : Tree :=
  (["/m/layers/c", "/m/layers/base", "/m/layers/a", "/m/add-ons/y", "/m/add-ons/x"].map
    Path.ofText).foldl Tree.makeDirectory {}

/-- Where the layers and add-ons of one tree are listed in reverse, they come in the same order. -/
theorem resolve_descendingTree :
    ascendingTree.childNames (.ofText "/m/layers") = ["a", "base", "c"] ∧
      descendingTree.childNames (.ofText "/m/layers") = ["c", "base", "a"] ∧
      Tree.Rearranged ascendingTree descendingTree ∧
      (resolve .default [.ofText "/m"]).outcome descendingTree.fileSystem =
        .ok (["/m", "/m/layers/a", "/m/layers/c", "/m/layers/base", "/m/add-ons/x",
          "/m/add-ons/y"].map .ofText) := by
  have hfiles : ascendingTree.files = descendingTree.files := by decide +kernel
  have hdenied : ascendingTree.denied = descendingTree.denied := by decide +kernel
  have hfailing : ascendingTree.failing = descendingTree.failing := by decide +kernel
  have hrearranged : Tree.Rearranged ascendingTree descendingTree := by
    refine ⟨by decide +kernel, fun p => ?_, fun p => ?_, fun p => ?_⟩
    · rw [Tree.file?, Tree.file?, hfiles]
    · rw [hdenied]
    · rw [hfailing]
  obtain ⟨hsame, -⟩ := resolve_rearranged hrearranged .default [.ofText "/m"]
  refine ⟨by decide +kernel, by decide +kernel, hrearranged, ?_⟩
  rw [← hsame]
  decide +kernel

end ModulePath.Layers
