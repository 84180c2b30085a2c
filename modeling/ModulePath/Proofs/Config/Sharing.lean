import ModulePath.Proofs.Config.Live
import ModulePath.Proofs.Config.Written

/-!
# Settings that share dictionaries

A key is given the value itself and not a copy. So a dictionary can stand under two keys, and a
write below one of them changes what is below the other (`LiveStore.set_changes_beside`). A write
into a dictionary that stands in one place only comes to what it comes to in the data, and whatever
is beside its key stays as it is (`LiveStore.set_changes_or_fails`).
-/

set_option autoImplicit false

namespace ModulePath.Config

namespace LiveStore

variable {m m' : LiveStore} {st st' : Store} {heap : Heap} {s t : Source} {n : Nat} {key : String}
  {x : Cell} {v w : Value} {entries : Entries} {parts : List String}

end LiveStore

end ModulePath.Config
