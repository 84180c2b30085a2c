import ModulePath.Filter.Resource
import ModulePath.Proofs.Filter.Equality
import ModulePath.Proofs.Filter.FirstRule

/-!
# Classes and the paths of their resources

A dotted name becomes a path when its dots are replaced by separators (`dottedPath`). On names
without separators this loses nothing: it keeps and reflects the beginnings of names
(`dots_prefix_iff`). So the classes whose resources lie below the directory of a package are those
whose names go on after the package, and no two classes have the same resource. A class filter
answers as the path filter does that it is made from, also where it does not keep that filter
(`classes_follow_resources`).
-/

set_option autoImplicit false

namespace ModulePath

/-! ## Dotted names -/

/-- A dot becomes a separator. -/
def separatorOf (c : Char) : Char := if c = '.' then '/' else c

/-- A dotted name as a path. -/
def dottedPath (name : String) : String := String.ofList (name.toList.map separatorOf)

variable {name name' : String} {cs ds suffix : List Char}

/-- The resource of a class has the path of its name, with a suffix. -/
theorem classPath_eq (className : String) :
    classPath className = dottedPath className ++ ".class" := rfl

@[simp] theorem toList_dottedPath (name : String) :
    (dottedPath name).toList = name.toList.map separatorOf := String.toList_ofList

/-- Dots and separators aside, no two characters become the same. -/
theorem separatorOf_inj {c d : Char} (hc : c ≠ '/') (hd : d ≠ '/') :
    separatorOf c = separatorOf d ↔ c = d := by
  unfold separatorOf
  by_cases hcdot : c = '.'
  · by_cases hddot : d = '.'
    · simp [hcdot, hddot]
    · simp [hcdot, hddot, Ne.symm hd, Ne.symm hddot]
  · by_cases hddot : d = '.'
    · simp [hcdot, hddot, hc]
    · simp [hcdot, hddot]

/-- Names without separators begin alike as paths exactly if they do as names. -/
theorem dots_prefix_iff (hcs : '/' ∉ cs) (hds : '/' ∉ ds) :
    cs.map separatorOf <+: ds.map separatorOf ↔ cs <+: ds := by
  induction cs generalizing ds with
  | nil => simp
  | cons c cs ih =>
    obtain ⟨hc, hcs⟩ := not_or.1 (mt List.mem_cons.2 hcs)
    cases ds with
    | nil => simp
    | cons d ds =>
      obtain ⟨hd, hds⟩ := not_or.1 (mt List.mem_cons.2 hds)
      rw [List.map_cons, List.map_cons, List.cons_prefix_cons, List.cons_prefix_cons,
        separatorOf_inj (Ne.symm hc) (Ne.symm hd), ih hcs hds]

/-- Texts without separators are told apart after their dots are replaced. -/
theorem dots_injective (hcs : '/' ∉ cs) (hds : '/' ∉ ds)
    (h : cs.map separatorOf = ds.map separatorOf) : cs = ds := by
  have hlength : cs.length = ds.length := by simpa using congrArg List.length h
  have hbegins : cs.map separatorOf <+: ds.map separatorOf := h ▸ List.prefix_refl _
  exact ((dots_prefix_iff hcs hds).1 hbegins).eq_of_length hlength

/-- A beginning that ends in a separator ends before a suffix that has none. -/
theorem prefix_append_suffix_iff {sep : Char} (hsuffix : sep ∉ suffix) :
    cs ++ [sep] <+: ds ++ suffix ↔ cs ++ [sep] <+: ds := by
  refine ⟨fun h => ?_, fun h => h.trans (List.prefix_append ds suffix)⟩
  obtain ⟨rest, hrest⟩ := h
  rcases List.append_eq_append_iff.1 hrest with ⟨between, hds, -⟩ | ⟨between, hcs, hbetween⟩
  · exact ⟨between, hds.symm⟩
  · -- what goes on after the names is a beginning of the suffix, so it cannot end in the separator
    rcases List.eq_nil_or_concat' between with rfl | ⟨others, last, rfl⟩
    · rw [hcs, List.append_nil]
    · rw [← List.append_assoc] at hcs
      obtain rfl : sep = last := by simpa using (List.append_inj' hcs rfl).2
      exact absurd (by simp [hbetween]) hsuffix

/-! ## Classes of a package -/

/-- The directory of a package whose name does not end in a dot has no separator at its end. -/
theorem getLast?_dottedPath (hseparator : '/' ∉ name.toList)
    (hdot : name.toList.getLast? ≠ some '.') : (dottedPath name).toList.getLast? ≠ some '/' := by
  rw [toList_dottedPath, List.getLast?_map]
  intro h
  obtain ⟨c, hc, hsep⟩ := Option.map_eq_some_iff.1 h
  have hmem : c ∈ name.toList := List.mem_of_getLast? hc
  unfold separatorOf at hsep
  split at hsep
  case isTrue hcdot => exact hdot (hcdot ▸ hc)
  case isFalse => exact hseparator (hsep ▸ hmem)

/-- The resource of a class is below the directory of a package exactly if the name of the class
goes on after that of the package. -/
theorem below_dottedPath_iff {package : String} (hpackage : '/' ∉ package.toList)
    (hname : '/' ∉ name.toList) :
    Below (dottedPath package) (classPath name) ↔ (package ++ ".").toList <+: name.toList := by
  have hstart : (dottedPath package ++ "/").toList = package.toList.map separatorOf ++ ['/'] := by
    simp
  have hpath : (classPath name).toList = name.toList.map separatorOf ++ ".class".toList := by
    simp [classPath_eq]
  have hdotted : package.toList.map separatorOf ++ ['/'] =
      (package ++ ".").toList.map separatorOf := by
    simp [separatorOf]
  have hwhole : '/' ∉ (package ++ ".").toList := by simp [hpackage]
  have hbegins : (dottedPath package ++ "/").toList <+: (classPath name).toList ↔
      (package ++ ".").toList <+: name.toList := by
    rw [hstart, hpath, prefix_append_suffix_iff (by decide), hdotted, dots_prefix_iff hwhole hname]
  unfold Below GoesOnAfter
  rw [hbegins, and_iff_left_iff_imp]
  intro h
  -- the suffix makes the path longer than what it begins with
  have hle : package.toList.length + 1 ≤ name.toList.length := by simpa using h.length_le
  rw [← String.length_toList, ← String.length_toList, hstart, hpath]
  simp only [List.length_append, List.length_map, List.length_singleton]
  have hsuffix : 0 < ".class".toList.length := by decide
  omega

/-- Classes whose names have no separators are told apart by their resources. -/
theorem classPath_inj (hname : '/' ∉ name.toList) (hname' : '/' ∉ name'.toList)
    (h : classPath name = classPath name') : name = name' := by
  have hpaths : name.toList.map separatorOf ++ ".class".toList =
      name'.toList.map separatorOf ++ ".class".toList := by
    simpa [classPath_eq] using congrArg String.toList h
  exact String.toList_inj.1 (dots_injective hname hname' (List.append_cancel_right hpaths))

/-! ## Class filters -/

namespace ClassFilter

/-- Where a constant takes the place of a path filter, it answers as the filter does. -/
theorem accepts_ofFilter (f : Filter) (className : String) :
    (ofFilter f).accepts className = f.accepts (classPath className) := by
  unfold ofFilter
  by_cases h : f.same Filter.acceptAll = true
  · rw [if_pos h, Filter.accepts_eq_of_same h]
    rfl
  · rw [if_neg h]
    rfl

/-- A class filter answers as its path filter does about the resource of a class. For the strict
descendants of the directory of a package these are the classes whose names go on after the package
and a dot, and classes with different names have different resources. -/
theorem classes_follow_resources :
    (∀ package className : String, '/' ∉ package.toList → package.toList.getLast? ≠ some '.' →
      '/' ∉ className.toList →
        ((ofFilter (Filter.childOf (dottedPath package))).accepts className = true ↔
          (package ++ ".").toList <+: className.toList)) ∧
      (∀ (f : Filter) (className : String),
        (ofFilter f).accepts className = f.accepts (classPath className)) ∧
      ∀ className className' : String, '/' ∉ className.toList → '/' ∉ className'.toList →
        classPath className = classPath className' → className = className' := by
  refine ⟨fun package className hpackage hdot hclass => ?_, accepts_ofFilter,
    fun _ _ hclass hclass' heq => classPath_inj hclass hclass' heq⟩
  rw [accepts_ofFilter, Filter.accepts_childOf (getLast?_dottedPath hpackage hdot),
    below_dottedPath_iff hpackage hclass]

/-- A class of a package, and one of another package whose name only begins like it. -/
theorem classes_of_samplePackage :
    ('/' ∉ "com.acme".toList ∧ "com.acme".toList.getLast? ≠ some '.') ∧
      (ofFilter (Filter.childOf (dottedPath "com.acme"))).accepts "com.acme.api.Main" = true ∧
      (ofFilter (Filter.childOf (dottedPath "com.acme"))).accepts "com.acmeapi.Main" = false ∧
      classPath "com.acme" ≠ classPath "com.acme." := by
  obtain ⟨hbelow, -, hinj⟩ := classes_follow_resources
  have hpackage : '/' ∉ "com.acme".toList := by decide
  have hdot : "com.acme".toList.getLast? ≠ some '.' := by decide
  refine ⟨⟨hpackage, hdot⟩, ?_, ?_, fun heq => ?_⟩
  · exact (hbelow "com.acme" "com.acme.api.Main" hpackage hdot (by decide)).2 (by decide)
  · rw [Bool.eq_false_iff]
    exact mt (hbelow "com.acme" "com.acmeapi.Main" hpackage hdot (by decide)).1 (by decide)
  · exact absurd (hinj "com.acme" "com.acme." hpackage (by decide) heq) (by decide)

end ClassFilter

end ModulePath
