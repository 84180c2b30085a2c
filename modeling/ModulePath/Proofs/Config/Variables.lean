import ModulePath.Proofs.Config.Reachable
import ModulePath.Proofs.Text.Lines

/-!
# Settings from variables

The name of a variable stands for a setting if what follows its prefix is, in lower case, the
section and the key with an underscore between them (`target?_eq_some_iff`), and the names that
stand for no setting are those that lack one of the three (`target?_eq_none_iff`). The variables are
entered one after the other, so what a setting is in the end is what the last of its variables gives
it (`get?_ofFile_of_variables`). A setting without a variable is left as it is, and so is all else
by a variable without a setting.
-/

set_option autoImplicit false

namespace ModulePath.Config

open Value (field?)

namespace Environment

variable {name s n : String} {cs ds : List Char} {sections : Entries} {vars : Variables}

/-! ## Names -/

/-- The name of a variable stands for the key `n` of the section `s`. -/
def Names (s n name : String) : Prop :=
  ∃ rest, name = namePrefix ++ rest ∧ Text.lowerString rest = s ++ "_" ++ n

/-- The name of a variable stands for no setting. -/
inductive NamesNothing (name : String) : Prop
  | noPrefix (h : ∀ rest, name ≠ namePrefix ++ rest) : NamesNothing name
  /-- There is one part only. -/
  | noParts {rest : String} (hname : name = namePrefix ++ rest)
    (h : '_' ∉ (Text.lowerString rest).toList) : NamesNothing name
  | noSection {rest key : String} (hname : name = namePrefix ++ rest)
    (h : Text.lowerString rest = "_" ++ key) : NamesNothing name
  | noKey {rest sectionName : String} (hname : name = namePrefix ++ rest)
    (hsection : '_' ∉ sectionName.toList) (h : Text.lowerString rest = sectionName ++ "_") :
    NamesNothing name

/-- A name has a suffix if it begins with the prefix. -/
theorem suffix?_eq_some_iff :
    suffix? name = some cs ↔ name = namePrefix ++ String.ofList cs := by
  unfold suffix?
  rw [← String.toList_inj, String.toList_append, String.toList_ofList]
  constructor
  · intro h
    split at h
    case isTrue hprefix =>
      obtain rfl := Option.some.inj h
      exact (List.prefix_iff_eq_append.1 (List.isPrefixOf_iff_prefix.1 hprefix)).symm
    case isFalse => cases h
  · intro h
    have hprefix : namePrefix.toList <+: name.toList := ⟨cs, h.symm⟩
    rw [if_pos (List.isPrefixOf_iff_prefix.2 hprefix), h, List.drop_left]

theorem suffix?_eq_none_iff : suffix? name = none ↔ ∀ rest, name ≠ namePrefix ++ rest := by
  rw [Option.eq_none_iff_forall_ne_some]
  constructor
  · intro h rest hrest
    exact h rest.toList (suffix?_eq_some_iff.2 (by rw [String.ofList_toList, hrest]))
  · intro h cs hcs
    exact h _ (suffix?_eq_some_iff.1 hcs)

/-! ### The two parts -/

theorem takeWhile_section (h : '_' ∉ cs) : (cs ++ '_' :: ds).takeWhile (· != '_') = cs :=
  Text.takeWhile_append (fun c hc => bne_iff_ne.2 (ne_of_mem_of_not_mem hc h)) fun d hd => by
    obtain rfl := Option.some.inj hd
    rfl

theorem dropWhile_section (h : '_' ∉ cs) :
    (cs ++ '_' :: ds).dropWhile (· != '_') = '_' :: ds :=
  Text.dropWhile_append (fun c hc => bne_iff_ne.2 (ne_of_mem_of_not_mem hc h)) fun d hd => by
    obtain rfl := Option.some.inj hd
    rfl

/-- The section and the key in the lower case of what follows the prefix. -/
def cut? (cs : List Char) : Option (String × String) :=
  if (cs.takeWhile (· != '_')).isEmpty || ((cs.dropWhile (· != '_')).drop 1).isEmpty then none
  else
    some (String.ofList (cs.takeWhile (· != '_')),
      String.ofList ((cs.dropWhile (· != '_')).drop 1))

/-- A target is cut out of the small letters of the suffix. -/
theorem target?_eq (name : String) :
    target? name = (suffix? name).bind fun cs =>
      cut? (Text.lowerString (String.ofList cs)).toList := rfl

theorem target?_append (rest : String) :
    target? (namePrefix ++ rest) = cut? (Text.lowerString rest).toList := by
  have hsuffix : suffix? (namePrefix ++ rest) = some rest.toList :=
    suffix?_eq_some_iff.2 (by rw [String.ofList_toList])
  rw [target?_eq, hsuffix, Option.bind_some, String.ofList_toList]

/-- Both parts have to be there. -/
theorem cut?_of_parts (hs : '_' ∉ s.toList) :
    cut? (s ++ "_" ++ n).toList = if s = "" ∨ n = "" then none else some (s, n) := by
  have hchars : (s ++ "_" ++ n).toList = s.toList ++ '_' :: n.toList := by
    rw [String.toList_append, String.toList_append, List.append_assoc]
    rfl
  rw [hchars, cut?, takeWhile_section hs, dropWhile_section hs, List.drop_one, List.tail_cons]
  simp only [List.isEmpty_iff, Bool.or_eq_true, String.toList_eq_nil_iff, String.ofList_toList]

/-- Without an underscore there is no field. -/
theorem cut?_of_not_mem (h : '_' ∉ cs) : cut? cs = none := by
  have hdrop : (cs ++ []).dropWhile (· != '_') = [] :=
    Text.dropWhile_append (fun c hc => bne_iff_ne.2 (ne_of_mem_of_not_mem hc h)) nofun
  rw [List.append_nil] at hdrop
  rw [cut?, hdrop]
  simp

/-- A text has no underscore, or is cut at the first one. -/
theorem parts_cases (lowered : String) :
    '_' ∉ lowered.toList ∨ ∃ s n, '_' ∉ s.toList ∧ lowered = s ++ "_" ++ n := by
  by_cases h : '_' ∈ lowered.toList
  · obtain ⟨before, after, hcs, hbefore⟩ := List.eq_append_cons_of_mem h
    refine .inr ⟨String.ofList before, String.ofList after, ?_, ?_⟩
    · rwa [String.toList_ofList]
    · rw [← String.toList_inj, hcs]
      simp
  · exact .inl h

/-- The names with a target are those of a section and a field. -/
theorem target?_eq_some_iff :
    target? name = some (s, n) ↔ (s ≠ "" ∧ '_' ∉ s.toList ∧ n ≠ "") ∧ Names s n name := by
  constructor
  · intro h
    cases hsuffix : suffix? name with
    | none =>
      rw [target?_eq, hsuffix] at h
      cases h
    | some cs =>
      obtain rfl := suffix?_eq_some_iff.1 hsuffix
      rw [target?_append] at h
      -- the suffix is cut at its first underscore, if it has one
      rcases parts_cases (Text.lowerString (String.ofList cs)) with hnone | ⟨s', n', hs', hlower⟩
      · rw [cut?_of_not_mem hnone] at h
        cases h
      · rw [hlower, cut?_of_parts hs'] at h
        split at h
        case isTrue => cases h
        case isFalse hparts =>
          obtain ⟨rfl, rfl⟩ := Prod.mk.inj (Option.some.inj h)
          rw [not_or] at hparts
          exact ⟨⟨hparts.1, hs', hparts.2⟩, String.ofList cs, rfl, hlower⟩
  · rintro ⟨⟨hs, hsection, hn⟩, rest, rfl, hlower⟩
    rw [target?_append, hlower, cut?_of_parts hsection, if_neg (not_or.2 ⟨hs, hn⟩)]

theorem names_iff (hs : s ≠ "") (hsection : '_' ∉ s.toList) (hn : n ≠ "") :
    Names s n name ↔ target? name = some (s, n) := by
  rw [target?_eq_some_iff, and_iff_right ⟨hs, hsection, hn⟩]

/-- The names without a target are those that lack the prefix, the section or the field. -/
theorem target?_eq_none_iff : target? name = none ↔ NamesNothing name := by
  constructor
  · intro h
    cases hsuffix : suffix? name with
    | none => exact .noPrefix (suffix?_eq_none_iff.1 hsuffix)
    | some cs =>
      have hname := suffix?_eq_some_iff.1 hsuffix
      rcases parts_cases (Text.lowerString (String.ofList cs)) with hnone | ⟨s, n, hs, hlower⟩
      · exact .noParts hname hnone
      · rw [hname, target?_append, hlower, cut?_of_parts hs] at h
        split at h
        case isTrue hparts =>
          rcases hparts with rfl | rfl
          · exact .noSection hname (by rw [hlower, String.empty_append])
          · exact .noKey hname hs (by rw [hlower, String.append_empty])
        case isFalse => cases h
  · intro h
    cases h with
    | noPrefix h => rw [target?_eq, suffix?_eq_none_iff.2 h, Option.bind_none]
    | noParts hname h => rw [hname, target?_append, cut?_of_not_mem h]
    | noSection hname h =>
      rw [hname, target?_append, h, ← String.empty_append (s := "_"),
        cut?_of_parts List.not_mem_nil, if_pos (.inl rfl)]
    | noKey hname hs h =>
      rw [hname, target?_append, h, ← String.append_empty (s := _ ++ "_"), cut?_of_parts hs,
        if_pos (.inr rfl)]

/-! ## Entering variables -/

/-- A variable gives its setting its value and leaves the others. -/
theorem field?_entriesOf_enter (sections : Entries) (binding : String × String) :
    field? n (entriesOf s (enter sections binding)) =
      if target? binding.1 = some (s, n) then some (settingOf binding.2)
      else field? n (entriesOf s sections) := by
  unfold enter
  cases htarget : target? binding.1 with
  | none => rw [if_neg nofun]
  | some target =>
    obtain ⟨s', n'⟩ := target
    dsimp only
    -- a variable for another section or another field leaves this one alone
    by_cases hs : s' = s
    · subst hs
      rw [entriesOf, Value.field?_put_self]
      dsimp only
      by_cases hn : n' = n
      · subst hn
        rw [if_pos rfl, Value.field?_put_self]
      · have hkey : Value.str n' ≠ .str n := fun h => hn (Value.str.inj h)
        rw [if_neg fun h => hn (Prod.mk.inj (Option.some.inj h)).2, Value.field?_put_of_ne hkey]
    · have hkey : Value.str s' ≠ .str s := fun h => hs (Value.str.inj h)
      rw [if_neg fun h => hs (Prod.mk.inj (Option.some.inj h)).1, entriesOf,
        Value.field?_put_of_ne hkey]
      rfl

/-- Variables without the setting leave it as it was. -/
theorem field?_foldl_enter (h : ∀ b ∈ vars, target? b.1 ≠ some (s, n)) (sections : Entries) :
    field? n (entriesOf s (vars.foldl enter sections)) = field? n (entriesOf s sections) := by
  induction vars generalizing sections with
  | nil => rfl
  | cons binding rest ih =>
    obtain ⟨hbinding, hrest⟩ := List.forall_mem_cons.1 h
    rw [List.foldl_cons, ih hrest, field?_entriesOf_enter, if_neg hbinding]

/-- A setting is what the last of its variables gives it. -/
theorem field?_sectionsOf_of_last {before after : Variables} {text : String}
    (hname : target? name = some (s, n)) (h : ∀ b ∈ after, target? b.1 ≠ some (s, n)) :
    field? n (entriesOf s (sectionsOf (before ++ (name, text) :: after))) =
      some (settingOf text) := by
  rw [sectionsOf, List.foldl_append, List.foldl_cons, field?_foldl_enter h,
    field?_entriesOf_enter, if_pos hname]

/-- A variable without a target enters nothing. -/
theorem sectionsOf_of_namesNothing {before after : Variables} {binding : String × String}
    (h : NamesNothing binding.1) :
    sectionsOf (before ++ binding :: after) = sectionsOf (before ++ after) := by
  have henter : ∀ sections, enter sections binding = sections := by
    intro sections
    rw [enter, target?_eq_none_iff.2 h]
  rw [sectionsOf, sectionsOf, List.foldl_append, List.foldl_cons, henter, List.foldl_append]

end Environment

/-! ## Looking a setting up -/

namespace Store

open Environment (Names NamesNothing Variables entriesOf sectionsOf settingOf)

variable {σ : Type} {key s n : String} {vars : Variables}

/-- The dotted key of the key `n` of the section `s`. -/
def keyOf (s n : String) : String := rootKey ++ "." ++ s ++ "." ++ n

/-- The key of a section and a field leads from the root through both. -/
theorem keyParts_keyOf (hs : '.' ∉ s.toList) (hn : '.' ∉ n.toList) :
    keyParts (keyOf s n) = [rootKey, s, n] := by
  have hchars : (keyOf s n).toList = rootKey.toList ++ '.' :: (s.toList ++ '.' :: n.toList) := by
    simp [keyOf]
  have hroot : '.' ∉ rootKey.toList := by decide
  rw [keyParts, hchars, Text.splitAt_append hroot, Text.splitAt_append hs,
    Text.splitAt_of_not_mem hn]
  simp only [List.map_cons, List.map_nil, String.ofList_toList]

theorem settingOf_ne_null (text : String) : settingOf text ≠ .null := by
  intro h
  rcases settingOf_cases text with ⟨b, hv⟩ | ⟨n, -, hv⟩ | ⟨d, hv⟩ | hv
  all_goals
    rw [hv] at h
    cases h

theorem valueAt?_sections (sections : Entries) :
    valueAt? (.dict [(.str rootKey, .dict sections)]) [rootKey, s, n] =
      field? n (entriesOf s sections) := by
  rw [valueAt?_dict_cons, Value.field?_cons_self, Option.bind_some, valueAt?_dict_cons, entriesOf]
  cases field? s sections with
  | none => rfl
  | some v =>
    cases v with
    | dict entries =>
      rw [Option.bind_some, valueAt?_dict_cons]
      cases field? n entries <;> rfl
    | null | bool _ | int _ | real _ | str _ | list _ | tuple _ | set _ => rfl

/-- The environment has what its variables enter. -/
theorem settingIn?_environment (vars : Variables) :
    (initial.loadEnvironment vars).settingIn? [rootKey, s, n] .environment =
      field? n (entriesOf s (sectionsOf vars)) := by
  unfold loadEnvironment
  split
  case h_1 hnone =>
    rw [hnone]
    rfl
  case h_2 => exact valueAt?_sections _

/-- What variables enter comes before the defaults. -/
theorem get?_of_environment {v : Value} (hkey : keyParts key = [rootKey, s, n])
    (h : field? n (entriesOf s (sectionsOf vars)) = some v) (hv : v ≠ .null) :
    (initial.loadEnvironment vars).get? key = some v := by
  have hsplit : Source.ascending =
      [.defaults, .system, .user] ++ .environment :: [.arguments, .runtime] := rfl
  have hvalue : (initial.loadEnvironment vars).valueIn? (keyParts key) .environment = some v := by
    rw [hkey]
    exact valueIn?_eq_some ((settingIn?_environment vars).trans h) hv
  rw [get?, getWithSource?_of_split hsplit hvalue fun t ht => ?_, Option.map_some]
  have hne : t ≠ .environment := by
    rintro rfl
    simp at ht
  have htree : initial.tree t = none := if_neg fun hdefaults => by simp [hdefaults] at ht
  refine valueIn?_eq_none ?_
  rw [settingIn?, tree_loadEnvironment_of_ne hne, htree, Option.bind_none]

/-- Where no variable enters anything, the defaults stand. -/
theorem get?_of_no_variable (hkey : keyParts key = [rootKey, s, n])
    (h : field? n (entriesOf s (sectionsOf vars)) = none) :
    (initial.loadEnvironment vars).get? key = initial.get? key := by
  have hvalues : (initial.loadEnvironment vars).valueIn? (keyParts key) =
      initial.valueIn? (keyParts key) := by
    funext t
    refine valueIn?_congr ?_
    by_cases ht : t = .environment
    · subst ht
      rw [hkey, settingIn?_environment, h]
      rfl
    · rw [settingIn?, settingIn?, tree_loadEnvironment_of_ne ht]
  rw [get?, get?, getWithSource?, getWithSource?, hvalues]

/-- A setting is what the last of its variables gives it, and without one what the defaults say. A
variable that names no setting could as well not be there. -/
theorem get?_ofFile_of_variables (vars : Variables) (s n : String) (hs : s ≠ "")
    (hsection : '_' ∉ s.toList ∧ '.' ∉ s.toList) (hn : n ≠ "") (hkey : '.' ∉ n.toList)
    (yaml : Yaml.Reader) (w : World σ) (x : σ) :
    ∃ st, (ofFile yaml none vars).run w x = (.ok st, x) ∧
      (∀ before name text after, vars = before ++ (name, text) :: after → Names s n name →
        (∀ b ∈ after, ¬ Names s n b.1) → st.get? (keyOf s n) = some (settingOf text)) ∧
      ((∀ b ∈ vars, ¬ Names s n b.1) → st.get? (keyOf s n) = initial.get? (keyOf s n)) ∧
      ∀ before b after, vars = before ++ b :: after → NamesNothing b.1 →
        (ofFile yaml none (before ++ after)).run w x = (.ok st, x) := by
  have hparts : keyParts (keyOf s n) = [rootKey, s, n] := keyParts_keyOf hsection.2 hkey
  have htarget {name : String} : Names s n name ↔ Environment.target? name = some (s, n) :=
    Environment.names_iff hs hsection.1 hn
  have hrun (vars : Variables) :
      (ofFile yaml none vars).run w x = (.ok (initial.loadEnvironment vars), x) := rfl
  -- without a file nothing is asked of the reader or of the world
  refine ⟨initial.loadEnvironment vars, hrun vars, ?_, ?_, ?_⟩
  · rintro before name text after rfl hname hafter
    refine get?_of_environment hparts ?_ (settingOf_ne_null text)
    exact Environment.field?_sectionsOf_of_last (htarget.1 hname) fun b hb =>
      htarget.not.1 (hafter b hb)
  · intro hnone
    refine get?_of_no_variable hparts ?_
    rw [sectionsOf, Environment.field?_foldl_enter fun b hb => htarget.not.1 (hnone b hb)]
    rfl
  · rintro before b after rfl hb
    rw [hrun, loadEnvironment, loadEnvironment, Environment.sectionsOf_of_namesNothing hb]

/-- An environment with two variables for one setting and one without a key. -/
def sampleVariables : Variables :=
  [("MODFILTER_CACHE_MAX_PATTERNS", "7"), ("MODFILTER_Cache_Max_Patterns", "64"),
    ("MODFILTER_CACHE", "1")]

/-- The second of the two counts, and the third could as well not be there. -/
theorem get?_sampleVariables :
    ("cache" ≠ "" ∧ ('_' ∉ "cache".toList ∧ '.' ∉ "cache".toList) ∧ "max_patterns" ≠ "" ∧
      '.' ∉ "max_patterns".toList) ∧
    Names "cache" "max_patterns" "MODFILTER_Cache_Max_Patterns" ∧
    (∀ b ∈ [("MODFILTER_CACHE", "1")], ¬ Names "cache" "max_patterns" b.1) ∧
    NamesNothing "MODFILTER_CACHE" ∧
    ∃ st,
      (ofFile .builtIn none sampleVariables).run ({} : Tree).fileSystem.world () = (.ok st, ()) ∧
      st.get? (keyOf "cache" "max_patterns") = some (settingOf "64") ∧
      (ofFile .builtIn none (sampleVariables.take 2)).run ({} : Tree).fileSystem.world () =
        (.ok st, ()) := by
  have hparts : "cache" ≠ "" ∧ ('_' ∉ "cache".toList ∧ '.' ∉ "cache".toList) ∧
      "max_patterns" ≠ "" ∧ '.' ∉ "max_patterns".toList := by decide
  obtain ⟨hs, hsection, hn, hkey⟩ := hparts
  have hname : Names "cache" "max_patterns" "MODFILTER_Cache_Max_Patterns" :=
    ⟨"Cache_Max_Patterns", by decide, by decide +kernel⟩
  have hnothing : NamesNothing "MODFILTER_CACHE" :=
    Environment.target?_eq_none_iff.1 (by decide +kernel)
  have hafter : ∀ b ∈ [("MODFILTER_CACHE", "1")], ¬ Names "cache" "max_patterns" b.1 := by
    refine List.forall_mem_singleton.2 fun h => ?_
    rw [Environment.names_iff hs hsection.1 hn, Environment.target?_eq_none_iff.2 hnothing] at h
    cases h
  obtain ⟨st, hrun, hlast, -, hdrop⟩ := get?_ofFile_of_variables sampleVariables "cache"
    "max_patterns" hs hsection hn hkey .builtIn ({} : Tree).fileSystem.world ()
  exact ⟨⟨hs, hsection, hn, hkey⟩, hname, hafter, hnothing, st, hrun,
    hlast (sampleVariables.take 1) _ _ _ rfl hname hafter,
    hdrop (sampleVariables.take 2) _ _ rfl hnothing⟩

end Store

end ModulePath.Config
