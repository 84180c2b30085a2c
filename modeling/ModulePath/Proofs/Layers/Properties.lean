import Mathlib.Data.List.Nodup
import ModulePath.Proofs.Layers.LinePattern
import ModulePath.Proofs.Text.Written

/-!
# Properties that are written and read back

A text of properties is written line by line (`Writes`): an entry is a key, a separator and a value
with blanks around it, other lines are blank or comments, and each line but the last has some line
terminator after it. How an entry is laid out in its line does not matter
(`readLine_of_writesEntry`), and neither do the other lines or which terminators there are. So what
is read from the text are the entries, each key with its last value (`ofText_of_writes`).
-/

set_option autoImplicit false

namespace ModulePath.Layers.Properties

open Text (isBlank isLineBreak IsLine IsTerminator splitLines trim dropEndWhile)

variable {key value : String} {cs ds line : List Char} {entries : List (String × String)}
  {ps : Properties}

/-! ## Writing -/

/-- Blanks within a line. -/
def IsSpace (cs : List Char) : Prop := ∀ c ∈ cs, isBlank c = true ∧ isLineBreak c = false

/-- A key that can stand in a line. -/
@[mk_iff isKey_iff]
structure IsKey (key : String) : Prop where
  ne_empty : key ≠ ""
  plain : ∀ c ∈ key.toList, c ≠ '=' ∧ c ≠ ':' ∧ isBlank c = false
  noComment : ∀ c ∈ key.toList.head?, c ≠ '#' ∧ c ≠ '!'

/-- A value that can stand in a line. -/
@[mk_iff isValue_iff]
structure IsValue (value : String) : Prop where
  isLine : IsLine value.toList
  head : ∀ c ∈ value.toList.head?, isBlank c = false
  last : ∀ c ∈ value.toList.getLast?, isBlank c = false

/-- What can stand in a line is decided by its characters. -/
instance (cs : List Char) : Decidable (IsSpace cs) :=
  decidable_of_iff (cs.all fun c => isBlank c && !isLineBreak c) <| by simp [IsSpace]

instance (key : String) : Decidable (IsKey key) :=
  decidable_of_iff (key ≠ "" ∧ (key.toList.all fun c => c != '=' && c != ':' && !isBlank c) ∧
      key.toList.head?.all fun c => c != '#' && c != '!') <| by
    simp only [isKey_iff, List.all_eq_true, Option.all_eq_true, Bool.and_eq_true, bne_iff_ne,
      Bool.not_eq_true', and_assoc, Option.mem_def]

instance (value : String) : Decidable (IsValue value) :=
  decidable_of_iff (IsLine value.toList ∧ (value.toList.head?.all fun c => !isBlank c) ∧
      value.toList.getLast?.all fun c => !isBlank c) <| by
    simp only [isValue_iff, Option.all_eq_true, Bool.not_eq_true', Option.mem_def]

/-- What stands between a key and its value. -/
inductive IsSeparator (value : String) : List Char → Prop
  | mark {before after : List Char} {c : Char} (hbefore : IsSpace before) (hc : c = '=' ∨ c = ':')
    (hafter : IsSpace after) : IsSeparator value (before ++ c :: after)
  | blank {cs : List Char} (hcs : IsSpace cs) (hne : cs ≠ [])
    (hvalue : ∀ c ∈ value.toList.head?, c ≠ '=' ∧ c ≠ ':') : IsSeparator value cs

/-- A line with an entry. -/
inductive WritesEntry (key value : String) : List Char → Prop
  | mk {before separator after : List Char} (hkey : IsKey key) (hvalue : IsValue value)
    (hbefore : IsSpace before) (hseparator : IsSeparator value separator) (hafter : IsSpace after) :
    WritesEntry key value (before ++ (key.toList ++ (separator ++ (value.toList ++ after))))

/-- A line that holds at most one entry. -/
inductive WritesLine : List (String × String) → List Char → Prop
  | entry {key value : String} {line : List Char} (h : WritesEntry key value line) :
    WritesLine [(key, value)] line
  | blank {line : List Char} (h : IsSpace line) : WritesLine [] line
  | comment {before rest : List Char} {c : Char} (hbefore : IsSpace before)
    (hc : c = '#' ∨ c = '!') (hrest : IsLine rest) : WritesLine [] (before ++ c :: rest)

/-- A text with entries, line by line. The last line may end with the text. -/
inductive Writes : List (String × String) → List Char → Prop
  | nil : Writes [] []
  | last {es : List (String × String)} {line : List Char} (hline : WritesLine es line) :
    Writes es line
  | line {es rest : List (String × String)} {line terminator text : List Char}
    (hline : WritesLine es line) (hterminator : IsTerminator terminator)
    (hrest : Writes rest text) : Writes (es ++ rest) (line ++ (terminator ++ text))

/-! ## Characters -/

theorem isBlank_of_isLineBreak {c : Char} (h : isLineBreak c = true) : isBlank c = true := by
  unfold isLineBreak at h
  unfold isBlank
  simp only [Bool.or_eq_true, Bool.and_eq_true, decide_eq_true_eq, beq_iff_eq] at h ⊢
  omega

theorem isLineBreak_of_not_isBlank {c : Char} (h : isBlank c = false) : isLineBreak c = false := by
  cases hbreak : isLineBreak c with
  | false => rfl
  | true =>
    rw [isBlank_of_isLineBreak hbreak] at h
    cases h

theorem isBlank_mark {c : Char} (hc : c = '=' ∨ c = ':') : isBlank c = false := by
  rcases hc with rfl | rfl
  · decide
  · decide

theorem isBlank_comment {c : Char} (hc : c = '#' ∨ c = '!') : isBlank c = false := by
  rcases hc with rfl | rfl
  · decide
  · decide

theorem IsSpace.isLine (h : IsSpace cs) : IsLine cs := fun c hc => (h c hc).2

theorem IsSpace.isBlank (h : IsSpace cs) : ∀ c ∈ cs, isBlank c = true := fun c hc => (h c hc).1

theorem IsKey.isLine (h : IsKey key) : IsLine key.toList := fun c hc =>
  isLineBreak_of_not_isBlank (h.plain c hc).2.2

/-- No key ends within itself. -/
theorem IsKey.endsKey (h : IsKey key) : ∀ c ∈ key.toList, endsKey c = false := by
  intro c hc
  obtain ⟨hequals, hcolon, hblank⟩ := h.plain c hc
  simp [Properties.endsKey, hequals, hcolon, hblank]

theorem IsSeparator.isLine (h : IsSeparator value cs) : IsLine cs := by
  cases h with
  | mark hbefore hc hafter =>
    refine Text.isLine_append.2 ⟨hbefore.isLine, List.forall_mem_cons.2 ⟨?_, hafter.isLine⟩⟩
    exact isLineBreak_of_not_isBlank (isBlank_mark hc)
  | blank hcs => exact hcs.isLine

theorem WritesEntry.isLine (h : WritesEntry key value line) : IsLine line := by
  obtain ⟨hkey, hvalue, hbefore, hseparator, hafter⟩ := h
  simp only [Text.isLine_append]
  exact ⟨hbefore.isLine, hkey.isLine, hseparator.isLine, hvalue.isLine, hafter.isLine⟩

theorem WritesLine.isLine (h : WritesLine entries line) : IsLine line := by
  cases h with
  | entry h => exact h.isLine
  | blank h => exact h.isLine
  | comment hbefore hc hrest =>
    refine Text.isLine_append.2 ⟨hbefore.isLine, List.forall_mem_cons.2 ⟨?_, hrest⟩⟩
    exact isLineBreak_of_not_isBlank (isBlank_comment hc)

/-! ## Reading a line -/

/-- The entry that is read from a line, if there is one. -/
def readLine (line : List Char) : List (String × String) :=
  if isEntry (trim line) then [entryOf (trim line)] else []

/-- Blanks at the beginning of a line do not matter. -/
theorem trim_append (hcs : IsSpace cs) (hds : ∀ c ∈ ds.head?, isBlank c = false) :
    trim (cs ++ ds) = dropEndWhile isBlank ds := by
  rw [trim, Text.dropWhile_append hcs.isBlank hds]

/-- Between blanks a value is read as it is. Without a value all of it is blanks, which are no end
of a line. -/
theorem dropEndWhile_value (hvalue : IsValue value) (hcs : IsSpace cs) (hds : IsSpace ds) :
    ∃ kept, dropEndWhile isBlank (cs ++ (value.toList ++ ds)) = kept ++ value.toList ∧
      IsSpace kept ∧ (kept = cs ∨ kept ++ value.toList = []) := by
  have hdropped : dropEndWhile isBlank ds = [] := Text.dropEndWhile_of_forall hds.isBlank
  by_cases hempty : value.toList = []
  · refine ⟨[], ?_, List.forall_mem_nil _, .inr hempty⟩
    rw [hempty, List.nil_append]
    refine Text.dropEndWhile_of_forall fun c hc => ?_
    rcases List.mem_append.1 hc with hc | hc
    · exact hcs.isBlank c hc
    · exact hds.isBlank c hc
  · refine ⟨cs, ?_, hcs, .inl rfl⟩
    rw [← List.append_assoc, Text.dropEndWhile_append, hdropped, List.append_nil]
    rw [List.getLast?_append_of_ne_nil cs hempty]
    exact hvalue.last

/-- What follows a key begins with what ends the key, and the value is what is left of it. -/
theorem of_isSeparator (hvalue : IsValue value) (hcs : IsSeparator value cs) (hds : IsSpace ds) :
    (∀ c ∈ (dropEndWhile isBlank (cs ++ (value.toList ++ ds))).head?, endsKey c = true) ∧
      dropSeparator ((dropEndWhile isBlank (cs ++ (value.toList ++ ds))).dropWhile isBlank) =
        value.toList := by
  cases hcs with
  | @mark before after c hbefore hc hafter =>
    obtain ⟨kept, hkept, hspace, -⟩ := dropEndWhile_value hvalue hafter hds
    have hmark : isBlank c = false := isBlank_mark hc
    have htext : dropEndWhile isBlank (before ++ c :: after ++ (value.toList ++ ds)) =
        before ++ c :: (kept ++ value.toList) := by
      have hlast : ∀ d ∈ (before ++ [c]).getLast?, isBlank d = false := by
        rw [List.getLast?_concat]
        rintro d ⟨⟩
        exact hmark
      rw [List.append_cons before c after, List.append_assoc, Text.dropEndWhile_append hlast, hkept,
        ← List.append_cons]
    have hhead : ∀ d ∈ (c :: (kept ++ value.toList)).head?, isBlank d = false := by
      rintro d ⟨⟩
      exact hmark
    rw [htext]
    constructor
    · intro d hd
      cases before with
      | nil =>
        obtain rfl : c = d := Option.some.inj hd
        rcases hc with rfl | rfl
        · rfl
        · rfl
      | cons b before =>
        obtain rfl : b = d := Option.some.inj hd
        simp [endsKey, hbefore.isBlank b List.mem_cons_self]
    · rw [Text.dropWhile_append hbefore.isBlank hhead, dropSeparator, if_pos (by simpa using hc),
        Text.dropWhile_append hspace.isBlank hvalue.head]
  | blank hcs hne hfirst =>
    obtain ⟨kept, hkept, hspace, hall⟩ := dropEndWhile_value hvalue hcs hds
    rw [hkept]
    constructor
    · intro d hd
      rcases hall with rfl | hnil
      · obtain ⟨b, kept, rfl⟩ := List.exists_cons_of_ne_nil hne
        obtain rfl : b = d := Option.some.inj hd
        simp [endsKey, hspace.isBlank b List.mem_cons_self]
      · rw [hnil] at hd
        cases hd
    · rw [Text.dropWhile_append hspace.isBlank hvalue.head]
      -- a value that begins with a mark would lose it
      cases hchars : value.toList with
      | nil => rfl
      | cons c rest =>
        rw [hchars] at hfirst
        obtain ⟨hequals, hcolon⟩ := hfirst c rfl
        rw [dropSeparator, if_neg (by simp [hequals, hcolon])]

/-- A line is read back as its key and its value. -/
theorem entryOf_append (hkey : IsKey key) (hhead : ∀ c ∈ cs.head?, endsKey c = true)
    (hcs : dropSeparator (cs.dropWhile isBlank) = value.toList) :
    entryOf (key.toList ++ cs) = (key, value) := by
  have hplain : ∀ c ∈ key.toList, (!endsKey c) = true := by
    intro c hc
    rw [hkey.endsKey c hc]
    rfl
  have hends : ∀ c ∈ cs.head?, (!endsKey c) = false := by
    intro c hc
    rw [hhead c hc]
    rfl
  rw [entryOf, Text.takeWhile_append hplain hends, Text.dropWhile_append hplain hends, hcs,
    String.ofList_toList, String.ofList_toList]

theorem isEntry_append (hkey : IsKey key) (cs : List Char) : isEntry (key.toList ++ cs) = true := by
  cases hchars : key.toList with
  | nil => exact absurd (String.toList_eq_nil_iff.1 hchars) hkey.ne_empty
  | cons c rest =>
    have hcomment := hkey.noComment
    rw [hchars] at hcomment
    obtain ⟨hnumber, hmark⟩ := hcomment c rfl
    simp [isEntry, hnumber, hmark]

/-- An entry is read back, whatever its layout in the line. -/
theorem readLine_of_writesEntry (h : WritesEntry key value line) :
    readLine line = [(key, value)] := by
  obtain ⟨hkey, hvalue, hbefore, hseparator, hafter⟩ := h
  have hfirst : ∀ c ∈ key.toList.head?, isBlank c = false := fun c hc =>
    (hkey.plain c (List.mem_of_mem_head? hc)).2.2
  have hlast : ∀ c ∈ key.toList.getLast?, isBlank c = false := fun c hc =>
    (hkey.plain c (List.mem_of_mem_getLast? hc)).2.2
  obtain ⟨hends, hrest⟩ := of_isSeparator hvalue hseparator hafter
  unfold readLine
  rw [trim_append hbefore, Text.dropEndWhile_append hlast, if_pos (isEntry_append hkey _),
    entryOf_append hkey hends hrest]
  intro c hc
  rw [List.head?_append_of_ne_nil _ (String.toList_eq_nil_iff.not.2 hkey.ne_empty)] at hc
  exact hfirst c hc

/-- A line is read back as the entries that it writes. -/
theorem readLine_of_writesLine (h : WritesLine entries line) : readLine line = entries := by
  cases h with
  | entry h => exact readLine_of_writesEntry h
  | blank h =>
    have htrim : trim line = [] := by
      rw [← List.append_nil line, trim_append h fun c hc => by cases hc]
      rfl
    rw [readLine, htrim]
    rfl
  | @comment before rest c hbefore hc hrest =>
    have hhead : ∀ d ∈ (c :: rest).head?, isBlank d = false := by
      rintro d ⟨⟩
      exact isBlank_comment hc
    have hlast : ∀ d ∈ [c].getLast?, isBlank d = false := by
      rintro d ⟨⟩
      exact isBlank_comment hc
    -- the mark of a comment is not blank, so it comes first in what is read
    have htrim : trim (before ++ c :: rest) = [c] ++ dropEndWhile isBlank rest := by
      rw [trim_append hbefore hhead, ← Text.dropEndWhile_append hlast]
      rfl
    rw [readLine, htrim]
    rcases hc with rfl | rfl
    · rfl
    · rfl

/-! ## Reading a text -/

/-- The entries that are read from a text. -/
def readText (cs : List Char) : List (String × String) := (splitLines cs).flatMap readLine

/-- The properties of a text are its entries, put one after the other. -/
theorem ofText_eq (s : String) :
    ofText s = (readText s.toList).foldl (fun ps e => put e.1 e.2 ps) [] := by
  have hlines (lines : List (List Char)) (ps : Properties) :
      ((lines.map trim).filter isEntry).foldl
          (fun ps line => put (entryOf line).1 (entryOf line).2 ps) ps =
        (lines.flatMap readLine).foldl (fun ps e => put e.1 e.2 ps) ps := by
    induction lines generalizing ps with
    | nil => rfl
    | cons line lines ih =>
      rw [List.map_cons, List.flatMap_cons, List.foldl_append, List.filter_cons, readLine]
      split
      · exact ih _
      · exact ih _
  exact hlines _ _

theorem readText_of_isLine (h : IsLine cs) : readText cs = readLine cs :=
  Text.readLines_of_isLine rfl h

/-- The text is one that is written line by line. -/
theorem Writes.written (h : Writes entries cs) : Text.Written WritesLine entries cs := by
  induction h with
  | nil => exact .nil
  | last hline => exact .last hline
  | line hline hterminator _ ih => exact .line hline hterminator ih

/-- The entries of a text are read back, line by line. -/
theorem readText_of_writes (h : Writes entries cs) : readText cs = entries := by
  apply Text.readLines_of_written rfl _ _ h.written
  · intro es line hline
    exact hline.isLine
  · intro es line hline
    exact readLine_of_writesLine hline

/-! ## Looking a key up -/

/-- A key has the value that is put last. -/
theorem get?_put_self (key value : String) (ps : Properties) :
    get? key (put key value ps) = some value := by
  induction ps with
  | nil => simp [put, get?]
  | cons e rest ih =>
    rw [put]
    split
    case isTrue => simp [get?]
    case isFalse he =>
      rw [get?, List.find?_cons_of_neg (by simpa using he)]
      exact ih

theorem get?_put_of_ne {other : String} (h : other ≠ key) (value : String) (ps : Properties) :
    get? key (put other value ps) = get? key ps := by
  induction ps with
  | nil => simp [put, get?, h]
  | cons e rest ih =>
    rw [put]
    split
    case isTrue he =>
      subst he
      simp [get?, h]
    case isFalse =>
      by_cases hkey : e.1 = key
      · simp [get?, hkey]
      · rw [get?, get?, List.find?_cons_of_neg (by simpa using hkey),
          List.find?_cons_of_neg (by simpa using hkey)]
        exact ih

/-- Entries with other keys leave a key as it is. -/
theorem get?_foldl_put (h : key ∉ entries.map (·.1)) (ps : Properties) :
    get? key (entries.foldl (fun ps e => put e.1 e.2 ps) ps) = get? key ps := by
  induction entries generalizing ps with
  | nil => rfl
  | cons e rest ih =>
    rw [List.map_cons, List.mem_cons, not_or] at h
    rw [List.foldl_cons, ih h.2, get?_put_of_ne (Ne.symm h.1)]

theorem keys_put (key value : String) (ps : Properties) :
    (put key value ps).map (·.1) =
      if key ∈ ps.map (·.1) then ps.map (·.1) else ps.map (·.1) ++ [key] := by
  induction ps with
  | nil => rfl
  | cons e rest ih =>
    rw [put]
    split
    case isTrue he => simp [he]
    case isFalse he =>
      rw [List.map_cons, ih]
      by_cases hrest : key ∈ rest.map (·.1)
      · simp [hrest]
      · simp [hrest, Ne.symm he]

theorem nodup_keys_put (h : (ps.map (·.1)).Nodup) (key value : String) :
    ((put key value ps).map (·.1)).Nodup := by
  rw [keys_put]
  split
  case isTrue => exact h
  case isFalse hkey =>
    rw [← List.concat_eq_append, List.nodup_concat]
    exact ⟨hkey, h⟩

/-- No key occurs twice, whatever is put. -/
theorem nodup_keys_foldl (h : (ps.map (·.1)).Nodup) :
    ((entries.foldl (fun ps e => put e.1 e.2 ps) ps).map (·.1)).Nodup := by
  induction entries generalizing ps with
  | nil => exact h
  | cons e rest ih => exact ih (nodup_keys_put h e.1 e.2)

/-- Every text has properties, and those of a text that is written line by line are its entries,
each key with its last value. -/
theorem ofText_of_writes (s : String) :
    parse? s = some (ofText s) ∧
      ∀ entries, Writes entries s.toList →
        ((ofText s).map (·.1)).Nodup ∧
        (∀ key, key ∉ entries.map (·.1) → get? key (ofText s) = none) ∧
        ∀ before key value after, entries = before ++ (key, value) :: after →
          key ∉ after.map (·.1) → get? key (ofText s) = some value := by
  refine ⟨parse?_eq s, fun entries h => ?_⟩
  have hentries : ofText s = entries.foldl (fun ps e => put e.1 e.2 ps) [] := by
    rw [ofText_eq, readText_of_writes h]
  rw [hentries]
  refine ⟨nodup_keys_foldl List.nodup_nil, ?_, ?_⟩
  · intro key hkey
    rw [get?_foldl_put hkey]
    rfl
  · rintro before key value after rfl hafter
    rw [List.foldl_append, List.foldl_cons, get?_foldl_put hafter, get?_put_self]

/-- A text with a comment, a key in two lines that are laid out in different ways, and a value after
a tabulator. -/
def sampleText : String := "# top\n layers = top, mid \r\nlayers.path\tparts\x0b\nlayers:=x"

/-- What is written there. -/
def sampleEntries : List (String × String) :=
  [("layers", "top, mid"), ("layers.path", "parts"), ("layers", "=x")]

/-- The second line with a key counts. -/
theorem ofText_sampleText :
    Writes sampleEntries sampleText.toList ∧
      get? "layers" (ofText sampleText) = some "=x" ∧
      get? "layers.path" (ofText sampleText) = some "parts" := by
  have hlayers : IsKey "layers" := by decide
  have hpath : IsKey "layers.path" := by decide
  have hnone : IsSpace [] := by decide
  have hone : IsSpace [' '] := by decide
  have htab : IsSpace ['\t'] := by decide
  have hnoMark : IsSeparator "parts" ['\t'] := .blank htab (List.cons_ne_nil _ _) <| by
    rintro c ⟨⟩
    decide
  have hcomment : WritesLine [] ([] ++ '#' :: " top".toList) :=
    .comment hnone (.inl rfl) (by decide)
  have hfirst : WritesEntry "layers" "top, mid" ([' '] ++ ("layers".toList ++
      (([' '] ++ '=' :: [' ']) ++ ("top, mid".toList ++ [' '])))) :=
    .mk hlayers (by decide) hone (.mark hone (.inl rfl) hone) hone
  have hsecond : WritesEntry "layers.path" "parts" ([] ++ ("layers.path".toList ++
      (['\t'] ++ ("parts".toList ++ [])))) :=
    .mk hpath (by decide) hnone hnoMark hnone
  have hlast : WritesEntry "layers" "=x" ([] ++ ("layers".toList ++
      (([] ++ ':' :: []) ++ ("=x".toList ++ [])))) :=
    .mk hlayers (by decide) hnone (.mark hnone (.inr rfl) hnone) hnone
  have hwrites : Writes sampleEntries sampleText.toList :=
    .line hcomment (.single (by decide)) <| .line (.entry hfirst) .pair <|
      .line (.entry hsecond) (.single (by decide)) <| .line (.blank hnone) (.single (by decide)) <|
        .last (.entry hlast)
  obtain ⟨-, hread⟩ := ofText_of_writes sampleText
  obtain ⟨-, -, hvalues⟩ := hread sampleEntries hwrites
  exact ⟨hwrites, hvalues (sampleEntries.take 2) _ _ [] rfl (by decide),
    hvalues (sampleEntries.take 1) _ _ (sampleEntries.drop 2) rfl (by decide)⟩

end ModulePath.Layers.Properties
