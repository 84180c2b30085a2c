import Mathlib.Data.List.TakeWhile
import ModulePath.Text.Blank

/-!
# Lines and pieces

A text that is put together of lines, each with a line feed at its end, falls into these lines
again, as long as none of them has a line break itself (`splitLines_joined`), and pieces with a
separator between them are what a text is cut into there (`splitAt_intercalate`,
`intercalate_splitAt`). Trimming keeps a beginning that no blank ends (`dropEndWhile_append`), takes
nothing but blanks away (`exists_around_trim`) and leaves none to be trimmed again (`trim_trim`).
-/

set_option autoImplicit false

namespace ModulePath.Text

variable {cs ds : List Char} {sep : Char}

/-! ## Lines -/

/-- A text has no character that ends a line. -/
def IsLine (cs : List Char) : Prop := ∀ c ∈ cs, isLineBreak c = false

/-- Only the characters of the text are looked at, not all there are. -/
instance (cs : List Char) : Decidable (IsLine cs) :=
  List.decidableBAll (fun c => isLineBreak c = false) cs

/-- Two texts without line breaks make one. -/
theorem isLine_append : IsLine (cs ++ ds) ↔ IsLine cs ∧ IsLine ds := List.forall_mem_append

/-- A number has no line break in it. -/
theorem isLine_toString (n : Nat) : IsLine (toString n).toList := by
  intro c hc
  have hdigits : (toString n).toList = Nat.toDigits 10 n := Nat.toList_repr
  rw [hdigits] at hc
  have hdigit : c.isDigit = true := Nat.isDigit_of_mem_toDigits (by decide) (by decide) hc
  simp only [Char.isDigit, Bool.and_eq_true, decide_eq_true_eq, ge_iff_le,
    UInt32.le_iff_toNat_le] at hdigit
  change 48 ≤ c.toNat ∧ c.toNat ≤ 57 at hdigit
  unfold isLineBreak
  simp only [Bool.or_eq_false_iff, Bool.and_eq_false_iff, decide_eq_false_iff_not,
    beq_eq_false_iff_ne]
  omega

/-- A character that does not end a line begins the first line. -/
theorem splitLines_cons {c : Char} (hc : isLineBreak c = false) :
    splitLines (c :: cs) = (c :: (splitLines cs).head?.getD []) :: (splitLines cs).tail := by
  have hreturn : c ≠ '\r' := by
    rintro rfl
    cases hc
  rw [splitLines]
  · rw [if_neg (Bool.eq_false_iff.1 hc)]
    cases splitLines cs with
    | nil => rfl
    | cons line lines => rfl
  · rintro rest rfl
    contradiction

/-- What ends the first line of a text ends a longer one as well. -/
theorem splitLines_append {lines : List (List Char)} (h : IsLine cs)
    (hds : splitLines ds = [] :: lines) : splitLines (cs ++ ds) = cs :: lines := by
  induction cs with
  | nil => exact hds
  | cons c cs ih =>
    obtain ⟨hc, hcs⟩ := List.forall_mem_cons.1 h
    rw [List.cons_append, splitLines_cons hc, ih hcs]
    rfl

/-- A line ends at its line feed. -/
theorem splitLines_append_lineFeed (h : IsLine cs) :
    splitLines (cs ++ '\n' :: ds) = cs :: splitLines ds := splitLines_append h rfl

/-- What ends a line: one character that breaks it, or a carriage return with a line feed. -/
inductive IsTerminator : List Char → Prop
  | single {c : Char} (hc : isLineBreak c = true) : IsTerminator [c]
  | pair : IsTerminator ['\r', '\n']

/-- A line break ends a line. Only a line feed after a carriage return belongs to the same end. -/
theorem splitLines_of_isLineBreak {c : Char} (hc : isLineBreak c = true)
    (h : c = '\r' → ds.head? ≠ some '\n') : splitLines (c :: ds) = [] :: splitLines ds := by
  rw [splitLines]
  · rw [if_pos hc]
  · rintro rest rfl rfl
    exact h rfl rfl

/-- Lines that end in line feeds. -/
theorem splitLines_joined {lines : List (List Char)} (h : ∀ line ∈ lines, IsLine line) :
    splitLines (lines.flatMap (· ++ ['\n'])) = lines := by
  induction lines with
  | nil => rfl
  | cons line lines ih =>
    obtain ⟨hline, hlines⟩ := List.forall_mem_cons.1 h
    rw [List.flatMap_cons, List.append_assoc, List.singleton_append,
      splitLines_append_lineFeed hline, ih hlines]

/-- A text that is not empty and has no line break is one line. -/
theorem splitLines_of_isLine (h : IsLine cs) (hcs : cs ≠ []) : splitLines cs = [cs] := by
  induction cs with
  | nil => exact absurd rfl hcs
  | cons c cs ih =>
    obtain ⟨hc, hrest⟩ := List.forall_mem_cons.1 h
    rw [splitLines_cons hc]
    cases cs with
    | nil => rfl
    | cons d cs =>
      rw [ih hrest (List.cons_ne_nil d cs)]
      rfl

/-! ## Pieces -/

theorem splitAt_of_not_mem {cs : List Char} (h : sep ∉ cs) : splitAt sep cs = [cs] := by
  induction cs with
  | nil => rfl
  | cons c cs ih =>
    rw [List.mem_cons, not_or] at h
    obtain ⟨hc, hcs⟩ := h
    rw [splitAt, if_neg (Ne.symm hc), ih hcs]

/-- No piece holds the separator. -/
theorem not_mem_of_mem_splitAt {cs piece : List Char} (h : piece ∈ splitAt sep cs) :
    sep ∉ piece := by
  induction cs generalizing piece with
  | nil =>
    obtain rfl := List.mem_singleton.1 h
    exact List.not_mem_nil
  | cons c cs ih =>
    rw [splitAt] at h
    split at h
    case isTrue =>
      rcases List.mem_cons.1 h with rfl | hpiece
      · exact List.not_mem_nil
      · exact ih hpiece
    case isFalse hc =>
      -- the character is put before the first piece of the rest
      cases hrest : splitAt sep cs with
      | nil =>
        rw [hrest] at h
        obtain rfl := List.mem_singleton.1 h
        simp [Ne.symm hc]
      | cons first pieces =>
        rw [hrest] at h ih
        rcases List.mem_cons.1 h with rfl | hpiece
        · rw [List.mem_cons, not_or]
          exact ⟨Ne.symm hc, ih List.mem_cons_self⟩
        · exact ih (List.mem_cons_of_mem _ hpiece)

/-- A piece ends at the first separator. -/
theorem splitAt_append (h : sep ∉ cs) : splitAt sep (cs ++ sep :: ds) = cs :: splitAt sep ds := by
  induction cs with
  | nil => rw [List.nil_append, splitAt, if_pos rfl]
  | cons c cs ih =>
    rw [List.mem_cons, not_or] at h
    obtain ⟨hc, hcs⟩ := h
    rw [List.cons_append, splitAt, if_neg (Ne.symm hc), ih hcs]

theorem splitAt_ne_nil (sep : Char) (cs : List Char) : splitAt sep cs ≠ [] := by
  cases cs with
  | nil => exact List.cons_ne_nil _ _
  | cons c cs =>
    rw [splitAt]
    split
    case isTrue => exact List.cons_ne_nil _ _
    case isFalse =>
      split
      case h_1 => exact List.cons_ne_nil _ _
      case h_2 => exact List.cons_ne_nil _ _

/-- The pieces of a text are put together to the text. -/
theorem intercalate_splitAt (sep : Char) (cs : List Char) :
    [sep].intercalate (splitAt sep cs) = cs := by
  induction cs with
  | nil => rfl
  | cons c cs ih =>
    rw [splitAt]
    split
    case isTrue hc =>
      cases hpieces : splitAt sep cs with
      | nil => exact absurd hpieces (splitAt_ne_nil sep cs)
      | cons piece pieces =>
        rw [List.intercalate_cons_cons, ← hpieces, ih, hc]
        rfl
    case isFalse =>
      cases hpieces : splitAt sep cs with
      | nil => exact absurd hpieces (splitAt_ne_nil sep cs)
      | cons piece pieces =>
        -- the character belongs to the first piece, whether there are others or not
        rw [hpieces] at ih
        cases pieces with
        | nil =>
          rw [List.intercalate_singleton] at ih ⊢
          rw [ih]
        | cons next pieces =>
          rw [List.intercalate_cons_cons] at ih ⊢
          rw [List.cons_append, List.cons_append, ih]

theorem intercalate_cons {piece : List Char} {pieces : List (List Char)} (h : pieces ≠ []) :
    [sep].intercalate (piece :: pieces) = piece ++ sep :: [sep].intercalate pieces := by
  cases pieces with
  | nil => exact absurd rfl h
  | cons next pieces =>
    rw [List.intercalate_cons_cons, List.append_assoc, List.singleton_append]

/-- Pieces with a separator between them. -/
theorem splitAt_intercalate {pieces : List (List Char)} (hne : pieces ≠ [])
    (h : ∀ piece ∈ pieces, sep ∉ piece) : splitAt sep ([sep].intercalate pieces) = pieces := by
  induction pieces with
  | nil => exact absurd rfl hne
  | cons piece pieces ih =>
    obtain ⟨hpiece, hpieces⟩ := List.forall_mem_cons.1 h
    by_cases hrest : pieces = []
    · rw [hrest, List.intercalate_singleton, splitAt_of_not_mem hpiece]
    · rw [intercalate_cons hrest, splitAt_append hpiece, ih hrest hpieces]

/-- Lines that are joined by something else than a line break make one line. -/
theorem isLine_intercalate {pieces : List (List Char)} (hsep : isLineBreak sep = false)
    (h : ∀ piece ∈ pieces, IsLine piece) : IsLine ([sep].intercalate pieces) := by
  induction pieces with
  | nil => exact List.forall_mem_nil _
  | cons piece pieces ih =>
    obtain ⟨hpiece, hpieces⟩ := List.forall_mem_cons.1 h
    by_cases hrest : pieces = []
    · rwa [hrest, List.intercalate_singleton]
    · rw [intercalate_cons hrest]
      exact isLine_append.2 ⟨hpiece, List.forall_mem_cons.2 ⟨hsep, ih hpieces⟩⟩

/-- The text begins with the first piece. -/
theorem head?_intercalate {piece : List Char} (pieces : List (List Char)) (h : piece ≠ []) :
    ([sep].intercalate (piece :: pieces)).head? = piece.head? := by
  cases pieces with
  | nil => rw [List.intercalate_singleton]
  | cons next pieces =>
    rw [intercalate_cons (List.cons_ne_nil _ _), List.head?_append]
    cases piece with
    | nil => exact absurd rfl h
    | cons c cs => rfl

/-- The text ends in the last piece. -/
theorem exists_intercalate_eq (pieces : List (List Char)) (last : List Char) :
    ∃ before, [sep].intercalate (pieces ++ [last]) = before ++ last := by
  induction pieces with
  | nil => exact ⟨[], List.intercalate_singleton⟩
  | cons piece pieces ih =>
    obtain ⟨before, hbefore⟩ := ih
    refine ⟨piece ++ sep :: before, ?_⟩
    rw [List.cons_append, intercalate_cons (List.concat_ne_nil _ _), hbefore, List.append_assoc,
      List.cons_append]

/-! ## Beginnings -/

theorem dropWhile_of_head? {p : Char → Bool} (h : ∀ c ∈ cs.head?, p c = false) :
    cs.dropWhile p = cs := by
  cases cs with
  | nil => rfl
  | cons c cs => rw [List.dropWhile_cons_of_neg (by simp [h c rfl])]

theorem takeWhile_of_head? {p : Char → Bool} (h : ∀ c ∈ cs.head?, p c = false) :
    cs.takeWhile p = [] := by
  cases cs with
  | nil => rfl
  | cons c cs => rw [List.takeWhile_cons_of_neg (by simp [h c rfl])]

/-- Where a text stops to satisfy `p`, it is cut. -/
theorem takeWhile_append {p : Char → Bool} (hcs : ∀ c ∈ cs, p c = true)
    (hds : ∀ d ∈ ds.head?, p d = false) : (cs ++ ds).takeWhile p = cs := by
  rw [List.takeWhile_append_of_pos hcs, takeWhile_of_head? hds, List.append_nil]

theorem dropWhile_append {p : Char → Bool} (hcs : ∀ c ∈ cs, p c = true)
    (hds : ∀ d ∈ ds.head?, p d = false) : (cs ++ ds).dropWhile p = ds := by
  rw [List.dropWhile_append_of_pos hcs, dropWhile_of_head? hds]

/-! ## Trimming -/

theorem head?_of_dropEndWhile {p : Char → Bool} {c : Char}
    (h : c ∈ (dropEndWhile p cs).head?) : c ∈ cs.head? := by
  cases cs with
  | nil => exact h
  | cons d cs =>
    rw [dropEndWhile] at h
    split at h
    case h_1 =>
      split at h
      case isTrue => cases h
      case isFalse => exact h
    case h_2 => exact h

/-- An end that satisfies `p` is dropped up to a character that does not. -/
theorem dropEndWhile_append {p : Char → Bool} (h : ∀ c ∈ cs.getLast?, p c = false) :
    dropEndWhile p (cs ++ ds) = cs ++ dropEndWhile p ds := by
  induction cs with
  | nil => rfl
  | cons c cs ih =>
    cases cs with
    | nil =>
      have hc : p c = false := h c rfl
      rw [List.cons_append, List.nil_append, dropEndWhile]
      cases dropEndWhile p ds with
      | nil => simp [hc]
      | cons d ds => rfl
    | cons d cs =>
      rw [List.getLast?_cons_cons] at h
      rw [List.cons_append, dropEndWhile, ih h]
      rfl

theorem dropEndWhile_of_forall {p : Char → Bool} (h : ∀ c ∈ cs, p c = true) :
    dropEndWhile p cs = [] := by
  induction cs with
  | nil => rfl
  | cons c cs ih =>
    obtain ⟨hc, hcs⟩ := List.forall_mem_cons.1 h
    rw [dropEndWhile, ih hcs]
    exact if_pos hc

/-- What is left after the end is dropped is a beginning. -/
theorem isPrefix_dropEndWhile (p : Char → Bool) (cs : List Char) : dropEndWhile p cs <+: cs := by
  induction cs with
  | nil => exact List.prefix_rfl
  | cons c cs ih =>
    rw [dropEndWhile]
    split
    case h_1 =>
      split
      case isTrue => exact List.nil_prefix
      case isFalse => simp
    case h_2 kept rest hkept =>
      rw [hkept] at ih
      simpa using ih

/-- What is left does not end in what is dropped. -/
theorem getLast?_dropEndWhile {p : Char → Bool} :
    ∀ c ∈ (dropEndWhile p cs).getLast?, p c = false := by
  induction cs with
  | nil => nofun
  | cons d cs ih =>
    rw [dropEndWhile]
    split
    case h_1 =>
      split
      case isTrue => nofun
      case isFalse hd =>
        rintro c ⟨⟩
        simpa using hd
    case h_2 kept rest hkept =>
      rw [hkept] at ih
      rw [List.getLast?_cons_cons]
      exact ih

theorem dropEndWhile_of_getLast? {p : Char → Bool} (h : ∀ c ∈ cs.getLast?, p c = false) :
    dropEndWhile p cs = cs := by
  have happend : dropEndWhile p (cs ++ []) = cs ++ dropEndWhile p [] := dropEndWhile_append h
  rwa [dropEndWhile, List.append_nil] at happend

/-- What is dropped at the end satisfies `p`. -/
theorem exists_append_dropEndWhile (p : Char → Bool) (cs : List Char) :
    ∃ ds, dropEndWhile p cs ++ ds = cs ∧ ∀ c ∈ ds, p c = true := by
  induction cs with
  | nil => exact ⟨[], rfl, List.forall_mem_nil _⟩
  | cons c cs ih =>
    obtain ⟨ds, hds, hdropped⟩ := ih
    rw [dropEndWhile]
    split
    case h_1 hnone =>
      -- nothing is left of the rest, so all of it satisfies `p`
      rw [hnone, List.nil_append] at hds
      subst hds
      split
      case isTrue hc => exact ⟨c :: ds, rfl, List.forall_mem_cons.2 ⟨hc, hdropped⟩⟩
      case isFalse => exact ⟨ds, rfl, hdropped⟩
    case h_2 kept rest hkept =>
      rw [hkept] at hds
      exact ⟨ds, by rw [← hds]; rfl, hdropped⟩

/-- A text is what is left of it when its two ends are dropped, with the ends around that. -/
theorem exists_around (p : Char → Bool) (cs : List Char) :
    ∃ before after, cs = before ++ (dropEndWhile p (cs.dropWhile p) ++ after) ∧
      (∀ c ∈ before, p c = true) ∧ ∀ c ∈ after, p c = true := by
  obtain ⟨after, hafter, hdropped⟩ := exists_append_dropEndWhile p (cs.dropWhile p)
  refine ⟨cs.takeWhile p, after, ?_, fun c hc => List.mem_takeWhile_imp hc, hdropped⟩
  rw [hafter, List.takeWhile_append_dropWhile]

/-- Ends that are dropped leave a text that neither begins nor ends like them. -/
theorem dropEndWhile_around {p : Char → Bool} {before after : List Char}
    (hbefore : ∀ c ∈ before, p c = true) (hafter : ∀ c ∈ after, p c = true) (hcs : cs ≠ [])
    (hhead : ∀ c ∈ cs.head?, p c = false) (hlast : ∀ c ∈ cs.getLast?, p c = false) :
    dropEndWhile p ((before ++ (cs ++ after)).dropWhile p) = cs := by
  have hhead' : ∀ c ∈ (cs ++ after).head?, p c = false := by
    obtain ⟨c, rest, rfl⟩ := List.exists_cons_of_ne_nil hcs
    exact hhead
  rw [dropWhile_append hbefore hhead', dropEndWhile_append hlast, dropEndWhile_of_forall hafter,
    List.append_nil]

theorem dropWhile_filter {p q : Char → Bool} (h : ∀ c, p c = false → q c = true) (cs : List Char) :
    (cs.filter p).dropWhile q = (cs.dropWhile q).filter p := by
  induction cs with
  | nil => rfl
  | cons c cs ih =>
    cases hp : p c with
    | false =>
      rw [List.filter_cons_of_neg (by simp [hp]), List.dropWhile_cons_of_pos (h c hp), ih]
    | true =>
      rw [List.filter_cons_of_pos hp]
      cases hq : q c with
      | true => rw [List.dropWhile_cons_of_pos hq, List.dropWhile_cons_of_pos hq, ih]
      | false =>
        rw [List.dropWhile_cons_of_neg (by simp [hq]), List.dropWhile_cons_of_neg (by simp [hq]),
          List.filter_cons_of_pos hp]

/-- Characters that would be dropped anyway may be filtered out before. -/
theorem dropEndWhile_filter {p q : Char → Bool} (h : ∀ c, p c = false → q c = true)
    (cs : List Char) : dropEndWhile q (cs.filter p) = (dropEndWhile q cs).filter p := by
  obtain ⟨ds, hds, hdropped⟩ := exists_append_dropEndWhile q cs
  have hlast : ∀ c ∈ ((dropEndWhile q cs).filter p).getLast?, q c = false := by
    have hkept : ∀ c ∈ (dropEndWhile q cs).getLast?, q c = false := getLast?_dropEndWhile
    rcases List.eq_nil_or_concat (dropEndWhile q cs) with hnil | ⟨init, last, hconcat⟩
    · rw [hnil]
      nofun
    · rw [List.concat_eq_append] at hconcat
      rw [hconcat, List.getLast?_concat] at hkept
      have hq : q last = false := hkept last rfl
      -- what is not dropped from the end is not filtered out
      have hp : p last = true := by
        by_contra hnot
        rw [h last (Bool.eq_false_iff.2 hnot)] at hq
        cases hq
      rw [hconcat, List.filter_append, List.filter_cons_of_pos hp, List.filter_nil,
        List.getLast?_concat]
      rintro c ⟨⟩
      exact hq
  have hrest : dropEndWhile q (ds.filter p) = [] :=
    dropEndWhile_of_forall fun c hc => hdropped c (List.mem_filter.1 hc).1
  calc dropEndWhile q (cs.filter p)
      = dropEndWhile q ((dropEndWhile q cs).filter p ++ ds.filter p) := by
        rw [← List.filter_append, hds]
    _ = (dropEndWhile q cs).filter p := by
        rw [dropEndWhile_append hlast, hrest, List.append_nil]

theorem isBlank_head?_trim : ∀ c ∈ (trim cs).head?, isBlank c = false := by
  intro c hc
  have hhead : c ∈ (cs.dropWhile isBlank).head? := head?_of_dropEndWhile hc
  have hnot := List.head?_dropWhile_not isBlank cs
  rw [Option.mem_def.1 hhead] at hnot
  exact hnot

theorem isBlank_getLast?_trim : ∀ c ∈ (trim cs).getLast?, isBlank c = false :=
  getLast?_dropEndWhile

/-- No blank begins a text that has no blanks to lose. -/
theorem isBlank_head?_of_trim (h : trim cs = cs) : ∀ c ∈ cs.head?, isBlank c = false := by
  rw [← h]
  exact isBlank_head?_trim

/-- No blank ends a text that has no blanks to lose. -/
theorem isBlank_getLast?_of_trim (h : trim cs = cs) : ∀ c ∈ cs.getLast?, isBlank c = false := by
  rw [← h]
  exact isBlank_getLast?_trim

/-- A text without blanks at its ends is left as it is. -/
theorem trim_of_ends (hhead : ∀ c ∈ cs.head?, isBlank c = false)
    (hlast : ∀ c ∈ cs.getLast?, isBlank c = false) : trim cs = cs := by
  rw [trim, dropWhile_of_head? hhead, dropEndWhile_of_getLast? hlast]

@[simp] theorem trim_trim (cs : List Char) : trim (trim cs) = trim cs :=
  trim_of_ends isBlank_head?_trim isBlank_getLast?_trim

/-- Trimming adds no character. -/
theorem mem_of_mem_trim {c : Char} (h : c ∈ trim cs) : c ∈ cs := by
  have hkept : c ∈ cs.dropWhile isBlank := (isPrefix_dropEndWhile isBlank _).subset h
  exact (List.dropWhile_suffix isBlank).subset hkept

/-! ### Characters that do not count -/

/-- A text is what trimming leaves of it, with the blanks around that. -/
theorem exists_around_trim (cs : List Char) :
    ∃ before after, cs = before ++ (trim cs ++ after) ∧ (∀ c ∈ before, isBlank c = true) ∧
      ∀ c ∈ after, isBlank c = true :=
  exists_around isBlank cs

/-- Blanks that are left out within a text may as well be left out before it is trimmed. -/
theorem trim_filter {p : Char → Bool} (h : ∀ c, p c = false → isBlank c = true) (cs : List Char) :
    trim (cs.filter p) = (trim cs).filter p := by
  rw [trim, trim, dropWhile_filter h, dropEndWhile_filter h]

end ModulePath.Text
