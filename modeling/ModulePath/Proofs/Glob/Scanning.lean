import Mathlib.Data.List.Chain
import ModulePath.Proofs.Glob.Tokens
import ModulePath.Proofs.Text.Lines

/-!
# Scanning a glob

A glob can be scanned from its beginning: at each place the readers of the kinds of tokens are tried
in order of priority, a run being read as far as it goes, and a character that no reader takes is
passed over (`Scans`). Each reader takes what the rule of `Tokenised` gives its tokens
(`read?_text_append`), so no character is ever passed over, and the scan finds the tokens of the
glob and nothing else (`scans_iff`). The tokens make up the glob with nothing left out (`Parts`),
and two globs keep their tokens when they are put together, unless a token goes on over the seam
(`scanned_tokens_parts`).
-/

set_option autoImplicit false

namespace ModulePath.Glob

variable {cs ds rest : List Char} {t u : Token} {ts us : List Token}

/-! ## Readers -/

/-- What is read at the beginning of a text: a token, and what follows it. -/
abbrev Reading := List Char → Option (Token × List Char)

namespace Reading

/-- Two stars, or one. -/
def stars : Reading
  | '*' :: '*' :: rest => some (.anything, rest)
  | '*' :: rest => some (.segment, rest)
  | _ => none

/-- A question mark. -/
def question : Reading
  | '?' :: rest => some (.one, rest)
  | _ => none

/-- A backslash and any character, a line break included. -/
def escape : Reading
  | '\\' :: c :: rest => some (.escaped c, rest)
  | _ => none

/-- As many separators as there are. -/
def separators : Reading
  | '/' :: rest =>
    some (.separators (rest.takeWhile (· == '/')).length, rest.dropWhile (· == '/'))
  | _ => none

/-- As many ordinary characters as there are. -/
def literal : Reading
  | [] => none
  | c :: rest =>
    if isOrdinary c then some (.literal c (rest.takeWhile isOrdinary), rest.dropWhile isOrdinary)
    else none

/-- A backslash by itself. -/
def backslash : Reading
  | '\\' :: rest => some (.backslash, rest)
  | _ => none

/-- All readers, the one of the highest priority first. -/
def all : List Reading := [stars, question, escape, separators, literal, backslash]

end Reading

/-- The first reader that takes anything reads. -/
def read? : Reading := fun cs => Reading.all.findSome? fun r => r cs

/-- A text is scanned from left to right: what is read is a token, and a character at which nothing
can be read is passed over. -/
inductive Scans : List Char → List Token → Prop
  | done : Scans [] []
  | reads {cs rest : List Char} {t : Token} {ts : List Token} :
      read? cs = some (t, rest) → Scans rest ts → Scans cs (t :: ts)
  | passes {c : Char} {cs : List Char} {ts : List Token} :
      read? (c :: cs) = none → Scans cs ts → Scans (c :: cs) ts

/-- A token that ends before `rest` is what is read of its text followed by `rest`. -/
theorem read?_text_append (h : t.EndsBefore rest) : read? (t.text ++ rest) = some (t, rest) := by
  cases t with
  | anything => rfl
  | segment =>
    have hstars : Reading.stars ('*' :: rest) = some (.segment, rest) := by
      cases rest with
      | nil => rfl
      | cons c more =>
        have hc : c ≠ '*' := fun hc => h (congrArg some hc)
        simp [Reading.stars, hc]
    simp [read?, Reading.all, Token.text, hstars]
  | one => rfl
  | escaped c => rfl
  | separators more =>
    have hhead : ∀ c ∈ rest.head?, (c == '/') = false := fun c hc =>
      beq_eq_false_iff_ne.2 fun hslash => h (hslash ▸ hc)
    have hrun : ∀ c ∈ List.replicate more '/', (c == '/') = true := fun c hc =>
      beq_iff_eq.2 (List.eq_of_mem_replicate hc)
    have hread : Reading.separators ('/' :: (List.replicate more '/' ++ rest)) =
        some (.separators more, rest) := by
      rw [Reading.separators, Text.takeWhile_append hrun hhead, Text.dropWhile_append hrun hhead,
        List.length_replicate]
    exact hread
  | literal first more =>
    obtain ⟨hfirst, hmore⟩ := List.forall_mem_cons.1 h.1
    obtain ⟨hstar, hone, hback, hslash⟩ := ne_of_isOrdinary hfirst
    have hread : Reading.literal (first :: (more ++ rest)) = some (.literal first more, rest) := by
      rw [Reading.literal, if_pos hfirst, Text.takeWhile_append hmore h.2,
        Text.dropWhile_append hmore h.2]
    -- the readers before take no ordinary character
    have hnone : Reading.stars (first :: (more ++ rest)) = none ∧
        Reading.question (first :: (more ++ rest)) = none ∧
        Reading.escape (first :: (more ++ rest)) = none ∧
        Reading.separators (first :: (more ++ rest)) = none := by
      simp [Reading.stars, Reading.question, Reading.escape, Reading.separators, hstar, hone,
        hback, hslash]
    simp [read?, Reading.all, Token.text, hread, hnone]
  | backslash =>
    obtain rfl : rest = [] := h
    rfl

/-- Something is read of every text, and it is the token that the rule gives. -/
theorem exists_read? (hcs : cs ≠ []) :
    ∃ t rest, read? cs = some (t, rest) ∧ t.EndsBefore rest ∧ cs = t.text ++ rest := by
  have hcut : Tokenised cs (tokens cs) := tokenised_tokens cs
  generalize tokens cs = ts at hcut
  cases hcut with
  | nil => exact absurd rfl hcs
  | @cons t rest ts ht hts => exact ⟨t, rest, read?_text_append ht, ht, rfl⟩

/-- A token that is read ends before what is left. -/
theorem endsBefore_of_read? (h : read? cs = some (t, rest)) :
    t.EndsBefore rest ∧ cs = t.text ++ rest := by
  have hcs : cs ≠ [] := by
    rintro rfl
    cases h
  obtain ⟨t', rest', hread, hends, htext⟩ := exists_read? hcs
  obtain ⟨rfl, rfl⟩ := Prod.mk.inj (Option.some.inj (hread.symm.trans h))
  exact ⟨hends, htext⟩

/-- What is scanned token by token is a text with its tokens. -/
theorem Scans.tokenised (h : Scans cs ts) : Tokenised cs ts := by
  induction h with
  | done => exact .nil
  | reads hread _ ih =>
    obtain ⟨hends, rfl⟩ := endsBefore_of_read? hread
    exact .cons hends ih
  | passes hread =>
    obtain ⟨t, rest, hsome, -⟩ := exists_read? (List.cons_ne_nil _ _)
    cases hread.symm.trans hsome

/-- A text with its tokens is scanned token by token. -/
theorem Tokenised.scans (h : Tokenised cs ts) : Scans cs ts := by
  induction h with
  | nil => exact .done
  | cons hends _ ih => exact .reads (read?_text_append hends) ih

/-- A scan finds the tokens of the glob. -/
theorem scans_iff : Scans cs ts ↔ ts = tokens cs :=
  ⟨fun h => tokenised_iff.1 h.tokenised, fun h => (tokenised_iff.2 h).scans⟩

/-! ## The parts of a glob -/

namespace Token

/-- Two tokens that are runs of the same kind. -/
inductive SameRun : Token → Token → Prop
  | separators (m n : Nat) : SameRun (.separators m) (.separators n)
  | literals (c d : Char) (cs ds : List Char) : SameRun (.literal c cs) (.literal d ds)

/-- Two tokens that may be cut otherwise when they stand together: two tokens of stars, or two runs
of the same kind. -/
inductive Merges : Token → Token → Prop
  | stars {a b : Token} (ha : a = .segment ∨ a = .anything) (hb : b = .segment ∨ b = .anything) :
    Merges a b
  | run {a b : Token} (h : a.SameRun b) : Merges a b

theorem text_ne_nil (t : Token) : t.text ≠ [] := by
  cases t with
  | separators more => simp [text, List.replicate_succ]
  | anything | segment | one | escaped _ | literal _ _ | backslash => simp [text]

/-- Only a token of stars begins with a star. -/
theorem head?_text_ne_star (hu : u.EndsBefore rest) (h : ¬ (u = .segment ∨ u = .anything)) :
    (u.text ++ rest).head? ≠ some '*' := by
  cases u with
  | anything | segment => simp at h
  | literal first more =>
    have hfirst := ne_of_isOrdinary (hu.1 first List.mem_cons_self)
    simpa [text] using hfirst.1
  | one | escaped _ | separators _ | backslash => simp [text, List.replicate_succ]

/-- A run that ends where a token begins is not of the same kind. -/
theorem EndsBefore.not_sameRun (ht : t.EndsBefore (u.text ++ rest)) (hu : u.EndsBefore rest) :
    ¬ t.SameRun u := by
  intro h
  cases h with
  | separators m n => exact ht rfl
  | literals c d cs ds =>
    have hd : isOrdinary d = true := hu.1 d List.mem_cons_self
    have hd' : isOrdinary d = false := ht.2 d rfl
    rw [hd] at hd'
    cases hd'

/-- A token that ends at the end of a text ends before another text too, if the first token of that
text does not merge with it. -/
theorem EndsBefore.of_not_merges (ht : t.EndsBefore []) (hlone : t ≠ .backslash)
    (hu : u.EndsBefore rest) (h : ¬ t.Merges u) : t.EndsBefore (u.text ++ rest) := by
  cases t with
  | anything | one | escaped _ => trivial
  | segment => exact head?_text_ne_star hu fun hstar => h (.stars (.inl rfl) hstar)
  | separators more =>
    refine head?_text_ne_separator hu fun n hn => h ?_
    subst hn
    exact .run (.separators more n)
  | literal first more =>
    refine ⟨ht.1, head?_text_not_isOrdinary fun d ds hd => h ?_⟩
    subst hd
    exact .run (.literals first d more ds)
  | backslash => exact absurd rfl hlone

end Token

/-- A list of tokens makes up a text: no character is left out or used twice, no token is empty, no
run is cut in two, and a backslash by itself ends the text. -/
structure Parts (cs : List Char) (ts : List Token) : Prop where
  text : ts.flatMap Token.text = cs
  nonempty : ∀ t ∈ ts, t.text ≠ []
  runs : ts.IsChain fun t u => ¬ t.SameRun u
  backslash : ∀ before after, ts = before ++ .backslash :: after → after = []

/-- The texts of the tokens make up the whole text. -/
theorem Tokenised.flatMap_text (h : Tokenised cs ts) : ts.flatMap Token.text = cs := by
  induction h with
  | nil => rfl
  | cons _ _ ih => rw [List.flatMap_cons, ih]

/-- No two neighbouring tokens could be one. -/
theorem Tokenised.isChain (h : Tokenised cs ts) : ts.IsChain fun t u => ¬ t.SameRun u := by
  induction h with
  | nil => exact .nil
  | @cons t rest ts ht hts ih =>
    cases hts with
    | nil => exact .singleton t
    | cons hu hus => exact .cons_cons (ht.not_sameRun hu) ih

theorem Tokenised.of_append {before after : List Token}
    (h : Tokenised cs (before ++ after)) : ∃ rest, Tokenised rest after := by
  induction before generalizing cs with
  | nil => exact ⟨cs, h⟩
  | cons t before ih =>
    cases h with
    | cons _ hrest => exact ih hrest

/-- The tokens of a text are its parts. -/
theorem Tokenised.parts (h : Tokenised cs ts) : Parts cs ts where
  text := h.flatMap_text
  nonempty t _ := t.text_ne_nil
  runs := h.isChain
  backslash before after hts := by
    rw [hts] at h
    obtain ⟨rest, hrest⟩ := h.of_append
    cases hrest with
    | cons hends hafter =>
      obtain rfl : _ = [] := hends
      exact tokenised_iff.1 hafter

/-! ## Over a seam -/

/-- Nothing goes on over the seam between two globs of which these are the tokens. -/
structure Separate (ts us : List Token) : Prop where
  backslash : ts.getLast? ≠ some .backslash
  seam : ∀ t ∈ ts.getLast?, ∀ u ∈ us.head?, ¬ t.Merges u

/-- Texts whose tokens do not merge at the seam are tokenised apart. -/
theorem Tokenised.append_of_separate (h : Tokenised cs ts) (h' : Tokenised ds us)
    (hsep : Separate ts us) : Tokenised (cs ++ ds) (ts ++ us) := by
  refine h.append h' fun t ht => ?_
  have hend : t.EndsBefore [] := h.endsBefore_nil t ht
  have hlone : t ≠ .backslash := by
    rintro rfl
    exact hsep.backslash ht
  cases h' with
  | nil => exact hend
  | @cons u rest us hu _ => exact hend.of_not_merges hlone hu (hsep.seam t ht u rfl)

/-- The scan of a glob finds its tokens, these make up the glob, and two globs that are put together
have the tokens of the one and then those of the other, if nothing goes on over the seam. -/
theorem scanned_tokens_parts (g : String) :
    (∀ ts, Scans g.toList ts ↔ ts = tokens g.toList) ∧
      Parts g.toList (tokens g.toList) ∧
      ∀ h : String, Separate (tokens g.toList) (tokens h.toList) →
        tokens (g ++ h).toList = tokens g.toList ++ tokens h.toList := by
  refine ⟨fun ts => scans_iff, (tokenised_tokens g.toList).parts, fun h hsep => ?_⟩
  have happend : Tokenised (g.toList ++ h.toList) (tokens g.toList ++ tokens h.toList) :=
    (tokenised_tokens g.toList).append_of_separate (tokenised_tokens h.toList) hsep
  rw [String.toList_append]
  exact (tokenised_iff.1 happend).symm

/-- Stars and a line break that a backslash makes literal stand at the seam. -/
theorem scanned_tokens_seam :
    Separate (tokens "**/a\\\n".toList) (tokens "*//b\\".toList) ∧
      tokens ("**/a\\\n" ++ "*//b\\").toList =
        [.anything, .separators 0, .literal 'a' [], .escaped '\n', .segment, .separators 1,
          .literal 'b' [], .backslash] := by
  have hfirst : tokens "**/a\\\n".toList =
      [.anything, .separators 0, .literal 'a' [], .escaped '\n'] := by decide +kernel
  have hsecond : tokens "*//b\\".toList =
      [.segment, .separators 1, .literal 'b' [], .backslash] := by decide +kernel
  have hsep : Separate (tokens "**/a\\\n".toList) (tokens "*//b\\".toList) := by
    rw [hfirst, hsecond]
    refine ⟨by decide, fun t ht u hu hmerges => ?_⟩
    obtain rfl := Option.some.inj ht
    cases hmerges with
    | stars ht hu => simp at ht
    | run hrun => cases hrun
  obtain ⟨-, -, happend⟩ := scanned_tokens_parts "**/a\\\n"
  refine ⟨hsep, ?_⟩
  rw [happend _ hsep, hfirst, hsecond]
  rfl

end ModulePath.Glob
